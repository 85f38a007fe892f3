import AsyncGateway.Admin.App
import AsyncGateway.Lib.Pattern

/-!
# Admin — the keys of the replays

A replay has the key of its parent up to the first `#attempt`, then `#attempt` and its number, one
more than the number after the last `#attempt` of the parent.  The `#` of the marker comes only at
its beginning, and no number has one, so what is cut off is what was put on
(`beforeAttempt_retryKey`, `attemptOf_retryKey`): the key of a replay of a replay has one number,
and the keys of a chain of replays have one base and numbers that grow, as long as `str` and `int`
take them (`retryKey?_chain`).  So no two rows of such a chain have one key
(`idempotencyKey_ne_of_rows`).
-/

namespace AsyncGateway

namespace AdminApp

def attemptMarker : List Char := ['#', 'a', 't', 't', 'e', 'm', 'p', 't']

theorem toList_attemptMarker : "#attempt".toList = attemptMarker := by decide

/-- `retry_key`; none is the `ValueError` of `str` on a number of too many digits. -/
def retryKey? (baseKey : String) (attempt : ℤ) : Option String :=
  if Text.Short (max 1 attempt) then some (retryKey baseKey attempt) else none

/-! ### Where the key is cut -/

section Cut

variable {cs xs ys : List Char}

theorem beforeAttempt_cons (c : Char) (cs : List Char) :
    beforeAttempt (c :: cs) =
      if attemptMarker <+: c :: cs then [] else c :: beforeAttempt cs := by
  rw [beforeAttempt, toList_attemptMarker]
  exact if_congr List.isPrefixOf_iff_prefix rfl rfl

theorem afterAttempt_cons (c : Char) (cs : List Char) :
    afterAttempt (c :: cs) =
      (afterAttempt cs).or
        (if attemptMarker <+: c :: cs then some ((c :: cs).drop 8) else none) := by
  rw [afterAttempt, toList_attemptMarker]
  exact congrArg _ (if_congr List.isPrefixOf_iff_prefix rfl rfl)

theorem prefix_beforeAttempt (cs : List Char) : beforeAttempt cs <+: cs := by
  induction cs with
  | nil => exact List.prefix_rfl
  | cons c cs ih =>
      rw [beforeAttempt_cons]
      split
      · exact List.nil_prefix
      · exact (List.prefix_cons_inj c).mpr ih

/-- What is before the first marker has none. -/
theorem not_marker_beforeAttempt (cs : List Char) : ¬ attemptMarker <:+: beforeAttempt cs := by
  induction cs with
  | nil => exact fun h => absurd (List.infix_nil.mp h) (by decide)
  | cons c cs ih =>
      rw [beforeAttempt_cons]
      split
      · exact fun h => absurd (List.infix_nil.mp h) (by decide)
      · next hno =>
          intro h
          rcases List.infix_cons_iff.mp h with h | h
          · exact hno (h.trans ((List.prefix_cons_inj c).mpr (prefix_beforeAttempt cs)))
          · exact ih h

theorem beforeAttempt_of_not_marker (h : ¬ attemptMarker <:+: cs) : beforeAttempt cs = cs := by
  induction cs with
  | nil => rfl
  | cons c cs ih =>
      rw [beforeAttempt_cons, if_neg fun hp => h hp.isInfix,
        ih fun hin => h (hin.trans (List.suffix_cons c cs).isInfix)]

/-- The marker after a text without one is the first. -/
theorem beforeAttempt_append (h : ¬ attemptMarker <:+: xs) (ys : List Char) :
    beforeAttempt (xs ++ (attemptMarker ++ ys)) = xs := by
  induction xs with
  | nil =>
      have hp : attemptMarker <+: attemptMarker ++ ys := List.prefix_append _ _
      exact (beforeAttempt_cons '#' _).trans (if_pos hp)
  | cons c xs ih =>
      have hno : ¬ attemptMarker <+: c :: (xs ++ (attemptMarker ++ ys)) := fun hp =>
        h (Pattern.prefix_append_marker (by decide) (List.cons_ne_nil c xs) hp).isInfix
      rw [List.cons_append, beforeAttempt_cons, if_neg hno,
        ih fun hin => h (hin.trans (List.suffix_cons c xs).isInfix)]

theorem afterAttempt_of_not_mem (h : '#' ∉ cs) : afterAttempt cs = none := by
  induction cs with
  | nil => rfl
  | cons c cs ih =>
      have hno : ¬ attemptMarker <+: c :: cs := fun hp => h (hp.subset (by decide))
      rw [afterAttempt_cons, ih fun hc => h (List.mem_cons_of_mem c hc), if_neg hno]
      rfl

/-- The marker before a text without a `#` is the last. -/
theorem afterAttempt_append (xs : List Char) (h : '#' ∉ ys) :
    afterAttempt (xs ++ (attemptMarker ++ ys)) = some ys := by
  induction xs with
  | nil =>
      have hp : attemptMarker <+: attemptMarker ++ ys := List.prefix_append _ _
      have htail : '#' ∉ attemptMarker.tail ++ ys := by
        simp only [List.mem_append, not_or]
        exact ⟨by decide, h⟩
      have hcons := afterAttempt_cons '#' (attemptMarker.tail ++ ys)
      rw [afterAttempt_of_not_mem htail, Option.none_or] at hcons
      exact hcons.trans (if_pos hp)
  | cons c xs ih => rw [List.cons_append, afterAttempt_cons, ih, Option.some_or]

end Cut

/-! ### The keys -/

section Keys

variable {k : String} {n : ℤ}

theorem toList_retryKey (k : String) (n : ℤ) :
    (retryKey k n).toList =
      beforeAttempt k.toList ++ (attemptMarker ++ (toString (max 1 n)).toList) := by
  rw [retryKey, String.toList_append, String.toList_append, String.toList_ofList,
    List.append_assoc, toList_attemptMarker]

theorem not_mem_number (n : ℤ) : '#' ∉ (toString n).toList := by
  intro h
  rcases Text.mem_toString h with hno | hno
  · exact absurd hno (by decide)
  · exact absurd hno (by decide)

/-- A replay keeps the base. -/
theorem beforeAttempt_retryKey (k : String) (n : ℤ) :
    beforeAttempt (retryKey k n).toList = beforeAttempt k.toList := by
  rw [toList_retryKey, beforeAttempt_append (not_marker_beforeAttempt k.toList)]

/-- Its number is read back, but for the limit of `int`. -/
theorem attemptOf_retryKey (k : String) (n : ℤ) :
    attemptOf (retryKey k n) = if Text.Short (max 1 n) then max 1 n else 1 := by
  rw [attemptOf, toList_retryKey, afterAttempt_append _ (not_mem_number _)]
  simp only [Text.int?_toString]
  split <;> rfl

theorem retryKey_congr {k' : String} (h : beforeAttempt k'.toList = beforeAttempt k.toList)
    (n : ℤ) : retryKey k' n = retryKey k n := by
  rw [retryKey, retryKey, h]

/-- A key is its base and its number. -/
theorem retryKey_inj {k k' : String} {n n' : ℤ} :
    retryKey k n = retryKey k' n' ↔
      beforeAttempt k.toList = beforeAttempt k'.toList ∧ max 1 n = max 1 n' := by
  constructor
  · intro h
    have hbase : beforeAttempt k.toList = beforeAttempt k'.toList := by
      rw [← beforeAttempt_retryKey k n, h, beforeAttempt_retryKey]
    have htext := congrArg String.toList h
    rw [toList_retryKey, toList_retryKey, hbase] at htext
    have hnumber := List.append_cancel_left (List.append_cancel_left htext)
    exact ⟨hbase, Text.toString_injective (String.toList_inj.mp hnumber)⟩
  · rintro ⟨hbase, hnumber⟩
    rw [retryKey, retryKey, hbase, hnumber]

theorem retryKey?_max (k : String) (n : ℤ) : retryKey? k (max 1 n) = retryKey? k n := by
  have hmax : max 1 (max 1 n) = max 1 n := max_eq_right (le_max_left 1 n)
  rw [retryKey?, retryKey?, hmax, retryKey_inj.mpr ⟨rfl, hmax⟩]

theorem retryKey?_eq_some {key : String} :
    retryKey? k n = some key ↔ Text.Short (max 1 n) ∧ retryKey k n = key := by
  rw [retryKey?, Option.ite_none_right_eq_some, Option.some.injEq]

/-- The key of a replay has the number it was made with, and makes the keys its parent makes. -/
theorem attemptOf_of_retryKey? {key : String} (h : retryKey? k n = some key) :
    attemptOf key = max 1 n ∧ ∀ m, retryKey? key m = retryKey? k m := by
  obtain ⟨hshort, rfl⟩ := retryKey?_eq_some.mp h
  constructor
  · rw [attemptOf_retryKey, if_pos hshort]
  · intro m
    rw [retryKey?, retryKey?, retryKey_congr (beforeAttempt_retryKey k n)]

end Keys

/-! ### The keys of a chain of replays -/

section Chain

variable {k key : String} {i j : ℕ}

/-- The keys of a task and of its replays, each of the one before it. -/
def replays (k : String) : ℕ → Option String
  | 0 => some k
  | j + 1 => (replays k j).bind fun key => retryKey? key (attemptOf key + 1)

/-- Every replay has the key of the first with a number of its own. -/
theorem replays_succ (k : String) (j : ℕ) :
    replays k (j + 1) = retryKey? k (max 1 (attemptOf k + 1) + j) := by
  induction j with
  | zero =>
      rw [replays, replays, Option.bind_some, Nat.cast_zero, add_zero, retryKey?_max]
  | succ j ih =>
      have hone : 1 ≤ max 1 (attemptOf k + 1) := le_max_left ..
      rw [replays, ih]
      generalize max 1 (attemptOf k + 1) = first at hone
      cases hkey : retryKey? k (first + j) with
      | some key =>
          -- the number read back is the one that was written
          obtain ⟨hnumber, hnext⟩ := attemptOf_of_retryKey? hkey
          have hlast : max 1 (first + j) + 1 = first + (j + 1 : ℕ) := by
            rw [max_eq_right (by omega)]
            omega
          rw [Option.bind_some, hnext, hnumber, hlast]
      | none =>
          -- nor can any larger number be written
          have hlong : ¬ Text.Short (max 1 (first + j)) := fun hshort => by
            rw [retryKey?, if_pos hshort] at hkey
            cases hkey
          refine (if_neg fun hshort => hlong ?_).symm
          exact Text.short_of_le hshort (by omega) (by omega)

theorem isSome_replays :
    (replays k (j + 1)).isSome = true ↔ Text.Short (max 1 (attemptOf k + 1) + j) := by
  have hone : 1 ≤ max 1 (attemptOf k + 1) + j := by omega
  rw [replays_succ, retryKey?, max_eq_right hone]
  by_cases hshort : Text.Short (max 1 (attemptOf k + 1) + j)
  · simp [hshort]
  · simp [hshort]

theorem base_of_replays (h : replays k j = some key) :
    beforeAttempt key.toList = beforeAttempt k.toList := by
  cases j with
  | zero =>
      cases h
      rfl
  | succ j =>
      rw [replays_succ] at h
      obtain ⟨-, rfl⟩ := retryKey?_eq_some.mp h
      exact beforeAttempt_retryKey _ _

/-- Along the chain the numbers grow. -/
theorem attemptOf_lt_of_replays {key' : String} (h : replays k i = some key)
    (h' : replays k j = some key') (hij : i < j) : attemptOf key < attemptOf key' := by
  obtain ⟨j, rfl⟩ := Nat.exists_eq_add_one_of_ne_zero (Nat.ne_zero_of_lt hij)
  rw [replays_succ] at h'
  have hlater := (attemptOf_of_retryKey? h').1
  cases i with
  | zero =>
      cases h
      omega
  | succ i =>
      rw [replays_succ] at h
      have hearlier := (attemptOf_of_retryKey? h).1
      omega

/-- **Replay keys form a chain**, for numbers of at most 4300 digits. -/
theorem retryKey?_chain (k : String) :
    (∀ m n, Text.Short (max 1 m) → Text.Short (max 1 n) →
      (retryKey? k n).map attemptOf = some (max 1 n) ∧
        (retryKey? k m).bind (retryKey? · n) = retryKey? k n ∧
        ∀ k₁ k₂ : String, ¬ attemptMarker <:+: k₁.toList → ¬ attemptMarker <:+: k₂.toList →
          (retryKey? k₁ n = retryKey? k₂ m ↔ k₁ = k₂ ∧ max 1 n = max 1 m)) ∧
      ∀ j, ((replays k (j + 1)).isSome = true ↔ Text.Short (max 1 (attemptOf k + 1) + j)) ∧
        ∀ key ∈ replays k j, beforeAttempt key.toList = beforeAttempt k.toList ∧
          ∀ i < j, replays k i ≠ some key := by
  constructor
  · intro m n hm hn
    have hkey : retryKey? k n = some (retryKey k n) := if_pos hn
    have hkey' : retryKey? k m = some (retryKey k m) := if_pos hm
    refine ⟨?_, ?_, fun k₁ k₂ h₁ h₂ => ?_⟩
    · rw [hkey, Option.map_some, (attemptOf_of_retryKey? hkey).1]
    · rw [hkey', Option.bind_some, (attemptOf_of_retryKey? hkey').2]
    · rw [retryKey?, if_pos hn, retryKey?, if_pos hm, Option.some.injEq, retryKey_inj,
        beforeAttempt_of_not_marker h₁, beforeAttempt_of_not_marker h₂, String.toList_inj]
  · intro j
    refine ⟨isSome_replays, fun key hkey => ⟨base_of_replays hkey, fun i hi h => ?_⟩⟩
    exact absurd (attemptOf_lt_of_replays h hkey hi) (lt_irrefl _)

/-- From a key that is one of a replay. -/
theorem retryKey?_chain_sample :
    (retryKey? "order-7#attempt2" (-1)).bind (retryKey? · 3) = retryKey? "order-7#attempt2" 3 ∧
      (replays "order-7#attempt2" 1).isSome = true := by
  have hone : Text.Short (max 1 (-1)) := Text.short_of_digit (by decide)
  have hthree : Text.Short (max 1 3) := Text.short_of_digit (by decide)
  have hnumber : attemptOf "order-7#attempt2" = 2 := by decide +kernel
  refine ⟨((retryKey?_chain "order-7#attempt2").1 (-1) 3 hone hthree).2.1, ?_⟩
  refine (((retryKey?_chain "order-7#attempt2").2 0).1).mpr ?_
  rw [hnumber]
  exact Text.short_of_digit (by decide)

/-- A number of too many digits is not written, let alone read back. -/
theorem retryKey?_tooLong :
    retryKey? "order-7" Text.tooLong = none ∧
      ¬ ∀ k n, (retryKey? k n).map attemptOf = some (max 1 n) := by
  have hnone : retryKey? "order-7" Text.tooLong = none := by
    rw [retryKey?, max_eq_right Text.one_le_tooLong, if_neg Text.not_short_tooLong]
  refine ⟨hnone, fun h => ?_⟩
  have hread := h "order-7" Text.tooLong
  rw [hnone] at hread
  cases hread

/-! ### Rows that are replays -/

/-- One row is the replay of another. -/
def IsReplay (parent child : TaskRecord) : Prop :=
  ∃ t call childId bucketAt deadlineFrom token,
    child = replayRow parent t call childId bucketAt deadlineFrom token

theorem key_of_isReplay {parent child : TaskRecord} (h : IsReplay parent child) :
    child.idempotencyKey =
      retryKey parent.idempotencyKey (attemptOf parent.idempotencyKey + 1) := by
  obtain ⟨t, call, childId, bucketAt, deadlineFrom, token, rfl⟩ := h
  rfl

/-- Rows that are replays, each of the one before it, have the keys of the chain. -/
theorem key_of_rows {rows : ℕ → TaskRecord} (h : ∀ j, IsReplay (rows j) (rows (j + 1)))
    (hj : Text.Short (max 1 (attemptOf (rows 0).idempotencyKey + 1) + j)) :
    replays (rows 0).idempotencyKey (j + 1) = some (rows (j + 1)).idempotencyKey := by
  induction j with
  | zero =>
      rw [Nat.cast_zero, add_zero] at hj
      rw [replays, replays, Option.bind_some, key_of_isReplay (h 0)]
      exact retryKey?_eq_some.mpr ⟨hj, rfl⟩
  | succ j ih =>
      obtain ⟨key, hkey⟩ := Option.isSome_iff_exists.mp (isSome_replays.mpr hj)
      have hone : 1 ≤ max 1 (attemptOf (rows 0).idempotencyKey + 1) := le_max_left ..
      have hbefore := ih (Text.short_of_le hj (by omega) (by omega))
      have hnext := hkey
      rw [replays, hbefore, Option.bind_some] at hnext
      rw [hkey, key_of_isReplay (h (j + 1)), (retryKey?_eq_some.mp hnext).2]

/-- **No two rows of such a chain have one key.** -/
theorem idempotencyKey_ne_of_rows {rows : ℕ → TaskRecord}
    (h : ∀ j, IsReplay (rows j) (rows (j + 1))) (hij : i < j)
    (hj : Text.Short (max 1 (attemptOf (rows 0).idempotencyKey + 1) + j)) :
    (rows i).idempotencyKey ≠ (rows j).idempotencyKey := by
  have hone : 1 ≤ max 1 (attemptOf (rows 0).idempotencyKey + 1) := le_max_left ..
  have hkeys : ∀ l ≤ j, replays (rows 0).idempotencyKey l = some (rows l).idempotencyKey := by
    intro l hl
    cases l with
    | zero => rfl
    | succ l => exact key_of_rows h (Text.short_of_le hj (by omega) (by omega))
  intro heq
  have hlt := attemptOf_lt_of_replays (hkeys i hij.le) (hkeys j le_rfl) hij
  rw [heq] at hlt
  exact lt_irrefl _ hlt

end Chain

end AdminApp

end AsyncGateway
