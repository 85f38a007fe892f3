import Mathlib.Algebra.Order.Group.Basic
import Mathlib.Data.List.Basic
import Mathlib.Tactic.Abel

/-!
# Library — a limit on what a window of time admits

A limiter that keeps the times of what it admitted, forgets those that are a span ago or longer, and
admits where fewer than a limit are left (`decision`).  What it forgets never matters again, so it
decides as one that remembers everything does (`decisions_eq_history`), and no window of one span
holds more than the limit of what it admitted (`Spread`); nor do `n` spans hold more than `n` times
as much (`Spread.length_le`).
-/

namespace Window

variable {α : Type} [AddCommGroup α] [LinearOrder α]

/-- The times less than a span ago. -/
def recent (span : α) (log : List α) (now : α) : List α :=
  log.filter fun t => decide (now - t < span)

/-- One decision: what is a span ago is forgotten in any case. -/
def decision (limit : ℕ) (span now : α) (log : List α) : Bool × List α :=
  if limit ≤ (recent span log now).length then (false, recent span log now)
  else (true, recent span log now ++ [now])

/-- The decisions at a sequence of times. -/
def decisions (limit : ℕ) (span : α) : List α → List α → List (α × Bool)
  | [], _ => []
  | now :: times, log =>
      (now, (decision limit span now log).1) ::
        decisions limit span times (decision limit span now log).2

/-- The decisions of a limiter that remembers what it admitted. -/
def history (limit : ℕ) (span : α) : List α → List α → List (α × Bool)
  | [], _ => []
  | now :: times, admitted =>
      let fine := decide ((recent span admitted now).length < limit)
      (now, fine) :: history limit span times (if fine then admitted ++ [now] else admitted)

/-- The times that were admitted. -/
def granted (ds : List (α × Bool)) : List α := (ds.filter (·.2)).map (·.1)

/-- **A window of one span holds no more than the limit.** -/
def Spread (limit : ℕ) (span : α) (admitted : List α) : Prop :=
  ∀ s, (admitted.filter fun t => decide (s ≤ t ∧ t < s + span)).length ≤ limit

/-- From a time on, the log counts as all that was admitted does. -/
def Tracks (span : α) (log admitted : List α) (now : α) : Prop :=
  ∀ u, now ≤ u → recent span log u = recent span admitted u

variable {limit : ℕ} {span now : α} {log admitted : List α}

theorem recent_append (l l' : List α) :
    recent span (l ++ l') now = recent span l now ++ recent span l' now :=
  List.filter_append ..

theorem Tracks.mono {later : α} (h : Tracks span log admitted now) (hle : now ≤ later) :
    Tracks span log admitted later := fun u hu => h u (hle.trans hu)

/-- The log decides as all that was admitted would. -/
theorem Tracks.decision_fst (limit : ℕ) (h : Tracks span log admitted now) :
    (decision limit span now log).1 = decide ((recent span admitted now).length < limit) := by
  rw [decision, h now le_rfl]
  by_cases hfull : limit ≤ (recent span admitted now).length
  · rw [if_pos hfull, decide_eq_false (Nat.not_lt.mpr hfull)]
  · rw [if_neg hfull, decide_eq_true (Nat.not_le.mp hfull)]

theorem recent_recent [IsOrderedAddMonoid α] {u : α} (hu : now ≤ u) :
    recent span (recent span log now) u = recent span log u := by
  rw [recent, recent, recent, List.filter_filter]
  refine List.filter_congr fun t _ => ?_
  by_cases ht : u - t < span
  · have hnow : now - t < span := (sub_le_sub_right hu t).trans_lt ht
    simp [ht, hnow]
  · simp [ht]

/-- What a decision forgets does not count any more. -/
theorem Tracks.decision [IsOrderedAddMonoid α] (limit : ℕ) (h : Tracks span log admitted now) :
    Tracks span (decision limit span now log).2
      (if (Window.decision limit span now log).1 then admitted ++ [now] else admitted) now := by
  intro u hu
  have hkept : recent span (recent span log now) u = recent span admitted u :=
    (recent_recent hu).trans (h u hu)
  rw [Window.decision]
  split
  · exact hkept
  · simp only [if_true, recent_append, hkept]

/-- **The limiter decides as one that remembers everything does.** -/
theorem decisions_eq_history [IsOrderedAddMonoid α] {times : List α}
    (h : Tracks span log admitted now) (hle : ∀ t ∈ times, now ≤ t)
    (hsorted : times.Pairwise (· ≤ ·)) :
    decisions limit span times log = history limit span times admitted := by
  induction times generalizing log admitted now with
  | nil => rfl
  | cons t times ih =>
      obtain ⟨hfirst, hrest⟩ := List.pairwise_cons.mp hsorted
      have ht := h.mono (hle t List.mem_cons_self)
      have hnext := ih (ht.decision limit) hfirst hrest
      rw [decisions, hnext, ht.decision_fst limit]
      rfl

theorem Spread.nil : Spread limit span ([] : List α) := fun _ => Nat.zero_le _

/-- Admitting where fewer than the limit are recent keeps the windows. -/
theorem Spread.append [IsOrderedAddMonoid α] (h : Spread limit span admitted)
    (hroom : (recent span admitted now).length < limit) :
    Spread limit span (admitted ++ [now]) := by
  intro s
  rw [List.filter_append, List.length_append]
  by_cases hin : s ≤ now ∧ now < s + span
  · -- what the window holds is recent
    have hsub : (admitted.filter fun t => decide (s ≤ t ∧ t < s + span)).length ≤
        (recent span admitted now).length := by
      refine (List.monotone_filter_right _ fun t ht => ?_).length_le
      have ht' := of_decide_eq_true ht
      refine decide_eq_true ((sub_le_sub_left ht'.1 now).trans_lt ?_)
      rw [sub_lt_iff_lt_add']
      exact hin.2
    have hone : ([now].filter fun t => decide (s ≤ t ∧ t < s + span)).length ≤ 1 :=
      List.length_filter_le _ _
    omega
  · have hnone : [now].filter (fun t => decide (s ≤ t ∧ t < s + span)) = [] := by
      simp [hin]
    rw [hnone]
    exact h s

/-- The windows of a limiter that remembers everything. -/
theorem spread_history [IsOrderedAddMonoid α] (times : List α)
    (h : Spread limit span admitted) :
    Spread limit span (admitted ++ granted (history limit span times admitted)) := by
  induction times generalizing admitted with
  | nil => simpa [history, granted] using h
  | cons now times ih =>
      rw [history]
      by_cases hroom : (recent span admitted now).length < limit
      · have hnext := ih (h.append hroom)
        simpa [granted, hroom] using hnext
      · simpa [granted, hroom] using ih h

/-- **`n` spans hold no more than `n` times the limit.** -/
theorem Spread.length_le [IsOrderedAddMonoid α] (h : Spread limit span admitted) {n : ℕ} {s : α}
    (hin : ∀ t ∈ admitted, s ≤ t ∧ t < s + n • span) : admitted.length ≤ n * limit := by
  induction n generalizing s admitted with
  | zero =>
      have hnone : admitted = [] := List.eq_nil_iff_forall_not_mem.mpr fun t ht => by
        have hlt := hin t ht
        rw [zero_nsmul, add_zero] at hlt
        exact absurd hlt.2 (not_lt.mpr hlt.1)
      rw [hnone]
      exact Nat.zero_le _
  | succ n ih =>
      -- the times before the last span, and those in it
      have hsplit := List.length_eq_length_filter_add (l := admitted)
        fun t => decide (t < s + n • span)
      have hearly : (admitted.filter fun t => decide (t < s + n • span)).length ≤ n * limit := by
        refine ih (fun u => ?_) (s := s) fun t ht => ?_
        · refine le_trans ?_ (h u)
          exact (List.filter_sublist.filter _).length_le
        · obtain ⟨hmem, hlt⟩ := List.mem_filter.mp ht
          exact ⟨(hin t hmem).1, of_decide_eq_true hlt⟩
      have hlate : (admitted.filter fun t => !decide (t < s + n • span)).length ≤ limit := by
        have hfilter : (admitted.filter fun t => !decide (t < s + n • span)) =
            admitted.filter fun t => decide (s + n • span ≤ t ∧ t < s + n • span + span) := by
          refine List.filter_congr fun t ht => ?_
          have hlt := (hin t ht).2
          rw [succ_nsmul, ← add_assoc] at hlt
          by_cases hc : t < s + n • span
          · simp [hc]
          · simp [hc, not_lt.mp hc, hlt]
        rw [hfilter]
        exact h _
      rw [Nat.succ_mul]
      omega

end Window
