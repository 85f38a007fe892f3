import AsyncGateway.Infra.Polling
import Mathlib.Data.NNRat.Floor

/-!
# Infra — the pause an upstream asked for

Every 429 with a `Retry-After` sets the pause of the channel anew, so the pause is the one that was
asked for last (`pausedFor_after`).  `Covers` says that it is as long as every one that was asked
for; `pause_covers_iff` says that it is, all along, exactly where none asks for an earlier end than
one before it.
-/

namespace AsyncGateway

variable (P : PollingController)

/-- A call at its time. -/
abbrev PollingEvent := ℚ≥0 × PollingCall

/-- The calls come in the order of their times, and none resets the channel. -/
structure Uninterrupted (history : List PollingEvent) (channel : String) : Prop where
  ordered : history.Pairwise fun e e' => e.1 ≤ e'.1
  no_reset : ∀ e ∈ history, ∀ includeSamples, e.2 ≠ .reset channel includeSamples

/-- From the last call on, the channel is paused for as long as any of them asked. -/
def Covers (history : List PollingEvent) (channel : String) : Prop :=
  ∀ t, (∀ e ∈ history, e.1 ≤ t) → ∀ e ∈ history, ∀ retryAfter : Option ℚ≥0,
    e.2 = .noteRateLimited channel retryAfter →
      ((e.1 : ℚ) + (retryAfter.getD 0 : ℚ≥0)) - t ≤ P.pausedFor t (P.after history) channel

/-- No call asks for a pause that ends before one an earlier call asked for. -/
def Lengthens (history : List PollingEvent) (channel : String) : Prop :=
  history.Pairwise fun e e' => ∀ retryAfter : Option ℚ≥0, ∀ r : ℚ≥0,
    e.2 = .noteRateLimited channel retryAfter → e'.2 = .noteRateLimited channel (some r) → r ≠ 0 →
      e.1 + retryAfter.getD 0 ≤ e'.1 + r

section Pauses

variable {P} {S : PollSettings} {history : List PollingEvent} {e : PollingEvent} {channel : String}

theorem Uninterrupted.sublist {history' : List PollingEvent} (h : Uninterrupted history channel)
    (hsub : history'.Sublist history) : Uninterrupted history' channel :=
  ⟨h.ordered.sublist hsub, fun e he => h.no_reset e (hsub.subset he)⟩

theorem after_concat (history : List PollingEvent) (e : PollingEvent) :
    P.after (history ++ [e]) = P.call e.1 e.2 (P.after history) := by
  simp [PollingController.after]

/-- A call that asks for a pause sets it. -/
theorem pausedFor_after (hP : LawfulPolling S P) {r : ℚ≥0}
    (he : e.2 = .noteRateLimited channel (some r)) (hr : r ≠ 0) (t : ℚ≥0) :
    P.pausedFor t (P.after (history ++ [e])) channel = max 0 ((e.1 : ℚ) + r - t) := by
  rw [after_concat, he, hP.paused_limited _ _ _ _ _ hr]

/-- One call more covers what was asked for, where it does not shorten it. -/
theorem Covers.concat (hP : LawfulPolling S P) (h : Covers P history channel)
    (hreset : ∀ includeSamples, e.2 ≠ .reset channel includeSamples)
    (hlonger : ∀ e₀ ∈ history, ∀ retryAfter : Option ℚ≥0, ∀ r : ℚ≥0,
      e₀.2 = .noteRateLimited channel retryAfter → e.2 = .noteRateLimited channel (some r) →
        r ≠ 0 → e₀.1 + retryAfter.getD 0 ≤ e.1 + r) :
    Covers P (history ++ [e]) channel := by
  intro t ht e₀ he₀ retryAfter hcall
  have hnow : (e.1 : ℚ) ≤ t := NNRat.cast_le.mpr (ht e (by simp))
  -- the call sets a pause, or leaves the one there is
  by_cases hset : ∃ r : ℚ≥0, e.2 = .noteRateLimited channel (some r) ∧ r ≠ 0
  · obtain ⟨r, he, hr⟩ := hset
    rw [pausedFor_after hP he hr]
    refine le_max_of_le_right (sub_le_sub_right ?_ _)
    rcases List.mem_append.mp he₀ with he₀ | he₀
    · exact_mod_cast hlonger e₀ he₀ retryAfter r hcall he hr
    · cases List.mem_singleton.mp he₀
      rw [he] at hcall
      cases hcall
      exact le_rfl
  · have hkeep : ¬ PollingCall.Repauses channel e.2 := by
      intro hrep
      cases hc : e.2 with
      | noteRateLimited ch retryAfter =>
          rw [hc] at hrep
          obtain ⟨rfl, r, rfl, hr⟩ := hrep
          exact hset ⟨r, hc, hr⟩
      | reset ch includeSamples =>
          rw [hc] at hrep
          cases hrep
          exact hreset _ hc
      | _ => rw [hc] at hrep; exact hrep
    rw [after_concat, hP.paused_call _ _ _ _ _ hkeep]
    rcases List.mem_append.mp he₀ with he₀ | he₀
    · exact h t (fun e he => ht e (List.mem_append_left _ he)) e₀ he₀ retryAfter hcall
    · -- the call asks for no pause of its own
      cases List.mem_singleton.mp he₀
      have hzero : retryAfter.getD 0 = 0 := by
        cases retryAfter with
        | none => rfl
        | some r => exact not_not.mp fun hr => hset ⟨r, hcall, hr⟩
      rw [hzero, NNRat.cast_zero, add_zero]
      exact (sub_nonpos.mpr hnow).trans (hP.paused_nonneg _ _ _)

theorem Lengthens.covers (hP : LawfulPolling S P) (hu : Uninterrupted history channel)
    (h : Lengthens history channel) : Covers P history channel := by
  induction history using List.reverseRecOn with
  | nil => exact fun _ _ _ he => absurd he List.not_mem_nil
  | append_singleton history e ih =>
      obtain ⟨hold, -, hnew⟩ := List.pairwise_append.mp h
      have hu' := hu.sublist (List.sublist_append_left history [e])
      exact (ih hu' hold).concat hP (hu.no_reset e (by simp)) fun e₀ he₀ =>
        hnew e₀ he₀ e (List.mem_singleton_self e)

/-- A covering of every beginning shortens no pause. -/
theorem lengthens_of_covers (hP : LawfulPolling S P) (hu : Uninterrupted history channel)
    (h : ∀ start, start <+: history → Covers P start channel) : Lengthens history channel := by
  induction history using List.reverseRecOn with
  | nil => exact List.Pairwise.nil
  | append_singleton history e ih =>
      have hu' := hu.sublist (List.sublist_append_left history [e])
      have hold := ih hu' fun start hs => h start (hs.trans (List.prefix_append _ _))
      refine List.pairwise_append.mpr ⟨hold, List.pairwise_singleton _ _, ?_⟩
      intro e₀ he₀ e' he' retryAfter r hcall he hr
      cases List.mem_singleton.mp he'
      have hbefore : ∀ e₁ ∈ history ++ [e], e₁.1 ≤ e.1 := by
        intro e₁ he₁
        rcases List.mem_append.mp he₁ with he₁ | he₁
        · exact (List.pairwise_append.mp hu.ordered).2.2 e₁ he₁ e (List.mem_singleton_self e)
        · cases List.mem_singleton.mp he₁
          exact le_rfl
      have hcovers := h _ List.prefix_rfl e.1 hbefore e₀ (List.mem_append_left _ he₀) retryAfter
        hcall
      rw [pausedFor_after hP he hr, add_sub_cancel_left, max_eq_right (NNRat.cast_nonneg r)]
        at hcovers
      have hends : (e₀.1 : ℚ) + (retryAfter.getD 0 : ℚ≥0) ≤ e.1 + r := by linarith
      exact_mod_cast hends

end Pauses

/-- **The pause is as long as any that was asked for, all along, exactly where none ends before an
earlier one**, in both controllers. -/
theorem pause_covers_iff (S : PollSettings) {history : List PollingEvent} {channel : String}
    (hu : Uninterrupted history channel) :
    ((∀ start, start <+: history → Covers (MemoryPolling.controller S) start channel) ∧
        ∀ start, start <+: history → Covers (RedisPolling.controller S) start channel) ↔
      Lengthens history channel := by
  constructor
  · exact fun h => lengthens_of_covers (MemoryPolling.lawful S) hu h.1
  · intro h
    have hstart : ∀ start, start <+: history →
        Uninterrupted start channel ∧ Lengthens start channel := fun start hs =>
      ⟨hu.sublist hs.sublist, List.Pairwise.sublist hs.sublist h⟩
    exact ⟨fun start hs => (hstart start hs).2.covers (MemoryPolling.lawful S) (hstart start hs).1,
      fun start hs => (hstart start hs).2.covers (RedisPolling.lawful S) (hstart start hs).1⟩

/-- A minute's pause, and a second later one of a second. -/
def shortened : List PollingEvent :=
  [(0, .noteRateLimited "midjourney" (some 60)), (1, .noteRateLimited "midjourney" (some 1))]

theorem shortened_uninterrupted : Uninterrupted shortened "midjourney" := by
  constructor
  · simp [shortened]
  · simp [shortened]

theorem pause_covers_shortened :
    ((∀ start, start <+: shortened → Covers (MemoryPolling.controller {}) start "midjourney") ∧
        ∀ start, start <+: shortened → Covers (RedisPolling.controller {}) start "midjourney") ↔
      Lengthens shortened "midjourney" :=
  pause_covers_iff {} shortened_uninterrupted

theorem not_covers_shortened {S : PollSettings} {P : PollingController} (hP : LawfulPolling S P) :
    ¬ Covers P shortened "midjourney" := by
  intro h
  have htimes : ∀ e ∈ shortened, e.1 ≤ 2 := by simp [shortened]
  have hfirst := h 2 htimes _ (List.mem_cons_self) (some 60) rfl
  have hlast := @pausedFor_after P _ [(0, .noteRateLimited "midjourney" (some 60))]
    (1, .noteRateLimited "midjourney" (some 1)) "midjourney" hP 1 rfl one_ne_zero 2
  rw [shortened] at hfirst
  rw [List.singleton_append] at hlast
  rw [hlast] at hfirst
  norm_num at hfirst

/-- After both, the channel is paused no more when the minute is not over. -/
theorem pause_shortened : Uninterrupted shortened "midjourney" ∧
    ¬ Covers (MemoryPolling.controller {}) shortened "midjourney" ∧
    ¬ Covers (RedisPolling.controller {}) shortened "midjourney" :=
  ⟨shortened_uninterrupted, not_covers_shortened (MemoryPolling.lawful {}),
    not_covers_shortened (RedisPolling.lawful {})⟩

end AsyncGateway
