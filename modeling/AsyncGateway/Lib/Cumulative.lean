import Mathlib.Algebra.BigOperators.Group.List.Basic
import Mathlib.Algebra.Order.BigOperators.Group.List

/-!
# Library — weights added up in order

Entries with weights, in a row: the first one at which the weights add up to a target (`reach`).
With weights that are not negative it is the entry whose own stretch the target is in
(`reach_eq_some`), and there is one wherever the target is not above the sum
(`reach_isSome_iff`); a larger target is reached no earlier (`reach_append_of_lt`).
-/

namespace Cumulative

variable {α M : Type} [AddCommMonoid M]

/-- The sum of the weights. -/
def weight (entries : List (α × M)) : M := (entries.map (·.2)).sum

section Weight

variable {a : α} {w : M} {before after entries : List (α × M)}

@[simp] theorem weight_nil : weight ([] : List (α × M)) = 0 := rfl

@[simp] theorem weight_cons : weight ((a, w) :: entries) = w + weight entries := rfl

end Weight

variable [LinearOrder M]

/-- The first entry at which what was there and the weights add up to the target. -/
def reach (target : M) : M → List (α × M) → Option α
  | _, [] => none
  | acc, (a, w) :: entries =>
      if target ≤ acc + w then some a else reach target (acc + w) entries

/-- The target is in the stretch of the entry behind `before`. -/
structure Within (target acc : M) (before : List (α × M)) (w : M) : Prop where
  above : before = [] ∨ acc + weight before < target
  upTo : target ≤ acc + weight before + w

variable {target acc : M} {a : α} {w : M} {before after entries : List (α × M)}

theorem reach_cons_of_lt (h : acc + w < target) :
    reach target acc ((a, w) :: entries) = reach target (acc + w) entries :=
  if_neg (not_le.mpr h)

variable [IsOrderedAddMonoid M]

theorem weight_nonneg (hw : ∀ p ∈ entries, 0 ≤ p.2) : 0 ≤ weight entries :=
  List.sum_nonneg fun _ hx => by
    obtain ⟨p, hp, rfl⟩ := List.mem_map.mp hx
    exact hw p hp

/-- What does not add up to the target is passed over. -/
theorem reach_append_of_lt (hw : ∀ p ∈ before, 0 ≤ p.2) (h : acc + weight before < target) :
    reach target acc (before ++ entries) = reach target (acc + weight before) entries := by
  induction before generalizing acc with
  | nil => simp
  | cons p before ih =>
      obtain ⟨a, w⟩ := p
      have hrest : 0 ≤ weight before := weight_nonneg fun p hp => hw p (List.mem_cons_of_mem _ hp)
      rw [weight_cons, ← add_assoc] at h ⊢
      rw [List.cons_append, reach_cons_of_lt ((le_add_of_nonneg_right hrest).trans_lt h),
        ih (fun p hp => hw p (List.mem_cons_of_mem _ hp)) h]

/-- **The entry that is reached is the one whose stretch the target is in.** -/
theorem reach_eq_some (hw : ∀ p ∈ entries, 0 ≤ p.2) : reach target acc entries = some a ↔
    ∃ before w after, entries = before ++ (a, w) :: after ∧ Within target acc before w := by
  constructor
  · intro h
    induction entries generalizing acc with
    | nil => cases h
    | cons p entries ih =>
        obtain ⟨b, v⟩ := p
        rw [reach] at h
        split at h
        · rename_i hle
          cases h
          exact ⟨[], v, entries, rfl, .inl rfl, by simpa using hle⟩
        · rename_i hlt
          obtain ⟨before, w, after, rfl, hin⟩ :=
            ih (fun p hp => hw p (List.mem_cons_of_mem _ hp)) h
          refine ⟨(b, v) :: before, w, after, rfl, .inr ?_, ?_⟩
          · rw [weight_cons, ← add_assoc]
            rcases hin.above with rfl | habove
            · simpa using hlt
            · exact habove
          · rw [weight_cons, ← add_assoc]
            exact hin.upTo
  · rintro ⟨before, w, after, rfl, hin⟩
    rcases hin.above with rfl | habove
    · exact if_pos (by simpa using hin.upTo)
    · rw [reach_append_of_lt (fun p hp => hw p (List.mem_append_left _ hp)) habove]
      exact if_pos hin.upTo

theorem reach_isSome_iff (hne : entries ≠ []) (hw : ∀ p ∈ entries, 0 ≤ p.2) :
    (reach target acc entries).isSome = true ↔ target ≤ acc + weight entries := by
  induction entries generalizing acc with
  | nil => exact absurd rfl hne
  | cons p entries ih =>
      obtain ⟨b, v⟩ := p
      have hrest : 0 ≤ weight entries :=
        weight_nonneg fun p hp => hw p (List.mem_cons_of_mem _ hp)
      rw [weight_cons, ← add_assoc]
      by_cases hle : target ≤ acc + v
      · rw [reach, if_pos hle]
        exact iff_of_true rfl (hle.trans (le_add_of_nonneg_right hrest))
      · rw [reach_cons_of_lt (not_le.mp hle)]
        cases entries with
        | nil => simpa [reach] using hle
        | cons p' entries =>
            exact ih (List.cons_ne_nil _ _) fun p hp => hw p (List.mem_cons_of_mem _ hp)

end Cumulative
