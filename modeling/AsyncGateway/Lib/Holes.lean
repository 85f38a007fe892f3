import Mathlib.Data.Nat.Notation
import Mathlib.Logic.Basic

/-!
# Library — texts with holes

A text with holes is the list of the pieces between them: `v.intercalate ps` has the text `v` in
every hole, and `Fits p stop ps y` says that `y` can be read as the pieces with some texts of the
class `p` in the holes and a rest that `stop` admits.  A text that was filled in fits
(`fits_intercalate`), but it may fit in other ways too.

Read from the front, the first hole takes the text filled in, and no longer one, where a character
that text cannot have stands before the second hole (`eq_of_reserved`), or where there is no second
hole (`length_le_of_last`).  Otherwise a longer one fits for some text that is filled in
(`strays_surround`).
-/

namespace Holes

variable {α : Type} (p : α → Bool) (stop : List α → Prop)

def Fits : List (List α) → List α → Prop
  | [], y => stop y
  | [l], y => ∃ z, y = l ++ z ∧ stop z
  | l :: l' :: ls, y =>
      ∃ w z, y = l ++ (w ++ z) ∧ w ≠ [] ∧ (∀ c ∈ w, p c = true) ∧ Fits (l' :: ls) z

/-- A longer text than the one filled in leaves something that fits, too. -/
def Strays (v : List α) (ls : List (List α)) : Prop :=
  ∃ s y, s ≠ [] ∧ (∀ c ∈ s, p c = true) ∧ v.intercalate ls = s ++ y ∧ Fits p stop ls y

variable {p : α → Bool} {stop : List α → Prop} {v w y l : List α} {ls : List (List α)}

theorem prefix_of_fits (h : Fits p stop (l :: ls) y) : l <+: y := by
  cases ls with
  | nil =>
      obtain ⟨z, rfl, -⟩ := h
      exact List.prefix_append _ _
  | cons l' ls =>
      obtain ⟨w, z, rfl, -⟩ := h
      exact List.prefix_append _ _

theorem prefix_intercalate : l <+: v.intercalate (l :: ls) := by
  cases ls with
  | nil => simp
  | cons l' ls => simp [List.intercalate_cons_cons]

theorem fits_intercalate (hv : v ≠ []) (hp : ∀ c ∈ v, p c = true) (hstop : stop []) :
    Fits p stop ls (v.intercalate ls) := by
  induction ls with
  | nil => exact hstop
  | cons l ls ih =>
      cases ls with
      | nil => exact ⟨[], by simp, hstop⟩
      | cons l' ls => exact ⟨v, _, by simp [List.intercalate_cons_cons], hv, hp, ih⟩

/-! ### A character the holes cannot take -/

section Reserved

variable {q : α → Bool}

theorem countP_le_of_fits (h : Fits p stop ls y) : ls.flatten.countP q ≤ y.countP q := by
  induction ls generalizing y with
  | nil => simp
  | cons l ls ih =>
      rw [List.flatten_cons, List.countP_append]
      cases ls with
      | nil =>
          obtain ⟨z, rfl, -⟩ := h
          simp
      | cons l' ls =>
          obtain ⟨w, z, rfl, -, -, h⟩ := h
          have hz := ih h
          simp only [List.countP_append]
          omega

theorem countP_intercalate (hv : ∀ c ∈ v, q c = false) :
    (v.intercalate ls).countP q = ls.flatten.countP q := by
  have hnone : v.countP q = 0 := List.countP_eq_zero.mpr fun c hc => by simp [hv c hc]
  induction ls with
  | nil => rfl
  | cons l ls ih =>
      cases ls with
      | nil => simp
      | cons l' ls => simp [List.intercalate_cons_cons, hnone, ih]

theorem takeWhile_reserved (hl : ∃ c ∈ l, q c = true) (hw : ∀ c ∈ w, q c = false) (h : l <+: y) :
    (w ++ y).takeWhile (fun c => !q c) = w ++ l.takeWhile fun c => !q c := by
  obtain ⟨z, rfl⟩ := h
  rw [List.takeWhile_append_of_pos fun c hc => by simp [hw c hc], List.takeWhile_append,
    if_neg]
  intro hlen
  obtain ⟨c, hc, hq⟩ := hl
  rw [← (List.takeWhile_prefix _).eq_of_length hlen] at hc
  have hall := List.all_eq_true.mp List.all_takeWhile c hc
  simp [hq] at hall

/-- **A character no hole can take pins the hole before it.** -/
theorem eq_of_reserved (hv : ∀ c ∈ v, q c = false) (hl : ∃ c ∈ l, q c = true)
    (h : v ++ v.intercalate (l :: ls) = w ++ y) (hf : Fits p stop (l :: ls) y) : w = v := by
  have hcount := congrArg (List.countP q) h
  rw [List.countP_append, List.countP_append, countP_intercalate hv,
    List.countP_eq_zero.mpr fun c hc => by simp [hv c hc]] at hcount
  have hle := countP_le_of_fits (q := q) hf
  have hw : ∀ c ∈ w, q c = false := by
    have hzero : w.countP q = 0 := by omega
    exact fun c hc => by simpa using List.countP_eq_zero.mp hzero c hc
  have htake := congrArg (List.takeWhile fun c => !q c) h
  rw [takeWhile_reserved hl hv prefix_intercalate, takeWhile_reserved hl hw (prefix_of_fits hf)]
    at htake
  exact (List.append_cancel_right htake).symm

end Reserved

/-- The last hole takes no more than was filled in. -/
theorem length_le_of_last (h : v ++ l = w ++ y) (hf : Fits p stop [l] y) :
    w.length ≤ v.length := by
  obtain ⟨z, rfl, -⟩ := hf
  have hlen := congrArg List.length h
  simp only [List.length_append] at hlen
  omega

/-- **A piece of characters a hole can take lets the hole before it stray**, for the piece itself
between two characters. -/
theorem strays_surround {a : α} (ha : p a = true) (hl : ∀ c ∈ l, p c = true) (hstop : stop [])
    (l' : List α) (ls : List (List α)) :
    Strays p stop (a :: (l ++ [a])) (l :: l' :: ls) := by
  have hv : ∀ c ∈ a :: (l ++ [a]), p c = true := by
    intro c hc
    simp only [List.mem_cons, List.mem_append, List.not_mem_nil, or_false] at hc
    rcases hc with rfl | hc | rfl
    · exact ha
    · exact hl c hc
    · exact ha
  refine ⟨l ++ [a], l ++ ([a] ++ (a :: (l ++ [a])).intercalate (l' :: ls)), by simp, ?_, ?_,
    [a], _, rfl, by simp, by simpa using ha, fits_intercalate (by simp) hv hstop⟩
  · exact fun c hc => hv c (List.mem_cons_of_mem _ hc)
  · simp [List.intercalate_cons_cons]

end Holes
