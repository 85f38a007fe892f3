import Mathlib.Data.List.Sort
import Mathlib.Data.List.Nodup

/-!
# Library — a backlog

Entries that wait, each with the time it came.  A round looks at the `k` oldest of them, and those
that are ready leave (`worked`).  An entry is looked at once fewer than `k` are older than it
(`mem_oldest_iff`); until then the round looks at older ones only (`oldest_subset_older`), and what
it takes away from those is what is ready among them (`length_older_worked`).
-/

namespace Backlog

variable {α K : Type} [LinearOrder K] (time : α → K)

/-- The `k` oldest entries. -/
def oldest (k : ℕ) (entries : List α) : List α :=
  (entries.insertionSort fun a b => time a ≤ time b).take k

/-- The entries that are older than this one. -/
def older (x : α) (entries : List α) : List α := entries.filter fun a => decide (time a < time x)

open Classical in
/-- What a round leaves. -/
noncomputable def worked (k : ℕ) (ready : α → Bool) (entries : List α) : List α :=
  entries.filter fun a => !(decide (a ∈ oldest time k entries) && ready a)

variable {time} {k : ℕ} {ready : α → Bool} {entries : List α} {x a : α}

theorem oldest_subperm : (oldest time k entries).Subperm entries :=
  (List.take_sublist _ _).subperm.trans (List.perm_insertionSort _ entries).subperm

theorem nodup_oldest (h : entries.Nodup) : (oldest time k entries).Nodup :=
  (((List.perm_insertionSort _ entries).nodup_iff).mpr h).sublist (List.take_sublist _ _)

theorem length_oldest : (oldest time k entries).length = min k entries.length := by
  rw [oldest, List.length_take, List.length_insertionSort]

/-- What is not among the oldest is no older than they are. -/
theorem le_of_not_mem_oldest (ha : a ∈ entries) (hout : a ∉ oldest time k entries) :
    ∀ b ∈ oldest time k entries, time b ≤ time a := by
  intro b hb
  have hsorted : (entries.insertionSort fun a b => time a ≤ time b).Pairwise
      fun a b => time a ≤ time b := List.pairwise_insertionSort _ entries
  have hin := (List.perm_insertionSort (fun a b => time a ≤ time b) entries).symm.subset ha
  rw [← List.take_append_drop k (entries.insertionSort _)] at hsorted hin
  exact (List.pairwise_append.mp hsorted).2.2 b hb a ((List.mem_append.mp hin).resolve_left hout)

theorem mem_older : a ∈ older time x entries ↔ a ∈ entries ∧ time a < time x := by
  rw [older, List.mem_filter, decide_eq_true_eq]

/-- Where at least `k` are older than an entry, the oldest are of those. -/
theorem oldest_subset_older (hnodup : entries.Nodup)
    (hlong : k ≤ (older time x entries).length) :
    oldest time k entries ⊆ older time x entries := by
  intro b hb
  have hmem : b ∈ entries := oldest_subperm.subset hb
  by_contra hnot
  have hlate : ¬ time b < time x := fun h => hnot (mem_older.mpr ⟨hmem, h⟩)
  -- all that are older than `x` are among the oldest, and `b` beside them
  have hsub : b :: older time x entries ⊆ oldest time k entries := by
    refine List.cons_subset.mpr ⟨hb, fun a ha => ?_⟩
    obtain ⟨ha, hlt⟩ := mem_older.mp ha
    by_contra hout
    exact hlate ((le_of_not_mem_oldest ha hout b hb).trans_lt hlt)
  have hlen := (List.subperm_of_subset
    (List.nodup_cons.mpr ⟨hnot, hnodup.sublist List.filter_sublist⟩) hsub).length_le
  rw [List.length_cons, length_oldest] at hlen
  omega

/-- **An entry is looked at once fewer than `k` are older than it**, where no other came at its
time. -/
theorem mem_oldest_iff (hnodup : entries.Nodup) (hx : x ∈ entries)
    (halone : ∀ a ∈ entries, time a = time x → a = x) :
    x ∈ oldest time k entries ↔ (older time x entries).length < k := by
  constructor
  · intro hin
    by_contra hlong
    exact lt_irrefl _ (mem_older.mp (oldest_subset_older hnodup (not_lt.mp hlong) hin)).2
  · intro hshort
    by_contra hout
    have hsub : x :: oldest time k entries ⊆ x :: older time x entries := by
      refine List.cons_subset_cons x fun a ha => ?_
      have hmem : a ∈ entries := oldest_subperm.subset ha
      rcases (le_of_not_mem_oldest hx hout a ha).lt_or_eq with hlt | heq
      · exact mem_older.mpr ⟨hmem, hlt⟩
      · exact absurd (halone a hmem heq ▸ ha) hout
    have hlen := (List.subperm_of_subset
      (List.nodup_cons.mpr ⟨hout, nodup_oldest hnodup⟩) hsub).length_le
    have hall : (x :: older time x entries).length ≤ entries.length := by
      refine (List.subperm_of_subset (List.nodup_cons.mpr ⟨fun h =>
        lt_irrefl _ (mem_older.mp h).2, hnodup.sublist List.filter_sublist⟩)
        (List.cons_subset.mpr ⟨hx, fun a ha => (mem_older.mp ha).1⟩)).length_le
    simp only [List.length_cons, length_oldest] at hlen hall
    omega

open Classical in
theorem mem_worked : a ∈ worked time k ready entries ↔
    a ∈ entries ∧ ¬ (a ∈ oldest time k entries ∧ ready a = true) := by
  rw [worked, List.mem_filter, Bool.not_eq_true', ← Bool.not_eq_true, Bool.and_eq_true,
    decide_eq_true_eq]

open Classical in
/-- What a round leaves of the older ones. -/
theorem older_worked : older time x (worked time k ready entries) =
    (older time x entries).filter
      fun a => !(decide (a ∈ oldest time k entries) && ready a) := by
  rw [older, worked, older, List.filter_filter, List.filter_filter]
  exact List.filter_congr fun a _ => Bool.and_comm _ _

/-- The older ones that are not ready stay. -/
theorem stuck_worked : (older time x (worked time k ready entries)).filter (fun a => !ready a) =
    (older time x entries).filter fun a => !ready a := by
  rw [older_worked, List.filter_filter]
  refine List.filter_congr fun a _ => ?_
  cases ready a <;> simp

/-- **A round that does not come to an entry takes `k` of the older ones, less those that are not
ready.** -/
theorem length_older_worked (hnodup : entries.Nodup)
    (hlong : k ≤ (older time x entries).length) :
    (older time x (worked time k ready entries)).length +
        (k - ((older time x entries).filter fun a => !ready a).length) ≤
      (older time x entries).length := by
  have hsub := oldest_subset_older hnodup hlong
  have hlen : (oldest time k entries).length = k := by
    have hle : (older time x entries).length ≤ entries.length := List.length_filter_le _ _
    rw [length_oldest]
    omega
  have holder : (older time x entries).Nodup := hnodup.sublist List.filter_sublist
  have htaken : ((oldest time k entries).filter ready).Nodup :=
    (nodup_oldest hnodup).sublist List.filter_sublist
  -- what is left and what was taken are apart
  have hboth : (older time x (worked time k ready entries)).length +
      ((oldest time k entries).filter ready).length ≤ (older time x entries).length := by
    rw [older_worked, ← List.length_append]
    refine (List.subperm_of_subset (List.nodup_append.mpr
      ⟨holder.sublist List.filter_sublist, htaken, ?_⟩)
      (List.append_subset.mpr ⟨List.filter_subset_self _, fun a ha =>
        hsub (List.mem_filter.mp ha).1⟩)).length_le
    rintro a ha b hb rfl
    obtain ⟨hin, hready⟩ := List.mem_filter.mp hb
    simp [hin, hready] at ha
  have hstuck : ((oldest time k entries).filter fun a => !ready a).length ≤
      ((older time x entries).filter fun a => !ready a).length := by
    refine (List.subperm_of_subset ((nodup_oldest hnodup).sublist List.filter_sublist)
      fun a ha => ?_).length_le
    obtain ⟨hin, hready⟩ := List.mem_filter.mp ha
    exact List.mem_filter.mpr ⟨hsub hin, hready⟩
  have hsplit := List.length_eq_length_filter_add (l := oldest time k entries) ready
  omega

end Backlog
