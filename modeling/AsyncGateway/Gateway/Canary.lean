import AsyncGateway.Gateway.Direct
import AsyncGateway.Lib.Cumulative

/-!
# Gateway — canary bindings and rolling back

Which version `selectVersion` draws: a version with a positive weight has the stretch of the drawn
points its weight is long (`selectVersion_weighted`), and where there is none the last enabled
version is taken.  Setting a weight to zero is meant to roll the version back; `rollsBack_iff` says
for which bindings it does.
-/

namespace AsyncGateway

open Cumulative (weight Within)

/-- The versions that have a positive weight. -/
def weightedVersions (versions : List TemplateVersion) (binding : List (String × ℚ)) :
    List (TemplateVersion × ℚ) :=
  ((versions.filter (·.enabled)).map fun tv => (tv, weightOf binding tv)).filter
    fun p => decide (0 < p.2)

/-- The binding gives the version the weight zero. -/
def RolledBack (binding : List (String × ℚ)) (tv : TemplateVersion) : Prop :=
  binding.lookup (toString tv.version) = some 0

/-- A drawn point. -/
structure Drawn (draw : ℚ) : Prop where
  nonneg : 0 ≤ draw
  le_one : draw ≤ 1

/-- What a binding is for. -/
structure RollsBack (versions : List TemplateVersion) (binding : List (String × ℚ)) : Prop where
  /-- An enabled version is returned. -/
  returned : ∀ draw, Drawn draw → ∃ tv ∈ versions,
    selectVersion versions binding draw = some tv ∧ tv.enabled = true
  /-- One with the weight zero only where there is no other. -/
  rolledBack : ∀ draw tv, Drawn draw → selectVersion versions binding draw = some tv →
    RolledBack binding tv → ∀ tv' ∈ versions, tv'.enabled = true → tv' = tv
  /-- The point that is drawn is in the stretch of the version that is returned, which is as long
  as its weight. -/
  proportional : weightedVersions versions binding ≠ [] → ∀ draw, Drawn draw →
    ∃ before tv after,
      weightedVersions versions binding = before ++ (tv, weightOf binding tv) :: after ∧
      selectVersion versions binding draw = some tv ∧
      Within (draw * weight (weightedVersions versions binding)) 0 before (weightOf binding tv)

/-- A version has a positive weight; or the last enabled one is not of weight zero, or is the only
one. -/
def Rollable (versions : List TemplateVersion) (binding : List (String × ℚ)) : Prop :=
  (∃ tv ∈ versions, tv.enabled = true ∧ 0 < weightOf binding tv) ∨
    ∀ last, (versions.filter (·.enabled)).getLast? = some last → RolledBack binding last →
      ∀ tv ∈ versions, tv.enabled = true → tv = last

section Selection

variable {versions : List TemplateVersion} {binding : List (String × ℚ)} {draw : ℚ}
  {tv : TemplateVersion} {w : ℚ}

theorem mem_weightedVersions : (tv, w) ∈ weightedVersions versions binding ↔
    tv ∈ versions ∧ tv.enabled = true ∧ w = weightOf binding tv ∧ 0 < w := by
  simp only [weightedVersions, List.mem_filter, List.mem_map, Prod.mk.injEq, decide_eq_true_eq]
  constructor
  · rintro ⟨⟨tv', ⟨hmem, henabled⟩, rfl, rfl⟩, hpos⟩
    exact ⟨hmem, henabled, rfl, hpos⟩
  · rintro ⟨hmem, henabled, rfl, hpos⟩
    exact ⟨⟨tv, ⟨hmem, henabled⟩, rfl, rfl⟩, hpos⟩

theorem weighted_nonneg : ∀ p ∈ weightedVersions versions binding, 0 ≤ p.2 :=
  fun _ hp => (mem_weightedVersions.mp hp).2.2.2.le

theorem weightedVersions_ne_nil : weightedVersions versions binding ≠ [] ↔
    ∃ tv ∈ versions, tv.enabled = true ∧ 0 < weightOf binding tv := by
  constructor
  · intro hne
    obtain ⟨⟨tv, w⟩, hp⟩ := List.exists_mem_of_ne_nil _ hne
    obtain ⟨hmem, henabled, rfl, hpos⟩ := mem_weightedVersions.mp hp
    exact ⟨tv, hmem, henabled, hpos⟩
  · rintro ⟨tv, hmem, henabled, hpos⟩
    exact List.ne_nil_of_mem (mem_weightedVersions.mpr ⟨hmem, henabled, rfl, hpos⟩)

/-- Up to the sum of the weights, what is picked is what is reached. -/
theorem pickFrom_eq_reach {pick acc : ℚ} {weighted : List (TemplateVersion × ℚ)}
    (hpick : pick ≤ acc + weight weighted) :
    pickFrom pick acc weighted = Cumulative.reach pick acc weighted := by
  induction weighted generalizing acc with
  | nil => rfl
  | cons p weighted ih =>
      obtain ⟨tv, w⟩ := p
      cases weighted with
      | nil =>
          rw [Cumulative.weight_cons, Cumulative.weight_nil, add_zero] at hpick
          rw [Cumulative.reach, if_pos hpick, pickFrom]
      | cons p' weighted =>
          rw [Cumulative.weight_cons, ← add_assoc] at hpick
          rw [pickFrom, Cumulative.reach, ih hpick]
          exact List.cons_ne_nil _ _

/-- **With a positive weight, the version is the one whose stretch the point is in.** -/
theorem selectVersion_weighted (hne : weightedVersions versions binding ≠ [])
    (hdraw : Drawn draw) : ∃ before tv after,
      weightedVersions versions binding = before ++ (tv, weightOf binding tv) :: after ∧
      selectVersion versions binding draw = some tv ∧
      Within (draw * weight (weightedVersions versions binding)) 0 before
        (weightOf binding tv) := by
  have hsum : 0 ≤ weight (weightedVersions versions binding) :=
    Cumulative.weight_nonneg weighted_nonneg
  have hpick : draw * weight (weightedVersions versions binding) ≤
      0 + weight (weightedVersions versions binding) := by
    rw [zero_add]
    exact mul_le_of_le_one_left hsum hdraw.le_one
  have hselect : selectVersion versions binding draw =
      Cumulative.reach (draw * weight (weightedVersions versions binding)) 0
        (weightedVersions versions binding) := by
    rw [← pickFrom_eq_reach hpick]
    exact if_neg hne
  obtain ⟨tv, htv⟩ := Option.isSome_iff_exists.mp
    ((Cumulative.reach_isSome_iff hne weighted_nonneg).mpr hpick)
  obtain ⟨before, w, after, heq, hin⟩ := (Cumulative.reach_eq_some weighted_nonneg).mp htv
  have hmem : (tv, w) ∈ weightedVersions versions binding :=
    heq ▸ List.mem_append_right _ List.mem_cons_self
  obtain ⟨-, -, rfl, -⟩ := mem_weightedVersions.mp hmem
  exact ⟨before, tv, after, heq, hselect.trans htv, hin⟩

/-- Without one, it is the last that is enabled. -/
theorem selectVersion_unweighted (h : weightedVersions versions binding = []) (draw : ℚ) :
    selectVersion versions binding draw = (versions.filter (·.enabled)).getLast? :=
  if_pos h

/-- A version of weight zero is not one of those that are drawn. -/
theorem weightOf_rolledBack (h : RolledBack binding tv) : weightOf binding tv = 0 := by
  have hne : binding ≠ [] := by
    rintro rfl
    cases h
  rw [weightOf, if_neg hne, h]
  rfl

/-- **Rolling back works exactly for the bindings that leave another version a weight, or the last
one unbound.** -/
theorem rollsBack_iff (h : ∃ tv ∈ versions, tv.enabled = true) :
    RollsBack versions binding ↔ Rollable versions binding := by
  have hzero : Drawn 0 := ⟨le_rfl, zero_le_one⟩
  constructor
  · rintro ⟨-, hback, -⟩
    by_cases hw : weightedVersions versions binding = []
    · refine .inr fun last hlast => hback 0 last hzero ?_
      rw [selectVersion_unweighted hw, hlast]
    · exact .inl (weightedVersions_ne_nil.mp hw)
  · intro hroll
    by_cases hw : weightedVersions versions binding = []
    · have hnone : ¬ ∃ tv ∈ versions, tv.enabled = true ∧ 0 < weightOf binding tv := fun hpos =>
        weightedVersions_ne_nil.mpr hpos hw
      obtain ⟨tv, htv, henabled⟩ := h
      have hcand : versions.filter (·.enabled) ≠ [] :=
        List.ne_nil_of_mem (List.mem_filter.mpr ⟨htv, henabled⟩)
      have hlast := List.getLast?_eq_some_getLast hcand
      obtain ⟨hmem, hon⟩ := List.mem_filter.mp (List.getLast_mem hcand)
      refine ⟨fun draw _ => ⟨_, hmem, ?_, hon⟩, fun draw tv _ hs hz => ?_, fun hne => absurd hw hne⟩
      · rw [selectVersion_unweighted hw, hlast]
      · rw [selectVersion_unweighted hw] at hs
        exact hroll.resolve_left hnone tv hs hz
    · refine ⟨fun draw hd => ?_, fun draw tv hd hs hz => ?_, fun hne draw hd =>
        selectVersion_weighted hne hd⟩
      · obtain ⟨before, tv, after, heq, hs, -⟩ := selectVersion_weighted hw hd
        obtain ⟨hmem, hon, -⟩ := mem_weightedVersions.mp
          (heq ▸ List.mem_append_right before List.mem_cons_self)
        exact ⟨tv, hmem, hs, hon⟩
      · obtain ⟨before, tv', after, heq, hs', -⟩ := selectVersion_weighted hw hd
        cases hs.symm.trans hs'
        obtain ⟨-, -, -, hpos⟩ := mem_weightedVersions.mp
          (heq ▸ List.mem_append_right before List.mem_cons_self)
        rw [weightOf_rolledBack hz] at hpos
        exact absurd hpos (lt_irrefl _)

end Selection

/-! ### A binding that rolls back the only version it names -/

/-- A version of an alias. -/
def numberedVersion (n : ℕ) : TemplateVersion where
  aliasName := "video"
  version := n
  resolved :=
    { aliasName := "video"
      baseUrl := "https://upstream"
      createPath := "/tasks"
      getPathTemplate := "/tasks/\x7bid\x7d"
      cancelPathTemplate := "/tasks/\x7bid\x7d"
      resultLocation := "$.url" }

def twoVersions : List TemplateVersion := [numberedVersion 1, numberedVersion 2]

/-- With a weight for the first version too, the second one is rolled back. -/
theorem rollsBack_weighted : RollsBack twoVersions [("1", 1), ("2", 0)] :=
  (rollsBack_iff ⟨numberedVersion 1, List.mem_cons_self, rfl⟩).mpr
    (.inl ⟨numberedVersion 1, List.mem_cons_self, rfl, by decide⟩)

/-- With the weight of the second version set to zero, and none for the first, the second one is
returned all the same. -/
theorem rolled_back_returned : ¬ RollsBack twoVersions [("2", 0)] := by
  intro h
  have hselect : selectVersion twoVersions [("2", 0)] 0 = some (numberedVersion 2) := by rfl
  have hone := h.rolledBack 0 (numberedVersion 2) ⟨le_rfl, zero_le_one⟩ hselect (by rfl)
    (numberedVersion 1) List.mem_cons_self rfl
  exact absurd (congrArg TemplateVersion.version hone) (by decide)

end AsyncGateway
