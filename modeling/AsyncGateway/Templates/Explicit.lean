import AsyncGateway.Templates.Marks

/-!
# Templates — what the author gives against what the patches write

The patches that match a draft write their fields one after the other, except those the provenance
has as explicit (`effective`), and what they leave of a field depends only on what was there
(`left`).  So only the fields of patches that are not guarded and lie at a field, in it or around it
reach it (`reaching`), and the last of them decides (`Arrives`).  A resolved template has the
author's values, and a mark at every field the patches changed, exactly where the author leaves no
string blank and what reaches a field carries what it ought to have (`Prevails`,
`authorWins_iff`).
-/

namespace AsyncGateway

namespace TemplateDraft

variable (U : Unicode) (d : TemplateDraft)

/-- The fields of the patches that match. -/
def patchFields (patches : List PlatformPatch) : List (String × Json) :=
  (patches.filter fun p => match p.matchesDraft U d with
    | .ok true => true
    | _ => false).flatMap (·.fields)

/-- Those of them that are written. -/
def effective (patches : List PlatformPatch) : List (String × Json) :=
  (d.patchFields U patches).filter fun f => decide (d.marks f.1 ≠ some .explicit)

/-- Those that reach a field: their names are not guarded, and lie at it, in it or around it. -/
def reaching (patches : List PlatformPatch) (F : String) : List (String × Json) :=
  (d.patchFields U patches).filter fun f =>
    decide (f.1 ∉ d.guarded ∧ ¬ Json.Apart (pathParts f.1) (pathParts F))

end TemplateDraft

/-- What the fields of patches leave at `F`, written in turn where there was `v`. -/
def left (F : String) (v : Option Json) (fields : List (String × Json)) : Option Json :=
  fields.foldl (fun v f => Json.rewritten (pathParts f.1) f.2 (pathParts F) v) v

/-- What a field of a patch that is at `F` or around it carries for it. -/
def carried (F : String) (f : String × Json) : Option Json :=
  f.2.follow (((pathParts F).drop (pathParts f.1).length).map .key)

/-- What reaches `F`, where there was `v`, comes to `w`.  The last field decides alone where it is
at `F` or around it; where it is in `F`, what they write is taken in turn. -/
def Arrives (read : String → Option Json → Option Json) (F : String) (v : Option Json)
    (fields : List (String × Json)) (w : Option Json) : Prop :=
  ∀ f, fields.getLast? = some f →
    if pathParts f.1 <+: pathParts F then read F (carried F f) = w
    else read F (left F v fields) = w

/-! ### The patches -/

/-- Where it does not raise, `_set_path` is the library's `write`. -/
theorem setPath_eq_ok {fs fs' : Json.Fields} {ks : List String} {value : Json}
    (h : setPath fs ks value = .ok fs') : fs' = Json.write fs ks value := by
  induction ks generalizing fs fs' with
  | nil =>
      cases h
      rfl
  | cons k ks ih =>
      cases ks with
      | nil =>
          cases h
          rfl
      | cons k' ks =>
          have hlast : ∀ gs : Json.Fields, Json.fieldsAt fs k = gs →
              (setPath gs (k' :: ks) value).map (fun gs => Json.put fs k (.obj gs)) = .ok fs' →
              fs' = Json.write fs (k :: k' :: ks) value := by
            rintro gs hgs h
            cases hset : setPath gs (k' :: ks) value with
            | error e =>
                rw [hset] at h
                cases h
            | ok gs' =>
                rw [hset] at h
                cases h
                rw [Json.write, hgs, ih hset]
          rw [setPath] at h
          split at h
          · next hnone => exact hlast [] (by rw [Json.fieldsAt_eq, hnone]; rfl) h
          · next gs hgs => exact hlast gs (by rw [Json.fieldsAt_eq, hgs]; rfl) h
          · cases h

section Run

variable {w w' : Working} {fields : List (String × Json)} {F : String}

/-- One field of a patch is left where the author marked it, else written and marked. -/
theorem applyField_eq_ok {f : String × Json} (h : w.applyField f = .ok w') :
    (w.marks f.1 = some .explicit ∧ w' = w) ∨ (w.marks f.1 ≠ some .explicit ∧
      w' = ⟨Json.write w.payload (pathParts f.1) f.2,
        Function.update w.marks f.1 (some .patched)⟩) := by
  unfold Working.applyField at h
  split at h
  · next hmark =>
      cases h
      exact .inl ⟨hmark, rfl⟩
  · next hmark =>
      cases hset : setPath w.payload (pathParts f.1) f.2 with
      | error e =>
          rw [hset] at h
          cases h
      | ok payload =>
          rw [hset] at h
          cases h
          exact .inr ⟨hmark, by rw [setPath_eq_ok hset]⟩

/-- Marking a field that is not explicit leaves what is. -/
theorem update_eq_explicit {marks : Marks} {name : String} (h : marks name ≠ some .explicit)
    (k : String) : Function.update marks name (some .patched) k = some .explicit ↔
      marks k = some .explicit := by
  by_cases hk : k = name
  · subst hk
    rw [Function.update_self]
    exact ⟨fun hp => (nomatch hp), fun hk => absurd hk h⟩
  · rw [Function.update_of_ne hk]

/-- **A run of patches** leaves at every path what the fields that are not explicit leave there,
and marks these. -/
theorem foldlM_applyField (h : fields.foldlM Working.applyField w = .ok w') :
    (∀ F, fieldValue w'.payload F = left F (fieldValue w.payload F)
      (fields.filter fun f => decide (w.marks f.1 ≠ some .explicit))) ∧
    ∀ name, w'.marks name =
      if name ∈ (fields.filter fun f => decide (w.marks f.1 ≠ some .explicit)).map Prod.fst then
        some .patched
      else w.marks name := by
  induction fields generalizing w with
  | nil =>
      cases h
      exact ⟨fun _ => rfl, fun _ => rfl⟩
  | cons f fields ih =>
      rw [List.foldlM_cons] at h
      cases hf : w.applyField f with
      | error e =>
          rw [hf] at h
          cases h
      | ok w₁ =>
          rw [hf] at h
          obtain ⟨hpayload, hmarks⟩ := ih h
          rcases applyField_eq_ok hf with ⟨hmark, rfl⟩ | ⟨hmark, rfl⟩
          · rw [List.filter_cons_of_neg (by simpa using hmark)]
            exact ⟨hpayload, hmarks⟩
          · simp only [ne_eq, update_eq_explicit hmark] at hpayload hmarks
            rw [List.filter_cons_of_pos (by simpa using hmark)]
            refine ⟨fun F => ?_, fun name => ?_⟩
            · rw [hpayload F, left, left, List.foldl_cons]
              congr 1
              exact Json.follow_write (pathParts_ne_nil _) _ _ _
            · rw [hmarks name]
              by_cases hname : name = f.1
              · subst hname
                simp
              · rw [Function.update_of_ne hname]
                exact if_congr (by simp [hname]) rfl rfl

end Run

section Patches

variable {U : Unicode} {d : TemplateDraft} {patches : List PlatformPatch} {w w' : Working}
  {ids applied : List String}

/-- The patches that match, one after the other, are one run of their fields. -/
theorem foldlM_applyPatch (h : patches.foldlM (applyPatch U d) (w, ids) = .ok (w', applied)) :
    (d.patchFields U patches).foldlM Working.applyField w = .ok w' := by
  induction patches generalizing w ids with
  | nil =>
      cases h
      rfl
  | cons p patches ih =>
      rw [List.foldlM_cons] at h
      unfold applyPatch at h
      unfold TemplateDraft.patchFields
      cases hp : p.matchesDraft U d with
      | error e =>
          rw [hp] at h
          cases h
      | ok matched =>
          rw [hp] at h
          cases matched with
          | false =>
              rw [List.filter_cons_of_neg (by simp [hp])]
              exact ih h
          | true =>
              rw [List.filter_cons_of_pos (by simp [hp]), List.flatMap_cons, List.foldlM_append]
              cases hw : p.fields.foldlM Working.applyField w with
              | error e =>
                  simp only [hw, bind, Except.bind, if_true] at h
                  cases h
              | ok w₁ =>
                  simp only [hw, bind, Except.bind, if_true] at h
                  exact ih h

/-- **What the patches make of the expansion.** -/
theorem applyPlatformPatches_eq_ok
    (h : applyPlatformPatches U d w patches = .ok (w', applied)) (hw : w.marks = d.marks) :
    (∀ F, fieldValue w'.payload F = left F (fieldValue w.payload F) (d.effective U patches)) ∧
    ∀ name, w'.marks name =
      if name ∈ (d.effective U patches).map Prod.fst then some .patched else d.marks name := by
  have hrun := foldlM_applyField (foldlM_applyPatch h)
  rwa [hw] at hrun

/-- Only what reaches a field counts for it. -/
theorem left_reaching (d : TemplateDraft) (F : String) (v : Option Json) :
    left F v (d.effective U patches) = left F v (d.reaching U patches F) := by
  unfold TemplateDraft.effective TemplateDraft.reaching
  induction d.patchFields U patches generalizing v with
  | nil => rfl
  | cons f fields ih =>
      by_cases hguarded : f.1 ∈ d.guarded
      · rw [List.filter_cons_of_neg (by simp [marks_eq_explicit_iff, hguarded]),
          List.filter_cons_of_neg (by simp [hguarded])]
        exact ih v
      · rw [List.filter_cons_of_pos (by simp [marks_eq_explicit_iff, hguarded])]
        by_cases hapart : Json.Apart (pathParts f.1) (pathParts F)
        · rw [List.filter_cons_of_neg (by simp [hapart]), left, List.foldl_cons,
            Json.rewritten_of_apart hapart]
          exact ih v
        · rw [List.filter_cons_of_pos (by simp [hguarded, hapart]), left, List.foldl_cons]
          exact ih _

/-- What is written under the very name of a field reaches it. -/
theorem mem_names_reaching (d : TemplateDraft) (F : String) :
    F ∈ (d.effective U patches).map Prod.fst ↔ F ∈ (d.reaching U patches F).map Prod.fst := by
  have hself : ¬ Json.Apart (pathParts F) (pathParts F) := fun h => h.1 List.prefix_rfl
  constructor
  · intro h
    obtain ⟨f, hf, rfl⟩ := List.mem_map.mp h
    obtain ⟨hmem, hmark⟩ := List.mem_filter.mp hf
    refine List.mem_map_of_mem (List.mem_filter.mpr ⟨hmem, decide_eq_true ⟨?_, hself⟩⟩)
    exact mt (marks_eq_explicit_iff d f.1).mpr (of_decide_eq_true hmark)
  · intro h
    obtain ⟨f, hf, rfl⟩ := List.mem_map.mp h
    obtain ⟨hmem, hreach⟩ := List.mem_filter.mp hf
    refine List.mem_map_of_mem (List.mem_filter.mpr ⟨hmem, decide_eq_true ?_⟩)
    exact mt (marks_eq_explicit_iff d f.1).mp (of_decide_eq_true hreach).1

/-- The last field that is at another or around it leaves what it carries. -/
theorem arrives_iff {read : String → Option Json → Option Json} {F : String} {v w : Option Json}
    {fields : List (String × Json)} (h : fields ≠ []) :
    Arrives read F v fields w ↔ read F (left F v fields) = w := by
  obtain ⟨before, f, rfl⟩ := (List.eq_nil_or_concat fields).resolve_left h
  have hcovers : pathParts f.1 <+: pathParts F → left F v (before.concat f) = carried F f :=
    fun hprefix => by
      rw [left, List.concat_eq_append, List.foldl_append, List.foldl_cons, List.foldl_nil,
        Json.rewritten, if_pos hprefix]
      rfl
  unfold Arrives
  simp only [List.concat_eq_append, List.getLast?_concat, Option.some.injEq,
    forall_eq'] at hcovers ⊢
  split
  · next hprefix => rw [hcovers hprefix]
  · exact Iff.rfl

end Patches

/-! ### The resolved template -/

section Resolve

variable {E : DraftLibrary} {d : TemplateDraft} {patches : List PlatformPatch} {r r₀ : Resolution}

theorem fieldValue_filter {fs : Json.Fields} {F : String} (h : F ∈ templateFields) :
    fieldValue (fs.filter fun f => decide (f.1 ≠ "provenance")) F = fieldValue fs F := by
  have hne : (pathParts F).head? ≠ some "provenance" :=
    head_ne_of_templateFields h (by decide +kernel)
  unfold fieldValue
  obtain ⟨k, ks, hparts⟩ := List.exists_cons_of_ne_nil (pathParts_ne_nil F)
  rw [hparts] at hne ⊢
  have hk : k ≠ "provenance" := by simpa using hne
  have hlookup : (fs.filter fun f => decide (f.1 ≠ "provenance")).lookup k = fs.lookup k := by
    induction fs with
    | nil => rfl
    | cons f fs ih =>
        obtain ⟨j, v⟩ := f
        by_cases hj : j = "provenance"
        · rw [List.filter_cons_of_neg (by simp [hj]), ih, List.lookup_cons,
            beq_false_of_ne (by rw [hj]; exact hk)]
        · rw [List.filter_cons_of_pos (by simp [hj]), List.lookup_cons, List.lookup_cons, ih]
  rw [List.map_cons, Json.follow_obj_key, Json.follow_obj_key, hlookup]

/-- What pydantic and the patches make of a draft. -/
theorem resolve_eq_ok (h : resolve E patches d = .ok r) :
    ∃ w applied, applyPlatformPatches E.unicode d ⟨d.payload E, d.marks⟩ patches =
        .ok (w, applied) ∧
      E.validate (w.payload.filter fun f => decide (f.1 ≠ "provenance")) = some r.fields ∧
      r.provenance = Function.update (fun name => (w.marks name).map (·.value)) "_patches"
        (some (joinIds applied)) := by
  unfold resolve at h
  cases hw : applyPlatformPatches E.unicode d ⟨d.payload E, d.marks⟩ patches with
  | error e =>
      rw [hw] at h
      cases h
  | ok w =>
      obtain ⟨w, applied⟩ := w
      simp only [hw, bind, Except.bind] at h
      split at h
      · cases h
      · next fields hfields =>
          cases h
          exact ⟨w, applied, rfl, hfields, rfl⟩

/-- How pydantic reads a field: each by itself. -/
def ReadsFields (E : DraftLibrary) (read : String → Option Json → Option Json) : Prop :=
  ∀ payload fields, E.validate payload = some fields →
    ∀ F ∈ templateFields, fieldValue fields F = read F (fieldValue payload F)

variable {read : String → Option Json → Option Json}

/-- **The value of a field** is what the patches leave there, as pydantic reads it. -/
theorem fieldValue_resolve (hread : ReadsFields E read) (h : resolve E patches d = .ok r)
    {F : String} (hF : F ∈ templateFields) :
    fieldValue r.fields F = read F (left F (fieldValue (d.payload E) F)
      (d.effective E.unicode patches)) := by
  obtain ⟨w, applied, hw, hfields, -⟩ := resolve_eq_ok h
  rw [hread _ _ hfields F hF, fieldValue_filter hF, (applyPlatformPatches_eq_ok hw rfl).1]

/-- The fields that are marked as patched are those the patches write. -/
theorem provenance_patched (h : resolve E patches d = .ok r) {F : String}
    (hF : F ∈ templateFields) :
    r.provenance F = some "patched" ↔ F ∈ (d.effective E.unicode patches).map Prod.fst := by
  obtain ⟨w, applied, hw, -, hprovenance⟩ := resolve_eq_ok h
  have hne : F ≠ "_patches" := by
    rintro rfl
    have hhead : (pathParts "_patches").head? ≠ some "_patches" :=
      head_ne_of_templateFields hF (by decide +kernel)
    rw [pathParts_of_not_mem (by decide)] at hhead
    exact hhead rfl
  rw [hprovenance, Function.update_of_ne hne, (applyPlatformPatches_eq_ok hw rfl).2]
  split
  · next hmem => simp [hmem, FieldSource.value]
  · next hmem =>
      refine iff_of_false ?_ hmem
      cases hmark : d.marks F with
      | none => simp
      | some source =>
          have hne' := marks_ne_patched d F
          rw [hmark] at hne'
          cases source <;> first | exact absurd rfl hne' | simp [FieldSource.value]

/-- What an author relies on: the fields that are given have the author's values, those
the patches change are marked, and the others are as without patches. -/
structure AuthorWins (E : DraftLibrary) (d : TemplateDraft) (patches : List PlatformPatch)
    (r r₀ : Resolution) : Prop where
  explicit : ∀ F ∈ d.explicitFields, fieldValue r.fields F = fieldValue d.dump F
  marked : ∀ F ∈ templateFields, fieldValue r.fields F ≠ fieldValue r₀.fields F →
    r.provenance F = some "patched"
  unnamed : ∀ F ∈ templateFields,
    (∀ f ∈ d.patchFields E.unicode patches, Json.Apart (pathParts f.1) (pathParts F)) →
      fieldValue r.fields F = fieldValue r₀.fields F

/-- Pydantic keeps the values of an expansion: they are such as the draft was validated with, or
defaults. -/
def KeepsExpansion (E : DraftLibrary) (read : String → Option Json → Option Json)
    (d : TemplateDraft) : Prop :=
  ∀ F ∈ templateFields, read F (fieldValue (d.payload E) F) = fieldValue (d.payload E) F

/-- No patch comes between the author and what is given. -/
structure Prevails (E : DraftLibrary) (read : String → Option Json → Option Json)
    (d : TemplateDraft) (patches : List PlatformPatch) : Prop where
  unblank : ∀ F ∈ d.explicitFields, d.reaching E.unicode patches F = [] → F ∉ d.blank
  given : ∀ F ∈ d.explicitFields, Arrives read F (fieldValue (d.payload E) F)
    (d.reaching E.unicode patches F) (fieldValue d.dump F)
  named : ∀ F ∈ templateFields, F ∉ (d.reaching E.unicode patches F).map Prod.fst →
    Arrives read F (fieldValue (d.payload E) F) (d.reaching E.unicode patches F)
      (fieldValue (d.payload E) F)

/-- Patches that name fields of a template, none of which is exposed, disturb nobody. -/
theorem prevails_of_names (hblank : ∀ F ∈ d.explicitFields, F ∉ d.blank)
    (hnames : ∀ name ∈ (d.patchFields E.unicode patches).map Prod.fst,
      name ∈ templateFields ∧ name ∉ d.exposed) : Prevails E read d patches := by
  have hself : ∀ F ∈ templateFields, ∀ f ∈ d.reaching E.unicode patches F, f.1 = F := by
    intro F hF f hf
    obtain ⟨hmem, hreach⟩ := List.mem_filter.mp hf
    by_contra hne
    exact (of_decide_eq_true hreach).2
      (apart_templateFields (hnames f.1 (List.mem_map_of_mem hmem)).1 hF hne)
  have hnone : ∀ F ∈ templateFields,
      (F ∈ d.explicitFields ∨ F ∉ (d.reaching E.unicode patches F).map Prod.fst) →
        d.reaching E.unicode patches F = [] := by
    intro F hF hor
    refine List.eq_nil_iff_forall_not_mem.mpr fun f hf => ?_
    obtain rfl := hself F hF f hf
    obtain ⟨hmem, hreach⟩ := List.mem_filter.mp hf
    rcases hor with hexplicit | hunnamed
    · exact (hnames f.1 (List.mem_map_of_mem hmem)).2
        (mem_exposed.mpr ⟨hexplicit, (of_decide_eq_true hreach).1⟩)
    · exact hunnamed (List.mem_map_of_mem hf)
  refine ⟨fun F hF _ => hblank F hF, fun F hF => ?_, fun F hF hunnamed => ?_⟩
  · rw [hnone F (explicitFields_subset d F hF) (.inl hF)]
    rintro f ⟨⟩
  · rw [hnone F hF (.inr hunnamed)]
    rintro f ⟨⟩

/-- **The author wins over the patches** where no string is left blank, and what reaches a field
that is explicit, or one that is not named, carries what it ought to have. -/
theorem authorWins_iff (hread : ReadsFields E read) (hkeeps : KeepsExpansion E read d)
    (h : resolve E patches d = .ok r) (h₀ : resolve E [] d = .ok r₀) :
    AuthorWins E d patches r r₀ ↔ Prevails E read d patches := by
  have hvalue : ∀ F ∈ templateFields, fieldValue r.fields F =
      read F (left F (fieldValue (d.payload E) F) (d.reaching E.unicode patches F)) :=
    fun F hF => by rw [fieldValue_resolve hread h hF, left_reaching]
  have hvalue₀ : ∀ F ∈ templateFields, fieldValue r₀.fields F = fieldValue (d.payload E) F :=
    fun F hF => (fieldValue_resolve hread h₀ hF).trans (hkeeps F hF)
  have hunreached : ∀ F ∈ templateFields, d.reaching E.unicode patches F = [] →
      fieldValue r.fields F = fieldValue (d.payload E) F := fun F hF hnone => by
    rw [hvalue F hF, hnone]
    exact hkeeps F hF
  have hcomes : ∀ F ∈ templateFields, ∀ w, d.reaching E.unicode patches F ≠ [] →
      (Arrives read F (fieldValue (d.payload E) F) (d.reaching E.unicode patches F) w ↔
        fieldValue r.fields F = w) := fun F hF w hsome => by
    rw [arrives_iff hsome, hvalue F hF]
  constructor
  · rintro ⟨hexplicit, hmarked, -⟩
    refine ⟨fun F hF hnone => ?_, fun F hF => ?_, fun F hF hunnamed => ?_⟩
    · refine (fieldValue_payload_iff E hF).mp ?_
      rw [← hunreached F (explicitFields_subset d F hF) hnone, hexplicit F hF]
    · by_cases hnone : d.reaching E.unicode patches F = []
      · rw [hnone]
        rintro f ⟨⟩
      · exact (hcomes F (explicitFields_subset d F hF) _ hnone).mpr (hexplicit F hF)
    · by_cases hnone : d.reaching E.unicode patches F = []
      · rw [hnone]
        rintro f ⟨⟩
      · refine (hcomes F hF _ hnone).mpr ?_
        by_contra hne
        refine hunnamed ((mem_names_reaching d F).mp ((provenance_patched h hF).mp ?_))
        exact hmarked F hF fun he => hne (he.trans (hvalue₀ F hF))
  · rintro ⟨hunblank, hgiven, hnamed⟩
    refine ⟨fun F hF => ?_, fun F hF hne => ?_, fun F hF hapart => ?_⟩
    · have hin := explicitFields_subset d F hF
      by_cases hnone : d.reaching E.unicode patches F = []
      · rw [hunreached F hin hnone]
        exact (fieldValue_payload_iff E hF).mpr (hunblank F hF hnone)
      · exact (hcomes F hin _ hnone).mp (hgiven F hF)
    · refine (provenance_patched h hF).mpr ((mem_names_reaching d F).mpr ?_)
      by_contra hunnamed
      rw [hvalue₀ F hF] at hne
      by_cases hnone : d.reaching E.unicode patches F = []
      · exact hne (hunreached F hF hnone)
      · exact hne ((hcomes F hF _ hnone).mp (hnamed F hF hunnamed))
    · have hnone : d.reaching E.unicode patches F = [] :=
        List.filter_eq_nil_iff.mpr fun f hf => by simp [hapart f hf]
      rw [hunreached F hF hnone, hvalue₀ F hF]

end Resolve

/-! ### A draft and its patches -/

section Sample

/-- Pydantic, where it keeps what it is given. -/
def plainLibrary : DraftLibrary where
  unicode := ⟨id, id⟩
  resultModeDefault := .store
  strategyDefaults := strategyKeys.map fun key => (key, .int 3600)
  strategyDefaults_keys := rfl
  validate := some

def seedanceDraft : TemplateDraft where
  aliasName := "volc-seedance"
  baseUrl := "https://ark.cn-beijing.volces.com"
  createPath := "/api/v3/contents/generations/tasks"
  resultLocation := "$.content.video_url"
  pool := some "exclusive"
  fieldsSet := ["alias", "base_url", "create_path", "result_location", "pool"]

def seedancePatch : PlatformPatch where
  patchId := "volc-ark-seedance"
  fields := [("capabilities.callback", .bool true), ("pool", .str "shared")]
  matchAliases := ["volc-seedance"]
  proper := by decide +kernel

/-- The field as it is given. -/
def asGiven (_ : String) (v : Option Json) : Option Json := v

theorem readsFields_plain : ReadsFields plainLibrary asGiven := by
  rintro payload fields h F -
  cases h
  rfl

theorem exists_of_isOk {α : Type} {x : Except Exn α} (h : x.isOk = true) : ∃ r, x = .ok r := by
  cases x with
  | error e => cases h
  | ok r => exact ⟨r, rfl⟩

theorem keeps_plain (d : TemplateDraft) : KeepsExpansion plainLibrary asGiven d := fun _ _ => rfl

/-- The patch gives the draft a capability it says nothing of, and not another pool. -/
theorem authorWins_seedance :
    ∃ r r₀, resolve plainLibrary [seedancePatch] seedanceDraft = .ok r ∧
      resolve plainLibrary [] seedanceDraft = .ok r₀ ∧
      AuthorWins plainLibrary seedanceDraft [seedancePatch] r r₀ := by
  obtain ⟨r, hr⟩ := exists_of_isOk
    (by decide +kernel : (resolve plainLibrary [seedancePatch] seedanceDraft).isOk = true)
  obtain ⟨r₀, hr₀⟩ := exists_of_isOk
    (by decide +kernel : (resolve plainLibrary [] seedanceDraft).isOk = true)
  refine ⟨r, r₀, hr, hr₀,
    (authorWins_iff readsFields_plain (keeps_plain seedanceDraft) hr hr₀).mpr ?_⟩
  exact prevails_of_names (by decide +kernel) (by decide +kernel)

/-- The draft, with the method of a cancel. -/
def cancelDraft : TemplateDraft :=
  { seedanceDraft with
    cancelMethod := "POST"
    fieldsSet := ["alias", "base_url", "create_path", "result_location", "cancel_method"] }

def cancelPatch : PlatformPatch where
  patchId := "volc-ark-cancel"
  fields := [("cancel_method", .str "DELETE")]
  matchAliases := ["volc-seedance"]
  proper := by decide +kernel

/-- The method of a cancel is never marked as explicit, and a patch replaces the author's. -/
theorem authorWins_fails :
    ¬ ∀ (E : DraftLibrary) (d : TemplateDraft) (patches : List PlatformPatch) (r r₀ : Resolution),
      resolve E patches d = .ok r → resolve E [] d = .ok r₀ → AuthorWins E d patches r r₀ := by
  intro h
  obtain ⟨r, hr⟩ := exists_of_isOk
    (by decide +kernel : (resolve plainLibrary [cancelPatch] cancelDraft).isOk = true)
  obtain ⟨r₀, hr₀⟩ := exists_of_isOk
    (by decide +kernel : (resolve plainLibrary [] cancelDraft).isOk = true)
  have hwins := (h _ _ _ _ _ hr hr₀).explicit "cancel_method" (by decide +kernel)
  rw [fieldValue_resolve readsFields_plain hr (by decide +kernel)] at hwins
  have hleft : left "cancel_method" (fieldValue (cancelDraft.payload plainLibrary) "cancel_method")
      (cancelDraft.effective plainLibrary.unicode [cancelPatch]) = some (.str "DELETE") := by rfl
  have hgiven : fieldValue cancelDraft.dump "cancel_method" = some (.str "POST") := by rfl
  rw [asGiven, hleft, hgiven, Option.some.injEq, Json.str.injEq] at hwins
  exact absurd hwins (by decide)

end Sample

end AsyncGateway
