import AsyncGateway.Templates.Explicit
import AsyncGateway.Templates.Pinning

/-!
# Templates — a registry with patches of its own

A registry plans a change with the patches it was constructed with, and stores the template
`validate` reports, which is resolved with the built-in ones.  So what it stores is what it planned,
and a plan made after that finds no change, exactly where the two lists of patches come to the same
template (`usesOwn_iff`).  With the built-in patches it is the registry of `Templates.Registry`
(`edits_builtin`).
-/

namespace AsyncGateway

/-! ### A change that changes nothing -/

section Same

theorem distinct_put {out : Json.Fields} {path : String} {v : Json} (hv : v.Distinct)
    (h : ∀ f ∈ out, f.2.Distinct) : ∀ f ∈ Json.put out path v, f.2.Distinct := by
  induction out with
  | nil =>
      rintro f hf
      rw [List.mem_singleton.mp hf]
      exact hv
  | cons g out ih =>
      obtain ⟨hg, hout⟩ := List.forall_mem_cons.mp h
      unfold Json.put
      split
      · exact List.forall_mem_cons.mpr ⟨hv, hout⟩
      · exact List.forall_mem_cons.mpr ⟨hg, ih hout⟩

theorem distinct_update {out new : Json.Fields} (hnew : ∀ f ∈ new, f.2.Distinct)
    (h : ∀ f ∈ out, f.2.Distinct) : ∀ f ∈ Json.update out new, f.2.Distinct := by
  induction new generalizing out with
  | nil => exact h
  | cons g new ih =>
      obtain ⟨hg, hnew⟩ := List.forall_mem_cons.mp hnew
      exact ih hnew (distinct_put hg h)

mutual

theorem distinct_flatten {before : String} : ∀ (fields : List (String × Json))
    (out : Json.Fields), Json.DistinctFields fields → (∀ f ∈ out, f.2.Distinct) →
      ∀ f ∈ flatten before fields out, f.2.Distinct
  | [], _, _, h => h
  | (_, value) :: rest, _, hfields, h =>
      distinct_flatten rest _ hfields.2
        (distinct_flattenValue value _ hfields.1 (distinct_put hfields.1 h))

theorem distinct_flattenValue {before : String} : ∀ (value : Json) (out : Json.Fields),
    value.Distinct → (∀ f ∈ out, f.2.Distinct) →
      ∀ f ∈ flattenValue before value out, f.2.Distinct
  | .obj fields, _, hvalue, h =>
      distinct_update (distinct_flatten fields [] hvalue.2 fun _ hf => absurd hf List.not_mem_nil) h
  | .null, _, _, h | .bool _, _, _, h | .int _, _, _, h | .float _, _, _, h | .str _, _, _, h
  | .arr _, _, _, h => h

end

/-- A template is no change of itself. -/
theorem classifyChange_self {t : ResolvedTemplate} (h : Json.Distinct (.obj t.dump)) :
    (classifyChange t t).isNoop = true := by
  have hsame : ∀ k, ¬ DiffersAt t.dump t.dump k := by
    rintro k hk
    have hdistinct : Json.Distinct (((flatten "" t.dump []).lookup k).getD .null) := by
      cases hlookup : (flatten "" t.dump []).lookup k with
      | none => trivial
      | some v =>
          obtain ⟨l₁, l₂, hsplit, -⟩ := List.lookup_eq_some_iff.mp hlookup
          have hall : ∀ f ∈ flatten "" t.dump [], f.2.Distinct :=
            distinct_flatten t.dump [] h.2 fun _ hf => absurd hf List.not_mem_nil
          refine hall (k, v) ?_
          rw [hsplit]
          simp
    rw [DiffersAt, Json.same_refl _ hdistinct] at hk
    cases hk
  have hnone : changedFields t.dump t.dump = [] :=
    List.eq_nil_iff_forall_not_mem.mpr fun f hf => hsame f (mem_changedFields.mp hf).1
  simp [classifyChange, hnone]

end Same

/-- What a registry rests on. -/
structure RegistryLibrary extends DraftLibrary where
  /-- `TemplateDraft.model_validate`, none where it refuses the draft. -/
  draft : Json.Fields → Option TemplateDraft
  /-- The attributes of the model with these fields. -/
  attributes : Json.Fields → ResolvedTemplate
  distinct : ∀ fields, Json.Distinct (.obj (attributes fields).dump)
  /-- `load_builtin_patches()`. -/
  builtin : List PlatformPatch

/-- The template a validation reports, and whether the report is ok. -/
structure ValidationReport where
  resolved : Option ResolvedTemplate
  ok : Bool

namespace RegistryLibrary

variable (E : RegistryLibrary) (own : List PlatformPatch) (R : Registry) (raw : Json.Fields)

/-- `resolve(TemplateDraft.model_validate(raw), patches=...)`. -/
def resolveRaw (patches : List PlatformPatch) : Except Exn ResolvedTemplate :=
  match E.draft raw with
  | none => .error (.infrastructure "ValidationError")
  | some d => (resolve E.toDraftLibrary patches d).map fun r =>
      { E.attributes r.fields with provenance := r.provenance }

/-- `validate`. -/
def report : Except Exn ValidationReport :=
  match E.resolveRaw raw E.builtin with
  | .ok t => .ok ⟨some t, decide (t.issues = [])⟩
  | .error e => if e = .infrastructure "ValidationError" then .ok ⟨none, false⟩ else .error e

/-- `register` of a registry with its own patches. -/
def register (version : Option ℕ) (enabled validateFirst : Bool) :
    Except Exn (Option TemplateVersion × Registry) := do
  let report ← E.report raw
  if validateFirst && !report.ok then .ok (none, R)
  else
    let t ← report.resolved.elim (E.resolveRaw raw own) .ok
    .ok (some (R.newVersion t version enabled), R.insert t version enabled)

/-- `plan_change` of a registry with its own patches. -/
def planChange : Except Exn ChangePlan :=
  (E.resolveRaw raw own).map fun new =>
    match R.get new.aliasName none with
    | none => .newAlias
    | some old => classifyChange old.resolved new

/-- A version keeps its alias and its number with another template of the alias. -/
theorem resolved_named (t : ResolvedTemplate) (tv : TemplateVersion)
    (h : tv.aliasName = t.aliasName ∧ tv.resolved.aliasName = t.aliasName) :
    (({ tv with resolved := t } : TemplateVersion).aliasName = t.aliasName ∧
      ({ tv with resolved := t } : TemplateVersion).resolved.aliasName = t.aliasName) ∧
      ({ tv with resolved := t } : TemplateVersion).version = tv.version :=
  ⟨⟨h.1, rfl⟩, rfl⟩

/-- `patch_in_place` of a registry with its own patches. -/
def patchInPlace : Except Exn (Option TemplateVersion × Registry) := do
  let plan ← E.planChange own R raw
  let report ← E.report raw
  if !report.ok then .ok (none, R)
  else if plan.applyMode ≠ .inPlace then .error (.infrastructure "ValueError")
  else
    report.resolved.elim (.error (.infrastructure "AssertionError")) fun t =>
      (R.get t.aliasName none).elim (.error (.infrastructure "AssertionError")) fun current =>
        .ok (some { current with resolved := t },
          R.revise t.aliasName current.version (fun tv => { tv with resolved := t })
            (resolved_named t))

/-- The reading of the drafts with the built-in patches. -/
def library : TemplateLibrary where
  resolve := fun raw => (E.resolveRaw raw E.builtin).toOption

/-! ### The built-in patches -/

/-- The registry a call leaves; one that fails leaves it as it was. -/
def left {α : Type} (R : Registry) (result : Except Exn (α × Registry)) : Registry :=
  (result.toOption.map Prod.snd).getD R

def edit (R : Registry) : Edit → Registry
  | .register raw enabled validateFirst => left R (E.register own R raw none enabled validateFirst)
  | .patchInPlace raw => left R (E.patchInPlace own R raw)
  | .setCanaryWeight a version weight => R.edit E.library (.setCanaryWeight a version weight)

/-- The registry with patches of its own, after edits. -/
def edits (R : Registry) (es : List Edit) : Registry := es.foldl (E.edit own) R

section Builtin

variable {E R raw}

theorem resolve_library : E.library.resolve raw = (E.resolveRaw raw E.builtin).toOption := rfl

theorem validate_library : E.library.validate raw =
    (E.resolveRaw raw E.builtin).toOption.filter fun t => decide (t.issues = []) := rfl

/-- With the built-in patches a draft is registered as in `Registry.register`. -/
theorem left_register_builtin {version : Option ℕ} {enabled validateFirst : Bool} :
    left R (E.register E.builtin R raw version enabled validateFirst) =
      ((R.register E.library raw version enabled validateFirst).map Prod.snd).getD R := by
  unfold register report Registry.register
  rw [validate_library, resolve_library]
  cases hresolve : E.resolveRaw raw E.builtin with
  | error e =>
      by_cases he : e = .infrastructure "ValidationError"
      · cases validateFirst <;> simp [left, he, bind, Except.bind, Except.toOption]
      · cases validateFirst <;> simp [left, he, bind, Except.bind, Except.toOption]
  | ok t =>
      by_cases hissues : t.issues = []
      · simp [left, hissues, bind, Except.bind, Except.toOption, Option.filter]
      · cases validateFirst <;>
          simp [left, hissues, bind, Except.bind, Except.toOption, Option.filter]

/-- With the built-in patches a draft is applied in place as in `Registry.patchInPlace`. -/
theorem left_patchInPlace_builtin :
    left R (E.patchInPlace E.builtin R raw) = left R (R.patchInPlace E.library raw) := by
  unfold patchInPlace planChange report Registry.patchInPlace Registry.planChange
  rw [validate_library, resolve_library]
  cases hresolve : E.resolveRaw raw E.builtin with
  | error e => rfl
  | ok t =>
      have hsome : (Except.ok t : Except Exn ResolvedTemplate).toOption = some t := rfl
      by_cases hissues : t.issues = []
      · have hfilter : (some t).filter (fun t => decide (t.issues = [])) = some t := by
          simp [Option.filter, hissues]
        rw [hsome, hfilter]
        cases hget : R.get t.aliasName none with
        | none => simp [hissues, hget, Except.map, bind, Except.bind, ChangePlan.newAlias]
        | some current =>
            by_cases hmode : (classifyChange current.resolved t).applyMode = .inPlace
            · simp [left, hissues, hget, hmode, Except.map, bind, Except.bind]
            · simp [left, hissues, hget, hmode, Except.map, bind, Except.bind, Except.toOption]
      · have hfilter : (some t).filter (fun t => decide (t.issues = [])) = none := by
          simp [Option.filter, hissues]
        rw [hsome, hfilter]
        simp [hissues, Except.map, bind, Except.bind]

/-- **With the built-in patches it is the registry of `Registry.edits`**, whatever the edits. -/
theorem edits_builtin (E : RegistryLibrary) (R : Registry) (es : List Edit) :
    E.edits E.builtin R es = R.edits E.library es := by
  have hedit : ∀ (R : Registry) e, E.edit E.builtin R e = R.edit E.library e := by
    intro R e
    cases e with
    | register raw enabled validateFirst => exact left_register_builtin
    | patchInPlace raw =>
        refine left_patchInPlace_builtin.trans ?_
        rw [Registry.edit]
        cases R.patchInPlace E.library raw <;> rfl
    | setCanaryWeight a version weight => rfl
  exact congrArg (fun step => es.foldl step R) (funext fun R => funext fun e => hedit R e)

end Builtin

/-! ### What is stored, and what was planned -/

section Stored

variable {E own R raw}

/-- The report is ok with the template of the built-in patches only. -/
theorem report_eq_ok {t : ResolvedTemplate} :
    E.report raw = .ok ⟨some t, true⟩ ↔ E.resolveRaw raw E.builtin = .ok t ∧ t.issues = [] := by
  unfold report
  cases hresolve : E.resolveRaw raw E.builtin with
  | error e => by_cases he : e = .infrastructure "ValidationError" <;> simp [he]
  | ok u =>
      simp only [Except.ok.injEq, ValidationReport.mk.injEq, Option.some.injEq, decide_eq_true_eq]
      constructor
      · rintro ⟨rfl, hissues⟩
        exact ⟨rfl, hissues⟩
      · rintro ⟨rfl, hissues⟩
        exact ⟨rfl, hissues⟩

/-- A draft that is registered is stored as its report has it. -/
theorem register_eq_ok {tv : TemplateVersion} {R' : Registry} :
    E.register own R raw none true true = .ok (some tv, R') ↔
      ∃ t, E.report raw = .ok ⟨some t, true⟩ ∧ tv = R.newVersion t none true ∧
        R' = R.insert t none true := by
  simp only [report_eq_ok]
  unfold register report
  cases hresolve : E.resolveRaw raw E.builtin with
  | error e => by_cases he : e = .infrastructure "ValidationError" <;> simp [he, bind, Except.bind]
  | ok t =>
      by_cases hissues : t.issues = []
      · simp only [hissues, bind, Except.bind, decide_true, Bool.not_true, Bool.and_false,
          Bool.false_eq_true, if_false, Option.elim_some, Except.ok.injEq, Prod.mk.injEq,
          Option.some.injEq]
        constructor
        · rintro ⟨rfl, rfl⟩
          exact ⟨t, ⟨rfl, hissues⟩, rfl, rfl⟩
        · rintro ⟨t, ⟨rfl, -⟩, rfl, rfl⟩
          exact ⟨rfl, rfl⟩
      · simp [hissues, bind, Except.bind]

/-- A draft that is applied in place is stored as its report has it. -/
theorem patchInPlace_eq_ok {tv : TemplateVersion} {R' : Registry}
    (h : E.patchInPlace own R raw = .ok (some tv, R')) :
    ∃ t current, E.report raw = .ok ⟨some t, true⟩ ∧ R.get t.aliasName none = some current ∧
      tv = { current with resolved := t } := by
  unfold patchInPlace at h
  cases hplan : E.planChange own R raw with
  | error e =>
      rw [hplan] at h
      cases h
  | ok plan =>
      cases hreport : E.report raw with
      | error e =>
          rw [hplan, hreport] at h
          cases h
      | ok report =>
          obtain ⟨resolved, ok⟩ := report
          simp only [hplan, hreport, bind, Except.bind] at h
          cases ok with
          | false => simp at h
          | true =>
              simp only [Bool.not_true, Bool.false_eq_true, if_false] at h
              split at h
              · cases h
              · cases resolved with
                | none => cases h
                | some t =>
                    cases hget : R.get t.aliasName none with
                    | none =>
                        simp only [Option.elim_some, hget, Option.elim_none] at h
                        cases h
                    | some current =>
                        simp only [Option.elim_some, hget, Except.ok.injEq, Prod.mk.injEq,
                          Option.some.injEq] at h
                        exact ⟨t, current, rfl, hget, h.1.symm⟩

/-- What is stored is what the registry's own patches give, a plan made after a registration finds
no change, and a plan made before is of the change that was made. -/
structure UsesOwn (E : RegistryLibrary) (own : List PlatformPatch) (raw : Json.Fields) : Prop where
  registered : ∀ R tv R', E.register own R raw none true true = .ok (some tv, R') →
    E.resolveRaw raw own = .ok tv.resolved
  revised : ∀ R tv R', E.patchInPlace own R raw = .ok (some tv, R') →
    E.resolveRaw raw own = .ok tv.resolved
  quiet : ∀ R tv R', E.register own R raw none true true = .ok (some tv, R') →
    ∃ plan, E.planChange own R' raw = .ok plan ∧ plan.isNoop = true
  foretold : ∀ R tv R' old, R.get tv.aliasName none = some old →
    (E.register own R raw none true true = .ok (some tv, R') ∨
      E.patchInPlace own R raw = .ok (some tv, R')) →
    E.planChange own R raw = .ok (classifyChange old.resolved tv.resolved)

/-- A version registered without a number is the one in use. -/
theorem get_insert (R : Registry) (t : ResolvedTemplate) :
    (R.insert t none true).get t.aliasName none = some (R.newVersion t none true) := by
  have hlast : (R.newVersion t none true).among (R.versions t.aliasName) =
      R.versions t.aliasName ++ [R.newVersion t none true] := by
    have hlt : ∀ v ∈ R.versions t.aliasName, v.version < (R.newVersion t none true).version :=
      fun v hv => Registry.version_lt_nextVersion hv
    have hfilter : (R.versions t.aliasName).filter
        (fun v => decide (v.version ≠ (R.newVersion t none true).version)) =
          R.versions t.aliasName :=
      List.filter_eq_self.mpr fun v hv => decide_eq_true (hlt v hv).ne
    rw [TemplateVersion.among, hfilter]
    refine List.Pairwise.insertionSort_eq ?_
    refine List.pairwise_append.mpr ⟨?_, List.pairwise_singleton _ _, ?_⟩
    · exact (List.pairwise_map.mp (R.ordered t.aliasName)).imp fun h => h.le
    · intro v hv w hw
      rw [List.mem_singleton.mp hw]
      exact (hlt v hv).le
  have hfind : ((R.insert t none true).versions t.aliasName).reverse.find?
      (fun tv => tv.enabled && decide (0 < tv.canaryWeight)) =
        some (R.newVersion t none true) := by
    rw [Registry.insert_self, hlast, List.reverse_append, List.reverse_singleton,
      List.singleton_append]
    exact List.find?_cons_of_pos (by simp [Registry.newVersion])
  rw [Registry.get, hfind]
  rfl

/-- What is resolved has no key twice. -/
theorem distinct_resolveRaw {patches : List PlatformPatch} {t : ResolvedTemplate}
    (h : E.resolveRaw raw patches = .ok t) : Json.Distinct (.obj t.dump) := by
  unfold resolveRaw at h
  cases hd : E.draft raw with
  | none =>
      rw [hd] at h
      cases h
  | some d =>
      rw [hd] at h
      cases hr : resolve E.toDraftLibrary patches d with
      | error e =>
          simp only [hr] at h
          cases h
      | ok r =>
          simp only [hr] at h
          cases h
          exact E.distinct r.fields

/-- **A registry uses its own patches** on a draft that passes its validation exactly where they
come to the same template as the built-in ones. -/
theorem usesOwn_iff (E : RegistryLibrary) (own : List PlatformPatch) (raw : Json.Fields) :
    UsesOwn E own raw ↔
      ∀ t, E.resolveRaw raw E.builtin = .ok t → t.issues = [] → E.resolveRaw raw own = .ok t := by
  constructor
  · rintro h t ht hissues
    exact h.registered Registry.empty _ _
      (register_eq_ok.mpr ⟨t, report_eq_ok.mpr ⟨ht, hissues⟩, rfl, rfl⟩)
  · rintro h
    have hstored : ∀ {t}, E.report raw = .ok ⟨some t, true⟩ → E.resolveRaw raw own = .ok t :=
      fun hreport => h _ (report_eq_ok.mp hreport).1 (report_eq_ok.mp hreport).2
    refine ⟨?_, ?_, ?_, ?_⟩
    · rintro R tv R' hreg
      obtain ⟨t, hreport, rfl, -⟩ := register_eq_ok.mp hreg
      exact hstored hreport
    · rintro R tv R' hpatch
      obtain ⟨t, current, hreport, -, rfl⟩ := patchInPlace_eq_ok hpatch
      exact hstored hreport
    · rintro R tv R' hreg
      obtain ⟨t, hreport, rfl, rfl⟩ := register_eq_ok.mp hreg
      have hresolve := hstored hreport
      refine ⟨classifyChange t t, ?_, classifyChange_self (distinct_resolveRaw hresolve)⟩
      rw [planChange, hresolve]
      simp only [Except.map, get_insert]
      rfl
    · rintro R tv R' old hold hmade
      obtain ⟨t, hreport, hname, htv⟩ : ∃ t, E.report raw = .ok ⟨some t, true⟩ ∧
          tv.aliasName = t.aliasName ∧ tv.resolved = t := by
        rcases hmade with hreg | hpatch
        · obtain ⟨t, hreport, rfl, -⟩ := register_eq_ok.mp hreg
          exact ⟨t, hreport, rfl, rfl⟩
        · obtain ⟨t, current, hreport, hcurrent, rfl⟩ := patchInPlace_eq_ok hpatch
          exact ⟨t, hreport, (R.named _ current (Registry.mem_of_get hcurrent)).1, rfl⟩
      rw [hname] at hold
      rw [planChange, hstored hreport, htv]
      simp only [Except.map, hold]

end Stored

end RegistryLibrary

/-! ### A registry without patches -/

section Sample

def seedanceRaw : Json.Fields :=
  [("alias", .str "volc-seedance"), ("base_url", .str "https://ark.cn-beijing.volces.com"),
    ("create_path", .str "/api/v3/contents/generations/tasks"),
    ("result_location", .str "$.content.video_url"), ("pool", .str "exclusive")]

/-- The template of the draft, with the capability its fields have. -/
def seedanceTemplate (fields : Json.Fields) : ResolvedTemplate where
  aliasName := "volc-seedance"
  namespaceName := "volc"
  baseUrl := "https://ark.cn-beijing.volces.com"
  createPath := "/api/v3/contents/generations/tasks"
  getPathTemplate := "/api/v3/contents/generations/tasks/{id}"
  cancelPathTemplate := "/api/v3/contents/generations/tasks/{id}"
  resultLocation := "$.content.video_url"
  pool := "exclusive"
  capabilities := { callback := ((fieldValue fields "capabilities.callback").getD .null).truthy }

theorem distinct_seedance (fields : Json.Fields) :
    Json.Distinct (.obj (seedanceTemplate fields).dump) := by
  refine ⟨nodup_dump _, ?_⟩
  simp [ResolvedTemplate.dump, seedanceTemplate, Json.DistinctFields, Json.Distinct,
    TerminalMapping.dump, Capabilities.dump, ResultPolicy.dump, Strategy.dump, dumpStrings,
    dumpOption, Json.DistinctItems]

def seedanceLibrary : RegistryLibrary where
  toDraftLibrary := plainLibrary
  draft := fun _ => some seedanceDraft
  attributes := seedanceTemplate
  distinct := distinct_seedance
  builtin := [seedancePatch]

/-- A registry without patches stores the template as the built-in patch has it. -/
theorem usesOwn_fails :
    ¬ ∀ (E : RegistryLibrary) (own : List PlatformPatch) (raw : Json.Fields),
      RegistryLibrary.UsesOwn E own raw := by
  intro h
  have hbuiltin : (seedanceLibrary.resolveRaw seedanceRaw [seedancePatch]).toOption.any (fun t =>
      decide (t.issues = []) && t.provenance "capabilities.callback" == some "patched") = true := by
    decide +kernel
  have hnone : (seedanceLibrary.resolveRaw seedanceRaw []).toOption.any (fun t =>
      t.provenance "capabilities.callback" == some "patched") = false := by decide +kernel
  cases ht : seedanceLibrary.resolveRaw seedanceRaw [seedancePatch] with
  | error e =>
      rw [ht] at hbuiltin
      cases hbuiltin
  | ok t =>
      simp only [ht, Except.toOption, Option.any_some, Bool.and_eq_true, decide_eq_true_eq]
        at hbuiltin
      have hstored := (h seedanceLibrary [] seedanceRaw).registered Registry.empty _ _
        (RegistryLibrary.register_eq_ok.mpr
          ⟨t, RegistryLibrary.report_eq_ok.mpr ⟨ht, hbuiltin.1⟩, rfl, rfl⟩)
      rw [hstored] at hnone
      exact absurd hbuiltin.2 (by simpa [Except.toOption, Registry.newVersion] using hnone)

end Sample

end AsyncGateway
