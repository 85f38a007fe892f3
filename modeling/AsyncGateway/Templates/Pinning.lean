import AsyncGateway.Templates.Registry
import AsyncGateway.Templates.Render
import Mathlib.Data.Finset.Max
import Mathlib.Data.List.Dedup

/-!
# Templates — what a task is pinned to

A task keeps the alias and the number of the template version it was accepted with, while the
registry goes on being edited (`Edit`).  An edit adds a version under a number no other one has, or
revises the version in use of an alias where only fields change that no request is rendered from.

* `same_of_changedFields`: a dotted path that no listed change is at or under has one value in both
  dumps.
* `congruent_of_inPlace`: a change that may be made in place leaves what the requests are rendered
  from.
* `Registry.pinned`: through any edits a version is kept under its number, and the requests
  rendered from it are the same.
-/

namespace AsyncGateway

/-! ### The paths of a flattened dump -/

theorem startsWith_iff {s start : String} :
    startsWith s start = true ↔ start.toList <+: s.toList :=
  List.isPrefixOf_iff_prefix

theorem startsWith_of_append {s a b : String} (h : startsWith s (a ++ b) = true) :
    startsWith s a = true := by
  rw [startsWith_iff, String.toList_append] at h
  exact startsWith_iff.mpr ((List.prefix_append _ _).trans h)

theorem startsWith_append (a b : String) : startsWith (a ++ b) a = true := by
  rw [startsWith_iff, String.toList_append]
  exact List.prefix_append _ _

/-- The dotted path is the one of a field, or one under it. -/
def AtOrUnder (path k : String) : Prop := k = path ∨ startsWith k (path ++ ".") = true

theorem AtOrUnder.startsWith {before key k : String} (h : AtOrUnder (before ++ key) k) :
    startsWith k before = true := by
  rcases h with rfl | h
  · exact startsWith_append _ _
  · exact startsWith_of_append (startsWith_of_append h)

mutual

/-- Flattening sets the paths of the fields and those under them, and no others. -/
theorem lookup_flatten_of_apart {before k : String} :
    ∀ (fields : List (String × Json)) (out : Json.Fields),
      (∀ f ∈ fields, ¬ AtOrUnder (before ++ f.1) k) →
        (flatten before fields out).lookup k = out.lookup k
  | [], _, _ => rfl
  | (key, value) :: rest, out, h => by
      have hkey : ¬ AtOrUnder (before ++ key) k := h _ List.mem_cons_self
      have hrest := lookup_flatten_of_apart rest
        (flattenValue (before ++ key ++ ".") value (Json.put out (before ++ key) value))
        fun f hf => h f (List.mem_cons_of_mem _ hf)
      have hvalue := lookup_flattenValue_of_apart value (Json.put out (before ++ key) value)
        fun hs : startsWith k (before ++ key ++ ".") = true => hkey (.inr hs)
      rw [flatten, hrest, hvalue, Json.lookup_put_ne _ _ fun he => hkey (.inl he)]

theorem lookup_flattenValue_of_apart {before k : String} :
    ∀ (value : Json) (out : Json.Fields), ¬ startsWith k before = true →
      (flattenValue before value out).lookup k = out.lookup k
  | .obj fields, out, h => by
      refine Json.lookup_update ?_
      rw [lookup_flatten_of_apart fields [] fun f _ hw => h hw.startsWith]
      rfl
  | .null, _, _ | .bool _, _, _ | .int _, _, _ | .float _, _, _ | .str _, _, _
  | .arr _, _, _ => rfl

end

theorem nodup_flatten (before : String) (fields : List (String × Json)) {out : Json.Fields}
    (h : (out.map Prod.fst).Nodup) : ((flatten before fields out).map Prod.fst).Nodup := by
  induction fields generalizing out with
  | nil => exact h
  | cons f rest ih =>
      refine ih ?_
      cases f.2 <;> simp only [flattenValue]
      case obj fields => exact Json.nodup_update (Json.nodup_put h _ _) _
      all_goals exact Json.nodup_put h _ _

theorem lookup_put_or (out : Json.Fields) (path : String) (v : Json) (k : String) :
    (Json.put out path v).lookup k = ((Json.put [] path v).lookup k).or (out.lookup k) := by
  by_cases hk : k = path
  · subst hk
    simp
  · rw [Json.lookup_put_ne _ _ hk, Json.lookup_put_ne _ _ hk]
    rfl

theorem lookup_flattenValue (before : String) (value : Json) (out : Json.Fields)
    (path k : String) :
    (flattenValue before value (Json.put out path value)).lookup k =
      ((flattenValue before value (Json.put [] path value)).lookup k).or (out.lookup k) := by
  cases value <;> simp only [flattenValue]
  case obj fields =>
    have hn : ((flatten before fields []).map Prod.fst).Nodup :=
      nodup_flatten before fields List.nodup_nil
    rw [Json.lookup_update_of_nodup hn, Json.lookup_update_of_nodup hn, lookup_put_or out,
      Option.or_assoc]
  all_goals exact lookup_put_or _ _ _ _

theorem lookup_flatten (before : String) (fields : List (String × Json)) (out : Json.Fields)
    (k : String) : (flatten before fields out).lookup k =
      ((flatten before fields []).lookup k).or (out.lookup k) := by
  induction fields generalizing out with
  | nil => rfl
  | cons f rest ih =>
      obtain ⟨key, value⟩ := f
      rw [flatten, ih, lookup_flattenValue, ← Option.or_assoc, ← ih]
      rfl

/-- What a field has at a path, where none of the later ones has anything. -/
theorem lookup_flatten_cons (before key : String) (value : Json) (rest : List (String × Json))
    (k : String) : (flatten before ((key, value) :: rest) []).lookup k =
      ((flatten before rest []).lookup k).or
        ((flattenValue (before ++ key ++ ".") value [(before ++ key, value)]).lookup k) :=
  lookup_flatten before rest _ k

/-! ### Fields without a dot in their names -/

/-- The part before the first dot decides which field a path is at or under. -/
theorem atOrUnder_dotted {key k sub : String} (hkey : '.' ∉ key.toList) (hk : '.' ∉ k.toList)
    (h : AtOrUnder key (k ++ "." ++ sub)) : key = k := by
  have hdot : ∀ {cs : List Char} (rest : List Char), '.' ∉ cs →
      (cs ++ '.' :: rest).takeWhile (· != '.') = cs := by
    intro cs rest hcs
    have hpos : ∀ c ∈ cs, (c != '.') = true := by
      intro c hc
      rw [bne_iff_ne]
      rintro rfl
      exact hcs hc
    rw [List.takeWhile_append_of_pos hpos]
    simp
  have hpath : (k ++ "." ++ sub).toList = k.toList ++ '.' :: sub.toList := by simp
  rcases h with rfl | h
  · exact absurd (hpath ▸ List.mem_append_right _ List.mem_cons_self) hkey
  · rw [startsWith_iff, hpath, String.toList_append] at h
    obtain ⟨rest, h⟩ := h
    have h := congrArg (List.takeWhile (· != '.')) h
    rw [show ".".toList = ['.'] from rfl, List.append_assoc, List.singleton_append, hdot _ hkey,
      hdot _ hk] at h
    exact String.toList_inj.mp h

theorem atOrUnder_plain {key k : String} (hk : '.' ∉ k.toList) (h : AtOrUnder key k) : k = key := by
  refine h.resolve_right fun h => hk ?_
  rw [startsWith_iff, String.toList_append] at h
  exact h.subset (List.mem_append_right _ (List.mem_singleton_self _))

section Plain

variable {fields : Json.Fields} (hn : (fields.map Prod.fst).Nodup)
  (hd : ∀ f ∈ fields, '.' ∉ f.1.toList) {k : String} (hk : '.' ∉ k.toList)

include hn hk in
theorem lookup_flatten_plain : (flatten "" fields []).lookup k = fields.lookup k := by
  induction fields with
  | nil => rfl
  | cons f rest ih =>
      obtain ⟨key, value⟩ := f
      obtain ⟨hkey, hn⟩ := List.nodup_cons.mp hn
      rw [lookup_flatten_cons, String.empty_append]
      have hvalue : (flattenValue (key ++ ".") value [(key, value)]).lookup k =
          [(key, value)].lookup k := by
        refine lookup_flattenValue_of_apart value _ fun h => hk ?_
        rw [startsWith_iff, String.toList_append] at h
        exact h.subset (List.mem_append_right _ (List.mem_singleton_self _))
      rw [hvalue]
      by_cases he : k = key
      · subst he
        rw [lookup_flatten_of_apart rest [] fun f hf hw => hkey ?_]
        · simp
        · rw [String.empty_append] at hw
          exact List.mem_map.mpr ⟨f, hf, (atOrUnder_plain hk hw).symm⟩
      · rw [ih hn, List.lookup_cons, List.lookup_cons, beq_false_of_ne he]
        simp

include hn hd hk in
/-- What is under a field is what the value of the field has there. -/
theorem lookup_flatten_under {value : Json} (h : fields.lookup k = some value) (sub : String) :
    (flatten "" fields []).lookup (k ++ "." ++ sub) =
      (flattenValue (k ++ ".") value []).lookup (k ++ "." ++ sub) := by
  induction fields with
  | nil => cases h
  | cons f rest ih =>
      obtain ⟨key, value'⟩ := f
      obtain ⟨hkey, hn⟩ := List.nodup_cons.mp hn
      have hdk : '.' ∉ key.toList := hd _ List.mem_cons_self
      rw [lookup_flatten_cons, String.empty_append]
      -- the field itself, or one of another name, which has nothing there
      by_cases he : k = key
      · subst he
        rw [List.lookup_cons_self, Option.some.injEq] at h
        subst h
        rw [lookup_flatten_of_apart rest [] fun f hf hw => hkey ?_]
        · have hne : k ++ "." ++ sub ≠ k := fun he =>
            hdk (he ▸ by simp)
          have hput : (flattenValue (k ++ ".") value' [(k, value')]).lookup (k ++ "." ++ sub) =
              (flattenValue (k ++ ".") value' []).lookup (k ++ "." ++ sub) := by
            cases value' with
            | obj under =>
                have hnodup : ((flatten (k ++ ".") under []).map Prod.fst).Nodup :=
                  nodup_flatten _ _ List.nodup_nil
                rw [flattenValue, flattenValue, Json.lookup_update_of_nodup hnodup,
                  Json.lookup_update_of_nodup hnodup, List.lookup_cons, beq_false_of_ne hne]
            | _ => simp only [flattenValue, List.lookup_cons, beq_false_of_ne hne]
          rw [hput]
          rfl
        · rw [String.empty_append] at hw
          exact List.mem_map.mpr
            ⟨f, hf, atOrUnder_dotted (hd f (List.mem_cons_of_mem _ hf)) hk hw⟩
      · rw [List.lookup_cons, beq_false_of_ne he] at h
        rw [ih hn (fun f hf => hd f (List.mem_cons_of_mem _ hf)) h]
        have hnot : ¬ AtOrUnder key (k ++ "." ++ sub) := fun hw =>
          he (atOrUnder_dotted hdk hk hw).symm
        rw [lookup_flattenValue_of_apart value' _ fun hs => hnot (.inr hs), List.lookup_cons,
          beq_false_of_ne fun he => hnot (.inl he)]
        simp

include hn hd hk in
/-- What is under a field is what the object of the field has there. -/
theorem lookup_flatten_dotted {under : Json.Fields} (h : fields.lookup k = some (.obj under))
    (sub : String) : (flatten "" fields []).lookup (k ++ "." ++ sub) =
      (flatten (k ++ ".") under []).lookup (k ++ "." ++ sub) := by
  have hnodup : ((flatten (k ++ ".") under []).map Prod.fst).Nodup :=
    nodup_flatten _ _ List.nodup_nil
  rw [lookup_flatten_under hn hd hk h, flattenValue, Json.lookup_update_of_nodup hnodup]
  exact Option.or_none

end Plain

/-- An object of strings and the like: the last value of a key is the one it has. -/
theorem lookup_flatten_flat {before : String} {fields : Json.Fields}
    (hflat : ∀ f ∈ fields, ∀ under, f.2 ≠ .obj under) (k : String) :
    (flatten before fields []).lookup (before ++ k) = fields.reverse.lookup k := by
  induction fields with
  | nil => rfl
  | cons f rest ih =>
      obtain ⟨key, value⟩ := f
      have hvalue : ∀ out, flattenValue (before ++ key ++ ".") value out = out := by
        intro out
        cases value with
        | obj under => exact absurd rfl (hflat _ List.mem_cons_self under)
        | _ => rfl
      rw [lookup_flatten_cons, ih fun f hf => hflat f (List.mem_cons_of_mem _ hf), hvalue,
        List.reverse_cons, List.lookup_append]
      by_cases hk : k = key
      · subst hk
        rw [List.lookup_cons_self, List.lookup_cons_self]
      · have hne : before ++ k ≠ before ++ key := fun h => hk (by simpa using h)
        rw [List.lookup_cons, List.lookup_cons, beq_false_of_ne hk, beq_false_of_ne hne]
        rfl

/-! ### What a change in place leaves -/

/-- The dumps have different values at the path. -/
def DiffersAt (old new : Json.Fields) (k : String) : Prop :=
  Json.same (((flatten "" old []).lookup k).getD .null)
    (((flatten "" new []).lookup k).getD .null) = false

theorem mem_keys_of_differsAt {old new : Json.Fields} {k : String} (h : DiffersAt old new k) :
    k ∈ ((flatten "" old [] ++ flatten "" new []).map Prod.fst) := by
  by_contra hk
  simp only [List.map_append, List.mem_append, List.mem_map, not_or, not_exists, not_and] at hk
  have hnone : ∀ {fields : Json.Fields}, (∀ f ∈ fields, f.1 ≠ k) → fields.lookup k = none := by
    intro fields hf
    exact List.lookup_eq_none_iff.mpr fun f hmem => by simpa using (hf f hmem).symm
  rw [DiffersAt, hnone hk.1, hnone hk.2] at h
  cases h

theorem mem_changedFields {old new : Json.Fields} {f : String} :
    f ∈ changedFields old new ↔
      DiffersAt old new f ∧ ∀ g, DiffersAt old new g → ¬ startsWith g (f ++ ".") = true := by
  have hmem : ∀ {g}, (g ∈ ((flatten "" old [] ++ flatten "" new []).map Prod.fst).dedup ∧
      Json.same (((flatten "" old []).lookup g).getD .null)
        (((flatten "" new []).lookup g).getD .null) = false) ↔ DiffersAt old new g := by
    intro g
    rw [List.mem_dedup]
    exact ⟨And.right, fun h => ⟨mem_keys_of_differsAt h, h⟩⟩
  simp only [changedFields, List.mem_filter, List.mem_insertionSort, Bool.not_eq_true',
    List.any_eq_false, hmem]

/-- **A path that no listed change is at or under has the value it had.** -/
theorem same_of_changedFields {old new : Json.Fields} {k : String}
    (h : ∀ f ∈ changedFields old new, ¬ AtOrUnder k f) : ¬ DiffersAt old new k := by
  classical
  intro hk
  let under := ((flatten "" old [] ++ flatten "" new []).map Prod.fst).toFinset.filter
    fun f => DiffersAt old new f ∧ AtOrUnder k f
  have hmem : ∀ {f}, f ∈ under ↔ DiffersAt old new f ∧ AtOrUnder k f := by
    intro f
    rw [Finset.mem_filter, List.mem_toFinset]
    exact ⟨And.right, fun hf => ⟨mem_keys_of_differsAt hf.1, hf⟩⟩
  obtain ⟨f, hf, hmax⟩ := under.exists_max_image (fun f => f.toList.length)
    ⟨k, hmem.mpr ⟨hk, .inl rfl⟩⟩
  obtain ⟨hdiff, hw⟩ := hmem.mp hf
  refine h f (mem_changedFields.mpr ⟨hdiff, fun g hg hs => ?_⟩) hw
  -- a longer path under the longest one
  have hpre := startsWith_iff.mp hs
  have hgw : AtOrUnder k g := by
    rcases hw with rfl | hw
    · exact .inr hs
    · exact .inr (startsWith_iff.mpr ((startsWith_iff.mp hw).trans
        (startsWith_iff.mp (startsWith_of_append hs))))
  have hlen := hpre.length_le
  have hle := hmax g (hmem.mpr ⟨hg, hgw⟩)
  rw [String.toList_append, List.length_append] at hlen
  have hone : ".".toList.length = 1 := rfl
  omega

/-- What the requests of a template are rendered from. -/
structure Congruent (t u : ResolvedTemplate) : Prop where
  aliasName : t.aliasName = u.aliasName
  baseUrl : t.baseUrl = u.baseUrl
  createPath : t.createPath = u.createPath
  createMethod : t.createMethod = u.createMethod
  getPathTemplate : t.getPathTemplate = u.getPathTemplate
  getMethod : t.getMethod = u.getMethod
  cancelPathTemplate : t.cancelPathTemplate = u.cancelPathTemplate
  cancelMethod : t.cancelMethod = u.cancelMethod
  callbackParam : t.callbackParam = u.callbackParam
  callback : t.capabilities.callback = u.capabilities.callback
  cancel : t.capabilities.cancel = u.capabilities.cancel
  headers : ∀ k, (baseHeaders t).lookup k = (baseHeaders u).lookup k

namespace Congruent

variable {t u v : ResolvedTemplate}

theorem refl (t : ResolvedTemplate) : Congruent t t :=
  ⟨rfl, rfl, rfl, rfl, rfl, rfl, rfl, rfl, rfl, rfl, rfl, fun _ => rfl⟩

theorem trans (h : Congruent t u) (h' : Congruent u v) : Congruent t v :=
  ⟨h.1.trans h'.1, h.2.trans h'.2, h.3.trans h'.3, h.4.trans h'.4, h.5.trans h'.5,
    h.6.trans h'.6, h.7.trans h'.7, h.8.trans h'.8, h.9.trans h'.9, h.10.trans h'.10,
    h.11.trans h'.11, fun k => (h.12 k).trans (h'.12 k)⟩

end Congruent

section InPlace

variable {t u : ResolvedTemplate}

/-- The fields of a dump. -/
def dumpKeys : List String :=
  ["alias", "namespace", "base_url", "create_path", "create_method", "get_path_template",
    "get_method", "cancel_path_template", "cancel_method", "id_location", "status_field",
    "result_location", "terminal", "capabilities", "result_policy", "pool", "status_source",
    "callback_param", "normalize", "strategy", "extra_headers", "request_body_template", "notes"]

theorem keys_dump (t : ResolvedTemplate) : t.dump.map Prod.fst = dumpKeys := rfl

theorem nodup_dump (t : ResolvedTemplate) : (t.dump.map Prod.fst).Nodup := by
  rw [keys_dump]
  decide

theorem plain_dump (t : ResolvedTemplate) : ∀ f ∈ t.dump, '.' ∉ f.1.toList := by
  have h : ∀ key ∈ dumpKeys, '.' ∉ key.toList := by decide
  exact fun f hf => h f.1 (keys_dump t ▸ List.mem_map_of_mem hf)

theorem ephemeral_of_inPlace (h : (classifyChange t u).applyMode = .inPlace) :
    ∀ f ∈ changedFields t.dump u.dump, f ∈ ephemeralFields := by
  by_cases hnil : changedFields t.dump u.dump = []
  · rw [hnil]
    exact fun f hf => absurd hf List.not_mem_nil
  · by_contra hall
    have hall : ((changedFields t.dump u.dump).all fun f => decide (f ∈ ephemeralFields)) =
        false := by
      simpa using hall
    simp [classifyChange, hnil, hall] at h

/-- A field that no correction may change. -/
theorem not_differsAt (h : (classifyChange t u).applyMode = .inPlace) {k : String}
    (hk : ∀ f ∈ ephemeralFields, ¬ AtOrUnder k f) : ¬ DiffersAt t.dump u.dump k :=
  same_of_changedFields fun f hf => hk f (ephemeral_of_inPlace h f hf)

theorem str_of_not_differsAt {old new : Json.Fields} {k x y : String}
    (h : ¬ DiffersAt old new k) (hx : (flatten "" old []).lookup k = some (.str x))
    (hy : (flatten "" new []).lookup k = some (.str y)) : x = y := by
  rw [DiffersAt, hx, hy, Bool.not_eq_false] at h
  exact beq_iff_eq.mp h

instance (path k : String) : Decidable (AtOrUnder path k) := by
  unfold AtOrUnder; infer_instance

theorem plain_eq (h : (classifyChange t u).applyMode = .inPlace) {k x y : String}
    (hk : '.' ∉ k.toList) (he : ∀ f ∈ ephemeralFields, ¬ AtOrUnder k f)
    (hx : t.dump.lookup k = some (.str x)) (hy : u.dump.lookup k = some (.str y)) : x = y :=
  str_of_not_differsAt (not_differsAt h he)
    ((lookup_flatten_plain (nodup_dump t) hk).trans hx)
    ((lookup_flatten_plain (nodup_dump u) hk).trans hy)

/-- A field of an object none of whose fields a correction may change. -/
theorem dotted_same (h : (classifyChange t u).applyMode = .inPlace) {k : String}
    (hk : '.' ∉ k.toList) (he : ∀ f ∈ ephemeralFields, ¬ startsWith f (k ++ ".") = true)
    {fs gs : Json.Fields} (hfs : ∀ f ∈ fs, ∀ under, f.2 ≠ .obj under)
    (hgs : ∀ f ∈ gs, ∀ under, f.2 ≠ .obj under) (hx : t.dump.lookup k = some (.obj fs))
    (hy : u.dump.lookup k = some (.obj gs)) (sub : String) :
    Json.same ((fs.reverse.lookup sub).getD .null) ((gs.reverse.lookup sub).getD .null) = true := by
  have hsame : ¬ DiffersAt t.dump u.dump (k ++ "." ++ sub) :=
    not_differsAt h fun f hf hw => he f hf (hw.elim (fun hw => hw ▸ startsWith_append _ _)
      fun hw => startsWith_of_append (startsWith_of_append hw))
  rwa [DiffersAt, lookup_flatten_dotted (nodup_dump t) (plain_dump t) hk hx,
    lookup_flatten_dotted (nodup_dump u) (plain_dump u) hk hy, lookup_flatten_flat hfs,
    lookup_flatten_flat hgs, Bool.not_eq_false] at hsame

theorem flat_capabilities (c : Capabilities) : ∀ f ∈ c.dump, ∀ under, f.2 ≠ .obj under := by
  simp [Capabilities.dump]

theorem flat_headers (hs : List (String × String)) :
    ∀ f ∈ hs.map fun h => (h.1, Json.str h.2), ∀ under, f.2 ≠ .obj under := by
  intro f hf under
  obtain ⟨h, -, rfl⟩ := List.mem_map.mp hf
  simp

theorem same_dumped {x y : Option String} (h : Json.same ((x.map Json.str).getD .null)
    ((y.map Json.str).getD .null) = true) : x = y := by
  cases x <;> cases y
  · rfl
  · cases h
  · cases h
  · exact congrArg some (beq_iff_eq.mp h)

theorem congruent_of_inPlace (h : (classifyChange t u).applyMode = .inPlace) : Congruent t u where
  aliasName := plain_eq h (k := "alias") (by decide) (by decide) rfl rfl
  baseUrl := plain_eq h (k := "base_url") (by decide) (by decide) rfl rfl
  createPath := plain_eq h (k := "create_path") (by decide) (by decide) rfl rfl
  createMethod := plain_eq h (k := "create_method") (by decide) (by decide) rfl rfl
  getPathTemplate := plain_eq h (k := "get_path_template") (by decide) (by decide) rfl rfl
  getMethod := plain_eq h (k := "get_method") (by decide) (by decide) rfl rfl
  cancelPathTemplate := plain_eq h (k := "cancel_path_template") (by decide) (by decide) rfl rfl
  cancelMethod := plain_eq h (k := "cancel_method") (by decide) (by decide) rfl rfl
  callbackParam := plain_eq h (k := "callback_param") (by decide) (by decide) rfl rfl
  callback := beq_iff_eq.mp <| dotted_same h (k := "capabilities") (by decide) (by decide)
    (flat_capabilities _) (flat_capabilities _) rfl rfl "callback"
  cancel := beq_iff_eq.mp <| dotted_same h (k := "capabilities") (by decide) (by decide)
    (flat_capabilities _) (flat_capabilities _) rfl rfl "cancel"
  headers := by
    intro k
    have hsame := dotted_same h (k := "extra_headers") (by decide) (by decide)
      (flat_headers _) (flat_headers _) rfl rfl k
    rw [← List.map_reverse, ← List.map_reverse, Json.lookup_map_snd Json.str,
      Json.lookup_map_snd Json.str] at hsame
    rw [baseHeaders, baseHeaders, lookup_setHeaders, lookup_setHeaders, same_dumped hsame]

end InPlace

/-! ### The requests -/

/-- Two requests that are equal; the order of the headers does not matter. -/
structure RenderedRequest.Same (r s : RenderedRequest) : Prop where
  method : r.method = s.method
  url : r.url = s.url
  headers : ∀ k, r.headers.lookup k = s.headers.lookup k
  jsonBody : r.jsonBody = s.jsonBody

/-- The same request, or the same error. -/
def SameRendering : Except Exn RenderedRequest → Except Exn RenderedRequest → Prop
  | .ok r, .ok s => r.Same s
  | .error x, .error y => x = y
  | _, _ => False

theorem SameRendering.bind {α : Type} (x : Except Exn α) {f g : α → Except Exn RenderedRequest}
    (h : ∀ a, SameRendering (f a) (g a)) : SameRendering (x >>= f) (x >>= g) := by
  cases x with
  | error e => rfl
  | ok a => exact h a

/-- The requests of two templates are the same. -/
structure RendersAlike (join : JoinUrl) (t u : ResolvedTemplate) : Prop where
  create : ∀ body callbackUrl, SameRendering (renderCreate join t body callbackUrl)
    (renderCreate join u body callbackUrl)
  get : ∀ upstreamTaskId, SameRendering (renderGet join t upstreamTaskId)
    (renderGet join u upstreamTaskId)
  cancel : ∀ upstreamTaskId, SameRendering (renderCancel join t upstreamTaskId)
    (renderCancel join u upstreamTaskId)

theorem Congruent.rendersAlike {t u : ResolvedTemplate} (h : Congruent t u) (join : JoinUrl) :
    RendersAlike join t u where
  create := by
    intro body callbackUrl
    rw [renderCreate, renderCreate, h.baseUrl, h.createPath, h.callbackParam, h.callback,
      h.createMethod]
    exact .bind _ fun url => ⟨rfl, rfl, h.headers, rfl⟩
  get := by
    intro upstreamTaskId
    rw [renderGet, renderGet, h.baseUrl, h.getPathTemplate, h.getMethod]
    exact .bind _ fun path => .bind _ fun url => ⟨rfl, rfl, h.headers, rfl⟩
  cancel := by
    intro upstreamTaskId
    rw [renderCancel, renderCancel, h.baseUrl, h.cancelPathTemplate, h.cancelMethod, h.cancel,
      h.aliasName]
    split
    · rfl
    · exact .bind _ fun path => .bind _ fun url => ⟨rfl, rfl, h.headers, rfl⟩

/-! ### The edits of a registry -/

/-- What is done with the templates of a process that runs; a version that is registered gets no
number from outside. -/
inductive Edit : Type where
  | register (raw : Json.Fields) (enabled validateFirst : Bool)
  | patchInPlace (raw : Json.Fields)
  | setCanaryWeight (a : String) (version : ℕ) (weight : ℚ)

namespace Registry

/-- The registry after an edit; one that fails leaves it. -/
def edit (L : TemplateLibrary) (R : Registry) : Edit → Registry
  | .register raw enabled validateFirst =>
      ((R.register L raw none enabled validateFirst).map Prod.snd).getD R
  | .patchInPlace raw =>
      match R.patchInPlace L raw with
      | .ok (_, R') => R'
      | .error _ => R
  | .setCanaryWeight a version weight =>
      match R.setCanaryWeight a version weight with
      | .ok R' => R'
      | .error _ => R

def edits (L : TemplateLibrary) (R : Registry) (es : List Edit) : Registry := es.foldl (edit L) R

section Keeps

variable {L : TemplateLibrary} {R R' R'' : Registry} {a : String} {n : ℕ} {tv : TemplateVersion}

theorem nodup_versions (R : Registry) (a : String) : ((R.versions a).map (·.version)).Nodup :=
  (R.ordered a).imp ne_of_lt

theorem get_eq_some : R.get a (some n) = some tv ↔ tv ∈ R.versions a ∧ tv.version = n := by
  constructor
  · intro h
    exact ⟨List.mem_of_find?_eq_some h, by simpa using List.find?_some h⟩
  · rintro ⟨hmem, rfl⟩
    cases hg : R.get a (some tv.version) with
    | none => exact absurd hg (get_ne_none.mpr ⟨tv, hmem, rfl⟩)
    | some tv' =>
        have hv : tv'.version = tv.version := by simpa using List.find?_some hg
        have hmem' : tv' ∈ R.versions a := List.mem_of_find?_eq_some hg
        exact congrArg some (List.inj_on_of_nodup_map (R.nodup_versions a) hmem' hmem hv)

/-- Every version is there under its number, and renders as before. -/
def Keeps (R R' : Registry) : Prop :=
  ∀ a, ∀ tv ∈ R.versions a, ∃ tv' ∈ R'.versions a, tv'.version = tv.version ∧
    Congruent tv.resolved tv'.resolved

theorem Keeps.refl (R : Registry) : R.Keeps R := fun _ tv h => ⟨tv, h, rfl, .refl _⟩

theorem Keeps.trans (h : R.Keeps R') (h' : R'.Keeps R'') : R.Keeps R'' := by
  intro a tv hmem
  obtain ⟨tv', hmem', hv, hcongr⟩ := h a tv hmem
  obtain ⟨tv'', hmem'', hv', hcongr'⟩ := h' a tv' hmem'
  exact ⟨tv'', hmem'', hv'.trans hv, hcongr.trans hcongr'⟩

/-- A number not given from outside is above all others. -/
theorem version_lt_nextVersion (h : tv ∈ R.versions a) : tv.version < R.nextVersion a none := by
  have hle : ∀ {l : List TemplateVersion}, tv ∈ l →
      tv.version ≤ l.foldr (fun tv n => max tv.version n) 0 := by
    intro l hmem
    induction l with
    | nil => cases hmem
    | cons v l ih =>
        rcases List.mem_cons.mp hmem with rfl | hmem
        · exact le_max_left _ _
        · exact (ih hmem).trans (le_max_right _ _)
  exact Nat.lt_succ_of_le (hle h)

theorem keeps_insert (R : Registry) (t : ResolvedTemplate) (enabled : Bool) :
    R.Keeps (R.insert t none enabled) := by
  intro a tv hmem
  refine ⟨tv, ?_, rfl, .refl _⟩
  by_cases ha : a = t.aliasName
  · subst ha
    rw [insert_self]
    exact TemplateVersion.mem_among.mpr (.inr ⟨hmem, (version_lt_nextVersion hmem).ne⟩)
  · rwa [insert_of_ne ha]

theorem keeps_revise {f : TemplateVersion → TemplateVersion}
    (hf : ∀ tv, tv.aliasName = a ∧ tv.resolved.aliasName = a →
      ((f tv).aliasName = a ∧ (f tv).resolved.aliasName = a) ∧ (f tv).version = tv.version)
    (h : ∀ tv ∈ R.versions a, tv.version = n → Congruent tv.resolved (f tv).resolved) :
    R.Keeps (R.revise a n f hf) := by
  intro b tv hmem
  by_cases hb : b = a
  · subst hb
    refine ⟨if tv.version = n then f tv else tv, ?_, ?_⟩
    · simpa only [revise, Function.update_self] using
        List.mem_map_of_mem (f := fun tv => if tv.version = n then f tv else tv) hmem
    · split
      · exact ⟨(hf tv (R.named b tv hmem)).2, h tv hmem ‹_›⟩
      · exact ⟨rfl, .refl _⟩
  · exact ⟨tv, by simpa only [revise, Function.update_of_ne hb] using hmem, rfl, .refl _⟩

theorem keeps_register {raw : Json.Fields} {enabled validateFirst : Bool}
    {v : Option TemplateVersion}
    (h : R.register L raw none enabled validateFirst = some (v, R')) : R.Keeps R' := by
  rcases register_eq_some h with ⟨-, rfl⟩ | ⟨t, -, -, rfl⟩
  · exact .refl _
  · exact R.keeps_insert t enabled

/-- What is revised is the version that was compared, with a change that may be made in place. -/
theorem keeps_patchInPlace {raw : Json.Fields} {v : Option TemplateVersion}
    (h : R.patchInPlace L raw = .ok (v, R')) : R.Keeps R' := by
  rcases patchInPlace_eq_ok h with ⟨-, rfl⟩ |
    ⟨plan, t, current, hplan, hvalid, hmode, hcurrent, -, rfl⟩
  · exact .refl _
  · refine keeps_revise _ fun tv hmem hv => ?_
    have htv : tv = current := List.inj_on_of_nodup_map (R.nodup_versions t.aliasName) hmem
      (mem_of_get hcurrent) hv
    rw [planChange, TemplateLibrary.resolve_of_validate hvalid, Option.map_some,
      Option.some.injEq, hcurrent] at hplan
    subst hplan htv
    exact congruent_of_inPlace hmode

theorem keeps_setCanaryWeight {version : ℕ} {weight : ℚ}
    (h : R.setCanaryWeight a version weight = .ok R') : R.Keeps R' := by
  obtain ⟨n, rfl⟩ := setCanaryWeight_eq_ok h
  exact keeps_revise _ fun _ _ _ => .refl _

theorem keeps_edit (L : TemplateLibrary) (R : Registry) (e : Edit) : R.Keeps (R.edit L e) := by
  cases e with
  | register raw enabled validateFirst =>
      rw [edit]
      cases h : R.register L raw none enabled validateFirst with
      | none => exact .refl R
      | some r => exact keeps_register h
  | patchInPlace raw =>
      rw [edit]
      cases h : R.patchInPlace L raw with
      | error x => exact .refl R
      | ok r => exact keeps_patchInPlace h
  | setCanaryWeight a version weight =>
      rw [edit]
      cases h : R.setCanaryWeight a version weight with
      | error x => exact .refl R
      | ok R' => exact keeps_setCanaryWeight h

theorem keeps_edits (L : TemplateLibrary) (R : Registry) (es : List Edit) :
    R.Keeps (R.edits L es) := by
  induction es generalizing R with
  | nil => exact .refl R
  | cons e es ih => exact (R.keeps_edit L e).trans (ih _)

end Keeps

/-- **A version stays what the tasks that are pinned to it were accepted with.**  Through any edits
of the registry it is kept under its number, no other one has that, and every request rendered from
it is the one it was. -/
theorem pinned (L : TemplateLibrary) (join : JoinUrl) (R : Registry) (before after : List Edit)
    {a : String} {version : ℕ} {tv : TemplateVersion}
    (h : (R.edits L before).get a (some version) = some tv) :
    (∃ tv', (R.edits L (before ++ after)).get a (some version) = some tv' ∧
      tv'.version = version ∧ RendersAlike join tv.resolved tv'.resolved) ∧
    (((R.edits L (before ++ after)).versions a).map (·.version)).Nodup := by
  obtain ⟨hmem, rfl⟩ := get_eq_some.mp h
  have happ : R.edits L (before ++ after) = (R.edits L before).edits L after :=
    List.foldl_append
  rw [happ]
  obtain ⟨tv', hmem', hv, hcongr⟩ := keeps_edits L (R.edits L before) after a tv hmem
  exact ⟨⟨tv', get_eq_some.mpr ⟨hmem', hv⟩, hv, hcongr.rendersAlike join⟩, nodup_versions _ a⟩

end Registry

section Sample

/-- Drafts that say where the status is. -/
def statusLibrary : TemplateLibrary where
  resolve raw :=
    match raw.lookup "status_field" with
    | some (.str statusField) => some
        { aliasName := "video"
          baseUrl := "https://upstream"
          createPath := "/tasks"
          getPathTemplate := "/tasks/\x7bid\x7d"
          cancelPathTemplate := "/tasks/\x7bid\x7d"
          statusField := statusField
          resultLocation := "$.url" }
    | _ => none

/-- The version such a draft is registered as first. -/
def firstVersion : TemplateVersion where
  aliasName := "video"
  version := 1
  resolved :=
    { aliasName := "video"
      baseUrl := "https://upstream"
      createPath := "/tasks"
      getPathTemplate := "/tasks/\x7bid\x7d"
      cancelPathTemplate := "/tasks/\x7bid\x7d"
      resultLocation := "$.url" }

/-- A template is registered, corrected, registered again and rolled back. -/
theorem pinned_video :
    (∃ tv', (Registry.empty.edits statusLibrary
        ([.register [("status_field", .str "$.status")] true true] ++
          [.patchInPlace [("status_field", .str "$.state")],
            .register [("status_field", .str "$.status")] true true,
            .setCanaryWeight "video" 2 0])).get "video" (some 1) = some tv' ∧
      tv'.version = 1 ∧
      RendersAlike (fun baseUrl path => .ok (baseUrl ++ path)) firstVersion.resolved
        tv'.resolved) ∧
    (((Registry.empty.edits statusLibrary
        ([.register [("status_field", .str "$.status")] true true] ++
          [.patchInPlace [("status_field", .str "$.state")],
            .register [("status_field", .str "$.status")] true true,
            .setCanaryWeight "video" 2 0])).versions "video").map (·.version)).Nodup :=
  @Registry.pinned statusLibrary _ .empty _ _ "video" 1 firstVersion rfl

end Sample

end AsyncGateway
