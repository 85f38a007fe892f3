import AsyncGateway.Templates.Pinning

/-!
# Templates — which changes force a review

`classifyChange` lists the dotted paths two templates differ at, less the containers of other such
paths, and forces a review for the listed paths that are names of `forcedReviewFields` or begin with
one of `forcedReviewPrefixes`.  A field that is a string, or one of the prefixes, is reviewed
whenever it differs.  A container among the names is reviewed only where nothing below it differs
(`reviews_container_iff`): a change of one of its leaves is listed in its place, and the leaf is no
name.  `reviewed_iff` says what that comes to for the fields the review is for.
-/

namespace AsyncGateway

/-! ### Flattening below a container -/

theorem lookup_single (p path k : String) (value : Json) :
    [(p ++ path, value)].lookup (p ++ k) = [(path, value)].lookup k := by
  rw [List.lookup_cons, List.lookup_cons]
  by_cases hk : k = path
  · simp [hk]
  · have hne : p ++ k ≠ p ++ path := fun h => hk (by simpa using h)
    rw [beq_false_of_ne hk, beq_false_of_ne hne]
    rfl

mutual

/-- The paths below a container are those of its own, behind the path of the container. -/
theorem lookup_flatten_shift (p before k : String) :
    ∀ fields : List (String × Json),
      (flatten (p ++ before) fields []).lookup (p ++ k) = (flatten before fields []).lookup k
  | [] => rfl
  | (key, value) :: rest => by
      have hpath : p ++ before ++ key = p ++ (before ++ key) := String.append_assoc
      have hunder : p ++ (before ++ key) ++ "." = p ++ (before ++ key ++ ".") :=
        String.append_assoc
      rw [lookup_flatten_cons, lookup_flatten_cons, lookup_flatten_shift p before k rest, hpath,
        hunder, lookup_flattenValue_shift p (before ++ key ++ ".") k value (before ++ key)]

theorem lookup_flattenValue_shift (p before k : String) :
    ∀ (value : Json) (path : String),
      (flattenValue (p ++ before) value [(p ++ path, value)]).lookup (p ++ k) =
        (flattenValue before value [(path, value)]).lookup k
  | .obj fields, path => by
      have hn : ∀ before, ((flatten before fields []).map Prod.fst).Nodup :=
        fun before => nodup_flatten before fields List.nodup_nil
      rw [flattenValue, flattenValue, Json.lookup_update_of_nodup (hn _),
        Json.lookup_update_of_nodup (hn _), lookup_flatten_shift p before k fields,
        lookup_single]
  | .null, path | .bool _, path | .int _, path | .float _, path | .str _, path | .arr _, path =>
      lookup_single ..

end

/-! ### The plan of a change -/

section Plan

variable {t u : ResolvedTemplate} {F f : String}

/-- A path that forces a review. -/
def ForcesReview (f : String) : Prop :=
  f ∈ forcedReviewFields ∨ forcedReviewPrefixes.any (startsWith f) = true

/-- The value of a field is another one, as Python compares them. -/
def DiffersIn (t u : ResolvedTemplate) (F : String) : Prop :=
  Json.same ((t.dump.lookup F).getD .null) ((u.dump.lookup F).getD .null) = false

instance (F : String) : Decidable (DiffersIn t u F) := inferInstanceAs (Decidable (_ = _))

/-- A plan has its change of the field reviewed: it calls for a second person, and lists what has
changed of the field among what calls for one. -/
structure Reviews (plan : ChangePlan) (F : String) : Prop where
  dual : plan.requiresDualReview = true
  listed : ∃ f ∈ plan.forcedReviewFields, AtOrUnder F f
  all : ∀ f ∈ plan.changedFields, AtOrUnder F f → f ∈ plan.forcedReviewFields

theorem changedFields_classifyChange :
    (classifyChange t u).changedFields = changedFields t.dump u.dump := by
  by_cases hnil : changedFields t.dump u.dump = [] <;> simp [classifyChange, hnil]

theorem mem_forcedReviewFields :
    f ∈ (classifyChange t u).forcedReviewFields ↔
      f ∈ changedFields t.dump u.dump ∧ ForcesReview f := by
  by_cases hnil : changedFields t.dump u.dump = []
  · simp [classifyChange, hnil]
  · simp [classifyChange, hnil, ForcesReview]

theorem requiresDualReview_of_mem (h : f ∈ (classifyChange t u).forcedReviewFields) :
    (classifyChange t u).requiresDualReview = true := by
  by_cases hnil : changedFields t.dump u.dump = []
  · simp [classifyChange, hnil] at h
  · simp only [classifyChange, hnil, if_false] at h ⊢
    rw [Bool.not_eq_true', List.isEmpty_eq_false_iff]
    exact List.ne_nil_of_mem h

/-- A field differs where its path does. -/
theorem differsIn_iff (hF : '.' ∉ F.toList) : DiffersIn t u F ↔ DiffersAt t.dump u.dump F := by
  rw [DiffersIn, DiffersAt, lookup_flatten_plain (nodup_dump t) hF,
    lookup_flatten_plain (nodup_dump u) hF]

/-- A field whose listed changes all force a review is reviewed when it differs. -/
theorem reviews_of_forces (hF : '.' ∉ F.toList) (h : DiffersIn t u F)
    (hall : ∀ f ∈ changedFields t.dump u.dump, AtOrUnder F f → ForcesReview f) :
    Reviews (classifyChange t u) F := by
  obtain ⟨f, hf, hat⟩ : ∃ f ∈ changedFields t.dump u.dump, AtOrUnder F f := by
    by_contra hnone
    push Not at hnone
    exact same_of_changedFields hnone ((differsIn_iff hF).mp h)
  have hmem := mem_forcedReviewFields.mpr ⟨hf, hall f hf hat⟩
  refine ⟨requiresDualReview_of_mem hmem, ⟨f, hmem, hat⟩, fun g hg hat => ?_⟩
  rw [changedFields_classifyChange] at hg
  exact mem_forcedReviewFields.mpr ⟨hg, hall g hg hat⟩

/-- A path below a field. -/
theorem exists_sub (h : startsWith f (F ++ ".") = true) : ∃ sub, f = F ++ "." ++ sub := by
  obtain ⟨rest, hrest⟩ := startsWith_iff.mp h
  refine ⟨String.ofList rest, String.toList_inj.mp ?_⟩
  rw [String.toList_append, String.toList_ofList, hrest]

/-- **A field that is a string** is reviewed when it differs, if its name is one of those. -/
theorem reviews_scalar {x y : String} (hF : '.' ∉ F.toList) (hforced : F ∈ forcedReviewFields)
    (hx : t.dump.lookup F = some (.str x)) (hy : u.dump.lookup F = some (.str y))
    (h : DiffersIn t u F) : Reviews (classifyChange t u) F := by
  refine reviews_of_forces hF h fun f hf hat => ?_
  rcases hat with rfl | hunder
  · exact .inl hforced
  · -- there is nothing below a string
    obtain ⟨sub, rfl⟩ := exists_sub hunder
    have hdiff := (mem_changedFields.mp hf).1
    rw [DiffersAt, lookup_flatten_under (nodup_dump t) (plain_dump t) hF hx,
      lookup_flatten_under (nodup_dump u) (plain_dump u) hF hy] at hdiff
    cases hdiff

/-- **A prefix** is reviewed when it differs. -/
theorem reviews_prefix (hF : '.' ∉ F.toList) (hforced : F ∈ forcedReviewPrefixes)
    (h : DiffersIn t u F) : Reviews (classifyChange t u) F := by
  refine reviews_of_forces hF h fun f _ hat => .inr (List.any_eq_true.mpr ⟨F, hforced, ?_⟩)
  rcases hat with rfl | hunder
  · exact startsWith_iff.mpr List.prefix_rfl
  · exact startsWith_of_append hunder

/-- Nothing below the field forces a review. -/
def Leafless (F : String) : Prop := ∀ sub, ¬ ForcesReview (F ++ "." ++ sub)

/-- **A container** is reviewed when it differs exactly where nothing below it does: what differs
below it is listed in its place, and forces nothing. -/
theorem reviews_container_iff (hF : '.' ∉ F.toList) (hforced : F ∈ forcedReviewFields)
    (hshadow : Leafless F) (h : DiffersIn t u F) :
    Reviews (classifyChange t u) F ↔
      ∀ sub, ¬ DiffersAt t.dump u.dump (F ++ "." ++ sub) := by
  constructor
  · intro hr sub hsub
    obtain ⟨f, hf, hat⟩ := hr.listed
    obtain ⟨hchanged, hf⟩ := mem_forcedReviewFields.mp hf
    rcases hat with rfl | hunder
    · exact (mem_changedFields.mp hchanged).2 _ hsub (startsWith_append _ _)
    · obtain ⟨sub, rfl⟩ := exists_sub hunder
      exact hshadow sub hf
  · intro hnone
    refine reviews_of_forces hF h fun f hf hat => ?_
    rcases hat with rfl | hunder
    · exact .inl hforced
    · obtain ⟨sub, rfl⟩ := exists_sub hunder
      exact absurd (mem_changedFields.mp hf).1 (hnone sub)

/-- A name that is told from the prefixes by its first three characters. -/
theorem shadowed_of_take (hlen : 3 ≤ F.toList.length)
    (h : ∀ P ∈ forcedReviewPrefixes, P.toList.take 3 ≠ F.toList.take 3) : Leafless F := by
  have hplain : ∀ g ∈ forcedReviewFields, '.' ∉ g.toList := by decide
  have hlong : ∀ P ∈ forcedReviewPrefixes, 3 ≤ P.toList.length := by decide
  rintro sub (hf | hf)
  · exact hplain _ hf (by simp)
  · obtain ⟨P, hP, hs⟩ := List.any_eq_true.mp hf
    have hpre := List.prefix_iff_eq_take.mp (startsWith_iff.mp hs)
    refine h P hP ?_
    have htake := congrArg (List.take 3) hpre
    rw [List.take_take, min_eq_left (hlong P hP), String.append_assoc, String.toList_append,
      List.take_append_of_le_length hlen] at htake
    exact htake

end Plan

/-! ### The containers -/

section Containers

variable {t u : ResolvedTemplate}

theorem lookup_reverse {α : Type} {fs : List (String × α)} (h : (fs.map Prod.fst).Nodup)
    (k : String) : fs.reverse.lookup k = fs.lookup k :=
  (Json.lookup_perm h fs.reverse_perm.symm k).symm

/-- Headers with the same values under the same names are the same dictionary. -/
theorem same_headers {hs hs' : List (String × String)} (hn : (hs.map Prod.fst).Nodup)
    (hn' : (hs'.map Prod.fst).Nodup) (h : ∀ k, hs.lookup k = hs'.lookup k) :
    Json.same (.obj (hs.map fun f => (f.1, .str f.2))) (.obj (hs'.map fun f => (f.1, .str f.2))) =
      true := by
  have hfields : ∀ fs : List (String × String), (∀ f ∈ fs, f ∈ hs) →
      Json.sameFields (fs.map fun f => (f.1, .str f.2)) (hs'.map fun f => (f.1, .str f.2)) =
        true := by
    intro fs hfs
    induction fs with
    | nil => rfl
    | cons f fs ih =>
        have hlookup := (h f.1).symm.trans (Json.lookup_of_mem hn (hfs f List.mem_cons_self))
        rw [List.map_cons, Json.sameFields, Json.lookup_map_snd Json.str, hlookup,
          ih fun g hg => hfs g (List.mem_cons_of_mem _ hg)]
        simp [Json.same]
  have hmem : ∀ {gs gs' : List (String × String)}, (gs.map Prod.fst).Nodup →
      (∀ k, gs.lookup k = gs'.lookup k) → ∀ k ∈ gs.map Prod.fst, k ∈ gs'.map Prod.fst := by
    intro gs gs' hgs heq k hk
    obtain ⟨f, hf, rfl⟩ := List.mem_map.mp hk
    obtain ⟨before, after, rfl, -⟩ := List.lookup_eq_some_iff.mp
      ((heq f.1).symm.trans (Json.lookup_of_mem hgs hf))
    simp
  have hlen : hs.length = hs'.length := by
    have hle := (hn.subperm (hmem hn h)).length_le
    have hge := (hn'.subperm (hmem hn' fun k => (h k).symm)).length_le
    simp only [List.length_map] at hle hge
    exact le_antisymm hle hge
  simp [Json.same, hlen, hfields hs fun _ hf => hf]

theorem lookup_dump_headers (t : ResolvedTemplate) : t.dump.lookup "extra_headers" =
    some (.obj (t.extraHeaders.map fun f => (f.1, .str f.2))) := rfl

/-- A header that differs is a path below `extra_headers` that does. -/
theorem exists_differsAt_headers (ht : (t.extraHeaders.map Prod.fst).Nodup)
    (hu : (u.extraHeaders.map Prod.fst).Nodup) (h : DiffersIn t u "extra_headers") :
    ∃ sub, DiffersAt t.dump u.dump ("extra_headers" ++ "." ++ sub) := by
  by_contra hnone
  push Not at hnone
  have hlookup : ∀ k, t.extraHeaders.lookup k = u.extraHeaders.lookup k := by
    intro k
    have hk := hnone k
    rw [DiffersAt,
      lookup_flatten_dotted (nodup_dump t) (plain_dump t) (by decide) (lookup_dump_headers t),
      lookup_flatten_dotted (nodup_dump u) (plain_dump u) (by decide) (lookup_dump_headers u),
      lookup_flatten_flat (flat_headers _), lookup_flatten_flat (flat_headers _),
      ← List.map_reverse, ← List.map_reverse, Json.lookup_map_snd Json.str,
      Json.lookup_map_snd Json.str, lookup_reverse ht, lookup_reverse hu, Bool.not_eq_false] at hk
    exact same_dumped hk
  have hsame : DiffersIn t u "extra_headers" ↔ true = false := by
    rw [← same_headers ht hu hlookup]
    rfl
  exact absurd (hsame.mp h) Bool.noConfusion

/-- The three fields of the normalisation rules. -/
def normalizeDump (t : ResolvedTemplate) : Json.Fields :=
  [("fields", dumpStrings t.normalizeFields),
    ("case_insensitive_fields", dumpStrings t.normalizeCaseInsensitive),
    ("trim_strings", .bool t.normalizeTrimStrings)]

theorem lookup_dump_normalize (t : ResolvedTemplate) :
    t.dump.lookup "normalize" = some (.obj (normalizeDump t)) := rfl

theorem differsAt_normalize {sub : String} :
    DiffersAt t.dump u.dump ("normalize" ++ "." ++ sub) ↔
      Json.same (((normalizeDump t).reverse.lookup sub).getD .null)
        (((normalizeDump u).reverse.lookup sub).getD .null) = false := by
  have hflat : ∀ t : ResolvedTemplate, ∀ f ∈ normalizeDump t, ∀ under, f.2 ≠ .obj under := by
    simp [normalizeDump, dumpStrings]
  rw [DiffersAt,
    lookup_flatten_dotted (nodup_dump t) (plain_dump t) (by decide) (lookup_dump_normalize t),
    lookup_flatten_dotted (nodup_dump u) (plain_dump u) (by decide) (lookup_dump_normalize u),
    lookup_flatten_flat (hflat t), lookup_flatten_flat (hflat u)]

/-- Rules that differ do so in one of their fields. -/
theorem exists_differsAt_normalize (h : DiffersIn t u "normalize") :
    ∃ sub, DiffersAt t.dump u.dump ("normalize" ++ "." ++ sub) := by
  by_contra hnone
  push Not at hnone
  have hfield : ∀ sub, Json.same (((normalizeDump t).reverse.lookup sub).getD .null)
      (((normalizeDump u).reverse.lookup sub).getD .null) = true := fun sub => by
    simpa only [Bool.not_eq_false] using mt differsAt_normalize.mpr (hnone sub)
  have hfields : Json.same (dumpStrings t.normalizeFields) (dumpStrings u.normalizeFields) =
      true := hfield "fields"
  have hci : Json.same (dumpStrings t.normalizeCaseInsensitive)
      (dumpStrings u.normalizeCaseInsensitive) = true := hfield "case_insensitive_fields"
  have htrim : Json.same (.bool t.normalizeTrimStrings) (.bool u.normalizeTrimStrings) = true :=
    hfield "trim_strings"
  have hdiffers : (Json.same (dumpStrings t.normalizeFields) (dumpStrings u.normalizeFields) &&
      (Json.same (dumpStrings t.normalizeCaseInsensitive)
          (dumpStrings u.normalizeCaseInsensitive) &&
        (Json.same (.bool t.normalizeTrimStrings) (.bool u.normalizeTrimStrings) && true))) =
      false := h
  rw [hfields, hci, htrim] at hdiffers
  cases hdiffers

/-- The fields of the request body template. -/
def bodyFields (t : ResolvedTemplate) : Json.Fields := t.requestBodyTemplate.getD []

/-- The two request body templates have one value at every dotted path; a value of null counts as
none. -/
def BodiesAlike (t u : ResolvedTemplate) : Prop :=
  ∀ path, Json.same (((flatten "" (bodyFields t) []).lookup path).getD .null)
    (((flatten "" (bodyFields u) []).lookup path).getD .null) = true

theorem lookup_body (t : ResolvedTemplate) (sub : String) :
    (flatten "" t.dump []).lookup ("request_body_template" ++ "." ++ sub) =
      (flatten "" (bodyFields t) []).lookup sub := by
  have hbody : t.dump.lookup "request_body_template" =
      some (dumpOption .obj t.requestBodyTemplate) := rfl
  rw [lookup_flatten_under (nodup_dump t) (plain_dump t) (by decide) hbody]
  unfold bodyFields
  cases t.requestBodyTemplate with
  | none => rfl
  | some body =>
      have hn : ((flatten ("request_body_template" ++ ".") body []).map Prod.fst).Nodup :=
        nodup_flatten _ _ List.nodup_nil
      have hshift := lookup_flatten_shift ("request_body_template" ++ ".") "" sub body
      rw [String.append_empty] at hshift
      change (Json.update [] (flatten ("request_body_template" ++ ".") body [])).lookup _ = _
      rw [Json.lookup_update_of_nodup hn, List.lookup_nil, Option.or_none]
      exact hshift

theorem bodiesAlike_iff :
    BodiesAlike t u ↔
      ∀ sub, ¬ DiffersAt t.dump u.dump ("request_body_template" ++ "." ++ sub) := by
  refine forall_congr' fun sub => ?_
  rw [DiffersAt, lookup_body, lookup_body, Bool.not_eq_false]

end Containers

/-! ### The fields the review is for -/

section Reviewed

variable {t u : ResolvedTemplate}

/-- The fields a change of which is to be reviewed. -/
def reviewedFields : List String :=
  ["base_url", "create_path", "get_path_template", "cancel_path_template", "create_method",
    "get_method", "cancel_method", "callback_param", "extra_headers", "request_body_template",
    "normalize", "namespace", "pool", "status_source", "capabilities", "result_policy", "strategy"]

/-- Those of them that are strings. -/
def scalarFields : List String :=
  ["base_url", "create_path", "get_path_template", "cancel_path_template", "create_method",
    "get_method", "cancel_method", "callback_param", "namespace", "pool", "status_source"]

theorem lookup_scalar (t : ResolvedTemplate) :
    ∀ F ∈ scalarFields, ∃ x, t.dump.lookup F = some (.str x) := by
  simp only [scalarFields, List.forall_mem_cons]
  exact ⟨⟨_, rfl⟩, ⟨_, rfl⟩, ⟨_, rfl⟩, ⟨_, rfl⟩, ⟨_, rfl⟩, ⟨_, rfl⟩, ⟨_, rfl⟩, ⟨_, rfl⟩, ⟨_, rfl⟩,
    ⟨_, rfl⟩, ⟨_, rfl⟩, fun _ h => absurd h List.not_mem_nil⟩

/-- Whatever differs of the fields the review is for is reviewed. -/
def ReviewsAll (t u : ResolvedTemplate) : Prop :=
  ∀ F ∈ reviewedFields, DiffersIn t u F → Reviews (classifyChange t u) F

/-- **Containment decides what is reviewed**: every difference is, exactly where the headers and the
normalisation rules are the same and the request body templates, if they differ, differ at no
dotted path. -/
theorem reviewsAll_iff (ht : (t.extraHeaders.map Prod.fst).Nodup)
    (hu : (u.extraHeaders.map Prod.fst).Nodup) :
    ReviewsAll t u ↔
      ¬ DiffersIn t u "extra_headers" ∧ ¬ DiffersIn t u "normalize" ∧
        (DiffersIn t u "request_body_template" → BodiesAlike t u) := by
  have hheaders : Leafless "extra_headers" := shadowed_of_take (by decide) (by decide)
  have hnormalize : Leafless "normalize" := shadowed_of_take (by decide) (by decide)
  have hbody : Leafless "request_body_template" := shadowed_of_take (by decide) (by decide)
  constructor
  · intro h
    refine ⟨fun hd => ?_, fun hd => ?_, fun hd => ?_⟩
    · obtain ⟨sub, hsub⟩ := exists_differsAt_headers ht hu hd
      exact (reviews_container_iff (by decide) (by decide) hheaders hd).mp
        (h _ (by decide) hd) sub hsub
    · obtain ⟨sub, hsub⟩ := exists_differsAt_normalize hd
      exact (reviews_container_iff (by decide) (by decide) hnormalize hd).mp
        (h _ (by decide) hd) sub hsub
    · exact bodiesAlike_iff.mpr ((reviews_container_iff (by decide) (by decide) hbody hd).mp
        (h _ (by decide) hd))
  · rintro ⟨hh, hn, hb⟩ F hF hd
    have hkinds : ∀ F ∈ reviewedFields, F ∈ scalarFields ∨ F ∈ forcedReviewPrefixes ∨
        F = "extra_headers" ∨ F = "normalize" ∨ F = "request_body_template" := by decide
    have hplain : ∀ F ∈ reviewedFields, '.' ∉ F.toList := by decide
    have hnamed : ∀ F ∈ scalarFields, F ∈ forcedReviewFields := by decide
    rcases hkinds F hF with hs | hp | rfl | rfl | rfl
    · obtain ⟨x, hx⟩ := lookup_scalar t F hs
      obtain ⟨y, hy⟩ := lookup_scalar u F hs
      exact reviews_scalar (hplain F hF) (hnamed F hs) hx hy hd
    · exact reviews_prefix (hplain F hF) hp hd
    · exact absurd hd hh
    · exact absurd hd hn
    · exact (reviews_container_iff (by decide) (by decide) hbody hd).mpr
        (bodiesAlike_iff.mp (hb hd))

/-- A template that sends its requests to one region, to a pool of its own. -/
def regional (region pool : String) : ResolvedTemplate where
  aliasName := "video"
  baseUrl := "https://upstream"
  createPath := "/tasks"
  getPathTemplate := "/tasks/{id}"
  cancelPathTemplate := "/tasks/{id}"
  resultLocation := "$.url"
  pool := pool
  extraHeaders := [("X-Region", region)]

/-- Another pool is reviewed. -/
theorem reviewsAll_pool : ReviewsAll (regional "cn" "shared") (regional "cn" "gpu") :=
  (reviewsAll_iff (by decide) (by decide)).mpr
    ⟨by decide +kernel, by decide +kernel, fun h => absurd h (by decide +kernel)⟩

/-- Another value of a header is not. -/
theorem header_unreviewed : ¬ ∀ t u : ResolvedTemplate, ReviewsAll t u := by
  intro h
  obtain ⟨f, hf, -⟩ := (h (regional "cn" "shared") (regional "us" "shared") "extra_headers"
    (by decide) (by decide +kernel)).listed
  have hnone : (classifyChange (regional "cn" "shared")
      (regional "us" "shared")).forcedReviewFields = [] := by decide +kernel
  rw [hnone] at hf
  exact absurd hf List.not_mem_nil

end Reviewed

end AsyncGateway
