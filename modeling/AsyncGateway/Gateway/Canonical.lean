import AsyncGateway.Gateway.Idempotency
import Mathlib.Data.String.Basic

/-!
# Gateway — which requests are one

`canonicalBody` is there so that two create requests with no key of their own are one where their
bodies agree on the declared fields, and two where they do not (`Agree`).  It reads a field of a
body with `_get_dotted`, which finds `null` both where there is nothing and where there is `null`,
and takes a key with a dot in it for a path; and it looks a field up in the lower-cased names of
`case_insensitive_fields` without lower-casing it.  So it decides sameness rightly but for these
(`canonicalBody_decides_iff`).
-/

namespace AsyncGateway

/-! ### A path with dots -/

theorem splitOnAux_dot (s : String) (b i : String.Pos.Raw) (r : List String) :
    String.splitOnAux s "." b i 0 r = String.splitAux s (· == '.') b i r := by
  have hget : String.Pos.Raw.get "." 0 = '.' := by decide
  have hend : (String.Pos.Raw.next "." 0).atEnd "." = true := by decide
  induction b, i, r using String.splitAux.induct (s := s) (p := (· == '.')) with
  | case1 b i r h =>
    rw [String.splitOnAux, String.splitAux]
    simp [h]
  | case2 b i r h _ hp i' ih =>
    have hc : i.get s = '.' := eq_of_beq hp
    have hun : (i.next s).unoffsetBy (String.Pos.Raw.next "." 0) = i := by
      rw [String.Pos.Raw.next, String.Pos.Raw.next, hc, hget]
      simp [String.Pos.Raw.ext_iff]
    rw [String.splitOnAux, String.splitAux, dif_neg h, if_neg h, hget, if_pos hp, if_pos hp]
    simp only [hend, if_true, hun]
    exact ih
  | case3 b i r h _ hp ih =>
    rw [String.splitOnAux, String.splitAux, dif_neg h, if_neg h, hget, if_neg hp, if_neg hp,
      String.Pos.Raw.unoffsetBy_zero]
    exact ih

theorem splitOn_dot (s : String) :
    s.splitOn "." = (s.toList.splitOn '.').map String.ofList := by
  have hne : ¬ ("." == "") = true := by decide
  rw [String.splitOn, if_neg hne, splitOnAux_dot, ← String.splitToList, String.splitToList_of_valid]
  rfl

section Canonical

variable (H : Hashing) (t : ResolvedTemplate)

/-! ### What is to be compared -/

/-- The fields of a body that are compared: the declared ones, and with none declared its keys. -/
def comparedFields (body : Json.Fields) : List String :=
  if t.normalizeFields = [] then body.map Prod.fst else t.normalizeFields

/-- What a body has at a field; a declared field is a path with dots. -/
def fieldOf (body : Json.Fields) (field : String) : Option Json :=
  if t.normalizeFields = [] then body.lookup field
  else (Json.obj body).follow ((field.splitOn ".").map .key)

def trimmed (s : String) : String :=
  if t.normalizeTrimStrings then String.ofList (Text.strip s.toList) else s

/-- The field is among `case_insensitive_fields`, whatever the letter case of its name. -/
def IgnoresCase (field : String) : Prop :=
  ∃ name ∈ t.normalizeCaseInsensitive, H.lower name = field ∨ H.lower name = H.lower field

instance (field : String) : Decidable (IgnoresCase H t field) :=
  inferInstanceAs (Decidable (∃ name ∈ _, _))

/-- What counts of a value at a field.  The order of the fields of an object does not. -/
def essence (field : String) : Json → Json
  | .str s => .str (if IgnoresCase H t field then H.lower (trimmed t s) else trimmed t s)
  | v => v.sorted

variable (b₁ b₂ : Json.Fields)

def Compared (field : String) : Prop :=
  field ∈ comparedFields t b₁ ∨ field ∈ comparedFields t b₂

/-- The bodies agree on a field: neither has it, or both have what counts as the same. -/
def AgreeOn (field : String) : Prop :=
  (fieldOf t b₁ field).map (essence H t field) = (fieldOf t b₂ field).map (essence H t field)

/-- The bodies agree on every field that is compared. -/
def Agree : Prop := ∀ field, Compared t b₁ b₂ field → AgreeOn H t b₁ b₂ field

/-! ### Where `canonical_body` reads something else -/

/-- A declared field where one body has `null` and the other nothing. -/
def NullForNothing (field : String) : Prop :=
  t.normalizeFields ≠ [] ∧
    ((fieldOf t b₁ field = none ∧ fieldOf t b₂ field = some .null) ∨
      (fieldOf t b₁ field = some .null ∧ fieldOf t b₂ field = none))

/-- A key with a dot in it, in both bodies and with values that differ, where `_get_dotted` finds
the same below. -/
def PathForKey (field : String) : Prop :=
  t.normalizeFields = [] ∧ '.' ∈ field.toList ∧
    (field ∈ b₁.map Prod.fst ∧ field ∈ b₂.map Prod.fst) ∧ ¬ AgreeOn H t b₁ b₂ field ∧
    (getDotted b₁ field).sorted = (getDotted b₂ field).sorted

/-- The bodies differ in the field, which is overlooked. -/
def Overlooked (field : String) : Prop :=
  NullForNothing t b₁ b₂ field ∨ PathForKey H t b₁ b₂ field

/-- A field that is listed for its case to be ignored, but is no lower-cased name, with two strings
that differ in their case only. -/
def CaseOnly (field : String) : Prop :=
  (IgnoresCase H t field ∧ field ∉ t.normalizeCaseInsensitive.map H.lower) ∧
    ∃ s₁ s₂, getDotted b₁ field = .str s₁ ∧ getDotted b₂ field = .str s₂ ∧
      trimmed t s₁ ≠ trimmed t s₂ ∧ H.lower (trimmed t s₁) = H.lower (trimmed t s₂)

/-! ### What `canonical_body` writes -/

/-- The value of a field in the canonical body. -/
def normalised (field : String) : Json → Json
  | .str s =>
      .str (if field ∈ t.normalizeCaseInsensitive.map H.lower then H.lower (trimmed t s)
        else trimmed t s)
  | v => v

/-- The fields that are written. -/
def canonicalFields (body : Json.Fields) : Json.Fields :=
  ((comparedFields t body).insertionSort (· ≤ ·)).foldl
    (fun payload field => Json.put payload field (normalised H t field (getDotted body field))) []

theorem canonicalBody_eq (body : Json.Fields) :
    canonicalBody H body t = Json.dumps (.obj (canonicalFields H t body)) := rfl

/-- The canonical bodies are the same at a field. -/
def WrittenAlike (field : String) : Prop :=
  (field ∈ comparedFields t b₁ ↔ field ∈ comparedFields t b₂) ∧
    (field ∈ comparedFields t b₁ → (normalised H t field (getDotted b₁ field)).sorted =
      (normalised H t field (getDotted b₂ field)).sorted)

variable {H t b₁ b₂} {field : String}

theorem floats_getDotted {body : Json.Fields} (h : Json.Floats (.obj body)) :
    Json.Floats (getDotted body field) := by
  cases hv : (Json.obj body).follow ((field.splitOn ".").map .key) with
  | none => rw [getDotted, hv]; trivial
  | some v => rw [getDotted, hv]; exact Json.floats_follow h hv

theorem floats_normalised {v : Json} (h : Json.Floats v) :
    Json.Floats (normalised H t field v) := by
  cases v with
  | str s => trivial
  | _ => exact h

theorem lookup_canonicalFields (body : Json.Fields) (field : String) :
    (canonicalFields H t body).lookup field =
      if field ∈ comparedFields t body then some (normalised H t field (getDotted body field))
      else none := by
  rw [canonicalFields, Json.lookup_foldl_put]
  simp only [List.mem_insertionSort]
  rfl

theorem nodup_canonicalFields (body : Json.Fields) :
    ((canonicalFields H t body).map Prod.fst).Nodup :=
  Json.nodup_foldl_put _ _ List.nodup_nil

theorem floats_canonicalFields {body : Json.Fields} (h : Json.Floats (.obj body)) :
    Json.Floats (.obj (canonicalFields H t body)) := by
  refine Json.floatsFields_iff.mpr fun f hf => ?_
  have hlookup := Json.lookup_of_mem (nodup_canonicalFields body) hf
  rw [lookup_canonicalFields] at hlookup
  split at hlookup
  · rw [← Option.some.inj hlookup]
    exact floats_normalised (floats_getDotted h)
  · cases hlookup

/-- **The canonical bodies are equal where they are the same at every field.** -/
theorem canonicalBody_eq_iff (h₁ : Json.Floats (.obj b₁)) (h₂ : Json.Floats (.obj b₂)) :
    canonicalBody H b₁ t = canonicalBody H b₂ t ↔ ∀ field, WrittenAlike H t b₁ b₂ field := by
  rw [canonicalBody_eq, canonicalBody_eq,
    Json.dumps_eq_iff (floats_canonicalFields h₁) (floats_canonicalFields h₂),
    Json.sorted_obj_eq_iff (nodup_canonicalFields b₁) (nodup_canonicalFields b₂)]
  refine forall_congr' fun field => ?_
  rw [lookup_canonicalFields, lookup_canonicalFields, WrittenAlike]
  by_cases hm₁ : field ∈ comparedFields t b₁ <;> by_cases hm₂ : field ∈ comparedFields t b₂ <;>
    simp [hm₁, hm₂]

/-! ### Field by field -/

/-- Two values are written alike where they count as the same, but for two strings the case of
which is not ignored as it should be. -/
theorem sorted_normalised_iff {v w : Json} :
    (normalised H t field v).sorted = (normalised H t field w).sorted ↔
      essence H t field v = essence H t field w ∧
        ¬ ((IgnoresCase H t field ∧ field ∉ t.normalizeCaseInsensitive.map H.lower) ∧
          ∃ s₁ s₂, v = .str s₁ ∧ w = .str s₂ ∧ trimmed t s₁ ≠ trimmed t s₂ ∧
            H.lower (trimmed t s₁) = H.lower (trimmed t s₂)) := by
  have hci : field ∈ t.normalizeCaseInsensitive.map H.lower → IgnoresCase H t field := fun h => by
    obtain ⟨name, hname, hlower⟩ := List.mem_map.mp h
    exact ⟨name, hname, .inl hlower⟩
  cases v with
  | str s =>
      cases w with
      | str s' =>
          by_cases hf : field ∈ t.normalizeCaseInsensitive.map H.lower
          · have hi := hci hf
            simp [normalised, essence, Json.sorted, hf, hi]
          · by_cases hi : IgnoresCase H t field
            · have hsame : trimmed t s = trimmed t s' →
                  H.lower (trimmed t s) = H.lower (trimmed t s') := congrArg H.lower
              simp [normalised, essence, Json.sorted, hf, hi]
              tauto
            · simp [normalised, essence, Json.sorted, hf, hi]
      | _ => simp [normalised, essence, Json.sorted]
  | _ => cases w <;> simp [normalised, essence, Json.sorted]

theorem not_writtenAlike_of_caseOnly (hc : Compared t b₁ b₂ field)
    (h : CaseOnly H t b₁ b₂ field) : ¬ WrittenAlike H t b₁ b₂ field := by
  intro hw
  have hm₁ : field ∈ comparedFields t b₁ := hc.elim id hw.1.mpr
  exact (sorted_normalised_iff.mp (hw.2 hm₁)).2 h

theorem essence_eq_null {v : Json} : .null = essence H t field v ↔ v = .null := by
  cases v <;> simp [essence, Json.sorted]

/-- A declared field is read where it is, and a key without a dot. -/
theorem getDotted_eq (hf : t.normalizeFields = [] → '.' ∉ field.toList) (body : Json.Fields) :
    getDotted body field = (fieldOf t body field).getD .null := by
  rw [getDotted, fieldOf]
  split
  · next hnone =>
      rw [splitOn_dot, List.splitOn_eq_singleton (hf hnone)]
      simp [Json.follow]
  · rfl

/-- With no field declared, the fields of a body are those it has. -/
theorem mem_comparedFields (hf : t.normalizeFields = []) {body : Json.Fields} :
    field ∈ comparedFields t body ↔ fieldOf t body field ≠ none := by
  rw [comparedFields, fieldOf, if_pos hf, if_pos hf, Ne, List.lookup_eq_none_iff]
  simp [List.mem_map]

theorem NullForNothing.not_agreeOn (h : NullForNothing t b₁ b₂ field) :
    ¬ AgreeOn H t b₁ b₂ field := by
  intro ha
  rcases h.2 with ⟨h₁, h₂⟩ | ⟨h₁, h₂⟩ <;> simp [AgreeOn, h₁, h₂] at ha

theorem Overlooked.not_agreeOn (h : Overlooked H t b₁ b₂ field) : ¬ AgreeOn H t b₁ b₂ field :=
  h.elim NullForNothing.not_agreeOn fun h => h.2.2.2.1

theorem comparedFields_eq (hne : t.normalizeFields ≠ []) (body : Json.Fields) :
    comparedFields t body = t.normalizeFields := by rw [comparedFields, if_neg hne]

/-- A field that only one of the bodies has is written differently, and they do not agree on it. -/
theorem not_of_one (hc : Compared t b₁ b₂ field)
    (h : ¬ (field ∈ comparedFields t b₁ ∧ field ∈ comparedFields t b₂)) :
    ¬ WrittenAlike H t b₁ b₂ field ∧ ¬ AgreeOn H t b₁ b₂ field := by
  refine ⟨fun hw => h ⟨hc.elim id hw.1.mpr, hc.elim hw.1.mp id⟩, fun ha => ?_⟩
  by_cases hnone : t.normalizeFields = []
  · have hsome : fieldOf t b₁ field = none ↔ fieldOf t b₂ field = none := by
      rw [← Option.map_eq_none_iff (f := essence H t field), ha, Option.map_eq_none_iff]
    rw [mem_comparedFields hnone, mem_comparedFields hnone, Ne, hsome] at h
    rw [Compared, mem_comparedFields hnone, mem_comparedFields hnone, Ne, hsome] at hc
    exact h (and_self_iff.mpr (or_self_iff.mp hc))
  · rw [comparedFields_eq hnone, comparedFields_eq hnone] at h
    rw [Compared, comparedFields_eq hnone, comparedFields_eq hnone] at hc
    exact h (and_self_iff.mpr (or_self_iff.mp hc))

theorem writtenAlike_iff_sorted
    (h : field ∈ comparedFields t b₁ ∧ field ∈ comparedFields t b₂) :
    WrittenAlike H t b₁ b₂ field ↔ (normalised H t field (getDotted b₁ field)).sorted =
      (normalised H t field (getDotted b₂ field)).sorted :=
  ⟨fun hw => hw.2 h.1, fun he => ⟨iff_of_true h.1 h.2, fun _ => he⟩⟩

/-- Where a field is read where it is, the canonical bodies differ at it where the bodies do or only
the case does. -/
theorem writtenAlike_iff (hf : t.normalizeFields = [] → '.' ∉ field.toList)
    (hc : Compared t b₁ b₂ field) (hn : ¬ NullForNothing t b₁ b₂ field) :
    WrittenAlike H t b₁ b₂ field ↔ AgreeOn H t b₁ b₂ field ∧ ¬ CaseOnly H t b₁ b₂ field := by
  by_cases hboth : field ∈ comparedFields t b₁ ∧ field ∈ comparedFields t b₂
  · rw [writtenAlike_iff_sorted hboth, sorted_normalised_iff]
    refine and_congr_left' ?_
    have hdeclared : (fieldOf t b₁ field = none ∨ fieldOf t b₂ field = none) →
        t.normalizeFields ≠ [] := fun hor hnone => by
      rw [mem_comparedFields hnone, mem_comparedFields hnone] at hboth
      exact hor.elim hboth.1 hboth.2
    rw [getDotted_eq hf, getDotted_eq hf, AgreeOn]
    cases h₁ : fieldOf t b₁ field with
    | none =>
        cases h₂ : fieldOf t b₂ field with
        | none => exact iff_of_true rfl rfl
        | some w =>
            refine iff_of_false (fun he => ?_) (fun he => by cases he)
            have hw : w = .null := essence_eq_null.mp he
            exact hn ⟨hdeclared (.inl h₁), .inl ⟨h₁, hw ▸ h₂⟩⟩
    | some v =>
        cases h₂ : fieldOf t b₂ field with
        | none =>
            refine iff_of_false (fun he => ?_) (fun he => by cases he)
            have hv : v = .null := essence_eq_null.mp he.symm
            exact hn ⟨hdeclared (.inr h₂), .inr ⟨hv ▸ h₁, h₂⟩⟩
        | some w =>
            rw [Option.getD_some, Option.getD_some, Option.map_some, Option.map_some,
              Option.some.injEq]
  · obtain ⟨hw, ha⟩ := not_of_one (H := H) hc hboth
    exact iff_of_false hw fun h => ha h.1

/-- Below two values that count as the same, a path leads to the same. -/
theorem follow_essence {v w : Json} (h : essence H t field v = essence H t field w) {k : String}
    (ks : List String) : (v.follow (((k :: ks)).map .key)).map Json.sorted =
      (w.follow ((k :: ks).map .key)).map Json.sorted := by
  have hstr : ∀ {s : String} {u : Json}, essence H t field (.str s) = essence H t field u →
      ∃ s', u = .str s' := fun {s u} he => by
    cases u with
    | str s' => exact ⟨s', rfl⟩
    | _ => simp [essence, Json.sorted] at he
  by_cases hs : ∃ s, v = .str s
  · obtain ⟨s, rfl⟩ := hs
    obtain ⟨s', rfl⟩ := hstr h
    rfl
  · have hw : ¬ ∃ s', w = .str s' := by
      rintro ⟨s', rfl⟩
      exact hs (hstr h.symm)
    have hsorted : ∀ {u : Json}, (¬ ∃ s', u = .str s') → essence H t field u = u.sorted :=
      fun {u} hu => by
        cases u with
        | str s' => exact absurd ⟨s', rfl⟩ hu
        | _ => rfl
    rw [hsorted hs, hsorted hw] at h
    rw [← Json.follow_sorted, ← Json.follow_sorted, h]

/-- What is read below a key with a dot in it differs only where the bodies differ in a field whose
key has none. -/
theorem exists_not_agreeOn (hnone : t.normalizeFields = []) (hdot : '.' ∈ field.toList)
    (h : (getDotted b₁ field).sorted ≠ (getDotted b₂ field).sorted) :
    ∃ key, '.' ∉ key.toList ∧ Compared t b₁ b₂ key ∧ ¬ AgreeOn H t b₁ b₂ key := by
  obtain ⟨front, rest, htext, hfront⟩ := List.eq_append_cons_of_mem hdot
  obtain ⟨k, ks, hrest⟩ : ∃ k ks, (rest.splitOn '.').map String.ofList = k :: ks :=
    List.exists_cons_of_ne_nil (by simp [List.splitOn_ne_nil])
  have hget : ∀ body : Json.Fields, getDotted body field =
      ((body.lookup (String.ofList front)).bind (·.follow ((k :: ks).map .key))).getD .null := by
    intro body
    rw [getDotted, splitOn_dot, htext, List.splitOn_append_cons_self_of_not_mem hfront,
      List.map_cons, hrest]
    rfl
  have hfield : ∀ body : Json.Fields,
      fieldOf t body (String.ofList front) = body.lookup (String.ofList front) :=
    fun body => by rw [fieldOf, if_pos hnone]
  refine ⟨String.ofList front, by rwa [String.toList_ofList], ?_, fun ha => h ?_⟩
  · by_contra hc
    rw [Compared, mem_comparedFields hnone, mem_comparedFields hnone, hfield, hfield, not_or,
      not_not, not_not] at hc
    exact h (by rw [hget, hget, hc.1, hc.2])
  · rw [AgreeOn, hfield, hfield] at ha
    have hsorted : ∀ o : Option Json, (o.getD .null).sorted = (o.map Json.sorted).getD .null :=
      fun o => by cases o <;> rfl
    rw [hget, hget, hsorted, hsorted]
    cases h₁ : b₁.lookup (String.ofList front) with
    | none =>
        rw [h₁, Option.map_none, eq_comm, Option.map_eq_none_iff] at ha
        rw [ha]
    | some v =>
        cases h₂ : b₂.lookup (String.ofList front) with
        | none => rw [h₁, h₂] at ha; cases ha
        | some w =>
            rw [h₁, h₂] at ha
            have hbelow := follow_essence (Option.some.inj ha) (k := k) ks
            rw [Option.bind_some, Option.bind_some, hbelow]

theorem sorted_normalised_of_sorted {v w : Json} (h : v.sorted = w.sorted) :
    (normalised H t field v).sorted = (normalised H t field w).sorted := by
  cases v with
  | str s =>
      cases w with
      | str s' => rw [show s = s' from Json.str.inj h]
      | _ => cases h
  | _ =>
      cases w with
      | str s' => cases h
      | _ => exact h

theorem not_overlooked (hnone : t.normalizeFields = []) (hdot : '.' ∉ field.toList) :
    ¬ Overlooked H t b₁ b₂ field :=
  fun h => h.elim (fun h => h.1 hnone) fun h => hdot h.2.1

/-! ### Over all the fields -/

/-- The bodies differ in a field, and it is not overlooked. -/
def DifferOn (H : Hashing) (t : ResolvedTemplate) (b₁ b₂ : Json.Fields) (field : String) : Prop :=
  ¬ AgreeOn H t b₁ b₂ field ∧ ¬ Overlooked H t b₁ b₂ field

/-- A key with a dot is read where the other fields are, or the bodies differ in one of these. -/
theorem sorted_getDotted (hnone : t.normalizeFields = []) (hdot : '.' ∈ field.toList)
    (hd : ∀ key, Compared t b₁ b₂ key → ¬ DifferOn H t b₁ b₂ key) :
    (getDotted b₁ field).sorted = (getDotted b₂ field).sorted := by
  by_contra hne
  obtain ⟨key, hkey, hc, ha⟩ := exists_not_agreeOn (H := H) hnone hdot hne
  exact hd key hc ⟨ha, not_overlooked hnone hkey⟩

/-- Where the bodies differ in a field that is not overlooked, so do the canonical ones. -/
theorem exists_not_writtenAlike (hc : Compared t b₁ b₂ field) (hd : DifferOn H t b₁ b₂ field) :
    ∃ key, ¬ WrittenAlike H t b₁ b₂ key := by
  obtain ⟨ha, ho⟩ := hd
  have hnull : ¬ NullForNothing t b₁ b₂ field := fun h => ho (.inl h)
  by_cases hf : t.normalizeFields = [] ∧ '.' ∈ field.toList
  · obtain ⟨hnone, hdot⟩ := hf
    by_cases hboth : field ∈ comparedFields t b₁ ∧ field ∈ comparedFields t b₂
    · have hkeys : field ∈ b₁.map Prod.fst ∧ field ∈ b₂.map Prod.fst := by
        simpa only [comparedFields, if_pos hnone] using hboth
      obtain ⟨key, hkey, hck, hak⟩ := exists_not_agreeOn (H := H) hnone hdot fun he =>
        ho (.inr ⟨hnone, hdot, hkeys, ha, he⟩)
      refine ⟨key, fun hw => hak ?_⟩
      exact ((writtenAlike_iff (fun _ => hkey) hck fun h => h.1 hnone).mp hw).1
    · exact ⟨field, (not_of_one hc hboth).1⟩
  · refine ⟨field, fun hw => ha ?_⟩
    exact ((writtenAlike_iff (fun hnone hdot => hf ⟨hnone, hdot⟩) hc hnull).mp hw).1

/-- Where the bodies differ in no field but overlooked ones, the canonical ones differ in the case
only. -/
theorem writtenAlike_of (hd : ∀ key, Compared t b₁ b₂ key → ¬ DifferOn H t b₁ b₂ key)
    (hk : ∀ key, Compared t b₁ b₂ key → ¬ CaseOnly H t b₁ b₂ key) (field : String) :
    WrittenAlike H t b₁ b₂ field := by
  by_cases hc : Compared t b₁ b₂ field
  swap
  · exact ⟨iff_of_false (fun hm => hc (.inl hm)) fun hm => hc (.inr hm),
      fun hm => absurd (.inl hm) hc⟩
  by_cases hf : t.normalizeFields = [] ∧ '.' ∈ field.toList
  · obtain ⟨hnone, hdot⟩ := hf
    have hboth : field ∈ comparedFields t b₁ ∧ field ∈ comparedFields t b₂ := by
      by_contra hboth
      refine hd field hc ⟨(not_of_one hc hboth).2, fun ho => ?_⟩
      have hkeys := ho.elim (fun h => absurd hnone h.1) fun h => h.2.2.1
      simp only [comparedFields, if_pos hnone] at hboth
      exact hboth hkeys
    rw [writtenAlike_iff_sorted hboth]
    exact sorted_normalised_of_sorted (sorted_getDotted hnone hdot hd)
  have hf : t.normalizeFields = [] → '.' ∉ field.toList := fun hnone hdot => hf ⟨hnone, hdot⟩
  by_cases hn : NullForNothing t b₁ b₂ field
  · have hboth : field ∈ comparedFields t b₁ ∧ field ∈ comparedFields t b₂ := by
      rw [Compared, comparedFields_eq hn.1, comparedFields_eq hn.1, or_self_iff] at hc
      rw [comparedFields_eq hn.1, comparedFields_eq hn.1]
      exact ⟨hc, hc⟩
    rw [writtenAlike_iff_sorted hboth, getDotted_eq hf, getDotted_eq hf]
    rcases hn.2 with ⟨h₁, h₂⟩ | ⟨h₁, h₂⟩ <;> rw [h₁, h₂] <;> rfl
  · refine (writtenAlike_iff hf hc hn).mpr ⟨?_, hk field hc⟩
    by_contra ha
    exact hd field hc ⟨ha, fun ho => ho.elim hn fun h => hf h.1 h.2.1⟩

/-- **The canonical body decides sameness just where the bodies differ in a field that is not
overlooked, or else there is an overlooked field where there is one with only its case to differ,
and none where there is none.** -/
theorem canonicalBody_decides_iff (H : Hashing) (t : ResolvedTemplate) (b₁ b₂ : Json.Fields)
    (h₁ : Json.Floats (.obj b₁)) (h₂ : Json.Floats (.obj b₂)) :
    (canonicalBody H b₁ t = canonicalBody H b₂ t ↔ Agree H t b₁ b₂) ↔
      (∃ field, Compared t b₁ b₂ field ∧ DifferOn H t b₁ b₂ field) ∨
        ((∃ field, Compared t b₁ b₂ field ∧ Overlooked H t b₁ b₂ field) ↔
          ∃ field, Compared t b₁ b₂ field ∧ CaseOnly H t b₁ b₂ field) := by
  rw [canonicalBody_eq_iff h₁ h₂]
  by_cases hd : ∃ field, Compared t b₁ b₂ field ∧ DifferOn H t b₁ b₂ field
  · obtain ⟨field, hc, hdiff⟩ := hd
    refine iff_of_true (iff_of_false (fun hw => ?_) fun ha => ?_) (.inl ⟨field, hc, hdiff⟩)
    · obtain ⟨key, hkey⟩ := exists_not_writtenAlike hc hdiff
      exact hkey (hw key)
    · exact hdiff.1 (ha field hc)
  · have hnone : ∀ key, Compared t b₁ b₂ key → ¬ DifferOn H t b₁ b₂ key :=
      fun key hc hdiff => hd ⟨key, hc, hdiff⟩
    have hwritten : (∀ field, WrittenAlike H t b₁ b₂ field) ↔
        ¬ ∃ field, Compared t b₁ b₂ field ∧ CaseOnly H t b₁ b₂ field := by
      constructor
      · rintro hw ⟨field, hc, hcase⟩
        exact not_writtenAlike_of_caseOnly hc hcase (hw field)
      · exact fun hk => writtenAlike_of hnone fun key hc hcase => hk ⟨key, hc, hcase⟩
    have hagree : Agree H t b₁ b₂ ↔
        ¬ ∃ field, Compared t b₁ b₂ field ∧ Overlooked H t b₁ b₂ field := by
      constructor
      · rintro ha ⟨field, hc, ho⟩
        exact ho.not_agreeOn (ha field hc)
      · intro ho field hc
        by_contra ha
        exact hnone field hc ⟨ha, fun hover => ho ⟨field, hc, hover⟩⟩
    rw [hwritten, hagree, or_iff_right hd, not_iff_not]
    exact ⟨Iff.symm, Iff.symm⟩

/-! ### Two prompts -/

/-- The hash of the empty text, and the lower case of the letters of ASCII. -/
def asciiHashing : Hashing where
  sha256 := fun _ => "e3b0c44298fc1c149afbf4c8996fb92427ae41e4649b934ca495991b7852b855"
  length_sha256 := fun _ => by decide
  lower := fun s => String.ofList (s.toList.map Char.toLower)

/-- A template with one field to compare, whatever its case. -/
def promptTemplate (fields : List String) : ResolvedTemplate where
  aliasName := "prompt"
  baseUrl := "https://api.example.com"
  createPath := "/v1/tasks"
  getPathTemplate := "/v1/tasks/x"
  cancelPathTemplate := "/v1/tasks/x"
  resultLocation := "$.url"
  normalizeFields := fields
  normalizeCaseInsensitive := ["Prompt"]

theorem canonicalBody_decides_number :
    canonicalBody asciiHashing [("n", .int 1)] (promptTemplate []) =
        canonicalBody asciiHashing [] (promptTemplate []) ↔
      Agree asciiHashing (promptTemplate []) [("n", .int 1)] [] :=
  (canonicalBody_decides_iff asciiHashing (promptTemplate []) [("n", .int 1)] []
    ⟨trivial, trivial⟩ trivial).mpr
    (.inl ⟨"n", .inl (List.mem_singleton_self _), fun h => (by cases h),
      not_overlooked rfl (by decide)⟩)

/-- The name of the field is not lower-cased where it is looked up. -/
theorem canonicalBody_fails :
    ¬ (canonicalBody asciiHashing [("Prompt", .str "A cat")] (promptTemplate ["Prompt"]) =
        canonicalBody asciiHashing [("Prompt", .str "a cat")] (promptTemplate ["Prompt"]) ↔
      Agree asciiHashing (promptTemplate ["Prompt"]) [("Prompt", .str "A cat")]
        [("Prompt", .str "a cat")]) := by
  have hread : ∀ s : String, fieldOf (promptTemplate ["Prompt"]) [("Prompt", .str s)] "Prompt" =
      some (.str s) := fun s => by
    rw [fieldOf, splitOn_dot]
    rfl
  have hget : ∀ s : String, getDotted [("Prompt", .str s)] "Prompt" = .str s := fun s => by
    rw [getDotted_eq (t := promptTemplate ["Prompt"]) (fun h => by cases h), hread]
    rfl
  have hlisted : IgnoresCase asciiHashing (promptTemplate ["Prompt"]) "Prompt" :=
    ⟨"Prompt", List.mem_singleton_self _, .inr rfl⟩
  have hlower : asciiHashing.lower (trimmed (promptTemplate ["Prompt"]) "A cat") =
      asciiHashing.lower (trimmed (promptTemplate ["Prompt"]) "a cat") := by decide
  have hcase : "Prompt" ∉ ["Prompt"].map asciiHashing.lower := by decide
  have htrimmed : trimmed (promptTemplate ["Prompt"]) "A cat" ≠
      trimmed (promptTemplate ["Prompt"]) "a cat" := by decide
  intro h
  have hc : Compared (promptTemplate ["Prompt"]) [("Prompt", .str "A cat")]
      [("Prompt", .str "a cat")] "Prompt" := .inl (List.mem_singleton_self _)
  have heq := h.mpr fun field hfield => by
    obtain rfl : field = "Prompt" := List.mem_singleton.mp (or_self_iff.mp hfield)
    rw [AgreeOn, hread, hread, Option.map_some, Option.map_some, essence, essence, if_pos hlisted,
      if_pos hlisted, hlower]
  have hfloats : ∀ s : String, Json.Floats (.obj [("Prompt", .str s)]) :=
    fun s => ⟨trivial, trivial⟩
  rw [canonicalBody_eq_iff (hfloats _) (hfloats _)] at heq
  exact not_writtenAlike_of_caseOnly hc
    ⟨⟨hlisted, hcase⟩, "A cat", "a cat", hget _, hget _, htrimmed, hlower⟩ (heq "Prompt")

end Canonical

end AsyncGateway
