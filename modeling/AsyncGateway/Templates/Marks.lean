import AsyncGateway.Templates.Derive

/-!
# Templates — what the provenance has as explicit

The provenance of a draft is filled field by field, and a patch leaves a name alone only where the
provenance has that very name as explicit.  `marks_eq_explicit_iff` says which names these are
(`guarded`): every leaf the author sets, but of the other fields not all (`exposed_iff`).  What the
author sets is in the expansion as it was given, but for the strings that are left empty
(`fieldValue_payload_iff`).
-/

namespace AsyncGateway

/-! ### The fields of a template -/

def simpleFields : List String :=
  ["alias", "namespace", "base_url", "create_path", "create_method", "get_path_template",
    "get_method", "cancel_path_template", "cancel_method", "id_location", "status_field",
    "result_location", "pool", "status_source", "callback_param", "extra_headers",
    "request_body_template", "notes"]

def leafNames (container : String) (leaves : List String) : List String :=
  leaves.map fun leaf => container ++ "." ++ leaf

/-- The fields of a template, and the leaves of those that have some. -/
def templateFields : List String :=
  simpleFields ++ leafNames "terminal" terminalLeaves ++
    leafNames "capabilities" capabilityLeaves ++ leafNames "result_policy" resultPolicyLeaves ++
    leafNames "normalize" normalizeLeaves ++ leafNames "strategy" strategyKeys

/-- The value under a dotted name. -/
def fieldValue (fs : Json.Fields) (F : String) : Option Json :=
  (Json.obj fs).follow ((pathParts F).map .key)

namespace TemplateDraft

variable (U : Unicode) (d : TemplateDraft)

/-- `model_dump(mode="json")` of the draft. -/
def dump : Json.Fields :=
  [("alias", .str d.aliasName), ("base_url", .str d.baseUrl), ("create_path", .str d.createPath),
    ("result_location", .str d.resultLocation), ("id_location", dumpOption .str d.idLocation),
    ("get_path_template", dumpOption .str d.getPathTemplate),
    ("cancel_path_template", dumpOption .str d.cancelPathTemplate),
    ("status_field", dumpOption .str d.statusField),
    ("terminal", dumpOption (fun part => .obj part.fields) d.terminal),
    ("capabilities", dumpOption (fun part => .obj part.fields) d.capabilities),
    ("result_policy", dumpOption (fun part => .obj part.fields) d.resultPolicy),
    ("pool", dumpOption .str d.pool),
    ("status_source", dumpOption (fun s => .str s.value) d.statusSource),
    ("callback_param", dumpOption .str d.callbackParam),
    ("namespace", dumpOption .str d.namespaceName), ("create_method", .str d.createMethod),
    ("get_method", .str d.getMethod), ("cancel_method", .str d.cancelMethod),
    ("extra_headers", .obj (d.extraHeaders.map fun h => (h.1, .str h.2))),
    ("request_body_template", dumpOption .obj d.requestBodyTemplate),
    ("normalize", dumpOption (fun part => .obj part.fields) d.normalize),
    ("strategy", dumpOption (fun part => .obj part.fields) d.strategy),
    ("notes", dumpOption .str d.notes)]

/-- Whether the author gives a field, which one that is null is not. -/
def gives (F : String) : Bool :=
  decide (F ∈ d.fieldsSet) && match d.dump.lookup F with
    | some .null => false
    | _ => true

/-- The leaves the author sets. -/
def leaves : List String :=
  leafNames "terminal" (DraftPart.leavesOf d.terminal) ++
    leafNames "capabilities" (DraftPart.leavesOf d.capabilities) ++
    leafNames "result_policy" (DraftPart.leavesOf d.resultPolicy) ++
    leafNames "normalize" (DraftPart.leavesOf d.normalize) ++
    leafNames "strategy" (d.overrides.map Prod.fst)

/-- The fields and leaves the author sets. -/
def explicitFields : List String := simpleFields.filter d.gives ++ d.leaves

/-! ### What the provenance has as explicit -/

/-- The optional strings, each with what the expansion has where the author gives none. -/
def optionalStrings : List (String × Option String × String) :=
  [("get_path_template", d.getPathTemplate, d.derivedPath),
    ("cancel_path_template", d.cancelPathTemplate, d.derivedPath),
    ("id_location", d.idLocation, "$.id"), ("status_field", d.statusField, "$.status"),
    ("pool", d.pool, "shared"), ("callback_param", d.callbackParam, "callback_url"),
    ("namespace", d.namespaceName, d.defaultNamespace)]

/-- The parts, and whether the author gives them. -/
def parts : List (String × Bool) :=
  [("terminal", d.terminal.isSome), ("capabilities", d.capabilities.isSome),
    ("result_policy", d.resultPolicy.isSome), ("normalize", d.normalize.isSome)]

/-- The fields that are guarded under their own names: the four a draft must have, a method of the
create that is not the default one, a source of the status, the optional strings that are given and
not empty, and the parts that are given.  None of the other fields the author may set is one of
them, and neither is `strategy`. -/
def guardedFields : List String :=
  ["alias", "base_url", "create_path", "result_location"] ++
    (if d.createMethod = "POST" then [] else ["create_method"]) ++
    (if d.statusSource.isSome then ["status_source"] else []) ++
    (d.optionalStrings.filter fun f => given f.2.1).map Prod.fst ++
    (d.parts.filter (·.2)).map Prod.fst

/-- The names a patch does not write to. -/
def guarded : List String := d.guardedFields ++ d.leaves

/-- What the author sets and a patch may write over under the name of the field. -/
def exposed : List String := d.explicitFields.filter fun F => decide (F ∉ d.guarded)

/-- The optional strings the author leaves empty, where the expansion has another value. -/
def blank : List String :=
  (d.optionalStrings.filter fun f => decide (f.2.1 = some "" ∧ f.2.2 ≠ "")).map Prod.fst

end TemplateDraft

/-! ### The paths of the fields -/

theorem pathParts_ne_nil (dotted : String) : pathParts dotted ≠ [] := by
  simp [pathParts, List.splitOn_ne_nil]

theorem pathParts_of_not_mem {k : String} (h : '.' ∉ k.toList) : pathParts k = [k] := by
  simp [pathParts, List.splitOn_eq_singleton h]

theorem pathParts_leaf {k : String} (h : '.' ∉ k.toList) (leaf : String) :
    pathParts (k ++ "." ++ leaf) = k :: pathParts leaf := by
  have htoList : (k ++ "." ++ leaf).toList = k.toList ++ '.' :: leaf.toList := by simp
  rw [pathParts, htoList, List.splitOn_append_cons_self_of_not_mem h, List.map_cons,
    String.ofList_toList]
  rfl

/-- The fields that have leaves. -/
def containers : List String :=
  ["terminal", "capabilities", "result_policy", "normalize", "strategy"]

/-- The names of leaves. -/
def leafWords : List String :=
  terminalLeaves ++ capabilityLeaves ++ resultPolicyLeaves ++ normalizeLeaves ++ strategyKeys

theorem dot_not_mem_leafWords : ∀ k ∈ leafWords, '.' ∉ k.toList := by decide +kernel

theorem dot_not_mem_names : ∀ k ∈ simpleFields ++ containers, '.' ∉ k.toList := by decide +kernel

/-- The path of a field is its name, or that of a leaf in a container. -/
theorem pathParts_templateFields {F : String} (h : F ∈ templateFields) :
    (F ∈ simpleFields ∧ pathParts F = [F]) ∨
      ∃ container ∈ containers, ∃ leaf, F = container ++ "." ++ leaf ∧
        pathParts F = [container, leaf] := by
  have hnames : ∀ (container : String) (leaves : List String), container ∈ containers →
      leaves ⊆ leafWords → F ∈ leafNames container leaves →
        ∃ container ∈ containers, ∃ leaf, F = container ++ "." ++ leaf ∧
          pathParts F = [container, leaf] := by
    rintro container leaves hc hleaves hF
    obtain ⟨leaf, hl, rfl⟩ := List.mem_map.mp hF
    exact ⟨container, hc, leaf, rfl, by
      rw [pathParts_leaf (dot_not_mem_names container (List.mem_append_right _ hc)),
        pathParts_of_not_mem (dot_not_mem_leafWords leaf (hleaves hl))]⟩
  simp only [templateFields, List.mem_append] at h
  rcases h with ((((h | h) | h) | h) | h) | h
  · exact .inl ⟨h, pathParts_of_not_mem (dot_not_mem_names F (List.mem_append_left _ h))⟩
  · exact .inr (hnames _ _ (by decide) (by decide) h)
  · exact .inr (hnames _ _ (by decide) (by decide) h)
  · exact .inr (hnames _ _ (by decide) (by decide) h)
  · exact .inr (hnames _ _ (by decide) (by decide) h)
  · exact .inr (hnames _ _ (by decide) (by decide) h)

theorem simple_ne_container {k container : String} (hk : k ∈ simpleFields)
    (hc : container ∈ containers) : k ≠ container := by
  have hall : ∀ k ∈ simpleFields, k ∉ containers := by decide +kernel
  rintro rfl
  exact hall k hk hc

/-- **The fields of a template are apart**: no path of one leads through another. -/
theorem apart_templateFields {F G : String} (hF : F ∈ templateFields) (hG : G ∈ templateFields)
    (h : F ≠ G) : Json.Apart (pathParts F) (pathParts G) := by
  rcases pathParts_templateFields hF with ⟨hs, hp⟩ | ⟨c, hc, l, rfl, hp⟩ <;>
    rcases pathParts_templateFields hG with ⟨hs', hp'⟩ | ⟨c', hc', l', rfl, hp'⟩ <;>
    rw [hp, hp', Json.Apart]
  · simp [h, h.symm]
  · simp [simple_ne_container hs hc', (simple_ne_container hs hc').symm]
  · simp [simple_ne_container hs' hc, (simple_ne_container hs' hc).symm]
  · have hne : ¬ (c = c' ∧ l = l') := by
      rintro ⟨rfl, rfl⟩
      exact h rfl
    simp only [List.cons_prefix_cons, List.nil_prefix, and_true]
    exact ⟨hne, fun heq => hne ⟨heq.1.symm, heq.2.symm⟩⟩

theorem head_ne_of_templateFields {F name : String} (h : F ∈ templateFields)
    (hname : name ∉ simpleFields ++ containers) : (pathParts F).head? ≠ some name := by
  rw [List.mem_append, not_or] at hname
  rcases pathParts_templateFields h with ⟨hs, hp⟩ | ⟨c, hc, l, rfl, hp⟩ <;> rw [hp] <;>
    rintro heq <;> cases heq
  · exact hname.1 hs
  · exact hname.2 hc

/-! ### What the author sets -/

theorem leafNames_subset {container : String} {names leaves : List String}
    (h : ∀ l ∈ leaves, l ∈ names) :
    ∀ F ∈ leafNames container leaves, F ∈ leafNames container names :=
  List.map_subset _ h

theorem leavesOf_subset {names : List String} (part : Option (DraftPart names)) :
    ∀ l ∈ DraftPart.leavesOf part, l ∈ names := by
  cases part with
  | none => exact fun _ h => absurd h List.not_mem_nil
  | some part => exact part.named

theorem overrides_subset (d : TemplateDraft) :
    ∀ k ∈ d.overrides.map Prod.fst, k ∈ strategyKeys := by
  rintro k hk
  obtain ⟨f, hf, rfl⟩ := List.mem_map.mp hk
  have hmem := List.mem_of_mem_filter hf
  cases hs : d.strategy with
  | none =>
      rw [hs] at hmem
      exact absurd hmem List.not_mem_nil
  | some part =>
      rw [hs] at hmem
      exact part.keys ▸ List.mem_map_of_mem hmem

theorem leaves_subset (d : TemplateDraft) : ∀ F ∈ d.leaves, F ∈ templateFields := by
  intro F hF
  simp only [TemplateDraft.leaves, templateFields, List.mem_append] at hF ⊢
  rcases hF with (((hF | hF) | hF) | hF) | hF
  · exact .inl (.inl (.inl (.inl (.inr (leafNames_subset (leavesOf_subset _) F hF)))))
  · exact .inl (.inl (.inl (.inr (leafNames_subset (leavesOf_subset _) F hF))))
  · exact .inl (.inl (.inr (leafNames_subset (leavesOf_subset _) F hF)))
  · exact .inl (.inr (leafNames_subset (leavesOf_subset _) F hF))
  · exact .inr (leafNames_subset (overrides_subset d) F hF)

/-- What the author sets are fields of a template. -/
theorem explicitFields_subset (d : TemplateDraft) :
    ∀ F ∈ d.explicitFields, F ∈ templateFields := by
  intro F hF
  rcases List.mem_append.mp hF with hF | hF
  · simp only [templateFields, List.mem_append]
    exact .inl (.inl (.inl (.inl (.inl (List.mem_of_mem_filter hF)))))
  · exact leaves_subset d F hF

/-! ### The marks -/

theorem markUnless_ne_patched {given : Bool} {otherwise : FieldSource}
    (h : otherwise ≠ .patched) : TemplateDraft.markUnless given otherwise ≠ .patched := by
  cases given
  · exact h
  · exact FieldSource.noConfusion

theorem leafMarks_ne_patched {container : String} {leaves : List String} :
    ∀ a ∈ TemplateDraft.leafMarks container leaves, a.2 ≠ .patched := by
  rintro a ha
  obtain ⟨leaf, -, rfl⟩ := List.mem_map.mp ha
  exact FieldSource.noConfusion

/-- Only the patches mark a field as patched. -/
theorem marks_ne_patched (d : TemplateDraft) (name : String) : d.marks name ≠ some .patched := by
  have hall : ∀ a ∈ d.assignments, a.2 ≠ .patched := by
    unfold TemplateDraft.assignments
    simp only [List.forall_mem_append]
    refine ⟨⟨⟨⟨⟨⟨⟨⟨⟨?_, ?_⟩, ?_⟩, leafMarks_ne_patched⟩, leafMarks_ne_patched⟩,
      leafMarks_ne_patched⟩, leafMarks_ne_patched⟩, by simp⟩, leafMarks_ne_patched⟩, ?_⟩
    · simp [markUnless_ne_patched]
    · split <;> simp
    · simp [markUnless_ne_patched]
    · simp [markUnless_ne_patched]
  rintro hmark
  obtain ⟨l₁, l₂, hsplit, -⟩ := List.lookup_eq_some_iff.mp hmark
  refine hall (name, .patched) (List.mem_reverse.mp ?_) rfl
  rw [hsplit]
  simp

/-- The fields that are marked under their own names. -/
def markedFields : List String :=
  ["get_path_template", "cancel_path_template", "id_location", "status_field", "terminal",
    "capabilities", "result_policy", "pool", "status_source", "callback_param", "namespace",
    "normalize", "base_url", "result_location", "create_path", "alias", "create_method"]

theorem guardedFields_subset (d : TemplateDraft) : d.guardedFields ⊆ markedFields := by
  have hstrings : d.optionalStrings.map Prod.fst ⊆ markedFields := by
    simp [TemplateDraft.optionalStrings, markedFields]
  have hparts : d.parts.map Prod.fst ⊆ markedFields := by
    simp [TemplateDraft.parts, markedFields]
  intro name hmem
  simp only [TemplateDraft.guardedFields, List.mem_append] at hmem
  rcases hmem with (((hmem | hmem) | hmem) | hmem) | hmem
  · exact (by decide : ["alias", "base_url", "create_path", "result_location"] ⊆ markedFields) hmem
  · split at hmem
    · cases hmem
    · cases List.mem_singleton.mp hmem
      decide
  · split at hmem
    · cases List.mem_singleton.mp hmem
      decide
    · cases hmem
  · exact hstrings (List.map_subset _ (List.filter_subset_self _) hmem)
  · exact hparts (List.map_subset _ (List.filter_subset_self _) hmem)

/-- A leaf is one of the container it is named after. -/
theorem mem_leafNames {c c' l : String} {ls : List String} (hc : c ∈ containers)
    (hc' : c' ∈ containers) : c ++ "." ++ l ∈ leafNames c' ls ↔ c' = c ∧ l ∈ ls := by
  constructor
  · intro h
    obtain ⟨l', hl, he⟩ := List.mem_map.mp h
    have hparts := congrArg pathParts he
    rw [pathParts_leaf (dot_not_mem_names c (List.mem_append_right _ hc)),
      pathParts_leaf (dot_not_mem_names c' (List.mem_append_right _ hc')),
      List.cons.injEq] at hparts
    obtain rfl := hparts.1
    have hlist := congrArg String.toList he
    simp only [String.toList_append, List.append_assoc, List.append_cancel_left_eq] at hlist
    exact ⟨rfl, String.toList_inj.mp hlist ▸ hl⟩
  · rintro ⟨rfl, hl⟩
    exact List.mem_map_of_mem hl

theorem dot_mem_leafNames {container F : String} {leaves : List String}
    (h : F ∈ leafNames container leaves) : '.' ∈ F.toList := by
  obtain ⟨leaf, -, rfl⟩ := List.mem_map.mp h
  simp

section Marks

variable {d : TemplateDraft}

theorem dot_mem_leaves {F : String} (h : F ∈ d.leaves) : '.' ∈ F.toList := by
  simp only [TemplateDraft.leaves, List.mem_append] at h
  rcases h with (((h | h) | h) | h) | h <;> exact dot_mem_leafNames h

/-- A leaf of the result policy is guarded where the author sets it. -/
theorem mem_guarded_resultPolicy (leaf : String) : "result_policy" ++ "." ++ leaf ∈ d.guarded ↔
    leaf ∈ DraftPart.leavesOf d.resultPolicy := by
  have hown : "result_policy" ++ "." ++ leaf ∉ d.guardedFields := fun hmem =>
    absurd (dot_mem_leafNames (List.mem_map_of_mem (List.mem_singleton_self leaf)))
      ((by decide +kernel : ∀ k ∈ markedFields, '.' ∉ k.toList) _ (guardedFields_subset d hmem))
  simp only [TemplateDraft.guarded, TemplateDraft.leaves, List.mem_append, hown, false_or]
  rw [mem_leafNames (by decide) (by decide), mem_leafNames (by decide) (by decide),
    mem_leafNames (by decide) (by decide), mem_leafNames (by decide) (by decide),
    mem_leafNames (by decide) (by decide)]
  simp

theorem mem_guarded {name : String} (h : '.' ∉ name.toList) :
    name ∈ d.guarded ↔ name ∈ d.guardedFields := by
  rw [TemplateDraft.guarded, List.mem_append, or_iff_left fun hmem => h (dot_mem_leaves hmem)]

theorem markUnless_eq_explicit {b : Bool} {otherwise : FieldSource} (h : otherwise ≠ .explicit) :
    TemplateDraft.markUnless b otherwise = .explicit ↔ b = true := by
  cases b
  · exact iff_of_false h Bool.false_ne_true
  · exact iff_of_true rfl rfl

/-- The marks of leaves are those of the leaves the author sets. -/
theorem leafMarks_iff {container : String} {leaves : List String}
    (h : leafNames container leaves ⊆ d.leaves) :
    ∀ a ∈ TemplateDraft.leafMarks container leaves, a.2 = .explicit ↔ a.1 ∈ d.guarded := by
  intro a ha
  obtain ⟨leaf, hl, rfl⟩ := List.mem_map.mp ha
  exact iff_of_true rfl (List.mem_append_right _ (h (List.mem_map_of_mem hl)))

/-- A name of its own is guarded where its mark is explicit. -/
theorem mark_iff {name : String} {source : FieldSource} (hname : name ∈ simpleFields ++ containers)
    (h : source = .explicit ↔ name ∈ d.guardedFields) :
    (name, source).2 = .explicit ↔ (name, source).1 ∈ d.guarded :=
  h.trans (mem_guarded (dot_not_mem_names name hname)).symm

/-- What is assigned as explicit is guarded, and nothing else of what is assigned. -/
theorem assignments_iff (d : TemplateDraft) :
    ∀ a ∈ d.assignments, a.2 = .explicit ↔ a.1 ∈ d.guarded := by
  unfold TemplateDraft.assignments
  rw [List.forall_mem_append, List.forall_mem_append, List.forall_mem_append,
    List.forall_mem_append, List.forall_mem_append, List.forall_mem_append,
    List.forall_mem_append, List.forall_mem_append, List.forall_mem_append]
  refine ⟨⟨⟨⟨⟨⟨⟨⟨⟨?_, ?_⟩, ?_⟩, ?_⟩, ?_⟩, ?_⟩, ?_⟩, ?_⟩, ?_⟩, ?_⟩
  · iterate 7 rw [List.forall_mem_cons]
    refine ⟨?_, ?_, ?_, ?_, ?_, ?_, ?_, fun a ha => absurd ha List.not_mem_nil⟩ <;>
      refine mark_iff (by decide) ?_ <;>
      simp [markUnless_eq_explicit, TemplateDraft.guardedFields, TemplateDraft.optionalStrings,
        TemplateDraft.parts]
  · split
    · exact fun a ha => absurd ha List.not_mem_nil
    · next hmode =>
        rw [List.forall_mem_singleton]
        exact iff_of_false (by decide) (mt (mem_guarded_resultPolicy "mode").mp hmode)
  · iterate 5 rw [List.forall_mem_cons]
    refine ⟨?_, ?_, ?_, ?_, ?_, fun a ha => absurd ha List.not_mem_nil⟩ <;>
      refine mark_iff (by decide) ?_ <;>
      simp [markUnless_eq_explicit, TemplateDraft.guardedFields, TemplateDraft.optionalStrings,
        TemplateDraft.parts]
  · exact leafMarks_iff fun F hF => by simp [TemplateDraft.leaves, hF]
  · exact leafMarks_iff fun F hF => by simp [TemplateDraft.leaves, hF]
  · exact leafMarks_iff fun F hF => by simp [TemplateDraft.leaves, hF]
  · exact leafMarks_iff fun F hF => by simp [TemplateDraft.leaves, hF]
  · rw [List.forall_mem_singleton]
    refine mark_iff (by decide) (iff_of_false (by decide) fun hmem => ?_)
    exact absurd (guardedFields_subset d hmem) (by decide)
  · exact leafMarks_iff fun F hF => by simp [TemplateDraft.leaves, hF]
  · iterate 5 rw [List.forall_mem_cons]
    refine ⟨?_, ?_, ?_, ?_, ?_, fun a ha => absurd ha List.not_mem_nil⟩ <;>
      refine mark_iff (by decide) ?_ <;>
      simp [markUnless_eq_explicit, TemplateDraft.guardedFields, TemplateDraft.optionalStrings,
        TemplateDraft.parts]

theorem leafMarks_fst (container : String) (leaves : List String) :
    (TemplateDraft.leafMarks container leaves).map Prod.fst = leafNames container leaves :=
  List.map_map

/-- What is guarded is assigned. -/
theorem assigned_of_guarded {name : String} (h : name ∈ d.guarded) :
    name ∈ d.assignments.map Prod.fst := by
  simp only [TemplateDraft.assignments, List.map_append, leafMarks_fst, List.mem_append]
  rcases List.mem_append.mp h with h | h
  · have hsplit : ∀ k ∈ markedFields,
        k ∈ ["get_path_template", "cancel_path_template", "id_location", "status_field",
          "terminal", "capabilities", "result_policy"] ∨
        k ∈ ["pool", "status_source", "callback_param", "namespace", "normalize"] ∨
        k ∈ ["base_url", "result_location", "create_path", "alias", "create_method"] := by
      decide
    rcases hsplit name (guardedFields_subset d h) with h | h | h
    · exact .inl (.inl (.inl (.inl (.inl (.inl (.inl (.inl (.inl h))))))))
    · exact .inl (.inl (.inl (.inl (.inl (.inl (.inl (.inr h)))))))
    · exact .inr h
  · simp only [TemplateDraft.leaves, List.mem_append] at h
    tauto

/-- **What the provenance has as explicit** before a patch comes to it. -/
theorem marks_eq_explicit_iff (d : TemplateDraft) (name : String) :
    d.marks name = some .explicit ↔ name ∈ d.guarded := by
  have hassigned : ∀ a ∈ d.assignments.reverse, a.2 = .explicit ↔ a.1 ∈ d.guarded := fun a ha =>
    assignments_iff d a (List.mem_reverse.mp ha)
  have hlast : ∀ source, d.marks name = some source → (name, source) ∈ d.assignments.reverse :=
    fun source h => by
      obtain ⟨l₁, l₂, hsplit, -⟩ := List.lookup_eq_some_iff.mp h
      simp [hsplit]
  constructor
  · exact fun h => (hassigned _ (hlast _ h)).mp rfl
  · intro h
    cases hmark : d.marks name with
    | none =>
        obtain ⟨a, ha, rfl⟩ := List.mem_map.mp (assigned_of_guarded h)
        have hnone := List.lookup_eq_none_iff.mp hmark a (List.mem_reverse.mpr ha)
        simp at hnone
    | some source => exact congrArg some ((hassigned _ (hlast _ hmark)).mpr h)

theorem mem_exposed {F : String} :
    F ∈ d.exposed ↔ F ∈ d.explicitFields ∧ F ∉ d.guarded := by
  simp [TemplateDraft.exposed]

end Marks

/-! ### The expansion of what the author sets -/

section Expansion

open ResolvedTemplate (orString)

variable {E : DraftLibrary} {d : TemplateDraft}

theorem fieldValue_simple {k : String} (h : k ∈ simpleFields) (fs : Json.Fields) :
    fieldValue fs k = fs.lookup k := by
  rw [fieldValue, pathParts_of_not_mem (dot_not_mem_names k (List.mem_append_left _ h)),
    List.map_singleton, Json.follow_obj_key]
  cases fs.lookup k <;> rfl

theorem fieldValue_leaf {container leaf : String} (hc : container ∈ containers)
    (hl : leaf ∈ leafWords) {fs gs : Json.Fields} (h : fs.lookup container = some (.obj gs)) :
    fieldValue fs (container ++ "." ++ leaf) = gs.lookup leaf := by
  rw [fieldValue, pathParts_leaf (dot_not_mem_names container (List.mem_append_right _ hc)),
    pathParts_of_not_mem (dot_not_mem_leafWords leaf hl), List.map_cons, List.map_singleton,
    Json.follow_obj_key, h, Option.bind_some, Json.follow_obj_key]
  cases gs.lookup leaf <;> rfl

theorem nodup_optionalStrings (d : TemplateDraft) : (d.optionalStrings.map Prod.fst).Nodup := by
  simp [TemplateDraft.optionalStrings]

theorem lookup_dump_string (d : TemplateDraft) :
    ∀ f ∈ d.optionalStrings, d.dump.lookup f.1 = some (dumpOption .str f.2.1) := by
  simp only [TemplateDraft.optionalStrings, List.forall_mem_cons]
  exact ⟨rfl, rfl, rfl, rfl, rfl, rfl, rfl, fun f hf => absurd hf List.not_mem_nil⟩

theorem lookup_payload_string (E : DraftLibrary) (d : TemplateDraft) : ∀ f ∈ d.optionalStrings,
    (d.payload E).lookup f.1 = some (.str (orString f.2.1 f.2.2)) := by
  simp only [TemplateDraft.optionalStrings, List.forall_mem_cons]
  exact ⟨rfl, rfl, rfl, rfl, rfl, rfl, rfl, fun f hf => absurd hf List.not_mem_nil⟩

theorem mem_blank {f : String × Option String × String} (hf : f ∈ d.optionalStrings) :
    f.1 ∈ d.blank ↔ f.2.1 = some "" ∧ f.2.2 ≠ "" := by
  constructor
  · intro h
    obtain ⟨g, hg, he⟩ := List.mem_map.mp h
    obtain ⟨hmem, hblank⟩ := List.mem_filter.mp hg
    cases List.inj_on_of_nodup_map (nodup_optionalStrings d) hmem hf he
    exact of_decide_eq_true hblank
  · exact fun h => List.mem_map_of_mem (List.mem_filter.mpr ⟨hf, decide_eq_true h⟩)

/-- The leaves of a part are in the expansion as in the draft. -/
theorem fieldValue_part {container : String} {names : List String} {part : Option (DraftPart names)}
    {F : String} {gs : Json.Fields} (hc : container ∈ containers) (hn : names ⊆ leafWords)
    (hF : F ∈ leafNames container (DraftPart.leavesOf part))
    (hpayload : (d.payload E).lookup container = some (.obj gs))
    (hdump : d.dump.lookup container = some (dumpOption (fun p => .obj p.fields) part))
    (h : ∀ p leaf, part = some p → leaf ∈ p.leaves → gs.lookup leaf = p.fields.lookup leaf) :
    fieldValue (d.payload E) F = fieldValue d.dump F := by
  obtain ⟨leaf, hl, rfl⟩ := List.mem_map.mp hF
  have hword : leaf ∈ leafWords := hn (leavesOf_subset part leaf hl)
  cases part with
  | none => cases hl
  | some p =>
      rw [fieldValue_leaf hc hword hpayload, fieldValue_leaf hc hword hdump, h p leaf rfl hl]

/-- The keys of the strategy that the author sets go over those of the defaults. -/
theorem lookup_strategy {k : String} (h : k ∈ d.overrides.map Prod.fst) :
    ∃ p, d.strategy = some p ∧ k ∈ strategyKeys ∧
      (Json.update E.strategyDefaults d.overrides).lookup k = p.fields.lookup k := by
  obtain ⟨⟨j, v⟩, hf, rfl⟩ := List.mem_map.mp h
  cases hs : d.strategy with
  | none =>
      rw [TemplateDraft.overrides, hs] at hf
      cases hf
  | some p =>
      have hsub : d.overrides.Sublist p.fields := by
        rw [TemplateDraft.overrides, hs]
        exact List.filter_sublist
      have hkeys : (p.fields.map Prod.fst).Nodup := by
        rw [p.keys]
        decide
      have hoverrides : (d.overrides.map Prod.fst).Nodup := hkeys.sublist (hsub.map _)
      refine ⟨p, rfl, p.keys ▸ List.mem_map_of_mem (hsub.subset hf), ?_⟩
      rw [Json.lookup_update_of_nodup hoverrides, Json.lookup_of_mem hoverrides hf,
        Json.lookup_of_mem hkeys (hsub.subset hf), Option.some_or]

/-- The leaves the author sets are in the expansion as they were given. -/
theorem fieldValue_leaves {F : String} (h : F ∈ d.leaves) :
    fieldValue (d.payload E) F = fieldValue d.dump F := by
  simp only [TemplateDraft.leaves, List.mem_append] at h
  rcases h with (((h | h) | h) | h) | h
  · refine fieldValue_part (by decide) (by decide) h rfl rfl fun p leaf hp _ => ?_
    rw [hp]
    rfl
  · refine fieldValue_part (by decide) (by decide) h rfl rfl fun p leaf hp _ => ?_
    rw [hp]
    rfl
  · refine fieldValue_part (by decide) (by decide) h rfl rfl fun p leaf hp hl => ?_
    -- the mode of the settings is taken only where the author sets none
    unfold TemplateDraft.resultPolicyFields
    rw [hp]
    split
    · rfl
    · next hmode =>
        refine Json.lookup_put_ne _ _ ?_
        rintro rfl
        exact hmode hl
  · refine fieldValue_part (by decide) (by decide) h rfl rfl fun p leaf hp _ => ?_
    rw [hp]
    rfl
  · obtain ⟨k, hk, rfl⟩ := List.mem_map.mp h
    obtain ⟨p, hp, hkey, hlookup⟩ := lookup_strategy (E := E) hk
    have hword : k ∈ leafWords := List.mem_append_right _ hkey
    rw [fieldValue_leaf (by decide) hword (rfl : (d.payload E).lookup "strategy" = _), hlookup]
    refine (fieldValue_leaf (by decide) hword ?_).symm
    have hdump : d.dump.lookup "strategy" =
        some (dumpOption (fun part => .obj part.fields) d.strategy) := rfl
    rw [hdump, hp]
    rfl

theorem orString_some (s default : String) :
    orString (some s) default = if s = "" then default else s := by
  unfold orString
  split <;> simp_all

/-- The fields of their own that are no optional strings. -/
def otherFields : List String :=
  ["alias", "base_url", "create_path", "create_method", "get_method", "cancel_method",
    "result_location", "status_source", "extra_headers", "request_body_template", "notes"]

theorem otherFields_not_string (d : TemplateDraft) {F : String}
    (h : F ∈ d.optionalStrings.map Prod.fst) : F ∉ otherFields := by
  have hall : ∀ k ∈ ["get_path_template", "cancel_path_template", "id_location", "status_field",
      "pool", "callback_param", "namespace"], k ∉ otherFields := by decide
  exact hall F h

theorem simpleFields_cases (d : TemplateDraft) {F : String} (h : F ∈ simpleFields) :
    F ∈ d.optionalStrings.map Prod.fst ∨ F ∈ otherFields := by
  have hall : ∀ k ∈ simpleFields, k ∈ ["get_path_template", "cancel_path_template",
      "id_location", "status_field", "pool", "callback_param", "namespace"] ∨ k ∈ otherFields := by
    decide
  exact hall F h

/-- A field that is given is not null. -/
theorem lookup_ne_null {F : String} (h : d.gives F = true) : d.dump.lookup F ≠ some .null :=
  fun hnull => by simp [TemplateDraft.gives, hnull] at h

theorem statusSource_isSome (h : d.gives "status_source" = true) : d.statusSource.isSome := by
  have hdump : d.dump.lookup "status_source" =
      some (dumpOption (fun s => .str s.value) d.statusSource) := rfl
  have hnull := lookup_ne_null h
  rw [hdump] at hnull
  cases hs : d.statusSource with
  | none => exact absurd (by rw [hs]; rfl) hnull
  | some source => rfl

theorem dot_not_mem_strings {F : String} (h : F ∈ d.optionalStrings.map Prod.fst) :
    '.' ∉ F.toList := by
  have hnames : d.optionalStrings.map Prod.fst ⊆ simpleFields := by
    simp [TemplateDraft.optionalStrings, simpleFields]
  exact dot_not_mem_names F (List.mem_append_left _ (hnames h))

/-- The other fields are in the expansion as they were given. -/
theorem lookup_payload_eq {F : String} (hF : F ∈ simpleFields)
    (hstring : F ∉ d.optionalStrings.map Prod.fst) (hgives : d.gives F = true) :
    (d.payload E).lookup F = d.dump.lookup F := by
  have hother := (simpleFields_cases d hF).resolve_left hstring
  unfold otherFields at hother
  simp only [List.mem_cons, List.not_mem_nil, or_false] at hother
  rcases hother with rfl | rfl | rfl | rfl | rfl | rfl | rfl | hsource | rfl | rfl | rfl
  case inr.inr.inr.inr.inr.inr.inr.inl =>
    subst hsource
    obtain ⟨source, hs⟩ := Option.isSome_iff_exists.mp (statusSource_isSome hgives)
    have hdump : d.dump.lookup "status_source" =
        some (dumpOption (fun s => .str s.value) d.statusSource) := rfl
    have hpayload : (d.payload E).lookup "status_source" =
        some (.str (d.statusSource.getD .poll).value) := rfl
    rw [hdump, hpayload, hs]
    rfl
  all_goals rfl

/-- **What the author sets is in the expansion** as it was given, but for the strings that are left
empty. -/
theorem fieldValue_payload_iff (E : DraftLibrary) {F : String} (h : F ∈ d.explicitFields) :
    fieldValue (d.payload E) F = fieldValue d.dump F ↔ F ∉ d.blank := by
  have hblank : d.blank ⊆ d.optionalStrings.map Prod.fst :=
    List.map_subset _ (List.filter_subset_self _)
  rcases List.mem_append.mp h with h | h
  · obtain ⟨hsimple, hgives⟩ := List.mem_filter.mp h
    rw [fieldValue_simple hsimple, fieldValue_simple hsimple]
    by_cases hstring : F ∈ d.optionalStrings.map Prod.fst
    · obtain ⟨⟨name, x, default⟩, hf, rfl⟩ := List.mem_map.mp hstring
      have hdump := lookup_dump_string d _ hf
      rw [lookup_payload_string E d _ hf, hdump, mem_blank hf]
      cases x with
      | none => exact absurd hdump (lookup_ne_null hgives)
      | some s =>
          rw [orString_some]
          by_cases hs : s = "" <;> simp [hs, dumpOption]
    · exact iff_of_true (lookup_payload_eq hsimple hstring hgives) fun hmem =>
        hstring (hblank hmem)
  · refine iff_of_true (fieldValue_leaves h) fun hmem => ?_
    exact dot_not_mem_strings (hblank hmem) (dot_mem_leaves h)

end Expansion

/-! ### What is exposed -/

section Exposed

variable {d : TemplateDraft}

theorem mem_guardedFields_string {f : String × Option String × String}
    (hf : f ∈ d.optionalStrings) : f.1 ∈ d.guardedFields ↔ TemplateDraft.given f.2.1 := by
  simp only [TemplateDraft.optionalStrings, List.mem_cons, List.not_mem_nil, or_false] at hf
  rcases hf with rfl | rfl | rfl | rfl | rfl | rfl | rfl <;>
    simp [TemplateDraft.guardedFields, TemplateDraft.optionalStrings, TemplateDraft.parts]

/-- Of the optional strings that are given, the empty ones are not guarded. -/
theorem not_mem_guardedFields_string {F : String} (h : F ∈ d.optionalStrings.map Prod.fst)
    (hgives : d.gives F = true) :
    F ∉ d.guardedFields ↔ ∃ default, (F, some "", default) ∈ d.optionalStrings := by
  obtain ⟨⟨name, x, default⟩, hf, rfl⟩ := List.mem_map.mp h
  rw [mem_guardedFields_string hf]
  cases x with
  | none => exact absurd (lookup_dump_string d _ hf) (lookup_ne_null hgives)
  | some s =>
      constructor
      · intro hgiven
        have hs : s = "" := by simpa [TemplateDraft.given] using hgiven
        exact ⟨default, hs ▸ hf⟩
      · rintro ⟨default', hf'⟩
        cases List.inj_on_of_nodup_map (nodup_optionalStrings d) hf hf' rfl
        simp [TemplateDraft.given]

/-- Of the other fields, six may not be guarded. -/
theorem not_mem_guardedFields_other {F : String} (h : F ∈ otherFields)
    (hgives : d.gives F = true) : F ∉ d.guardedFields ↔
      F ∈ ["get_method", "cancel_method", "extra_headers", "request_body_template", "notes"] ∨
        (F = "create_method" ∧ d.createMethod = "POST") := by
  simp only [otherFields, List.mem_cons, List.not_mem_nil, or_false] at h
  rcases h with rfl | rfl | rfl | rfl | rfl | rfl | rfl | hsource | rfl | rfl | rfl
  case inr.inr.inr.inr.inr.inr.inr.inl =>
    subst hsource
    simp [TemplateDraft.guardedFields, statusSource_isSome hgives, TemplateDraft.optionalStrings]
  all_goals
    simp [TemplateDraft.guardedFields, TemplateDraft.optionalStrings, TemplateDraft.parts]

/-- **What the author sets and the provenance does not protect**: the two other methods, the
headers, the template of the body and the notes; a method of the create that is given as the default
one; and the optional strings that are left empty. -/
theorem exposed_iff {F : String} : F ∈ d.exposed ↔ F ∈ d.explicitFields ∧
    (F ∈ ["get_method", "cancel_method", "extra_headers", "request_body_template", "notes"] ∨
      (F = "create_method" ∧ d.createMethod = "POST") ∨
      ∃ default, (F, some "", default) ∈ d.optionalStrings) := by
  rw [mem_exposed]
  refine and_congr_right fun h => ?_
  have hplain : ∀ k ∈ ["get_method", "cancel_method", "extra_headers", "request_body_template",
      "notes", "create_method"], k ∈ otherFields ∧ '.' ∉ k.toList := by decide +kernel
  -- what is no optional string is one of the six
  have hsix : (F ∈ ["get_method", "cancel_method", "extra_headers", "request_body_template",
      "notes"] ∨ (F = "create_method" ∧ d.createMethod = "POST")) →
      F ∈ otherFields ∧ '.' ∉ F.toList := by
    rintro (hF | ⟨rfl, -⟩)
    · exact hplain F (List.mem_append_left ["create_method"] hF)
    · exact hplain _ (by decide)
  rw [← or_assoc]
  rcases List.mem_append.mp h with hmem | hleaf
  · obtain ⟨hsimple, hgives⟩ := List.mem_filter.mp hmem
    rw [mem_guarded (dot_not_mem_names F (List.mem_append_left _ hsimple))]
    by_cases hstring : F ∈ d.optionalStrings.map Prod.fst
    · rw [not_mem_guardedFields_string hstring hgives]
      exact (or_iff_right fun hF => otherFields_not_string d hstring (hsix hF).1).symm
    · rw [not_mem_guardedFields_other ((simpleFields_cases d hsimple).resolve_left hstring) hgives]
      exact (or_iff_left fun ⟨default, hf⟩ =>
        hstring (List.mem_map_of_mem (f := Prod.fst) hf)).symm
  · refine iff_of_false (fun hnot => hnot (List.mem_append_right _ hleaf)) ?_
    have hdot := dot_mem_leaves hleaf
    rintro (hF | ⟨default, hf⟩)
    · exact (hsix hF).2 hdot
    · exact dot_not_mem_strings (List.mem_map_of_mem (f := Prod.fst) hf) hdot

end Exposed

end AsyncGateway
