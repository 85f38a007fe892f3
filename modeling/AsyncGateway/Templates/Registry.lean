import AsyncGateway.Templates.Schema
import Mathlib.Data.List.Sort
import Mathlib.Logic.Function.Basic

/-!
# Templates — the registry

The versions of the templates a process has (`Registry`): the files give each alias its version 1
(`reloadFiles`), and the administration registers further versions, revises one in place and
weighs it.  `classifyChange` compares two forms of a template and says how a change of it takes
effect and whether two people must review it.

A registry keeps the versions of an alias under that alias, in increasing order, none of them
zero.  A process keeps version 1 of every alias of its files through whatever it registers later
(`Loaded.has_one`), and one that has only loaded the files has nothing else (`mem_reloadFiles`).
-/

namespace Json

/-- The integer a number is equal to, if any: `True` is `1`, and so is `1.0`.  A float Python writes
with an exponent is taken as none. -/
def integral? : Json → Option ℤ
  | .bool b => some b.toInt
  | .int n => some n
  | .float text =>
      if ".0".toList.isSuffixOf text.toList then
        Text.int? (text.toList.take (text.toList.length - 2))
      else none
  | _ => none

mutual

/-- `a == b` of two dumps, the order of whose fields does not matter. -/
def same : Json → Json → Bool
  | .null, .null => true
  | .bool a, .bool b => a == b
  | .int a, .int b => a == b
  | .float a, .float b => a == b
  | .str a, .str b => a == b
  | .arr xs, .arr ys => sameItems xs ys
  | .obj fs, .obj gs => fs.length == gs.length && sameFields fs gs
  | a, b => (integral? a).isSome && integral? a == integral? b

def sameItems : List Json → List Json → Bool
  | [], [] => true
  | x :: xs, y :: ys => same x y && sameItems xs ys
  | _, _ => false

def sameFields : List (String × Json) → List (String × Json) → Bool
  | [], _ => true
  | (key, value) :: rest, gs =>
      (gs.lookup key).any (same value) && sameFields rest gs

end

example : same (.obj [("n", .int 1), ("s", .str "x")])
    (.obj [("s", .str "x"), ("n", .float "1.0")]) =
    true := by decide

mutual

/-- A document is equal to itself. -/
theorem same_refl : ∀ doc : Json, Distinct doc → same doc doc = true
  | .null, _ => rfl
  | .bool _, _ | .int _, _ | .float _, _ | .str _, _ => by simp [same]
  | .arr items, h => sameItems_refl items h
  | .obj fields, h => by
      have hlookup : ∀ f ∈ fields, fields.lookup f.1 = some f.2 := fun f hf =>
        lookup_of_mem h.1 hf
      simp [same, sameFields_refl fields fields h.2 hlookup]

theorem sameItems_refl : ∀ items : List Json, DistinctItems items → sameItems items items = true
  | [], _ => rfl
  | x :: xs, h => by rw [sameItems, same_refl x h.1, sameItems_refl xs h.2, Bool.and_self]

theorem sameFields_refl : ∀ fields gs : List (String × Json), DistinctFields fields →
    (∀ f ∈ fields, gs.lookup f.1 = some f.2) → sameFields fields gs = true
  | [], _, _, _ => rfl
  | (key, value) :: rest, gs, h, hgs => by
      rw [sameFields, hgs (key, value) List.mem_cons_self, Option.any_some, same_refl value h.1,
        sameFields_refl rest gs h.2 fun f hf => hgs f (List.mem_cons_of_mem _ hf), Bool.and_self]

end

end Json

namespace AsyncGateway

/-- The reading of a draft, which is pydantic's in the main. -/
structure TemplateLibrary where
  /-- `resolve(TemplateDraft.model_validate(raw))`, none where the draft is refused. -/
  resolve : Json.Fields → Option ResolvedTemplate

/-- `validate`: the template of a report that is ok. -/
def TemplateLibrary.validate (L : TemplateLibrary) (raw : Json.Fields) :
    Option ResolvedTemplate :=
  (L.resolve raw).filter fun t => decide (t.issues = [])

theorem TemplateLibrary.resolve_of_validate {L : TemplateLibrary} {raw : Json.Fields}
    {t : ResolvedTemplate} (h : L.validate raw = some t) : L.resolve raw = some t :=
  (Option.filter_eq_some_iff.mp h).1

/-! ### The dump of a template -/

def ConfirmStrategy.value : ConfirmStrategy → String
  | .queryByClientKey => "query_by_client_key"
  | .listAndMatch => "list_and_match"
  | .manualOnly => "manual_only"

def StatusSource.value : StatusSource → String
  | .poll => "poll"
  | .callback => "callback"

def ResultMode.value : ResultMode → String
  | .store => "store"
  | .passthrough => "passthrough"
  | .redirect => "redirect"

/-- A value that may be `None`. -/
def dumpOption {α : Type} (f : α → Json) (x : Option α) : Json := (x.map f).getD .null

def dumpStrings (xs : List String) : Json := .arr (xs.map .str)

/-- A number of a strategy group; an `int` and a `float` of one value are equal. -/
def dumpNumber (q : ℚ) : Json := .float (toString q)

def Capabilities.dump (c : Capabilities) : Json.Fields :=
  [("upstream_idempotent", .bool c.upstreamIdempotent),
    ("confirm_strategy", .str c.confirmStrategy.value), ("cancel", .bool c.cancel),
    ("callback", .bool c.callback), ("list_tasks", .bool c.listTasks),
    ("max_payload_bytes", .int c.maxPayloadBytes),
    ("permanent_result_url", .bool c.permanentResultUrl),
    ("rate_limit_side_effect_free", .bool c.rateLimitSideEffectFree),
    ("per_key_isolation", .bool c.perKeyIsolation)]

def TerminalMapping.dump (m : TerminalMapping) : Json.Fields :=
  [("success", dumpStrings m.success), ("failure", dumpStrings m.failure),
    ("expired", dumpStrings m.expired),
    ("internal_terminal_rewrite", dumpOption .str m.internalTerminalRewrite),
    ("internal_terminal_error_code", dumpOption .str m.internalTerminalErrorCode),
    ("error_field", dumpOption .str m.errorField)]

def ResultPolicy.dump (p : ResultPolicy) : Json.Fields :=
  [("mode", .str p.mode.value), ("presign_ttl_seconds", dumpOption .int p.presignTtlSeconds),
    ("retention_days", dumpOption .int p.retentionDays),
    ("unavailable_gone", .bool p.unavailableGone)]

/-- The strategy group is a dictionary, which has no field for a key that is absent. -/
def Strategy.dump (s : Strategy) : Json.Fields :=
  [("idempotency_window_seconds", s.idempotencyWindowSeconds.map fun n => (n : ℚ)),
    ("max_attempts", s.maxAttempts.map fun n => (n : ℚ)),
    ("deadline_seconds", s.deadlineSeconds), ("min_refresh_interval", s.minRefreshInterval),
    ("retention_days", s.retentionDays.map fun n => (n : ℚ)),
    ("presign_ttl_seconds", s.presignTtlSeconds.map fun n => (n : ℚ)),
    ("unknown_max_per_channel", s.unknownMaxPerChannel.map fun n => (n : ℚ)),
    ("unknown_max_lifetime_seconds", s.unknownMaxLifetimeSeconds.map fun n => (n : ℚ)),
    ("submit_confirm_window_seconds", s.submitConfirmWindowSeconds.map fun n => (n : ℚ))
    ].filterMap fun (key, q) => q.map fun q => (key, dumpNumber q)

/-- `model_dump(mode="json", exclude={"provenance"})`. -/
def ResolvedTemplate.dump (t : ResolvedTemplate) : Json.Fields :=
  [("alias", .str t.aliasName), ("namespace", .str t.namespaceName), ("base_url", .str t.baseUrl),
    ("create_path", .str t.createPath), ("create_method", .str t.createMethod),
    ("get_path_template", .str t.getPathTemplate), ("get_method", .str t.getMethod),
    ("cancel_path_template", .str t.cancelPathTemplate), ("cancel_method", .str t.cancelMethod),
    ("id_location", .str t.idLocation), ("status_field", .str t.statusField),
    ("result_location", .str t.resultLocation), ("terminal", .obj t.terminal.dump),
    ("capabilities", .obj t.capabilities.dump), ("result_policy", .obj t.resultPolicy.dump),
    ("pool", .str t.pool), ("status_source", .str t.statusSource.value),
    ("callback_param", .str t.callbackParam),
    ("normalize", .obj [("fields", dumpStrings t.normalizeFields),
      ("case_insensitive_fields", dumpStrings t.normalizeCaseInsensitive),
      ("trim_strings", .bool t.normalizeTrimStrings)]),
    ("strategy", .obj t.strategy.dump),
    ("extra_headers", .obj (t.extraHeaders.map fun h => (h.1, .str h.2))),
    ("request_body_template", dumpOption .obj t.requestBodyTemplate),
    ("notes", dumpOption .str t.notes)]

/-! ### What a change of a template asks for -/

def ephemeralFields : List String :=
  ["status_field", "terminal", "terminal.success", "terminal.failure", "terminal.expired",
    "terminal.internal_terminal_rewrite", "terminal.internal_terminal_error_code",
    "terminal.error_field", "id_location", "result_location", "notes"]

def forcedReviewFields : List String :=
  ["base_url", "create_path", "create_method", "get_method", "cancel_method", "get_path_template",
    "cancel_path_template", "callback_param", "extra_headers", "request_body_template",
    "id_location", "result_location", "status_field", "status_source", "pool", "terminal",
    "normalize", "namespace"]

def forcedReviewPrefixes : List String := ["capabilities", "result_policy", "strategy"]

inductive ApplyMode : Type where
  | inPlace
  | versioned
  deriving DecidableEq

structure ChangePlan where
  changedFields : List String
  applyMode : ApplyMode
  requiresDualReview : Bool
  forcedReviewFields : List String
  isNoop : Bool := false

/-- The plan of an alias no version is known of. -/
def ChangePlan.newAlias : ChangePlan where
  changedFields := ["<new-alias>"]
  applyMode := .versioned
  requiresDualReview := true
  forcedReviewFields := ["<new-alias>"]

/-- `s.startswith(start)`. -/
def startsWith (s start : String) : Bool := start.toList.isPrefixOf s.toList

mutual

/-- `_flatten`: every field under its dotted path, the containers among them. -/
def flatten (before : String) : List (String × Json) → Json.Fields → Json.Fields
  | [], out => out
  | (key, value) :: rest, out =>
      flatten before rest
        (flattenValue (before ++ key ++ ".") value (Json.put out (before ++ key) value))

def flattenValue (before : String) : Json → Json.Fields → Json.Fields
  | .obj fields, out => Json.update out (flatten before fields [])
  | _, out => out

end

/-- The paths two dumps differ at, less the containers of other such paths. -/
def changedFields (old new : Json.Fields) : List String :=
  let a := flatten "" old []
  let b := flatten "" new []
  let keys := ((a ++ b).map (·.1)).dedup
  let changed := keys.filter fun k =>
    !Json.same ((a.lookup k).getD .null) ((b.lookup k).getD .null)
  let changed := changed.insertionSort (· ≤ ·)
  changed.filter fun k => !changed.any fun other => startsWith other (k ++ ".")

/-- `classify_change`. -/
def classifyChange (old new : ResolvedTemplate) : ChangePlan :=
  let changed := changedFields old.dump new.dump
  let forced := changed.filter fun f =>
    decide (f ∈ forcedReviewFields) || forcedReviewPrefixes.any (startsWith f)
  if changed = [] then
    { changedFields := [], applyMode := .inPlace, requiresDualReview := false,
      forcedReviewFields := [], isNoop := true }
  else
    { changedFields := changed
      applyMode := if changed.all fun f => decide (f ∈ ephemeralFields) then .inPlace
        else .versioned
      requiresDualReview := !forced.isEmpty
      forcedReviewFields := forced }

/-! ### The versions of an alias -/

structure TemplateVersion where
  aliasName : String
  version : ℕ
  enabled : Bool := true
  resolved : ResolvedTemplate
  canaryWeight : ℚ := 1

/-- The versions of an alias with this one in the place of the one of its number. -/
def TemplateVersion.among (tv : TemplateVersion) (l : List TemplateVersion) :
    List TemplateVersion :=
  (l.filter (fun v => decide (v.version ≠ tv.version)) ++ [tv]).insertionSort
    fun v w => v.version ≤ w.version

namespace TemplateVersion

variable {tv v : TemplateVersion} {l : List TemplateVersion}

theorem mem_among : v ∈ tv.among l ↔ v = tv ∨ v ∈ l ∧ v.version ≠ tv.version := by
  simp only [among, List.mem_insertionSort, List.mem_append, List.mem_filter, decide_eq_true_eq,
    List.mem_singleton]
  exact or_comm

theorem ordered_among (h : (l.map (·.version)).Pairwise (· < ·)) :
    ((tv.among l).map (·.version)).Pairwise (· < ·) := by
  have hne : (tv.among l).Pairwise fun v w => v.version ≠ w.version := by
    refine (List.perm_insertionSort _ _).symm.pairwise ?_ fun h => h.symm
    refine List.pairwise_append.mpr ⟨?_, List.pairwise_singleton _ _, ?_⟩
    · exact ((List.pairwise_map.mp h).imp fun h => h.ne).filter _
    · intro v hv w hw
      rw [List.mem_singleton.mp hw]
      simpa using (List.mem_filter.mp hv).2
  have hle : (tv.among l).Pairwise fun v w => v.version ≤ w.version :=
    List.pairwise_insertionSort _ _
  exact List.pairwise_map.mpr ((hle.and hne).imp fun h => lt_of_le_of_ne h.1 h.2)

end TemplateVersion

/-- `TemplateRegistry._versions`. -/
structure Registry where
  versions : String → List TemplateVersion
  named : ∀ a, ∀ tv ∈ versions a, tv.aliasName = a ∧ tv.resolved.aliasName = a
  ordered : ∀ a, ((versions a).map (·.version)).Pairwise (· < ·)
  positive : ∀ a, ∀ tv ∈ versions a, 0 < tv.version

namespace Registry

variable (L : TemplateLibrary) (R : Registry)

def empty : Registry where
  versions := fun _ => []
  named := fun _ _ h => absurd h List.not_mem_nil
  ordered := fun _ => List.Pairwise.nil
  positive := fun _ _ h => absurd h List.not_mem_nil

/-! #### Looking up -/

/-- `get`: the version asked for, or the last one that is enabled and has a weight. -/
def get (a : String) : Option ℕ → Option TemplateVersion
  | none =>
      ((R.versions a).reverse.find? fun tv => tv.enabled && decide (0 < tv.canaryWeight)).or
        (R.versions a).getLast?
  | some version => (R.versions a).find? fun tv => tv.version == version

def require (a : String) (version : Option ℕ) : Except Exn TemplateVersion :=
  match R.get a version with
  | some tv => .ok tv
  | none => .error (.keyError a)

/-- What the handlers look up in the registry. -/
def lookup (a : String) (version : ℕ) : Option ResolvedTemplate :=
  (R.get a (some version)).map (·.resolved)

variable {R}

theorem get_ne_none {a : String} {version : ℕ} :
    R.get a (some version) ≠ none ↔ ∃ tv ∈ R.versions a, tv.version = version := by
  simp [get, List.find?_eq_none]

theorem mem_of_get {a : String} {version : Option ℕ} {tv : TemplateVersion}
    (h : R.get a version = some tv) : tv ∈ R.versions a := by
  cases version with
  | some version => exact List.mem_of_find?_eq_some h
  | none =>
      rcases Option.or_eq_some_iff.mp h with h | ⟨-, h⟩
      · exact List.mem_reverse.mp (List.mem_of_find?_eq_some h)
      · exact List.mem_of_getLast? h

/-- No registry has a version 0. -/
theorem get_zero (R : Registry) (a : String) : R.get a (some 0) = none := by
  by_contra h
  obtain ⟨tv, hmem, h0⟩ := get_ne_none.mp h
  exact (R.positive a tv hmem).ne' h0

variable (R)

/-! #### Registering -/

/-- `version or (max(...) + 1)`. -/
def nextVersion (a : String) (version : Option ℕ) : ℕ :=
  (version.filter (· ≠ 0)).getD ((R.versions a).foldr (fun tv n => max tv.version n) 0 + 1)

theorem nextVersion_pos (a : String) (version : Option ℕ) : 0 < R.nextVersion a version := by
  unfold nextVersion
  cases h : version.filter (· ≠ 0) with
  | none => exact Nat.succ_pos _
  | some n => exact Nat.pos_of_ne_zero (by simpa using (Option.filter_eq_some_iff.mp h).2)

/-- The version a template is registered as. -/
def newVersion (t : ResolvedTemplate) (version : Option ℕ) (enabled : Bool) : TemplateVersion where
  aliasName := t.aliasName
  version := R.nextVersion t.aliasName version
  enabled := enabled
  resolved := t

/-- The registry with that version in it. -/
def insert (t : ResolvedTemplate) (version : Option ℕ) (enabled : Bool) : Registry where
  versions := Function.update R.versions t.aliasName
    ((R.newVersion t version enabled).among (R.versions t.aliasName))
  named := by
    intro a tv h
    by_cases ha : a = t.aliasName
    · subst ha
      rw [Function.update_self] at h
      rcases TemplateVersion.mem_among.mp h with rfl | ⟨h, -⟩
      · exact ⟨rfl, rfl⟩
      · exact R.named _ tv h
    · rw [Function.update_of_ne ha] at h
      exact R.named a tv h
  ordered := by
    intro a
    by_cases ha : a = t.aliasName
    · subst ha
      rw [Function.update_self]
      exact TemplateVersion.ordered_among (R.ordered _)
    · rw [Function.update_of_ne ha]
      exact R.ordered a
  positive := by
    intro a tv h
    by_cases ha : a = t.aliasName
    · subst ha
      rw [Function.update_self] at h
      rcases TemplateVersion.mem_among.mp h with rfl | ⟨h, -⟩
      · exact R.nextVersion_pos _ _
      · exact R.positive _ tv h
    · rw [Function.update_of_ne ha] at h
      exact R.positive a tv h

/-- `register`: no version where the draft is validated first and fails; none at all where its
reading raises. -/
def register (raw : Json.Fields) (version : Option ℕ) (enabled validateFirst : Bool) :
    Option (Option TemplateVersion × Registry) :=
  if validateFirst && (L.validate raw).isNone then some (none, R)
  else (L.resolve raw).map fun t => (some (R.newVersion t version enabled),
    R.insert t version enabled)

/-- `reload_files` of a process that starts, the files in their order; none where one of them
cannot be read. -/
def reloadFiles (files : List Json.Fields) : Option Registry :=
  files.foldlM (fun R raw => (R.register L raw (some 1) true false).map Prod.snd) empty

/-! #### Changing -/

/-- `plan_change`; none where the draft is refused. -/
def planChange (raw : Json.Fields) : Option ChangePlan :=
  (L.resolve raw).map fun new =>
    match R.get new.aliasName none with
    | none => .newAlias
    | some old => classifyChange old.resolved new

/-- The registry with `f` applied to one version of an alias. -/
def revise (a : String) (version : ℕ) (f : TemplateVersion → TemplateVersion)
    (hf : ∀ tv, tv.aliasName = a ∧ tv.resolved.aliasName = a →
      ((f tv).aliasName = a ∧ (f tv).resolved.aliasName = a) ∧ (f tv).version = tv.version) :
    Registry where
  versions := Function.update R.versions a
    ((R.versions a).map fun tv => if tv.version = version then f tv else tv)
  named := by
    intro b tv h
    by_cases hb : b = a
    · subst hb
      rw [Function.update_self] at h
      obtain ⟨tv', h', rfl⟩ := List.mem_map.mp h
      have hn := R.named b tv' h'
      split
      · exact (hf tv' hn).1
      · exact hn
    · rw [Function.update_of_ne hb] at h
      exact R.named b tv h
  ordered := by
    intro b
    by_cases hb : b = a
    · subst hb
      rw [Function.update_self, List.map_map]
      refine (List.map_congr_left fun tv h => ?_).symm ▸ R.ordered b
      simp only [Function.comp_apply]
      split
      · exact (hf tv (R.named b tv h)).2
      · rfl
    · rw [Function.update_of_ne hb]
      exact R.ordered b
  positive := by
    intro b tv h
    by_cases hb : b = a
    · subst hb
      rw [Function.update_self] at h
      obtain ⟨tv', h', rfl⟩ := List.mem_map.mp h
      have hp := R.positive b tv' h'
      split
      · rw [(hf tv' (R.named b tv' h')).2]
        exact hp
      · exact hp
    · rw [Function.update_of_ne hb] at h
      exact R.positive b tv h

/-- `patch_in_place`: the version in use gets the template; no version where the draft fails its
validation, a `ValueError` where it changes more than may be revised. -/
def patchInPlace (raw : Json.Fields) : Except Exn (Option TemplateVersion × Registry) :=
  match R.planChange L raw, L.validate raw with
  | none, _ => .error (.infrastructure "ValidationError")
  | some _, none => .ok (none, R)
  | some plan, some t =>
      if plan.applyMode = .inPlace then
        match R.get t.aliasName none with
        | some current =>
            .ok (some { current with resolved := t },
              R.revise t.aliasName current.version (fun tv => { tv with resolved := t })
                fun _ h => ⟨⟨h.1, rfl⟩, rfl⟩)
        | none => .error (.infrastructure "AssertionError")
      else .error (.infrastructure "ValueError")

def setCanaryWeight (a : String) (version : ℕ) (weight : ℚ) : Except Exn Registry :=
  (R.require a (some version)).map fun tv =>
    R.revise a tv.version (fun tv => { tv with canaryWeight := max 0 (min 1 weight) })
      fun _ h => ⟨h, rfl⟩

/-- The registries of the processes that loaded the files, whatever was registered, revised or
weighed in them since. -/
inductive Loaded (files : List Json.Fields) : Registry → Prop
  | load {R : Registry} (h : reloadFiles L files = some R) : Loaded files R
  | register {R R' : Registry} {raw : Json.Fields} {tv : Option TemplateVersion}
      (hR : Loaded files R) (h : R.register L raw none true true = some (tv, R')) :
      Loaded files R'
  | patch {R R' : Registry} {raw : Json.Fields} {tv : Option TemplateVersion}
      (hR : Loaded files R) (h : R.patchInPlace L raw = .ok (tv, R')) : Loaded files R'
  | weigh {R R' : Registry} {a : String} {version : ℕ} {weight : ℚ}
      (hR : Loaded files R) (h : R.setCanaryWeight a version weight = .ok R') : Loaded files R'

/-- The aliases of the files. -/
def fileAliases (files : List Json.Fields) : List String :=
  files.filterMap fun raw => (L.resolve raw).map (·.aliasName)

variable {L R}

theorem insert_self (t : ResolvedTemplate) (version : Option ℕ) (enabled : Bool) :
    (R.insert t version enabled).versions t.aliasName =
      (R.newVersion t version enabled).among (R.versions t.aliasName) :=
  Function.update_self _ _ _

theorem insert_of_ne {t : ResolvedTemplate} {a : String} (ha : a ≠ t.aliasName)
    (version : Option ℕ) (enabled : Bool) :
    (R.insert t version enabled).versions a = R.versions a :=
  Function.update_of_ne ha _ _

/-- What `register` comes to: nothing, or an insert. -/
theorem register_eq_some {raw : Json.Fields} {version : Option ℕ} {enabled validateFirst : Bool}
    {tv : Option TemplateVersion} {R' : Registry}
    (h : R.register L raw version enabled validateFirst = some (tv, R')) :
    (tv = none ∧ R' = R) ∨ ∃ t, L.resolve raw = some t ∧
      tv = some (R.newVersion t version enabled) ∧ R' = R.insert t version enabled := by
  unfold register at h
  split at h
  · cases h
    exact .inl ⟨rfl, rfl⟩
  · obtain ⟨t, ht, heq⟩ := Option.map_eq_some_iff.mp h
    cases heq
    exact .inr ⟨t, ht, rfl, rfl⟩

/-- What `patch_in_place` comes to: nothing, or a revision of the version in use by a draft that
changes no more than may be revised. -/
theorem patchInPlace_eq_ok {raw : Json.Fields} {tv : Option TemplateVersion} {R' : Registry}
    (h : R.patchInPlace L raw = .ok (tv, R')) :
    (tv = none ∧ R' = R) ∨ ∃ plan t current, R.planChange L raw = some plan ∧
      L.validate raw = some t ∧ plan.applyMode = .inPlace ∧ R.get t.aliasName none = some current ∧
      tv = some { current with resolved := t } ∧
      R' = R.revise t.aliasName current.version (fun tv => { tv with resolved := t })
        fun _ h => ⟨⟨h.1, rfl⟩, rfl⟩ := by
  unfold patchInPlace at h
  split at h
  · cases h
  · cases h
    exact .inl ⟨rfl, rfl⟩
  · rename_i plan t hplan hvalid
    split_ifs at h with hmode
    split at h
    · rename_i current hcurrent
      cases h
      exact .inr ⟨plan, t, current, hplan, hvalid, hmode, hcurrent, rfl, rfl⟩
    · cases h

/-- What `set_canary_weight` comes to: a revision of the version that was asked for. -/
theorem setCanaryWeight_eq_ok {a : String} {version : ℕ} {weight : ℚ} {R' : Registry}
    (h : R.setCanaryWeight a version weight = .ok R') : ∃ n,
      R' = R.revise a n (fun tv => { tv with canaryWeight := max 0 (min 1 weight) })
        fun _ h => ⟨h, rfl⟩ := by
  unfold setCanaryWeight at h
  cases hr : R.require a (some version) with
  | error x =>
      rw [hr] at h
      cases h
  | ok tv =>
      rw [hr] at h
      exact ⟨tv.version, (Except.ok.inj h).symm⟩

/-- A registry with at least the versions of another. -/
def Extends (R R' : Registry) : Prop :=
  ∀ a, ∀ tv ∈ R.versions a, ∃ tv' ∈ R'.versions a, tv'.version = tv.version

theorem extends_insert (R : Registry) (t : ResolvedTemplate) (version : Option ℕ)
    (enabled : Bool) : R.Extends (R.insert t version enabled) := by
  intro a tv h
  by_cases ha : a = t.aliasName
  · subst ha
    by_cases hv : tv.version = (R.newVersion t version enabled).version
    · refine ⟨R.newVersion t version enabled, ?_, hv.symm⟩
      rw [insert_self]
      exact TemplateVersion.mem_among.mpr (.inl rfl)
    · refine ⟨tv, ?_, rfl⟩
      rw [insert_self]
      exact TemplateVersion.mem_among.mpr (.inr ⟨h, hv⟩)
  · exact ⟨tv, by rwa [insert_of_ne ha], rfl⟩

theorem extends_register {raw : Json.Fields} {version : Option ℕ} {enabled validateFirst : Bool}
    {tv : Option TemplateVersion} {R' : Registry}
    (h : R.register L raw version enabled validateFirst = some (tv, R')) : R.Extends R' := by
  rcases register_eq_some h with ⟨-, rfl⟩ | ⟨t, -, -, rfl⟩
  · exact fun _ tv h => ⟨tv, h, rfl⟩
  · exact R.extends_insert t version enabled

theorem extends_revise {a : String} {version : ℕ} {f : TemplateVersion → TemplateVersion}
    (hf : ∀ tv, tv.aliasName = a ∧ tv.resolved.aliasName = a →
      ((f tv).aliasName = a ∧ (f tv).resolved.aliasName = a) ∧ (f tv).version = tv.version) :
    R.Extends (R.revise a version f hf) := by
  intro b tv h
  by_cases hb : b = a
  · subst hb
    refine ⟨if tv.version = version then f tv else tv, ?_, ?_⟩
    · simpa only [revise, Function.update_self] using
        List.mem_map_of_mem (f := fun tv => if tv.version = version then f tv else tv) h
    · split
      · exact (hf tv (R.named b tv h)).2
      · rfl
  · exact ⟨tv, by simpa only [revise, Function.update_of_ne hb] using h, rfl⟩

theorem extends_patchInPlace {raw : Json.Fields} {tv : Option TemplateVersion} {R' : Registry}
    (h : R.patchInPlace L raw = .ok (tv, R')) : R.Extends R' := by
  rcases patchInPlace_eq_ok h with ⟨-, rfl⟩ | ⟨_, _, _, -, -, -, -, -, rfl⟩
  · exact fun _ tv h => ⟨tv, h, rfl⟩
  · exact extends_revise _

theorem extends_setCanaryWeight {a : String} {version : ℕ} {weight : ℚ} {R' : Registry}
    (h : R.setCanaryWeight a version weight = .ok R') : R.Extends R' := by
  obtain ⟨n, rfl⟩ := setCanaryWeight_eq_ok h
  exact extends_revise _

/-- What an insert under a number adds. -/
theorem mem_insert_one {t : ResolvedTemplate} {enabled : Bool} {a : String} {n : ℕ} :
    (∃ tv ∈ (R.insert t (some 1) enabled).versions a, tv.version = n) ↔
      (n = 1 ∧ a = t.aliasName) ∨ ∃ tv ∈ R.versions a, tv.version = n := by
  have hnew : (R.newVersion t (some 1) enabled).version = 1 := rfl
  by_cases ha : a = t.aliasName
  · subst ha
    simp only [insert_self, TemplateVersion.mem_among, hnew]
    constructor
    · rintro ⟨tv, rfl | ⟨hmem, -⟩, rfl⟩
      · exact .inl ⟨hnew, trivial⟩
      · exact .inr ⟨tv, hmem, rfl⟩
    · rintro (⟨rfl, -⟩ | ⟨tv, hmem, rfl⟩)
      · exact ⟨_, .inl rfl, hnew⟩
      · by_cases h1 : tv.version = 1
        · exact ⟨_, .inl rfl, hnew.trans h1.symm⟩
        · exact ⟨tv, .inr ⟨hmem, h1⟩, rfl⟩
  · simp only [insert_of_ne ha, ha, and_false, false_or]

/-- **A process that only loaded the files has version 1 of their aliases, and nothing else.** -/
theorem mem_reloadFiles {files : List Json.Fields} (h : reloadFiles L files = some R) (a : String)
    (n : ℕ) : (∃ tv ∈ R.versions a, tv.version = n) ↔ n = 1 ∧ a ∈ fileAliases L files := by
  suffices hfold : ∀ (files : List Json.Fields) (R₀ R : Registry),
      files.foldlM (fun R raw => (R.register L raw (some 1) true false).map Prod.snd) R₀ =
        some R → ((∃ tv ∈ R.versions a, tv.version = n) ↔
          (n = 1 ∧ a ∈ fileAliases L files) ∨ ∃ tv ∈ R₀.versions a, tv.version = n) by
    refine (hfold files empty R h).trans (or_iff_left ?_)
    rintro ⟨tv, hmem, -⟩
    exact List.not_mem_nil hmem
  intro files
  induction files with
  | nil =>
      intro R₀ R h
      cases h
      simp [fileAliases]
  | cons raw rest ih =>
      intro R₀ R h
      obtain ⟨R₁, h₁, h⟩ := Option.bind_eq_some_iff.mp h
      obtain ⟨⟨tv, R₁⟩, hreg, rfl⟩ := Option.map_eq_some_iff.mp h₁
      simp only [register, Bool.false_and, Bool.false_eq_true, if_false] at hreg
      obtain ⟨t, ht, heq⟩ := Option.map_eq_some_iff.mp hreg
      cases heq
      have hrest := ih _ R h
      have hone : (∃ tv ∈ (R₀.insert t (some 1) true).versions a, tv.version = n) ↔ _ :=
        mem_insert_one
      rw [hrest, hone]
      simp only [fileAliases, List.filterMap_cons, ht, Option.map_some, List.mem_cons]
      rw [and_or_left, or_assoc, or_left_comm]

theorem Loaded.exists_load {files : List Json.Fields} (h : Loaded L files R) :
    ∃ R₀, reloadFiles L files = some R₀ := by
  induction h with
  | load h => exact ⟨_, h⟩
  | register _ _ ih => exact ih
  | patch _ _ ih => exact ih
  | weigh _ _ ih => exact ih

/-- **A process keeps version 1 of every alias of its files.** -/
theorem Loaded.has_one {files : List Json.Fields} (h : Loaded L files R) {a : String}
    (ha : a ∈ fileAliases L files) : R.get a (some 1) ≠ none := by
  rw [get_ne_none]
  induction h with
  | load h => exact (mem_reloadFiles h a 1).mpr ⟨rfl, ha⟩
  | register _ h ih =>
      obtain ⟨tv, hmem, h1⟩ := ih
      obtain ⟨tv', hmem', h'⟩ := extends_register h a tv hmem
      exact ⟨tv', hmem', h'.trans h1⟩
  | patch _ h ih =>
      obtain ⟨tv, hmem, h1⟩ := ih
      obtain ⟨tv', hmem', h'⟩ := extends_patchInPlace h a tv hmem
      exact ⟨tv', hmem', h'.trans h1⟩
  | weigh _ h ih =>
      obtain ⟨tv, hmem, h1⟩ := ih
      obtain ⟨tv', hmem', h'⟩ := extends_setCanaryWeight h a tv hmem
      exact ⟨tv', hmem', h'.trans h1⟩

end Registry

end AsyncGateway
