import AsyncGateway.Lib.Url
import AsyncGateway.Templates.Registry

/-!
# Templates — from a draft to a template

A draft is expanded by convention (`TemplateDraft.payload`), with a table of where each field comes
from (`TemplateDraft.marks`), and the platform's patches that match it are written over what the
author did not mark as explicit (`applyPlatformPatches`).  What pydantic makes of the outcome is the
resolved template (`resolve`).
-/

namespace AsyncGateway

inductive FieldSource : Type where
  | explicit
  | derived
  | default
  | patched
  deriving DecidableEq

def FieldSource.value : FieldSource → String
  | .explicit => "explicit"
  | .derived => "derived"
  | .default => "default"
  | .patched => "patched"

/-! ### The draft -/

def terminalLeaves : List String :=
  ["success", "failure", "expired", "internal_terminal_rewrite", "internal_terminal_error_code",
    "error_field"]

def capabilityLeaves : List String :=
  ["upstream_idempotent", "confirm_strategy", "cancel", "callback", "list_tasks",
    "max_payload_bytes", "permanent_result_url", "rate_limit_side_effect_free",
    "per_key_isolation"]

def resultPolicyLeaves : List String :=
  ["mode", "presign_ttl_seconds", "retention_days", "unavailable_gone"]

def normalizeLeaves : List String := ["fields", "case_insensitive_fields", "trim_strings"]

def strategyKeys : List String :=
  ["idempotency_window_seconds", "max_attempts", "deadline_seconds", "min_refresh_interval",
    "retention_days", "presign_ttl_seconds", "unknown_max_per_channel",
    "unknown_max_lifetime_seconds", "submit_confirm_window_seconds"]

/-- A part of a draft that is a model of its own: its dump, in which what the author leaves out has
its default, and the leaves the author gives (`model_fields_set`). -/
structure DraftPart (names : List String) where
  fields : Json.Fields
  leaves : List String
  keys : fields.map Prod.fst = names
  named : ∀ l ∈ leaves, l ∈ names

/-- The dump of the part, or that of the model with its defaults. -/
def DraftPart.orElse {names : List String} (part : Option (DraftPart names))
    (default : Json.Fields) : Json.Fields :=
  match part with
  | some part => part.fields
  | none => default

def DraftPart.leavesOf {names : List String} (part : Option (DraftPart names)) : List String :=
  match part with
  | some part => part.leaves
  | none => []

structure TemplateDraft where
  aliasName : String
  baseUrl : String
  createPath : String
  resultLocation : String
  idLocation : Option String := none
  getPathTemplate : Option String := none
  cancelPathTemplate : Option String := none
  statusField : Option String := none
  terminal : Option (DraftPart terminalLeaves) := none
  capabilities : Option (DraftPart capabilityLeaves) := none
  resultPolicy : Option (DraftPart resultPolicyLeaves) := none
  pool : Option String := none
  statusSource : Option StatusSource := none
  callbackParam : Option String := none
  namespaceName : Option String := none
  createMethod : String := "POST"
  getMethod : String := "GET"
  cancelMethod : String := "DELETE"
  extraHeaders : List (String × String) := []
  requestBodyTemplate : Option Json.Fields := none
  normalize : Option (DraftPart normalizeLeaves) := none
  strategy : Option (DraftPart strategyKeys) := none
  notes : Option String := none
  /-- `model_fields_set`. -/
  fieldsSet : List String

/-- What `resolve` rests on: the settings, and pydantic. -/
structure DraftLibrary where
  unicode : Unicode
  resultModeDefault : ResultMode
  /-- `load_strategy_defaults()`. -/
  strategyDefaults : Json.Fields
  strategyDefaults_keys : strategyDefaults.map Prod.fst = strategyKeys
  /-- `ResolvedTemplate.model_validate` of a payload, the provenance aside: the fields of the model,
  or none where it refuses the payload. -/
  validate : Json.Fields → Option Json.Fields

namespace TemplateDraft

variable (E : DraftLibrary) (d : TemplateDraft)

open ResolvedTemplate (orString)

/-! ### The expansion -/

/-- What stands before the last hyphen of the alias. -/
def defaultNamespace : String :=
  if '-' ∈ d.aliasName.toList then String.ofList (Url.rpartition '-' d.aliasName.toList).1
  else "default"

/-- `{create_path}/{id}`. -/
def derivedPath : String := d.createPath ++ "/\x7bid\x7d"

/-- The result policy, with the mode of the settings where the author gives none. -/
def resultPolicyFields : Json.Fields :=
  let fields := DraftPart.orElse d.resultPolicy ({} : ResultPolicy).dump
  if "mode" ∈ DraftPart.leavesOf d.resultPolicy then fields
  else Json.put fields "mode" (.str E.resultModeDefault.value)

def normalizeDefault : Json.Fields :=
  [("fields", .arr []), ("case_insensitive_fields", .arr []), ("trim_strings", .bool true)]

/-- `strategy.model_dump(exclude_none=True)`. -/
def overrides : Json.Fields :=
  (DraftPart.orElse d.strategy []).filter fun f => match f.2 with
    | .null => false
    | _ => true

/-- The payload of `resolve`, less the provenance. -/
def payload : Json.Fields :=
  [("alias", .str d.aliasName),
    ("namespace", .str (orString d.namespaceName d.defaultNamespace)),
    ("base_url", .str d.baseUrl),
    ("create_path", .str d.createPath),
    ("create_method", .str d.createMethod),
    ("get_path_template", .str (orString d.getPathTemplate d.derivedPath)),
    ("get_method", .str d.getMethod),
    ("cancel_path_template", .str (orString d.cancelPathTemplate d.derivedPath)),
    ("cancel_method", .str d.cancelMethod),
    ("id_location", .str (orString d.idLocation "$.id")),
    ("status_field", .str (orString d.statusField "$.status")),
    ("result_location", .str d.resultLocation),
    ("terminal", .obj (DraftPart.orElse d.terminal ({} : TerminalMapping).dump)),
    ("capabilities", .obj (DraftPart.orElse d.capabilities ({} : Capabilities).dump)),
    ("result_policy", .obj (d.resultPolicyFields E)),
    ("pool", .str (orString d.pool "shared")),
    ("status_source", .str (d.statusSource.getD .poll).value),
    ("callback_param", .str (orString d.callbackParam "callback_url")),
    ("normalize", .obj (DraftPart.orElse d.normalize normalizeDefault)),
    ("strategy", .obj (Json.update E.strategyDefaults d.overrides)),
    ("extra_headers", .obj (d.extraHeaders.map fun h => (h.1, .str h.2))),
    ("request_body_template", dumpOption .obj d.requestBodyTemplate),
    ("notes", dumpOption .str d.notes)]

/-! ### The provenance -/

/-- The source of a field that is explicit where `given`. -/
def markUnless (given : Bool) (otherwise : FieldSource) : FieldSource :=
  if given then .explicit else otherwise

/-- Whether an optional string is truthy. -/
def given (x : Option String) : Bool := x.any fun s => decide (s ≠ "")

/-- The leaves the author gives of one part. -/
def leafMarks (container : String) (leaves : List String) : List (String × FieldSource) :=
  leaves.map fun leaf => (container ++ "." ++ leaf, .explicit)

/-- The assignments to the provenance, in their order. -/
def assignments : List (String × FieldSource) :=
  [("get_path_template", markUnless (given d.getPathTemplate) .derived),
    ("cancel_path_template", markUnless (given d.cancelPathTemplate) .derived),
    ("id_location", markUnless (given d.idLocation) .default),
    ("status_field", markUnless (given d.statusField) .default),
    ("terminal", markUnless d.terminal.isSome .default),
    ("capabilities", markUnless d.capabilities.isSome .default),
    ("result_policy", markUnless d.resultPolicy.isSome .default)] ++
  (if "mode" ∈ DraftPart.leavesOf d.resultPolicy then []
    else [("result_policy.mode", .default)]) ++
  [("pool", markUnless (given d.pool) .default),
    ("status_source", markUnless d.statusSource.isSome .default),
    ("callback_param", markUnless (given d.callbackParam) .default),
    ("namespace", markUnless (given d.namespaceName) .derived),
    ("normalize", markUnless d.normalize.isSome .default)] ++
  leafMarks "capabilities" (DraftPart.leavesOf d.capabilities) ++
  leafMarks "terminal" (DraftPart.leavesOf d.terminal) ++
  leafMarks "result_policy" (DraftPart.leavesOf d.resultPolicy) ++
  leafMarks "normalize" (DraftPart.leavesOf d.normalize) ++
  [("strategy", .default)] ++
  leafMarks "strategy" (d.overrides.map Prod.fst) ++
  [("base_url", .explicit), ("result_location", .explicit), ("create_path", .explicit),
    ("alias", .explicit),
    ("create_method", markUnless (decide (d.createMethod ≠ "POST")) .default)]

end TemplateDraft

/-- The provenance of the fields under their dotted names. -/
abbrev Marks := String → Option FieldSource

/-- Of the assignments to a name the last one counts. -/
def TemplateDraft.marks (d : TemplateDraft) : Marks := fun name => d.assignments.reverse.lookup name

/-! ### The patches -/

/-- `dotted.split(".")`. -/
def pathParts (dotted : String) : List String :=
  (dotted.toList.splitOn '.').map String.ofList

/-- A patch of the platform.  None of its fields is in `_provenance`, which is the working table of
`resolve` and no part of a template. -/
structure PlatformPatch where
  patchId : String
  fields : List (String × Json)
  matchHosts : List String := []
  matchAliases : List String := []
  proper : ∀ f ∈ fields, (pathParts f.1).head? ≠ some "_provenance"

/-- `_set_path`; a value on the way that is no object raises. -/
def setPath : Json.Fields → List String → Json → Except Exn Json.Fields
  | fs, [], _ => .ok fs
  | fs, [k], value => .ok (Json.put fs k value)
  | fs, k :: k' :: ks, value =>
      match fs.lookup k with
      | none => (setPath [] (k' :: ks) value).map fun gs => Json.put fs k (.obj gs)
      | some (.obj gs) => (setPath gs (k' :: ks) value).map fun gs => Json.put fs k (.obj gs)
      | some _ => .error (.infrastructure "AttributeError")

/-- Whether the patch is for the upstream; a URL that `urlparse` refuses raises. -/
def PlatformPatch.matchesDraft (U : Unicode) (p : PlatformPatch) (d : TemplateDraft) :
    Except Exn Bool :=
  match Url.urlsplit U d.baseUrl.toList with
  | none => .error (.infrastructure "ValueError")
  | some parts =>
      let host := U.lower (parts.hostname U)
      .ok (decide (d.aliasName ∈ p.matchAliases) || (!host.isEmpty && p.matchHosts.any fun h =>
        host == h.toList || ('.' :: h.toList).isSuffixOf host))

/-- What the patches work on. -/
structure Working where
  payload : Json.Fields
  marks : Marks

/-- One field of a patch: what the author marked as explicit is left. -/
def Working.applyField (w : Working) (f : String × Json) : Except Exn Working :=
  if w.marks f.1 = some .explicit then .ok w
  else (setPath w.payload (pathParts f.1) f.2).map fun payload =>
    { payload := payload, marks := Function.update w.marks f.1 (some .patched) }

/-- One patch, and the ids of those that matched before. -/
def applyPatch (U : Unicode) (d : TemplateDraft) (w : Working × List String)
    (p : PlatformPatch) : Except Exn (Working × List String) := do
  if ← p.matchesDraft U d then
    let w' ← p.fields.foldlM Working.applyField w.1
    .ok (w', w.2 ++ [p.patchId])
  else .ok w

def applyPlatformPatches (U : Unicode) (d : TemplateDraft) (w : Working)
    (patches : List PlatformPatch) : Except Exn (Working × List String) :=
  patches.foldlM (applyPatch U d) (w, [])

/-! ### The resolved template -/

/-- A resolved template: the fields of the model, and the provenance. -/
structure Resolution where
  fields : Json.Fields
  provenance : String → Option String

/-- `",".join(sorted(set(applied)))`. -/
def joinIds (applied : List String) : String :=
  ",".intercalate (applied.dedup.insertionSort (· ≤ ·))

/-- `resolve`. -/
def resolve (E : DraftLibrary) (patches : List PlatformPatch) (d : TemplateDraft) :
    Except Exn Resolution := do
  let (w, applied) ← applyPlatformPatches E.unicode d ⟨d.payload E, d.marks⟩ patches
  match E.validate (w.payload.filter fun f => decide (f.1 ≠ "provenance")) with
  | none => .error (.infrastructure "ValidationError")
  | some fields =>
      let provenance := Function.update (fun name => (w.marks name).map (·.value)) "_patches"
        (some (joinIds applied))
      .ok ⟨fields, provenance⟩

end AsyncGateway
