import AsyncGateway.Domain.Errors
import AsyncGateway.Templates.Expression

/-!
# Templates — resolved templates and their validation

The template a handler works from (`ResolvedTemplate`), how it reads an upstream status
(`mapsStatus`) and what it shows for a failure of the gateway's own (`effectiveFailureStatus`),
and the errors the validator reports on it (`issues`).  An `AcceptedTemplate` carries the proof
that there are none.
-/

namespace AsyncGateway

inductive ConfirmStrategy : Type where
  | queryByClientKey
  | listAndMatch
  | manualOnly
  deriving DecidableEq

inductive StatusSource : Type where
  | poll
  | callback
  deriving DecidableEq

inductive ResultMode : Type where
  | store
  | passthrough
  | redirect
  deriving DecidableEq

structure Capabilities where
  upstreamIdempotent : Bool := false
  confirmStrategy : ConfirmStrategy := .manualOnly
  cancel : Bool := false
  callback : Bool := false
  listTasks : Bool := false
  maxPayloadBytes : ℤ := 1048576
  permanentResultUrl : Bool := false
  rateLimitSideEffectFree : Bool := false
  perKeyIsolation : Bool := true

/-- `manual_only` never re-creates on its own. -/
def Capabilities.confirmAutoAllowed (c : Capabilities) : Bool :=
  decide (c.confirmStrategy ≠ .manualOnly)

structure TerminalMapping where
  success : List String := ["succeeded"]
  failure : List String := ["failed"]
  /-- The upstream's expired is the gateway's timeout. -/
  expired : List String := ["expired"]
  internalTerminalRewrite : Option String := none
  internalTerminalErrorCode : Option String := none
  errorField : Option String := none

structure ResultPolicy where
  mode : ResultMode := .store
  presignTtlSeconds : Option ℤ := none
  retentionDays : Option ℤ := none
  unavailableGone : Bool := true

/-- The keys of a strategy group; one that is absent has the reader's default. -/
structure Strategy where
  maxAttempts : Option ℤ := none
  minRefreshInterval : Option ℚ := none
  unknownMaxLifetimeSeconds : Option ℤ := none
  presignTtlSeconds : Option ℤ := none
  deadlineSeconds : Option ℚ := none
  idempotencyWindowSeconds : Option ℤ := none
  retentionDays : Option ℤ := none
  unknownMaxPerChannel : Option ℤ := none
  submitConfirmWindowSeconds : Option ℤ := none

structure ResolvedTemplate where
  aliasName : String
  namespaceName : String := "default"
  baseUrl : String
  createPath : String
  createMethod : String := "POST"
  getPathTemplate : String
  getMethod : String := "GET"
  cancelPathTemplate : String
  cancelMethod : String := "DELETE"
  idLocation : String := "$.id"
  statusField : String := "$.status"
  resultLocation : String
  terminal : TerminalMapping := {}
  capabilities : Capabilities := {}
  resultPolicy : ResultPolicy := {}
  pool : String := "shared"
  statusSource : StatusSource := .poll
  callbackParam : String := "callback_url"
  normalizeFields : List String := []
  normalizeCaseInsensitive : List String := []
  normalizeTrimStrings : Bool := true
  strategy : Strategy := {}
  extraHeaders : List (String × String) := []
  requestBodyTemplate : Option Json.Fields := none
  notes : Option String := none
  /-- Where each field comes from. -/
  provenance : String → Option String := fun _ => none

namespace ResolvedTemplate

/-- The terminal state an upstream status means, none while the upstream is at work. -/
def mapsStatus (t : ResolvedTemplate) (upstreamStatus : String) : Option TaskStatus :=
  if upstreamStatus ∈ t.terminal.success then some .succeeded
  else if upstreamStatus ∈ t.terminal.expired then some .timeout
  else if upstreamStatus ∈ t.terminal.failure then some .failed
  else none

/-- `x or d` of an optional string. -/
def orString (x : Option String) (d : String) : String :=
  match x with
  | none => d
  | some "" => d
  | some s => s

def effectiveFailureStatus (t : ResolvedTemplate) : String :=
  orString t.terminal.internalTerminalRewrite (t.terminal.failure.headD "failed")

def effectiveFailureErrorCode (t : ResolvedTemplate) : String :=
  orString t.terminal.internalTerminalErrorCode t.effectiveFailureStatus

end ResolvedTemplate

/-! ### The validator -/

/-- An error of the validator: the field it is about and its message. -/
structure Issue where
  field : String
  message : String
  deriving DecidableEq

namespace ResolvedTemplate

variable (t : ResolvedTemplate)

/-- An issue, where the check fails. -/
def issueUnless (ok : Bool) (field message : String) : List Issue :=
  if ok then [] else [⟨field, message⟩]

/-- Whether the string holds the placeholder of the task id. -/
def hasIdPlaceholder (path : String) : Bool := Text.occursIn "{id}".toList path.toList

def compiles (spec : String) : Bool := (compileExpression spec).isOk

theorem compiles_iff {spec : String} :
    compiles spec = true ↔ ∃ path, compileExpression spec = .ok path := by
  unfold compiles
  cases compileExpression spec <;> simp [Except.isOk, Except.toBool]

def checkExpressions : List Issue :=
  [("id_location", t.idLocation), ("status_field", t.statusField),
    ("result_location", t.resultLocation)].flatMap fun (field, spec) =>
      issueUnless (compiles spec) field "表达式沙箱拒绝"

def checkPaths : List Issue :=
  issueUnless (hasIdPlaceholder t.getPathTemplate) "get_path_template"
    "查询路径缺少 \x7bid\x7d 占位符，无法定位单个任务" ++
  issueUnless (!t.capabilities.cancel || hasIdPlaceholder t.cancelPathTemplate)
    "cancel_path_template" "capabilities.cancel=true 时取消路径必须含 \x7bid\x7d" ++
  issueUnless (t.baseUrl ≠ "") "base_url" "base_url 不能为空" ++
  issueUnless (!(t.statusSource = .callback) || t.capabilities.callback) "status_source"
    "status_source=callback 但 capabilities.callback=false"

def checkTerminal : List Issue :=
  issueUnless (!t.terminal.success.isEmpty) "terminal.success" "必须声明至少一个成功终态取值" ++
  issueUnless (!t.terminal.failure.isEmpty) "terminal.failure"
    "必须声明至少一个失败终态取值——内部终态需要重写为上游原生失败类取值（§12.2 硬规则）" ++
  issueUnless (t.terminal.success.all fun s => decide (s ∉ t.terminal.failure)) "terminal"
    "成功与失败终态取值重叠"

def checkCapabilities : List Issue :=
  issueUnless (!(t.capabilities.confirmStrategy = .listAndMatch) || !t.normalizeFields.isEmpty)
    "normalize.fields"
    "confirm_strategy=list_and_match 需要请求体摘要匹配字段集（normalize.fields 不能为空）" ++
  issueUnless (!(t.resultPolicy.mode = .passthrough) || t.capabilities.permanentResultUrl)
    "result_policy.mode"
    "passthrough 依赖上游直链永久有效，但 capabilities.permanent_result_url=false" ++
  issueUnless (t.resultPolicy.mode ≠ .redirect) "result_policy.mode"
    "redirect 模式第一版未实现（§12.2 只实现 store/passthrough）" ++
  issueUnless (!t.capabilities.callback || !(Text.strip t.callbackParam.toList).isEmpty)
    "callback_param" "capabilities.callback=true 时 callback_param 不能为空"

def checkStrategy : List Issue :=
  issueUnless (1 ≤ t.strategy.maxAttempts.getD 1) "strategy.max_attempts" "max_attempts 必须 >= 1" ++
  issueUnless (0 < t.strategy.deadlineSeconds.getD 1) "strategy.deadline_seconds"
    "deadline_seconds 必须 > 0" ++
  issueUnless (0 ≤ t.strategy.minRefreshInterval.getD 0) "strategy.min_refresh_interval"
    "min_refresh_interval 不得为负（0 表示每次查询都做透传刷新）" ++
  issueUnless (0 < t.strategy.idempotencyWindowSeconds.getD 1)
    "strategy.idempotency_window_seconds" "幂等窗口必须 > 0"

def checkCredentials : List Issue :=
  t.extraHeaders.flatMap fun (key, _) =>
    issueUnless (key.toLower ∉ ["authorization", "x-api-key", "api-key", "x-goog-api-key"])
      "extra_headers" (key ++ " 属凭证类头，必须由渠道持有并随 Authorization 头透传，不允许写进模板")

/-- The errors `validate` reports on a resolved template. -/
def issues : List Issue :=
  t.checkExpressions ++ t.checkPaths ++ t.checkTerminal ++ t.checkCapabilities ++
    t.checkStrategy ++ t.checkCredentials

end ResolvedTemplate

/-- A template the validator accepts. -/
structure AcceptedTemplate extends ResolvedTemplate where
  accepted : toResolvedTemplate.issues = []

namespace AcceptedTemplate

variable (t : AcceptedTemplate)

theorem checks : t.checkExpressions = [] ∧ t.checkTerminal = [] := by
  have h := t.accepted
  simp only [ResolvedTemplate.issues, List.append_eq_nil_iff] at h
  exact ⟨h.1.1.1.1.1, h.1.1.1.2⟩

@[simp] theorem issueUnless_eq_nil {ok : Bool} {field message : String} :
    ResolvedTemplate.issueUnless ok field message = [] ↔ ok = true := by
  cases ok <;> simp [ResolvedTemplate.issueUnless]

/-- The three expressions of an accepted template compile. -/
theorem compiles_fields :
    ResolvedTemplate.compiles t.idLocation = true ∧
      ResolvedTemplate.compiles t.statusField = true ∧
      ResolvedTemplate.compiles t.resultLocation = true := by
  have h := t.checks.1
  simpa [ResolvedTemplate.checkExpressions, List.flatMap_cons] using h

theorem success_ne_nil : t.terminal.success ≠ [] := by
  have h := t.checks.2
  simp only [ResolvedTemplate.checkTerminal, List.append_eq_nil_iff, issueUnless_eq_nil] at h
  simpa using h.1.1

theorem failure_ne_nil : t.terminal.failure ≠ [] := by
  have h := t.checks.2
  simp only [ResolvedTemplate.checkTerminal, List.append_eq_nil_iff, issueUnless_eq_nil] at h
  simpa using h.1.2

/-- No value of an accepted template is both a success and a failure. -/
theorem success_failure_disjoint {s : String} (hs : s ∈ t.terminal.success) :
    s ∉ t.terminal.failure := by
  have h := t.checks.2
  simp only [ResolvedTemplate.checkTerminal, List.append_eq_nil_iff, issueUnless_eq_nil] at h
  simpa using List.all_eq_true.mp h.2 s hs

end AcceptedTemplate

/-! ### The draft -/

/-- `_path_shape`; none is a `ValueError`. -/
def pathShape (v : String) : Option String :=
  let v := Text.strip v.toList
  if v.head? = some '/' then some (String.ofList v) else none

/-- `_base_url_shape`; none is a `ValueError`. -/
def baseUrlShape (v : String) : Option String :=
  let v := ((Text.strip v.toList).reverse.dropWhile (· = '/')).reverse
  let authority := fun scheme : String => (v.drop scheme.toList.length).takeWhile (· ≠ '/')
  if "http://".toList.isPrefixOf v then
    if '@' ∈ authority "http://" then none else some (String.ofList v)
  else if "https://".toList.isPrefixOf v then
    if '@' ∈ authority "https://" then none else some (String.ofList v)
  else none

/-- A template of a draft `validate` accepts: what the validators of the draft leave in the fields
they read; a path the draft does not give is the one of a create with the id behind it. -/
structure ValidatedTemplate extends AcceptedTemplate where
  createMethod_mem : createMethod ∈ ["POST", "PUT"]
  getMethod_eq : getMethod = "GET"
  cancelMethod_mem : cancelMethod ∈ ["DELETE", "POST"]
  baseUrl_shape : ∃ v, baseUrlShape v = some baseUrl
  createPath_shape : ∃ v, pathShape v = some createPath
  getPath_shape : (∃ v, pathShape v = some getPathTemplate) ∨
    getPathTemplate = createPath ++ "/\x7bid\x7d"
  cancelPath_shape : (∃ v, pathShape v = some cancelPathTemplate) ∨
    cancelPathTemplate = createPath ++ "/\x7bid\x7d"

theorem head_of_pathShape {v path : String} (h : pathShape v = some path) :
    path.toList.head? = some '/' := by
  simp only [pathShape] at h
  split at h
  · cases h
    rwa [String.toList_ofList]
  · cases h

namespace ValidatedTemplate

variable (t : ValidatedTemplate)

theorem head_createPath : t.createPath.toList.head? = some '/' :=
  head_of_pathShape t.createPath_shape.choose_spec

theorem head_derived {path : String}
    (h : (∃ v, pathShape v = some path) ∨ path = t.createPath ++ "/\x7bid\x7d") :
    path.toList.head? = some '/' := by
  rcases h with ⟨v, h⟩ | rfl
  · exact head_of_pathShape h
  · rw [String.toList_append, List.head?_append, t.head_createPath]
    rfl

theorem head_getPath : t.getPathTemplate.toList.head? = some '/' :=
  t.head_derived t.getPath_shape

theorem head_cancelPath : t.cancelPathTemplate.toList.head? = some '/' :=
  t.head_derived t.cancelPath_shape

theorem hasIdPlaceholder_get : ResolvedTemplate.hasIdPlaceholder t.getPathTemplate = true := by
  have h := t.accepted
  simp only [ResolvedTemplate.issues, ResolvedTemplate.checkPaths, List.append_eq_nil_iff,
    AcceptedTemplate.issueUnless_eq_nil] at h
  exact h.1.1.1.1.2.1.1.1

theorem hasIdPlaceholder_cancel (hc : t.capabilities.cancel = true) :
    ResolvedTemplate.hasIdPlaceholder t.cancelPathTemplate = true := by
  have h := t.accepted
  simp only [ResolvedTemplate.issues, ResolvedTemplate.checkPaths, List.append_eq_nil_iff,
    AcceptedTemplate.issueUnless_eq_nil] at h
  simpa [hc] using h.1.1.1.1.2.1.1.2

end ValidatedTemplate

end AsyncGateway
