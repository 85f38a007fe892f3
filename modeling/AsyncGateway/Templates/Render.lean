import AsyncGateway.Templates.Schema

/-!
# Templates — rendered requests

The requests a template makes for a task: the interpolated id is sanitized (`sanitize`), the path
filled in (`renderPath`) and joined to the base URL.  Joining is the URL library's and a parameter.
-/

namespace AsyncGateway

structure RenderedRequest where
  method : String
  url : String
  headers : List (String × String) := []
  jsonBody : Option Json := none

/-- `join_url`: joins a path to the base URL, or refuses the result. -/
abbrev JoinUrl := String → String → Except Exn String

def unreserved (c : Char) : Bool :=
  ('A' ≤ c && c ≤ 'Z') || ('a' ≤ c && c ≤ 'z') || ('0' ≤ c && c ≤ '9') ||
    c == '.' || c == '_' || c == '~' || c == '-'

/-- `_DANGEROUS`. -/
def dangerous (cs : List Char) : Bool :=
  cs.any (fun c => decide (c ∈ "/\\:%?#@".toList) || Text.isSpace c) ||
    Text.occursIn "..".toList cs

/-- `sanitize_interpolation_value` of a string. -/
def sanitize (raw : String) : Except Exn String :=
  let cs := raw.toList
  if cs = [] then .error (.renderError "插值变量 id 为空")
  else if dangerous cs then
    .error (.renderError ("插值变量 id 含路径穿越/方案字符，已拒绝：" ++ Text.pyRepr raw))
  else if ¬ cs.all unreserved ∨ 256 < cs.length then
    .error (.renderError ("插值变量 id 含非白名单字符，已拒绝：" ++ Text.pyRepr raw))
  else .ok raw

/-- `out.replace("{id}", safe)`. -/
def replaceId (safe : List Char) : ℕ → List Char → List Char
  | 0, cs => cs
  | _ + 1, [] => []
  | n + 1, c :: cs =>
      if "{id}".toList.isPrefixOf (c :: cs) then safe ++ replaceId safe n (cs.drop 3)
      else c :: replaceId safe n cs

def renderPath (template : String) (id : String) : Except Exn String := do
  let out ←
    if ResolvedTemplate.hasIdPlaceholder template then do
      let safe ← sanitize id
      .ok (replaceId safe.toList template.length template.toList)
    else .ok template.toList
  if '{' ∈ out ∨ '}' ∈ out then .error (.renderError ("路径含未解析占位符：" ++ template))
  else if Text.occursIn "..".toList out then .error (.renderError ("路径含路径穿越：" ++ template))
  else .ok (String.ofList out)

/-- `headers[k] = v`. -/
def setHeader : List (String × String) → String × String → List (String × String)
  | [], h => [h]
  | h' :: hs, h => if h'.1 = h.1 then h :: hs else h' :: setHeader hs h

theorem lookup_setHeader (hs : List (String × String)) (j v k : String) :
    (setHeader hs (j, v)).lookup k = ([(j, v)].lookup k).or (hs.lookup k) := by
  induction hs with
  | nil => simp [setHeader]
  | cons h hs ih =>
      obtain ⟨j', v'⟩ := h
      by_cases hj : j' = j
      · subst hj
        by_cases hk : k = j'
        · simp [setHeader, hk]
        · simp [setHeader, List.lookup_cons, beq_false_of_ne hk]
      · rw [setHeader, if_neg hj, List.lookup_cons, ih]
        by_cases hk : k = j'
        · simp [hk, beq_false_of_ne hj]
        · have hs' : ((j', v') :: hs).lookup k = hs.lookup k := by
            rw [List.lookup_cons, beq_false_of_ne hk]
          rw [hs', beq_false_of_ne hk]

/-- Of several values set under one key the last one stays. -/
theorem lookup_setHeaders (added hs : List (String × String)) (k : String) :
    (added.foldl setHeader hs).lookup k = (added.reverse.lookup k).or (hs.lookup k) := by
  induction added generalizing hs with
  | nil => rfl
  | cons h added ih =>
      rw [List.foldl_cons, ih, lookup_setHeader, List.reverse_cons, List.lookup_append,
        Option.or_assoc]

def baseHeaders (t : ResolvedTemplate) : List (String × String) :=
  t.extraHeaders.foldl setHeader
    [("Content-Type", "application/json"), ("Accept", "application/json")]

def renderCreate (join : JoinUrl) (t : ResolvedTemplate) (body : Json.Fields)
    (callbackUrl : Option String) : Except Exn RenderedRequest := do
  let payload := match callbackUrl.filter (· ≠ "") with
    | some url => if t.capabilities.callback then Json.put body t.callbackParam (.str url) else body
    | none => body
  let url ← join t.baseUrl t.createPath
  .ok { method := t.createMethod, url := url, headers := baseHeaders t,
        jsonBody := some (.obj payload) }

def renderGet (join : JoinUrl) (t : ResolvedTemplate) (upstreamTaskId : String) :
    Except Exn RenderedRequest := do
  let path ← renderPath t.getPathTemplate upstreamTaskId
  let url ← join t.baseUrl path
  .ok { method := t.getMethod, url := url, headers := baseHeaders t }

def renderCancel (join : JoinUrl) (t : ResolvedTemplate) (upstreamTaskId : String) :
    Except Exn RenderedRequest := do
  if ¬ t.capabilities.cancel then
    .error (.renderError (t.aliasName ++ " 的上游不支持取消（capabilities.cancel=false）"))
  else do
    let path ← renderPath t.cancelPathTemplate upstreamTaskId
    let url ← join t.baseUrl path
    .ok { method := t.cancelMethod, url := url, headers := baseHeaders t }

/-- The query `_confirm` makes: the request digest in the place of the id, not sanitized. -/
def renderConfirm (join : JoinUrl) (t : ResolvedTemplate) (createReqDigest : String) :
    Except Exn RenderedRequest := do
  let path := String.ofList
    (replaceId createReqDigest.toList t.getPathTemplate.length t.getPathTemplate.toList)
  let url ← join t.baseUrl path
  .ok { method := t.getMethod, url := url, headers := [("Accept", "application/json")] }

example : renderPath "/tasks/{id}" "cgt-1" = .ok "/tasks/cgt-1" := by rfl

end AsyncGateway
