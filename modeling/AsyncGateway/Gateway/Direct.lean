import AsyncGateway.Gateway.AcceptCreate
import AsyncGateway.Gateway.Routing
import AsyncGateway.Templates.Registry

/-!
# Gateway — the dispatch of a request to its template

`asyncDispatch` finds the template version of a request: by the canary binding of its channel,
among the versions the registry has of the alias (`selectVersion`), or, where the registry has
none, out of the configuration the channel has inline (`buildDirectVersion`).  A request whose
path and method are those of a create goes on as `dispatchCreate`.
-/

namespace AsyncGateway

open Interleave (Prog)

/-! ### The version of a request -/

/-- The policy of a channel, less the strategy group. -/
structure ChannelPolicy where
  /-- `canary`: the weights of the versions of an alias, by the text of their numbers. -/
  canary : List (String × List (String × ℚ)) := []
  urlDirect : Option Json.Fields := none
  urlDirectEnabled : Option Bool := none

/-- The first version up to whose weight the drawn point is. -/
def pickFrom (pick : ℚ) : ℚ → List (TemplateVersion × ℚ) → Option TemplateVersion
  | _, [] => none
  | _, [(tv, _)] => some tv
  | acc, (tv, weight) :: rest =>
      if pick ≤ acc + weight then some tv else pickFrom pick (acc + weight) rest

/-- The weight a binding gives a version; where there is no binding, every version has one. -/
def weightOf (binding : List (String × ℚ)) (tv : TemplateVersion) : ℚ :=
  if binding = [] then 1 else (binding.lookup (toString tv.version)).getD 0

/-- `select_version`; `draw` is the number `random.random` gives. -/
def selectVersion (versions : List TemplateVersion) (binding : List (String × ℚ)) (draw : ℚ) :
    Option TemplateVersion :=
  let candidates := versions.filter (·.enabled)
  let weighted := (candidates.map fun tv => (tv, weightOf binding tv)).filter
    fun p => decide (0 < p.2)
  if weighted = [] then candidates.getLast?
  else pickFrom (draw * (weighted.map (·.2)).sum) 0 weighted

/-- A process of the gateway. -/
structure Front where
  library : TemplateLibrary
  registry : Registry
  intake : Intake
  policies : String → ChannelPolicy := fun _ => {}
  urlDirectConfigEnabled : Bool := true
  urlDirectAllowedPrefixes : List String := []

namespace Front

variable (F : Front)

/-- `template_for_channel`. -/
def templateForChannel (channel a : String) (draw : ℚ) : Except Exn TemplateVersion :=
  let binding := ((F.policies channel).canary.lookup a).getD []
  match selectVersion (F.registry.versions a) binding draw with
  | some tv => .ok tv
  | none => .error (.keyError a)

def urlDirectEnabled (channel : String) : Bool :=
  ((F.policies channel).urlDirectEnabled).getD F.urlDirectConfigEnabled

/-- `direct_config`; an empty one is none. -/
def directConfig (channel : String) : Option Json.Fields :=
  (F.policies channel).urlDirect.filter fun cfg => !cfg.isEmpty

def minimalKeys : List String := ["base_url", "create_path", "result_location"]

def optionalKeys : List String :=
  ["id_location", "get_path_template", "cancel_path_template", "result_policy", "capabilities",
    "terminal", "normalize", "strategy", "pool"]

/-- What an iteration over the allowed prefixes goes through, each as its `str`. -/
def prefixesOf : Json → Except Exn (List String)
  | .arr items => .ok (items.map F.intake.container.pyStr)
  | .str s => .ok (s.toList.map fun c => String.ofList [c])
  | .obj fields => .ok (fields.map (·.1))
  | _ => .error .typeError

/-- `path_allowed` of a configuration; where no prefixes are declared, its own path alone. -/
def pathAllowed (cfg : Json.Fields) (path : String) : Except Exn Bool := do
  let own := ((cfg.lookup "create_path").map F.intake.container.pyStr).getD "/"
  let prefixes ←
    match (cfg.lookup "allowed_prefixes").filter Json.truthy with
    | some declared => F.prefixesOf declared
    | none => .ok (if F.urlDirectAllowedPrefixes = [] then [own] else F.urlDirectAllowedPrefixes)
  .ok (prefixes.any (startsWith path))

/-- The draft a configuration makes of an alias. -/
def directDraft (cfg : Json.Fields) (a : String) : Json.Fields :=
  ("alias", .str a) :: (minimalKeys ++ optionalKeys).filterMap fun key =>
    match cfg.lookup key with
    | none => none
    | some .null => none
    | some value => some (key, value)

/-- `build_direct_version`: the version 0 of an alias. -/
def buildDirectVersion (channel a path : String) : Except Exn (Option TemplateVersion) :=
  match F.directConfig channel with
  | none => .ok none
  | some cfg =>
      if minimalKeys.any fun key => !((cfg.lookup key).any Json.truthy) then .ok none
      else do
        let allowed ← F.pathAllowed cfg path
        if ¬ allowed then .ok none
        else .ok ((F.library.validate (directDraft cfg a)).map fun t =>
          { aliasName := a, version := 0, resolved := t })

end Front

/-! ### `async_dispatch` -/

/-- The body of a request, as it was read. -/
inductive RawBody : Type where
  | empty
  | invalid
  | json (doc : Json)

/-- A request to `/async/{alias}/{rest}`, authenticated. -/
structure AsyncRequest where
  aliasName : String
  rest : String
  method : String
  auth : AuthContext
  body : RawBody
  explicitKey : Option String := none
  originHeader : String := ""
  draw : ℚ := 0

/-- `_body`. -/
def RawBody.fields : RawBody → Except Exn Json.Fields
  | .empty => .ok []
  | .invalid => .error (.httpException 400 "request body must be valid JSON")
  | .json (.obj fields) => .ok fields
  | .json _ => .error (.httpException 400 "request body must be a JSON object")

/-- `_origin`. -/
def originOf (header : String) : Except Exn Origin :=
  let raw := (String.ofList (Text.strip header.toList)).toLower
  if raw = "" then .ok .user
  else match [Origin.user, .dryRun, .replay].find? fun o => decide (o.value = raw) with
    | some o => .ok o
    | none => .error (.httpException 400 "invalid X-AG-Origin")

/-- The answer to what `async_dispatch` raises. -/
def refusalOf : Exn → CreateAnswer
  | .httpException status detail => .refused status detail
  | _ => .internalError

namespace Front

variable (F : Front) (q : AsyncRequest)

def requestPath : String :=
  if q.rest = "" then "/" else String.ofList ('/' :: q.rest.toList.dropWhile (· = '/'))

/-- The version of the request: the registry's, or the one the channel configures inline. -/
def versionFor : Except Exn TemplateVersion :=
  match F.templateForChannel q.auth.channel q.aliasName q.draw with
  | .ok tv => .ok tv
  | .error _ =>
      if ¬ (F.urlDirectConfigEnabled ∧ F.urlDirectEnabled q.auth.channel) then
        .error (.httpException 404 "unknown alias")
      else do
        match ← F.buildDirectVersion q.auth.channel q.aliasName (requestPath q) with
        | some tv => .ok tv
        | none => .error (.httpException 404 "unknown alias")

/-- What the request creates, where it is a create; none where it asks for a task that exists. -/
def createRequest : Except Exn (Option CreateRequest) := do
  let tv ← F.versionFor q
  match ← matchRoute tv.resolved (requestPath q) q.method with
  | none => .error (.httpException 404 "unsupported path for alias")
  | some ⟨.create, _⟩ =>
      let body ← q.body.fields
      let origin ← originOf q.originHeader
      .ok (some
        { auth := q.auth
          template := tv.resolved
          version := tv.version
          body := body
          explicitKey := q.explicitKey
          origin := origin })
  | some _ => .ok none

/-- `async_dispatch`, less the queries and the cancel requests. -/
def asyncDispatch : AcceptHandler Unit :=
  match F.createRequest q with
  | .ok (some r) => dispatchCreate F.intake r
  | .ok none => pure ()
  | .error x => askAccept (.respond (refusalOf x))

end Front

end AsyncGateway
