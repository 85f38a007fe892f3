import AsyncGateway.Gateway.Idempotency
import AsyncGateway.Gateway.Routes
import AsyncGateway.Security.CallbackAuth

/-!
# Gateway — who asks

`authenticate` makes the context of a request from its headers: the channel and the tenant, each
with what stands for it where the header has nothing, and the credential with its hash.
-/

namespace AsyncGateway

/-- The headers `authenticate` reads. -/
structure AuthHeaders where
  authorization : Option String := none
  /-- `x-ag-channel`. -/
  channel : Option String := none
  /-- `x-ag-tenant`. -/
  tenant : Option String := none
  /-- `x-ag-upstream-key`. -/
  upstreamKey : Option String := none

/-- `auth_mode` and `admin_token` of the settings. -/
structure Authentication where
  adminMode : Bool := false
  adminToken : String := ""

/-- `s.strip()`. -/
def stripped (s : String) : String := String.ofList (Text.strip s.toList)

/-- `(value or default).strip() or default`. -/
def headerOr (value : Option String) (default : String) : String :=
  let text := stripped ((nonEmpty value).getD default)
  if text = "" then default else text

/-- `key_hash_of`. -/
def keyHashOf (H : Hashing) (secretValue : String) : String :=
  String.ofList ((H.sha256 secretValue).toList.take 24)

/-- The token of an `Authorization` header, with or without its scheme. -/
def bearerToken (H : Hashing) (rawAuth : String) : String :=
  if "bearer ".toList.isPrefixOf (H.lower rawAuth).toList then
    stripped (String.ofList (rawAuth.toList.drop 7))
  else stripped rawAuth

namespace Authentication

variable (S : Authentication) (H : Hashing)

/-- `authenticate`. -/
def authenticate (headers : AuthHeaders) (aliasName : String) : Except Exn AuthContext :=
  let channel := headerOr headers.channel aliasName
  let tenant := headerOr headers.tenant "default"
  let rawAuth := headers.authorization.getD ""
  if S.adminMode then
    let token := bearerToken H rawAuth
    if token = "" then .error (.httpException 401 "admin credential required")
    -- `compare_digest` takes no other text
    else if isAscii token = false ∨ isAscii S.adminToken = false then .error .typeError
    else if token ≠ S.adminToken then .error (.httpException 401 "admin credential required")
    else .ok
      { channel := channel
        tenant := tenant
        bearer := headers.upstreamKey
        actor := "admin"
        keyHash := keyHashOf H ((nonEmpty headers.upstreamKey).getD channel)
        mode := "admin" }
  else if stripped rawAuth = "" then .error (.httpException 401 "missing upstream credential")
  else .ok
    { channel := channel
      tenant := tenant
      bearer := some (stripped rawAuth)
      actor := "key:" ++ String.ofList ((keyHashOf H (stripped rawAuth)).toList.take 8)
      keyHash := keyHashOf H (stripped rawAuth)
      mode := "passthrough" }

theorem length_keyHashOf (secretValue : String) : (keyHashOf H secretValue).length = 24 := by
  have h := H.length_sha256 secretValue
  rw [← String.length_toList] at h
  simp [keyHashOf, h]

variable {S H} {headers : AuthHeaders} {aliasName : String} {auth : AuthContext}

/-- The context of a request names the channel and the tenant of its headers, and the hash is of
24 digits. -/
theorem authenticate_ok (h : S.authenticate H headers aliasName = .ok auth) :
    auth.channel = headerOr headers.channel aliasName ∧
      auth.tenant = headerOr headers.tenant "default" ∧ auth.keyHash.length = 24 := by
  simp only [authenticate] at h
  split at h
  · split at h
    · cases h
    · split at h
      · cases h
      · split at h
        · cases h
        · cases h
          simp only [length_keyHashOf, and_self]
  · split at h
    · cases h
    · cases h
      simp only [length_keyHashOf, and_self]

end Authentication

end AsyncGateway
