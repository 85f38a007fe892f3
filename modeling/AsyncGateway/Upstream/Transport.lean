import AsyncGateway.Tasks.Cancel
import AsyncGateway.Security.Ssrf
import Mathlib.Data.Fintype.EquivFin

/-!
# Upstream — the connections of the client

The client checks the target of a request, then has the connection made to an address the check
saw (`pinRequest`), so that a name that resolves otherwise a moment later leads nowhere else.  The
pins are part of the transport, the transport is part of the HTTP client, and that one is made for
the first request and kept until the upstream client is closed: a later request goes by the pins
of the first one.

* `sentBy_eq`: what a client sends in any run is what the target accepted first since the last
  closing decides (`leader`).
* `stays_within_iff`: when a request is carried to nothing but addresses its own check saw,
  whatever the names resolve to by then.
* `answered_as_asked`: the client the gateway makes for one request answers it as
  `UpstreamClient.call` does, and sends at most what that one asks to be sent.
-/

namespace AsyncGateway

open Interleave (Prog)

namespace Upstream

/-! ### The HTTP library -/

/-- `httpx.URL`, as far as the client reads it. -/
structure HttpUrls (V : Type) where
  /-- `httpx.URL(url)`; none where it raises. -/
  ofText : String → Option V
  scheme : V → String
  host : V → String
  port : V → Option ℕ
  /-- `copy_with(host=ip)`; none where it raises. -/
  copyWithHost : V → String → Option V
  host_copyWithHost : ∀ {v v' : V} {ip : String}, (IpAddress.parse ip.toList).isSome = true →
    copyWithHost v ip = some v' → host v' = ip

/-- `httpx.Request`, but for the headers the library adds of its own. -/
structure HttpRequest (V : Type) where
  method : String
  url : V
  headers : List (String × String) := []
  jsonBody : Option Json := none
  sniHostname : Option String := none

/-- The names of two headers are the same but for their case. -/
def sameName (j k : String) : Bool := j.toList.map Char.toLower == k.toList.map Char.toLower

/-- `request.headers[k] = v`: the first header of the name is replaced, others are dropped. -/
def replaceHeader (h : String × String) : List (String × String) → List (String × String)
  | [] => [h]
  | h' :: hs =>
      if sameName h'.1 h.1 then h :: hs.filter fun h' => !sameName h'.1 h.1
      else h' :: replaceHeader h hs

abbrev Pins := List (String × List String)

/-- A transport that is not `pinned` is one from elsewhere: a proxy, the stand-in of a test. -/
inductive Transport : Type where
  | pinned (pins : Pins)
  | other (name : ℕ)

/-- `httpx.AsyncClient`, that follows no redirects: none where it makes a transport of its own. -/
structure HttpClient where
  transport : Option Transport

section Library

variable {V : Type} (W : HttpUrls V)

/-- `pin_request`. -/
def pinRequest (pins : Pins) (request : HttpRequest V) : HttpRequest V :=
  let host := W.host request.url
  match pins.lookup host with
  | none | some [] => request
  | some (ip :: _) =>
      match W.copyWithHost request.url ip with
      | none => request
      | some url =>
          let defaultPort := if W.scheme url = "https" then 443 else 80
          let port := ((W.port url).filter (· ≠ 0)).getD defaultPort
          { request with
            url := url
            headers := replaceHeader
              ("Host", if port = defaultPort then host else host ++ ":" ++ toString port)
              request.headers
            sniHostname := some host }

/-- `handle_async_request`: what a transport makes of a request before it connects. -/
def HttpClient.handle (c : HttpClient) (request : HttpRequest V) : HttpRequest V :=
  match c.transport with
  | some (.pinned pins) => pinRequest W pins request
  | _ => request

end Library

/-! ### The client -/

/-- What `UpstreamClient` is made with, and the settings it reads. -/
structure ClientConfig where
  authHeader : String := "Authorization"
  pinDns : Bool := true
  allowHosts : List String := []
  defaultTransport : Option Transport := none
  /-- `client`: an HTTP client of the caller's, which the upstream client does not close. -/
  client : Option HttpClient := none
  maxResultBytes : ℕ := 536870912
  ssrfDenyPrivate : Bool := true
  settings : Ssrf.Settings := {}

structure ClientState where
  client : Option HttpClient
  secrets : List String

/-- What a request meets: the resolver that the check asks, the answer of the upstream and the
time of it.  A resolver answers with addresses. -/
structure Moment (V : Type) where
  getaddrinfo : Ssrf.Resolver
  numeric : ∀ host port infos, getaddrinfo host port = .ok infos →
    ∀ ip ∈ infos, (IpAddress.parse ip.toList).isSome = true
  answer : HttpRequest V → Except HttpxError HttpResponse
  now : Time

/-- What comes of a request: the result, what was sent, and the client behind it. -/
structure Called (α V : Type) where
  result : Except Exn α
  sent : Option (HttpRequest V)
  state : ClientState

/-- `__init__`. -/
def ClientConfig.init (x : ClientConfig) : ClientState := ⟨x.client, []⟩

section Client

variable (x : ClientConfig)

/-- `remember_secret`. -/
def rememberSecret (value : Option String) (s : ClientState) : ClientState :=
  match value with
  | none => s
  | some v => if v ≠ "" ∧ v ∉ s.secrets then { s with secrets := s.secrets ++ [v] } else s

/-- `aclose`. -/
def aclose (s : ClientState) : ClientState :=
  if x.client.isSome then s else { s with client := none }

/-- `_ensure_client`. -/
def ensureClient (transport : Option Transport) (s : ClientState) : HttpClient × ClientState :=
  match s.client with
  | some c => (c, s)
  | none =>
      let c : HttpClient := ⟨transport <|> x.defaultTransport⟩
      (c, { s with client := some c })

/-- The transport a request would be sent through: one that is given, then the default one, then
one that pins the target. -/
def activeTransport (target : Ssrf.ValidatedTarget) (transport : Option Transport) :
    Option Transport :=
  match transport <|> x.defaultTransport with
  | some t => some t
  | none =>
      if x.pinDns = true ∧ target.addresses ≠ [] then
        some (.pinned [(target.host, target.addresses)])
      else none

/-- The HTTP client a request is sent through: one that is given, then the one that is there. -/
def activeClient (target : Ssrf.ValidatedTarget) (transport : Option Transport)
    (client : Option HttpClient) (s : ClientState) : HttpClient × ClientState :=
  match client <|> s.client with
  | some c => (c, s)
  | none => ensureClient x (activeTransport x target transport) s

/-- `headers[self.auth_header] = bearer`, where there is a bearer. -/
def withBearer (bearer : Option String) (headers : List (String × String)) :
    List (String × String) :=
  match bearer.filter (· ≠ "") with
  | none => headers
  | some b => setHeader headers (x.authHeader, b)

/-- The verdict on the URL of a request. -/
def verdict {V : Type} (U : Unicode) (m : Moment V) (denyPrivate : Bool) (url : String) :
    Except Exn Ssrf.ValidatedTarget :=
  Ssrf.validateTarget U x.settings { allowHosts := some x.allowHosts, denyPrivate := denyPrivate }
    m.getaddrinfo url

variable {V : Type} (W : HttpUrls V) (U : Unicode) (C : Container) (m : Moment V)

/-- The request of `call`, as it is handed to the HTTP client. -/
def callRequest (request : RenderedRequest) (bearer : Option String)
    (extraHeaders : List (String × String)) : Option (HttpRequest V) :=
  (W.ofText request.url).map fun url =>
    { method := request.method, url := url, jsonBody := request.jsonBody
      headers := withBearer x bearer (extraHeaders.foldl setHeader request.headers) }

/-- What `call` and `fetch_result` have in common: the check, the credential, the client, then the
request and what is read in the answer to it. -/
def exchange {α : Type} (verdict : Except Exn Ssrf.ValidatedTarget)
    (request : Option (HttpRequest V)) (bearer : Option String) (transport : Option Transport)
    (client : Option HttpClient) (rejected : String → α)
    (read : List String → Except HttpxError HttpResponse → α) (s : ClientState) : Called α V :=
  match verdict with
  | .error (.ssrfViolation exc) => ⟨.ok (rejected exc), none, s⟩
  | .error exc => ⟨.error exc, none, s⟩
  | .ok target =>
      let (active, s) := activeClient x target transport client (rememberSecret bearer s)
      match request with
      | none => ⟨.error (.infrastructure "InvalidURL"), none, s⟩
      | some r =>
          let sent := active.handle W r
          ⟨.ok (read s.secrets (m.answer sent)), some sent, s⟩

/-- `call`. -/
def call (request : RenderedRequest) (context : Context) (bearer : Option String)
    (extraHeaders : List (String × String)) (transport : Option Transport)
    (client : Option HttpClient) : ClientState → Called UpstreamCallResult V :=
  exchange x W m (verdict x U m x.ssrfDenyPrivate request.url)
    (callRequest x W request bearer extraHeaders) bearer transport client
    (fun exc => { outcome := .ssrfRejected, error := some exc })
    fun secrets answer => match answer with
      | .error exc => UpstreamClient.ofHttpxError context exc
      | .ok response => UpstreamClient.ofResponse C secrets context m.now response

/-- The request of `fetch_result`. -/
def fetchRequest (url : String) (bearer : Option String) : Option (HttpRequest V) :=
  (W.ofText url).map fun v => { method := "GET", url := v, headers := withBearer x bearer [] }

/-- `fetch_result`: internal addresses are denied whatever the settings say. -/
def fetchResult (url : String) (bearer : Option String) (maxBytes : Option ℕ)
    (client : Option HttpClient) : ClientState → Called Fetched V :=
  exchange x W m (verdict x U m true url) (fetchRequest x W url bearer) bearer none client
    .ssrfRejected
    fun _ answer => match answer with
      | .error exc => .transport exc.text
      | .ok response =>
          let limit := (maxBytes.filter (· ≠ 0)).getD x.maxResultBytes
          if ¬ (200 ≤ response.statusCode ∧ response.statusCode < 300) then
            .http response.statusCode
          else if limit < response.content.length then
            .tooLarge response.content.length limit
          else .body response.content

end Client

/-! ### Runs of a client -/

/-- What is done with a client. -/
inductive Use (V : Type) where
  | call (m : Moment V) (request : RenderedRequest) (context : Context) (bearer : Option String)
      (extraHeaders : List (String × String))
  | fetchResult (m : Moment V) (url : String) (bearer : Option String) (maxBytes : Option ℕ)
  | aclose

section Runs

variable {V : Type} (x : ClientConfig) (W : HttpUrls V) (U : Unicode) (C : Container)

namespace Use

/-- What is sent, and the client behind it. -/
def apply (s : ClientState) : Use V → Option (HttpRequest V) × ClientState
  | call m request context bearer extraHeaders =>
      let c := Upstream.call x W U C m request context bearer extraHeaders none none s
      (c.sent, c.state)
  | fetchResult m url bearer maxBytes =>
      let c := Upstream.fetchResult x W U m url bearer maxBytes none s
      (c.sent, c.state)
  | aclose => (none, Upstream.aclose x s)

/-- The target the check accepts. -/
def accepted : Use V → Option Ssrf.ValidatedTarget
  | call m request _ _ _ => (verdict x U m x.ssrfDenyPrivate request.url).toOption
  | fetchResult m url _ _ => (verdict x U m true url).toOption
  | aclose => none

/-- The request that is handed to the HTTP client. -/
def request : Use V → Option (HttpRequest V)
  | call _ request _ bearer extraHeaders => callRequest x W request bearer extraHeaders
  | fetchResult _ url bearer _ => fetchRequest x W url bearer
  | aclose => none

/-- The target that the pins are made for, after a use: an accepted one where there is none yet. -/
def advance (leader : Option Ssrf.ValidatedTarget) : Use V → Option Ssrf.ValidatedTarget
  | aclose => none
  | u => leader <|> u.accepted x U

end Use

/-- The client after some uses. -/
def after (uses : List (Use V)) : ClientState :=
  uses.foldl (fun s u => (u.apply x W U C s).2) x.init

/-- The target accepted first since the last closing. -/
def leader (uses : List (Use V)) : Option Ssrf.ValidatedTarget :=
  uses.foldl (Use.advance x U) none

/-- What a use sends after others. -/
def sentBy (before : List (Use V)) (u : Use V) : Option (HttpRequest V) :=
  (u.apply x W U C (after x W U C before)).1

/-- The HTTP client that sends the requests, where the pins are made for `t`. -/
def inForce (t : Ssrf.ValidatedTarget) : HttpClient :=
  x.client.getD ⟨activeTransport x t none⟩

end Runs

/-! ### What a client sends -/

section Sends

variable {V : Type} {x : ClientConfig} {W : HttpUrls V} {U : Unicode} {C : Container}
  {s : ClientState} {first : Option Ssrf.ValidatedTarget}

/-- The HTTP client is the caller's, or the one made for the first target. -/
def Kept (x : ClientConfig) (first : Option Ssrf.ValidatedTarget) (s : ClientState) : Prop :=
  s.client = (x.client <|> first.map (inForce x))

theorem kept_init : Kept x none x.init := by
  cases h : x.client <;> simp [Kept, ClientConfig.init, h]

theorem Kept.aclose (h : Kept x first s) : Kept x none (aclose x s) := by
  unfold Kept at h ⊢
  cases hx : x.client with
  | none => simp [Upstream.aclose, hx]
  | some c => simpa [Upstream.aclose, hx] using h

theorem Kept.rememberSecret (h : Kept x first s) (bearer : Option String) :
    Kept x first (rememberSecret bearer s) := by
  cases bearer with
  | none => exact h
  | some b =>
      unfold Upstream.rememberSecret
      dsimp only
      split <;> exact h

theorem activeTransport_orElse (t : Ssrf.ValidatedTarget) :
    (activeTransport x t none <|> x.defaultTransport) = activeTransport x t none := by
  unfold activeTransport
  cases x.defaultTransport with
  | none => simp
  | some d => simp

/-- The first accepted target decides with which client a request is sent. -/
theorem Kept.activeClient (h : Kept x first s) (t : Ssrf.ValidatedTarget) :
    (activeClient x t none none s).1 = inForce x (first.getD t) ∧
      Kept x (first <|> some t) (activeClient x t none none s).2 := by
  unfold Kept at h ⊢
  unfold Upstream.activeClient
  cases hx : x.client with
  | some c => simp [hx, h, inForce]
  | none =>
      cases first with
      | some ℓ => simp [hx, h, inForce]
      | none =>
          rw [hx] at h
          simp [h, hx, ensureClient, inForce, activeTransport_orElse]

/-- What one request sends, and what it leaves. -/
theorem Kept.exchange {α : Type} {m : Moment V} {verdict : Except Exn Ssrf.ValidatedTarget}
    {request : Option (HttpRequest V)} {bearer : Option String} {rejected : String → α}
    {read : List String → Except HttpxError HttpResponse → α} {c : Called α V}
    (h : Kept x first s)
    (hc : exchange x W m verdict request bearer none none rejected read s = c) :
    c.sent = (verdict.toOption.bind fun t =>
        request.map ((inForce x (first.getD t)).handle W)) ∧
      Kept x (first <|> verdict.toOption) c.state := by
  unfold Upstream.exchange at hc
  cases verdict with
  | error exc =>
      have hrest : c.sent = none ∧ c.state = s := by
        cases exc <;> subst hc <;> exact ⟨rfl, rfl⟩
      rw [hrest.1, hrest.2]
      exact ⟨rfl, by simpa [Except.toOption] using h⟩
  | ok t =>
      obtain ⟨hactive, hk⟩ := (h.rememberSecret bearer).activeClient t
      cases request with
      | none =>
          subst hc
          exact ⟨rfl, hk⟩
      | some r =>
          subst hc
          exact ⟨congrArg (fun a => some (HttpClient.handle W a r)) hactive, hk⟩

/-- What one use sends, and what it leaves. -/
theorem Use.apply_kept (h : Kept x first s) (u : Use V) :
    (u.apply x W U C s).1 = ((u.accepted x U).bind fun t =>
        (u.request x W).map ((inForce x (first.getD t)).handle W)) ∧
      Kept x (u.advance x U first) (u.apply x W U C s).2 := by
  cases u with
  | aclose => exact ⟨rfl, h.aclose⟩
  | call m request context bearer extraHeaders => exact h.exchange rfl
  | fetchResult m url bearer maxBytes => exact h.exchange rfl

theorem kept_after (uses : List (Use V)) : Kept x (leader x U uses) (after x W U C uses) := by
  induction uses using List.reverseRecOn with
  | nil => exact kept_init
  | append_singleton uses u ih =>
      simp only [leader, after, List.foldl_append, List.foldl_cons, List.foldl_nil]
      exact (Use.apply_kept ih u).2

/-- What a use sends: its own request, through the client of the first accepted target. -/
theorem sentBy_eq (before : List (Use V)) (u : Use V) :
    sentBy x W U C before u = (u.accepted x U).bind fun t =>
      (u.request x W).map ((inForce x ((leader x U before).getD t)).handle W) :=
  (Use.apply_kept (kept_after before) u).1

end Sends

/-! ### Where a request is carried -/

section Carried

variable {V : Type} (W : HttpUrls V)

/-- An address a request may be carried to, where the names resolve by `dns` at that moment. -/
def MayReach (dns : String → List String) (r : HttpRequest V) (ip : String) : Prop :=
  if (IpAddress.parse (W.host r.url).toList).isSome then ip = W.host r.url
  else ip ∈ dns (W.host r.url)

/-- Whatever the names resolve to by then, the request is carried to one of these addresses. -/
def StaysWithin (addresses : List String) (r : HttpRequest V) : Prop :=
  ∀ dns ip, MayReach W dns r ip → ip ∈ addresses

/-- The pins made for a target send a request for `v` to `ip`: the HTTP library reads the host of
the target in `v`, and can set its first address in its place. -/
def Pinned (t : Ssrf.ValidatedTarget) (v : V) (ip : String) : Prop :=
  W.host v = t.host ∧ t.addresses.head? = some ip ∧ (W.copyWithHost v ip).isSome = true

variable {W} {x : ClientConfig} {U : Unicode} {C : Container} {t first : Ssrf.ValidatedTarget}
  {r : HttpRequest V} {addresses : List String} {ip : String}

theorem staysWithin_iff : StaysWithin W addresses r ↔
    (IpAddress.parse (W.host r.url).toList).isSome = true ∧ W.host r.url ∈ addresses := by
  unfold StaysWithin MayReach
  by_cases hn : (IpAddress.parse (W.host r.url).toList).isSome = true
  · simp only [hn, if_true, true_and]
    exact ⟨fun h => h (fun _ => []) _ rfl, fun h _ ip hip => hip ▸ h⟩
  · obtain ⟨ip, hip⟩ := Infinite.exists_notMem_finset addresses.toFinset
    have hout : ip ∉ addresses := fun h => hip (List.mem_toFinset.mpr h)
    simp only [if_neg hn]
    exact ⟨fun h => absurd (h (fun _ => [ip]) ip (List.mem_singleton_self ip)) hout,
      fun h => absurd h.1 hn⟩

theorem Pinned.unique {v : V} {ip' : String} (h : Pinned W t v ip) (h' : Pinned W t v ip') :
    ip = ip' := Option.some.inj (h.2.1.symm.trans h'.2.1)

/-- A pinned request goes to its address, and asks for a certificate of its host. -/
theorem pinRequest_of_pinned (h : Pinned W t r.url ip) :
    ∃ v, W.copyWithHost r.url ip = some v ∧
      (pinRequest W [(t.host, t.addresses)] r).url = v ∧
      (pinRequest W [(t.host, t.addresses)] r).sniHostname = some (W.host r.url) := by
  obtain ⟨hhost, hhead, hcopy⟩ := h
  obtain ⟨v, hv⟩ := Option.isSome_iff_exists.mp hcopy
  obtain ⟨rest, haddresses⟩ := List.head?_eq_some_iff.mp hhead
  have hlookup : [(t.host, t.addresses)].lookup (W.host r.url) = some (ip :: rest) := by
    rw [hhost, haddresses, List.lookup_cons_self]
  refine ⟨v, hv, ?_, ?_⟩ <;> simp [pinRequest, hlookup, hv]

/-- Any other request goes out as it is. -/
theorem pinRequest_of_not_pinned (h : ¬ ∃ ip, Pinned W t r.url ip) :
    pinRequest W [(t.host, t.addresses)] r = r := by
  by_cases hhost : W.host r.url = t.host
  · cases haddresses : t.addresses with
    | nil => simp only [pinRequest, hhost, List.lookup_cons_self]
    | cons ip rest =>
        have hcopy : W.copyWithHost r.url ip = none := by
          by_contra hne
          exact h ⟨ip, hhost, by rw [haddresses, List.head?_cons],
            Option.isSome_iff_ne_none.mpr hne⟩
        simp only [pinRequest, hhost, List.lookup_cons_self, hcopy]
  · have hlookup : [(t.host, t.addresses)].lookup (W.host r.url) = none := by
      simp [List.lookup_cons, beq_false_of_ne hhost]
    simp only [pinRequest, hlookup]

/-- Where a request goes that the pins of a target are asked about. -/
theorem staysWithin_pinRequest_iff
    (hnumeric : ∀ ip ∈ t.addresses, (IpAddress.parse ip.toList).isSome = true) :
    StaysWithin W addresses (pinRequest W [(t.host, t.addresses)] r) ↔
      (∃ ip ∈ addresses, Pinned W t r.url ip) ∨
        (¬ ∃ ip, Pinned W t r.url ip) ∧ StaysWithin W addresses r := by
  by_cases hp : ∃ ip, Pinned W t r.url ip
  · obtain ⟨ip, hip⟩ := hp
    obtain ⟨v, hv, hurl, -⟩ := pinRequest_of_pinned hip
    have hparse := hnumeric ip (List.mem_of_head? hip.2.1)
    rw [staysWithin_iff, hurl, W.host_copyWithHost hparse hv]
    constructor
    · exact fun h => .inl ⟨ip, h.2, hip⟩
    · rintro (⟨ip', hmem, hip'⟩ | ⟨hn, -⟩)
      · exact ⟨hparse, hip.unique hip' ▸ hmem⟩
      · exact absurd ⟨ip, hip⟩ hn
  · rw [pinRequest_of_not_pinned hp]
    constructor
    · exact fun h => .inr ⟨hp, h⟩
    · rintro (⟨ip, -, hip⟩ | ⟨-, h⟩)
      · exact absurd ⟨ip, hip⟩ hp
      · exact h

/-- What a check that resolves accepts: a target with addresses, none of them internal where its
host is not on the allowlist. -/
theorem verdict_eq_ok {m : Moment V} {denyPrivate : Bool} {url : String}
    (h : verdict x U m denyPrivate url = .ok t) :
    t.addresses ≠ [] ∧ (∀ ip ∈ t.addresses, (IpAddress.parse ip.toList).isSome = true) ∧
      (t.allowlisted = false → ∀ ip ∈ t.addresses, Ssrf.isForbiddenIp ip = false) := by
  obtain ⟨t', infos, -, hinfos, hnil, hok, rfl⟩ := (Ssrf.validateTarget_eq_ok rfl).mp h
  have hmem : ∀ ip, ip ∈ infos.dedup.insertionSort (· ≤ ·) ↔ ip ∈ infos := by
    simp [List.mem_insertionSort, List.mem_dedup]
  obtain ⟨ip, hip⟩ := List.exists_mem_of_ne_nil infos hnil
  refine ⟨List.ne_nil_of_mem ((hmem ip).mpr hip), fun ip hip => ?_, fun hn ip hip => ?_⟩
  · exact m.numeric _ _ _ hinfos ip ((hmem ip).mp hip)
  · have hoff : t'.allowlisted = false := hn
    exact hok.resolve_left (by simp [hoff]) ip ((hmem ip).mp hip)

theorem Use.accepted_spec {u : Use V} (h : u.accepted x U = some t) :
    t.addresses ≠ [] ∧ (∀ ip ∈ t.addresses, (IpAddress.parse ip.toList).isSome = true) ∧
      (t.allowlisted = false → ∀ ip ∈ t.addresses, Ssrf.isForbiddenIp ip = false) := by
  have hok : ∀ {v : Except Exn Ssrf.ValidatedTarget}, v.toOption = some t → v = .ok t := by
    intro v hv
    cases v with
    | error exc => cases hv
    | ok t' => exact congrArg _ (Option.some.inj hv)
  cases u with
  | call m request context bearer extraHeaders => exact verdict_eq_ok (hok h)
  | fetchResult m url bearer maxBytes => exact verdict_eq_ok (hok h)
  | aclose => cases h

/-- The first accepted target is one that was accepted. -/
theorem accepted_of_leader {uses : List (Use V)} (h : leader x U uses = some first) :
    ∃ u ∈ uses, u.accepted x U = some first := by
  induction uses using List.reverseRecOn with
  | nil => cases h
  | append_singleton uses u ih =>
      have hadvance : Use.advance x U (leader x U uses) u = some first := by
        simpa only [leader, List.foldl_append, List.foldl_cons, List.foldl_nil] using h
      cases hl : leader x U uses with
      | some ℓ =>
          have hℓ : ℓ = first := by
            cases u <;> simp [Use.advance, hl] at hadvance <;> exact hadvance
          obtain ⟨u', hu', ha⟩ := ih (hℓ ▸ hl)
          exact ⟨u', List.mem_append_left _ hu', ha⟩
      | none =>
          refine ⟨u, by simp, ?_⟩
          cases u <;> simp [Use.advance, hl] at hadvance <;> exact hadvance

theorem leader_append {before : List (Use V)} {u : Use V} (h : u.accepted x U = some t) :
    leader x U (before ++ [u]) = some ((leader x U before).getD t) := by
  simp only [leader, List.foldl_append, List.foldl_cons, List.foldl_nil]
  cases u with
  | aclose => cases h
  | call m request context bearer extraHeaders =>
      cases hl : before.foldl (Use.advance x U) none <;> simp [Use.advance, h]
  | fetchResult m url bearer maxBytes =>
      cases hl : before.foldl (Use.advance x U) none <;> simp [Use.advance, h]

/-- The client pins: it makes its HTTP client itself, and nothing gives it a transport. -/
structure Pinning (x : ClientConfig) : Prop where
  pinDns : x.pinDns = true
  defaultTransport : x.defaultTransport = none
  client : x.client = none

theorem Pinning.inForce (h : Pinning x) (ht : t.addresses ≠ []) :
    inForce x t = ⟨some (.pinned [(t.host, t.addresses)])⟩ := by
  simp [Upstream.inForce, activeTransport, h.pinDns, h.defaultTransport, h.client, ht]

/-- The target whose pins a request goes by is one that was accepted, the request's own where the
client has sent nothing since it was closed. -/
theorem Pinning.carried (h : Pinning x) {before : List (Use V)} {u : Use V}
    (hsent : sentBy x W U C before u = some r) :
    ∃ t q, u.accepted x U = some t ∧ u.request x W = some q ∧
      ∀ addresses, StaysWithin W addresses r ↔
        (∃ ip ∈ addresses, Pinned W ((leader x U before).getD t) q.url ip) ∨
          (¬ ∃ ip, Pinned W ((leader x U before).getD t) q.url ip) ∧
            StaysWithin W addresses q := by
  rw [sentBy_eq] at hsent
  obtain ⟨t, ht, hr⟩ := Option.bind_eq_some_iff.mp hsent
  obtain ⟨q, hq, rfl⟩ := Option.map_eq_some_iff.mp hr
  obtain ⟨u', -, hu'⟩ := accepted_of_leader (leader_append ht : leader x U (before ++ [u]) = _)
  obtain ⟨hnil, hnumeric, -⟩ := Use.accepted_spec hu'
  refine ⟨t, q, ht, hq, fun addresses => ?_⟩
  rw [h.inForce hnil]
  exact staysWithin_pinRequest_iff hnumeric

end Carried

/-- **Where a request is carried**: it stays within the addresses its own check saw, whatever the
names resolve to by then, exactly where the pins of the target accepted first since the last
closing send it to one of them, or where these pins have nothing on it and its host is such an
address itself. -/
theorem stays_within_iff {V : Type} (x : ClientConfig) (W : HttpUrls V) (U : Unicode)
    (C : Container) (before : List (Use V)) (u : Use V) {r : HttpRequest V} (hx : Pinning x)
    (hsent : sentBy x W U C before u = some r) :
    ∃ first t q, leader x U (before ++ [u]) = some first ∧ u.accepted x U = some t ∧
      u.request x W = some q ∧
      (t.allowlisted = false → ∀ ip ∈ t.addresses, Ssrf.isForbiddenIp ip = false) ∧
      (StaysWithin W t.addresses r ↔
        (∃ ip ∈ t.addresses, Pinned W first q.url ip) ∨
          (¬ ∃ ip, Pinned W first q.url ip) ∧
            (IpAddress.parse (W.host q.url).toList).isSome = true ∧
              W.host q.url ∈ t.addresses) := by
  obtain ⟨t, q, ht, hq, hcarried⟩ := hx.carried hsent
  refine ⟨_, t, q, leader_append ht, ht, hq, (Use.accepted_spec ht).2.2, ?_⟩
  rw [hcarried, staysWithin_iff]

/-! ### A client that is shared -/

/-- A library that reads in a URL of `https` the text behind the scheme. -/
def bareHosts : HttpUrls String where
  ofText url := some (String.ofList (url.toList.drop 8))
  scheme _ := "https"
  host := id
  port _ := none
  copyWithHost _ ip := some ip
  host_copyWithHost _ h := (Option.some.inj h).symm

/-- A resolver with one address for every name, and an upstream that answers nothing. -/
def quietMoment : Moment String where
  getaddrinfo _ _ := .ok ["93.184.216.34"]
  numeric := by
    rintro host port infos ⟨⟩ ip hip
    rw [List.mem_singleton.mp hip]
    rfl
  answer _ := .error ⟨.timeoutException, "ReadTimeout: "⟩
  now := 0

def quietCall (url : String) : Use String :=
  .call quietMoment { method := "GET", url := url } .poll none []

def bareContainer : Container where
  registry _ _ := none
  joinUrl _ path := .ok path

/-- **A client shared by two hosts lets the second request go wherever its name leads by then.** -/
theorem shared_client_strays : ∃ r, sentBy {} bareHosts Ssrf.asciiTables bareContainer
    [quietCall "https://a.example"] (quietCall "https://b.example") = some r ∧
      ¬ StaysWithin bareHosts ["93.184.216.34"] r := by
  refine ⟨{ method := "GET", url := "b.example" }, rfl, ?_⟩
  obtain ⟨first, t, q, hfirst, ht, hq, -, hiff⟩ := stays_within_iff {} bareHosts Ssrf.asciiTables
    bareContainer [quietCall "https://a.example"] (quietCall "https://b.example")
    (r := { method := "GET", url := "b.example" }) ⟨rfl, rfl, rfl⟩ rfl
  obtain rfl : ⟨"https://a.example", "https", "a.example", 443, ["93.184.216.34"], false⟩ = first :=
    Option.some.inj hfirst
  obtain rfl : ⟨"https://b.example", "https", "b.example", 443, ["93.184.216.34"], false⟩ = t :=
    Option.some.inj ht
  obtain rfl : { method := "GET", url := "b.example" } = q := Option.some.inj hq
  rw [hiff]
  rintro (⟨ip, -, hhost, -⟩ | ⟨-, hparse, -⟩)
  · exact absurd hhost (by decide)
  · exact absurd hparse (by decide)

/-! ### Behind the handlers -/

section Handlers

variable {V : Type} (x : ClientConfig) (W : HttpUrls V) (U : Unicode) (C : Container)

/-- What a handler's request has come to: the target that was accepted, the request that was
sent. -/
structure Line (V : Type) where
  target : Option Ssrf.ValidatedTarget := none
  sent : Option (HttpRequest V) := none

/-- The check, as a handler is answered. -/
def Line.check (m : Moment V) (denyPrivate : Bool) (url : String) (line : Line V) :
    Except Exn (Option String) × Line V :=
  match verdict x U m denyPrivate url with
  | .ok t => (.ok none, { line with target := some t })
  | .error (.ssrfViolation exc) => (.ok (some exc), line)
  | .error exc => (.error exc, line)

/-- A request is sent to the target that was accepted. -/
def Line.send (request : Option (HttpRequest V)) (line : Line V) : Except Exn Unit × Line V :=
  match line.target, request with
  | some t, some r => (.ok (), { line with sent := some ((inForce x t).handle W r) })
  | _, _ => (.error (.infrastructure "InvalidURL"), line)

def Line.recv (m : Moment V) (line : Line V) : Except Exn (Except HttpxError HttpResponse) :=
  match line.sent with
  | some r => .ok (m.answer r)
  | none => .error (.infrastructure "RuntimeError")

/-- What a handler asks for a request, answered by a client that is made for it. -/
def served (m : Moment V) (denyPrivate : Bool)
    (ofRendered : RenderedRequest → Option (HttpRequest V)) :
    (o : Op) → Line V → Except Exn o.Ans × Line V
  | .validateTarget url, line => line.check x U m denyPrivate url
  | .send _ request, line => line.send x W (ofRendered request)
  | .recv _, line => (line.recv m, line)
  | .now, line => (.ok m.now, line)
  | _, line => (.error (.infrastructure "RuntimeError"), line)

/-- `upstream_client(bearer)`, before its first request. -/
def ClientConfig.made (bearer : Option String) : ClientState := rememberSecret bearer x.init

variable {x W U C} {t : Ssrf.ValidatedTarget}

theorem kept_made (bearer : Option String) : Kept x none (x.made bearer) :=
  kept_init.rememberSecret bearer

/-- The client knows the credential once, however often it is told. -/
theorem rememberSecret_made {bearer : Option String} (hb : bearer ≠ some "") :
    (rememberSecret bearer (x.made bearer)).secrets = bearer.toList := by
  cases bearer with
  | none => rfl
  | some b =>
      have hne : b ≠ "" := fun h => hb (by rw [h])
      simp [ClientConfig.made, ClientConfig.init, rememberSecret, hne]

theorem activeClient_made (t : Ssrf.ValidatedTarget) (bearer : Option String) :
    (activeClient x t none none (rememberSecret bearer (x.made bearer))).1 = inForce x t :=
  (((kept_made bearer).rememberSecret bearer).activeClient t).1

/-- The HTTP client is made without the secrets being touched. -/
theorem activeClient_secrets (t : Ssrf.ValidatedTarget) (s : ClientState) :
    (activeClient x t none none s).2.secrets = s.secrets := by
  unfold activeClient
  cases hs : s.client <;> simp [ensureClient, hs]

theorem run_ask {α σ : Type} {serve : (o : Op) → σ → Except Exn o.Ans × σ} {o : Op}
    {f : o.Ans → Handler α} {s s' : σ} {a : o.Ans} (h : serve o s = (.ok a, s')) :
    ((ask o).bind f).run serve s = (f a).run serve s' := by
  rw [Prog.run_bind, ask, Prog.run_perform, h]

theorem run_ask_error {α σ : Type} {serve : (o : Op) → σ → Except Exn o.Ans × σ} {o : Op}
    {f : o.Ans → Handler α} {s s' : σ} {exc : Exn} (h : serve o s = (.error exc, s')) :
    ((ask o).bind f).run serve s = (.error exc, s') := by
  rw [Prog.run_bind, ask, Prog.run_perform, h]

variable {m : Moment V} {denyPrivate : Bool} {ofRendered : RenderedRequest → Option (HttpRequest V)}
  {line : Line V}

theorem served_accepted {url : String} (h : verdict x U m denyPrivate url = .ok t) :
    served x W U m denyPrivate ofRendered (.validateTarget url) line =
      (.ok none, { line with target := some t }) := by
  show line.check x U m denyPrivate url = _
  unfold Line.check
  rw [h]
  rfl

theorem served_violation {url exc : String}
    (h : verdict x U m denyPrivate url = .error (.ssrfViolation exc)) :
    served x W U m denyPrivate ofRendered (.validateTarget url) line = (.ok (some exc), line) := by
  show line.check x U m denyPrivate url = _
  unfold Line.check
  rw [h]
  rfl

theorem served_failed {url : String} {exc : Exn} (h : verdict x U m denyPrivate url = .error exc)
    (hexc : ∀ text, exc ≠ .ssrfViolation text) :
    served x W U m denyPrivate ofRendered (.validateTarget url) line = (.error exc, line) := by
  show line.check x U m denyPrivate url = _
  unfold Line.check
  rw [h]
  cases exc <;> first | rfl | exact absurd rfl (hexc _)

theorem served_unsent {purpose : Purpose} {request : RenderedRequest}
    (h : ofRendered request = none) :
    served x W U m denyPrivate ofRendered (.send purpose request) line =
      (.error (.infrastructure "InvalidURL"), line) := by
  show line.send x W (ofRendered request) = _
  rw [h]
  cases htarget : line.target <;> simp only [Line.send, htarget] <;> rfl

theorem served_sent {purpose : Purpose} {request : RenderedRequest} {r : HttpRequest V}
    (h : ofRendered request = some r) (ht : line.target = some t) :
    served x W U m denyPrivate ofRendered (.send purpose request) line =
      (.ok (), { line with sent := some ((inForce x t).handle W r) }) := by
  show line.send x W (ofRendered request) = _
  rw [h]
  simp only [Line.send, ht]
  rfl

theorem served_answered {purpose : Purpose} {r : HttpRequest V} (h : line.sent = some r) :
    served x W U m denyPrivate ofRendered (.recv purpose) line = (.ok (m.answer r), line) := by
  show (line.recv m, line) = _
  simp only [Line.recv, h]
  rfl

theorem exchange_error {α : Type} {request : Option (HttpRequest V)} {bearer : Option String}
    {rejected : String → α} {read : List String → Except HttpxError HttpResponse → α}
    {s : ClientState} {exc : Exn} (hexc : ∀ text, exc ≠ .ssrfViolation text) :
    exchange x W m (.error exc) request bearer none none rejected read s =
      ⟨.error exc, none, s⟩ := by
  cases exc <;> first | rfl | exact absurd rfl (hexc _)

theorem exchange_made {α : Type} {r : HttpRequest V} {bearer : Option String}
    {rejected : String → α} {read : List String → Except HttpxError HttpResponse → α}
    {c : Called α V} (hb : bearer ≠ some "")
    (hc : exchange x W m (.ok t) (some r) bearer none none rejected read (x.made bearer) = c) :
    c.result = .ok (read bearer.toList (m.answer ((inForce x t).handle W r))) ∧
      c.sent = some ((inForce x t).handle W r) := by
  subst hc
  simp only [exchange, activeClient_made, activeClient_secrets, rememberSecret_made hb, and_self]

/-- A request as the handlers make it: the check, then the request, then what is read in the
answer. -/
def asked {α : Type} (purpose : Purpose) (request : RenderedRequest) (rejected : String → α)
    (read : Except HttpxError HttpResponse → Handler α) : Handler α := do
  match ← ask (.validateTarget request.url) with
  | some violation => pure (rejected violation)
  | none => do
      ask (.send purpose request)
      let answer ← ask (.recv purpose)
      read answer

theorem call_eq_asked {purpose : Purpose} {request : RenderedRequest} {context : Context}
    {bearer : Option String} : UpstreamClient.call C purpose request context bearer =
      asked purpose request (fun exc => { outcome := .ssrfRejected, error := some exc })
        (fun answer => match answer with
          | .error exc => pure (UpstreamClient.ofHttpxError context exc)
          | .ok response => do
              let now ← now_
              pure (UpstreamClient.ofResponse C bearer.toList context now response)) := by
  refine congrArg (Prog.bind (ask (.validateTarget request.url))) (funext fun violation => ?_)
  cases (violation : Option String) with
  | some _ => rfl
  | none =>
      refine congrArg (Prog.bind (ask (.send purpose request))) (funext fun _ =>
        congrArg (Prog.bind (ask (.recv purpose))) (funext fun answer => ?_))
      cases (answer : Except HttpxError HttpResponse) <;> rfl

theorem fetchResult_eq_asked {url : String} : AsyncGateway.fetchResult C url =
    asked .result { method := "GET", url := url } .ssrfRejected fun answer => match answer with
      | .error exc => pure (.transport exc.text)
      | .ok response =>
          if ¬ (200 ≤ response.statusCode ∧ response.statusCode < 300) then
            pure (.http response.statusCode)
          else if C.resultMaxBytes < response.content.length then
            pure (.tooLarge response.content.length C.resultMaxBytes)
          else pure (.body response.content) := by
  refine congrArg (Prog.bind (ask (.validateTarget url))) (funext fun violation => ?_)
  cases (violation : Option String) with
  | some _ => rfl
  | none =>
      refine congrArg (Prog.bind (ask (.send .result { method := "GET", url := url })))
        (funext fun _ => congrArg (Prog.bind (ask (.recv .result))) (funext fun answer => ?_))
      cases (answer : Except HttpxError HttpResponse) <;> rfl

theorem run_asked {α : Type} {purpose : Purpose} {request : RenderedRequest}
    {rejected : String → α} {read : Except HttpxError HttpResponse → Handler α}
    {readIn : List String → Except HttpxError HttpResponse → α} {bearer : Option String}
    {c : Called α V} (hb : bearer ≠ some "")
    (hread : ∀ answer line, (read answer).run (served x W U m denyPrivate ofRendered) line =
      (.ok (readIn bearer.toList answer), line))
    (hc : exchange x W m (verdict x U m denyPrivate request.url) (ofRendered request) bearer none
      none rejected readIn (x.made bearer) = c) :
    ∃ line, (asked purpose request rejected read).run (served x W U m denyPrivate ofRendered) {} =
      (c.result, line) ∧ line.sent = c.sent := by
  unfold asked
  simp only [bind]
  cases hv : verdict x U m denyPrivate request.url with
  | error exc =>
      rw [hv] at hc
      by_cases hexc : ∀ text, exc ≠ .ssrfViolation text
      · rw [exchange_error hexc] at hc
        subst hc
        exact ⟨{}, run_ask_error (served_failed hv hexc), rfl⟩
      · obtain ⟨text, htext⟩ := not_forall.mp hexc
        obtain rfl := not_not.mp htext
        subst hc
        refine ⟨{}, ?_, rfl⟩
        rw [run_ask (served_violation hv)]
        rfl
  | ok t =>
      rw [hv] at hc
      rw [run_ask (served_accepted hv)]
      cases hr : ofRendered request with
      | none =>
          rw [hr] at hc
          subst hc
          exact ⟨{ target := some t }, run_ask_error (served_unsent hr), rfl⟩
      | some r =>
          rw [hr] at hc
          obtain ⟨hresult, hsent⟩ := exchange_made hb hc
          refine ⟨{ target := some t, sent := some ((inForce x t).handle W r) }, ?_, ?_⟩
          · refine (run_ask (served_sent hr rfl)).trans ((run_ask (served_answered rfl)).trans ?_)
            rw [hread, hresult]
          · exact hsent.symm

/-- The request of a client that is made for it stays within the addresses the check saw, where the
HTTP library reads the host that was checked, or one of the addresses. -/
theorem Pinning.alone {α : Type} (h : Pinning x) {url : String} {request : Option (HttpRequest V)}
    {rejected : String → α} {read : List String → Except HttpxError HttpResponse → α}
    {bearer : Option String} {c : Called α V} {r : HttpRequest V}
    (hc : exchange x W m (verdict x U m denyPrivate url) request bearer none none rejected read
      (x.made bearer) = c) (hsent : c.sent = some r) :
    ∃ t q, verdict x U m denyPrivate url = .ok t ∧ request = some q ∧
      (StaysWithin W t.addresses r ↔
        (∃ ip, Pinned W t q.url ip) ∨ StaysWithin W t.addresses q) := by
  rw [((kept_made bearer).exchange hc).1] at hsent
  obtain ⟨t, ht, hr⟩ := Option.bind_eq_some_iff.mp hsent
  obtain ⟨q, hq, rfl⟩ := Option.map_eq_some_iff.mp hr
  cases hv : verdict x U m denyPrivate url with
  | error exc => simp [hv, Except.toOption] at ht
  | ok t' =>
      obtain rfl : t' = t := by simpa [hv, Except.toOption] using ht
      obtain ⟨hnil, hnumeric, -⟩ := verdict_eq_ok hv
      refine ⟨t', q, rfl, hq, ?_⟩
      rw [Option.getD_none, h.inForce hnil]
      refine (staysWithin_pinRequest_iff hnumeric).trans ⟨?_, ?_⟩
      · rintro (⟨ip, -, hip⟩ | ⟨-, hq⟩)
        · exact .inl ⟨ip, hip⟩
        · exact .inr hq
      · intro hor
        by_cases hp : ∃ ip, Pinned W t' q.url ip
        · obtain ⟨ip, hip⟩ := hp
          exact .inl ⟨ip, List.mem_of_head? hip.2.1, hip⟩
        · exact .inr ⟨hp, hor.resolve_left hp⟩

end Handlers

/-- **A client made for one request** answers it as the handlers are answered, and sends what they
ask to be sent; with the pins on, what it sends is carried to nothing but addresses its check saw,
exactly where the HTTP library reads the host that was checked, or an address of it. -/
theorem answered_as_asked {V : Type} (x : ClientConfig) (W : HttpUrls V) (U : Unicode)
    (C : Container) (m : Moment V) {bearer : Option String} (hb : bearer ≠ some "")
    (hbytes : C.resultMaxBytes = x.maxResultBytes) :
    (∀ purpose request context c,
      call x W U C m request context bearer [] none none (x.made bearer) = c →
      (∃ line, (UpstreamClient.call C purpose request context bearer).run
        (served x W U m x.ssrfDenyPrivate fun q => callRequest x W q bearer []) {} =
          (c.result, line) ∧ line.sent = c.sent) ∧
      ∀ r, Pinning x → c.sent = some r → ∃ t q,
        verdict x U m x.ssrfDenyPrivate request.url = .ok t ∧
        callRequest x W request bearer [] = some q ∧
        (StaysWithin W t.addresses r ↔
          (∃ ip, Pinned W t q.url ip) ∨ StaysWithin W t.addresses q)) ∧
    ∀ url c, fetchResult x W U m url bearer none none (x.made bearer) = c →
      (∃ line, (AsyncGateway.fetchResult C url).run
        (served x W U m true fun q => fetchRequest x W q.url bearer) {} =
          (c.result, line) ∧ line.sent = c.sent) ∧
      ∀ r, Pinning x → c.sent = some r → ∃ t q,
        verdict x U m true url = .ok t ∧ fetchRequest x W url bearer = some q ∧
        (StaysWithin W t.addresses r ↔
          (∃ ip, Pinned W t q.url ip) ∨ StaysWithin W t.addresses q) := by
  refine ⟨fun purpose request context c hc => ⟨?_, fun r hx hsent => hx.alone hc hsent⟩,
    fun url c hc => ⟨?_, fun r hx hsent => hx.alone hc hsent⟩⟩
  · rw [call_eq_asked]
    refine run_asked hb (fun answer line => ?_) hc
    cases answer <;> rfl
  · rw [fetchResult_eq_asked]
    refine run_asked hb (fun answer line => ?_) hc
    cases answer with
    | error exc => rfl
    | ok response =>
        simp only [hbytes, Option.filter_none, Option.getD_none]
        split
        · rfl
        · split <;> rfl

theorem quiet_call_pinned : ∃ r,
    (call {} bareHosts Ssrf.asciiTables bareContainer quietMoment
      { method := "GET", url := "https://a.example" } .poll (some "key") [] none none
      (ClientConfig.made {} (some "key"))).sent = some r ∧ r.url = "93.184.216.34" ∧
      r.headers = [("Authorization", "key"), ("Host", "a.example")] ∧
      StaysWithin bareHosts ["93.184.216.34"] r := by
  obtain ⟨hcall, -⟩ := answered_as_asked {} bareHosts Ssrf.asciiTables bareContainer quietMoment
    (show some "key" ≠ some "" by decide) rfl
  obtain ⟨-, hstays⟩ := hcall .poll { method := "GET", url := "https://a.example" } .poll _ rfl
  refine ⟨_, rfl, rfl, rfl, ?_⟩
  obtain ⟨t, q, ht, hq, hiff⟩ := hstays _ ⟨rfl, rfl, rfl⟩ rfl
  obtain rfl : ⟨"https://a.example", "https", "a.example", 443, ["93.184.216.34"], false⟩ = t :=
    Except.ok.inj ht
  obtain rfl : { method := "GET", url := "a.example", headers := [("Authorization", "key")] } = q :=
    Option.some.inj hq
  exact hiff.mpr (.inl ⟨"93.184.216.34", rfl, rfl, rfl⟩)

end Upstream

end AsyncGateway
