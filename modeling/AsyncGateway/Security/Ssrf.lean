import AsyncGateway.Domain.Errors
import AsyncGateway.Lib.Prog
import AsyncGateway.Lib.Text
import AsyncGateway.Lib.Url
import Mathlib.Data.List.Dedup
import Mathlib.Data.List.Sort

/-!
# Security — the targets of outgoing requests

A request goes out only to a URL that `validateTarget` accepts: its scheme is allowed, it carries
no credentials, its host is resolved, and a host that is not on the allowlist has no address that
is internal or reserved.  `avalidateTarget` is the same check with the resolution awaited.

The addresses of the metadata services are to be refused whatever the allowlist says.  The check
compares them with the name of a host only, so a name on the allowlist is accepted with such an
address where it resolves to one; `denied_never_accepted_iff` says exactly when that does not
happen.
-/

namespace AsyncGateway

open Interleave (Sig Prog)

namespace Ssrf

/-- `ALWAYS_DENY_IPS`. -/
def alwaysDenyIps : List String :=
  ["169.254.169.254", "100.100.100.200", "169.254.170.2", "fd00:ec2::254"]

/-- `DENY_PORTS`. -/
def denyPorts : List ℕ := [22, 23, 25, 111, 445, 1433, 3306, 5432, 6379, 9200, 11211, 27017]

structure ValidatedTarget where
  url : String
  scheme : String
  host : String
  port : ℕ
  addresses : List String
  allowlisted : Bool := false

/-- The settings of the checks. -/
structure Settings where
  ssrfAllowHosts : List String := []
  ssrfAllowSchemes : List String := ["https", "http"]

/-- The arguments of a check; a list that is absent is the one of the settings. -/
structure Args where
  allowHosts : Option (List String) := none
  allowSchemes : Option (List String) := none
  denyPrivate : Bool := true
  resolve : Bool := true

/-- `socket.getaddrinfo`: the addresses of a host, or the text of an `OSError`. -/
abbrev Resolver := String → ℕ → Except String (List String)

/-- `repr` of a text without quotes and escapes. -/
def quoted (s : String) : String := "'" ++ s ++ "'"

/-- `str` of a list of such texts. -/
def listed (xs : List String) : String := "[" ++ ", ".intercalate (xs.map quoted) ++ "]"

section Checks

variable (U : Unicode)

def lower (s : String) : String := String.ofList (U.lower s.toList)

/-- `_parse`. -/
def parse (url : String) : Except Exn (String × String × ℕ) :=
  match Url.urlsplit U url.toList with
  | none => .error (.infrastructure "ValueError")
  | some parts =>
      let scheme := lower U (String.ofList parts.scheme)
      if scheme ∉ ["http", "https"] then
        .error (.ssrfViolation
          ("仅允许 http/https，收到 scheme=" ++ quoted (String.ofList parts.scheme)))
      else if parts.userinfo.1 ≠ [] ∨ parts.userinfo.2 ≠ [] then
        .error (.ssrfViolation "URL 内禁止携带凭证")
      else
        let host := lower U (String.ofList (parts.hostname U))
        if host = "" then .error (.ssrfViolation "URL 缺少主机名")
        else match parts.port with
          | none => .error (.infrastructure "ValueError")
          | some port =>
              .ok (scheme, host,
                (port.filter (· ≠ 0)).getD (if scheme = "https" then 443 else 80))

/-- `_host_allowlisted`. -/
def hostAllowlisted (host : String) (allowHosts : List String) : Bool :=
  let host := lower U host
  if host ∈ alwaysDenyIps then false
  else allowHosts.any fun allowed =>
    let host := host.toList
    let allowed := Text.strip (U.lower allowed.toList)
    if allowed = [] then false
    else if "*.".toList.isPrefixOf allowed then (allowed.drop 1).isSuffixOf host
    else host == allowed || ('.' :: allowed).isSuffixOf host

end Checks

/-! ### Addresses -/

def inDenyList (addr : IpAddress) : Bool := decide (String.ofList addr.str ∈ alwaysDenyIps)

/-- `is_forbidden_ip` of an IPv4 address. -/
def isForbidden4 (ip : BitVec 32) : Bool :=
  let addr := IpAddress.v4 ip
  inDenyList addr || addr.isPrivate || addr.isLoopback || addr.isLinkLocal || addr.isMulticast ||
    addr.isReserved || addr.isUnspecified

/-- `is_forbidden_ip` of an address. -/
def isForbiddenAddress : IpAddress → Bool
  | .v4 ip => isForbidden4 ip
  | .v6 ip scopeId =>
      let addr := IpAddress.v6 ip scopeId
      inDenyList addr ||
        match IpAddress.mapped ip with
        | some ip => isForbidden4 ip
        | none =>
            (IpAddress.block6 [0xfc00] 7).contains ip ||
              (IpAddress.block6 [0xfe80] 10).contains ip || addr.isPrivate || addr.isLoopback ||
              addr.isLinkLocal || addr.isMulticast || addr.isReserved || addr.isUnspecified

/-- `is_forbidden_ip`; a text that is no address is forbidden. -/
def isForbiddenIp (ip : String) : Bool :=
  match IpAddress.parse ip.toList with
  | none => true
  | some addr => isForbiddenAddress addr

/-- The addresses the deny list names. -/
def deniedAddresses : List IpAddress := alwaysDenyIps.filterMap fun s => IpAddress.parse s.toList

/-- The text is an address of the deny list, in the form of an IPv4 address or in that of an IPv6
address it is mapped to. -/
def IsDenied (ip : String) : Prop :=
  ∃ addr, IpAddress.parse ip.toList = some addr ∧ addr.plain ∈ deniedAddresses

theorem deniedAddresses_eq : deniedAddresses =
    [.v4 0xa9fea9fe, .v4 0x646464c8, .v4 0xa9feaa02,
      .v6 0xfd000ec2000000000000000000000254 none] := by
  decide

theorem isForbidden4_of_mem {ip : BitVec 32} (h : IpAddress.v4 ip ∈ deniedAddresses) :
    isForbidden4 ip = true := by
  rw [deniedAddresses_eq] at h
  simp only [List.mem_cons, IpAddress.v4.injEq, reduceCtorEq, List.not_mem_nil, or_false] at h
  rcases h with rfl | rfl | rfl <;> decide

/-- An address of the deny list is forbidden, in whatever form. -/
theorem IsDenied.isForbidden {ip : String} (h : IsDenied ip) : isForbiddenIp ip = true := by
  obtain ⟨addr, hparse, hplain⟩ := h
  rw [isForbiddenIp, hparse]
  cases addr with
  | v4 ip => exact isForbidden4_of_mem hplain
  | v6 ip scopeId =>
      rw [IpAddress.plain] at hplain
      simp only [isForbiddenAddress, Bool.or_eq_true]
      cases hm : IpAddress.mapped ip with
      | some ip =>
          rw [hm] at hplain
          exact .inr (isForbidden4_of_mem hplain)
      | none =>
          rw [hm, deniedAddresses_eq] at hplain
          simp only [List.mem_cons, IpAddress.v6.injEq, reduceCtorEq, List.not_mem_nil, or_false,
            false_or, and_true] at hplain
          have hula : (IpAddress.block6 [0xfc00] 7).contains ip = true := by
            rw [hplain]
            decide
          simp [hula]

/-! ### The checks -/

/-- What becomes of the answer of the resolver. -/
def addressesOf (host : String) : Except String (List String) → Except Exn (List String)
  | .error exc => .error (.ssrfViolation ("DNS 解析失败：" ++ host ++ "（" ++ exc ++ "）"))
  | .ok infos => .ok (infos.dedup.insertionSort (· ≤ ·))

def resolveAddresses (getaddrinfo : Resolver) (host : String) (port : ℕ) :
    Except Exn (List String) :=
  addressesOf host (getaddrinfo host port)

/-- What the event loop is asked for. -/
inductive LoopOp : Type where
  | getaddrinfo (host : String) (port : ℕ)

abbrev loopSig : Sig where
  Op := LoopOp
  Ans := fun _ => Except String (List String)

/-- `resolve_addresses_async`. -/
def resolveAddressesAsync (host : String) (port : ℕ) : Prog loopSig Exn (List String) := do
  let infos ← Prog.perform (S := loopSig) (.getaddrinfo host port)
  Prog.ofExcept (addressesOf host infos)

section Validate

variable (U : Unicode) (settings : Settings) (args : Args)

def Args.hosts : List String := args.allowHosts.getD settings.ssrfAllowHosts

def Args.schemes : List String := args.allowSchemes.getD settings.ssrfAllowSchemes

/-- A check as far as the resolution: the target without its addresses. -/
def target (url : String) : Except Exn ValidatedTarget := do
  let (scheme, host, port) ← parse U url
  if scheme ∉ (args.schemes settings).map (lower U) then
    .error (.ssrfViolation
      ("scheme " ++ quoted scheme ++ " 不在白名单 " ++ listed (args.schemes settings)))
  else
    let allowlisted := hostAllowlisted U host (args.hosts settings)
    if ¬ allowlisted ∧ args.denyPrivate ∧ port ∈ denyPorts then
      .error (.ssrfViolation ("端口 " ++ toString port ++ " 属内网服务端口，非白名单主机不允许访问"))
    else .ok ⟨url, scheme, host, port, [], allowlisted⟩

/-- A check behind the resolution. -/
def judge (t : ValidatedTarget) (addresses : List String) : Except Exn ValidatedTarget :=
  if addresses = [] then .error (.ssrfViolation ("DNS 未返回地址：" ++ t.host))
  else
    let bad := addresses.filter isForbiddenIp
    if ¬ t.allowlisted ∧ bad ≠ [] then
      .error (.ssrfViolation
        ("目标解析到内网/保留地址，已拒绝：" ++ t.host ++ " -> " ++ listed bad))
    else .ok { t with addresses := addresses }

/-- `validate_target`. -/
def validateTarget (getaddrinfo : Resolver) (url : String) : Except Exn ValidatedTarget := do
  let t ← target U settings args url
  if ¬ args.resolve then .ok t
  else do
    let addresses ← resolveAddresses getaddrinfo t.host t.port
    judge t addresses

/-- `avalidate_target`. -/
def avalidateTarget (url : String) : Prog loopSig Exn ValidatedTarget := do
  let t ← Prog.ofExcept (target U settings args url)
  if ¬ args.resolve then pure t
  else do
    let addresses ← resolveAddressesAsync t.host t.port
    Prog.ofExcept (judge t addresses)

/-- A loop that asks this resolver. -/
def answered (getaddrinfo : Resolver) : (o : LoopOp) → Unit → Except Exn (loopSig.Ans o) × Unit
  | .getaddrinfo host port, s => (.ok (getaddrinfo host port), s)

/-- The verdict of `avalidateTarget` where the loop asks this resolver. -/
def averdict (getaddrinfo : Resolver) (url : String) : Except Exn ValidatedTarget :=
  ((avalidateTarget U settings args url).run (answered getaddrinfo) ()).1

end Validate

/-! ### What the checks agree on -/

section Verdicts

variable (U : Unicode) (settings : Settings) (args : Args) (getaddrinfo : Resolver) (url : String)

/-- The two checks have one verdict. -/
theorem averdict_eq :
    averdict U settings args getaddrinfo url = validateTarget U settings args getaddrinfo url := by
  unfold averdict avalidateTarget validateTarget
  cases target U settings args url with
  | error x => rfl
  | ok t =>
      by_cases hr : args.resolve = true
      · simp only [hr, not_true_eq_false, if_false, Prog.ofExcept, Prog.bind,
          resolveAddressesAsync, resolveAddresses, Prog.perform, Prog.run, answered, bind,
          Except.bind]
        cases addressesOf t.host (getaddrinfo t.host t.port) with
        | error x => rfl
        | ok addresses =>
            simp only [Prog.bind]
            cases judge t addresses <;> rfl
      · simp [hr, Prog.ofExcept, Prog.bind, Prog.run, bind, Except.bind]

variable {U settings args getaddrinfo url}

theorem target_eq_ok {t : ValidatedTarget} : target U settings args url = .ok t ↔
    ∃ scheme host port, parse U url = .ok (scheme, host, port) ∧
      scheme ∈ (args.schemes settings).map (lower U) ∧
      (hostAllowlisted U host (args.hosts settings) = true ∨
        ¬ (args.denyPrivate = true ∧ port ∈ denyPorts)) ∧
      ⟨url, scheme, host, port, [], hostAllowlisted U host (args.hosts settings)⟩ = t := by
  unfold target
  cases parse U url with
  | error x => simp [bind, Except.bind]
  | ok found =>
      obtain ⟨scheme, host, port⟩ := found
      simp only [bind, Except.bind, Except.ok.injEq, Prod.mk.injEq, exists_and_left, and_assoc,
        exists_eq_left']
      by_cases hs : scheme ∈ (args.schemes settings).map (lower U)
      · rw [if_neg (not_not.mpr hs)]
        by_cases ha : hostAllowlisted U host (args.hosts settings) = true
        · simp [hs, ha]
        · by_cases hp : args.denyPrivate = true ∧ port ∈ denyPorts
          · simp [ha, hp]
          · rw [if_neg fun h => hp h.2]
            simp [hs, ha, hp]
      · rw [if_pos hs]
        simp [hs]

theorem judge_eq_ok {t accepted : ValidatedTarget} {addresses : List String} :
    judge t addresses = .ok accepted ↔ addresses ≠ [] ∧
      (t.allowlisted = true ∨ ∀ a ∈ addresses, isForbiddenIp a = false) ∧
      { t with addresses := addresses } = accepted := by
  unfold judge
  by_cases hnil : addresses = []
  · simp [hnil]
  · have hbad : addresses.filter isForbiddenIp = [] ↔ ∀ a ∈ addresses, isForbiddenIp a = false := by
      simp [List.filter_eq_nil_iff]
    by_cases ha : t.allowlisted = true
    · simp [hnil, ha]
    · rw [if_neg hnil, ← hbad]
      by_cases hb : addresses.filter isForbiddenIp = []
      · simp [hnil, hb]
      · rw [if_pos ⟨ha, hb⟩]
        simp [ha, hb]

/-- What a check that resolves accepts. -/
theorem validateTarget_eq_ok (hr : args.resolve = true) {accepted : ValidatedTarget} :
    validateTarget U settings args getaddrinfo url = .ok accepted ↔
      ∃ t infos, target U settings args url = .ok t ∧ getaddrinfo t.host t.port = .ok infos ∧
        infos ≠ [] ∧ (t.allowlisted = true ∨ ∀ a ∈ infos, isForbiddenIp a = false) ∧
        { t with addresses := infos.dedup.insertionSort (· ≤ ·) } = accepted := by
  have hnil : ∀ {infos : List String}, infos.dedup.insertionSort (· ≤ ·) = [] ↔ infos = [] := by
    intro infos
    simp [List.eq_nil_iff_forall_not_mem, List.mem_insertionSort, List.mem_dedup]
  unfold validateTarget
  cases target U settings args url with
  | error x => simp [bind, Except.bind]
  | ok t =>
      simp only [bind, Except.bind, hr, not_true_eq_false, if_false, resolveAddresses]
      cases hg : getaddrinfo t.host t.port with
      | error exc => simp [addressesOf, hg]
      | ok infos =>
          simp only [addressesOf, judge_eq_ok, ne_eq, hnil, List.mem_insertionSort, List.mem_dedup]
          simp [hg]

variable (U settings args) in
/-- What an accepted target must not have: an address of the deny list, or, where its host is not
on the allowlist, one that is forbidden. -/
def Guarded (verdict : Except Exn ValidatedTarget) : Prop :=
  ∀ t, verdict = .ok t → (∀ a ∈ t.addresses, ¬ IsDenied a) ∧
    (hostAllowlisted U t.host (args.hosts settings) = false →
      ∀ a ∈ t.addresses, isForbiddenIp a = false)

variable (U settings args getaddrinfo url) in
/-- No name on the allowlist that the URL may ask for has an address of the deny list. -/
def Untainted : Prop :=
  ∀ scheme host port infos, args.resolve = true → parse U url = .ok (scheme, host, port) →
    scheme ∈ (args.schemes settings).map (lower U) →
    hostAllowlisted U host (args.hosts settings) = true → getaddrinfo host port = .ok infos →
      ∀ a ∈ infos, ¬ IsDenied a

/-- A target that is accepted without a resolution has no addresses. -/
theorem guarded_of_unresolved (hr : args.resolve = false) :
    Guarded U settings args (validateTarget U settings args getaddrinfo url) := by
  intro accepted h
  have hnil : accepted.addresses = [] := by
    unfold validateTarget at h
    cases ht : target U settings args url with
    | error x => simp [ht, bind, Except.bind] at h
    | ok t =>
        simp only [ht, bind, Except.bind, hr, Bool.false_eq_true, not_false_eq_true, if_true,
          Except.ok.injEq] at h
        obtain ⟨scheme, host, port, -, -, -, rfl⟩ := target_eq_ok.mp ht
        rw [← h]
  simp [hnil]

theorem guarded_validateTarget_iff :
    Guarded U settings args (validateTarget U settings args getaddrinfo url) ↔
      Untainted U settings args getaddrinfo url := by
  constructor
  · intro h scheme host port infos hr hparse hscheme hallow hinfos a ha
    have htarget := target_eq_ok.mpr ⟨scheme, host, port, hparse, hscheme, .inl hallow, rfl⟩
    have haccepted := (validateTarget_eq_ok hr).mpr
      ⟨_, infos, htarget, hinfos, List.ne_nil_of_mem ha, .inl hallow, rfl⟩
    exact (h _ haccepted).1 a ((List.mem_insertionSort _).mpr (List.mem_dedup.mpr ha))
  · intro h accepted haccepted
    cases hr : args.resolve with
    | false => exact guarded_of_unresolved hr accepted haccepted
    | true =>
        obtain ⟨t, infos, ht, hinfos, -, hok, rfl⟩ := (validateTarget_eq_ok hr).mp haccepted
        obtain ⟨scheme, host, port, hparse, hscheme, -, rfl⟩ := target_eq_ok.mp ht
        simp only [List.mem_insertionSort, List.mem_dedup]
        rcases hok with hallow | hok
        · exact ⟨h scheme host port infos hr hparse hscheme hallow hinfos, fun hn =>
            absurd hallow (by simp [hn])⟩
        · exact ⟨fun a ha hd => absurd hd.isForbidden (by simp [hok a ha]), fun _ => hok⟩

end Verdicts

/-- **No target with an address of the deny list is accepted, exactly where no name on the
allowlist has one**; either way the two checks agree. -/
theorem denied_never_accepted_iff (U : Unicode) (settings : Settings) (args : Args)
    (getaddrinfo : Resolver) (url : String) :
    (Guarded U settings args (validateTarget U settings args getaddrinfo url) ∧
      Guarded U settings args (averdict U settings args getaddrinfo url) ∧
      averdict U settings args getaddrinfo url = validateTarget U settings args getaddrinfo url) ↔
      Untainted U settings args getaddrinfo url := by
  rw [averdict_eq, and_self_left, guarded_validateTarget_iff]
  exact and_iff_left rfl

/-- The tables of a process that meets no character but those of ASCII. -/
def asciiTables : Unicode where
  lower := List.map Char.toLower
  nfkc := id

/-- **A name on the allowlist is accepted with the address of the metadata service.** -/
theorem metadata_accepted :
    ¬ ∀ (U : Unicode) (settings : Settings) (args : Args) (getaddrinfo : Resolver) (url : String),
      args.resolve = true →
      Guarded U settings args (validateTarget U settings args getaddrinfo url) ∧
        Guarded U settings args (averdict U settings args getaddrinfo url) ∧
        averdict U settings args getaddrinfo url =
          validateTarget U settings args getaddrinfo url := by
  intro h
  have hbad := (h asciiTables {} { allowHosts := some ["upstream.internal"] }
    (fun _ _ => .ok ["169.254.169.254"]) "http://upstream.internal/latest" rfl).1
  refine (hbad ⟨_, "http", "upstream.internal", 80, ["169.254.169.254"], true⟩ rfl).1 _
    (List.mem_singleton_self _) ⟨.v4 0xa9fea9fe, by decide, by decide⟩

end Ssrf

end AsyncGateway
