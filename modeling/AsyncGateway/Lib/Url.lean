import AsyncGateway.Lib.IpAddress

/-!
# Library — the parts of a URL

What Python's `urlsplit` reads in a URL, and the user, the host and the port of its network
location.  The tables of Unicode it uses are a parameter (`Unicode`).
-/

/-- The tables of Unicode. -/
structure Unicode where
  /-- `str.lower`. -/
  lower : List Char → List Char
  /-- `unicodedata.normalize("NFKC", …)`. -/
  nfkc : List Char → List Char

namespace Url

/-- `SplitResult`. -/
structure Parts where
  scheme : List Char
  netloc : List Char
  path : List Char
  query : List Char
  fragment : List Char
  deriving DecidableEq

/-- `s.partition(c)`: before, whether it is there, after. -/
def partition (c : Char) (s : List Char) : List Char × Bool × List Char :=
  (s.takeWhile (· ≠ c), decide (c ∈ s), (s.dropWhile (· ≠ c)).drop 1)

/-- `s.rpartition(c)`. -/
def rpartition (c : Char) (s : List Char) : List Char × Bool × List Char :=
  (((s.reverse.dropWhile (· ≠ c)).drop 1).reverse, decide (c ∈ s),
    (s.reverse.takeWhile (· ≠ c)).reverse)

def isAscii (c : Char) : Bool := decide (c.toNat < 128)

def isAsciiAlpha (c : Char) : Bool := ('a' ≤ c && c ≤ 'z') || ('A' ≤ c && c ≤ 'Z')

def schemeChar (c : Char) : Bool :=
  isAsciiAlpha c || IpAddress.isDigit c || c == '+' || c == '-' || c == '.'

/-- The scheme before the first colon and what is behind that, where it is one. -/
def splitScheme (url : List Char) : List Char × List Char :=
  let (before, found, after) := partition ':' url
  if found && before.head?.any isAsciiAlpha && before.all schemeChar then
    (before.map Char.toLower, after)
  else ([], url)

/-- `_check_bracketed_host`. -/
def bracketedHostOk (hostname : List Char) : Bool :=
  match hostname with
  | 'v' :: rest =>
      match rest.takeWhile IpAddress.isHexDigit, rest.dropWhile IpAddress.isHexDigit with
      | _ :: _, '.' :: c :: cs => !(c :: cs).contains '\n'
      | _, _ => false
  | _ =>
      match IpAddress.parse hostname with
      | some (.v6 _ _) => true
      | _ => false

/-- `_check_bracketed_netloc`. -/
def bracketedNetlocOk (netloc : List Char) : Bool :=
  let (_, _, hostnameAndPort) := rpartition '@' netloc
  let (before, found, bracketed) := partition '[' hostnameAndPort
  if found then
    let (hostname, _, port) := partition ']' bracketed
    before.isEmpty && (port.isEmpty || port.head? = some ':') && bracketedHostOk hostname
  else bracketedHostOk (partition ':' hostnameAndPort).1

/-- `_checknetloc`. -/
def netlocOk (U : Unicode) (netloc : List Char) : Bool :=
  let n := netloc.filter fun c => c ∉ ['@', ':', '#', '?']
  netloc.all isAscii || U.nfkc n == n || !(U.nfkc n).any fun c => c ∈ ['/', '?', '#', '@', ':']

/-- `urlsplit`; none is a `ValueError`. -/
def urlsplit (U : Unicode) (url : List Char) : Option Parts :=
  let url := url.dropWhile fun c => decide (c.toNat ≤ 32)
  let url := url.filter fun c => c ∉ ['\t', '\r', '\n']
  let (scheme, rest) := splitScheme url
  let hasNetloc := "//".toList.isPrefixOf rest
  let isDelim := fun c : Char => decide (c ∈ ['/', '?', '#'])
  let netloc := if hasNetloc then (rest.drop 2).takeWhile fun c => !isDelim c else []
  let rest := if hasNetloc then (rest.drop 2).dropWhile fun c => !isDelim c else rest
  if netloc.contains '[' != netloc.contains ']' then none
  else if netloc.contains '[' && !bracketedNetlocOk netloc then none
  else if !netlocOk U netloc then none
  else
    let (rest, _, fragment) := partition '#' rest
    let (path, _, query) := partition '?' rest
    some ⟨scheme, netloc, path, query, fragment⟩

namespace Parts

variable (p : Parts)

/-- `username` and `password`, empty where there is none. -/
def userinfo : List Char × List Char :=
  let (userinfo, _, _) := rpartition '@' p.netloc
  let (username, _, password) := partition ':' userinfo
  (username, password)

/-- `_hostinfo`, empty where there is none. -/
def hostinfo : List Char × List Char :=
  let (_, _, hostinfo) := rpartition '@' p.netloc
  let (_, found, bracketed) := partition '[' hostinfo
  if found then
    let (hostname, _, port) := partition ']' bracketed
    (hostname, (partition ':' port).2.2)
  else
    let (hostname, _, port) := partition ':' hostinfo
    (hostname, port)

/-- `hostname`, empty where there is none: a zone keeps its case. -/
def hostname (U : Unicode) : List Char :=
  let hostname := p.hostinfo.1
  U.lower (hostname.takeWhile (· ≠ '%')) ++ hostname.dropWhile (· ≠ '%')

/-- `port`, none within where there is none; none is a `ValueError`. -/
def port : Option (Option ℕ) :=
  let port := p.hostinfo.2
  if port = [] then some none
  else if !port.all IpAddress.isDigit then none
  else
    let n := IpAddress.ofDigits 10 (port.map IpAddress.hexValue)
    if 65535 < n then none else some (some n)

end Parts

end Url
