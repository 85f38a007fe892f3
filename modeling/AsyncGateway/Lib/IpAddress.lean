import Mathlib.Data.Nat.Notation

/-!
# Library — IP addresses

What Python's `ipaddress` reads in a text (`parse`), the text it gives an address (`str`), and the
blocks of addresses it tells apart.  An IPv6 address may name a zone; one of the block `::ffff:0:0`
stands for an IPv4 address (`mapped`), and `plain` is the address without a zone that an address
stands for.
-/

inductive IpAddress : Type where
  | v4 (ip : BitVec 32)
  | v6 (ip : BitVec 128) (scopeId : Option (List Char))
  deriving DecidableEq

namespace IpAddress

/-! ### Reading -/

def isDigit (c : Char) : Bool := '0' ≤ c && c ≤ '9'

def isHexDigit (c : Char) : Bool := isDigit c || ('a' ≤ c && c ≤ 'f') || ('A' ≤ c && c ≤ 'F')

def hexValue (c : Char) : ℕ :=
  if isDigit c then c.toNat - '0'.toNat
  else if 'a' ≤ c then c.toNat - 'a'.toNat + 10
  else c.toNat - 'A'.toNat + 10

/-- The number of some digits. -/
def ofDigits (base : ℕ) (digits : List ℕ) : ℕ := digits.foldl (fun n d => base * n + d) 0

/-- `_parse_octet`. -/
def octet? (s : List Char) : Option ℕ :=
  if s = [] ∨ ¬ s.all isDigit ∨ 3 < s.length ∨ (s ≠ ['0'] ∧ s.head? = some '0') then none
  else
    let n := ofDigits 10 (s.map hexValue)
    if 255 < n then none else some n

/-- `IPv4Address`. -/
def v4? (s : List Char) : Option (BitVec 32) :=
  if '/' ∈ s then none
  else
    let octets := s.splitOn '.'
    if octets.length ≠ 4 then none
    else (octets.mapM octet?).map fun ns => BitVec.ofNat 32 (ofDigits 256 ns)

/-- `_parse_hextet`. -/
def hextet? (s : List Char) : Option ℕ :=
  if s = [] ∨ ¬ s.all isHexDigit ∨ 4 < s.length then none
  else some (ofDigits 16 (s.map hexValue))

/-- The parts of an IPv6 address, the last two out of an IPv4 address that ends it. -/
def parts? (s : List Char) : Option (List (List Char)) :=
  let parts := s.splitOn ':'
  let last := parts.getLastD []
  if parts.length < 3 then none
  else if '.' ∈ last then
    (v4? last).map fun ip =>
      parts.dropLast ++ [Nat.toDigits 16 (ip.toNat / 65536), Nat.toDigits 16 (ip.toNat % 65536)]
  else some parts

/-- `_ip_int_from_string` of an IPv6 address. -/
def v6Int? (s : List Char) : Option ℕ := do
  let parts ← parts? s
  let skips := (List.range parts.length).filter fun i =>
    decide (0 < i ∧ i + 1 < parts.length) && (parts.getD i []).isEmpty
  let leading := parts.head? = some []
  let trailing := parts.getLast? = some []
  if 9 < parts.length then none
  else match skips with
    | [] =>
        if parts.length ≠ 8 ∨ leading ∨ trailing then none
        else (parts.mapM hextet?).map (ofDigits 65536)
    | [i] =>
        -- an empty part at an end is a half of the `::`
        if (leading ∧ i ≠ 1) ∨ (trailing ∧ i + 2 ≠ parts.length) then none
        else do
          let hi := if leading then [] else parts.take i
          let lo := if trailing then [] else parts.drop (i + 1)
          if 8 ≤ hi.length + lo.length then none
          else
            let his ← hi.mapM hextet?
            let los ← lo.mapM hextet?
            some (ofDigits 65536
              (his ++ List.replicate (8 - (hi.length + lo.length)) 0 ++ los))
    | _ => none

/-- `IPv6Address`: the number and the zone. -/
def v6? (s : List Char) : Option (BitVec 128 × Option (List Char)) :=
  if '/' ∈ s then none
  else
    let address := s.takeWhile (· ≠ '%')
    match s.dropWhile (· ≠ '%') with
    | [] => (v6Int? address).map fun n => (BitVec.ofNat 128 n, none)
    | _ :: scopeId =>
        if scopeId = [] ∨ '%' ∈ scopeId then none
        else (v6Int? address).map fun n => (BitVec.ofNat 128 n, some scopeId)

/-- `ip_address`; none is a `ValueError`. -/
def parse (s : List Char) : Option IpAddress :=
  match v4? s with
  | some ip => some (.v4 ip)
  | none => (v6? s).map fun (ip, scopeId) => .v6 ip scopeId

/-! ### Writing -/

/-- The digits of a number that has so many to the base. -/
def digitsOf (base : ℕ) : ℕ → ℕ → List ℕ
  | 0, _ => []
  | k + 1, n => digitsOf base k (n / base) ++ [n % base]

/-- Where the longest run of zeros is that is met first, and how long it is: the run so far, and
the longest. -/
def zeroRun : List ℕ → ℕ → ℕ × ℕ → ℕ × ℕ → ℕ × ℕ
  | [], _, _, best => best
  | 0 :: hs, i, (start, len), best =>
      let run := if len = 0 then (i, 1) else (start, len + 1)
      zeroRun hs (i + 1) run (if best.2 < run.2 then run else best)
  | _ :: hs, i, _, best => zeroRun hs (i + 1) (0, 0) best

/-- `_compress_hextets`. -/
def compressHextets (hextets : List ℕ) : List (List Char) :=
  let texts := hextets.map (Nat.toDigits 16)
  let (start, len) := zeroRun hextets 0 (0, 0) (0, 0)
  if 1 < len then
    (if start = 0 then [[]] else []) ++ texts.take start ++ [[]] ++ texts.drop (start + len) ++
      (if start + len = hextets.length then [[]] else [])
  else texts

/-- `str`. -/
def str : IpAddress → List Char
  | .v4 ip => [ '.' ].intercalate ((digitsOf 256 4 ip.toNat).map (Nat.toDigits 10))
  | .v6 ip scopeId =>
      [ ':' ].intercalate (compressHextets (digitsOf 65536 8 ip.toNat)) ++
        (scopeId.map ('%' :: ·)).getD []

/-! ### Blocks of addresses -/

/-- A block: an address, and how many of its bits the addresses of the block share. -/
structure Block (w : ℕ) where
  ip : BitVec w
  prefixlen : ℕ

def Block.contains {w : ℕ} (b : Block w) (ip : BitVec w) : Bool :=
  ip >>> (w - b.prefixlen) == b.ip >>> (w - b.prefixlen)

def block4 (octets : List ℕ) (prefixlen : ℕ) : Block 32 :=
  ⟨BitVec.ofNat 32 (ofDigits 256 octets), prefixlen⟩

/-- The block of the hextets, with zeros behind them. -/
def block6 (hextets : List ℕ) (prefixlen : ℕ) : Block 128 :=
  ⟨BitVec.ofNat 128 (ofDigits 65536 (hextets ++ List.replicate (8 - hextets.length) 0)), prefixlen⟩

def privateBlocks4 : List (Block 32) :=
  [block4 [0, 0, 0, 0] 8, block4 [10, 0, 0, 0] 8, block4 [127, 0, 0, 0] 8,
    block4 [169, 254, 0, 0] 16, block4 [172, 16, 0, 0] 12, block4 [192, 0, 0, 0] 24,
    block4 [192, 0, 0, 170] 31, block4 [192, 0, 2, 0] 24, block4 [192, 168, 0, 0] 16,
    block4 [198, 18, 0, 0] 15, block4 [198, 51, 100, 0] 24, block4 [203, 0, 113, 0] 24,
    block4 [240, 0, 0, 0] 4, block4 [255, 255, 255, 255] 32]

def privateExceptions4 : List (Block 32) := [block4 [192, 0, 0, 9] 32, block4 [192, 0, 0, 10] 32]

def privateBlocks6 : List (Block 128) :=
  [block6 [0, 0, 0, 0, 0, 0, 0, 1] 128, block6 [] 128, block6 [0, 0, 0, 0, 0, 0xffff] 96,
    block6 [0x64, 0xff9b, 1] 48, block6 [0x100] 64, block6 [0x2001] 23, block6 [0x2001, 0xdb8] 32,
    block6 [0x2002] 16, block6 [0xfc00] 7, block6 [0xfe80] 10]

def privateExceptions6 : List (Block 128) :=
  [block6 [0x2001, 1, 0, 0, 0, 0, 0, 1] 128, block6 [0x2001, 1, 0, 0, 0, 0, 0, 2] 128,
    block6 [0x2001, 3] 32, block6 [0x2001, 4, 0x112] 48, block6 [0x2001, 0x20] 28,
    block6 [0x2001, 0x30] 28]

def reservedBlocks6 : List (Block 128) :=
  [block6 [] 8, block6 [0x100] 8, block6 [0x200] 7, block6 [0x400] 6, block6 [0x800] 5,
    block6 [0x1000] 4, block6 [0x4000] 3, block6 [0x6000] 3, block6 [0x8000] 3,
    block6 [0xa000] 3, block6 [0xc000] 3, block6 [0xe000] 4, block6 [0xf000] 5,
    block6 [0xf800] 6, block6 [0xfe00] 9]

def isPrivate4 (ip : BitVec 32) : Bool :=
  privateBlocks4.any (·.contains ip) && !privateExceptions4.any (·.contains ip)

/-- `ipv4_mapped`. -/
def mapped (ip : BitVec 128) : Option (BitVec 32) :=
  if ip >>> 32 = 0xffff then some (ip.setWidth 32) else none

def isPrivate : IpAddress → Bool
  | .v4 ip => isPrivate4 ip
  | .v6 ip _ =>
      match mapped ip with
      | some ip => isPrivate4 ip
      | none => privateBlocks6.any (·.contains ip) && !privateExceptions6.any (·.contains ip)

def isLoopback : IpAddress → Bool
  | .v4 ip => (block4 [127, 0, 0, 0] 8).contains ip
  | .v6 ip _ => ip == 1

def isLinkLocal : IpAddress → Bool
  | .v4 ip => (block4 [169, 254, 0, 0] 16).contains ip
  | .v6 ip _ => (block6 [0xfe80] 10).contains ip

def isMulticast : IpAddress → Bool
  | .v4 ip => (block4 [224, 0, 0, 0] 4).contains ip
  | .v6 ip _ => (block6 [0xff00] 8).contains ip

def isReserved : IpAddress → Bool
  | .v4 ip => (block4 [240, 0, 0, 0] 4).contains ip
  | .v6 ip _ => reservedBlocks6.any (·.contains ip)

def isUnspecified : IpAddress → Bool
  | .v4 ip => ip == 0
  | .v6 ip _ => ip == 0

/-- The address an address stands for, whatever the zone. -/
def plain : IpAddress → IpAddress
  | .v4 ip => .v4 ip
  | .v6 ip _ =>
      match mapped ip with
      | some ip => .v4 ip
      | none => .v6 ip none

example : parse "::ffff:169.254.169.254".toList = some (.v6 0xffffa9fea9fe none) := by decide

example : (parse "fd00:ec2::254".toList).map str = some "fd00:ec2::254".toList := by decide

end IpAddress
