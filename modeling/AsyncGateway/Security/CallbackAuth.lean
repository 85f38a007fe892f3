import AsyncGateway.Lib.Text
import AsyncGateway.Db.Dao
import Mathlib.Data.List.Induction

/-!
# Security — the signature of a callback

`sign` and the authenticator of the callbacks (`CallbackAuthenticator`): its key map, `verify`,
and `rotate`.  The digests of the library are parameters that write hexadecimal, and so is
`str.lower` (`AuthLibrary`).  Instants are rationals as elsewhere; what a float adds is where it
ends: an integer from `floatLimit` on has no float, and a distance from there on is infinite.

A callback is genuine (`Genuine`) when its three headers are there, its kid is in the key map, its
timestamp is an integer within the window, and its signature is the one `sign` gives.  `verify`
says so exactly where nothing in it raises (`Settled`): the numbers are floats, and the signature
it compares is ASCII (`verify_exact`).  The message that is signed can be read back from its end
(`message_inj`), so a signature is good for one kid, timestamp and body.

The kids `verify` can accept (`Accepts`) are those of the key map.  A rotation that keeps the
previous key drops none, so the map holds what was rotated in since the last one that did not
(`mem_held`), and that is the active and the previous kid only where no older one is left
(`rotations_keep_two`).
-/

namespace AsyncGateway

structure CallbackVerifyResult where
  ok : Bool
  kid : Option String := none
  reason : Option String := none
  replaySuspect : Bool := false
  deriving DecidableEq

/-- The characters of `hexdigest`. -/
def hexDigits : List Char := "0123456789abcdef".toList

/-- The library functions a signature rests on. -/
structure AuthLibrary where
  /-- `hashlib.sha256(raw).hexdigest()`. -/
  sha256 : List UInt8 → String
  /-- `hmac.new(key, message, hashlib.sha256).hexdigest()`. -/
  hmacSha256 : List UInt8 → List UInt8 → String
  /-- `text.lower()`. -/
  lower : String → String
  /-- `repr(text)`. -/
  repr : String → String := fun text => "'" ++ text ++ "'"
  sha256_hex : ∀ raw, ∀ c ∈ (sha256 raw).toList, c ∈ hexDigits
  hmac_hex : ∀ key message, ∀ c ∈ (hmacSha256 key message).toList, c ∈ hexDigits
  hmac_ne_empty : ∀ key message, hmacSha256 key message ≠ ""
  /-- Lower-case letters and hyphens stay as they are. -/
  lower_lower : ∀ text : String, (∀ c ∈ text.toList, c = '-' ∨ c.isLower) → lower text = text

/-- `text.encode()`. -/
def encode (text : String) : List UInt8 := text.toUTF8.data.toList

theorem encode_injective : Function.Injective encode := by
  intro s t h
  have hdata : s.toByteArray = t.toByteArray := ByteArray.ext (Array.toList_inj.mp h)
  exact String.toByteArray_inj.mp hdata

/-- `text.isascii()`. -/
def isAscii (text : String) : Bool := text.toList.all fun c => decide (c.toNat < 128)

namespace AuthLibrary

variable (L : AuthLibrary)

/-- The text that is signed. -/
def message (kid : String) (timestamp : ℤ) (rawBody : List UInt8) : String :=
  kid ++ "." ++ toString timestamp ++ "." ++ L.sha256 rawBody

def sign (kid secret : String) (timestamp : ℤ) (rawBody : List UInt8) : String :=
  L.hmacSha256 (encode secret) (encode (L.message kid timestamp rawBody))

variable {L} {kid kid' secret : String} {n n' : ℤ} {raw raw' : List UInt8}

theorem dot_not_mem_sha256 (raw : List UInt8) : '.' ∉ (L.sha256 raw).toList := fun h =>
  absurd (L.sha256_hex raw _ h) (by decide)

theorem dot_not_mem_timestamp (n : ℤ) : '.' ∉ (toString n).toList := fun h =>
  absurd (Text.mem_toString h) (by decide)

/-- The message is read back from its end: the digest has no dot, and the timestamp has none. -/
theorem message_inj (hsha : Function.Injective L.sha256)
    (h : L.message kid n raw = L.message kid' n' raw') : kid = kid' ∧ n = n' ∧ raw = raw' := by
  have hl := congrArg String.toList h
  simp only [message, String.toList_append, List.append_assoc, show ".".toList = ['.'] from rfl,
    List.singleton_append] at hl
  have hl' : (kid.toList ++ '.' :: (toString n).toList) ++ '.' :: (L.sha256 raw).toList =
      (kid'.toList ++ '.' :: (toString n').toList) ++ '.' :: (L.sha256 raw').toList := by
    simpa using hl
  obtain ⟨hfront, hraw⟩ := Text.cut_last_inj (dot_not_mem_sha256 raw) (dot_not_mem_sha256 raw') hl'
  obtain ⟨hkid, hn⟩ :=
    Text.cut_last_inj (dot_not_mem_timestamp n) (dot_not_mem_timestamp n') hfront
  exact ⟨String.toList_injective hkid, Text.toString_injective (String.toList_injective hn),
    hsha (String.toList_injective hraw)⟩

theorem sign_inj (hsha : Function.Injective L.sha256)
    (hhmac : ∀ key, Function.Injective (L.hmacSha256 key))
    (h : L.sign kid secret n raw = L.sign kid' secret n' raw') :
    kid = kid' ∧ n = n' ∧ raw = raw' :=
  message_inj hsha (encode_injective (hhmac _ h))

theorem isAscii_sign (kid secret : String) (n : ℤ) (raw : List UInt8) :
    isAscii (L.sign kid secret n raw) = true := by
  have hdigits : hexDigits.all (fun c => decide (c.toNat < 128)) = true := by decide
  exact List.all_eq_true.mpr fun c hc =>
    List.all_eq_true.mp hdigits c (L.hmac_hex _ _ c hc)

end AuthLibrary

/-! ### A library in which nothing collides -/

/-- A byte in hexadecimal. -/
def hexByte (b : UInt8) : List Char :=
  [hexDigits.getD (b.toNat / 16) '0', hexDigits.getD (b.toNat % 16) '0']

def hexText (raw : List UInt8) : String := String.ofList ('0' :: raw.flatMap hexByte)

theorem hexByte_injective : Function.Injective hexByte := by
  have hdigit : ∀ m < 16, ∀ n < 16, hexDigits.getD m '0' = hexDigits.getD n '0' → m = n := by
    decide
  intro b c h
  obtain ⟨hhigh, hlow, -⟩ : hexDigits.getD (b.toNat / 16) '0' = hexDigits.getD (c.toNat / 16) '0' ∧
      hexDigits.getD (b.toNat % 16) '0' = hexDigits.getD (c.toNat % 16) '0' ∧ True := by
    simpa [hexByte] using h
  have hb := b.toNat_lt
  have hc := c.toNat_lt
  have := hdigit _ (by omega) _ (by omega) hhigh
  have := hdigit _ (by omega) _ (by omega) hlow
  exact UInt8.toNat_inj.mp (by omega)

theorem hexText_injective : Function.Injective hexText := by
  intro raw raw' h
  have hflat := (List.cons.inj (String.ofList_injective h)).2
  clear h
  induction raw generalizing raw' with
  | nil =>
      cases raw' with
      | nil => rfl
      | cons b raw' => simp [hexByte] at hflat
  | cons b raw ih =>
      cases raw' with
      | nil => simp [hexByte] at hflat
      | cons b' raw' =>
          obtain ⟨hbyte, hrest⟩ := List.append_inj hflat rfl
          rw [hexByte_injective hbyte, ih hrest]

theorem hexText_hex {raw : List UInt8} {c : Char} (h : c ∈ (hexText raw).toList) :
    c ∈ hexDigits := by
  have hdigit : ∀ n < 16, hexDigits.getD n '0' ∈ hexDigits := by decide
  simp only [hexText, String.toList_ofList, List.mem_cons, List.mem_flatMap] at h
  rcases h with rfl | ⟨b, -, h⟩
  · decide
  · have hb := b.toNat_lt
    simp only [hexByte, List.mem_cons, List.not_mem_nil, or_false] at h
    rcases h with rfl | rfl
    · exact hdigit _ (by omega)
    · exact hdigit _ (by omega)

theorem toLower_of_isLower {c : Char} (h : c.isLower) : c.toLower = c := by
  have hrange : 97 ≤ c.val ∧ c.val ≤ 122 := by
    have h : (decide (97 ≤ c.val) && decide (c.val ≤ 122)) = true := h
    simpa using h
  refine dif_neg fun hup => ?_
  have hlow : 97 ≤ c.toNat := hrange.1
  have hhigh : c.toNat ≤ 90 := hup.2
  omega

def hexLibrary : AuthLibrary where
  sha256 := hexText
  hmacSha256 _ message := hexText message
  lower text := String.ofList (text.toList.map Char.toLower)
  sha256_hex _ _ h := hexText_hex h
  hmac_hex _ _ _ h := hexText_hex h
  hmac_ne_empty _ message h := by simpa [hexText] using congrArg String.toList h
  lower_lower text h := by
    have hstay : ∀ c ∈ text.toList, c.toLower = c := by
      intro c hc
      rcases h c hc with rfl | hlow
      · decide
      · exact toLower_of_isLower hlow
    rw [List.map_congr_left hstay, List.map_id', String.ofList_toList]

/-! ### The authenticator -/

/-- The authenticator, its header names in lower case. -/
structure CallbackAuthenticator where
  keys : String → Option String
  activeKid : String
  toleranceSeconds : ℤ := 300
  kidHeader : String := "x-ag-kid"
  timestampHeader : String := "x-ag-timestamp"
  signatureHeader : String := "x-ag-signature"

namespace CallbackAuthenticator

variable (L : AuthLibrary) (A : CallbackAuthenticator)

def headerLookup (headers : List (String × String)) (name : String) : Option String :=
  (headers.find? fun header => L.lower header.1 == name).map Prod.snd

/-- `verify` once the distance to the timestamp is known. -/
def judge (kid key sig : String) (timestamp : ℤ) (rawBody : List UInt8) (skew tolerance : ℚ) :
    Except Exn CallbackVerifyResult :=
  if tolerance + 1 < skew then
    -- an infinite distance has no floor
    if (floatLimit : ℚ) ≤ skew then .error .overflowError
    else .ok
      { ok := false
        kid := some kid
        reason := some ("timestamp outside tolerance window (" ++ toString ⌊skew⌋ ++ "s > " ++
          toString A.toleranceSeconds ++ "s)")
        replaySuspect := true }
  else if isAscii sig = false then .error .typeError
  else if L.sign kid key timestamp rawBody = sig then .ok { ok := true, kid := some kid }
  else .ok { ok := false, kid := some kid, reason := some "signature mismatch" }

/-- `verify` from the timestamp on. -/
def verifyAt (kid key sig : String) (timestamp : ℤ) (rawBody : List UInt8) (now : Time) :
    Except Exn CallbackVerifyResult := do
  let instant ← floatOfInt timestamp
  let tolerance ← floatOfInt A.toleranceSeconds
  A.judge L kid key sig timestamp rawBody |now - instant| tolerance

def verify (headers : List (String × String)) (rawBody : List UInt8) (now : Time) :
    Except Exn CallbackVerifyResult :=
  let kid := headerLookup L headers A.kidHeader
  match nonEmpty kid, nonEmpty (headerLookup L headers A.timestampHeader),
      nonEmpty (headerLookup L headers A.signatureHeader) with
  | some k, some tsRaw, some sig =>
      match A.keys k with
      | none => .ok { ok := false, kid := kid, reason := some ("unknown kid " ++ L.repr k) }
      | some key =>
          match Text.int? tsRaw.toList with
          | none => .ok { ok := false, kid := kid, reason := some "timestamp not an integer" }
          | some timestamp => A.verifyAt L k key sig timestamp rawBody now
  | _, _, _ => .ok { ok := false, kid := kid, reason := some "missing signature headers" }

/-! ### What is accepted -/

section Verify

/-- The three headers are there, and not empty. -/
def Presents (headers : List (String × String)) (kid tsRaw sig : String) : Prop :=
  nonEmpty (headerLookup L headers A.kidHeader) = some kid ∧
    nonEmpty (headerLookup L headers A.timestampHeader) = some tsRaw ∧
    nonEmpty (headerLookup L headers A.signatureHeader) = some sig

/-- The headers present the kid of a key, a timestamp and a signature. -/
def Claims (headers : List (String × String)) (kid key : String) (timestamp : ℤ) (sig : String) :
    Prop :=
  ∃ tsRaw, A.Presents L headers kid tsRaw sig ∧ A.keys kid = some key ∧
    Text.int? tsRaw.toList = some timestamp

/-- The callback is what the holder of a key has signed, at about this time. -/
def Genuine (headers : List (String × String)) (rawBody : List UInt8) (now : Time) : Prop :=
  ∃ kid key timestamp sig, A.Claims L headers kid key timestamp sig ∧
    |now - timestamp| ≤ A.toleranceSeconds + 1 ∧ sig = L.sign kid key timestamp rawBody

/-- The numbers are floats, and the signature that is compared is ASCII. -/
def Settled (headers : List (String × String)) (now : Time) : Prop :=
  ∀ kid key timestamp sig, A.Claims L headers kid key timestamp sig →
    timestamp.natAbs < floatLimit ∧ A.toleranceSeconds.natAbs < floatLimit ∧
      (A.toleranceSeconds + 1 < |now - timestamp| → |now - timestamp| < floatLimit) ∧
      (|now - timestamp| ≤ A.toleranceSeconds + 1 → isAscii sig = true)

/-- No other triple is accepted with the signature under the same secret, by any authenticator. -/
def Binds (headers : List (String × String)) (rawBody : List UInt8) : Prop :=
  ∀ kid key timestamp sig, A.Claims L headers kid key timestamp sig →
    ∀ (B : CallbackAuthenticator) headers' raw' now' kid' timestamp' r,
      B.Claims L headers' kid' key timestamp' sig → B.verify L headers' raw' now' = .ok r →
      r.ok = true → kid' = kid ∧ timestamp' = timestamp ∧ raw' = rawBody

variable {L A} {headers : List (String × String)} {kid key sig kid' key' sig' : String}
  {n n' : ℤ} {raw : List UInt8} {now : Time} {r : CallbackVerifyResult}

/-- What the headers present is one reading of them. -/
theorem Claims.unique (h : A.Claims L headers kid key n sig)
    (h' : A.Claims L headers kid' key' n' sig') :
    kid = kid' ∧ key = key' ∧ n = n' ∧ sig = sig' := by
  obtain ⟨ts, ⟨hk, ht, hs⟩, hkey, hn⟩ := h
  obtain ⟨ts', ⟨hk', ht', hs'⟩, hkey', hn'⟩ := h'
  cases hk.symm.trans hk'
  cases ht.symm.trans ht'
  cases hs.symm.trans hs'
  cases hkey.symm.trans hkey'
  cases hn.symm.trans hn'
  exact ⟨rfl, rfl, rfl, rfl⟩

theorem verify_of_claims (h : A.Claims L headers kid key n sig) (raw : List UInt8) (now : Time) :
    A.verify L headers raw now = A.verifyAt L kid key sig n raw now := by
  obtain ⟨ts, ⟨hk, ht, hs⟩, hkey, hn⟩ := h
  simp [verify, hk, ht, hs, hkey, hn]

/-- Headers that present nothing of a key are refused, and nothing raises. -/
theorem verify_of_not_claims (h : ∀ kid key n sig, ¬ A.Claims L headers kid key n sig)
    (raw : List UInt8) (now : Time) : ∃ r, A.verify L headers raw now = .ok r ∧ r.ok = false := by
  rw [verify]
  split
  · next kid ts sig hk ht hs =>
      split
      · exact ⟨_, rfl, rfl⟩
      · next key hkey =>
          split
          · exact ⟨_, rfl, rfl⟩
          · next n hn => exact absurd ⟨ts, ⟨hk, ht, hs⟩, hkey, hn⟩ (h kid key n sig)
  · exact ⟨_, rfl, rfl⟩

theorem genuine_iff_of_claims (h : A.Claims L headers kid key n sig) :
    A.Genuine L headers raw now ↔
      |now - n| ≤ A.toleranceSeconds + 1 ∧ sig = L.sign kid key n raw := by
  constructor
  · rintro ⟨kid', key', n', sig', h', hwindow, hsig⟩
    obtain ⟨rfl, rfl, rfl, rfl⟩ := h.unique h'
    exact ⟨hwindow, hsig⟩
  · rintro ⟨hwindow, hsig⟩
    exact ⟨kid, key, n, sig, h, hwindow, hsig⟩

theorem judge_total (skew tolerance : ℚ) :
    (∃ r, A.judge L kid key sig n raw skew tolerance = .ok r) ↔
      (tolerance + 1 < skew → skew < floatLimit) ∧
        (skew ≤ tolerance + 1 → isAscii sig = true) := by
  rw [judge]
  by_cases hwindow : tolerance + 1 < skew
  · have hout : ¬ skew ≤ tolerance + 1 := not_le.mpr hwindow
    by_cases hinf : (floatLimit : ℚ) ≤ skew
    · simp [hwindow, hinf]
    · simp [hwindow, hout, hinf, not_le.mp hinf]
  · have hin : skew ≤ tolerance + 1 := not_lt.mp hwindow
    by_cases hascii : isAscii sig = true
    · by_cases hsig : L.sign kid key n raw = sig <;> simp [hwindow, hascii, hsig]
    · simp [hwindow, hin, hascii]

theorem judge_sound {skew tolerance : ℚ}
    (h : A.judge L kid key sig n raw skew tolerance = .ok r) :
    r.kid = some kid ∧
      (r.ok = true ↔ skew ≤ tolerance + 1 ∧ sig = L.sign kid key n raw) := by
  rw [judge] at h
  by_cases hwindow : tolerance + 1 < skew
  · by_cases hinf : (floatLimit : ℚ) ≤ skew
    · simp [hwindow, hinf] at h
    · simp only [hwindow, hinf, if_true, if_false, Except.ok.injEq] at h
      simp [← h, not_le.mpr hwindow]
  · have hin : skew ≤ tolerance + 1 := not_lt.mp hwindow
    by_cases hascii : isAscii sig = true
    · by_cases hsig : L.sign kid key n raw = sig
      · simp only [hwindow, hascii, hsig, if_true, if_false, Bool.true_eq_false,
          Except.ok.injEq] at h
        simp [← h, hin, hsig]
      · simp only [hwindow, hascii, hsig, if_false, Bool.true_eq_false, Except.ok.injEq] at h
        simp [← h, Ne.symm hsig]
    · simp [hwindow, hascii] at h

theorem verifyAt_eq_ok :
    A.verifyAt L kid key sig n raw now = .ok r ↔
      n.natAbs < floatLimit ∧ A.toleranceSeconds.natAbs < floatLimit ∧
        A.judge L kid key sig n raw |now - n| A.toleranceSeconds = .ok r := by
  by_cases hn : n.natAbs < floatLimit
  · by_cases ht : A.toleranceSeconds.natAbs < floatLimit
    · simp [verifyAt, floatOfInt, hn, ht, bind, Except.bind]
    · simp [verifyAt, floatOfInt, hn, ht, bind, Except.bind]
  · simp [verifyAt, floatOfInt, hn, bind, Except.bind]

/-- `verify` answers exactly where nothing in it raises. -/
theorem verify_total : (∃ r, A.verify L headers raw now = .ok r) ↔ A.Settled L headers now := by
  by_cases hclaims : ∃ kid key n sig, A.Claims L headers kid key n sig
  · obtain ⟨kid, key, n, sig, h⟩ := hclaims
    simp only [verify_of_claims h, verifyAt_eq_ok, exists_and_left, judge_total]
    constructor
    · intro hsettled kid' key' n' sig' h'
      obtain ⟨rfl, rfl, rfl, rfl⟩ := h.unique h'
      exact hsettled
    · intro hsettled
      exact hsettled kid key n sig h
  · push Not at hclaims
    obtain ⟨r, hr, -⟩ := verify_of_not_claims hclaims raw now
    exact iff_of_true ⟨r, hr⟩ fun kid key n sig h => absurd h (hclaims kid key n sig)

/-- What `verify` answers is whether the callback is genuine. -/
theorem verify_sound (hr : A.verify L headers raw now = .ok r) :
    r.ok = true ↔ A.Genuine L headers raw now := by
  by_cases hclaims : ∃ kid key n sig, A.Claims L headers kid key n sig
  · obtain ⟨kid, key, n, sig, h⟩ := hclaims
    rw [verify_of_claims h, verifyAt_eq_ok] at hr
    rw [(judge_sound hr.2.2).2, genuine_iff_of_claims h]
  · push Not at hclaims
    obtain ⟨r', hr', hok⟩ := verify_of_not_claims hclaims raw now
    cases hr.symm.trans hr'
    have hfalse : ¬ A.Genuine L headers raw now := fun ⟨kid, key, n, sig, h, _⟩ =>
      hclaims kid key n sig h
    simp [hok, hfalse]

/-- A signature that is accepted is the one of its own triple. -/
theorem Claims.sig_eq (h : A.Claims L headers kid key n sig)
    (hr : A.verify L headers raw now = .ok r) (hok : r.ok = true) :
    sig = L.sign kid key n raw :=
  ((genuine_iff_of_claims h).mp ((verify_sound hr).mp hok)).2

theorem binds_of_verify (hsha : Function.Injective L.sha256)
    (hhmac : ∀ key, Function.Injective (L.hmacSha256 key))
    (hr : A.verify L headers raw now = .ok r) (hok : r.ok = true) : A.Binds L headers raw := by
  intro kid key n sig h B headers' raw' now' kid' n' r' h' hr' hok'
  have hsame : L.sign kid' key n' raw' = L.sign kid key n raw :=
    (h'.sig_eq hr' hok').symm.trans (h.sig_eq hr hok)
  exact AuthLibrary.sign_inj hsha hhmac hsame

end Verify

/-- A call of `rotate`. -/
structure Rotation where
  newKid : String
  newSecret : String
  keepPrevious : Bool := true

def rotate (c : Rotation) : CallbackAuthenticator :=
  { A with
    keys := fun kid =>
      if kid = c.newKid then some c.newSecret
      else if c.keepPrevious then A.keys kid else none
    activeKid := c.newKid }

/-! ### The kids that are accepted -/

/-- A callback under the kid can be accepted. -/
def Accepts (kid : String) : Prop :=
  ∃ headers raw now r, A.verify L headers raw now = .ok r ∧ r.ok = true ∧ r.kid = some kid

/-- The window is not empty, and its bound is a float. -/
def Open (tolerance : ℤ) : Prop := -1 ≤ tolerance ∧ tolerance.natAbs < floatLimit

instance (tolerance : ℤ) : Decidable (Open tolerance) := inferInstanceAs (Decidable (_ ∧ _))

theorem open_of_small {tolerance : ℤ} (hlow : -1 ≤ tolerance)
    (hup : tolerance.natAbs < 2 ^ 54 - 1) : Open tolerance :=
  ⟨hlow, hup.trans_le le_floatLimit⟩

/-- The headers have their names by default, and the tolerance is the given one. -/
structure Keeps (tolerance : ℤ) : Prop where
  kidHeader : A.kidHeader = "x-ag-kid"
  timestampHeader : A.timestampHeader = "x-ag-timestamp"
  signatureHeader : A.signatureHeader = "x-ag-signature"
  toleranceSeconds : A.toleranceSeconds = tolerance

/-- The authenticator that has one key. -/
def single (active secret : String) (tolerance : ℤ) : CallbackAuthenticator where
  keys kid := if kid = active then some secret else none
  activeKid := active
  toleranceSeconds := tolerance

def rotated (cs : List Rotation) : CallbackAuthenticator := cs.foldl rotate A

/-- The kids of the key map after the calls. -/
def held (active : String) (cs : List Rotation) : List String :=
  cs.foldl (fun kids c => if c.keepPrevious then c.newKid :: kids else [c.newKid]) [active]

def activeAfter (active : String) (cs : List Rotation) : String :=
  cs.foldl (fun _ c => c.newKid) active

section Rotations

variable {L A} {kid key sig : String} {n tolerance : ℤ} {active secret : String}
  {cs : List Rotation}

theorem accepted_kid {headers : List (String × String)} {raw : List UInt8} {now : Time}
    {r : CallbackVerifyResult} (h : A.Claims L headers kid key n sig)
    (hr : A.verify L headers raw now = .ok r) : r.kid = some kid := by
  rw [verify_of_claims h, verifyAt_eq_ok] at hr
  exact (judge_sound hr.2.2).1

theorem keeps_single : (single active secret tolerance).Keeps tolerance := ⟨rfl, rfl, rfl, rfl⟩

/-- The headers that sign an empty body at the epoch. -/
def signedHeaders (L : AuthLibrary) (kid key : String) : List (String × String) :=
  [("x-ag-kid", kid), ("x-ag-timestamp", "0"), ("x-ag-signature", L.sign kid key 0 [])]

theorem claims_signedHeaders (hA : A.Keeps tolerance) (hne : kid ≠ "")
    (hkey : A.keys kid = some key) :
    A.Claims L (signedHeaders L kid key) kid key 0 (L.sign kid key 0 []) := by
  have hlower : ∀ name ∈ ["x-ag-kid", "x-ag-timestamp", "x-ag-signature"],
      L.lower name = name := by
    have hnames : ∀ name ∈ ["x-ag-kid", "x-ag-timestamp", "x-ag-signature"],
        name.toList.all (fun c => decide (c = '-' ∨ c.isLower = true)) = true := by decide
    intro name hname
    refine L.lower_lower name fun c hc => ?_
    exact of_decide_eq_true (List.all_eq_true.mp (hnames name hname) c hc)
  have hsig : L.sign kid key 0 [] ≠ "" := L.hmac_ne_empty _ _
  refine ⟨"0", ⟨?_, ?_, ?_⟩, hkey, by decide⟩
  · rw [hA.kidHeader, nonEmpty_eq_some]
    exact ⟨by simp [headerLookup, signedHeaders, hlower], hne⟩
  · rw [hA.timestampHeader, nonEmpty_eq_some]
    exact ⟨by simp [headerLookup, signedHeaders, hlower], by decide⟩
  · rw [hA.signatureHeader, nonEmpty_eq_some]
    exact ⟨by simp [headerLookup, signedHeaders, hlower], hsig⟩

theorem window_signedHeaders (hA : A.Keeps tolerance) (hopen : Open tolerance) :
    |(0 : Time) - (0 : ℤ)| ≤ A.toleranceSeconds + 1 := by
  have hlow : (-1 : ℚ) ≤ tolerance := by exact_mod_cast hopen.1
  simp only [hA.toleranceSeconds, Int.cast_zero, sub_self, abs_zero]
  linarith

theorem settled_signedHeaders (hA : A.Keeps tolerance) (hopen : Open tolerance) (hne : kid ≠ "")
    (hkey : A.keys kid = some key) : A.Settled L (signedHeaders L kid key) 0 := by
  intro kid' key' n' sig' h'
  obtain ⟨rfl, rfl, rfl, rfl⟩ := (claims_signedHeaders hA hne hkey).unique h'
  refine ⟨floatLimit_pos, hA.toleranceSeconds ▸ hopen.2, ?_, ?_⟩
  · intro hout
    exact absurd (window_signedHeaders hA hopen) (not_le.mpr hout)
  · intro _
    exact AuthLibrary.isAscii_sign ..

/-- The kids that are accepted are those of the key map. -/
theorem accepts_iff (hA : A.Keeps tolerance) :
    A.Accepts L kid ↔ kid ≠ "" ∧ A.keys kid ≠ none ∧ Open tolerance := by
  constructor
  · rintro ⟨headers, raw, now, r, hr, hok, hkid⟩
    obtain ⟨kid', key, n, sig, h, hwindow, -⟩ := (verify_sound hr).mp hok
    cases (accepted_kid h hr).symm.trans hkid
    have hfloat := (verify_total.mp ⟨r, hr⟩ _ _ _ _ h).2.1
    obtain ⟨ts, ⟨hpresent, -, -⟩, hkey, -⟩ := h
    have hlow : (0 : ℚ) ≤ A.toleranceSeconds + 1 := (abs_nonneg _).trans hwindow
    rw [hA.toleranceSeconds] at hfloat hlow
    have hopen : (-1 : ℚ) ≤ tolerance := by linarith
    exact ⟨(nonEmpty_eq_some.mp hpresent).2, by simp [hkey], by exact_mod_cast hopen, hfloat⟩
  · rintro ⟨hne, hkey, hopen⟩
    obtain ⟨key, hkey⟩ := Option.ne_none_iff_exists'.mp hkey
    have h := claims_signedHeaders (L := L) hA hne hkey
    obtain ⟨r, hr⟩ : ∃ r, A.verify L (signedHeaders L kid key) [] 0 = .ok r :=
      verify_total.mpr (settled_signedHeaders hA hopen hne hkey)
    exact ⟨_, _, _, r, hr,
      (verify_sound hr).mpr ⟨kid, key, 0, _, h, window_signedHeaders hA hopen, rfl⟩,
      accepted_kid h hr⟩

/-- **`verify` answers, says exactly who is genuine, and takes a signature for one triple only,
exactly where nothing in it raises.** -/
theorem verify_exact {L : AuthLibrary} (hsha : Function.Injective L.sha256)
    (hhmac : ∀ key, Function.Injective (L.hmacSha256 key)) (A : CallbackAuthenticator)
    (headers : List (String × String)) (raw : List UInt8) (now : Time) :
    (∃ r, A.verify L headers raw now = .ok r ∧ (r.ok = true ↔ A.Genuine L headers raw now) ∧
        (r.ok = true → A.Binds L headers raw)) ↔
      A.Settled L headers now := by
  constructor
  · rintro ⟨r, hr, -⟩
    exact verify_total.mp ⟨r, hr⟩
  · intro h
    obtain ⟨r, hr⟩ := verify_total.mpr h
    exact ⟨r, hr, verify_sound hr, binds_of_verify hsha hhmac hr⟩

/-- A callback of the epoch, signed with the first key. -/
theorem verify_signed :
    ∃ r, (single "k1" "s1" 300).verify hexLibrary (signedHeaders hexLibrary "k1" "s1") [] 0 =
        .ok r ∧
      (r.ok = true ↔
        (single "k1" "s1" 300).Genuine hexLibrary (signedHeaders hexLibrary "k1" "s1") [] 0) ∧
      (r.ok = true →
        (single "k1" "s1" 300).Binds hexLibrary (signedHeaders hexLibrary "k1" "s1") []) :=
  (verify_exact hexText_injective (fun _ => hexText_injective) _ _ _ _).mpr
    (settled_signedHeaders keeps_single (open_of_small (by decide) (by decide))
      (by decide) rfl)

/-- Headers with a signature that is no ASCII. -/
def accentedHeaders : List (String × String) :=
  [("x-ag-kid", "k1"), ("x-ag-timestamp", "0"), ("x-ag-signature", "é")]

/-- **`verify` raises on a signature that is no ASCII.** -/
theorem verify_raises :
    ¬ ∃ r, (single "k1" "s1" 300).verify hexLibrary accentedHeaders [] 0 = .ok r ∧
      (r.ok = true ↔ (single "k1" "s1" 300).Genuine hexLibrary accentedHeaders [] 0) ∧
      (r.ok = true → (single "k1" "s1" 300).Binds hexLibrary accentedHeaders []) := by
  rintro ⟨r, hr, -⟩
  have hclaims : (single "k1" "s1" 300).Claims hexLibrary accentedHeaders "k1" "s1" 0 "é" :=
    ⟨"0", ⟨by decide, by decide, by decide⟩, rfl, by decide⟩
  have hascii := (verify_total.mp ⟨r, hr⟩ _ _ _ _ hclaims).2.2.2
    (window_signedHeaders keeps_single
      (open_of_small (by decide) (by decide)))
  exact absurd hascii (by decide)

/-! ### Rotations -/

theorem keys_rotate {c : Rotation} :
    (A.rotate c).keys kid ≠ none ↔
      kid = c.newKid ∨ c.keepPrevious = true ∧ A.keys kid ≠ none := by
  by_cases hnew : kid = c.newKid
  · simp [rotate, hnew]
  · by_cases hkeep : c.keepPrevious = true <;> simp [rotate, hnew, hkeep]

theorem Keeps.rotate (hA : A.Keeps tolerance) (c : Rotation) : (A.rotate c).Keeps tolerance :=
  ⟨hA.1, hA.2, hA.3, hA.4⟩

theorem keeps_rotated (active secret : String) (tolerance : ℤ) (cs : List Rotation) :
    ((single active secret tolerance).rotated cs).Keeps tolerance := by
  induction cs using List.reverseRecOn with
  | nil => exact keeps_single
  | append_singleton cs c ih =>
      rw [rotated, List.foldl_concat]
      exact ih.rotate c

theorem activeKid_rotated :
    ((single active secret tolerance).rotated cs).activeKid = activeAfter active cs := by
  induction cs using List.reverseRecOn with
  | nil => rfl
  | append_singleton cs c ih =>
      rw [rotated, activeAfter, List.foldl_concat, List.foldl_concat]
      rfl

/-- The key map holds what was rotated in since the last call that dropped the others. -/
theorem mem_held (secret : String) (tolerance : ℤ) :
    ((single active secret tolerance).rotated cs).keys kid ≠ none ↔ kid ∈ held active cs := by
  induction cs using List.reverseRecOn with
  | nil => by_cases h : kid = active <;> simp [rotated, held, single, h]
  | append_singleton cs c ih =>
      rw [rotated, held, List.foldl_concat, List.foldl_concat, ← rotated, ← held, keys_rotate, ih]
      by_cases hkeep : c.keepPrevious = true <;> simp [hkeep]

/-- After the call no kid is accepted but the active one and the one that was active before; and
the active one alone, where the call keeps no other. -/
def TwoKids (L : AuthLibrary) (A : CallbackAuthenticator) (c : Rotation) : Prop :=
  (∀ kid, (A.rotate c).Accepts L kid → kid = c.newKid ∨ kid = A.activeKid) ∧
    (c.keepPrevious = false → ∀ kid, (A.rotate c).Accepts L kid ↔ kid = c.newKid)

/-- A call that keeps the previous key finds no kid older than that; one that keeps none has a
name for the new key, and a window in which it can be used. -/
def Fresh (tolerance : ℤ) (active : String) (before : List Rotation) (c : Rotation) : Prop :=
  if c.keepPrevious then
    Open tolerance → ∀ kid ∈ held active before,
      kid = "" ∨ kid = c.newKid ∨ kid = activeAfter active before
  else Open tolerance ∧ c.newKid ≠ ""

theorem twoKids_iff_fresh {before : List Rotation} {c : Rotation} :
    TwoKids L ((single active secret tolerance).rotated before) c ↔
      Fresh tolerance active before c := by
  have hA := (keeps_rotated active secret tolerance before).rotate c
  rw [TwoKids, Fresh, activeKid_rotated]
  simp only [accepts_iff hA, ← mem_held secret tolerance]
  by_cases hkeep : c.keepPrevious = true
  · simp only [keys_rotate, hkeep, if_true, true_and, Bool.true_eq_false, false_implies, and_true]
    constructor
    · intro h hopen kid hkid
      by_cases hne : kid = ""
      · exact .inl hne
      · exact .inr (h kid ⟨hne, .inr hkid, hopen⟩)
    · rintro h kid ⟨hne, hnew | hkid, hopen⟩
      · exact .inl hnew
      · exact (h hopen kid hkid).resolve_left hne
  · simp only [keys_rotate, hkeep, Bool.false_eq_true, false_and, or_false, if_false, true_implies]
    constructor
    · rintro ⟨-, h⟩
      obtain ⟨hne, -, hopen⟩ := (h c.newKid).mpr rfl
      exact ⟨hopen, hne⟩
    · rintro ⟨hopen, hne⟩
      refine ⟨fun kid h => .inl h.2.1, fun kid => ⟨fun h => h.2.1, ?_⟩⟩
      rintro rfl
      exact ⟨hne, rfl, hopen⟩

/-- **After every call two kids are accepted at most, and one where none is kept, exactly when each
call is fresh.** -/
theorem rotations_keep_two (L : AuthLibrary) (active secret : String) (tolerance : ℤ)
    (cs : List Rotation) :
    (∀ before c after, cs = before ++ c :: after →
        TwoKids L ((single active secret tolerance).rotated before) c) ↔
      ∀ before c after, cs = before ++ c :: after → Fresh tolerance active before c := by
  simp only [twoKids_iff_fresh]

/-- Two rotations that keep the previous key. -/
def twoRotations : List Rotation := [⟨"k2", "s2", true⟩, ⟨"k3", "s3", true⟩]

/-- **The first key is still accepted after two rotations.** -/
theorem first_key_stays :
    ¬ ∀ before c after, twoRotations = before ++ c :: after →
      TwoKids hexLibrary ((single "k1" "s1" 300).rotated before) c := by
  intro h
  have hfresh := twoKids_iff_fresh.mp (h [⟨"k2", "s2", true⟩] ⟨"k3", "s3", true⟩ [] rfl)
  rcases hfresh (open_of_small (by decide) (by decide)) "k1" (by decide) with h | h | h
  · exact absurd h (by decide)
  · exact absurd h (by decide)
  · exact absurd h (by decide)

end Rotations

end CallbackAuthenticator

end AsyncGateway
