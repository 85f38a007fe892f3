import AsyncGateway.Lib.Dumps

/-!
# Library — how a document is read

`loads` reads a text as `json.loads` does, and `plain` writes a document as
`json.dumps(.., ensure_ascii=False)` does.  What is written of a string or a number is read back,
whatever may stand behind it (`scanString_quote`, `matchNumber_append`).

A number with a fraction or an exponent is read as the text Python writes for its value
(`FloatRepr`).  A text has no lone surrogates here, so the escape of one is refused.
-/

namespace Json

/-! ### Writing -/

mutual

def plainChars : Json → List Char
  | .null => "null".toList
  | .bool true => "true".toList
  | .bool false => "false".toList
  | .int n => (toString n).toList
  | .float text => text.toList
  | .str s => quote s
  | .arr items => '[' :: plainItems items
  | .obj fields => '{' :: plainFields fields

/-- The items of a list, and the bracket that closes it. -/
def plainItems : List Json → List Char
  | [] => [']']
  | [x] => plainChars x ++ [']']
  | x :: y :: ys => plainChars x ++ ',' :: ' ' :: plainItems (y :: ys)

/-- The fields of an object, and the bracket that closes it. -/
def plainFields : List (String × Json) → List Char
  | [] => ['}']
  | [(k, v)] => quote k ++ ':' :: ' ' :: (plainChars v ++ ['}'])
  | (k, v) :: f :: fs =>
      quote k ++ ':' :: ' ' :: (plainChars v ++ ',' :: ' ' :: plainFields (f :: fs))

end

/-- `json.dumps(.., ensure_ascii=False)`. -/
def plain (doc : Json) : String := String.ofList (plainChars doc)

/-! ### Reading a string -/

def isHex (c : Char) : Bool := c.isDigit || ('a' ≤ c && c ≤ 'f') || ('A' ≤ c && c ≤ 'F')

def hexValue (c : Char) : ℕ :=
  if c.isDigit then c.toNat - 48 else if 'a' ≤ c then c.toNat - 87 else c.toNat - 55

/-- `_decode_uXXXX`: the number of four hexadecimal digits. -/
def hex4 : List Char → Option (ℕ × List Char)
  | a :: b :: c :: d :: cs =>
      if isHex a && isHex b && isHex c && isHex d then
        some (((hexValue a * 16 + hexValue b) * 16 + hexValue c) * 16 + hexValue d, cs)
      else none
  | _ => none

/-- The characters that stand behind a backslash, but for `u`. -/
def backslash (e : Char) : Option Char :=
  if e = '"' ∨ e = '\\' ∨ e = '/' then some e
  else if e ∈ "nrtbf".toList then some (unescaped e)
  else none

/-- The character of a `\u` escape, of two such escapes where the first one is a high surrogate. -/
def unicode (cs : List Char) : Option (Char × List Char) :=
  match hex4 cs with
  | none => none
  | some (n, rest) =>
      if 0xd800 ≤ n ∧ n ≤ 0xdbff then
        match rest with
        | '\\' :: 'u' :: low =>
            match hex4 low with
            | some (m, rest) =>
                if 0xdc00 ≤ m ∧ m ≤ 0xdfff then
                  some (Char.ofNat (0x10000 + (n - 0xd800) * 0x400 + (m - 0xdc00)), rest)
                else none
            | none => none
        | _ => none
      else if 0xdc00 ≤ n ∧ n ≤ 0xdfff then none
      else some (Char.ofNat n, rest)

/-- `py_scanstring`, behind the quote that opens the string. -/
def scanString : ℕ → List Char → Option (List Char × List Char)
  | 0, _ => none
  | _, [] => none
  | fuel + 1, c :: cs =>
      if c = '"' then some ([], cs)
      else if c = '\\' then
        match cs with
        | [] => none
        | e :: cs =>
            if e = 'u' then
              (unicode cs).bind fun (c, rest) =>
                (scanString fuel rest).map fun (s, rest) => (c :: s, rest)
            else
              (backslash e).bind fun c =>
                (scanString fuel cs).map fun (s, rest) => (c :: s, rest)
      else if c.toNat < 32 then none
      else (scanString fuel cs).map fun (s, rest) => (c :: s, rest)

/-! ### Reading a number -/

def signPart : List Char → List Char × List Char
  | [] => ([], [])
  | c :: cs => if c = '-' then (['-'], cs) else ([], c :: cs)

def intPart : List Char → Option (List Char × List Char)
  | [] => none
  | c :: cs =>
      if c = '0' then some (['0'], cs)
      else if c.isDigit then some (c :: cs.takeWhile Char.isDigit, cs.dropWhile Char.isDigit)
      else none

def fracPart : List Char → List Char × List Char
  | [] => ([], [])
  | c :: cs =>
      if c = '.' ∧ cs.takeWhile Char.isDigit ≠ [] then
        ('.' :: cs.takeWhile Char.isDigit, cs.dropWhile Char.isDigit)
      else ([], c :: cs)

/-- The sign of an exponent, if it has one. -/
def expSign : List Char → List Char × List Char
  | [] => ([], [])
  | c :: cs => if c = '+' ∨ c = '-' then ([c], cs) else ([], c :: cs)

def expPart : List Char → List Char × List Char
  | [] => ([], [])
  | c :: cs =>
      let (sign, digits) := expSign cs
      if (c = 'e' ∨ c = 'E') ∧ digits.takeWhile Char.isDigit ≠ [] then
        (c :: (sign ++ digits.takeWhile Char.isDigit), digits.dropWhile Char.isDigit)
      else ([], c :: cs)

/-- `NUMBER_RE`: the integer, the fraction with the exponent, and what stands behind them. -/
def matchNumber (cs : List Char) : Option (List Char × List Char × List Char) :=
  let (sign, cs) := signPart cs
  (intPart cs).map fun (digits, cs) =>
    let (frac, cs) := fracPart cs
    let (exp, cs) := expPart cs
    (sign ++ digits, frac ++ exp, cs)

/-- The constants that are no JSON, as Python writes them. -/
def constants : List String := ["NaN", "Infinity", "-Infinity"]

/-- `repr(float(text))`: what it writes is one of the constants, or a number it writes again. -/
structure FloatRepr where
  repr : List Char → String
  again : ∀ {cs whole part behind}, matchNumber cs = some (whole, part, behind) → part ≠ [] →
    repr (whole ++ part) ∈ constants ∨
      ∃ whole' part', matchNumber (repr (whole ++ part)).toList = some (whole', part', []) ∧
        part' ≠ [] ∧ repr (whole' ++ part') = repr (whole ++ part)

/-- `repr` of `1.50` and of `1.5`. -/
def oneFloat : FloatRepr where
  repr cs := if cs = "1.50".toList ∨ cs = "1.5".toList then "1.5" else "0.0"
  again := by
    intro cs whole part behind _ _
    right
    split
    · exact ⟨"1".toList, ".5".toList, by decide, by decide, by decide⟩
    · exact ⟨"0".toList, ".0".toList, by decide, by decide, by decide⟩

/-! ### Reading a document -/

def isBlank (c : Char) : Bool := c ∈ [' ', '\t', '\n', '\r']

def skip (cs : List Char) : List Char := cs.dropWhile isBlank

/-- What stands behind a word, where the text starts with it. -/
def behind (word : String) (cs : List Char) : Option (List Char) :=
  if word.toList.isPrefixOf cs then some (cs.drop word.toList.length) else none

section Scan

variable (R : FloatRepr)

/-- A number, or one of the words. -/
def scanAtom (cs : List Char) : Option (Json × List Char) :=
  match behind "null" cs with
  | some rest => some (.null, rest)
  | none =>
  match behind "true" cs with
  | some rest => some (.bool true, rest)
  | none =>
  match behind "false" cs with
  | some rest => some (.bool false, rest)
  | none =>
  match matchNumber cs with
  | some (whole, part, rest) =>
      if part = [] then (Text.integer? whole).map fun n => (.int n, rest)
      else some (.float (R.repr (whole ++ part)), rest)
  | none =>
      (constants.find? fun word => (behind word cs).isSome).map fun word =>
        (.float word, cs.drop word.toList.length)

mutual

/-- `scan_once`. -/
def scanOnce : ℕ → List Char → Option (Json × List Char)
  | 0, _ => none
  | _, [] => none
  | fuel + 1, c :: cs =>
      if c = '"' then (scanString cs.length cs).map fun (s, rest) => (.str (String.ofList s), rest)
      else if c = '{' then
        match skip cs with
        | [] => none
        | c :: rest =>
            if c = '}' then some (.obj [], rest)
            else (scanPairs fuel (c :: rest)).map fun (pairs, rest) =>
              (.obj (update [] pairs), rest)
      else if c = '[' then
        match skip cs with
        | [] => none
        | c :: rest =>
            if c = ']' then some (.arr [], rest)
            else (scanItems fuel (c :: rest)).map fun (items, rest) => (.arr items, rest)
      else scanAtom R (c :: cs)

/-- The items that are left of an array, as far as its bracket. -/
def scanItems : ℕ → List Char → Option (List Json × List Char)
  | 0, _ => none
  | fuel + 1, cs =>
      (scanOnce fuel cs).bind fun (x, rest) =>
        match skip rest with
        | [] => none
        | c :: rest =>
            if c = ']' then some ([x], rest)
            else if c = ',' then
              (scanItems fuel (skip rest)).map fun (xs, rest) => (x :: xs, rest)
            else none

/-- The pairs that are left of an object, as far as its bracket. -/
def scanPairs : ℕ → List Char → Option (List (String × Json) × List Char)
  | 0, _ => none
  | _, [] => none
  | fuel + 1, c :: cs =>
      if c ≠ '"' then none
      else
        (scanString cs.length cs).bind fun (k, rest) =>
          match skip rest with
          | [] => none
          | c :: rest =>
              if c ≠ ':' then none
              else
                (scanOnce fuel (skip rest)).bind fun (v, rest) =>
                  match skip rest with
                  | [] => none
                  | c :: rest =>
                      if c = '}' then some ([(String.ofList k, v)], rest)
                      else if c = ',' then
                        (scanPairs fuel (skip rest)).map fun (pairs, rest) =>
                          ((String.ofList k, v) :: pairs, rest)
                      else none

end

def byteOrderMark : Char := Char.ofNat 0xfeff

/-- `json.loads`. -/
def loads (text : String) : Option Json :=
  let cs := text.toList
  if cs.head? = some byteOrderMark then none
  else
    match scanOnce R (cs.length + 1) (skip cs) with
    | some (doc, rest) => if skip rest = [] then some doc else none
    | none => none

end Scan

/-! ### A string is read back -/

theorem hexDigit_spec : ∀ m < 16, isHex (hexDigit m) = true ∧ hexValue (hexDigit m) = m := by decide

theorem backslash_of_mem {e : Char} (h : e ∈ "nrtbf".toList) :
    backslash e = some (unescaped e) := by
  have hne : ¬ (e = '"' ∨ e = '\\' ∨ e = '/') := by
    rintro (rfl | rfl | rfl) <;> exact absurd h (by decide)
  rw [backslash, if_neg hne, if_pos h]

theorem unicode_control {n : ℕ} (h : n < 32) (cs : List Char) :
    unicode ('0' :: '0' :: hexDigit (n / 16) :: hexDigit (n % 16) :: cs) =
      some (Char.ofNat n, cs) := by
  obtain ⟨hhigh, hh⟩ := hexDigit_spec (n / 16) (by omega)
  obtain ⟨hlow, hl⟩ := hexDigit_spec (n % 16) (by omega)
  have hzero : isHex '0' = true ∧ hexValue '0' = 0 := by decide
  have hhex : hex4 ('0' :: '0' :: hexDigit (n / 16) :: hexDigit (n % 16) :: cs) = some (n, cs) := by
    simp only [hex4, hhigh, hlow, hh, hl, hzero, Bool.and_self, if_true, Option.some.injEq,
      Prod.mk.injEq, and_true]
    omega
  have hn : ¬ (0xd800 ≤ n ∧ n ≤ 0xdbff) ∧ ¬ (0xdc00 ≤ n ∧ n ≤ 0xdfff) := by omega
  simp only [unicode, hhex, if_neg hn.1, if_neg hn.2]

/-- What a character is written as is read as the character. -/
theorem scanString_escape (fuel : ℕ) (c : Char) (cs : List Char) :
    scanString (fuel + 1) (escape c ++ cs) =
      (scanString fuel cs).map fun (s, rest) => (c :: s, rest) := by
  have hbehind : ∀ e, e ∈ "nrtbf".toList → unescaped e = c →
      scanString (fuel + 1) (['\\', e] ++ cs) =
        (scanString fuel cs).map fun (s, rest) => (c :: s, rest) := by
    intro e he hc
    have hu : e ≠ 'u' := by
      rintro rfl
      exact absurd he (by decide)
    simp [scanString, hu, backslash_of_mem he, hc]
  rw [escape]
  split_ifs with hq hn hr ht hb hf hc
  · rcases hq with rfl | rfl <;> simp [scanString, backslash]
  · exact hbehind 'n' (by decide) (by rw [hn]; rfl)
  · exact hbehind 'r' (by decide) (by rw [hr]; rfl)
  · exact hbehind 't' (by decide) (by rw [ht]; rfl)
  · exact hbehind 'b' (by decide) (Char.toNat_inj.mp hb.symm)
  · exact hbehind 'f' (by decide) (Char.toNat_inj.mp hf.symm)
  · simp [scanString, unicode_control hc, Char.ofNat_toNat]
  · obtain ⟨hquote, hback⟩ := not_or.mp hq
    simp [scanString, hquote, hback, hc]

theorem length_escape (c : Char) : 1 ≤ (escape c).length := by
  rw [escape]
  split_ifs <;> simp

/-- A string is read back, whatever stands behind it. -/
theorem scanString_quote (s : List Char) (rest : List Char) {fuel : ℕ} (h : s.length < fuel) :
    scanString fuel (s.flatMap escape ++ '"' :: rest) = some (s, rest) := by
  induction s generalizing fuel with
  | nil =>
      obtain ⟨fuel, rfl⟩ := Nat.exists_eq_add_one_of_ne_zero (Nat.ne_of_gt h)
      simp [scanString]
  | cons c s ih =>
      obtain ⟨fuel, rfl⟩ := Nat.exists_eq_add_one_of_ne_zero (Nat.ne_zero_of_lt h)
      rw [List.flatMap_cons, List.append_assoc, scanString_escape,
        ih (Nat.lt_of_succ_lt_succ h)]
      rfl

theorem length_flatMap_escape (s : List Char) : s.length ≤ (s.flatMap escape).length := by
  induction s with
  | nil => exact le_rfl
  | cons c s ih =>
      have := length_escape c
      rw [List.flatMap_cons, List.length_append, List.length_cons]
      omega

/-- As a reader meets it: behind the quote that opens the string. -/
theorem scanString_behind (s : String) (rest cs : List Char)
    (hcs : cs = s.toList.flatMap escape ++ '"' :: rest) :
    scanString cs.length cs = some (s.toList, rest) := by
  subst hcs
  refine scanString_quote s.toList rest ?_
  have := length_flatMap_escape s.toList
  rw [List.length_append, List.length_cons]
  omega

/-! ### A number is read back -/

section Numbers

variable {xs rest whole part : List Char}

theorem Closing.cases (h : Closing rest) :
    rest = [] ∨ ∃ c cs, rest = c :: cs ∧ (c = ',' ∨ c = ']' ∨ c = '}') := by
  cases rest with
  | nil => exact .inl rfl
  | cons c cs => exact .inr ⟨c, cs, rfl, h c rfl⟩

theorem digits_append (h : Closing rest) (xs : List Char) :
    (xs ++ rest).takeWhile Char.isDigit = xs.takeWhile Char.isDigit ∧
      (xs ++ rest).dropWhile Char.isDigit = xs.dropWhile Char.isDigit ++ rest := by
  induction xs with
  | nil =>
      obtain rfl | ⟨c, cs, rfl, rfl | rfl | rfl⟩ := h.cases <;> exact ⟨rfl, rfl⟩
  | cons c xs ih =>
      by_cases hc : c.isDigit = true
      · simp [hc, ih.1, ih.2]
      · simp [hc]

theorem signPart_append (h : Closing rest) (xs : List Char) :
    signPart (xs ++ rest) = ((signPart xs).1, (signPart xs).2 ++ rest) := by
  cases xs with
  | nil => obtain rfl | ⟨c, cs, rfl, rfl | rfl | rfl⟩ := h.cases <;> rfl
  | cons c xs =>
      simp only [List.cons_append, signPart]
      split <;> rfl

theorem intPart_append (h : Closing rest) (xs : List Char) :
    intPart (xs ++ rest) = (intPart xs).map fun (digits, cs) => (digits, cs ++ rest) := by
  cases xs with
  | nil => obtain rfl | ⟨c, cs, rfl, rfl | rfl | rfl⟩ := h.cases <;> rfl
  | cons c xs =>
      simp only [List.cons_append, intPart, (digits_append h xs).1, (digits_append h xs).2]
      split_ifs <;> rfl

theorem fracPart_append (h : Closing rest) (xs : List Char) :
    fracPart (xs ++ rest) = ((fracPart xs).1, (fracPart xs).2 ++ rest) := by
  cases xs with
  | nil => obtain rfl | ⟨c, cs, rfl, rfl | rfl | rfl⟩ := h.cases <;> rfl
  | cons c xs =>
      simp only [List.cons_append, fracPart, (digits_append h xs).1, (digits_append h xs).2]
      split_ifs <;> rfl

theorem expSign_append (h : Closing rest) (xs : List Char) :
    expSign (xs ++ rest) = ((expSign xs).1, (expSign xs).2 ++ rest) := by
  cases xs with
  | nil => obtain rfl | ⟨c, cs, rfl, rfl | rfl | rfl⟩ := h.cases <;> rfl
  | cons c xs =>
      simp only [List.cons_append, expSign]
      split <;> rfl

theorem expPart_append (h : Closing rest) (xs : List Char) :
    expPart (xs ++ rest) = ((expPart xs).1, (expPart xs).2 ++ rest) := by
  cases xs with
  | nil => obtain rfl | ⟨c, cs, rfl, rfl | rfl | rfl⟩ := h.cases <;> rfl
  | cons c xs =>
      simp only [List.cons_append, expPart, expSign_append h xs,
        (digits_append h (expSign xs).2).1, (digits_append h (expSign xs).2).2]
      split_ifs <;> rfl

/-- A number ends where what closes an item stands. -/
theorem matchNumber_append (h : Closing rest) (xs : List Char) :
    matchNumber (xs ++ rest) =
      (matchNumber xs).map fun (whole, part, cs) => (whole, part, cs ++ rest) := by
  simp only [matchNumber, signPart_append h, intPart_append h, Option.map_map]
  refine congrArg (fun f => (intPart (signPart xs).2).map f) (funext fun digits => ?_)
  simp only [Function.comp, fracPart_append h, expPart_append h]

/-- No number but zero starts with the digit zero. -/
theorem head_repr {n : ℕ} (hn : 0 < n) : ∀ c ∈ n.repr.toList.head?, c ≠ '0' := by
  rw [Nat.toList_repr]
  induction n using Nat.strong_induction_on with
  | _ n ih =>
      by_cases hlt : n < 10
      · have hdigit : ∀ m < 10, 0 < m → m.digitChar ≠ '0' := by decide
        rw [Nat.toDigits_of_lt_base hlt]
        rintro c ⟨⟩
        exact hdigit n hlt hn
      · have hdiv : 0 < n / 10 := Nat.div_pos (not_lt.mp hlt) (by decide)
        rw [Nat.toDigits_of_base_le (by decide) (not_lt.mp hlt),
          List.head?_append_of_ne_nil _ Nat.toDigits_ne_nil]
        exact ih (n / 10) (Nat.div_lt_self hn (by decide)) hdiv

theorem intPart_repr (n : ℕ) : intPart n.repr.toList = some (n.repr.toList, []) := by
  obtain ⟨hne, hdigits⟩ := Text.repr_isDigits n
  rcases Nat.eq_zero_or_pos n with rfl | hn
  · rfl
  · obtain ⟨c, cs, hcs⟩ := List.exists_cons_of_ne_nil hne
    have hzero : c ≠ '0' := head_repr hn c (by rw [hcs]; rfl)
    rw [hcs] at hdigits ⊢
    obtain ⟨hc, hrest⟩ := List.forall_mem_cons.mp hdigits
    have htake : cs.takeWhile Char.isDigit = cs := List.takeWhile_eq_self_iff.mpr hrest
    have hdrop : cs.dropWhile Char.isDigit = [] := List.dropWhile_eq_nil_iff.mpr hrest
    rw [intPart, if_neg hzero, if_pos hc, htake, hdrop]

theorem matchNumber_toString (n : ℤ) :
    matchNumber (toString n).toList = some ((toString n).toList, [], []) := by
  have hplain : matchNumber n.natAbs.repr.toList = some (n.natAbs.repr.toList, [], []) := by
    obtain ⟨hne, hdigits⟩ := Text.repr_isDigits n.natAbs
    have hsign : signPart n.natAbs.repr.toList = ([], n.natAbs.repr.toList) := by
      obtain ⟨c, cs, hcs⟩ := List.exists_cons_of_ne_nil hne
      have hminus : c ≠ '-' := by
        rintro rfl
        exact absurd (hdigits '-' (hcs ▸ List.mem_cons_self)) (by decide)
      rw [hcs, signPart, if_neg hminus]
    simp only [matchNumber, hsign, intPart_repr, Option.map_some, fracPart, expPart,
      List.nil_append, List.append_nil]
  rcases Text.toString_cases n with ⟨-, htext⟩ | ⟨-, htext⟩
  · rw [htext, hplain]
  · simp only [htext, matchNumber, signPart, if_true, intPart_repr, Option.map_some, fracPart,
      expPart, List.singleton_append, List.append_nil]

end Numbers

end Json
