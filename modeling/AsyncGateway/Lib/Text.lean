import Mathlib.Algebra.Group.Nat.Defs
import Mathlib.Data.Int.Notation
import Mathlib.Data.List.DropRight
import Mathlib.Data.Rat.Defs

/-!
# Library — Python's text

What `str.isspace`, `str.strip` and `int` read in a string, by the Unicode tables Python has:
the white space, and the decimal digits, which come in runs of ten.  The other way, the text of an
integer (`toString`) is made of digits and a sign (`mem_toString`), it determines the integer
(`toString_injective`), and `int` reads it back unless it has too many digits (`int?_toString`).
What `repr` makes of a string and of a float is there to be shown and stored only.
-/

namespace Text

/-- `c.isspace()`. -/
def isSpace (c : Char) : Bool :=
  let n := c.toNat
  decide ((9 ≤ n ∧ n ≤ 13) ∨ (28 ≤ n ∧ n ≤ 32) ∨ n = 0x85 ∨ n = 0xa0 ∨ n = 0x1680 ∨
    (0x2000 ≤ n ∧ n ≤ 0x200a) ∨ n = 0x2028 ∨ n = 0x2029 ∨ n = 0x202f ∨ n = 0x205f ∨ n = 0x3000)

/-- A character of `repr(s)`, between quotes of that kind. -/
def reprChar (quote c : Char) : List Char :=
  let n := c.toNat
  if c = quote ∨ c = '\\' then ['\\', c]
  else if c = '\n' then ['\\', 'n']
  else if c = '\r' then ['\\', 'r']
  else if c = '\t' then ['\\', 't']
  else if n < 32 ∨ (127 ≤ n ∧ n ≤ 160) ∨ n = 173 then
    ['\\', 'x', Nat.digitChar (n / 16), Nat.digitChar (n % 16)]
  else [c]

/-- `repr(s)`: in single quotes, or in double ones where only single ones are in it.  A character
from U+0100 on is taken as one that can be printed. -/
def pyRepr (s : String) : String :=
  let single := Char.ofNat 39
  let quote := if single ∈ s.toList ∧ '"' ∉ s.toList then '"' else single
  String.ofList (quote :: s.toList.flatMap (reprChar quote) ++ [quote])

example : pyRepr "a\tb" = String.ofList [Char.ofNat 39, 'a', '\\', 't', 'b', Char.ofNat 39] := by
  decide

/-- How many decimal places a fraction takes, counting no further than a float's do. -/
def places (num den : ℕ) : ℕ := ((List.range 342).find? fun k => den ∣ num * 10 ^ k).getD 341

/-- `repr(x)` of the float that is this number: seventeen digits at most, with an exponent from
`1e16` on and below `0.0001`. -/
def floatRepr (q : ℚ) : String :=
  let k := places q.num.natAbs q.den
  let whole := Nat.toDigits 10 (q.num.natAbs * 10 ^ k / q.den)
  let digits := (whole.take 17).rdropWhile (· == '0')
  -- the decimal point stands after that many digits, before the first one where negative
  let point : ℤ := whole.length - k
  let text :=
    if 16 < point ∨ point < -3 then
      let e := point - 1
      let exponent := Nat.toDigits 10 e.natAbs
      digits.take 1 ++ (if digits.length ≤ 1 then [] else '.' :: digits.drop 1) ++
        ['e', if e < 0 then '-' else '+'] ++ (if exponent.length = 1 then ['0'] else []) ++ exponent
    else if 0 < point then
      (digits.take point.toNat).rightpad point.toNat '0' ++ ['.'] ++
        (digits.drop point.toNat).rightpad 1 '0'
    else "0.".toList ++ List.replicate point.natAbs '0' ++ digits
  String.ofList (if q < 0 then '-' :: text else text)

example : (floatRepr 60, floatRepr (15 / 2), floatRepr (1 / 100000)) = ("60.0", "7.5", "1e-05") := by
  decide +kernel

/-- `s.strip()`. -/
def strip (s : List Char) : List Char :=
  ((s.dropWhile isSpace).reverse.dropWhile isSpace).reverse

/-- What is stripped has no white space around it. -/
theorem strip_strip (s : List Char) : strip (strip s) = strip s := by
  have hstrip : ∀ t, strip t = (t.dropWhile isSpace).rdropWhile isSpace := fun _ => rfl
  have hfront : (strip s).dropWhile isSpace = strip s := by
    refine List.dropWhile_eq_self_iff.mpr fun hl => ?_
    have hpre : strip s <+: s.dropWhile isSpace := List.rdropWhile_prefix isSpace _
    have hpos : 0 < (s.dropWhile isSpace).length := lt_of_lt_of_le hl hpre.length_le
    rw [hpre.getElem hl]
    exact List.dropWhile_get_zero_not isSpace s hpos
  rw [hstrip (strip s), hfront, hstrip s, List.rdropWhile_idempotent]

/-- A text is what is stripped from it with white space around. -/
theorem strip_split (s : List Char) :
    ∃ front back, s = front ++ strip s ++ back ∧ (∀ c ∈ front, isSpace c = true) ∧
      ∀ c ∈ back, isSpace c = true := by
  have hback := List.rdropWhile_append_rtakeWhile (p := isSpace) (l := s.dropWhile isSpace)
  refine ⟨s.takeWhile isSpace, (s.dropWhile isSpace).rtakeWhile isSpace, ?_,
    fun _ => List.mem_takeWhile_imp, fun c => List.mem_rtakeWhile_imp⟩
  rw [List.append_assoc]
  calc s = s.takeWhile isSpace ++ s.dropWhile isSpace := List.takeWhile_append_dropWhile.symm
    _ = _ := congrArg _ hback.symm

theorem dropWhile_front {front s : List Char} (hfront : ∀ c ∈ front, isSpace c = true)
    (h : ∀ c ∈ s.head?, isSpace c = false) : (front ++ s).dropWhile isSpace = s := by
  rw [List.dropWhile_append_of_pos hfront]
  cases s with
  | nil => rfl
  | cons c s => simp [h c rfl]

/-- White space around a text is stripped. -/
theorem strip_pad {front s back : List Char} (hfront : ∀ c ∈ front, isSpace c = true)
    (hback : ∀ c ∈ back, isSpace c = true) (hne : s ≠ [])
    (hhead : ∀ c ∈ s.head?, isSpace c = false) (hlast : ∀ c ∈ s.getLast?, isSpace c = false) :
    strip (front ++ s ++ back) = s := by
  have hhead' : ∀ c ∈ (s ++ back).head?, isSpace c = false := by
    rwa [List.head?_append_of_ne_nil s hne]
  have hlast' : ∀ c ∈ s.reverse.head?, isSpace c = false := by
    rwa [List.head?_reverse]
  have hback' : ∀ c ∈ back.reverse, isSpace c = true := fun c hc =>
    hback c (List.mem_reverse.mp hc)
  rw [strip, List.append_assoc, dropWhile_front hfront hhead', List.reverse_append,
    dropWhile_front hback' hlast', List.reverse_reverse]

theorem strip_of_not_isSpace {s : List Char} (h : ∀ c ∈ s, isSpace c = false) : strip s = s := by
  by_cases hne : s = []
  · rw [hne]
    rfl
  · have hnone : ∀ c ∈ ([] : List Char), isSpace c = true := fun _ h => nomatch h
    have := strip_pad hnone hnone hne (fun c hc => h c (List.mem_of_head? hc))
      fun c hc => h c (List.mem_of_getLast? hc)
    rwa [List.nil_append, List.append_nil] at this

/-- Where each run of ten decimal digits starts. -/
def digitZeros : List ℕ :=
  [0x30, 0x660, 0x6f0, 0x7c0, 0x966, 0x9e6, 0xa66, 0xae6, 0xb66, 0xbe6, 0xc66, 0xce6, 0xd66, 0xde6,
   0xe50, 0xed0, 0xf20, 0x1040, 0x1090, 0x17e0, 0x1810, 0x1946, 0x19d0, 0x1a80, 0x1a90, 0x1b50,
   0x1bb0, 0x1c40, 0x1c50, 0xa620, 0xa8d0, 0xa900, 0xa9d0, 0xa9f0, 0xaa50, 0xabf0, 0xff10, 0x104a0,
   0x10d30, 0x11066, 0x110f0, 0x11136, 0x111d0, 0x112f0, 0x11450, 0x114d0, 0x11650, 0x116c0,
   0x11730, 0x118e0, 0x11950, 0x11c50, 0x11d50, 0x11da0, 0x16a60, 0x16ac0, 0x16b50, 0x1d7ce,
   0x1d7d8, 0x1d7e2, 0x1d7ec, 0x1d7f6, 0x1e140, 0x1e2f0, 0x1e950, 0x1fbf0]

/-- The value of a decimal digit. -/
def digit? (c : Char) : Option ℕ :=
  (digitZeros.find? fun z => decide (z ≤ c.toNat ∧ c.toNat ≤ z + 9)).map (c.toNat - ·)

/-- `int(s)` of a string of decimal digits, none where there is another character or nothing. -/
def natural? (s : List Char) : Option ℕ :=
  if s = [] then none
  else s.foldl (fun n c => n.bind fun n => (digit? c).map (10 * n + ·)) (some 0)

/-- How many digits `int` takes. -/
def maxDigits : ℕ := 4300

/-- Whether a string is `\d+` as a whole. -/
def isNatural (s : List Char) : Bool := !s.isEmpty && s.all fun c => (digit? c).isSome

/-- Whether a string is `-?\d+` as a whole. -/
def isInteger : List Char → Bool
  | '-' :: s => isNatural s
  | s => isNatural s

/-- `int(s)` of a string that is `-?\d+` as a whole; with too many digits it raises. -/
def integer? : List Char → Option ℤ
  | '-' :: s => if maxDigits < s.length then none else (natural? s).map fun n : ℕ => -(n : ℤ)
  | s => if maxDigits < s.length then none else (natural? s).map fun n : ℕ => (n : ℤ)

/-- Whether `s` occurs in `t`. -/
def occursIn (s : List Char) : List Char → Bool
  | [] => s.isEmpty
  | c :: t => s.isPrefixOf (c :: t) || occursIn s t

theorem occursIn_iff {s t : List Char} : occursIn s t = true ↔ s <:+: t := by
  induction t with
  | nil => simp [occursIn]
  | cons c t ih =>
      rw [occursIn, Bool.or_eq_true, List.isPrefixOf_iff_prefix, ih, List.infix_cons_iff]

/-! ### `int` -/

/-- The white space `int` passes over: not the separators of ASCII. -/
def isPadding (c : Char) : Bool := isSpace c && !decide (28 ≤ c.toNat ∧ c.toNat ≤ 31)

/-- The digits of a decimal text, with single underscores between them. -/
def digits? (s : List Char) : Option ℕ :=
  if s.head? = some '_' ∨ s.getLast? = some '_' ∨ occursIn "__".toList s then none
  else
    let digits := s.filter (· ≠ '_')
    if maxDigits < digits.length then none else natural? digits

/-- `int(s)` of any text; none is a `ValueError`. -/
def int? (s : List Char) : Option ℤ :=
  match ((s.dropWhile isPadding).reverse.dropWhile isPadding).reverse with
  | '-' :: s => (digits? s).map fun n => -(n : ℤ)
  | '+' :: s => (digits? s).map fun n => (n : ℤ)
  | s => (digits? s).map fun n => (n : ℤ)

example : integer? "-12".toList = some (-12) := by decide

example : int? " +1_000\n".toList = some 1000 := by decide

/-! ### The decimal digits -/

theorem digit?_eq_some {c : Char} {n : ℕ} (h : digit? c = some n) :
    ∃ z ∈ digitZeros, z ≤ c.toNat ∧ c.toNat ≤ z + 9 ∧ n = c.toNat - z := by
  obtain ⟨z, hz, rfl⟩ := Option.map_eq_some_iff.mp h
  have hc := List.find?_some hz
  rw [decide_eq_true_eq] at hc
  exact ⟨z, List.mem_of_find?_eq_some hz, hc.1, hc.2, rfl⟩

/-- The runs of digits beyond those of ASCII are apart from the white space. -/
theorem digitZeros_apart : ∀ z ∈ digitZeros,
    z = 0x30 ∨ 0x660 ≤ z ∧ (z + 9 < 0x1680 ∨ 0x1680 < z) ∧ (z + 9 < 0x2000 ∨ 0x3000 < z) := by
  decide

theorem not_isSpace_of_digit {c : Char} {n : ℕ} (h : digit? c = some n) : isSpace c = false := by
  obtain ⟨z, hz, hlo, hhi, -⟩ := digit?_eq_some h
  have hapart := digitZeros_apart z hz
  rw [isSpace, decide_eq_false_iff_not]
  omega

theorem digit?_of_isDigit {c : Char} (h : c.isDigit = true) :
    digit? c = some (c.toNat - '0'.toNat) := by
  have hc : 0x30 ≤ c.toNat ∧ c.toNat ≤ 0x30 + 9 := by
    simpa [Char.isDigit, UInt32.le_iff_toNat_le] using h
  rw [digit?, digitZeros, List.find?_cons_of_pos (by simpa using hc)]
  rfl

/-- `int` of ASCII digits. -/
theorem natural?_of_isDigit {s : List Char} (hne : s ≠ []) (h : ∀ c ∈ s, c.isDigit = true) :
    natural? s = some (Nat.ofDigitChars 10 s 0) := by
  rw [natural?, if_neg hne]
  clear hne
  generalize 0 = n
  induction s generalizing n with
  | nil => rfl
  | cons c s ih =>
      have hc := digit?_of_isDigit (h c (List.mem_cons_self ..))
      rw [List.foldl_cons, Nat.ofDigitChars_cons, ← ih fun d hd => h d (List.mem_cons_of_mem c hd)]
      simp [hc]

theorem isNatural_of_isDigit {s : List Char} (hne : s ≠ []) (h : ∀ c ∈ s, c.isDigit = true) :
    isNatural s = true := by
  have hall : (s.all fun c => (digit? c).isSome) = true :=
    List.all_eq_true.mpr fun c hc => by rw [digit?_of_isDigit (h c hc), Option.isSome_some]
  rw [isNatural, hall, List.isEmpty_eq_false_iff.mpr hne]
  rfl

theorem isInteger_of_isDigit {s : List Char} (hne : s ≠ []) (h : ∀ c ∈ s, c.isDigit = true) :
    isInteger s = true := by
  have hminus : ∀ t, s ≠ '-' :: t := by
    rintro t rfl
    exact absurd (h '-' (List.mem_cons_self ..)) (by decide)
  rw [isInteger.eq_2 _ hminus]
  exact isNatural_of_isDigit hne h

/-- `int` reads digits only. -/
theorem digits_of_natural? {s : List Char} {n : ℕ} (h : natural? s = some n) :
    s ≠ [] ∧ ∀ c ∈ s, ∃ d, digit? c = some d := by
  have hne : s ≠ [] := by
    rintro rfl
    exact nomatch h
  rw [natural?, if_neg hne] at h
  refine ⟨hne, ?_⟩
  clear hne
  generalize some 0 = start at h
  induction s generalizing start with
  | nil => exact fun _ h => nomatch h
  | cons c s ih =>
      rw [List.foldl_cons] at h
      rintro d hd
      rcases List.mem_cons.mp hd with rfl | hd
      · cases hdigit : digit? d with
        | some k => exact ⟨k, rfl⟩
        | none =>
            -- a character that is no digit leaves nothing to go on with
            have hnone : (start.bind fun n => (digit? d).map (10 * n + ·)) = none := by
              cases start <;> simp [hdigit]
            rw [hnone, List.foldl_fixed' fun _ => rfl] at h
            exact nomatch h
      · exact ih _ h d hd

/-- `int` of an optional minus and digits, of which there is one at least. -/
theorem digits_of_integer? {s : List Char} {i : ℤ} (h : integer? s = some i) :
    s ≠ [] ∧ ∀ c ∈ s, c = '-' ∨ ∃ d, digit? c = some d := by
  unfold integer? at h
  split at h
  · next s =>
      refine ⟨List.cons_ne_nil _ _, fun c hc => (List.mem_cons.mp hc).imp_right fun hc => ?_⟩
      split at h
      · cases h
      · obtain ⟨n, hn, -⟩ := Option.map_eq_some_iff.mp h
        exact (digits_of_natural? hn).2 c hc
  · split at h
    · cases h
    · obtain ⟨n, hn, -⟩ := Option.map_eq_some_iff.mp h
      exact ⟨(digits_of_natural? hn).1, fun c hc => .inr ((digits_of_natural? hn).2 c hc)⟩

theorem integer?_of_isDigit {s : List Char} (hne : s ≠ []) (h : ∀ c ∈ s, c.isDigit = true) :
    integer? s = if maxDigits < s.length then none else some (Nat.ofDigitChars 10 s 0 : ℤ) := by
  have hminus : ∀ t, s ≠ '-' :: t := by
    rintro t rfl
    exact absurd (h '-' (List.mem_cons_self ..)) (by decide)
  rw [integer?.eq_2 _ hminus, natural?_of_isDigit hne h]
  rfl

theorem integer?_of_minus {s : List Char} (hne : s ≠ []) (h : ∀ c ∈ s, c.isDigit = true) :
    integer? ('-' :: s) =
      if maxDigits < s.length then none else some (-(Nat.ofDigitChars 10 s 0 : ℤ)) := by
  rw [integer?, natural?_of_isDigit hne h]
  rfl

/-! ### Separators -/

section Separators

variable {c : Char} {xs xs' ys ys' : List Char}

/-- Texts cut at their first separator. -/
theorem cut_first_inj (hx : c ∉ xs) (hx' : c ∉ xs') (h : xs ++ c :: ys = xs' ++ c :: ys') :
    xs = xs' ∧ ys = ys' := by
  induction xs generalizing xs' with
  | nil =>
      cases xs' with
      | nil => exact ⟨rfl, (List.cons.inj h).2⟩
      | cons x xs' => exact absurd (List.mem_cons.mpr (.inl (List.cons.inj h).1)) hx'
  | cons x xs ih =>
      cases xs' with
      | nil => exact absurd (List.mem_cons.mpr (.inl (List.cons.inj h).1.symm)) hx
      | cons x' xs' =>
          simp only [List.cons_append, List.cons.injEq, List.mem_cons, not_or] at h hx hx' ⊢
          obtain ⟨hxs, hys⟩ := ih hx.2 hx'.2 h.2
          exact ⟨⟨h.1, hxs⟩, hys⟩

/-- Texts cut at their last separator. -/
theorem cut_last_inj (hy : c ∉ ys) (hy' : c ∉ ys') (h : xs ++ c :: ys = xs' ++ c :: ys') :
    xs = xs' ∧ ys = ys' := by
  have hr := congrArg List.reverse h
  simp only [List.reverse_append, List.reverse_cons, List.append_assoc, List.cons_append,
    List.nil_append] at hr
  obtain ⟨h₁, h₂⟩ := cut_first_inj (mt List.mem_reverse.mp hy) (mt List.mem_reverse.mp hy') hr
  exact ⟨List.reverse_injective h₂, List.reverse_injective h₁⟩

end Separators

/-! ### The text of an integer -/

theorem mem_repr {n : ℕ} {c : Char} (h : c ∈ n.repr.toList) : c.isDigit := by
  rw [Nat.toList_repr] at h
  exact Nat.isDigit_of_mem_toDigits (by decide) (by decide) h

theorem ofDigitChars_repr (n : ℕ) : Nat.ofDigitChars 10 n.repr.toList 0 = n := by simp

theorem repr_injective : Function.Injective Nat.repr := by
  intro m n h
  rw [← ofDigitChars_repr m, h, ofDigitChars_repr]

/-- The text of an integer has a sign and digits only. -/
theorem mem_toString {n : ℤ} {c : Char} (h : c ∈ (toString n).toList) : c = '-' ∨ c.isDigit := by
  rw [Int.toString_eq_repr, Int.repr_eq_if] at h
  split at h
  · exact .inr (mem_repr h)
  · rw [String.toList_append, List.mem_append] at h
    exact h.imp List.mem_singleton.mp mem_repr

theorem minus_not_mem_repr (n : ℕ) : '-' ∉ n.repr.toList := fun h => absurd (mem_repr h) (by decide)

/-- Two integers with the same text are the same. -/
theorem toString_injective : Function.Injective (toString : ℤ → String) := by
  intro m n h
  simp only [Int.toString_eq_repr, Int.repr_eq_if] at h
  split at h <;> split at h
  · have := repr_injective h
    omega
  · exact absurd (by rw [h]; simp) (minus_not_mem_repr m.toNat)
  · exact absurd (by rw [← h]; simp) (minus_not_mem_repr n.toNat)
  · have := repr_injective (String.append_right_inj _ |>.mp h)
    omega

/-! ### An integer is read back -/

/-- An integer that `str` and `int` take: it has no more digits than their limit. -/
def Short (n : ℤ) : Prop := n.natAbs < 10 ^ maxDigits

instance : DecidablePred Short := fun _ => inferInstanceAs (Decidable (_ < _))

theorem short_of_digit {n : ℤ} (h : n.natAbs < 10) : Short n :=
  h.trans_le (Nat.le_self_pow (by decide) 10)

theorem short_of_le {a b : ℤ} (h : Short b) (ha : 0 ≤ a) (hab : a ≤ b) : Short a :=
  (show a.natAbs ≤ b.natAbs by omega).trans_lt h

/-- The least integer with a digit too many. -/
def tooLong : ℤ := (10 ^ maxDigits : ℕ)

theorem one_le_tooLong : 1 ≤ tooLong :=
  Int.ofNat_le.mpr (Nat.one_le_pow _ _ (by decide))

theorem not_short_tooLong : ¬ Short tooLong := by
  rw [Short, tooLong, Int.natAbs_natCast]
  exact lt_irrefl _

theorem length_repr {n : ℕ} : maxDigits < n.repr.toList.length ↔ ¬ n < 10 ^ maxDigits := by
  have hpos : 0 < maxDigits := by decide
  rw [String.length_toList, ← Nat.length_repr_le_iff hpos, not_le]

theorem repr_isDigits (n : ℕ) :
    n.repr.toList ≠ [] ∧ ∀ c ∈ n.repr.toList, c.isDigit = true := by
  refine ⟨fun h => ?_, fun c hc => mem_repr hc⟩
  exact Nat.repr_ne_empty (String.toList_eq_nil_iff.mp h)

/-- The text of an integer: digits, after a minus or not. -/
theorem toString_cases (n : ℤ) :
    (n = n.natAbs ∧ (toString n).toList = n.natAbs.repr.toList) ∨
      (n = -n.natAbs ∧ (toString n).toList = '-' :: n.natAbs.repr.toList) := by
  rw [Int.toString_eq_repr, Int.repr_eq_if]
  split
  · next h =>
      have hn : n.toNat = n.natAbs := by omega
      exact .inl ⟨by omega, by rw [hn]⟩
  · next h =>
      have hn : (-n).toNat = n.natAbs := by omega
      exact .inr ⟨by omega, by rw [hn, String.toList_append]; rfl⟩

/-- `int` reads an integer back, but for its limit. -/
theorem integer?_toString (n : ℤ) :
    integer? (toString n).toList = if Short n then some n else none := by
  obtain ⟨hne, hdigits⟩ := repr_isDigits n.natAbs
  have hlimit := length_repr (n := n.natAbs)
  rcases toString_cases n with ⟨hn, htext⟩ | ⟨hn, htext⟩
  · rw [htext, integer?_of_isDigit hne hdigits, ofDigitChars_repr, ← hn]
    exact (if_congr hlimit rfl rfl).trans (ite_not ..)
  · rw [htext, integer?_of_minus hne hdigits, ofDigitChars_repr, ← hn]
    exact (if_congr hlimit rfl rfl).trans (ite_not ..)

theorem digits?_of_isDigit {s : List Char} (hne : s ≠ []) (h : ∀ c ∈ s, c.isDigit = true) :
    digits? s = if maxDigits < s.length then none else some (Nat.ofDigitChars 10 s 0) := by
  have hno : '_' ∉ s := fun hm => absurd (h '_' hm) (by decide)
  have hnone : ¬ (s.head? = some '_' ∨ s.getLast? = some '_' ∨ occursIn "__".toList s = true) := by
    rintro (hh | hl | ho)
    · exact hno (List.mem_of_head? hh)
    · exact hno (List.mem_of_getLast? hl)
    · exact hno ((occursIn_iff.mp ho).subset (by decide))
  have hfilter : s.filter (· ≠ '_') = s :=
    List.filter_eq_self.mpr fun c hc => decide_eq_true fun he => hno (he ▸ hc)
  rw [digits?, if_neg hnone]
  simp only [hfilter, natural?_of_isDigit hne h]

theorem int?_toString (n : ℤ) :
    int? (toString n).toList = if Short n then some n else none := by
  obtain ⟨hne, hdigits⟩ := repr_isDigits n.natAbs
  have hdrop : ∀ s : List Char, (∀ c ∈ s, isPadding c = false) → s.dropWhile isPadding = s := by
    rintro (_ | ⟨c, s⟩) h
    · rfl
    · rw [List.dropWhile_cons_of_neg (by simp [h c])]
  have hpad : ∀ c ∈ (toString n).toList, isPadding c = false := fun c hc => by
    rw [isPadding]
    rcases mem_toString hc with rfl | hd
    · rfl
    · rw [not_isSpace_of_digit (digit?_of_isDigit hd), Bool.false_and]
  have hread : digits? n.natAbs.repr.toList = if Short n then some n.natAbs else none := by
    rw [digits?_of_isDigit hne hdigits, ofDigitChars_repr]
    exact (if_congr length_repr rfl rfl).trans (ite_not ..)
  rw [int?, hdrop _ hpad, hdrop _ fun c hc => hpad c (List.mem_reverse.mp hc),
    List.reverse_reverse]
  rcases toString_cases n with ⟨hn, htext⟩ | ⟨hn, htext⟩
  · rw [htext]
    split
    · next s hs => exact absurd (hdigits '-' (hs ▸ List.mem_cons_self)) (by decide)
    · next s hs => exact absurd (hdigits '+' (hs ▸ List.mem_cons_self)) (by decide)
    · rw [hread]
      split
      · exact congrArg some hn.symm
      · rfl
  · rw [htext]
    simp only [hread]
    split
    · exact congrArg some hn.symm
    · rfl

end Text
