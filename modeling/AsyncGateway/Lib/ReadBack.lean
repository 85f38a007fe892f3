import AsyncGateway.Lib.Loads

/-!
# Library — a document is read back

A document that can be written (`Writable`) is read back as it is (`loads_plain`), and whatever is
read can be written (`writable_of_loads`): so what a text was read as stays what it was, however
often it is written and read again.
-/

namespace Json

/-! ### What can be written -/

section Round

variable (R : FloatRepr)

/-- A text Python writes for a float. -/
def WrittenFloat (text : String) : Prop :=
  text ∈ constants ∨ ∃ whole part, matchNumber text.toList = some (whole, part, []) ∧ part ≠ [] ∧
    R.repr (whole ++ part) = text

mutual

/-- A document of dictionaries, of integers within the limit of their texts, and of floats by the
texts Python has for them. -/
def Writable : Json → Prop
  | .int n => Text.Short n
  | .float text => WrittenFloat R text
  | .arr items => WritableItems items
  | .obj fields => (fields.map Prod.fst).Nodup ∧ WritableFields fields
  | _ => True

def WritableItems : List Json → Prop
  | [] => True
  | x :: xs => Writable x ∧ WritableItems xs

def WritableFields : List (String × Json) → Prop
  | [] => True
  | (_, v) :: fs => Writable v ∧ WritableFields fs

end

/-! ### An atom is read back -/

variable {R} {cs rest whole part : List Char} {a : Json} {c : Char}

/-- A number starts with its sign or a digit. -/
theorem head_of_matchNumber (h : matchNumber cs = some (whole, part, rest)) :
    ∃ c cs', cs = c :: cs' ∧ (c = '-' ∨ c.isDigit = true) := by
  cases cs with
  | nil => cases h
  | cons c cs' =>
      refine ⟨c, cs', rfl, ?_⟩
      by_cases hminus : c = '-'
      · exact .inl hminus
      · refine .inr (by_contra fun hdigit => ?_)
        have hzero : c ≠ '0' := by
          rintro rfl
          exact hdigit (by decide)
        simp [matchNumber, signPart, hminus, intPart, hzero, hdigit] at h

/-- Where a number may stand, no word does. -/
theorem scanAtom_number (h : matchNumber cs = some (whole, part, rest)) :
    scanAtom R cs = if part = [] then (Text.integer? whole).map fun n => (.int n, rest)
      else some (.float (R.repr (whole ++ part)), rest) := by
  obtain ⟨c, cs', rfl, hc⟩ := head_of_matchNumber h
  have hne : c ≠ 'n' ∧ c ≠ 't' ∧ c ≠ 'f' := by
    refine ⟨?_, ?_, ?_⟩ <;> rintro rfl <;> exact absurd hc (by decide)
  have hword : behind "null" (c :: cs') = none ∧ behind "true" (c :: cs') = none ∧
      behind "false" (c :: cs') = none := by
    simp [behind, hne.1.symm, hne.2.1.symm, hne.2.2.symm]
  simp only [scanAtom, hword, h]

theorem scanAtom_other (hnull : behind "null" cs = none) (htrue : behind "true" cs = none)
    (hfalse : behind "false" cs = none) (hnumber : matchNumber cs = none) :
    scanAtom R cs = (constants.find? fun word => (behind word cs).isSome).map fun word =>
      (.float word, cs.drop word.toList.length) := by
  simp only [scanAtom, hnull, htrue, hfalse, hnumber]

theorem scanAtom_constant {word : String} (h : word ∈ constants) (hrest : Closing rest) :
    scanAtom R (word.toList ++ rest) = some (.float word, rest) := by
  have hnumber : ∀ word ∈ constants, matchNumber word.toList = none := by decide
  have hnone : matchNumber (word.toList ++ rest) = none := by
    rw [matchNumber_append hrest, hnumber word h]
    rfl
  simp only [constants, List.mem_cons, List.not_mem_nil, or_false] at h
  rcases h with rfl | rfl | rfl
  · rw [scanAtom_other rfl rfl rfl hnone]
    rfl
  · rw [scanAtom_other rfl rfl rfl hnone]
    rfl
  · rw [scanAtom_other rfl rfl rfl hnone]
    rfl

/-- What starts an atom. -/
theorem head_atom (ho : opening a = none) (ha : Writable R a) :
    ∃ c cs, plainChars a = c :: cs ∧ (c = '-' ∨ c.isDigit = true ∨ c.isAlpha = true) := by
  have hnumber : ∀ {text whole part}, matchNumber text = some (whole, part, []) →
      ∃ c cs, text = c :: cs ∧ (c = '-' ∨ c.isDigit = true ∨ c.isAlpha = true) := by
    intro text whole part h
    obtain ⟨c, cs, hcs, hc⟩ := head_of_matchNumber h
    exact ⟨c, cs, hcs, hc.imp_right .inl⟩
  cases a with
  | null => exact ⟨'n', _, rfl, by decide⟩
  | bool b => cases b <;> exact ⟨_, _, rfl, by decide⟩
  | int n => exact hnumber (matchNumber_toString n)
  | float text =>
      rcases ha with hmem | ⟨whole, part, hmatch, -, -⟩
      · simp only [constants, List.mem_cons, List.not_mem_nil, or_false] at hmem
        rcases hmem with rfl | rfl | rfl <;> exact ⟨_, _, rfl, by decide⟩
      · exact hnumber hmatch
  | str s => cases ho
  | arr items => cases ho
  | obj fields => cases ho

theorem scanAtom_plain (ho : opening a = none) (ha : Writable R a) (hrest : Closing rest) :
    scanAtom R (plainChars a ++ rest) = some (a, rest) := by
  cases a with
  | null => simp [scanAtom, plainChars, behind]
  | bool b => cases b <;> simp [scanAtom, plainChars, behind]
  | int n =>
      have hmatch : matchNumber (plainChars (.int n) ++ rest) =
          some ((toString n).toList, [], rest) := by
        rw [plainChars, matchNumber_append hrest, matchNumber_toString]
        rfl
      have hread : Text.integer? (toString n).toList = some n := by
        rw [Text.integer?_toString, if_pos (show Text.Short n from ha)]
      rw [scanAtom_number hmatch, if_pos rfl, hread]
      rfl
  | float text =>
      rcases ha with hmem | ⟨whole, part, hmatch, hne, hrepr⟩
      · exact scanAtom_constant hmem hrest
      · have hmatch' : matchNumber (plainChars (.float text) ++ rest) =
            some (whole, part, rest) := by
          rw [plainChars, matchNumber_append hrest, hmatch]
          rfl
        rw [scanAtom_number hmatch', if_neg hne, hrepr]
  | str s => cases ho
  | arr items => cases ho
  | obj fields => cases ho

/-! ### A document is read back -/

/-- What starts a document: nothing that is passed over, and nothing that closes another one. -/
theorem head_plain (ha : Writable R a) : ∃ c cs, plainChars a = c :: cs ∧
    isBlank c = false ∧ c ≠ ']' ∧ c ≠ byteOrderMark := by
  cases ho : opening a with
  | none =>
      obtain ⟨c, cs, hcs, hc⟩ := head_atom ho ha
      refine ⟨c, cs, hcs, ?_, ?_, ?_⟩
      · rw [isBlank, decide_eq_false_iff_not]
        simp only [List.mem_cons, List.not_mem_nil, or_false]
        rintro (rfl | rfl | rfl | rfl) <;> exact absurd hc (by decide)
      · rintro rfl
        exact absurd hc (by decide)
      · rintro rfl
        exact absurd hc (by decide)
  | some c =>
      cases a with
      | str s => exact ⟨_, _, rfl, by decide, by decide, by decide⟩
      | arr items => exact ⟨_, _, rfl, by decide, by decide, by decide⟩
      | obj fields => exact ⟨_, _, rfl, by decide, by decide, by decide⟩
      | null => cases ho
      | bool b => cases ho
      | int n => cases ho
      | float text => cases ho

theorem skip_cons (h : isBlank c = false) (cs : List Char) : skip (c :: cs) = c :: cs :=
  List.dropWhile_cons_of_neg (by simp [h])

theorem skip_plain (ha : Writable R a) (rest : List Char) :
    skip (plainChars a ++ rest) = plainChars a ++ rest := by
  obtain ⟨c, cs, hcs, hc, -, -⟩ := head_plain ha
  rw [hcs, List.cons_append, skip_cons hc]

mutual

/-- The fuel a document takes. -/
def need : Json → ℕ
  | .arr items => 1 + needItems items
  | .obj fields => 1 + needFields fields
  | _ => 1

def needItems : List Json → ℕ
  | [] => 0
  | x :: xs => 1 + need x + needItems xs

def needFields : List (String × Json) → ℕ
  | [] => 0
  | (_, v) :: fs => 1 + need v + needFields fs

end

variable (R) in
/-- A document is read where it is followed by what may stand behind a value. -/
def ReadBack (a : Json) : Prop :=
  ∀ rest fuel, Closing rest → need a ≤ fuel →
    scanOnce R fuel (plainChars a ++ rest) = some (a, rest)

theorem readBack_str (s : String) : ReadBack R (.str s) := by
  intro rest fuel hrest hfuel
  obtain ⟨fuel, rfl⟩ := Nat.exists_eq_add_of_le' (show 1 ≤ fuel from hfuel)
  have hchars : plainChars (.str s) ++ rest = '"' :: (s.toList.flatMap escape ++ '"' :: rest) := by
    simp [plainChars, quote]
  rw [hchars, scanOnce, if_pos rfl, scanString_behind s rest _ rfl]
  simp only [Option.map_some, String.ofList_toList]

theorem readBack_atom (ho : opening a = none) (ha : Writable R a) : ReadBack R a := by
  intro rest fuel hrest hfuel
  have hneed : 1 ≤ need a := by
    cases a <;> simp [need]
  obtain ⟨fuel, rfl⟩ := Nat.exists_eq_add_of_le' (hneed.trans hfuel)
  obtain ⟨c, cs, hcs, hc⟩ := head_atom ho ha
  have hne : c ≠ '"' ∧ c ≠ '\x7b' ∧ c ≠ '[' := by
    refine ⟨?_, ?_, ?_⟩ <;> rintro rfl <;> exact absurd hc (by decide)
  have hatom := scanAtom_plain ho ha hrest
  rw [hcs, List.cons_append] at hatom ⊢
  rw [scanOnce, if_neg hne.1, if_neg hne.2.1, if_neg hne.2.2, hatom]

/-- The items of an array are read as far as its bracket. -/
theorem scanItems_plain {x : Json} {xs : List Json} (hw : ∀ y ∈ x :: xs, Writable R y)
    (hread : ∀ y ∈ x :: xs, ReadBack R y) {fuel : ℕ} (hfuel : needItems (x :: xs) ≤ fuel)
    (rest : List Char) :
    scanItems R fuel (plainItems (x :: xs) ++ rest) = some (x :: xs, rest) := by
  induction xs generalizing x fuel with
  | nil =>
      simp only [needItems] at hfuel
      obtain ⟨fuel, rfl⟩ := Nat.exists_eq_add_of_le' (show 1 ≤ fuel by omega)
      have hx := hread x List.mem_cons_self (']' :: rest) fuel (by simp [Closing]) (by omega)
      have hchars : plainItems [x] ++ rest = plainChars x ++ ']' :: rest := by simp [plainItems]
      rw [hchars, scanItems, hx, Option.bind_some]
      rfl
  | cons y ys ih =>
      rw [needItems] at hfuel
      obtain ⟨fuel, rfl⟩ := Nat.exists_eq_add_of_le' (show 1 ≤ fuel by omega)
      have hx := hread x List.mem_cons_self (',' :: ' ' :: (plainItems (y :: ys) ++ rest)) fuel
        (by simp [Closing]) (by omega)
      have hrest := ih (fun z hz => hw z (List.mem_cons_of_mem _ hz))
        (fun z hz => hread z (List.mem_cons_of_mem _ hz)) (show needItems (y :: ys) ≤ fuel by omega)
      have hchars : plainItems (x :: y :: ys) ++ rest =
          plainChars x ++ ',' :: ' ' :: (plainItems (y :: ys) ++ rest) := by simp [plainItems]
      have hskip : skip (' ' :: (plainItems (y :: ys) ++ rest)) = plainItems (y :: ys) ++ rest := by
        have hy := hw y (List.mem_cons_of_mem _ List.mem_cons_self)
        obtain ⟨c, cs, hcs, hc, -, -⟩ := head_plain hy
        have hhead : ∃ cs', plainItems (y :: ys) ++ rest = c :: cs' := by
          cases ys <;> simp [plainItems, hcs]
        obtain ⟨cs', hcs'⟩ := hhead
        rw [hcs', skip, List.dropWhile_cons_of_pos (by decide)]
        exact skip_cons hc cs'
      rw [hchars, scanItems, hx, Option.bind_some]
      show (if ',' = ']' then _ else if ',' = ',' then _ else none) = _
      rw [if_neg (by decide), if_pos rfl, hskip, hrest]
      rfl

/-- The pairs of an object are read as far as its bracket. -/
theorem scanPairs_plain {f : String × Json} {fs : Fields} (hw : ∀ g ∈ f :: fs, Writable R g.2)
    (hread : ∀ g ∈ f :: fs, ReadBack R g.2) {fuel : ℕ} (hfuel : needFields (f :: fs) ≤ fuel)
    (rest : List Char) :
    scanPairs R fuel (plainFields (f :: fs) ++ rest) = some (f :: fs, rest) := by
  induction fs generalizing f fuel with
  | nil =>
      obtain ⟨k, v⟩ := f
      simp only [needFields] at hfuel
      obtain ⟨fuel, rfl⟩ := Nat.exists_eq_add_of_le' (show 1 ≤ fuel by omega)
      have hv := hread (k, v) List.mem_cons_self ('}' :: rest) fuel (by simp [Closing])
        (show need v ≤ fuel by omega)
      have hchars : plainFields [(k, v)] ++ rest = '"' :: (k.toList.flatMap escape ++ '"' ::
          ':' :: ' ' :: (plainChars v ++ '}' :: rest)) := by simp [plainFields, quote]
      have hskip : skip (' ' :: (plainChars v ++ '}' :: rest)) = plainChars v ++ '}' :: rest := by
        rw [skip, List.dropWhile_cons_of_pos (by decide)]
        exact skip_plain (hw (k, v) List.mem_cons_self) _
      rw [hchars, scanPairs, if_neg (by simp), scanString_behind k _ _ rfl, Option.bind_some]
      show (if ':' ≠ ':' then _ else _) = _
      rw [if_neg (by simp), hskip, hv, Option.bind_some, String.ofList_toList]
      rfl
  | cons g gs ih =>
      obtain ⟨k, v⟩ := f
      rw [needFields] at hfuel
      obtain ⟨fuel, rfl⟩ := Nat.exists_eq_add_of_le' (show 1 ≤ fuel by omega)
      have hv := hread (k, v) List.mem_cons_self (',' :: ' ' :: (plainFields (g :: gs) ++ rest))
        fuel (by simp [Closing]) (show need v ≤ fuel by omega)
      have hrest := ih (fun z hz => hw z (List.mem_cons_of_mem _ hz))
        (fun z hz => hread z (List.mem_cons_of_mem _ hz))
        (show needFields (g :: gs) ≤ fuel by omega)
      have hchars : plainFields ((k, v) :: g :: gs) ++ rest =
          '"' :: (k.toList.flatMap escape ++ '"' :: ':' :: ' ' ::
            (plainChars v ++ ',' :: ' ' :: (plainFields (g :: gs) ++ rest))) := by
        simp [plainFields, quote]
      have hskip : skip (' ' :: (plainChars v ++ ',' :: ' ' :: (plainFields (g :: gs) ++ rest))) =
          plainChars v ++ ',' :: ' ' :: (plainFields (g :: gs) ++ rest) := by
        rw [skip, List.dropWhile_cons_of_pos (by decide)]
        exact skip_plain (hw (k, v) List.mem_cons_self) _
      have hnext : skip (' ' :: (plainFields (g :: gs) ++ rest)) =
          plainFields (g :: gs) ++ rest := by
        have hhead : ∃ cs, plainFields (g :: gs) ++ rest = '"' :: cs := by
          cases gs <;> simp [plainFields, quote]
        obtain ⟨cs, hcs⟩ := hhead
        rw [hcs, skip, List.dropWhile_cons_of_pos (by decide)]
        exact skip_cons (by decide) cs
      rw [hchars, scanPairs, if_neg (by simp), scanString_behind k _ _ rfl, Option.bind_some]
      show (if ':' ≠ ':' then _ else _) = _
      rw [if_neg (by simp), hskip, hv, Option.bind_some]
      show (if ',' = '}' then _ else if ',' = ',' then _ else none) = _
      rw [if_neg (by decide), if_pos rfl, hnext, hrest, String.ofList_toList]
      rfl

/-- A dictionary of different keys is the one of its pairs. -/
theorem update_append {fs gs : Fields} (h : ((fs ++ gs).map Prod.fst).Nodup) :
    update fs gs = fs ++ gs := by
  induction gs generalizing fs with
  | nil => rw [List.append_nil]; rfl
  | cons g gs ih =>
      have hput : put fs g.1 g.2 = fs ++ [g] := by
        have hnew : ∀ f ∈ fs, f.1 ≠ g.1 := by
          intro f hf he
          rw [List.map_append, List.nodup_append] at h
          exact h.2.2 f.1 (List.mem_map_of_mem hf) g.1 (by simp) he
        clear h ih
        induction fs with
        | nil => rfl
        | cons f fs ih =>
            obtain ⟨hf, hfs⟩ := List.forall_mem_cons.mp hnew
            rw [put, if_neg hf, ih hfs]
            rfl
      rw [update, List.foldl_cons, hput]
      exact (ih (by rwa [List.append_assoc])).trans (List.append_assoc fs [g] gs)

theorem writableItems_iff {items : List Json} :
    WritableItems R items ↔ ∀ x ∈ items, Writable R x := by
  induction items with
  | nil => simp [WritableItems]
  | cons x xs ih => simp [WritableItems, ih]

theorem writableFields_iff {fields : Fields} :
    WritableFields R fields ↔ ∀ f ∈ fields, Writable R f.2 := by
  induction fields with
  | nil => simp [WritableFields]
  | cons f fs ih => simp [WritableFields, ih]

theorem readBack (ha : Writable R a) : ReadBack R a := by
  induction a using induct with
  | null => exact readBack_atom rfl ha
  | bool b => exact readBack_atom rfl ha
  | int n => exact readBack_atom rfl ha
  | float text => exact readBack_atom rfl ha
  | str s => exact readBack_str s
  | arr items ih =>
      have hw := writableItems_iff.mp ha
      intro rest fuel hrest hfuel
      rw [need] at hfuel
      obtain ⟨fuel, rfl⟩ := Nat.exists_eq_add_of_le' (show 1 ≤ fuel by omega)
      rw [plainChars, List.cons_append, scanOnce, if_neg (by decide), if_neg (by decide),
        if_pos rfl]
      cases items with
      | nil => rfl
      | cons x xs =>
          obtain ⟨c, cs, hcs, hblank, hclose, -⟩ := head_plain (hw x List.mem_cons_self)
          have hhead : ∃ cs', plainItems (x :: xs) ++ rest = c :: cs' := by
            cases xs <;> simp [plainItems, hcs]
          obtain ⟨cs', hcs'⟩ := hhead
          have hitems := scanItems_plain hw (fun y hy => ih y hy (hw y hy))
            (show needItems (x :: xs) ≤ fuel by omega) rest
          rw [hcs'] at hitems ⊢
          rw [skip_cons hblank]
          show (if c = ']' then _ else _) = _
          rw [if_neg hclose, hitems]
          rfl
  | obj fields ih =>
      obtain ⟨hnodup, hfields⟩ := ha
      have hw := writableFields_iff.mp hfields
      intro rest fuel hrest hfuel
      rw [need] at hfuel
      obtain ⟨fuel, rfl⟩ := Nat.exists_eq_add_of_le' (show 1 ≤ fuel by omega)
      rw [plainChars, List.cons_append, scanOnce, if_neg (by decide), if_pos rfl]
      cases fields with
      | nil => rfl
      | cons f fs =>
          have hhead : ∃ cs, plainFields (f :: fs) ++ rest = '"' :: cs := by
            obtain ⟨k, v⟩ := f
            cases fs <;> simp [plainFields, quote]
          obtain ⟨cs, hcs⟩ := hhead
          have hpairs := scanPairs_plain hw (fun g hg => ih g hg (hw g hg))
            (show needFields (f :: fs) ≤ fuel by omega) rest
          rw [hcs] at hpairs ⊢
          rw [skip_cons (by decide)]
          show (if '"' = '}' then _ else _) = _
          rw [if_neg (by decide), hpairs, Option.map_some]
          simp only [show update [] (f :: fs) = f :: fs from update_append hnodup]

/-- The text of a document is as long as its fuel. -/
theorem need_le (ha : Writable R a) : need a ≤ (plainChars a).length := by
  have hatom : ∀ {a}, opening a = none → Writable R a → 1 ≤ (plainChars a).length := by
    intro a ho ha
    obtain ⟨c, cs, hcs, -⟩ := head_atom ho ha
    rw [hcs, List.length_cons]
    omega
  induction a using induct with
  | null => exact hatom rfl ha
  | bool b => exact hatom rfl ha
  | int n => exact hatom rfl ha
  | float text => exact hatom rfl ha
  | str s => simp [need, plainChars, quote]
  | arr items ih =>
      have hw := writableItems_iff.mp ha
      have hitems : needItems items ≤ (plainItems items).length := by
        clear ha
        induction items with
        | nil => simp [needItems]
        | cons x xs ih' =>
            have hx := ih x List.mem_cons_self (hw x List.mem_cons_self)
            have hxs := ih' (fun y hy => ih y (List.mem_cons_of_mem _ hy))
              fun y hy => hw y (List.mem_cons_of_mem _ hy)
            cases xs with
            | nil =>
                simp only [needItems, plainItems, List.length_append, List.length_singleton]
                omega
            | cons y ys =>
                rw [needItems, plainItems, List.length_append, List.length_cons, List.length_cons]
                omega
      rw [need, plainChars, List.length_cons]
      omega
  | obj fields ih =>
      have hw := writableFields_iff.mp ha.2
      have hfields : needFields fields ≤ (plainFields fields).length := by
        clear ha
        induction fields with
        | nil => simp [needFields]
        | cons f fs ih' =>
            have hf := ih f List.mem_cons_self (hw f List.mem_cons_self)
            have hfs := ih' (fun g hg => ih g (List.mem_cons_of_mem _ hg))
              fun g hg => hw g (List.mem_cons_of_mem _ hg)
            obtain ⟨k, v⟩ := f
            cases fs with
            | nil =>
                simp only [needFields, plainFields, List.length_append, List.length_cons] at hf ⊢
                omega
            | cons g gs =>
                rw [needFields, plainFields]
                simp only [List.length_append, List.length_cons] at hf ⊢
                omega
      rw [need, plainChars, List.length_cons]
      omega

/-! ### What is read can be written -/

/-- The number of some digits has no more of them. -/
theorem natural?_lt {s : List Char} {n : ℕ} (h : Text.natural? s = some n) :
    n < 10 ^ s.length := by
  have hstep : ∀ (s : List Char) (k n : ℕ),
      s.foldl (fun n c => n.bind fun n => (Text.digit? c).map (10 * n + ·)) (some k) = some n →
        n < (k + 1) * 10 ^ s.length := by
    intro s
    induction s with
    | nil =>
        rintro k n ⟨⟩
        simp
    | cons c s ih =>
        intro k n hn
        rw [List.foldl_cons] at hn
        cases hd : Text.digit? c with
        | none =>
            rw [Option.bind_some, hd, Option.map_none, List.foldl_fixed' fun _ => rfl] at hn
            cases hn
        | some d =>
            rw [Option.bind_some, hd, Option.map_some] at hn
            obtain ⟨z, -, -, hle, rfl⟩ := Text.digit?_eq_some hd
            have hlt := ih _ n hn
            have hmul : (10 * k + (c.toNat - z) + 1) * 10 ^ s.length ≤
                (k + 1) * 10 ^ (s.length + 1) := by
              rw [pow_succ, mul_comm (10 ^ s.length) 10, ← mul_assoc]
              exact Nat.mul_le_mul_right _ (by omega)
            exact hlt.trans_le hmul
  have hne : s ≠ [] := (Text.digits_of_natural? h).1
  rw [Text.natural?, if_neg hne] at h
  simpa using hstep s 0 n h

theorem short_of_integer? {s : List Char} {n : ℤ} (h : Text.integer? s = some n) :
    Text.Short n := by
  have hshort : ∀ {s : List Char} {m : ℕ}, ¬ Text.maxDigits < s.length →
      Text.natural? s = some m → m < 10 ^ Text.maxDigits := fun hlen hm =>
    (natural?_lt hm).trans_le (Nat.pow_le_pow_right (by decide) (not_lt.mp hlen))
  unfold Text.integer? at h
  split at h <;> split at h
  · cases h
  · next hlen =>
      obtain ⟨m, hm, rfl⟩ := Option.map_eq_some_iff.mp h
      rw [Text.Short, Int.natAbs_neg, Int.natAbs_natCast]
      exact hshort hlen hm
  · cases h
  · next hlen =>
      obtain ⟨m, hm, rfl⟩ := Option.map_eq_some_iff.mp h
      rw [Text.Short, Int.natAbs_natCast]
      exact hshort hlen hm

theorem writable_scanAtom (h : scanAtom R cs = some (a, rest)) : Writable R a := by
  unfold scanAtom at h
  split at h
  · cases h
    trivial
  split at h
  · cases h
    trivial
  split at h
  · cases h
    trivial
  split at h
  · next whole part rest' hmatch =>
      split at h
      · obtain ⟨n, hn, he⟩ := Option.map_eq_some_iff.mp h
        cases he
        exact short_of_integer? hn
      · next hpart =>
          cases h
          exact R.again hmatch hpart
  · obtain ⟨word, hword, he⟩ := Option.map_eq_some_iff.mp h
    cases he
    exact .inl (List.mem_of_find?_eq_some hword)

theorem mem_put {d : Fields} {k : String} {v : Json} {f : String × Json} (h : f ∈ put d k v) :
    f ∈ d ∨ f.2 = v := by
  induction d with
  | nil => exact .inr (by rw [List.mem_singleton.mp h])
  | cons g d ih =>
      rw [put] at h
      split at h
      · exact (List.mem_cons.mp h).elim (fun he => .inr (by rw [he])) fun hm =>
          .inl (List.mem_cons_of_mem _ hm)
      · rcases List.mem_cons.mp h with rfl | hm
        · exact .inl List.mem_cons_self
        · exact (ih hm).imp_left (List.mem_cons_of_mem _)

/-- An update has the values of the one dictionary or the other. -/
theorem mem_update {d e : Fields} {f : String × Json} (h : f ∈ update d e) :
    f ∈ d ∨ ∃ g ∈ e, f.2 = g.2 := by
  induction e generalizing d with
  | nil => exact .inl h
  | cons g e ih =>
      rcases ih (d := put d g.1 g.2) h with hm | ⟨g', hg', he⟩
      · exact (mem_put hm).imp_right fun he => ⟨g, List.mem_cons_self, he⟩
      · exact .inr ⟨g', List.mem_cons_of_mem _ hg', he⟩

variable (R) in
/-- What the readers give with this fuel can be written. -/
structure ReadsWritable (fuel : ℕ) : Prop where
  once : ∀ {cs a rest}, scanOnce R fuel cs = some (a, rest) → Writable R a
  items : ∀ {cs xs rest}, scanItems R fuel cs = some (xs, rest) → ∀ x ∈ xs, Writable R x
  pairs : ∀ {cs ps rest}, scanPairs R fuel cs = some (ps, rest) → ∀ p ∈ ps, Writable R p.2

theorem readsWritable (fuel : ℕ) : ReadsWritable R fuel := by
  induction fuel with
  | zero =>
      constructor
      · intro cs a rest h
        cases h
      · intro cs xs rest h
        cases h
      · intro cs ps rest h
        cases h
  | succ fuel ih =>
      refine ⟨fun {cs a rest} h => ?_, fun {cs xs rest} h => ?_, fun {cs ps rest} h => ?_⟩
      · cases cs with
        | nil => cases h
        | cons c cs =>
            rw [scanOnce] at h
            split at h
            · obtain ⟨s, -, he⟩ := Option.map_eq_some_iff.mp h
              cases he
              trivial
            split at h
            · split at h
              · cases h
              · split at h
                · cases h
                  exact ⟨List.nodup_nil, trivial⟩
                · obtain ⟨ps, hps, he⟩ := Option.map_eq_some_iff.mp h
                  cases he
                  refine ⟨nodup_update (d := []) List.nodup_nil _,
                    writableFields_iff.mpr fun f hf => ?_⟩
                  rcases mem_update hf with hm | ⟨g, hg, he⟩
                  · cases hm
                  · rw [he]
                    exact ih.pairs hps g hg
            split at h
            · split at h
              · cases h
              · split at h
                · cases h
                  exact trivial
                · obtain ⟨xs, hxs, he⟩ := Option.map_eq_some_iff.mp h
                  cases he
                  exact writableItems_iff.mpr (ih.items hxs)
            · exact writable_scanAtom h
      · rw [scanItems] at h
        obtain ⟨⟨x, rest'⟩, hx, h⟩ := Option.bind_eq_some_iff.mp h
        dsimp only at h
        split at h
        · cases h
        split at h
        · cases h
          exact List.forall_mem_singleton.mpr (ih.once hx)
        split at h
        · obtain ⟨ys, hys, he⟩ := Option.map_eq_some_iff.mp h
          cases he
          exact List.forall_mem_cons.mpr ⟨ih.once hx, ih.items hys⟩
        · cases h
      · cases cs with
        | nil => cases h
        | cons c cs =>
            rw [scanPairs] at h
            split at h
            · cases h
            obtain ⟨⟨k, rest'⟩, -, h⟩ := Option.bind_eq_some_iff.mp h
            dsimp only at h
            split at h
            · cases h
            split at h
            · cases h
            obtain ⟨⟨v, rest''⟩, hv, h⟩ := Option.bind_eq_some_iff.mp h
            dsimp only at h
            split at h
            · cases h
            split at h
            · cases h
              exact List.forall_mem_singleton.mpr (ih.once hv)
            split at h
            · obtain ⟨qs, hqs, he⟩ := Option.map_eq_some_iff.mp h
              cases he
              exact List.forall_mem_cons.mpr ⟨ih.once hv, ih.pairs hqs⟩
            · cases h

end Round

/-- **A document that can be written is read back as it is.** -/
theorem loads_plain (R : FloatRepr) {doc : Json} (h : Writable R doc) :
    loads R (plain doc) = some doc := by
  have hchars : (plain doc).toList = plainChars doc := String.toList_ofList
  obtain ⟨c, cs, hcs, -, -, hmark⟩ := head_plain h
  have hhead : (plainChars doc).head? ≠ some byteOrderMark := by
    rw [hcs]
    exact fun he => hmark (Option.some.inj he)
  have hskip : skip (plainChars doc) = plainChars doc := by simpa using skip_plain h []
  have hread := readBack h [] ((plainChars doc).length + 1) (by simp [Closing])
    ((need_le h).trans (Nat.le_succ _))
  rw [List.append_nil] at hread
  simp only [loads, hchars, if_neg hhead, hskip, hread]
  rfl

/-- **Whatever is read can be written.** -/
theorem writable_of_loads {R : FloatRepr} {text : String} {doc : Json}
    (h : loads R text = some doc) : Writable R doc := by
  simp only [loads] at h
  split at h
  · cases h
  split at h
  · next hscan =>
      split at h
      · cases h
        exact (readsWritable _).once hscan
      · cases h
  · cases h

end Json
