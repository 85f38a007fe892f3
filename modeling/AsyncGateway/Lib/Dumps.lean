import AsyncGateway.Lib.Json
import AsyncGateway.Lib.Text
import Mathlib.Data.List.Sort

/-!
# Library — how a document is written

`dumps` writes a document as `json.dumps(.., sort_keys=True, ensure_ascii=False,
separators=(",", ":"))` does.  What is written is read back: a string ends where it says
(`quote_cancel`), what stands between commas is told apart (`intercalate_cancel`), and so two
documents have the same text just where they are the same but for the order of their fields
(`dumps_eq_iff`).  A number is as it is written: `1` and `1.0` are two documents.
-/

namespace Json

def hexDigit (n : ℕ) : Char := "0123456789abcdef".toList.getD n '0'

/-- A character inside a JSON string. -/
def escape (c : Char) : List Char :=
  if c = '"' ∨ c = '\\' then ['\\', c]
  else if c = '\n' then ['\\', 'n']
  else if c = '\r' then ['\\', 'r']
  else if c = '\t' then ['\\', 't']
  else if c.toNat = 8 then ['\\', 'b']
  else if c.toNat = 12 then ['\\', 'f']
  else if c.toNat < 32 then ['\\', 'u', '0', '0', hexDigit (c.toNat / 16), hexDigit (c.toNat % 16)]
  else [c]

def quote (s : String) : List Char := '"' :: s.toList.flatMap escape ++ ['"']

/-- The fields by their keys. -/
def sortFields {α : Type} (fields : List (String × α)) : List (String × α) :=
  fields.insertionSort fun a b => a.1 ≤ b.1

mutual

def dumpsChars : Json → List Char
  | .null => "null".toList
  | .bool true => "true".toList
  | .bool false => "false".toList
  | .int n => (toString n).toList
  | .float text => text.toList
  | .str s => quote s
  | .arr items => '[' :: [','].intercalate (dumpsItems items) ++ [']']
  | .obj fields =>
      '{' :: [','].intercalate
        ((sortFields (dumpsFields fields)).map fun kv => quote kv.1 ++ ':' :: kv.2) ++ ['}']

def dumpsItems : List Json → List (List Char)
  | [] => []
  | x :: xs => dumpsChars x :: dumpsItems xs

def dumpsFields : List (String × Json) → List (String × List Char)
  | [] => []
  | (k, v) :: fs => (k, dumpsChars v) :: dumpsFields fs

end

def dumps (doc : Json) : String := String.ofList (dumpsChars doc)

/-! ### A string is read back -/

/-- What the character behind a backslash stands for, where it is not a number. -/
def unescaped (e : Char) : Char :=
  if e = 'n' then '\n'
  else if e = 'r' then '\r'
  else if e = 't' then '\t'
  else if e = 'b' then Char.ofNat 8
  else if e = 'f' then Char.ofNat 12
  else e

/-- A character is written as itself, behind a backslash, or as its number. -/
inductive Written (c : Char) : List Char → Prop where
  | itself : c ≠ '"' → c ≠ '\\' → Written c [c]
  | behind (e : Char) : e ≠ 'u' → unescaped e = c → Written c ['\\', e]
  | number : c.toNat < 32 →
      Written c ['\\', 'u', '0', '0', hexDigit (c.toNat / 16), hexDigit (c.toNat % 16)]

theorem written_escape (c : Char) : Written c (escape c) := by
  rw [escape]
  split_ifs with hq hn hr ht hb hf hc
  · rcases hq with rfl | rfl
    · exact .behind _ (by decide) (by decide)
    · exact .behind _ (by decide) (by decide)
  · exact .behind _ (by decide) hn.symm
  · exact .behind _ (by decide) hr.symm
  · exact .behind _ (by decide) ht.symm
  · exact .behind _ (by decide) (Char.toNat_inj.mp hb.symm)
  · exact .behind _ (by decide) (Char.toNat_inj.mp hf.symm)
  · exact .number hc
  · exact .itself (fun h => hq (.inl h)) fun h => hq (.inr h)

theorem hexDigit_injective : ∀ m < 16, ∀ n < 16, hexDigit m = hexDigit n → m = n := by decide

theorem Written.cancel {c d : Char} {u v x y : List Char} (hu : Written c u) (hv : Written d v)
    (h : u ++ x = v ++ y) : c = d ∧ x = y := by
  cases hu with
  | itself hcq hcb =>
      cases hv with
      | itself hdq hdb => exact List.cons.inj h
      | behind e he hd => exact absurd (List.cons.inj h).1 hcb
      | number hd => exact absurd (List.cons.inj h).1 hcb
  | behind e he hc =>
      cases hv with
      | itself hdq hdb => exact absurd (List.cons.inj h).1.symm hdb
      | behind e' he' hd =>
          obtain ⟨hee, hxy⟩ := List.cons.inj (List.cons.inj h).2
          exact ⟨by rw [← hc, ← hd, hee], hxy⟩
      | number hd => exact absurd (List.cons.inj (List.cons.inj h).2).1 he
  | number hc =>
      cases hv with
      | itself hdq hdb => exact absurd (List.cons.inj h).1.symm hdb
      | behind e he hd => exact absurd (List.cons.inj (List.cons.inj h).2).1.symm he
      | number hd =>
          simp only [List.cons_append, List.nil_append, List.cons.injEq, true_and] at h
          obtain ⟨hhigh, hlow, hxy⟩ := h
          have hhigh := hexDigit_injective _ (by omega) _ (by omega) hhigh
          have hlow := hexDigit_injective _ (by omega) _ (by omega) hlow
          exact ⟨Char.toNat_inj.mp (by omega), hxy⟩

/-- No character is written as the quote that closes a string. -/
theorem Written.not_quote {c : Char} {u x y : List Char} (hu : Written c u) :
    u ++ x ≠ '"' :: y := by
  intro h
  cases hu with
  | itself hq hb => exact hq (List.cons.inj h).1
  | behind e he hc => exact absurd (List.cons.inj h).1 (by decide)
  | number hc => exact absurd (List.cons.inj h).1 (by decide)

/-- A string is read back, whatever stands behind it. -/
theorem quote_cancel {s t : String} {x y : List Char} (h : quote s ++ x = quote t ++ y) :
    s = t ∧ x = y := by
  have hchars : ∀ u v : List Char, u.flatMap escape ++ '"' :: x = v.flatMap escape ++ '"' :: y →
      u = v ∧ x = y := by
    intro u
    induction u with
    | nil =>
        intro v hv
        cases v with
        | nil => exact ⟨rfl, (List.cons.inj hv).2⟩
        | cons d v =>
            rw [List.flatMap_cons, List.append_assoc] at hv
            exact absurd hv.symm (written_escape d).not_quote
    | cons c u ih =>
        intro v hv
        rw [List.flatMap_cons, List.append_assoc] at hv
        cases v with
        | nil => exact absurd hv (written_escape c).not_quote
        | cons d v =>
            rw [List.flatMap_cons, List.append_assoc] at hv
            obtain ⟨hcd, hrest⟩ := (written_escape c).cancel (written_escape d) hv
            obtain ⟨huv, hxy⟩ := ih v hrest
            exact ⟨by rw [hcd, huv], hxy⟩
  simp only [quote, List.cons_append, List.append_assoc, List.nil_append, List.cons.injEq,
    true_and] at h
  obtain ⟨hst, hxy⟩ := hchars s.toList t.toList h
  exact ⟨String.toList_inj.mp hst, hxy⟩

/-! ### What stands between commas is read back -/

/-- The end of the text, or what may stand behind a value. -/
def Closing (x : List Char) : Prop := ∀ c ∈ x.head?, c = ',' ∨ c = ']' ∨ c = '}'

section Separated

variable {α β : Type} {e : α → List Char} {f : α → β} {close : Char} {x y : List Char}

/-- Texts are read back, each as what `f` makes of it, where what is behind them may stand behind
a value. -/
def Cancels (e : α → List Char) (f : α → β) (a b : α) : Prop :=
  ∀ x y, Closing x → Closing y → e a ++ x = e b ++ y → f a = f b ∧ x = y

theorem closing_rest (hclose : close = ']' ∨ close = '}') (as : List α) (x : List Char) :
    Closing (as.flatMap (fun a => ',' :: e a) ++ close :: x) := by
  intro c hc
  cases as with
  | nil =>
      obtain rfl : close = c := Option.some.inj hc
      exact .inr hclose
  | cons a as =>
      obtain rfl : ',' = c := Option.some.inj hc
      exact .inl rfl

/-- What follows the first text, each of them behind a comma. -/
theorem rest_cancel (hclose : close = ']' ∨ close = '}') {as bs : List α}
    (hc : ∀ a ∈ as, ∀ b ∈ bs, Cancels e f a b)
    (h : as.flatMap (fun a => ',' :: e a) ++ close :: x =
      bs.flatMap (fun b => ',' :: e b) ++ close :: y) : as.map f = bs.map f ∧ x = y := by
  have hcomma : close ≠ ',' := by rcases hclose with rfl | rfl <;> decide
  induction as generalizing bs with
  | nil =>
      cases bs with
      | nil => exact ⟨rfl, (List.cons.inj h).2⟩
      | cons b bs => exact absurd (List.cons.inj h).1 hcomma
  | cons a as ih =>
      cases bs with
      | nil => exact absurd (List.cons.inj h).1.symm hcomma
      | cons b bs =>
          simp only [List.flatMap_cons, List.cons_append, List.append_assoc, List.cons.injEq,
            true_and] at h
          obtain ⟨hab, hrest⟩ := hc a List.mem_cons_self b List.mem_cons_self _ _
            (closing_rest hclose as x) (closing_rest hclose bs y) h
          obtain ⟨hmap, hxy⟩ := ih (fun a ha b hb =>
            hc a (List.mem_cons_of_mem _ ha) b (List.mem_cons_of_mem _ hb)) hrest
          exact ⟨by rw [List.map_cons, List.map_cons, hab, hmap], hxy⟩

theorem intercalate_map_cons (e : α → List Char) (a : α) (as : List α) :
    [','].intercalate ((a :: as).map e) = e a ++ as.flatMap fun a => ',' :: e a := by
  induction as generalizing a with
  | nil => simp
  | cons b as ih =>
      rw [List.map_cons, List.map_cons, List.intercalate_cons_cons, ← List.map_cons, ih,
        List.flatMap_cons]
      simp

/-- **Texts between commas are read back.** -/
theorem intercalate_cancel (hclose : close = ']' ∨ close = '}') {as bs : List α}
    (hc : ∀ a ∈ as, ∀ b ∈ bs, Cancels e f a b) (ha : ∀ a ∈ as, ¬ Closing (e a))
    (hb : ∀ b ∈ bs, ¬ Closing (e b))
    (h : [','].intercalate (as.map e) ++ close :: x = [','].intercalate (bs.map e) ++ close :: y) :
    as.map f = bs.map f ∧ x = y := by
  have hend : ∀ {u v w : List Char}, ¬ Closing u → close :: w ≠ u ++ v := by
    intro u v w hu hw
    refine hu fun c hcu => ?_
    obtain ⟨u, rfl⟩ := List.head?_eq_some_iff.mp hcu
    rw [← (List.cons.inj hw).1]
    exact .inr hclose
  cases as with
  | nil =>
      cases bs with
      | nil => exact ⟨rfl, (List.cons.inj h).2⟩
      | cons b bs =>
          rw [intercalate_map_cons, List.append_assoc] at h
          exact absurd h (hend (hb b List.mem_cons_self))
  | cons a as =>
      cases bs with
      | nil =>
          rw [intercalate_map_cons, List.append_assoc] at h
          exact absurd h.symm (hend (ha a List.mem_cons_self))
      | cons b bs =>
          simp only [intercalate_map_cons, List.append_assoc] at h
          obtain ⟨hab, hrest⟩ := hc a List.mem_cons_self b List.mem_cons_self _ _
            (closing_rest hclose as x) (closing_rest hclose bs y) h
          obtain ⟨hmap, hxy⟩ := rest_cancel hclose (fun a ha b hb =>
            hc a (List.mem_cons_of_mem _ ha) b (List.mem_cons_of_mem _ hb)) hrest
          exact ⟨by rw [List.map_cons, List.map_cons, hab, hmap], hxy⟩

end Separated

/-! ### A document is read back -/

mutual

/-- The document with the fields of each object by their keys. -/
def sorted : Json → Json
  | .arr items => .arr (sortedItems items)
  | .obj fields => .obj (sortFields (sortedFields fields))
  | doc => doc

def sortedItems : List Json → List Json
  | [] => []
  | x :: xs => sorted x :: sortedItems xs

def sortedFields : List (String × Json) → List (String × Json)
  | [] => []
  | (k, v) :: fs => (k, sorted v) :: sortedFields fs

end

/-- A text that Python writes for a float. -/
def FloatText (text : String) : Prop :=
  text ∈ ["NaN", "Infinity", "-Infinity"] ∨
    (text.toList.all fun c => decide (c ∈ "0123456789+-.e".toList)) = true ∧
      ('.' ∈ text.toList ∨ 'e' ∈ text.toList)

instance (text : String) : Decidable (FloatText text) := inferInstanceAs (Decidable (_ ∨ _))

mutual

/-- The floats of the document are written as Python writes them. -/
def Floats : Json → Prop
  | .float text => FloatText text
  | .arr items => FloatsItems items
  | .obj fields => FloatsFields fields
  | _ => True

def FloatsItems : List Json → Prop
  | [] => True
  | x :: xs => Floats x ∧ FloatsItems xs

def FloatsFields : List (String × Json) → Prop
  | [] => True
  | (_, v) :: fs => Floats v ∧ FloatsFields fs

end

theorem floatsItems_iff {items : List Json} : FloatsItems items ↔ ∀ x ∈ items, Floats x := by
  induction items with
  | nil => simp [FloatsItems]
  | cons x xs ih => simp [FloatsItems, ih]

theorem floatsFields_iff {fields : Fields} : FloatsFields fields ↔ ∀ f ∈ fields, Floats f.2 := by
  induction fields with
  | nil => simp [FloatsFields]
  | cons f fs ih => simp [FloatsFields, ih]

theorem sortFields_map {α β : Type} (g : α → β) (fields : List (String × α)) :
    sortFields (fields.map fun f => (f.1, g f.2)) =
      (sortFields fields).map fun f => (f.1, g f.2) := by
  have hle : ∀ e ∈ fields, ∀ f ∈ fields, e.1 ≤ f.1 ↔ (e.1, g e.2).1 ≤ (f.1, g f.2).1 :=
    fun _ _ _ _ => Iff.rfl
  exact (List.map_insertionSort (fun e f => e.1 ≤ f.1) (fun e f => e.1 ≤ f.1)
    (fun f => (f.1, g f.2)) fields hle).symm

theorem dumpsItems_eq (items : List Json) : dumpsItems items = items.map dumpsChars := by
  induction items with
  | nil => rfl
  | cons x xs ih => rw [dumpsItems, ih, List.map_cons]

theorem dumpsFields_eq (fields : Fields) :
    dumpsFields fields = fields.map fun f => (f.1, dumpsChars f.2) := by
  induction fields with
  | nil => rfl
  | cons f fs ih => rw [dumpsFields, ih, List.map_cons]

theorem sortedItems_eq (items : List Json) : sortedItems items = items.map sorted := by
  induction items with
  | nil => rfl
  | cons x xs ih => rw [sortedItems, ih, List.map_cons]

theorem sortedFields_eq (fields : Fields) :
    sortedFields fields = fields.map fun f => (f.1, sorted f.2) := by
  induction fields with
  | nil => rfl
  | cons f fs ih => rw [sortedFields, ih, List.map_cons]

/-- A field of an object. -/
def entry (f : String × Json) : List Char := quote f.1 ++ ':' :: dumpsChars f.2

theorem dumpsChars_arr (items : List Json) :
    dumpsChars (.arr items) = '[' :: [','].intercalate (items.map dumpsChars) ++ [']'] := by
  rw [dumpsChars, dumpsItems_eq]

theorem dumpsChars_obj (fields : Fields) : dumpsChars (.obj fields) =
    '{' :: [','].intercalate ((sortFields fields).map entry) ++ ['}'] := by
  rw [dumpsChars, dumpsFields_eq, sortFields_map, List.map_map]
  rfl

theorem sorted_obj (fields : Fields) :
    sorted (.obj fields) = .obj ((sortFields fields).map fun f => (f.1, sorted f.2)) := by
  rw [sorted, sortedFields_eq, sortFields_map]

/-- How a string, an array or an object begins. -/
def opening : Json → Option Char
  | .str _ => some '"'
  | .arr _ => some '['
  | .obj _ => some '{'
  | _ => none

/-- The marks of the grammar, which no number and no word has. -/
def marks : List Char := "\"[]\x7b\x7d,".toList

theorem toString_ne_empty (n : ℤ) : toString n ≠ "" := by
  rw [Int.toString_eq_repr, Int.repr_eq_if]
  split
  · exact Nat.repr_ne_empty
  · intro h
    exact absurd (String.append_eq_empty_iff.mp h).1 (by decide)

theorem all_not_marks {w : List Char} (h : (w.all fun c => decide (c ∉ marks)) = true) :
    ∀ c ∈ w, c ∉ marks := fun c hc => of_decide_eq_true (List.all_eq_true.mp h c hc)

theorem not_marks {a : Json} (ho : opening a = none) (ha : Floats a) :
    dumpsChars a ≠ [] ∧ ∀ c ∈ dumpsChars a, c ∉ marks := by
  cases a with
  | null => exact ⟨by decide, all_not_marks (by decide)⟩
  | bool b => cases b <;> exact ⟨by decide, all_not_marks (by decide)⟩
  | int n =>
      have hdigit : (marks.all fun c => c != '-' && !c.isDigit) = true := by decide
      refine ⟨fun h => toString_ne_empty n (String.toList_eq_nil_iff.mp h), fun c hc hm => ?_⟩
      have hc' := List.all_eq_true.mp hdigit c hm
      rcases Text.mem_toString hc with rfl | hd
      · simp at hc'
      · simp [hd] at hc'
  | float text =>
      rcases ha with hw | ⟨hall, hsome⟩
      · have hwords : ∀ w ∈ ["NaN", "Infinity", "-Infinity"],
            w.toList ≠ [] ∧ (w.toList.all fun c => decide (c ∉ marks)) = true := by decide
        exact ⟨(hwords text hw).1, all_not_marks (hwords text hw).2⟩
      · have hchars : ∀ c ∈ "0123456789+-.e".toList, c ∉ marks := all_not_marks (by decide)
        have hall := fun c hc => of_decide_eq_true (List.all_eq_true.mp hall c hc)
        refine ⟨fun h => ?_, fun c hc => hchars c (hall c hc)⟩
        rw [dumpsChars] at h
        rw [h] at hsome
        simp at hsome
  | str s => cases ho
  | arr items => cases ho
  | obj fields => cases ho

/-- The kind of a number or a word, as its text shows it. -/
def kind (w : List Char) : ℕ :=
  if w.all (fun c => c == '-' || c.isDigit) then 0
  else if w = "null".toList then 1
  else if w = "true".toList then 2
  else if w = "false".toList then 3
  else 4

theorem kind_float {text : String} (h : FloatText text) : kind text.toList = 4 := by
  have hword : ∀ w ∈ ["null", "true", "false"], ¬ FloatText w := by decide
  have hne : ∀ w ∈ ["null", "true", "false"], text.toList ≠ w.toList := fun w hw he =>
    hword w hw (String.toList_inj.mp he ▸ h)
  have hall : ¬ text.toList.all (fun c => c == '-' || c.isDigit) = true := by
    rcases h with h | ⟨-, h | h⟩
    · have hwords : ∀ w ∈ ["NaN", "Infinity", "-Infinity"],
          ¬ w.toList.all (fun c => c == '-' || c.isDigit) = true := by decide +kernel
      exact hwords text h
    · exact fun ha => absurd (List.all_eq_true.mp ha _ h) (by decide)
    · exact fun ha => absurd (List.all_eq_true.mp ha _ h) (by decide)
  rw [kind, if_neg hall, if_neg (hne _ (by decide)), if_neg (hne _ (by decide)),
    if_neg (hne _ (by decide))]

theorem kind_int (n : ℤ) : kind (toString n).toList = 0 := by
  have hall : (toString n).toList.all (fun c => c == '-' || c.isDigit) = true :=
    List.all_eq_true.mpr fun c hc => by simpa using Text.mem_toString hc
  rw [kind, if_pos hall]

/-- The kind of a number or a word. -/
def kindOf : Json → ℕ
  | .int _ => 0
  | .null => 1
  | .bool b => if b then 2 else 3
  | _ => 4

theorem kind_dumpsChars {a : Json} (ho : opening a = none) (ha : Floats a) :
    kind (dumpsChars a) = kindOf a := by
  cases a with
  | null => decide
  | bool b => cases b <;> decide
  | int n => exact kind_int n
  | float text => exact kind_float ha
  | str s => cases ho
  | arr items => cases ho
  | obj fields => cases ho

/-- Numbers and words with the same text are the same. -/
theorem eq_of_dumpsChars {a b : Json} (ha : opening a = none) (hb : opening b = none)
    (fa : Floats a) (fb : Floats b) (h : dumpsChars a = dumpsChars b) : a = b := by
  have hkind := congrArg kind h
  rw [kind_dumpsChars ha fa, kind_dumpsChars hb fb] at hkind
  rcases a with _ | (_ | _) | m | text | _ | _ | _ <;>
    rcases b with _ | (_ | _) | n | text' | _ | _ | _ <;> simp_all [opening, kindOf]
  · exact Text.toString_injective (String.toList_inj.mp h)
  · exact String.toList_inj.mp h

/-- How a document begins, and no text that may stand behind one does. -/
theorem head_dumpsChars {a : Json} (ha : Floats a) :
    ∃ c u, dumpsChars a = c :: u ∧ (∀ o ∈ opening a, c = o) ∧
      (opening a = none → c ∉ marks) ∧ ¬ (c = ',' ∨ c = ']' ∨ c = '\x7d') := by
  cases ho : opening a with
  | none =>
      obtain ⟨hne, hmarks⟩ := not_marks ho ha
      obtain ⟨c, u, hu⟩ := List.exists_cons_of_ne_nil hne
      have hc := hmarks c (hu ▸ List.mem_cons_self)
      refine ⟨c, u, hu, fun o h => (by cases h), fun _ => hc, fun h => hc ?_⟩
      rcases h with rfl | rfl | rfl <;> decide
  | some o =>
      cases a with
      | str s =>
          cases ho
          exact ⟨_, _, rfl, fun o h => Option.some.inj h, by decide, by decide⟩
      | arr items =>
          cases ho
          exact ⟨_, _, rfl, fun o h => Option.some.inj h, by decide, by decide⟩
      | obj fields =>
          cases ho
          exact ⟨_, _, rfl, fun o h => Option.some.inj h, by decide, by decide⟩
      | _ => cases ho

theorem mem_marks_of_closing {c : Char} {x : List Char} (h : Closing (c :: x)) : c ∈ marks := by
  rcases h c rfl with rfl | rfl | rfl <;> decide

theorem mem_marks_of_opening {a : Json} {o : Char} (h : opening a = some o) : o ∈ marks := by
  cases a with
  | str s => cases h; decide
  | arr items => cases h; decide
  | obj fields => cases h; decide
  | _ => cases h

/-- Texts without a mark end where a mark stands behind them. -/
theorem cancel_of_not_marks {u v x y : List Char} (hu : ∀ c ∈ u, c ∉ marks)
    (hv : ∀ c ∈ v, c ∉ marks) (hx : Closing x) (hy : Closing y) (h : u ++ x = v ++ y) :
    u = v ∧ x = y := by
  rcases List.append_eq_append_iff.mp h with ⟨z, rfl, rfl⟩ | ⟨z, rfl, rfl⟩
  · cases z with
    | nil => exact ⟨by rw [List.append_nil], rfl⟩
    | cons c z =>
        refine absurd (mem_marks_of_closing hx) (hv c ?_)
        exact List.mem_append_right _ List.mem_cons_self
  · cases z with
    | nil => exact ⟨by rw [List.append_nil], rfl⟩
    | cons c z =>
        refine absurd (mem_marks_of_closing hy) (hu c ?_)
        exact List.mem_append_right _ List.mem_cons_self

theorem opening_eq {a b : Json} {x y : List Char} (ha : Floats a) (hb : Floats b)
    (h : dumpsChars a ++ x = dumpsChars b ++ y) : opening a = opening b := by
  obtain ⟨c, u, hu, hopen, hmarks, -⟩ := head_dumpsChars ha
  obtain ⟨d, v, hv, hopen', hmarks', -⟩ := head_dumpsChars hb
  rw [hu, hv] at h
  obtain rfl : c = d := (List.cons.inj h).1
  cases ho : opening a with
  | none =>
      cases ho' : opening b with
      | none => rfl
      | some o => exact absurd (hopen' o ho' ▸ mem_marks_of_opening ho') (hmarks ho)
  | some o =>
      have hc := hopen o ho
      cases ho' : opening b with
      | none => exact absurd (hc ▸ mem_marks_of_opening ho) (hmarks' ho')
      | some o' => rw [← hc, ← hopen' o' ho']

theorem not_closing_dumpsChars {a : Json} (ha : Floats a) : ¬ Closing (dumpsChars a) := by
  obtain ⟨c, u, hu, -, -, hc⟩ := head_dumpsChars ha
  rw [hu]
  exact fun h => hc (h c rfl)

theorem not_closing_entry (f : String × Json) : ¬ Closing (entry f) := by
  intro h
  have hc : '"' = ',' ∨ '"' = ']' ∨ '"' = '\x7d' := h '"' rfl
  revert hc
  decide

theorem cancels_atom {a b : Json} (ho : opening a = none) (ha : Floats a) (hb : Floats b) :
    Cancels dumpsChars sorted a b := by
  intro x y hx hy h
  have ho' := (opening_eq ha hb h).symm.trans ho
  obtain ⟨hab, hxy⟩ :=
    cancel_of_not_marks (not_marks ho ha).2 (not_marks ho' hb).2 hx hy h
  exact ⟨by rw [eq_of_dumpsChars ho ho' ha hb hab], hxy⟩

theorem cancels_str {s : String} {b : Json} (hb : Floats b) :
    Cancels dumpsChars sorted (.str s) b := by
  intro x y _ _ h
  have ho := opening_eq (a := .str s) trivial hb h
  cases b with
  | str t =>
      obtain ⟨hst, hxy⟩ := quote_cancel h
      exact ⟨by rw [hst], hxy⟩
  | _ => cases ho

theorem cancels_arr {items : List Json}
    (ih : ∀ a ∈ items, ∀ b, Floats a → Floats b → Cancels dumpsChars sorted a b) {b : Json}
    (ha : Floats (.arr items)) (hb : Floats b) : Cancels dumpsChars sorted (.arr items) b := by
  intro x y _ _ h
  have ho := opening_eq ha hb h
  cases b with
  | arr items' =>
      have ha := floatsItems_iff.mp ha
      have hb := floatsItems_iff.mp hb
      simp only [dumpsChars_arr, List.cons_append, List.append_assoc, List.nil_append,
        List.cons.injEq, true_and] at h
      obtain ⟨hmap, hxy⟩ := intercalate_cancel (.inl rfl)
        (fun a hm b hm' => ih a hm b (ha a hm) (hb b hm'))
        (fun a hm => not_closing_dumpsChars (ha a hm))
        (fun b hm => not_closing_dumpsChars (hb b hm)) h
      exact ⟨by rw [sorted, sorted, sortedItems_eq, sortedItems_eq, hmap], hxy⟩
  | _ => cases ho

theorem cancels_entry {f g : String × Json} (h : Cancels dumpsChars sorted f.2 g.2) :
    Cancels entry (fun f => (f.1, sorted f.2)) f g := by
  intro x y hx hy he
  simp only [entry, List.append_assoc] at he
  obtain ⟨hkey, hrest⟩ := quote_cancel he
  obtain ⟨hvalue, hxy⟩ := h x y hx hy (List.cons.inj hrest).2
  exact ⟨Prod.ext hkey hvalue, hxy⟩

theorem mem_sortFields {α : Type} {fields : List (String × α)} {f : String × α} :
    f ∈ sortFields fields ↔ f ∈ fields :=
  (List.perm_insertionSort _ fields).mem_iff

theorem cancels_obj {fields : Fields}
    (ih : ∀ f ∈ fields, ∀ b, Floats f.2 → Floats b → Cancels dumpsChars sorted f.2 b) {b : Json}
    (ha : Floats (.obj fields)) (hb : Floats b) : Cancels dumpsChars sorted (.obj fields) b := by
  intro x y _ _ h
  have ho := opening_eq ha hb h
  cases b with
  | obj fields' =>
      have ha := floatsFields_iff.mp ha
      have hb := floatsFields_iff.mp hb
      simp only [dumpsChars_obj, List.cons_append, List.append_assoc, List.nil_append,
        List.cons.injEq, true_and] at h
      obtain ⟨hmap, hxy⟩ := intercalate_cancel (.inr rfl)
        (fun f hm g hm' => cancels_entry (ih f (mem_sortFields.mp hm) g.2
          (ha f (mem_sortFields.mp hm)) (hb g (mem_sortFields.mp hm'))))
        (fun f _ => not_closing_entry f) (fun g _ => not_closing_entry g) h
      exact ⟨by rw [sorted_obj, sorted_obj, hmap], hxy⟩
  | _ => cases ho

/-- **A document is read back, but for the order of its fields.** -/
theorem cancels {a b : Json} (ha : Floats a) (hb : Floats b) :
    Cancels dumpsChars sorted a b := by
  induction a using induct generalizing b with
  | str s => exact cancels_str hb
  | arr items ih => exact cancels_arr (fun a hm b ha hb => ih a hm ha hb) ha hb
  | obj fields ih => exact cancels_obj (fun f hm b ha hb => ih f hm ha hb) ha hb
  | _ => exact cancels_atom rfl ha hb

/-! ### The order of the fields -/

section Order

variable {α : Type} {fs gs : List (String × α)}

theorem pairwise_sortFields (fs : List (String × α)) :
    (sortFields fs).Pairwise fun a b => a.1 ≤ b.1 := by
  have : Std.Total fun a b : String × α => a.1 ≤ b.1 := ⟨fun a b => String.le_total a.1 b.1⟩
  have : IsTrans (String × α) fun a b => a.1 ≤ b.1 := ⟨fun _ _ _ => String.le_trans⟩
  exact List.pairwise_insertionSort _ fs

theorem sortFields_sortFields (fs : List (String × α)) :
    sortFields (sortFields fs) = sortFields fs := (pairwise_sortFields fs).insertionSort_eq

/-- The first field of a key stays the first. -/
theorem lookup_sortFields (fs : List (String × α)) (k : String) :
    (sortFields fs).lookup k = fs.lookup k := by
  have hinsert : ∀ (f : String × α) (gs : List (String × α)),
      (gs.orderedInsert (fun a b => a.1 ≤ b.1) f).lookup k = (f :: gs).lookup k := by
    intro f gs
    induction gs with
    | nil => rfl
    | cons g gs ih =>
        rw [List.orderedInsert]
        split
        · rfl
        · next hle =>
            -- `g` stays before `f`, whose key is another
            have hne : f.1 ≠ g.1 := fun he => hle (he ▸ String.le_refl g.1)
            rw [List.lookup_cons, ih, List.lookup_cons, List.lookup_cons, List.lookup_cons]
            by_cases hk : k = g.1
            · rw [hk, beq_self_eq_true, beq_false_of_ne hne.symm]
            · rw [beq_false_of_ne hk]
  induction fs with
  | nil => rfl
  | cons f fs ih =>
      have hsort : sortFields (f :: fs) = (sortFields fs).orderedInsert (·.1 ≤ ·.1) f := rfl
      rw [hsort, hinsert, List.lookup_cons, List.lookup_cons, ih]

/-- Two dictionaries with the same entries have the same fields in their order. -/
theorem sortFields_eq_iff (hf : (fs.map Prod.fst).Nodup) (hg : (gs.map Prod.fst).Nodup) :
    sortFields fs = sortFields gs ↔ ∀ k, fs.lookup k = gs.lookup k := by
  constructor
  · intro h k
    rw [← lookup_sortFields, h, lookup_sortFields]
  · intro h
    have hperm : fs.Perm gs :=
      (List.perm_ext_iff_of_nodup hf.of_map hg.of_map).mpr fun f => by
        rw [← lookup_eq_some_iff_mem hf, ← lookup_eq_some_iff_mem hg, h]
    have hsorted : (sortFields fs).Perm (sortFields gs) :=
      (List.perm_insertionSort _ fs).trans (hperm.trans (List.perm_insertionSort _ gs).symm)
    refine hsorted.eq_of_pairwise (fun f g hmf hmg hle hge => ?_) (pairwise_sortFields fs)
      (pairwise_sortFields gs)
    have hkey : f.1 = g.1 := String.le_antisymm hle hge
    have hvf := (lookup_eq_some_iff_mem hf).mpr (mem_sortFields.mp hmf)
    have hvg := (lookup_eq_some_iff_mem hg).mpr (mem_sortFields.mp hmg)
    rw [hkey, h, hvg] at hvf
    exact Prod.ext hkey (Option.some.inj hvf).symm

end Order

/-- The order of the fields is not seen in the text. -/
theorem dumpsChars_sorted (a : Json) : dumpsChars (sorted a) = dumpsChars a := by
  induction a using induct with
  | arr items ih =>
      have hitems : items.map (dumpsChars ∘ sorted) = items.map dumpsChars :=
        List.map_congr_left ih
      rw [sorted, sortedItems_eq, dumpsChars_arr, dumpsChars_arr, List.map_map, hitems]
  | obj fields ih =>
      have hfields : (sortFields fields).map (entry ∘ fun f => (f.1, sorted f.2)) =
          (sortFields fields).map entry := List.map_congr_left fun f hf => by
        rw [Function.comp_apply, entry, entry, ih f (mem_sortFields.mp hf)]
      rw [sorted_obj, dumpsChars_obj, dumpsChars_obj, sortFields_map, sortFields_sortFields,
        List.map_map, hfields]
  | _ => rfl

/-- **Two documents have the same text just where they are the same but for the order of their
fields.** -/
theorem dumps_eq_iff {a b : Json} (ha : Floats a) (hb : Floats b) :
    dumps a = dumps b ↔ sorted a = sorted b := by
  rw [dumps, dumps, String.ofList_inj]
  constructor
  · intro h
    have hnil : Closing [] := fun c hc => by cases hc
    exact (cancels ha hb [] [] hnil hnil (by rw [h])).1
  · intro h
    rw [← dumpsChars_sorted a, h, dumpsChars_sorted b]

/-- Two objects are the same but for the order of their fields where each key leads to the same. -/
theorem sorted_obj_eq_iff {fs gs : Fields} (hf : (fs.map Prod.fst).Nodup)
    (hg : (gs.map Prod.fst).Nodup) : sorted (.obj fs) = sorted (.obj gs) ↔
      ∀ k, (fs.lookup k).map sorted = (gs.lookup k).map sorted := by
  have hkeys : ∀ hs : Fields, (hs.map Prod.fst).Nodup →
      ((sortedFields hs).map Prod.fst).Nodup := fun hs h => by
    rw [sortedFields_eq, List.map_map]
    exact h
  rw [sorted, sorted, Json.obj.injEq, sortFields_eq_iff (hkeys fs hf) (hkeys gs hg),
    sortedFields_eq, sortedFields_eq]
  exact forall_congr' fun k => by rw [lookup_map_snd, lookup_map_snd]

/-! ### Below the order of the fields -/

theorem floats_of_lookup {fs : Fields} (h : FloatsFields fs) {k : String} {v : Json}
    (hv : fs.lookup k = some v) : Floats v := by
  obtain ⟨l, m, rfl, -⟩ := List.lookup_eq_some_iff.mp hv
  exact floatsFields_iff.mp h (k, v) (List.mem_append_right _ List.mem_cons_self)

theorem floats_follow {doc v : Json} (h : Floats doc) {ks : List String}
    (hv : doc.follow (ks.map .key) = some v) : Floats v := by
  induction ks generalizing doc with
  | nil =>
      obtain rfl : doc = v := Option.some.inj (by rwa [List.map_nil, follow] at hv)
      exact h
  | cons k ks ih =>
      obtain ⟨fs, w, rfl, hw, hv⟩ := follow_key_eq_some hv
      exact ih (floats_of_lookup h hw) hv

/-- A path leads to the same, whatever the order of the fields. -/
theorem follow_sorted (doc : Json) (ks : List String) :
    doc.sorted.follow (ks.map .key) = (doc.follow (ks.map .key)).map sorted := by
  induction ks generalizing doc with
  | nil => cases doc <;> rfl
  | cons k ks ih =>
      cases doc with
      | obj fs =>
          have hlookup : ((sortFields fs).map fun f => (f.1, sorted f.2)).lookup k =
              (fs.lookup k).map sorted := by rw [lookup_map_snd, lookup_sortFields]
          rw [sorted_obj, List.map_cons, follow, follow, hlookup]
          cases fs.lookup k with
          | none => rfl
          | some v => exact ih v
      | _ => rfl

end Json
