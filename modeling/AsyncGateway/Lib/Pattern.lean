import Mathlib.Data.List.Infix
import Mathlib.Data.Nat.Notation

/-!
# Library — patterns in a text, and their replacement

The part of Python's regular expressions that is made of characters of a class, greedy runs of
them, word boundaries, sequences and alternatives.  A match starts at a cursor, the character
before it and the text from there on; `ends` lists where it may end, in the order a backtracking
matcher tries them, so the first is the match.  `sub` replaces the matches from the left, none of
them overlapping; `captured` is what a group takes in the match.  A text whose matches are replaced
by a marker that has a character the text does not have is as before only where no pattern occurs in
it (`subAll_eq_self_iff`).  A text that is itself replaced is there in the end only where one of the
replacements puts it together, across an edge of the marker (`infix_subAll_iff_rejoins`).
-/

/-- A pattern; one that is replaced matches no empty text. -/
inductive Pattern : Type where
  | empty
  | char (p : Char → Bool)
  /-- As many characters of the class as there are, at least and at most so many. -/
  | many (p : Char → Bool) (least : ℕ) (most : Option ℕ)
  /-- `\b`, where `word` is `\w`. -/
  | boundary (word : Char → Bool)
  /-- `$`: the end, or a newline before it. -/
  | atEnd
  | seq (a b : Pattern)
  | either (a b : Pattern)

namespace Pattern

/-- The character before, and the text from here on. -/
abbrev Cursor := Option Char × List Char

def skip (k : ℕ) (c : Cursor) : Cursor := ((c.2.take k).getLast?.or c.1, c.2.drop k)

/-- Where a match may end, the preferred end first. -/
def ends : Pattern → Cursor → List Cursor
  | .empty, c => [c]
  | .char _, (_, []) => []
  | .char p, (_, x :: xs) => if p x then [(some x, xs)] else []
  | .many p least most, c =>
      let run := (c.2.takeWhile p).length
      let run := most.elim run (min run)
      (List.range (run + 1 - least)).map fun i => skip (run - i) c
  | .boundary word, c => if c.1.any word = c.2.head?.any word then [] else [c]
  | .atEnd, c => if c.2 = [] ∨ c.2 = ['\n'] then [c] else []
  | .seq a b, c => (a.ends c).flatMap b.ends
  | .either a b, c => a.ends c ++ b.ends c

/-- The text itself. -/
def literal (s : List Char) : Pattern := s.foldr (fun x p => .seq (.char (· == x)) p) .empty

/-- Whether the pattern matches somewhere in the text. -/
def occursFrom (p : Pattern) : Option Char → List Char → Bool
  | _, [] => false
  | before, x :: xs => !(p.ends (before, x :: xs)).isEmpty || occursFrom p (some x) xs

def occurs (p : Pattern) (text : List Char) : Bool := p.occursFrom none text

/-- The matches replaced by the marker; a match takes at least one character, so the length of the
text is fuel enough. -/
def subFrom (p : Pattern) (marker : List Char) : ℕ → Cursor → List Char
  | 0, c => c.2
  | _ + 1, (_, []) => []
  | fuel + 1, (before, x :: xs) =>
      match (p.ends (before, x :: xs)).head? with
      | some c => marker ++ subFrom p marker fuel c
      | none => x :: subFrom p marker fuel (some x, xs)

def sub (p : Pattern) (marker text : List Char) : List Char :=
  p.subFrom marker text.length (none, text)

example : (seq (char (· == 'a')) (many (· == 'b') 1 none)).sub ['*'] "abbcab".toList =
    "*c*".toList := by decide

/-! ### Literal texts -/

theorem ends_literal {s : List Char} {c : Cursor} : (literal s).ends c ≠ [] ↔ s <+: c.2 := by
  induction s generalizing c with
  | nil => simp [literal, ends]
  | cons x s ih =>
      obtain ⟨before, text⟩ := c
      have hs : literal (x :: s) = .seq (.char (· == x)) (literal s) := rfl
      cases text with
      | nil => simp [hs, ends]
      | cons y ys =>
          by_cases hxy : y = x
          · subst hxy
            simpa [hs, ends] using ih
          · simp [hs, ends, hxy, Ne.symm hxy]

theorem occursFrom_literal {s : List Char} (hs : s ≠ []) {before : Option Char} {text : List Char} :
    (literal s).occursFrom before text = true ↔ s <:+: text := by
  induction text generalizing before with
  | nil => simpa [occursFrom] using hs
  | cons x xs ih =>
      have he : (!((literal s).ends (before, x :: xs)).isEmpty) = true ↔ s <+: x :: xs := by
        rw [← ends_literal (c := (before, x :: xs))]
        simp
      rw [occursFrom, Bool.or_eq_true, he, ih, List.infix_cons_iff]

/-! ### What a group takes -/

/-- What the group takes where the three match one after the other. -/
def captured (before group after : Pattern) (c : Cursor) : Option (List Char) :=
  (((before.ends c).flatMap fun c₁ => (group.ends c₁).map fun c₂ => (c₁, c₂)).find?
    fun e => !(after.ends e.2).isEmpty).map fun e => e.1.2.take (e.1.2.length - e.2.2.length)

theorem ends_seq_ne_nil {a b : Pattern} {c : Cursor} :
    (seq a b).ends c ≠ [] ↔ ∃ c' ∈ a.ends c, b.ends c' ≠ [] := by
  simp [ends, List.flatMap_eq_nil_iff]

theorem ends_literal_append (s : List Char) (before : Option Char) (z : List Char) :
    ∃ before', (literal s).ends (before, s ++ z) = [(before', z)] := by
  induction s generalizing before with
  | nil => exact ⟨before, rfl⟩
  | cons x s ih =>
      obtain ⟨before', h⟩ := ih (some x)
      exact ⟨before', by simpa [literal, ends] using h⟩

section Run

variable {p : Char → Bool} {w y z : List Char} {k : ℕ}

theorem length_le_takeWhile (h : ∀ c ∈ w, p c = true) :
    w.length ≤ ((w ++ y).takeWhile p).length := by
  rw [List.takeWhile_append_of_pos h, List.length_append]
  exact Nat.le_add_right _ _

theorem of_mem_take (hk : k ≤ (y.takeWhile p).length) : ∀ c ∈ y.take k, p c = true := by
  obtain ⟨r, hr⟩ := List.takeWhile_prefix (l := y) p
  rw [← hr, List.take_append_of_le_length hk]
  exact fun c hc => List.all_eq_true.mp List.all_takeWhile c (List.mem_of_mem_take hc)

theorem take_ne_nil (h0 : 0 < k) (hk : k ≤ (y.takeWhile p).length) : y.take k ≠ [] := by
  have hlen := (List.takeWhile_prefix (l := y) p).length_le
  intro h
  have h := congrArg List.length h
  rw [List.length_take, List.length_nil] at h
  omega

/-- What a run may take and leave: a text of the class, and the rest. -/
theorem exists_mem_ends_many {before : Option Char} {P : List Char → Prop} :
    (∃ c ∈ (many p 1 none).ends (before, y), P c.2) ↔
      ∃ w z, y = w ++ z ∧ w ≠ [] ∧ (∀ c ∈ w, p c = true) ∧ P z := by
  have hends : (many p 1 none).ends (before, y) =
      (List.range (y.takeWhile p).length).map fun i =>
        skip ((y.takeWhile p).length - i) (before, y) := rfl
  simp only [hends, List.mem_map, List.mem_range]
  constructor
  · rintro ⟨c, ⟨i, hi, rfl⟩, h⟩
    exact ⟨_, _, (List.take_append_drop ((y.takeWhile p).length - i) y).symm,
      take_ne_nil (by omega) (Nat.sub_le _ _), of_mem_take (Nat.sub_le _ _), h⟩
  · rintro ⟨w, z, rfl, hw, hp, h⟩
    have hlen := length_le_takeWhile (y := z) hp
    have hpos := List.length_pos_iff.mpr hw
    refine ⟨_, ⟨((w ++ z).takeWhile p).length - w.length, by omega, rfl⟩, ?_⟩
    rw [Nat.sub_sub_self hlen]
    simpa [skip] using h

/-- The longest text of the class at the front that leaves something with `Q`. -/
structure Takes (p : Char → Bool) (Q : List Char → Prop) (z w : List Char) : Prop where
  ne_nil : w ≠ []
  all : ∀ c ∈ w, p c = true
  rest : ∃ y, z = w ++ y ∧ Q y
  longest : ∀ w' y, z = w' ++ y → (∀ c ∈ w', p c = true) → Q y → w'.length ≤ w.length

/-- **A run between a literal text and a pattern takes as much as it can.** -/
theorem captured_eq_some {s : List Char} {after : Pattern} {Q : List Char → Prop}
    (hQ : ∀ before y, after.ends (before, y) ≠ [] ↔ Q y) {before : Option Char} :
    captured (literal s) (many p 1 none) after (before, s ++ z) = some w ↔ Takes p Q z w := by
  obtain ⟨before', hs⟩ := ends_literal_append s before z
  set run := (z.takeWhile p).length with hrun
  have hlen : run ≤ z.length := (List.takeWhile_prefix (l := z) p).length_le
  have hends : (many p 1 none).ends (before', z) =
      (List.range run).map fun i => skip (run - i) (before', z) := rfl
  have hq : ∀ i, (!(after.ends (skip (run - i) (before', z))).isEmpty) = true ↔
      Q (z.drop (run - i)) := by
    intro i
    rw [Bool.not_eq_true', List.isEmpty_eq_false_iff]
    exact hQ _ _
  have hnq : ∀ i, (!!(after.ends (skip (run - i) (before', z))).isEmpty) = true ↔
      ¬ Q (z.drop (run - i)) := by
    intro i
    rw [← hq, Bool.not_eq_true', Bool.not_eq_true]
  -- the runs are tried from the longest to the shortest
  have hcap : captured (literal s) (many p 1 none) after (before, s ++ z) =
      ((List.range run).find? fun i => !(after.ends (skip (run - i) (before', z))).isEmpty).map
        fun i => z.take (run - i) := by
    simp only [captured, hs, hends, List.flatMap_singleton, List.map_map, List.find?_map,
      Option.map_map]
    congr 1
    funext i
    simp only [Function.comp_apply, skip, List.length_drop]
    congr 1
    omega
  rw [hcap]
  simp only [Option.map_eq_some_iff, List.find?_range_eq_some, List.mem_range, hq, hnq]
  constructor
  · rintro ⟨i, ⟨hi, hlt, hbefore⟩, rfl⟩
    refine ⟨take_ne_nil (by omega) (Nat.sub_le _ _), of_mem_take (Nat.sub_le _ _),
      ⟨_, (List.take_append_drop _ _).symm, hi⟩, ?_⟩
    intro w' y hz hp hy
    by_contra hlonger
    have hrun' : w'.length ≤ run := hrun ▸ hz ▸ length_le_takeWhile hp
    rw [List.length_take] at hlonger
    refine hbefore (run - w'.length) (by omega) ?_
    rw [Nat.sub_sub_self hrun', hz, List.drop_left]
    exact hy
  · rintro ⟨hw, hp, ⟨y, rfl, hy⟩, hlongest⟩
    have hrun' : w.length ≤ run := length_le_takeWhile hp
    have hpos := List.length_pos_iff.mpr hw
    refine ⟨run - w.length, ⟨?_, by omega, ?_⟩, ?_⟩
    · rwa [Nat.sub_sub_self hrun', List.drop_left]
    · intro j hj hQ
      have htaken := hlongest _ _ (List.take_append_drop (run - j) (w ++ y)).symm
        (of_mem_take (Nat.sub_le _ _)) hQ
      rw [List.length_take] at htaken
      omega
    · rw [Nat.sub_sub_self hrun', List.take_left]

end Run

/-! ### What a replacement leaves -/

section Sub

variable {p : Pattern} {marker : List Char}

theorem subFrom_of_not_occurs {fuel : ℕ} {before : Option Char} {text : List Char}
    (h : p.occursFrom before text = false) : p.subFrom marker fuel (before, text) = text := by
  induction fuel generalizing before text with
  | zero => rfl
  | succ fuel ih =>
      cases text with
      | nil => rfl
      | cons x xs =>
          simp only [occursFrom, Bool.or_eq_false_iff, Bool.not_eq_false', List.isEmpty_iff] at h
          simp [subFrom, h.1, ih h.2]

theorem mem_subFrom_of_occurs {m : Char} (hm : m ∈ marker) {fuel : ℕ} {before : Option Char}
    {text : List Char} (hf : text.length ≤ fuel) (h : p.occursFrom before text = true) :
    m ∈ p.subFrom marker fuel (before, text) := by
  induction fuel generalizing before text with
  | zero =>
      rw [List.length_eq_zero_iff.mp (Nat.le_zero.mp hf)] at h
      cases h
  | succ fuel ih =>
      cases text with
      | nil => cases h
      | cons x xs =>
          rw [subFrom]
          cases he : (p.ends (before, x :: xs)).head? with
          | some c => exact List.mem_append_left _ hm
          | none =>
              have hn : p.ends (before, x :: xs) = [] := List.head?_eq_none_iff.mp he
              have h : p.occursFrom (some x) xs = true := by simpa [occursFrom, hn] using h
              exact List.mem_cons_of_mem _ (ih (Nat.le_of_succ_le_succ hf) h)

theorem sub_eq_nil (hm : marker ≠ []) {text : List Char} : p.sub marker text = [] ↔ text = [] := by
  cases text with
  | nil => simp [sub, subFrom]
  | cons x xs =>
      simp only [sub, List.length_cons, subFrom, reduceCtorEq, iff_false]
      split <;> simp [hm]

/-- A character of the marker that the text has, it keeps. -/
theorem mem_sub {m : Char} (hm : m ∈ marker) {text : List Char} (h : m ∈ text) :
    m ∈ p.sub marker text := by
  cases ho : p.occurs text with
  | true => exact mem_subFrom_of_occurs hm le_rfl ho
  | false => rwa [sub, subFrom_of_not_occurs ho]

end Sub

/-! ### What a replacement keeps -/

section Gaps

variable {p : Pattern} {marker S : List Char}

/-- The parts of the text that are kept: before the matches, between them and behind. -/
def gapsFrom (p : Pattern) : ℕ → Cursor → List (List Char)
  | 0, c => [c.2]
  | _ + 1, (_, []) => [[]]
  | fuel + 1, (before, x :: xs) =>
      match (p.ends (before, x :: xs)).head? with
      | some c => [] :: gapsFrom p fuel c
      | none => (gapsFrom p fuel (some x, xs)).modifyHead (x :: ·)

def gaps (p : Pattern) (text : List Char) : List (List Char) :=
  p.gapsFrom text.length (none, text)

theorem gapsFrom_ne_nil (p : Pattern) (fuel : ℕ) (c : Cursor) : p.gapsFrom fuel c ≠ [] := by
  induction fuel generalizing c with
  | zero => exact List.cons_ne_nil _ _
  | succ fuel ih =>
      obtain ⟨before, text⟩ := c
      cases text with
      | nil => exact List.cons_ne_nil _ _
      | cons x xs =>
          rw [gapsFrom]
          split
          · exact List.cons_ne_nil _ _
          · obtain ⟨g, gs, h⟩ := List.exists_cons_of_ne_nil (ih (some x, xs))
            rw [h]
            exact List.cons_ne_nil _ _

/-- A replacement puts the marker between what it keeps. -/
theorem subFrom_eq (fuel : ℕ) (c : Cursor) :
    p.subFrom marker fuel c = marker.intercalate (p.gapsFrom fuel c) := by
  induction fuel generalizing c with
  | zero => simp [subFrom, gapsFrom]
  | succ fuel ih =>
      obtain ⟨before, text⟩ := c
      cases text with
      | nil => simp [subFrom, gapsFrom]
      | cons x xs =>
          simp only [subFrom, gapsFrom]
          cases (p.ends (before, x :: xs)).head? with
          | some c =>
              obtain ⟨g, gs, h⟩ := List.exists_cons_of_ne_nil (gapsFrom_ne_nil p fuel c)
              simp only [ih, h, List.intercalate_cons_cons, List.nil_append]
          | none =>
            obtain ⟨g, gs, h⟩ := List.exists_cons_of_ne_nil (gapsFrom_ne_nil p fuel (some x, xs))
            simp only [ih, h, List.modifyHead_cons]
            cases gs <;> simp [List.intercalate_cons_cons]

theorem sub_eq (text : List Char) : p.sub marker text = marker.intercalate (p.gaps text) :=
  subFrom_eq _ _

/-- A match ends further on in the text. -/
theorem suffix_of_mem_ends {c c' : Cursor} (h : c' ∈ p.ends c) : c'.2 <:+ c.2 := by
  induction p generalizing c c' with
  | empty =>
      rw [List.mem_singleton.mp h]
  | char q =>
      obtain ⟨before, text⟩ := c
      cases text with
      | nil => cases h
      | cons x xs =>
          rw [ends] at h
          split at h
          · rw [List.mem_singleton.mp h]
            exact List.suffix_cons x xs
          · cases h
  | many q least most =>
      obtain ⟨i, -, rfl⟩ := List.mem_map.mp h
      exact List.drop_suffix _ _
  | boundary word =>
      rw [ends] at h
      split at h
      · cases h
      · rw [List.mem_singleton.mp h]
  | atEnd =>
      rw [ends] at h
      split at h
      · rw [List.mem_singleton.mp h]
      · cases h
  | seq a b iha ihb =>
      obtain ⟨c₁, hc₁, hc'⟩ := List.mem_flatMap.mp h
      exact (ihb hc').trans (iha hc₁)
  | either a b iha ihb => exact (List.mem_append.mp h).elim iha ihb

/-- What is kept was there; the first of it at the beginning. -/
theorem infix_gapsFrom (fuel : ℕ) (c : Cursor) :
    (∀ g ∈ (p.gapsFrom fuel c).head?, g <+: c.2) ∧ ∀ g ∈ p.gapsFrom fuel c, g <:+: c.2 := by
  induction fuel generalizing c with
  | zero => simp [gapsFrom]
  | succ fuel ih =>
      obtain ⟨before, text⟩ := c
      cases text with
      | nil => simp [gapsFrom]
      | cons x xs =>
          rw [gapsFrom]
          split
          · next c hc =>
              have hsuffix := suffix_of_mem_ends (List.mem_of_head? hc)
              refine ⟨fun g hg => ?_, List.forall_mem_cons.mpr ⟨List.nil_infix, fun g hg => ?_⟩⟩
              · cases hg
                exact List.nil_prefix
              · exact ((ih c).2 g hg).trans hsuffix.isInfix
          · obtain ⟨g, gs, h⟩ := List.exists_cons_of_ne_nil (gapsFrom_ne_nil p fuel (some x, xs))
            obtain ⟨hhead, hall⟩ := ih (some x, xs)
            rw [h] at hhead hall ⊢
            have hfirst : x :: g <+: x :: xs := (List.prefix_cons_inj x).mpr (hhead g rfl)
            refine ⟨fun g' hg' => ?_, List.forall_mem_cons.mpr ⟨hfirst.isInfix, fun g' hg' => ?_⟩⟩
            · cases hg'
              exact hfirst
            · exact List.infix_cons (hall g' (List.mem_cons_of_mem g hg'))

theorem infix_of_mem_gaps {text g : List Char} (h : g ∈ p.gaps text) : g <:+: text :=
  (infix_gapsFrom _ _).2 g h

/-- What the replacement of a literal text keeps does not have it. -/
theorem not_infix_gapsFrom (hS : S ≠ []) {fuel : ℕ} {c : Cursor} (hf : c.2.length ≤ fuel) :
    ∀ g ∈ (literal S).gapsFrom fuel c, ¬ S <:+: g := by
  have hnil : ¬ S <:+: [] := fun h => hS (List.infix_nil.mp h)
  induction fuel generalizing c with
  | zero =>
      rintro g hg
      rw [List.mem_singleton.mp hg, List.length_eq_zero_iff.mp (Nat.le_zero.mp hf)]
      exact hnil
  | succ fuel ih =>
      obtain ⟨before, text⟩ := c
      cases text with
      | nil =>
          rintro g hg
          rw [List.mem_singleton.mp hg]
          exact hnil
      | cons x xs =>
          rw [gapsFrom]
          split
          · next c hc =>
              -- the literal begins here, so nothing is kept before it
              have hmem := List.mem_of_head? hc
              obtain ⟨z, hz⟩ := ends_literal.mp (List.ne_nil_of_mem hmem)
              have hz : S ++ z = x :: xs := hz
              obtain ⟨before', hends⟩ := ends_literal_append S before z
              rw [← hz, hends] at hmem
              have hlen : c.2.length ≤ fuel := by
                have hpos := List.length_pos_iff.mpr hS
                have htext := congrArg List.length hz
                rw [List.length_append] at htext
                rw [List.mem_singleton.mp hmem]
                simp only [List.length_cons] at hf htext ⊢
                omega
              exact List.forall_mem_cons.mpr ⟨hnil, ih hlen⟩
          · next hnone =>
              -- one character more is kept, and the literal did not begin with it
              have hno : ¬ S <+: x :: xs := by
                rw [← ends_literal (c := (before, x :: xs)), not_not]
                exact List.head?_eq_none_iff.mp hnone
              have hlen : xs.length ≤ fuel := Nat.le_of_succ_le_succ hf
              obtain ⟨g, gs, h⟩ :=
                List.exists_cons_of_ne_nil (gapsFrom_ne_nil (literal S) fuel (some x, xs))
              have hhead := (infix_gapsFrom (p := literal S) fuel (some x, xs)).1
              have hrest := ih hlen (c := (some x, xs))
              rw [h] at hhead hrest ⊢
              obtain ⟨hg, hgs⟩ := List.forall_mem_cons.mp hrest
              refine List.forall_mem_cons.mpr ⟨fun hin => ?_, hgs⟩
              rcases List.infix_cons_iff.mp hin with hpre | hin
              · exact hno (hpre.trans ((List.prefix_cons_inj x).mpr (hhead g rfl)))
              · exact hg hin

end Gaps

/-! ### What a marker between texts can complete -/

section Edges

variable {α : Type} {S M a b : List α}

/-- A text with one edge of the marker: it ends as the marker begins, begins as the marker ends, or
holds the marker. -/
def Edged (S M : List α) : Prop :=
  (∃ u w, S = u ++ w ∧ u ≠ [] ∧ w ≠ [] ∧ w <+: M) ∨
    (∃ u w, S = u ++ w ∧ u ≠ [] ∧ w ≠ [] ∧ u <:+ M) ∨ M <:+: S

/-- In two texts it lies in one of them, or across. -/
theorem infix_append_cases (h : S <:+: a ++ b) :
    S <:+: a ∨ S <:+: b ∨ ∃ u w, S = u ++ w ∧ u ≠ [] ∧ w ≠ [] ∧ u <:+ a ∧ w <+: b := by
  obtain ⟨s, t, h⟩ := h
  rw [List.append_assoc] at h
  rcases List.append_eq_append_iff.mp h with ⟨u, ha, hu⟩ | ⟨z, -, hb⟩
  · rcases List.append_eq_append_iff.mp hu with ⟨z, hz, -⟩ | ⟨w, hw, hb⟩
    · exact .inl ⟨s, z, by rw [ha, hz, List.append_assoc]⟩
    · by_cases hu0 : u = []
      · rw [hu0, List.nil_append] at hw
        exact .inr (.inl (hw ▸ ⟨[], t, hb.symm⟩))
      by_cases hw0 : w = []
      · rw [hw0, List.append_nil] at hw
        exact .inl (hw ▸ ⟨s, [], by rw [ha, List.append_nil]⟩)
      · exact .inr (.inr ⟨u, w, hw, hu0, hw0, ⟨s, ha.symm⟩, ⟨t, hb.symm⟩⟩)
  · exact .inr (.inl ⟨z, t, by rw [hb, List.append_assoc]⟩)

/-- A marker whose first letter comes once begins before its own place only in what is there. -/
theorem prefix_append_marker {m : α} {t : List α} (hm : m ∉ t) (ha : a ≠ [])
    (h : m :: t <+: a ++ (m :: t ++ b)) : m :: t <+: a := by
  rcases List.prefix_or_prefix_of_prefix h (List.prefix_append a _) with h' | ⟨w, hw⟩
  · exact h'
  · obtain ⟨c, a, rfl⟩ := List.exists_cons_of_ne_nil ha
    cases w with
    | nil => exact ⟨[], by rw [← hw, List.append_nil, List.append_nil]⟩
    | cons d w =>
        -- the marker would have its first letter once more, where the other one begins
        rw [← hw, List.prefix_append_right_inj] at h
        obtain ⟨hc, ht⟩ := List.cons.inj hw
        have hd : d = m := (List.cons_prefix_cons.mp h).1.trans hc
        rw [← ht, ← hd] at hm
        exact absurd (List.mem_append_right a List.mem_cons_self) hm

/-- Between texts that do not have it, a marker completes only a text with an edge of it. -/
theorem infix_intercalate {gs : List (List α)} (h : S <:+: M.intercalate gs) (hS : S ≠ []) :
    (∃ g ∈ gs, S <:+: g) ∨ S <:+: M ∨ Edged S M := by
  induction gs with
  | nil =>
      rw [List.intercalate_nil] at h
      exact absurd (List.infix_nil.mp h) hS
  | cons g gs ih =>
      cases gs with
      | nil =>
          rw [List.intercalate_singleton] at h
          exact .inl ⟨g, List.mem_singleton_self g, h⟩
      | cons g' gs =>
          rw [List.intercalate_cons_cons, List.append_assoc] at h
          rcases infix_append_cases h with h | h | ⟨u, w, hs, hu, hw, -, hwm⟩
          · exact .inl ⟨g, List.mem_cons_self, h⟩
          · rcases infix_append_cases h with h | h | ⟨u, w, hs, hu, hw, hum, -⟩
            · exact .inr (.inl h)
            · rcases ih h with ⟨g'', hg, h⟩ | h
              · exact .inl ⟨g'', List.mem_cons_of_mem g hg, h⟩
              · exact .inr h
            · exact .inr (.inr (.inr (.inl ⟨u, w, hs, hu, hw, hum⟩)))
          · rcases List.prefix_or_prefix_of_prefix hwm (List.prefix_append M _) with hp | hp
            · exact .inr (.inr (.inl ⟨u, w, hs, hu, hw, hp⟩))
            · have hmark : M <:+: S := by
                rw [hs]
                exact hp.isInfix.trans (List.suffix_append u w).isInfix
              exact .inr (.inr (.inr (.inr hmark)))

/-- Each of the texts is in what they make. -/
theorem infix_intercalate_of_mem {gs : List (List α)} {g : List α} (h : g ∈ gs) :
    g <:+: M.intercalate gs := by
  induction gs with
  | nil => cases h
  | cons g' gs ih =>
      cases gs with
      | nil =>
          rw [List.mem_singleton.mp h, List.intercalate_singleton]
      | cons g'' gs =>
          rw [List.intercalate_cons_cons]
          rcases List.mem_cons.mp h with rfl | h
          · exact ((List.prefix_append _ _).trans (List.prefix_append _ _)).isInfix
          · exact (ih h).trans (List.suffix_append _ _).isInfix

end Edges

/-- The patterns replaced, one after the other. -/
def subAll (marker : List Char) (ps : List Pattern) (text : List Char) : List Char :=
  ps.foldl (fun text p => p.sub marker text) text

theorem mem_subAll {marker : List Char} {m : Char} (hm : m ∈ marker) {ps : List Pattern}
    {text : List Char} (h : m ∈ text) : m ∈ subAll marker ps text := by
  induction ps generalizing text with
  | nil => exact h
  | cons p ps ih => exact ih (mem_sub hm h)

theorem subAll_eq_nil {marker : List Char} (hm : marker ≠ []) {ps : List Pattern}
    {text : List Char} : subAll marker ps text = [] ↔ text = [] := by
  induction ps generalizing text with
  | nil => rfl
  | cons p ps ih => exact ih.trans (sub_eq_nil hm)

/-- **Only a text in which no pattern occurs is as before.** -/
theorem subAll_eq_self_iff {marker : List Char} {m : Char} (hm : m ∈ marker) {ps : List Pattern}
    {text : List Char} (h : m ∉ text) :
    subAll marker ps text = text ↔ ∀ p ∈ ps, p.occurs text = false := by
  induction ps with
  | nil => simp [subAll]
  | cons p ps ih =>
      rw [List.forall_mem_cons]
      cases ho : p.occurs text with
      | true =>
          have hsub : m ∈ subAll marker ps (p.sub marker text) :=
            mem_subAll hm (mem_subFrom_of_occurs hm le_rfl ho)
          refine ⟨fun he => ?_, fun hf => by cases hf.1⟩
          rw [show subAll marker ps (p.sub marker text) = text from he] at hsub
          exact absurd hsub h
      | false =>
          have hp : p.sub marker text = text := subFrom_of_not_occurs ho
          simpa [subAll, hp] using ih

/-! ### What the replacements leave together -/

section Joined

variable {S marker : List Char}

/-- The replacement puts `S` together with the marker: no part of the text that it keeps has it. -/
def Joins (S marker : List Char) (p : Pattern) (text : List Char) : Prop :=
  S <:+: marker.intercalate (p.gaps text) ∧ ∀ g ∈ p.gaps text, ¬ S <:+: g

/-- Each of the replacements keeps a part of the text that has `S`. -/
def Spares (S marker : List Char) : List Pattern → List Char → Prop
  | [], _ => True
  | p :: ps, text => (∃ g ∈ p.gaps text, S <:+: g) ∧ Spares S marker ps (p.sub marker text)

/-- One of the replacements puts `S` together, and each later one keeps a part that has it. -/
def Rejoins (S marker : List Char) : List Pattern → List Char → Prop
  | [], _ => False
  | p :: ps, text =>
      (Joins S marker p text ∧ Spares S marker ps (p.sub marker text)) ∨
        Rejoins S marker ps (p.sub marker text)

theorem Joins.edged {p : Pattern} {text : List Char} (h : Joins S marker p text) (hS : S ≠ [])
    (hm : ¬ S <:+: marker) : Edged S marker := by
  rcases infix_intercalate h.1 hS with ⟨g, hg, hin⟩ | hin | hedge
  · exact absurd hin (h.2 g hg)
  · exact absurd hin hm
  · exact hedge

/-- Only a text with an edge of the marker is put together. -/
theorem Rejoins.edged (hS : S ≠ []) (hm : ¬ S <:+: marker) {ps : List Pattern} {text : List Char}
    (h : Rejoins S marker ps text) : Edged S marker := by
  induction ps generalizing text with
  | nil => cases h
  | cons p ps ih => exact h.elim (fun h => h.1.edged hS hm) ih

/-- Where a replacement that keeps no `S` is among them, they do not spare it. -/
theorem not_spares {p : Pattern} (hp : ∀ text, ∀ g ∈ p.gaps text, ¬ S <:+: g) {ps : List Pattern}
    (h : p ∈ ps) {text : List Char} : ¬ Spares S marker ps text := by
  induction ps generalizing text with
  | nil => cases h
  | cons q ps ih =>
      rintro ⟨⟨g, hg, hin⟩, hrest⟩
      rcases List.mem_cons.mp h with rfl | h
      · exact hp text g hg hin
      · exact ih h hrest

theorem infix_sub {p : Pattern} {text : List Char} :
    S <:+: p.sub marker text ↔ Joins S marker p text ∨ ∃ g ∈ p.gaps text, S <:+: g := by
  rw [sub_eq, Joins]
  constructor
  · intro h
    by_cases hg : ∃ g ∈ p.gaps text, S <:+: g
    · exact .inr hg
    · exact .inl ⟨h, fun g hmem hin => hg ⟨g, hmem, hin⟩⟩
  · rintro (h | ⟨g, hg, h⟩)
    · exact h.1
    · exact h.trans (infix_intercalate_of_mem hg)

/-- **What is in the end was put together on the way, or was there and was spared.** -/
theorem infix_subAll {ps : List Pattern} {text : List Char} :
    S <:+: subAll marker ps text ↔
      Rejoins S marker ps text ∨ (S <:+: text ∧ Spares S marker ps text) := by
  induction ps generalizing text with
  | nil => simp [subAll, Rejoins, Spares]
  | cons p ps ih =>
      have hfrom : (∃ g ∈ p.gaps text, S <:+: g) → S <:+: text :=
        fun ⟨g, hg, h⟩ => h.trans (infix_of_mem_gaps hg)
      have hstep : S <:+: subAll marker (p :: ps) text ↔
          S <:+: subAll marker ps (p.sub marker text) := Iff.rfl
      rw [hstep, ih, infix_sub, Rejoins, Spares]
      constructor
      · rintro (h | ⟨h | h, hs⟩)
        · exact .inl (.inr h)
        · exact .inl (.inl ⟨h, hs⟩)
        · exact .inr ⟨hfrom h, h, hs⟩
      · rintro ((⟨h, hs⟩ | h) | ⟨-, h, hs⟩)
        · exact .inr ⟨.inl h, hs⟩
        · exact .inl h
        · exact .inr ⟨.inr h, hs⟩

/-- **A literal text that is among what is replaced is there in the end only where one of the
replacements puts it together.** -/
theorem infix_subAll_iff_rejoins (hS : S ≠ []) {ps : List Pattern} (h : literal S ∈ ps)
    {text : List Char} : S <:+: subAll marker ps text ↔ Rejoins S marker ps text := by
  have hno : ¬ Spares S marker ps text :=
    not_spares (fun _ => not_infix_gapsFrom hS le_rfl) h
  rw [infix_subAll]
  exact ⟨fun hin => hin.elim id fun hs => absurd hs.2 hno, .inl⟩

end Joined

end Pattern
