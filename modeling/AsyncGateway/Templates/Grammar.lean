import AsyncGateway.Templates.Expression

/-!
# Templates — the grammar of the path expressions

An expression is a `$` and at most 32 steps, each spelled in one of a few ways, and holds none of
the forbidden tokens (`Expressed`).  `Strict` has the spellings of the grammar, and `Read` those the
compiler takes: `compileExpression` accepts what `Read` expresses, with the steps that it spells
(`compileExpression_eq_ok`).  Both take the plain spellings (`Plain`).  The compiler reads more of a
bracket (white space around its content, a quote mark inside a key, other decimal digits) and less
(it ends a key at its first `]`, and takes no more digits than `int`), so it agrees with the grammar
on a string just where every reading of it, by the one or the other, is plain
(`compileExpression_agrees_iff`).
-/

namespace AsyncGateway

open Json (Step)

/-! ### Spellings -/

def IsName (cs : List Char) : Prop :=
  ∃ c rest, cs = c :: rest ∧ nameStart c = true ∧ ∀ d ∈ rest, nameRest d = true

def IsQuote (q : Char) : Prop := q = '\'' ∨ q = '"'

def IsDigits (cs : List Char) : Prop := cs ≠ [] ∧ ∀ c ∈ cs, c.isDigit = true

/-- A step as the grammar spells it. -/
inductive Strict : List Char → Step → Prop
  | name {cs : List Char} (h : IsName cs) : Strict ('.' :: cs) (.key (String.ofList cs))
  | index {cs : List Char} (h : IsDigits cs) :
      Strict ('[' :: (cs ++ [']'])) (.index (Nat.ofDigitChars 10 cs 0))
  | negative {cs : List Char} (h : IsDigits cs) :
      Strict ('[' :: ('-' :: cs ++ [']'])) (.index (-(Nat.ofDigitChars 10 cs 0 : ℤ)))
  | quoted {q : Char} {key : List Char} (hq : IsQuote q) (h : q ∉ key) :
      Strict ('[' :: (q :: (key ++ [q]) ++ [']'])) (.key (String.ofList key))

def Blank (cs : List Char) : Prop := ∀ c ∈ cs, Text.isSpace c = true

/-- What the compiler reads between brackets, white space aside. -/
inductive Content : List Char → Step → Prop
  | index {cs : List Char} {i : ℤ} (h : Text.integer? cs = some i) : Content cs (.index i)
  | quoted {q : Char} {key : List Char} (hq : IsQuote q) :
      Content (q :: (key ++ [q])) (.key (String.ofList key))

/-- A step as the compiler reads it. -/
inductive Read : List Char → Step → Prop
  | name {cs : List Char} (h : IsName cs) : Read ('.' :: cs) (.key (String.ofList cs))
  | bracket {front core back : List Char} {step : Step} (hfront : Blank front)
      (hback : Blank back) (h : Content core step) (hclose : ']' ∉ core) :
      Read ('[' :: (front ++ core ++ back ++ [']'])) step

/-- A step that is spelled so that both take it. -/
inductive Plain : List Char → Step → Prop
  | name {cs : List Char} (h : IsName cs) : Plain ('.' :: cs) (.key (String.ofList cs))
  | index {cs : List Char} (h : IsDigits cs) (hlen : cs.length ≤ Text.maxDigits) :
      Plain ('[' :: (cs ++ [']'])) (.index (Nat.ofDigitChars 10 cs 0))
  | negative {cs : List Char} (h : IsDigits cs) (hlen : cs.length ≤ Text.maxDigits) :
      Plain ('[' :: ('-' :: cs ++ [']'])) (.index (-(Nat.ofDigitChars 10 cs 0 : ℤ)))
  | quoted {q : Char} {key : List Char} (hq : IsQuote q) (h : q ∉ key) (hb : ']' ∉ key) :
      Plain ('[' :: (q :: (key ++ [q]) ++ [']'])) (.key (String.ofList key))

/-- Steps one after the other. -/
inductive Spells (P : List Char → Step → Prop) : List Char → List Step → Prop
  | nil : Spells P [] []
  | cons {piece rest : List Char} {step : Step} {steps : List Step} (h : P piece step)
      (hrest : Spells P rest steps) : Spells P (piece ++ rest) (step :: steps)

theorem Spells.mono {P Q : List Char → Step → Prop}
    (hPQ : ∀ piece step, P piece step → Q piece step) {cs : List Char} {steps : List Step}
    (h : Spells P cs steps) : Spells Q cs steps := by
  induction h with
  | nil => exact .nil
  | cons h _ ih => exact .cons (hPQ _ _ h) ih

/-- None of the forbidden tokens occurs in the text. -/
def Permitted (cs : List Char) : Prop := ∀ t ∈ forbiddenTokens, ¬ t.1.toList <:+: cs

/-- A text that expresses the steps. -/
structure Expressed (P : List Char → Step → Prop) (spec : List Char) (steps : List Step) :
    Prop where
  spelled : ∃ cs, spec = '$' :: cs ∧ Spells P cs steps
  few : steps.length ≤ maxPathSteps
  allowed : Permitted spec

theorem Expressed.mono {P Q : List Char → Step → Prop}
    (hPQ : ∀ piece step, P piece step → Q piece step) {spec : List Char} {steps : List Step}
    (h : Expressed P spec steps) : Expressed Q spec steps where
  spelled := h.spelled.imp fun _ hcs => ⟨hcs.1, hcs.2.mono hPQ⟩
  few := h.few
  allowed := h.allowed

/-! ### What begins a step -/

section Begins

variable {P : List Char → Step → Prop} {cs rest : List Char} {steps : List Step}

/-- Every spelling of a step begins with a dot or a bracket. -/
def Begins (P : List Char → Step → Prop) : Prop :=
  ∀ piece step, P piece step → ∃ c tail, piece = c :: tail ∧ (c = '.' ∨ c = '[')

theorem begins_strict : Begins Strict := by
  rintro piece step (_ | _ | _ | _)
  · exact ⟨_, _, rfl, .inl rfl⟩
  all_goals exact ⟨_, _, rfl, .inr rfl⟩

theorem begins_read : Begins Read := by
  rintro piece step (_ | _)
  · exact ⟨_, _, rfl, .inl rfl⟩
  · exact ⟨_, _, rfl, .inr rfl⟩

/-- A name goes on as long as there are characters of a name. -/
theorem head_of_spells (hP : Begins P) (h : Spells P cs steps) :
    ∀ c tail, cs = c :: tail → nameRest c = false := by
  cases h with
  | nil => exact fun _ _ h => nomatch h
  | cons hpiece _ =>
      obtain ⟨c, tail, rfl, hc⟩ := hP _ _ hpiece
      rintro c' tail' h
      cases h
      rcases hc with rfl | rfl <;> rfl

theorem takeWhile_name {name : List Char} (hname : ∀ c ∈ name, nameRest c = true)
    (hrest : ∀ c tail, rest = c :: tail → nameRest c = false) :
    (name ++ rest).takeWhile nameRest = name ∧ (name ++ rest).dropWhile nameRest = rest := by
  rw [List.takeWhile_append_of_pos hname, List.dropWhile_append_of_pos hname]
  cases rest with
  | nil => simp
  | cons c tail =>
      have hc : nameRest c = false := hrest c tail rfl
      simp [hc]

theorem nameRest_of_isName (h : IsName cs) : ∀ c ∈ cs, nameRest c = true := by
  obtain ⟨c, tail, rfl, hc, htail⟩ := h
  rintro d hd
  rcases List.mem_cons.mp hd with rfl | hd
  · simp [nameRest, hc]
  · exact htail d hd

end Begins

/-! ### Between the brackets -/

section Content

variable {cs core inner front back : List Char} {step : Step}

theorem isSpace_of_isQuote {q : Char} (h : IsQuote q) : Text.isSpace q = false := by
  rcases h with rfl | rfl <;> rfl

theorem digit?_of_isQuote {q : Char} (h : IsQuote q) : Text.digit? q = none := by
  rcases h with rfl | rfl <;> decide

/-- A digit or a minus. -/
theorem isSpace_of_numeral {c : Char} (h : c = '-' ∨ ∃ d, Text.digit? c = some d) :
    Text.isSpace c = false := by
  rcases h with rfl | ⟨d, hd⟩
  · rfl
  · exact Text.not_isSpace_of_digit hd

theorem not_isQuote_of_numeral {c : Char} (h : c = '-' ∨ ∃ d, Text.digit? c = some d) :
    ¬ IsQuote c := by
  rintro hq
  rcases h with rfl | ⟨d, hd⟩
  · rcases hq with hq | hq <;> exact absurd hq (by decide)
  · rw [digit?_of_isQuote hq] at hd
    exact nomatch hd

/-- What is read starts and ends with a character that is not white space. -/
theorem Content.edges (h : Content core step) :
    core ≠ [] ∧ (∀ c ∈ core.head?, Text.isSpace c = false) ∧
      ∀ c ∈ core.getLast?, Text.isSpace c = false := by
  cases h with
  | index h =>
      obtain ⟨hne, hcore⟩ := Text.digits_of_integer? h
      exact ⟨hne, fun c hc => isSpace_of_numeral (hcore c (List.mem_of_head? hc)),
        fun c hc => isSpace_of_numeral (hcore c (List.mem_of_getLast? hc))⟩
  | @quoted q key hq =>
      refine ⟨List.cons_ne_nil _ _, ?_, ?_⟩
      · rintro c hc
        cases hc
        exact isSpace_of_isQuote hq
      · rintro c hc
        rw [← List.cons_append, List.getLast?_concat] at hc
        cases hc
        exact isSpace_of_isQuote hq

theorem Content.strip (h : Content core step) (hfront : Blank front) (hback : Blank back) :
    Text.strip (front ++ core ++ back) = core :=
  Text.strip_pad hfront hback h.edges.1 h.edges.2.1 h.edges.2.2

theorem Content.strip_self (h : Content core step) : Text.strip core = core := by
  have hblank : Blank [] := fun _ h => nomatch h
  have := h.strip hblank hblank
  rwa [List.nil_append, List.append_nil] at this

/-- The test of `bracketStep` for a quoted key. -/
def quotedTest (core : List Char) : Bool :=
  match core.head?, core.getLast? with
  | some q, some q' => decide (2 ≤ core.length ∧ q = q') && (q == '\'' || q == '"')
  | _, _ => false

theorem bracketStep_eq (inner : List Char) :
    bracketStep inner =
      if quotedTest (Text.strip inner) then
        some (.key (String.ofList (Text.strip inner).tail.dropLast))
      else (Text.integer? (Text.strip inner)).map .index := rfl

theorem quotedTest_iff :
    quotedTest core = true ↔ ∃ q key, IsQuote q ∧ core = q :: (key ++ [q]) := by
  constructor
  · rintro h
    cases core with
    | nil => exact nomatch h
    | cons q rest =>
        rcases List.eq_nil_or_concat rest with rfl | ⟨key, q', rfl⟩
        · simp [quotedTest] at h
        · rw [quotedTest, List.concat_eq_append, ← List.cons_append, List.getLast?_concat] at h
          simp only [List.cons_append, List.head?_cons, Bool.and_eq_true, decide_eq_true_eq,
            Bool.or_eq_true, beq_iff_eq] at h
          obtain ⟨⟨-, rfl⟩, hq⟩ := h
          exact ⟨q, key, hq, by rw [List.concat_eq_append]⟩
  · rintro ⟨q, key, hq, rfl⟩
    rw [quotedTest, ← List.cons_append, List.getLast?_concat]
    rcases hq with rfl | rfl <;> simp

/-- `bracketStep` reads what is between brackets without the white space around. -/
theorem bracketStep_iff : bracketStep inner = some step ↔ Content (Text.strip inner) step := by
  rw [bracketStep_eq]
  generalize Text.strip inner = core
  constructor
  · rintro h
    by_cases hquoted : quotedTest core = true
    · rw [if_pos hquoted] at h
      cases h
      obtain ⟨q, key, hq, rfl⟩ := quotedTest_iff.mp hquoted
      rw [List.tail_cons, List.dropLast_concat]
      exact .quoted hq
    · rw [if_neg hquoted] at h
      obtain ⟨i, hi, rfl⟩ := Option.map_eq_some_iff.mp h
      exact .index hi
  · rintro (h | hq)
    · have hquoted : ¬ quotedTest core = true := by
        rintro hquoted
        obtain ⟨q, key, hq, rfl⟩ := quotedTest_iff.mp hquoted
        exact not_isQuote_of_numeral ((Text.digits_of_integer? h).2 q (List.mem_cons_self ..)) hq
      rw [if_neg hquoted, h]
      rfl
    · rw [if_pos (quotedTest_iff.mpr ⟨_, _, hq, rfl⟩), List.tail_cons, List.dropLast_concat]

end Content

/-! ### The compiler -/

section Compiler

variable {n fuel : ℕ} {cs rest inner : List Char} {step : Step} {steps tail : List Step}
  {spec : String}

/-- The dot and the name after it. -/
theorem compileSteps_name (h : IsName cs) (hrest : ∀ c t, rest = c :: t → nameRest c = false) :
    compileSteps n (fuel + 1) ('.' :: (cs ++ rest)) =
      (compileSteps n fuel rest).map (.key (String.ofList cs) :: ·) := by
  obtain ⟨htake, hdrop⟩ := takeWhile_name (nameRest_of_isName h) hrest
  obtain ⟨c, name, rfl, hc, -⟩ := h
  simp only [compileSteps, htake, hdrop, hc, if_true]
  cases compileSteps n fuel rest <;> rfl

theorem takeWhile_close (hclose : ']' ∉ inner) (rest : List Char) :
    (inner ++ ']' :: rest).takeWhile (· ≠ ']') = inner ∧
      (inner ++ ']' :: rest).dropWhile (· ≠ ']') = ']' :: rest := by
  have hinner : ∀ c ∈ inner, decide (c ≠ ']') = true := by
    rintro c hc
    exact decide_eq_true fun h => hclose (h ▸ hc)
  rw [List.takeWhile_append_of_pos hinner, List.dropWhile_append_of_pos hinner]
  simp

/-- The brackets and what is between them. -/
theorem compileSteps_bracket (hclose : ']' ∉ inner) (h : bracketStep inner = some step) :
    compileSteps n (fuel + 1) ('[' :: (inner ++ ']' :: rest)) =
      (compileSteps n fuel rest).map (step :: ·) := by
  obtain ⟨htake, hdrop⟩ := takeWhile_close hclose rest
  have hmem : ']' ∈ inner ++ ']' :: rest := by simp
  simp only [compileSteps, if_pos hmem, htake, hdrop, h, List.tail_cons]
  cases compileSteps n fuel rest <;> rfl

theorem compileSteps_of_spells (h : Spells Read cs steps) (hfuel : cs.length ≤ fuel) :
    compileSteps n fuel cs = .ok steps := by
  induction h generalizing fuel with
  | nil => cases fuel <;> rfl
  | @cons piece rest step steps h hrest ih =>
      obtain _ | fuel := fuel
      · obtain ⟨c, t, rfl, -⟩ := begins_read _ _ h
        exact absurd hfuel (by simp)
      cases h with
      | @name cs h =>
          rw [List.cons_append, compileSteps_name h (head_of_spells begins_read hrest)]
          have hlen : rest.length ≤ fuel := by
            simp only [List.length_cons, List.length_append] at hfuel
            omega
          rw [ih hlen]
          rfl
      | @bracket front core back step hfront hback h hclose =>
          have hinner : ']' ∉ front ++ core ++ back := by
            simp only [List.mem_append, not_or]
            exact ⟨⟨fun hc => absurd (hfront _ hc) (by decide), hclose⟩,
              fun hc => absurd (hback _ hc) (by decide)⟩
          have hstep : bracketStep (front ++ core ++ back) = some step :=
            bracketStep_iff.mpr (by rwa [h.strip hfront hback])
          have hlen : rest.length ≤ fuel := by
            simp only [List.length_cons, List.length_append] at hfuel
            omega
          rw [List.cons_append, List.append_assoc _ [']'], List.singleton_append,
            compileSteps_bracket hinner hstep, ih hlen]
          rfl

theorem map_cons_eq_ok {r : Except ExpressionError (List Step)}
    (h : r.map (step :: ·) = .ok steps) : ∃ tail, r = .ok tail ∧ steps = step :: tail := by
  cases r with
  | error e => cases h
  | ok tail =>
      cases h
      exact ⟨tail, rfl, rfl⟩

/-- A dot without a name after it is refused. -/
theorem isName_of_compileSteps (h : compileSteps n (fuel + 1) ('.' :: rest) = .ok steps) :
    IsName (rest.takeWhile nameRest) := by
  rw [compileSteps] at h
  split at h
  · cases h
  · next c name htake =>
      have hname : ∀ d ∈ rest.takeWhile nameRest, nameRest d = true :=
        fun _ => List.mem_takeWhile_imp
      rw [htake] at hname ⊢
      split at h
      · next hc => exact ⟨c, name, rfl, hc, fun d hd => hname d (List.mem_cons_of_mem _ hd)⟩
      · cases h

/-- So is a bracket that is not closed, or that has no step in it. -/
theorem bracketStep_of_compileSteps
    (h : compileSteps n (fuel + 1) ('[' :: rest) = .ok steps) :
    ∃ inner tail step, rest = inner ++ ']' :: tail ∧ ']' ∉ inner ∧
      bracketStep inner = some step := by
  rw [compileSteps] at h
  split at h
  · next hmem =>
      obtain ⟨inner, tail, rfl, hclose⟩ := List.eq_append_cons_of_mem hmem
      rw [(takeWhile_close hclose tail).1] at h
      split at h
      · next step hstep => exact ⟨inner, tail, step, rfl, hclose, hstep⟩
      · split at h <;> cases h
  · cases h

theorem spells_of_compileSteps (hfuel : cs.length ≤ fuel)
    (h : compileSteps n fuel cs = .ok steps) : Spells Read cs steps := by
  induction fuel generalizing cs steps with
  | zero =>
      rw [List.length_eq_zero_iff.mp (Nat.le_zero.mp hfuel)] at h ⊢
      cases h
      exact .nil
  | succ fuel ih =>
      obtain _ | ⟨c, rest⟩ := cs
      · cases h
        exact .nil
      have hlen : rest.length ≤ fuel := Nat.le_of_succ_le_succ hfuel
      by_cases hdot : c = '.'
      · subst hdot
        -- a name, as far as its characters go
        have hname := isName_of_compileSteps h
        obtain ⟨name, tail, rfl, hname, hstop⟩ : ∃ name tail, rest = name ++ tail ∧
            IsName name ∧ ∀ d t, tail = d :: t → nameRest d = false := by
          refine ⟨_, _, List.takeWhile_append_dropWhile.symm, hname, fun d t hdrop => ?_⟩
          have hhead := List.head?_dropWhile_not nameRest rest
          rwa [hdrop] at hhead
        rw [compileSteps_name hname hstop] at h
        obtain ⟨steps, hsteps, rfl⟩ := map_cons_eq_ok h
        rw [List.length_append] at hlen
        exact .cons (.name hname) (ih (by omega) hsteps)
      · by_cases hopen : c = '['
        · subst hopen
          -- a bracket, up to the first that closes
          obtain ⟨inner, tail, step, rfl, hclose, hstep⟩ := bracketStep_of_compileSteps h
          rw [compileSteps_bracket hclose hstep] at h
          obtain ⟨steps, hsteps, rfl⟩ := map_cons_eq_ok h
          obtain ⟨front, back, hinner, hfront, hback⟩ := Text.strip_split inner
          have hread : Read ('[' :: (inner ++ [']'])) step := by
            have hcore : ']' ∉ Text.strip inner := by
              rintro hmem
              refine hclose ?_
              rw [hinner]
              simp [hmem]
            have := Read.bracket hfront hback (bracketStep_iff.mp hstep) hcore
            rwa [← hinner] at this
          rw [List.length_append, List.length_cons] at hlen
          have := Spells.cons hread (ih (by omega) hsteps)
          rwa [List.cons_append, List.append_assoc] at this
        · rw [compileSteps] at h
          · cases h
          · exact hdot
          · exact hopen

theorem compileSteps_eq_ok (hfuel : cs.length ≤ fuel) :
    compileSteps n fuel cs = .ok steps ↔ Spells Read cs steps :=
  ⟨spells_of_compileSteps hfuel, fun h => compileSteps_of_spells h hfuel⟩

theorem permitted_iff :
    Permitted cs ↔ forbiddenTokens.find? (fun t => Text.occursIn t.1.toList cs) = none := by
  simp only [Permitted, List.find?_eq_none, Text.occursIn_iff]

/-- After the tests of its beginning and of the tokens, the compiler reads the steps. -/
theorem compileExpression_dollar (hspec : spec.toList = '$' :: cs)
    (hallowed : Permitted spec.toList) :
    compileExpression spec =
      (compileSteps spec.toList.length cs.length cs).bind fun steps =>
        if maxPathSteps < steps.length then .error (.tooManySteps steps.length) else .ok steps := by
  have hfind := permitted_iff.mp hallowed
  simp only [hspec] at hfind
  simp only [compileExpression, hspec, hfind, if_true]
  rfl

theorem begins_of_compileExpression (h : compileExpression spec = .ok steps) :
    (∃ cs, spec.toList = '$' :: cs) ∧ Permitted spec.toList := by
  rw [permitted_iff]
  simp only [compileExpression] at h
  split at h
  · cases h
  · next c cs hspec =>
      split at h
      · cases h
      · next hfind =>
          split at h
          · next hc => exact ⟨⟨cs, by rw [hspec, hc]⟩, hfind⟩
          · cases h

/-- The compiler accepts what its spellings express. -/
theorem compileExpression_eq_ok :
    compileExpression spec = .ok steps ↔ Expressed Read spec.toList steps := by
  constructor
  · rintro h
    obtain ⟨⟨cs, hspec⟩, hallowed⟩ := begins_of_compileExpression h
    rw [compileExpression_dollar hspec hallowed] at h
    cases hsteps : compileSteps spec.toList.length cs.length cs with
    | error e =>
        rw [hsteps] at h
        cases h
    | ok steps' =>
        simp only [hsteps, Except.bind] at h
        split at h
        · cases h
        · next hfew =>
            cases h
            exact ⟨⟨cs, hspec, (compileSteps_eq_ok le_rfl).mp hsteps⟩, not_lt.mp hfew, hallowed⟩
  · rintro ⟨⟨cs, hspec, hspells⟩, hfew, hallowed⟩
    rw [compileExpression_dollar hspec hallowed, (compileSteps_eq_ok le_rfl).mpr hspells]
    exact if_neg (not_lt.mpr hfew)

end Compiler

/-! ### The compiler against the grammar -/

theorem Plain.strict {piece : List Char} {step : Step} (h : Plain piece step) :
    Strict piece step := by
  cases h with
  | name h => exact .name h
  | index h _ => exact .index h
  | negative h _ => exact .negative h
  | quoted hq h _ => exact .quoted hq h

/-- What is between brackets as both take it, with no white space around. -/
theorem read_of_content {core : List Char} {step : Step} (h : Content core step)
    (hclose : ']' ∉ core) : Read ('[' :: (core ++ [']'])) step := by
  have hblank : Blank [] := fun _ h => nomatch h
  have := Read.bracket hblank hblank h hclose
  rwa [List.nil_append, List.append_nil] at this

theorem not_mem_of_isDigits {c : Char} {cs : List Char} (h : IsDigits cs) (hc : c.isDigit = false) :
    c ∉ cs := by
  rintro hmem
  rw [h.2 c hmem] at hc
  exact nomatch hc

theorem Plain.read {piece : List Char} {step : Step} (h : Plain piece step) : Read piece step := by
  cases h with
  | name h => exact .name h
  | index h hlen =>
      refine read_of_content (.index ?_) (not_mem_of_isDigits h rfl)
      rw [Text.integer?_of_isDigit h.1 h.2, if_neg (not_lt.mpr hlen)]
  | negative h hlen =>
      refine read_of_content (.index ?_) ?_
      · rw [Text.integer?_of_minus h.1 h.2, if_neg (not_lt.mpr hlen)]
      · rw [List.mem_cons, not_or]
        exact ⟨by decide, not_mem_of_isDigits h rfl⟩
  | @quoted q key hq h hclose =>
      refine read_of_content (.quoted hq) ?_
      have hne : ']' ≠ q := by
        rintro rfl
        rcases hq with hq | hq <;> exact absurd hq (by decide)
      simp [hclose, hne]

section Unambiguous

variable {cs cs' inner rest rest' key piece piece' : List Char} {step step' : Step}
  {steps steps' : List Step} {q : Char} {spec : String}

theorem strip_of_isDigits (h : IsDigits cs) :
    Text.strip cs = cs ∧ Text.strip ('-' :: cs) = '-' :: cs := by
  have hcs : ∀ c ∈ cs, Text.isSpace c = false := fun c hc =>
    Text.not_isSpace_of_digit (Text.digit?_of_isDigit (h.2 c hc))
  refine ⟨Text.strip_of_not_isSpace hcs, Text.strip_of_not_isSpace fun c hc => ?_⟩
  rcases List.mem_cons.mp hc with rfl | hc
  · rfl
  · exact hcs c hc

/-- Digits, after a minus or not, are read as the index they are. -/
theorem Content.index_of_numeral {i : ℤ} (h : Content cs step)
    (hcs : ∀ c ∈ cs, c = '-' ∨ c.isDigit = true)
    (hint : Text.integer? cs = if Text.maxDigits < inner.length then none else some i) :
    inner.length ≤ Text.maxDigits ∧ step = .index i := by
  cases h with
  | index h =>
      rw [hint] at h
      split at h
      · cases h
      · next hlen =>
          cases h
          exact ⟨not_lt.mp hlen, rfl⟩
  | @quoted q key hq =>
      have hnumeral : q = '-' ∨ ∃ d, Text.digit? q = some d :=
        (hcs q (List.mem_cons_self ..)).imp_right fun hd => ⟨_, Text.digit?_of_isDigit hd⟩
      exact absurd hq (not_isQuote_of_numeral hnumeral)

/-- A quoted key without the quote mark in it is read as that key. -/
theorem Content.key_of_quoted (h : Content (q :: (key ++ [q])) step) (hq : IsQuote q) :
    step = .key (String.ofList key) := by
  generalize hcore : q :: (key ++ [q]) = core at h
  cases h with
  | index h =>
      subst hcore
      exact absurd hq
        (not_isQuote_of_numeral ((Text.digits_of_integer? h).2 q (List.mem_cons_self ..)))
  | @quoted q' key' _ =>
      rw [List.cons.injEq] at hcore
      obtain ⟨rfl, hcore⟩ := hcore
      rw [List.append_cancel_right hcore]

/-- A quoted key that is cut off before its closing quote mark is not read. -/
theorem not_content_of_open (hq : IsQuote q) (h : q ∉ key) :
    ¬ Content (Text.strip (q :: key)) step := by
  rintro hcontent
  obtain ⟨front, back, hsplit, hfront, -⟩ := Text.strip_split (q :: key)
  obtain _ | ⟨c, front⟩ := front
  swap
  · rw [List.cons_append, List.cons_append, List.cons.injEq] at hsplit
    have hc := hfront c (List.mem_cons_self ..)
    rw [← hsplit.1, isSpace_of_isQuote hq] at hc
    cases hc
  rw [List.nil_append] at hsplit
  generalize Text.strip (q :: key) = core at hsplit hcontent
  cases hcontent with
  | index hint =>
      obtain ⟨hne, hcore⟩ := Text.digits_of_integer? hint
      obtain ⟨c, core, rfl⟩ := List.exists_cons_of_ne_nil hne
      rw [List.cons_append, List.cons.injEq] at hsplit
      refine not_isQuote_of_numeral (hcore q ?_) hq
      rw [hsplit.1]
      exact List.mem_cons_self ..
  | quoted _ =>
      rw [List.cons_append, List.cons.injEq] at hsplit
      obtain ⟨rfl, rfl⟩ := hsplit
      exact h (by simp)

/-- What both read in one bracket is plain, and they read the same. -/
theorem plain_of_bracket (hclose : ']' ∉ inner) (h : Content (Text.strip inner) step)
    (hstrict : Strict piece step')
    (heq : '[' :: (inner ++ ']' :: rest) = piece ++ rest') :
    Plain ('[' :: (inner ++ [']'])) step ∧ step' = step ∧ rest = rest' := by
  cases hstrict with
  | name _ => cases heq
  | @index cs hcs =>
      simp only [List.cons_append, List.append_assoc, List.cons.injEq, true_and,
        List.nil_append] at heq
      obtain ⟨rfl, rfl⟩ := Text.cut_first_inj hclose (not_mem_of_isDigits hcs rfl) heq
      rw [(strip_of_isDigits hcs).1] at h
      obtain ⟨hlen, rfl⟩ := h.index_of_numeral (fun c hc => .inr (hcs.2 c hc))
        (Text.integer?_of_isDigit hcs.1 hcs.2)
      exact ⟨.index hcs hlen, rfl, rfl⟩
  | @negative cs hcs =>
      simp only [List.cons_append, List.append_assoc, List.cons.injEq, true_and,
        List.nil_append] at heq
      have hcs' : ']' ∉ '-' :: cs := by
        rw [List.mem_cons, not_or]
        exact ⟨by decide, not_mem_of_isDigits hcs rfl⟩
      rw [← List.cons_append] at heq
      obtain ⟨rfl, rfl⟩ := Text.cut_first_inj hclose hcs' heq
      rw [(strip_of_isDigits hcs).2] at h
      obtain ⟨hlen, rfl⟩ := h.index_of_numeral
        (fun c hc => (List.mem_cons.mp hc).imp_right (hcs.2 c))
        (Text.integer?_of_minus hcs.1 hcs.2)
      exact ⟨.negative hcs hlen, rfl, rfl⟩
  | @quoted q key hq hkey =>
      have hne : ']' ≠ q := by
        rintro rfl
        rcases hq with hq | hq <;> exact absurd hq (by decide)
      by_cases hmem : ']' ∈ key
      · -- the compiler ends the bracket inside of the key, before the closing quote mark
        obtain ⟨key₁, key₂, rfl, hkey₁⟩ := List.eq_append_cons_of_mem hmem
        have hcut : ']' ∉ q :: key₁ := by simp [hne, hkey₁]
        simp only [List.cons_append, List.append_assoc, List.cons.injEq, true_and] at heq
        rw [← List.cons_append] at heq
        obtain ⟨rfl, -⟩ := Text.cut_first_inj hclose hcut heq
        exact absurd h (not_content_of_open hq fun hq' => hkey (List.mem_append_left _ hq'))
      · have hcut : ']' ∉ q :: (key ++ [q]) := by simp [hne, hmem]
        have heq : inner ++ ']' :: rest = (q :: (key ++ [q])) ++ ']' :: rest' := by
          simpa using heq
        obtain ⟨rfl, rfl⟩ := Text.cut_first_inj hclose hcut heq
        rw [(Content.quoted hq).strip_self] at h
        obtain rfl := h.key_of_quoted hq
        exact ⟨.quoted hq hkey hmem, rfl, rfl⟩

theorem plain_of_piece (h : Read piece step) (h' : Strict piece' step')
    (hrest : ∀ c t, rest = c :: t → nameRest c = false)
    (hrest' : ∀ c t, rest' = c :: t → nameRest c = false) (heq : piece ++ rest = piece' ++ rest') :
    Plain piece step ∧ step' = step ∧ rest = rest' := by
  cases h with
  | @name name hname =>
      cases h' with
      | @name name' hname' =>
          have heq : name ++ rest = name' ++ rest' := (List.cons.inj heq).2
          have htake := takeWhile_name (nameRest_of_isName hname) hrest
          have htake' := takeWhile_name (nameRest_of_isName hname') hrest'
          rw [heq] at htake
          obtain rfl : name' = name := htake'.1.symm.trans htake.1
          exact ⟨.name hname, rfl, htake.2.symm.trans htake'.2⟩
      | index _ | negative _ | quoted _ _ => cases heq
  | @bracket front core back _ hfront hback h hclose =>
      have hinner : ']' ∉ front ++ core ++ back := by
        simp only [List.mem_append, not_or]
        exact ⟨⟨fun hc => absurd (hfront _ hc) (by decide), hclose⟩,
          fun hc => absurd (hback _ hc) (by decide)⟩
      have hcontent : Content (Text.strip (front ++ core ++ back)) step := by
        rwa [h.strip hfront hback]
      refine plain_of_bracket hinner hcontent h' ?_
      rw [← heq]
      simp

/-- What both read is plain, and they read the same. -/
theorem plain_of_spells (hread : Spells Read cs steps) (hstrict : Spells Strict cs' steps')
    (heq : cs = cs') : Spells Plain cs steps ∧ steps' = steps := by
  induction hread generalizing cs' steps' with
  | nil =>
      cases hstrict with
      | nil => exact ⟨.nil, rfl⟩
      | cons h _ =>
          obtain ⟨c, t, rfl, -⟩ := begins_strict _ _ h
          cases heq
  | @cons piece rest step steps h hrest ih =>
      cases hstrict with
      | nil =>
          obtain ⟨c, t, rfl, -⟩ := begins_read _ _ h
          cases heq
      | @cons piece' rest' step' steps' h' hrest' =>
          obtain ⟨hplain, rfl, rfl⟩ := plain_of_piece h h' (head_of_spells begins_read hrest)
            (head_of_spells begins_strict hrest') heq
          obtain ⟨hsteps, rfl⟩ := ih hrest' rfl
          exact ⟨.cons hplain hsteps, rfl⟩

/-- What the compiler accepts is what the grammar expresses just where every reading of the
specification, by the one or the other, is plain. -/
theorem compileExpression_agrees_iff (spec : String) :
    (∀ steps, compileExpression spec = .ok steps ↔ Expressed Strict spec.toList steps) ↔
      (∀ steps, Expressed Read spec.toList steps → Expressed Plain spec.toList steps) ∧
        ∀ steps, Expressed Strict spec.toList steps → Expressed Plain spec.toList steps := by
  simp only [compileExpression_eq_ok]
  constructor
  · rintro h
    have hplain : ∀ steps, Expressed Read spec.toList steps →
        Expressed Plain spec.toList steps := by
      rintro steps hread
      obtain ⟨⟨cs, hspec, hspells⟩, hfew, hallowed⟩ := hread
      have hstrict := (h steps).mp ⟨⟨cs, hspec, hspells⟩, hfew, hallowed⟩
      obtain ⟨cs', hspec', hspells'⟩ := hstrict.spelled
      have heq : cs = cs' := (List.cons.inj (hspec.symm.trans hspec')).2
      exact ⟨⟨cs, hspec, (plain_of_spells hspells hspells' heq).1⟩, hfew, hallowed⟩
    exact ⟨hplain, fun steps hstrict => hplain steps ((h steps).mpr hstrict)⟩
  · rintro ⟨hread, hstrict⟩ steps
    constructor
    · exact fun h => (hread steps h).mono fun _ _ => Plain.strict
    · exact fun h => (hstrict steps h).mono fun _ _ => Plain.read

/-- A union of two keys is taken for one key with quote marks in it. -/
theorem compileExpression_reads_union :
    compileExpression "$['a','b']" = .ok [.key "a','b"] ∧
      ∀ steps, ¬ Expressed Strict "$['a','b']".toList steps := by
  refine ⟨by rfl, ?_⟩
  rintro steps ⟨⟨cs, hspec, hspells⟩, -, -⟩
  have hcs : cs = '[' :: '\'' :: (['a'] ++ '\'' :: ",'b']".toList) := (List.cons.inj hspec).2.symm
  cases hspells with
  | nil => cases hcs
  | @cons piece rest step steps h _ =>
      cases h with
      | name _ => cases hcs
      | @index ds hds =>
          obtain ⟨d, ds, rfl⟩ := List.exists_cons_of_ne_nil hds.1
          have hd : d = '\'' := (List.cons.inj (List.cons.inj hcs).2).1
          exact absurd (hds.2 d (List.mem_cons_self ..)) (by rw [hd]; decide)
      | negative _ => exact absurd (List.cons.inj (List.cons.inj hcs).2).1 (by decide)
      | @quoted q key _ hkey =>
          -- the second quote mark closes the key, and what follows it is no bracket
          have hinner := List.cons.inj (List.cons.inj hcs).2
          obtain rfl : q = '\'' := hinner.1
          have hcut : key ++ '\'' :: (']' :: rest) = ['a'] ++ '\'' :: ",'b']".toList := by
            rw [← hinner.2]
            change _ = key ++ ['\''] ++ [']'] ++ rest
            rw [List.append_assoc, List.append_assoc]
            rfl
          exact absurd (List.cons.inj (Text.cut_first_inj hkey (by decide) hcut).2).1 (by decide)

end Unambiguous

end AsyncGateway
