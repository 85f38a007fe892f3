import AsyncGateway.Templates.Grammar
import AsyncGateway.Lib.Pattern

/-!
# Templates — a path printed and compiled

The steps of a path are printed as a `$` and, for each, a dot and its name or brackets with a quoted
key or an index (`printPath`).  The compiler gives them back where every index is short enough for
`int`, and raises its `ValueError` where one is not (`compileExpression_printPath`): a key is taken
back with whatever quote marks it has, since only a bracket ends it, and no forbidden token arises
where two pieces meet (`permitted_printPath`).
-/

namespace AsyncGateway

open Json (Step)

/-- `_NAME_RE.fullmatch`. -/
def isIdentifier : List Char → Bool
  | [] => false
  | c :: cs => nameStart c && cs.all nameRest

def printStep : Step → List Char
  | .key k =>
      if isIdentifier k.toList then '.' :: k.toList
      else '[' :: ('\'' :: (k.toList ++ ['\'']) ++ [']'])
  | .index i => '[' :: ((toString i).toList ++ [']'])

def printPath (steps : List Step) : String := String.ofList ('$' :: steps.flatMap printStep)

example : printPath [.key "data", .key "task id", .key "it's", .key "", .index (-1)] =
    "$.data['task id']['it's'][''][-1]" := by decide

/-- A path that can be printed: no key closes its bracket or has a forbidden token. -/
structure Printable (steps : List Step) : Prop where
  few : steps.length ≤ maxPathSteps
  closed : ∀ k, .key k ∈ steps → ']' ∉ k.toList
  permitted : ∀ k, .key k ∈ steps → Permitted k.toList

/-- Whether a key closes no bracket and has no forbidden token. -/
def printableStep : Step → Bool
  | .key k =>
      !k.toList.contains ']' &&
        (forbiddenTokens.find? fun t => Text.occursIn t.1.toList k.toList).isNone
  | .index _ => true

theorem isIdentifier_iff {cs : List Char} : isIdentifier cs = true ↔ IsName cs := by
  cases cs with
  | nil => simp [isIdentifier, IsName]
  | cons c cs => simp [isIdentifier, IsName, List.all_eq_true, and_assoc]

/-! ### No token arises between two pieces -/

section Permitted

variable {xs ys : List Char} {step : Step}

/-- Two characters that make a token. -/
def Clash (a b : Char) : Prop := [a, b] ∈ forbiddenTokens.map fun t => t.1.toList

theorem clash_iff {a b : Char} :
    Clash a b ↔ (a = '.' ∧ b = '.') ∨ (a = '[' ∧ b = '?') ∨ (a = '[' ∧ b = '(') := by
  simp [Clash, forbiddenTokens]

theorem permitted_append (hx : Permitted xs) (hy : Permitted ys)
    (h : ∀ a ∈ xs.getLast?, ∀ b ∈ ys.head?, ¬ Clash a b) : Permitted (xs ++ ys) := by
  intro t ht hin
  rcases Pattern.infix_append_cases hin with hin | hin | ⟨u, w, huw, hu, hw, hux, hwy⟩
  · exact hx t ht hin
  · exact hy t ht hin
  · -- the token lies across: its first character ends `xs`, its second begins `ys`
    have hlen : ∀ t ∈ forbiddenTokens, t.1.toList.length ≤ 2 := by decide
    have htwo := hlen t ht
    rw [huw, List.length_append] at htwo
    have hu1 := List.length_pos_iff.mpr hu
    have hw1 := List.length_pos_iff.mpr hw
    obtain ⟨a, rfl⟩ := List.length_eq_one_iff.mp (show u.length = 1 by omega)
    obtain ⟨b, rfl⟩ := List.length_eq_one_iff.mp (show w.length = 1 by omega)
    obtain ⟨front, rfl⟩ := hux
    obtain ⟨back, rfl⟩ := hwy
    refine h a List.getLast?_concat b rfl ?_
    exact List.mem_map.mpr ⟨t, ht, huw⟩

/-- What does not end in the first character of a token is safe before anything. -/
theorem permitted_append_last (hx : Permitted xs) (hy : Permitted ys)
    (h : ∀ a ∈ xs.getLast?, a ≠ '.' ∧ a ≠ '[') : Permitted (xs ++ ys) := by
  refine permitted_append hx hy ?_
  intro a ha b _ hclash
  obtain ⟨hdot, hbracket⟩ := h a ha
  rcases clash_iff.mp hclash with ⟨ha, -⟩ | ⟨ha, -⟩ | ⟨ha, -⟩
  · exact hdot ha
  · exact hbracket ha
  · exact hbracket ha

/-- Every token has one of a few characters. -/
theorem permitted_of_chars (h : ∀ c ∈ xs, c ∉ ".*?(@|".toList) : Permitted xs := by
  have hchar : ∀ t ∈ forbiddenTokens,
      (t.1.toList.any fun c => decide (c ∈ ".*?(@|".toList)) = true := by decide
  intro t ht hin
  obtain ⟨c, hc, hmem⟩ := List.any_eq_true.mp (hchar t ht)
  exact h c (hin.subset hc) (of_decide_eq_true hmem)

theorem printStep_ne_nil (step : Step) : printStep step ≠ [] := by
  cases step with
  | key k =>
      rw [printStep]
      split <;> exact List.cons_ne_nil _ _
  | index i => exact List.cons_ne_nil _ _

/-- A piece begins a step and does not end in what a token begins with. -/
theorem edges_printStep (step : Step) :
    (∀ b ∈ (printStep step).head?, b = '.' ∨ b = '[') ∧
      ∀ a ∈ (printStep step).getLast?, a ≠ '.' ∧ a ≠ '[' := by
  have hclose : ∀ front : List Char, ∀ a ∈ (front ++ [']']).getLast?, a ≠ '.' ∧ a ≠ '[' := by
    intro front a ha
    rw [List.getLast?_concat] at ha
    cases ha
    decide
  cases step with
  | key k =>
      rw [printStep]
      split
      · next hid =>
          have hname := isIdentifier_iff.mp hid
          refine ⟨fun b hb => .inl (Option.some.inj hb).symm, fun a ha => ?_⟩
          have hne : k.toList ≠ [] := by
            obtain ⟨c, rest, hk, -⟩ := hname
            rw [hk]
            exact List.cons_ne_nil _ _
          rw [List.getLast?_cons_of_ne_nil hne] at ha
          have hrest := nameRest_of_isName hname a (List.mem_of_getLast? ha)
          constructor <;> rintro rfl <;> cases hrest
      · exact ⟨fun b hb => .inr (Option.some.inj hb).symm, hclose (_ :: _)⟩
  | index i => exact ⟨fun b hb => .inr (Option.some.inj hb).symm, hclose (_ :: _)⟩

theorem head_printed (steps : List Step) :
    ∀ b ∈ (steps.flatMap printStep).head?, b = '.' ∨ b = '[' := by
  cases steps with
  | nil =>
      intro b hb
      cases hb
  | cons step steps =>
      rw [List.flatMap_cons, List.head?_append_of_ne_nil _ (printStep_ne_nil step)]
      exact (edges_printStep step).1

theorem permitted_printStep (h : ∀ k, step = .key k → Permitted k.toList) :
    Permitted (printStep step) := by
  cases step with
  | key k =>
      rw [printStep]
      split
      · next hid =>
          obtain ⟨c, rest, hk, hc, -⟩ := isIdentifier_iff.mp hid
          have hpiece : Permitted (['.'] ++ k.toList) := by
            refine permitted_append (permitted_iff.mpr rfl) (h k rfl) ?_
            intro a ha b hb hclash
            rw [hk] at hb
            cases ha
            cases hb
            rcases clash_iff.mp hclash with ⟨-, rfl⟩ | ⟨hno, -⟩ | ⟨hno, -⟩
            · cases hc
            · cases hno
            · cases hno
          exact hpiece
      · have hopen : Permitted ("['".toList ++ k.toList) := by
          refine permitted_append_last (permitted_iff.mpr rfl) (h k rfl) ?_
          intro a ha
          cases ha
          decide
        have hpiece : Permitted ("['".toList ++ k.toList ++ "']".toList) := by
          refine permitted_append hopen (permitted_iff.mpr rfl) ?_
          intro a _ b hb hclash
          cases hb
          rcases clash_iff.mp hclash with ⟨-, hno⟩ | ⟨-, hno⟩ | ⟨-, hno⟩ <;> cases hno
        simpa using hpiece
  | index i =>
      refine permitted_of_chars fun c hc => ?_
      simp only [printStep, List.mem_cons, List.mem_append, List.not_mem_nil, or_false] at hc
      rcases hc with rfl | hc | rfl
      · decide
      · intro hmem
        have hnumeral : (".*?(@|".toList.all fun d => d != '-' && !d.isDigit) = true := by decide
        have hd := List.all_eq_true.mp hnumeral c hmem
        rcases Text.mem_toString hc with rfl | hdigit
        · cases hd
        · simp [hdigit] at hd
      · decide

/-- **No forbidden token arises where two pieces meet.** -/
theorem permitted_printPath {steps : List Step} (h : ∀ k, .key k ∈ steps → Permitted k.toList) :
    Permitted ('$' :: steps.flatMap printStep) := by
  have hsteps : Permitted (steps.flatMap printStep) := by
    induction steps with
    | nil => exact permitted_iff.mpr rfl
    | cons step steps ih =>
        have hrest := ih fun k hk => h k (List.mem_cons_of_mem _ hk)
        have hpiece := permitted_printStep fun k hk => h k (hk ▸ List.mem_cons_self)
        rw [List.flatMap_cons]
        exact permitted_append_last hpiece hrest (edges_printStep step).2
  have hspec : Permitted (['$'] ++ steps.flatMap printStep) := by
    refine permitted_append_last (permitted_iff.mpr rfl) hsteps ?_
    intro a ha
    cases ha
    decide
  exact hspec

end Permitted

theorem printable_iff {steps : List Step} :
    Printable steps ↔ steps.length ≤ maxPathSteps ∧ steps.all printableStep = true := by
  have hkey : ∀ k, printableStep (.key k) = true ↔ ']' ∉ k.toList ∧ Permitted k.toList := by
    intro k
    simp [printableStep, permitted_iff]
  rw [List.all_eq_true]
  constructor
  · rintro ⟨hfew, hclosed, hpermitted⟩
    refine ⟨hfew, fun step hstep => ?_⟩
    cases step with
    | key k => exact (hkey k).mpr ⟨hclosed k hstep, hpermitted k hstep⟩
    | index i => rfl
  · rintro ⟨hfew, hall⟩
    exact ⟨hfew, fun k hk => ((hkey k).mp (hall _ hk)).1, fun k hk => ((hkey k).mp (hall _ hk)).2⟩

/-! ### The compiler on what is printed -/

section Compiled

variable {n fuel : ℕ} {rest : List Char} {step : Step}

/-- An index that `int` takes, or a key. -/
def shortStep : Step → Bool
  | .index i => decide (Text.Short i)
  | .key _ => true

/-- Between brackets there is an index of too many digits. -/
theorem compileSteps_long {inner : List Char} (hclose : ']' ∉ inner)
    (hstep : bracketStep inner = none) (hint : Text.isInteger (Text.strip inner) = true) :
    compileSteps n (fuel + 1) ('[' :: (inner ++ ']' :: rest)) = .error .tooManyDigits := by
  have hmem : ']' ∈ inner ++ ']' :: rest := by simp
  simp only [compileSteps, if_pos hmem, (takeWhile_close hclose rest).1, hstep, hint, if_true]

/-- The text of an integer has no white space, and the index rule takes it. -/
theorem strip_toString (i : ℤ) :
    Text.strip (toString i).toList = (toString i).toList ∧
      Text.isInteger (toString i).toList = true := by
  constructor
  · refine Text.strip_of_not_isSpace fun c hc => ?_
    rcases Text.mem_toString hc with rfl | hdigit
    · rfl
    · exact Text.not_isSpace_of_digit (Text.digit?_of_isDigit hdigit)
  · obtain ⟨hne, hdigits⟩ := Text.repr_isDigits i.natAbs
    rcases Text.toString_cases i with ⟨-, htext⟩ | ⟨-, htext⟩
    · exact htext ▸ Text.isInteger_of_isDigit hne hdigits
    · exact htext ▸ Text.isNatural_of_isDigit hne hdigits

/-- **One step is compiled back**, whatever stands behind it that begins a step. -/
theorem compileSteps_printStep (hclose : ∀ k, step = .key k → ']' ∉ k.toList)
    (hrest : ∀ c t, rest = c :: t → nameRest c = false) :
    compileSteps n (fuel + 1) (printStep step ++ rest) =
      if shortStep step then (compileSteps n fuel rest).map (step :: ·)
      else .error .tooManyDigits := by
  cases step with
  | key k =>
      rw [printStep, shortStep, if_pos rfl]
      split
      · next hid =>
          rw [List.cons_append, compileSteps_name (isIdentifier_iff.mp hid) hrest,
            String.ofList_toList]
      · have hcontent : Content ('\'' :: (k.toList ++ ['\''])) (.key k) := by
          have hread := @Content.quoted '\'' k.toList (.inl rfl)
          rwa [String.ofList_toList] at hread
        have hinner : ']' ∉ '\'' :: (k.toList ++ ['\'']) := by
          simpa using hclose k rfl
        have hstep : bracketStep ('\'' :: (k.toList ++ ['\''])) = some (.key k) :=
          bracketStep_iff.mpr (hcontent.strip_self.symm ▸ hcontent)
        rw [List.cons_append, List.append_assoc, List.singleton_append,
          compileSteps_bracket hinner hstep]
  | index i =>
      obtain ⟨hstrip, hint⟩ := strip_toString i
      have hinner : ']' ∉ (toString i).toList := by
        intro hmem
        rcases Text.mem_toString hmem with hno | hno <;> cases hno
      have hread := Text.integer?_toString i
      rw [printStep, shortStep, List.cons_append, List.append_assoc, List.singleton_append]
      by_cases hshort : Text.Short i
      · have hstep : bracketStep (toString i).toList = some (.index i) :=
          bracketStep_iff.mpr (hstrip.symm ▸ .index (hread.trans (if_pos hshort)))
        rw [compileSteps_bracket hinner hstep, if_pos (decide_eq_true hshort)]
      · -- neither a key nor an index is read, though the text is one of an integer
        have hstep : bracketStep (toString i).toList = none := by
          refine Option.eq_none_iff_forall_ne_some.mpr fun step hstep => ?_
          have hcontent := bracketStep_iff.mp hstep
          rw [hstrip] at hcontent
          rw [if_neg hshort] at hread
          generalize htext : (toString i).toList = text at hcontent hread
          rcases hcontent with hindex | @⟨q, key, hq⟩
          · rw [hread] at hindex
            cases hindex
          · have hmem : q ∈ (toString i).toList := htext ▸ List.mem_cons_self
            rcases hq with rfl | rfl <;>
              rcases Text.mem_toString hmem with hno | hno <;> cases hno
        have hlong : ¬ decide (Text.Short i) = true := by simpa using hshort
        rw [compileSteps_long hinner hstep (hstrip.symm ▸ hint), if_neg hlong]

theorem compileSteps_printed {steps : List Step} (hclose : ∀ k, .key k ∈ steps → ']' ∉ k.toList)
    (hfuel : (steps.flatMap printStep).length ≤ fuel) :
    compileSteps n fuel (steps.flatMap printStep) =
      if steps.all shortStep then .ok steps else .error .tooManyDigits := by
  induction steps generalizing fuel with
  | nil => cases fuel <;> rfl
  | cons step steps ih =>
      have hne := List.length_pos_iff.mpr (printStep_ne_nil step)
      rw [List.flatMap_cons, List.length_append] at hfuel
      obtain _ | fuel := fuel
      · omega
      -- the next step begins with a character that ends a name
      have hrest : ∀ c t, steps.flatMap printStep = c :: t → nameRest c = false := by
        intro c t ht
        have hhead := (head_printed steps) c (by rw [ht]; rfl)
        rcases hhead with rfl | rfl <;> rfl
      rw [List.flatMap_cons, compileSteps_printStep (fun k hk => hclose k (hk ▸ List.mem_cons_self))
        hrest, ih (fun k hk => hclose k (List.mem_cons_of_mem _ hk)) (by omega), List.all_cons]
      cases shortStep step <;> cases steps.all shortStep <;> rfl

/-- **A printed path is compiled back**, but for an index that `int` does not take. -/
theorem compileExpression_printed {steps : List Step} (h : Printable steps) :
    compileExpression (printPath steps) =
      if steps.all shortStep then .ok steps else .error .tooManyDigits := by
  have htext : (printPath steps).toList = '$' :: steps.flatMap printStep := by
    rw [printPath, String.toList_ofList]
  rw [compileExpression_dollar htext (htext ▸ permitted_printPath h.permitted),
    compileSteps_printed h.closed le_rfl]
  split
  · exact if_neg (not_lt.mpr h.few)
  · rfl

theorem all_shortStep {steps : List Step} :
    steps.all shortStep = true ↔ ∀ i, .index i ∈ steps → Text.Short i := by
  rw [List.all_eq_true]
  constructor
  · intro h i hi
    have hi := h _ hi
    rwa [shortStep, decide_eq_true_iff] at hi
  · intro h step hstep
    cases step with
    | key k => rfl
    | index i =>
        rw [shortStep, decide_eq_true_iff]
        exact h i hstep

/-- **A printed path is compiled back** if its indices have at most 4300 digits each.  Else `int`
raises. -/
theorem compileExpression_printPath {steps : List Step} (h : Printable steps) :
    ((∀ i, .index i ∈ steps → Text.Short i) → compileExpression (printPath steps) = .ok steps) ∧
      ((∃ i, .index i ∈ steps ∧ ¬ Text.Short i) →
        compileExpression (printPath steps) = .error .tooManyDigits) := by
  rw [compileExpression_printed h]
  constructor
  · intro hshort
    exact if_pos (all_shortStep.mpr hshort)
  · rintro ⟨i, hi, hlong⟩
    exact if_neg fun hall => hlong (all_shortStep.mp hall i hi)

end Compiled

theorem printable_tooLong : Printable [.index Text.tooLong] :=
  printable_iff.mpr ⟨Nat.le_of_ble_eq_true rfl, rfl⟩

/-- A key with a blank, one with a quote mark, an empty one, and an index from the end. -/
theorem compileExpression_printPath_sample :
    compileExpression "$.data['task id']['it's'][''][-1]" =
        .ok [.key "data", .key "task id", .key "it's", .key "", .index (-1)] ∧
      compileExpression (printPath [.index Text.tooLong]) = .error .tooManyDigits := by
  constructor
  · have hprintable : Printable [.key "data", .key "task id", .key "it's", .key "", .index (-1)] :=
      printable_iff.mpr (by decide)
    refine (compileExpression_printPath hprintable).1 fun i hi => ?_
    have hone : i = -1 := by simpa using hi
    exact hone ▸ Text.short_of_digit (by decide)
  · exact (compileExpression_printPath printable_tooLong).2
      ⟨_, List.mem_singleton_self _, Text.not_short_tooLong⟩

/-- A path with an index that `int` does not take is not given back. -/
theorem compileExpression_not_given_back :
    ¬ ∀ steps, Printable steps → compileExpression (printPath steps) = .ok steps := by
  intro h
  have hlong : ¬ [Step.index Text.tooLong].all shortStep = true := fun hall =>
    Text.not_short_tooLong (all_shortStep.mp hall _ (List.mem_singleton_self _))
  have hback := h _ printable_tooLong
  rw [compileExpression_printed printable_tooLong, if_neg hlong] at hback
  cases hback

end AsyncGateway
