import AsyncGateway.Lib.Prog

/-!
# Library — a program run to its end

A program alone, from its first operation to its end: `Prog.Yields answers p s x s'` says that `p`,
begun in the state `s` with every operation answered as `answers` allows, ends in the result or
the exception `x` and in the state `s'`.  Inversion follows the combinators (`yields_bind`), and
what no operation of the program breaks holds at its end (`Yields.keeps`).  `Ensures` says what
holds of every end, and its rules follow the combinators as well.  `Prog.play` runs a program on a
list of answers.
-/

namespace Interleave

namespace Prog

variable {S : Sig} {ε α β σ κ : Type}

/-- Which answers an operation may have in a state, and the state after it. -/
abbrev Answers (S : Sig) (ε σ : Type) := (o : S.Op) → σ → Except ε (S.Ans o) → σ → Prop

inductive Yields (answers : Answers S ε σ) : Prog S ε α → σ → Except ε α → σ → Prop where
  | pure (a : α) (s : σ) : Yields answers (.pure a) s (.ok a) s
  | raise (e : ε) (s : σ) : Yields answers (.raise e) s (.error e) s
  | op {o : S.Op} {k : Except ε (S.Ans o) → Prog S ε α} {s s₁ s' : σ} {r : Except ε (S.Ans o)}
      {x : Except ε α} (ha : answers o s r s₁) (hk : Yields answers (k r) s₁ x s') :
      Yields answers (.op o k) s x s'

variable {answers : Answers S ε σ} {s s' : σ}

@[simp] theorem yields_pure {a : α} {x : Except ε α} :
    Yields answers (.pure a) s x s' ↔ x = .ok a ∧ s' = s := by
  constructor
  · rintro ⟨⟩
    exact ⟨rfl, rfl⟩
  · rintro ⟨rfl, rfl⟩
    exact .pure a _

@[simp] theorem yields_raise {e : ε} {x : Except ε α} :
    Yields answers (.raise e) s x s' ↔ x = .error e ∧ s' = s := by
  constructor
  · rintro ⟨⟩
    exact ⟨rfl, rfl⟩
  · rintro ⟨rfl, rfl⟩
    exact .raise e _

theorem yields_op {o : S.Op} {k : Except ε (S.Ans o) → Prog S ε α} {x : Except ε α} :
    Yields answers (.op o k) s x s' ↔ ∃ r s₁, answers o s r s₁ ∧ Yields answers (k r) s₁ x s' := by
  constructor
  · rintro ⟨⟩
    exact ⟨_, _, ‹_›, ‹_›⟩
  · rintro ⟨r, s₁, ha, hk⟩
    exact .op ha hk

/-- A sequence ends where its second part does, or its first part raised. -/
theorem yields_bind {p : Prog S ε α} {f : α → Prog S ε β} {x : Except ε β} :
    Yields answers (p.bind f) s x s' ↔
      (∃ a s₁, Yields answers p s (.ok a) s₁ ∧ Yields answers (f a) s₁ x s') ∨
        ∃ e, Yields answers p s (.error e) s' ∧ x = .error e := by
  induction p generalizing s with
  | pure a => simp [Prog.bind, and_assoc]
  | raise e => simp [Prog.bind, and_assoc, and_comm]
  | op o k ih =>
      simp only [Prog.bind, yields_op, ih]
      constructor
      · rintro ⟨r, s₁, ha, ⟨a, s₂, hk, hf⟩ | ⟨e, hk, hx⟩⟩
        · exact .inl ⟨a, s₂, ⟨r, s₁, ha, hk⟩, hf⟩
        · exact .inr ⟨e, ⟨r, s₁, ha, hk⟩, hx⟩
      · rintro (⟨a, s₂, ⟨r, s₁, ha, hk⟩, hf⟩ | ⟨e, ⟨r, s₁, ha, hk⟩, hx⟩)
        · exact ⟨r, s₁, ha, .inl ⟨a, s₂, hk, hf⟩⟩
        · exact ⟨r, s₁, ha, .inr ⟨e, hk, hx⟩⟩

theorem yields_perform {o : S.Op} {x : Except ε (S.Ans o)} :
    Yields answers (.perform o) s x s' ↔ answers o s x s' := by
  rw [perform, yields_op]
  constructor
  · rintro ⟨r, s₁, ha, hk⟩
    cases r with
    | ok a =>
        obtain ⟨rfl, rfl⟩ := yields_pure.mp hk
        exact ha
    | error e =>
        obtain ⟨rfl, rfl⟩ := yields_raise.mp hk
        exact ha
  · intro ha
    refine ⟨x, s', ha, ?_⟩
    cases x with
    | ok a => exact .pure a s'
    | error e => exact .raise e s'

theorem yields_ofExcept {r : Except ε α} {x : Except ε α} :
    Yields answers (.ofExcept r) s x s' ↔ x = r ∧ s' = s := by
  cases r with
  | ok a => exact yields_pure
  | error e => exact yields_raise

/-- What no operation of the program breaks holds at its end. -/
theorem Yields.keeps {p : Prog S ε α} {x : Except ε α} {bad : S.Op → Prop} {I : σ → Prop}
    (h : Yields answers p s x s') (hp : p.Avoids bad)
    (hI : ∀ o s r s', ¬ bad o → answers o s r s' → I s → I s') (hs : I s) : I s' := by
  induction h with
  | pure a s => exact hs
  | raise e s => exact hs
  | op ha hk ih =>
      exact ih (fun o ho => hp o (.inr ⟨_, ho⟩)) (hI _ _ _ _ (hp _ (.inl rfl)) ha hs)

/-- However its operations are answered, the program ends in `Q`. -/
def Ensures (answers : Answers S ε σ) (p : Prog S ε α) (s : σ) (Q : Except ε α → σ → Prop) :
    Prop :=
  ∀ x s', Yields answers p s x s' → Q x s'

namespace Ensures

variable {p : Prog S ε α} {f : α → Prog S ε β} {Q R : Except ε α → σ → Prop}

theorem pure {a : α} (h : Q (.ok a) s) : Ensures answers (.pure a) s Q := by
  intro x s' hy
  obtain ⟨rfl, rfl⟩ := yields_pure.mp hy
  exact h

theorem raise {e : ε} (h : Q (.error e) s) : Ensures answers (.raise e) s Q := by
  intro x s' hy
  obtain ⟨rfl, rfl⟩ := yields_raise.mp hy
  exact h

theorem perform {o : S.Op} {Q : Except ε (S.Ans o) → σ → Prop}
    (h : ∀ r s', answers o s r s' → Q r s') : Ensures answers (.perform o) s Q :=
  fun r s' hy => h r s' (yields_perform.mp hy)

theorem ofExcept {r : Except ε α} (h : Q r s) : Ensures answers (.ofExcept r) s Q := by
  intro x s' hy
  obtain ⟨rfl, rfl⟩ := yields_ofExcept.mp hy
  exact h

theorem mono (h : Ensures answers p s R) (hQ : ∀ x s', R x s' → Q x s') :
    Ensures answers p s Q := fun x s' hy => hQ x s' (h x s' hy)

theorem bind {Q : Except ε β → σ → Prop} (hp : Ensures answers p s R)
    (hok : ∀ a s₁, R (.ok a) s₁ → Ensures answers (f a) s₁ Q)
    (herror : ∀ e s₁, R (.error e) s₁ → Q (.error e) s₁) :
    Ensures answers (p.bind f) s Q := by
  intro x s' hy
  rcases yields_bind.mp hy with ⟨a, s₁, hy₁, hy₂⟩ | ⟨e, hy₁, rfl⟩
  · exact hok a s₁ (hp _ _ hy₁) x s' hy₂
  · exact herror e s' (hp _ _ hy₁)

theorem ite {c : Prop} [Decidable c] {q : Prog S ε α} (hp : Ensures answers p s Q)
    (hq : Ensures answers q s Q) : Ensures answers (if c then p else q) s Q := by
  split
  · exact hp
  · exact hq

end Ensures

/-- The program with its operations answered in turn, if the answers are as many as they. -/
def play (respond : σ → (o : S.Op) → κ → Option (Except ε (S.Ans o) × σ)) :
    Prog S ε α → List κ → σ → Option (Except ε α × σ)
  | .pure a, [], s => some (.ok a, s)
  | .raise e, [], s => some (.error e, s)
  | .op o k, γ :: γs, s => (respond s o γ).bind fun p => (k p.1).play respond γs p.2
  | _, _, _ => none

theorem yields_of_play {respond : σ → (o : S.Op) → κ → Option (Except ε (S.Ans o) × σ)}
    {p : Prog S ε α} {γs : List κ} {x : Except ε α} (h : p.play respond γs s = some (x, s'))
    (hall : ∀ γ ∈ γs, ∀ o s r s', respond s o γ = some (r, s') → answers o s r s') :
    Yields answers p s x s' := by
  induction p generalizing γs s with
  | pure a =>
      cases γs with
      | nil =>
          cases h
          exact .pure a _
      | cons γ γs => cases h
  | raise e =>
      cases γs with
      | nil =>
          cases h
          exact .raise e _
      | cons γ γs => cases h
  | op o k ih =>
      cases γs with
      | nil => cases h
      | cons γ γs =>
          obtain ⟨⟨r, s₁⟩, hr, hk⟩ := Option.bind_eq_some_iff.mp h
          exact .op (hall γ (by simp) o s r s₁ hr)
            (ih r hk fun γ' hγ' => hall γ' (List.mem_cons_of_mem γ hγ'))

end Prog

end Interleave
