import Mathlib.Logic.Function.Basic

/-!
# Library — programs that ask their environment

A handler is a program that computes, and from time to time asks its environment for something:
a row, a write, an answer from the network.  `Prog S ε α` is the type of such programs over a
signature `S` of operations, with exceptions `ε` and result `α`.  An operation is answered by a
value of its answer type or by an exception, so the failure of the environment is an answer like
any other, and `try … except` and `try … finally` are functions on programs.

A *protocol* is what one program may ask for, given what it asked for and was answered so far:
a state, the operations the state allows, and the state after an answer.  `wp P p Q m` says that
`p`, run from the protocol state `m`, asks only for what the protocol allows, whatever the
answers, and ends in a result and a state that satisfy `Q`.  The rules for `wp` follow the
constructors and the combinators of `Prog`.
-/

namespace Interleave

/-- The operations a program may ask for, each with the type of its answer. -/
structure Sig where
  Op : Type
  Ans : Op → Type

/-- A program: a result, an exception, or an operation with what to do on each answer. -/
inductive Prog (S : Sig) (ε α : Type) : Type where
  | pure (a : α)
  | raise (x : ε)
  | op (o : S.Op) (k : Except ε (S.Ans o) → Prog S ε α)

namespace Prog

variable {S : Sig} {ε α β : Type}

def bind : Prog S ε α → (α → Prog S ε β) → Prog S ε β
  | .pure a, f => f a
  | .raise x, _ => .raise x
  | .op o k, f => .op o fun r => (k r).bind f

instance : Monad (Prog S ε) where
  pure := .pure
  bind := bind

/-- Ask for `o`; an exceptional answer is raised. -/
def perform (o : S.Op) : Prog S ε (S.Ans o) :=
  .op o fun
    | .ok a => .pure a
    | .error x => .raise x

/-- `try p except x: h x`. -/
def tryCatch : Prog S ε α → (ε → Prog S ε α) → Prog S ε α
  | .pure a, _ => .pure a
  | .raise x, h => h x
  | .op o k, h => .op o fun r => (k r).tryCatch h

/-- `try p finally q`: `q` runs however `p` ends, and an exception of `q` replaces `p`'s end. -/
def tryFinally : Prog S ε α → Prog S ε Unit → Prog S ε α
  | .pure a, q => q.bind fun _ => .pure a
  | .raise x, q => q.bind fun _ => .raise x
  | .op o k, q => .op o fun r => (k r).tryFinally q

/-- A pure computation that may raise. -/
def ofExcept : Except ε α → Prog S ε α
  | .ok a => .pure a
  | .error x => .raise x

theorem bind_assoc {γ : Type} (p : Prog S ε α) (f : α → Prog S ε β) (g : β → Prog S ε γ) :
    (p.bind f).bind g = p.bind fun a => (f a).bind g := by
  induction p with
  | pure a => rfl
  | raise x => rfl
  | op o k ih =>
      simp only [bind]
      congr
      funext r
      exact ih r

/-- The same program over other operations, whose answers `g` reads. -/
def lift {S' : Sig} (f : S.Op → S'.Op) (g : ∀ o, S'.Ans (f o) → S.Ans o) :
    Prog S ε α → Prog S' ε α
  | .pure a => .pure a
  | .raise x => .raise x
  | .op o k => .op (f o) fun r => (k (r.map (g o))).lift f g

/-- Run a program against a state that answers every operation. -/
def run {σ : Type} (serve : (o : S.Op) → σ → Except ε (S.Ans o) × σ) :
    Prog S ε α → σ → Except ε α × σ
  | .pure a, s => (.ok a, s)
  | .raise x, s => (.error x, s)
  | .op o k, s => (k (serve o s).1).run serve (serve o s).2

theorem run_bind {σ : Type} (serve : (o : S.Op) → σ → Except ε (S.Ans o) × σ) (p : Prog S ε α)
    (f : α → Prog S ε β) (s : σ) :
    (p.bind f).run serve s =
      match p.run serve s with
      | (.ok a, s') => (f a).run serve s'
      | (.error x, s') => (.error x, s') := by
  induction p generalizing s with
  | pure a => rfl
  | raise x => rfl
  | op o k ih => exact ih _ _

@[simp] theorem run_perform {σ : Type} (serve : (o : S.Op) → σ → Except ε (S.Ans o) × σ)
    (o : S.Op) (s : σ) : (perform o : Prog S ε (S.Ans o)).run serve s = serve o s := by
  rw [perform, run]
  cases h : (serve o s).1 with
  | ok a => exact Prod.ext h.symm rfl
  | error x => exact Prod.ext h.symm rfl

/-- A program over operations that leave the state leaves it. -/
theorem run_lift {S' : Sig} {f : S.Op → S'.Op} {g : ∀ o, S'.Ans (f o) → S.Ans o} {σ : Type}
    {serve : (o : S'.Op) → σ → Except ε (S'.Ans o) × σ} (h : ∀ o s, (serve (f o) s).2 = s)
    (p : Prog S ε α) (s : σ) : ((p.lift f g).run serve s).2 = s := by
  induction p generalizing s with
  | pure a => rfl
  | raise x => rfl
  | op o k ih => exact (ih _ _).trans (h o s)

@[simp] theorem pure_eq (a : α) : (Pure.pure a : Prog S ε α) = .pure a := rfl

@[simp] theorem bind_eq (p : Prog S ε α) (f : α → Prog S ε β) : p >>= f = p.bind f := rfl

end Prog

/-! ### What a program may ask for -/

section Asks

variable {S : Sig} {ε α β : Type}

namespace Prog

/-- Some answers lead `p` to ask for `o`. -/
def Asks : Prog S ε α → S.Op → Prop
  | .pure _, _ => False
  | .raise _, _ => False
  | .op o k, o' => o' = o ∨ ∃ r, (k r).Asks o'

/-- The operations of a run, and their answers. -/
def trace {σ : Type} (serve : (o : S.Op) → σ → Except ε (S.Ans o) × σ) :
    Prog S ε α → σ → List (Σ o : S.Op, Except ε (S.Ans o))
  | .pure _, _ => []
  | .raise _, _ => []
  | .op o k, s => ⟨o, (serve o s).1⟩ :: (k (serve o s).1).trace serve (serve o s).2

theorem asks_of_mem_trace {σ : Type} {serve : (o : S.Op) → σ → Except ε (S.Ans o) × σ}
    {p : Prog S ε α} {s : σ} {e : Σ o : S.Op, Except ε (S.Ans o)} (h : e ∈ p.trace serve s) :
    p.Asks e.1 := by
  induction p generalizing s with
  | pure a => exact absurd h List.not_mem_nil
  | raise x => exact absurd h List.not_mem_nil
  | op o k ih =>
      rcases List.mem_cons.mp h with rfl | h
      · exact .inl rfl
      · exact .inr ⟨_, ih _ h⟩

/-- What is heard of a sequence: the first part, and the second where the first has a result. -/
theorem mem_trace_bind {σ : Type} {serve : (o : S.Op) → σ → Except ε (S.Ans o) × σ}
    {p : Prog S ε α} {f : α → Prog S ε β} {s : σ} {e : Σ o : S.Op, Except ε (S.Ans o)} :
    e ∈ (p.bind f).trace serve s ↔
      e ∈ p.trace serve s ∨
        ∃ a s', p.run serve s = (.ok a, s') ∧ e ∈ (f a).trace serve s' := by
  induction p generalizing s with
  | pure a =>
      refine ⟨fun h => .inr ⟨a, s, rfl, h⟩, ?_⟩
      rintro (h | ⟨a', s', heq, h⟩)
      · exact absurd h List.not_mem_nil
      · cases heq
        exact h
  | raise x => simp [bind, trace, run]
  | op o k ih => simp only [bind, trace, run, List.mem_cons, ih, or_assoc]

/-- No answers lead `p` to ask for a bad operation. -/
def Avoids (bad : S.Op → Prop) (p : Prog S ε α) : Prop := ∀ o, p.Asks o → ¬ bad o

theorem asks_perform {o o' : S.Op} : (perform o' : Prog S ε (S.Ans o')).Asks o ↔ o = o' := by
  refine ⟨fun h => h.resolve_right fun ⟨r, hr⟩ => ?_, .inl⟩
  cases r <;> exact hr

theorem asks_perform_bind {o o' : S.Op} {f : S.Ans o → Prog S ε β} (a : S.Ans o)
    (h : (f a).Asks o') : ((perform o).bind f).Asks o' := .inr ⟨.ok a, h⟩

theorem asks_bind {p : Prog S ε α} {f : α → Prog S ε β} {o : S.Op} (h : (p.bind f).Asks o) :
    p.Asks o ∨ ∃ a, (f a).Asks o := by
  induction p with
  | pure a => exact .inr ⟨a, h⟩
  | raise x => exact h.elim
  | op o' k ih =>
      rcases h with rfl | ⟨r, hr⟩
      · exact .inl (.inl rfl)
      · exact (ih r hr).imp_left fun hk => .inr ⟨r, hk⟩

theorem asks_tryCatch {p : Prog S ε α} {h : ε → Prog S ε α} {o : S.Op}
    (ha : (p.tryCatch h).Asks o) : p.Asks o ∨ ∃ x, (h x).Asks o := by
  induction p with
  | pure a => exact ha.elim
  | raise x => exact .inr ⟨x, ha⟩
  | op o' k ih =>
      rcases ha with rfl | ⟨r, hr⟩
      · exact .inl (.inl rfl)
      · exact (ih r hr).imp_left fun hk => .inr ⟨r, hk⟩

theorem asks_tryFinally {p : Prog S ε α} {q : Prog S ε Unit} {o : S.Op}
    (ha : (p.tryFinally q).Asks o) : p.Asks o ∨ q.Asks o := by
  induction p with
  | pure a => exact .inr ((asks_bind ha).resolve_right fun ⟨_, h⟩ => h)
  | raise x => exact .inr ((asks_bind ha).resolve_right fun ⟨_, h⟩ => h)
  | op o' k ih =>
      rcases ha with rfl | ⟨r, hr⟩
      · exact .inl (.inl rfl)
      · exact (ih r hr).imp_left fun hk => .inr ⟨r, hk⟩

theorem asks_lift {S' : Sig} {f : S.Op → S'.Op} {g : ∀ o, S'.Ans (f o) → S.Ans o}
    {p : Prog S ε α} {o' : S'.Op} (h : (p.lift f g).Asks o') : ∃ o, p.Asks o ∧ o' = f o := by
  induction p with
  | pure a => exact h.elim
  | raise x => exact h.elim
  | op o k ih =>
      rcases h with rfl | ⟨r, hr⟩
      · exact ⟨o, .inl rfl, rfl⟩
      · obtain ⟨o₁, ho₁, he⟩ := ih _ hr
        exact ⟨o₁, .inr ⟨_, ho₁⟩, he⟩

namespace Avoids

variable {bad : S.Op → Prop}

theorem pure (a : α) : Avoids bad (.pure a : Prog S ε α) := fun _ h => h.elim

theorem raise (x : ε) : Avoids bad (.raise x : Prog S ε α) := fun _ h => h.elim

theorem perform {o : S.Op} (ho : ¬ bad o) : Avoids bad (.perform o : Prog S ε (S.Ans o)) :=
  fun _ h => asks_perform.mp h ▸ ho

theorem bind {p : Prog S ε α} {f : α → Prog S ε β} (hp : Avoids bad p)
    (hf : ∀ a, Avoids bad (f a)) : Avoids bad (p.bind f) := fun o h =>
  (asks_bind h).elim (hp o) fun ⟨a, ha⟩ => hf a o ha

theorem tryCatch {p : Prog S ε α} {h : ε → Prog S ε α} (hp : Avoids bad p)
    (hh : ∀ x, Avoids bad (h x)) : Avoids bad (p.tryCatch h) := fun o ha =>
  (asks_tryCatch ha).elim (hp o) fun ⟨x, hx⟩ => hh x o hx

theorem tryFinally {p : Prog S ε α} {q : Prog S ε Unit} (hp : Avoids bad p)
    (hq : Avoids bad q) : Avoids bad (p.tryFinally q) := fun o ha =>
  (asks_tryFinally ha).elim (hp o) (hq o)

/-- A program over other operations, of which none becomes a bad one. -/
theorem lift {T : Sig} {f : T.Op → S.Op} {g : ∀ o, S.Ans (f o) → T.Ans o} {p : Prog T ε α}
    (h : p.Avoids fun o => bad (f o)) : Avoids bad (p.lift f g) := by
  intro o' ho hbad
  obtain ⟨o, hp, rfl⟩ := asks_lift ho
  exact h o hp hbad

theorem ofExcept (r : Except ε α) : Avoids bad (.ofExcept r : Prog S ε α) := by
  cases r with
  | ok a => exact .pure a
  | error x => exact .raise x

theorem bind_ofExcept {r : Except ε α} {f : α → Prog S ε β}
    (hf : ∀ a, r = .ok a → Avoids bad (f a)) : Avoids bad ((Prog.ofExcept r).bind f) := by
  cases r with
  | ok a => exact hf a rfl
  | error x => exact .raise x

theorem ite_of {c : Prop} [Decidable c] {p q : Prog S ε α} (hp : c → Avoids bad p)
    (hq : ¬ c → Avoids bad q) : Avoids bad (if c then p else q) := by
  split
  · next h => exact hp h
  · next h => exact hq h

theorem ite {c : Prop} [Decidable c] {p q : Prog S ε α} (hp : Avoids bad p)
    (hq : Avoids bad q) : Avoids bad (if c then p else q) :=
  ite_of (fun _ => hp) fun _ => hq

end Avoids

end Prog

end Asks

/-! ### Protocols -/

/-- What one program may ask for: the operations a state allows, the state after an answer, the
states a program may return in, the state a program of kind `κ` starts in, and the state of one
that is gone. -/
structure Protocol (S : Sig) (ε κ : Type) where
  State : Type
  start : κ → State
  idle : State
  gone : State → State
  allows : State → S.Op → Prop
  next : State → (o : S.Op) → Except ε (S.Ans o) → State
  done : State → Prop
  done_idle : done idle
  done_gone : ∀ m, done (gone m)

section WP

variable {S : Sig} {ε κ α β : Type} (P : Protocol S ε κ)

/-- `p`, from the protocol state `m`, asks only for what `P` allows and ends in `Q`. -/
def wp : Prog S ε α → (Except ε α → P.State → Prop) → P.State → Prop
  | .pure a, Q, m => Q (.ok a) m
  | .raise x, Q, m => Q (.error x) m
  | .op o k, Q, m => P.allows m o ∧ ∀ r, wp (k r) Q (P.next m o r)

/-- `p` keeps to `P` from `m` on, and a value it returns satisfies `Φ`. -/
def Leads (p : Prog S ε α) (m : P.State) (Φ : α → P.State → Prop) : Prop :=
  wp P p (fun r m' => match r with
    | .ok a => Φ a m'
    | .error _ => True) m

/-- `p` keeps to `P` from `m` on, and returns only where `P` lets it. -/
def Follows (p : Prog S ε α) (m : P.State) : Prop := Leads P p m fun _ m' => P.done m'

/-- `p` keeps to `P` from `m` on, and ends, with a value or an exception, only where `P` lets it. -/
def Settles (p : Prog S ε α) (m : P.State) : Prop := wp P p (fun _ m' => P.done m') m

/-- `p` keeps to `P` from `m` on, and stays in `m` whatever becomes of it. -/
def Steady (p : Prog S ε α) (m : P.State) : Prop := wp P p (fun _ m' => m' = m) m

variable {P}

@[simp] theorem wp_pure {a : α} {Q : Except ε α → P.State → Prop} {m : P.State} :
    wp P (.pure a) Q m ↔ Q (.ok a) m := Iff.rfl

@[simp] theorem wp_raise {x : ε} {Q : Except ε α → P.State → Prop} {m : P.State} :
    wp P (.raise x) Q m ↔ Q (.error x) m := Iff.rfl

theorem wp_op {o : S.Op} {k : Except ε (S.Ans o) → Prog S ε α}
    {Q : Except ε α → P.State → Prop} {m : P.State} :
    wp P (.op o k) Q m ↔ P.allows m o ∧ ∀ r, wp P (k r) Q (P.next m o r) := Iff.rfl

/-- The rule of consequence. -/
theorem wp_mono {Q Q' : Except ε α → P.State → Prop} (h : ∀ r m, Q r m → Q' r m) :
    ∀ {p : Prog S ε α} {m : P.State}, wp P p Q m → wp P p Q' m
  | .pure _, _, hp => h _ _ hp
  | .raise _, _, hp => h _ _ hp
  | .op _ _, _, hp => ⟨hp.1, fun r => wp_mono h (hp.2 r)⟩

theorem Settles.follows {p : Prog S ε α} {m : P.State} (h : Settles P p m) : Follows P p m :=
  wp_mono (fun r m' hr => by
    cases r with
    | ok a => exact hr
    | error x => trivial) h

/-- A sequence: what follows runs on the first program's value, and not at all on its
exception. -/
@[simp] theorem wp_bind {p : Prog S ε α} {f : α → Prog S ε β} {Q : Except ε β → P.State → Prop}
    {m : P.State} :
    wp P (p.bind f) Q m ↔
      wp P p (fun r m' => match r with
        | .ok a => wp P (f a) Q m'
        | .error x => Q (.error x) m') m := by
  induction p generalizing m with
  | pure a => rfl
  | raise x => rfl
  | op o k ih => simp only [Prog.bind, wp_op, ih]

@[simp] theorem wp_perform {o : S.Op} {Q : Except ε (S.Ans o) → P.State → Prop} {m : P.State} :
    wp P (.perform o) Q m ↔ P.allows m o ∧ ∀ r, Q r (P.next m o r) := by
  refine and_congr_right fun _ => forall_congr' fun r => ?_
  cases r <;> rfl

@[simp] theorem wp_tryCatch {p : Prog S ε α} {h : ε → Prog S ε α}
    {Q : Except ε α → P.State → Prop} {m : P.State} :
    wp P (p.tryCatch h) Q m ↔
      wp P p (fun r m' => match r with
        | .ok a => Q (.ok a) m'
        | .error x => wp P (h x) Q m') m := by
  induction p generalizing m with
  | pure a => rfl
  | raise x => rfl
  | op o k ih => simp only [Prog.tryCatch, wp_op, ih]

@[simp] theorem wp_tryFinally {p : Prog S ε α} {q : Prog S ε Unit}
    {Q : Except ε α → P.State → Prop} {m : P.State} :
    wp P (p.tryFinally q) Q m ↔
      wp P p (fun r m' => wp P q (fun s m'' => match s with
        | .ok _ => Q r m''
        | .error y => Q (.error y) m'') m') m := by
  induction p generalizing m with
  | pure a =>
      simp only [Prog.tryFinally, wp_bind, wp_pure]
      exact Iff.of_eq (congrArg (wp P q · m) (funext fun s => by cases s <;> rfl))
  | raise x =>
      simp only [Prog.tryFinally, wp_bind, wp_raise]
      exact Iff.of_eq (congrArg (wp P q · m) (funext fun s => by cases s <;> rfl))
  | op o k ih => simp only [Prog.tryFinally, wp_op, ih]

@[simp] theorem wp_ofExcept {r : Except ε α} {Q : Except ε α → P.State → Prop} {m : P.State} :
    wp P (.ofExcept r) Q m ↔ Q r m := by
  cases r <;> rfl

@[simp] theorem wp_ite {c : Prop} [Decidable c] {p q : Prog S ε α}
    {Q : Except ε α → P.State → Prop} {m : P.State} :
    wp P (if c then p else q) Q m ↔ (c → wp P p Q m) ∧ (¬ c → wp P q Q m) := by
  split <;> simp [*]

/-! ### Programs that stay where they are -/

namespace Steady

variable {m : P.State}

theorem wp {p : Prog S ε α} (h : Steady P p m) {Q : Except ε α → P.State → Prop}
    (hQ : ∀ r, Q r m) : wp P p Q m :=
  wp_mono (fun r _ he => he ▸ hQ r) h

theorem pure (a : α) : Steady P (.pure a : Prog S ε α) m := rfl

theorem raise (x : ε) : Steady P (.raise x : Prog S ε α) m := rfl

theorem bind {p : Prog S ε α} {f : α → Prog S ε β} (hp : Steady P p m)
    (hf : ∀ a, Steady P (f a) m) : Steady P (p.bind f) m :=
  wp_bind.mpr <| hp.wp fun r => by
    cases r with
    | ok a => exact hf a
    | error x => rfl

theorem perform {o : S.Op} (ha : P.allows m o) (hn : ∀ r, P.next m o r = m) :
    Steady P (.perform o) m :=
  wp_perform.mpr ⟨ha, hn⟩

theorem tryCatch {p : Prog S ε α} {h : ε → Prog S ε α} (hp : Steady P p m)
    (hh : ∀ x, Steady P (h x) m) : Steady P (p.tryCatch h) m :=
  wp_tryCatch.mpr <| hp.wp fun r => by
    cases r with
    | ok a => rfl
    | error x => exact hh x

theorem tryFinally {p : Prog S ε α} {q : Prog S ε Unit} (hp : Steady P p m)
    (hq : Steady P q m) : Steady P (p.tryFinally q) m :=
  wp_tryFinally.mpr <| hp.wp fun _ => hq.wp fun s => by cases s <;> rfl

theorem ofExcept (r : Except ε α) : Steady P (.ofExcept r) m := wp_ofExcept.mpr rfl

theorem bind_ofExcept {r : Except ε α} {f : α → Prog S ε β}
    (hf : ∀ a, r = .ok a → Steady P (f a) m) : Steady P ((Prog.ofExcept r).bind f) m := by
  cases r with
  | ok a => exact hf a rfl
  | error x => exact .raise x

theorem ite {c : Prop} [Decidable c] {p q : Prog S ε α} (hp : c → Steady P p m)
    (hq : ¬ c → Steady P q m) : Steady P (if c then p else q) m :=
  wp_ite.mpr ⟨hp, hq⟩

/-- A program over other operations, all of which the state allows and which leave it. -/
theorem lift {T : Sig} {f : T.Op → S.Op} {g : ∀ o, S.Ans (f o) → T.Ans o} (p : Prog T ε α)
    (ha : ∀ o, P.allows m (f o)) (hn : ∀ o r, P.next m (f o) r = m) :
    Steady P (p.lift f g) m := by
  induction p with
  | pure a => exact .pure a
  | raise x => exact .raise x
  | op o k ih =>
      refine wp_op.mpr ⟨ha o, fun r => ?_⟩
      rw [hn]
      exact ih _

end Steady

/-! ### Programs that lead somewhere -/

namespace Leads

variable {m : P.State} {Φ Ψ : α → P.State → Prop}

theorem pure {a : α} (h : Φ a m) : Leads P (.pure a : Prog S ε α) m Φ := h

theorem raise (x : ε) : Leads P (.raise x : Prog S ε α) m Φ := trivial

theorem bind {p : Prog S ε α} {f : α → Prog S ε β} {Φ : β → P.State → Prop}
    (h : Leads P p m fun a m' => Leads P (f a) m' Φ) : Leads P (p.bind f) m Φ :=
  wp_bind.mpr <| wp_mono (fun r _ hr => by cases r <;> exact hr) h

theorem perform {o : S.Op} {Φ : S.Ans o → P.State → Prop} (ha : P.allows m o)
    (hn : ∀ a, Φ a (P.next m o (.ok a))) : Leads P (.perform o) m Φ :=
  wp_perform.mpr ⟨ha, fun r => by
    cases r with
    | ok a => exact hn a
    | error x => trivial⟩

theorem ofExcept {r : Except ε α} (h : ∀ a, r = .ok a → Φ a m) : Leads P (.ofExcept r) m Φ :=
  wp_ofExcept.mpr <| by
    cases r with
    | ok a => exact h a rfl
    | error x => trivial

theorem ite {c : Prop} [Decidable c] {p q : Prog S ε α} (hp : c → Leads P p m Φ)
    (hq : ¬ c → Leads P q m Φ) : Leads P (if c then p else q) m Φ :=
  wp_ite.mpr ⟨hp, hq⟩

theorem mono {p : Prog S ε α} (h : Leads P p m Φ) (hΦ : ∀ a m', Φ a m' → Ψ a m') :
    Leads P p m Ψ :=
  wp_mono (fun r m' hr => by
    cases r with
    | ok a => exact hΦ a m' hr
    | error x => trivial) h

theorem of_steady {p : Prog S ε α} (hp : Steady P p m) (h : ∀ a, Φ a m) : Leads P p m Φ :=
  hp.wp fun r => by
    cases r with
    | ok a => exact h a
    | error x => trivial

theorem bind_ofExcept {r : Except ε α} {f : α → Prog S ε β} {Φ : β → P.State → Prop}
    (hf : ∀ a, r = .ok a → Leads P (f a) m Φ) : Leads P ((Prog.ofExcept r).bind f) m Φ :=
  .bind (.ofExcept hf)

theorem bind_steady {p : Prog S ε α} {f : α → Prog S ε β} {Φ : β → P.State → Prop}
    (hp : Steady P p m) (hf : ∀ a, Leads P (f a) m Φ) : Leads P (p.bind f) m Φ :=
  .bind (.of_steady hp hf)

/-- A handled exception leaves where the body had come to. -/
theorem tryCatch {p : Prog S ε α} {h : ε → Prog S ε α} {I : P.State → Prop}
    (hp : wp P p (fun r m' => match r with
      | .ok a => Φ a m'
      | .error _ => I m') m)
    (hh : ∀ x m', I m' → Leads P (h x) m' Φ) : Leads P (p.tryCatch h) m Φ :=
  wp_tryCatch.mpr <| wp_mono (fun r m' hr => by
    cases r with
    | ok a => exact hr
    | error x => exact hh x m' hr) hp

theorem tryFinally {p : Prog S ε α} {q : Prog S ε Unit} (hq : ∀ m', Steady P q m')
    (hp : Leads P p m Φ) : Leads P (p.tryFinally q) m Φ :=
  wp_tryFinally.mpr <| wp_mono (fun r m' hr => (hq m').wp fun s => by
    cases s with
    | ok _ => exact hr
    | error y => trivial) hp

end Leads

/-! ### Programs that keep a property -/

/-- `p` keeps to `P`, and keeps `I` wherever it is and whatever becomes of it. -/
def Preserves (P : Protocol S ε κ) (I : P.State → Prop) (p : Prog S ε α) : Prop :=
  ∀ m, I m → wp P p (fun _ m' => I m') m

namespace Preserves

variable {I : P.State → Prop}

theorem pure (a : α) : Preserves P I (.pure a : Prog S ε α) := fun _ h => h

theorem raise (x : ε) : Preserves P I (.raise x : Prog S ε α) := fun _ h => h

theorem perform {o : S.Op} (ha : ∀ m, I m → P.allows m o) (hn : ∀ m r, I m → I (P.next m o r)) :
    Preserves P I (.perform o) := fun m h =>
  wp_perform.mpr ⟨ha m h, fun r => hn m r h⟩

/-- A sequence, the second program on a value of which something is known. -/
theorem bind_value {p : Prog S ε α} {f : α → Prog S ε β} {Φ : α → Prop}
    (hp : ∀ m, I m → wp P p (fun r m' => I m' ∧ ∀ a, r = .ok a → Φ a) m)
    (hf : ∀ a, Φ a → Preserves P I (f a)) : Preserves P I (p.bind f) := fun m h =>
  wp_bind.mpr <| wp_mono (fun r m' hr => by
    cases r with
    | ok a => exact hf a (hr.2 a rfl) m' hr.1
    | error x => exact hr.1) (hp m h)

theorem bind {p : Prog S ε α} {f : α → Prog S ε β} (hp : Preserves P I p)
    (hf : ∀ a, Preserves P I (f a)) : Preserves P I (p.bind f) :=
  .bind_value (Φ := fun _ => True) (fun m h => wp_mono (fun _ _ hr => ⟨hr, by simp⟩) (hp m h))
    fun a _ => hf a

theorem tryCatch {p : Prog S ε α} {h : ε → Prog S ε α} (hp : Preserves P I p)
    (hh : ∀ x, Preserves P I (h x)) : Preserves P I (p.tryCatch h) := fun m hm =>
  wp_tryCatch.mpr <| wp_mono (fun r m' hr => by
    cases r with
    | ok a => exact hr
    | error x => exact hh x m' hr) (hp m hm)

theorem tryFinally {p : Prog S ε α} {q : Prog S ε Unit} (hp : Preserves P I p)
    (hq : Preserves P I q) : Preserves P I (p.tryFinally q) := fun m hm =>
  wp_tryFinally.mpr <| wp_mono (fun _ m' hr =>
    wp_mono (fun s _ hs => by cases s <;> exact hs) (hq m' hr)) (hp m hm)

theorem ofExcept (r : Except ε α) : Preserves P I (.ofExcept r) := fun _ h => wp_ofExcept.mpr h

theorem bind_ofExcept {r : Except ε α} {f : α → Prog S ε β}
    (hf : ∀ a, r = .ok a → Preserves P I (f a)) : Preserves P I ((Prog.ofExcept r).bind f) := by
  cases r with
  | ok a => exact hf a rfl
  | error x => exact .raise x

theorem ite {c : Prop} [Decidable c] {p q : Prog S ε α} (hp : c → Preserves P I p)
    (hq : ¬ c → Preserves P I q) : Preserves P I (if c then p else q) := fun m h =>
  wp_ite.mpr ⟨fun hc => hp hc m h, fun hc => hq hc m h⟩

theorem follows {p : Prog S ε Unit} {m : P.State} (hp : Preserves P I p) (hm : I m)
    (hd : ∀ m', I m' → P.done m') : Follows P p m :=
  wp_mono (fun r m' hr => by
    cases r with
    | ok _ => exact hd m' hr
    | error _ => trivial) (hp m hm)

end Preserves

/-! ### Two protocols at once -/

/-- What both protocols allow. -/
def Protocol.both (P Q : Protocol S ε κ) : Protocol S ε κ where
  State := P.State × Q.State
  start k := (P.start k, Q.start k)
  idle := (P.idle, Q.idle)
  gone m := (P.gone m.1, Q.gone m.2)
  allows m o := P.allows m.1 o ∧ Q.allows m.2 o
  next m o r := (P.next m.1 o r, Q.next m.2 o r)
  done m := P.done m.1 ∧ Q.done m.2
  done_idle := ⟨P.done_idle, Q.done_idle⟩
  done_gone m := ⟨P.done_gone m.1, Q.done_gone m.2⟩

/-- A program that keeps to two protocols keeps to both at once. -/
theorem Follows.both {P Q : Protocol S ε κ} {p : Prog S ε α} {m₁ : P.State} {m₂ : Q.State}
    (h₁ : Follows P p m₁) (h₂ : Follows Q p m₂) : Follows (P.both Q) p (m₁, m₂) := by
  induction p generalizing m₁ m₂ with
  | pure a => exact ⟨h₁, h₂⟩
  | raise x => trivial
  | op o k ih => exact ⟨⟨h₁.1, h₂.1⟩, fun r => ih r (h₁.2 r) (h₂.2 r)⟩

end WP

end Interleave
