import AsyncGateway.Lib.Yields
import AsyncGateway.System.Gateway

/-!
# System — a handler alone

A handler that works on the row from its first operation to its end, with no other writer between
(`Alone`).  `G` says what the environment may answer.  A part of a handler that writes nothing
leaves the row as it was (`RowKept`), and where the rest fails so the whole does (`Fails.bind`).
-/

namespace AsyncGateway

open Interleave

/-- The environment of a handler that is alone, as far as `G` says. -/
def answersAs (G : Op → Choice → Prop) : Prog.Answers effects Exn World := fun o w r w' =>
  ∃ γ, G o γ ∧ respond w o γ = some (r, w')

/-- The handler, begun in `w`, ends in `x` and leaves `w'`. -/
abbrev Alone {α : Type} (G : Op → Choice → Prop) (p : Handler α) (w : World) (x : Except Exn α)
    (w' : World) : Prop :=
  p.Yields (answersAs G) w x w'

/-- However it is answered, the handler ends in `Q`. -/
abbrev Ensured {α : Type} (G : Op → Choice → Prop) (p : Handler α) (w : World)
    (Q : Except Exn α → World → Prop) : Prop :=
  p.Ensures (answersAs G) w Q

section Alone

variable {α β : Type} {G : Op → Choice → Prop} {p : Handler α} {f : α → Handler β} {w w' : World}

/-- A script of answers that `G` allows is a run of the handler. -/
theorem exists_alone {γs : List Choice} (check : Except Exn α → World → Bool)
    (h : (Prog.play respond p γs w).any (fun r => check r.1 r.2) = true)
    (hG : ∀ γ ∈ γs, ∀ o w r w', respond w o γ = some (r, w') → G o γ) :
    ∃ x w', Alone G p w x w' ∧ check x w' = true := by
  obtain ⟨⟨x, w'⟩, hplay, hcheck⟩ := (Option.any_eq_true _ _).mp h
  exact ⟨x, w', Prog.yields_of_play hplay fun γ hγ o w r w' hr => ⟨γ, hG γ hγ o w r w' hr, hr⟩,
    hcheck⟩

/-- What the handler leaves, where the script answers it to its end. -/
def World.after (w : World) (p : Handler α) (γs : List Choice) : World :=
  ((Prog.play respond p γs w).map Prod.snd).getD w

theorem alone_after {γs : List Choice} (h : (Prog.play respond p γs w).isSome = true)
    (hG : ∀ γ ∈ γs, ∀ o w r w', respond w o γ = some (r, w') → G o γ) :
    ∃ x, Alone G p w x (w.after p γs) := by
  obtain ⟨⟨x, w'⟩, hplay⟩ := Option.isSome_iff_exists.mp h
  have hafter : w.after p γs = w' := by rw [World.after, hplay]; rfl
  rw [hafter]
  exact ⟨x, Prog.yields_of_play hplay fun γ hγ o w r w' hr => ⟨γ, hG γ hγ o w r w' hr, hr⟩⟩

theorem Ensured.ask {o : Op} {Q : Except Exn o.Ans → World → Prop}
    (h : ∀ γ r w', G o γ → respond w o γ = some (r, w') → Q r w') : Ensured G (ask o) w Q :=
  Prog.Ensures.perform fun r w' ⟨γ, hG, hr⟩ => h γ r w' hG hr

/-- The row is as it was, and a result is as `Φ` says. -/
def RowKept (G : Op → Choice → Prop) (p : Handler α) (w : World) (Φ : α → Prop) : Prop :=
  Ensured G p w fun x w' => w'.row = w.row ∧ ∀ a, x = .ok a → Φ a

/-- The handler raises, and the row is as it was. -/
def Fails (G : Op → Choice → Prop) (p : Handler α) (w : World) : Prop :=
  Ensured G p w fun x w' => w'.row = w.row ∧ ∃ e, x = .error e

namespace RowKept

variable {Φ : α → Prop} {Ψ : β → Prop}

theorem pure {a : α} (h : Φ a) : RowKept G (.pure a) w Φ :=
  Prog.Ensures.pure ⟨rfl, fun _ hx => Except.ok.inj hx ▸ h⟩

theorem raiseIn {r : Except Exn α} (h : ∀ a, r = .ok a → Φ a) : RowKept G (raiseIn r) w Φ :=
  Prog.Ensures.ofExcept ⟨rfl, h⟩

theorem ask {o : Op} {Φ : o.Ans → Prop} (ho : ∀ op also, o ≠ .apply op also)
    (h : ∀ γ a w', G o γ → respond w o γ = some (.ok a, w') → Φ a) : RowKept G (ask o) w Φ := by
  refine Ensured.ask fun γ r w' hG hr => ?_
  refine ⟨reply_row (respond_eq_some hr) ho, ?_⟩
  rintro a rfl
  exact h γ a w' hG hr

theorem bind (hp : RowKept G p w Φ) (hf : ∀ a, Φ a → ∀ w₁ : World, w₁.row = w.row →
    RowKept G (f a) w₁ Ψ) : RowKept G (p.bind f) w Ψ := by
  refine Prog.Ensures.bind hp ?_ ?_
  · rintro a w₁ ⟨hrow, ha⟩
    exact (hf a (ha a rfl) w₁ hrow).mono fun x w' h => ⟨h.1.trans hrow, h.2⟩
  · rintro e w₁ ⟨hrow, -⟩
    exact ⟨hrow, fun _ hx => nomatch hx⟩

/-- The handler reads the row it works on. -/
theorem load : RowKept G loadTask w fun task => task = some w.row := by
  refine RowKept.ask (fun _ _ h => nomatch h) fun γ a w' _ hr => ?_
  rcases reply_load (respond_eq_some hr) with ⟨e, he⟩ | he
  · cases he
  · exact Except.ok.inj he

/-- A reading of the clock is the time of an answer. -/
theorem now : RowKept G now_ w fun t => ∃ γ, G .now γ ∧ t = γ.time := by
  refine RowKept.ask (fun _ _ h => nomatch h) fun γ t w' hG hr => ⟨γ, hG, ?_⟩
  rw [respond_now hr, (respond_clock hr).2]

theorem nowPlus {delay : PyFloat} : RowKept G (nowPlus delay) w fun _ => True :=
  RowKept.bind RowKept.now fun _ _ _ _ => RowKept.raiseIn fun _ _ => trivial

theorem backoff {attempt : ℤ} {base cap : Seconds} :
    RowKept G (backoff attempt base cap) w fun _ => True :=
  RowKept.bind (RowKept.ask (fun _ _ h => nomatch h) fun _ _ _ _ _ => trivial) fun _ _ _ _ =>
    RowKept.raiseIn fun _ _ => trivial

end RowKept

/-- The row is as it was, and there is a result, which is as `Φ` says. -/
def Answered (G : Op → Choice → Prop) (p : Handler α) (w : World) (Φ : α → Prop) : Prop :=
  Ensured G p w fun x w' => w'.row = w.row ∧ ∃ a, x = .ok a ∧ Φ a

/-- Only the environment fails an operation that is no write. -/
theorem reply_ok {o : Op} {γ : Choice} {r : Except Exn o.Ans} {row row' : AsyncTask}
    (h : reply row o γ = some (r, row')) (ho : ∀ op also, o ≠ .apply op also)
    (hfail : ∀ message, γ.reply ≠ .fail message) : ∃ a, r = .ok a := by
  obtain ⟨time, answer⟩ := γ
  cases o with
  | apply op also => exact absurd rfl (ho op also)
  | random =>
      cases answer <;> simp only [reply] at h <;> try cases h
      split at h <;> cases h
      exact ⟨_, rfl⟩
  | _ => cases answer <;> simp only [reply] at h <;> cases h <;>
      first | exact ⟨_, rfl⟩ | exact absurd rfl (hfail _)

theorem Answered.ask {o : Op} {Φ : o.Ans → Prop} (ho : ∀ op also, o ≠ .apply op also)
    (hfail : ∀ γ message, G o γ → γ.reply ≠ .fail message)
    (h : ∀ γ a w', G o γ → respond w o γ = some (.ok a, w') → Φ a) :
    Answered G (ask o) w Φ := by
  refine Ensured.ask fun γ r w' hG hr => ?_
  have hreply := respond_eq_some hr
  obtain ⟨a, rfl⟩ := reply_ok hreply ho fun message => hfail γ message hG
  exact ⟨reply_row hreply ho, a, rfl, h γ a w' hG hr⟩

theorem Answered.bind {Φ : α → Prop} {Q : Except Exn β → World → Prop} (hp : Answered G p w Φ)
    (hf : ∀ a, Φ a → ∀ w₁ : World, w₁.row = w.row → Ensured G (f a) w₁ Q) :
    Ensured G (p.bind f) w Q := by
  refine Prog.Ensures.bind hp ?_ ?_
  · rintro _ w₁ ⟨hrow, a, ha, hΦ⟩
    cases ha
    exact hf _ hΦ w₁ hrow
  · rintro e w₁ ⟨-, a, ha, -⟩
    cases ha

namespace Fails

variable {Φ : α → Prop}

theorem bind (hp : RowKept G p w Φ) (hf : ∀ a, Φ a → ∀ w₁ : World, w₁.row = w.row →
    Fails G (f a) w₁) : Fails G (p.bind f) w := by
  refine Prog.Ensures.bind hp ?_ ?_
  · rintro a w₁ ⟨hrow, ha⟩
    exact (hf a (ha a rfl) w₁ hrow).mono fun x w' h => ⟨h.1.trans hrow, h.2⟩
  · rintro e w₁ ⟨hrow, -⟩
    exact ⟨hrow, e, rfl⟩

/-- Where the first part fails, the second never comes. -/
theorem bind_left (hp : Fails G p w) : Fails G (p.bind f) w := by
  refine Prog.Ensures.bind hp ?_ ?_
  · rintro a w₁ ⟨-, e, he⟩
    cases he
  · rintro e w₁ ⟨hrow, -⟩
    exact ⟨hrow, e, rfl⟩

/-- A write that raises in the DAO. -/
theorem applyOp {op : DaoOp} (h : ∀ now, ∃ e, op.run now w.row = .error e) :
    Fails G (applyOp op) w := by
  unfold Fails AsyncGateway.applyOp
  refine Ensured.ask fun γ r w' _ hr => ?_
  obtain ⟨time, answer⟩ := γ
  have hreply := respond_eq_some hr
  cases answer with
  | done =>
      obtain ⟨e, he⟩ := h time
      simp only [reply, DaoOp.exec, he] at hreply
      obtain ⟨rfl, hrow⟩ := Prod.mk.inj (Option.some.inj hreply)
      exact ⟨hrow.symm, _, rfl⟩
  | fail message =>
      obtain ⟨rfl, hrow⟩ := Prod.mk.inj (Option.some.inj hreply)
      exact ⟨hrow.symm, _, rfl⟩
  | _ => cases hreply

end Fails

end Alone

end AsyncGateway
