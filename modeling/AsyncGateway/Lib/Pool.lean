import AsyncGateway.Lib.Prog
import Mathlib.Data.Nat.Notation

/-!
# Library — pools of programs

A `Machine` is a world, the bodies of the programs that may run in it, and how the world answers
an operation.  A configuration is a pool: any number of programs under way, each stopped at its
next operation, with the log of what happened so far.  A move starts a program, lets one program
do one operation, or stops one for good: a crash, or an exception that left it.  So a run
interleaves its programs at every operation, starts as many copies of a program as it likes, and
loses any of them at any point.

The state a protocol gives a program is read off the log (`Protocol.after`), and programs that keep
to a protocol keep to it in every pool (`Keeps.run`).  That leaves one rule for what holds of
every run (`Run.invariant`): a relation between world and log that the start, every allowed
operation and every stop preserve.  What a run is assumed to do is a condition on its operations,
carried by `Run`.
-/

namespace Interleave

/-- A world that answers operations, and the programs that may run in it. -/
structure Machine (S : Sig) (ε : Type) where
  Kind : Type
  body : Kind → Prog S ε Unit
  World : Type
  Choice : Type
  respond : World → (o : S.Op) → Choice → Option (Except ε (S.Ans o) × World)

/-- What happened: program `t` started, had an operation answered, or stopped for good. -/
inductive Event (S : Sig) (ε κ : Type) : Type where
  | spawn (t : ℕ) (κ : κ)
  | act (t : ℕ) (o : S.Op) (r : Except ε (S.Ans o))
  | halt (t : ℕ)

/-- The program an event is of. -/
def Event.thread {S : Sig} {ε κ : Type} : Event S ε κ → ℕ
  | .spawn t _ => t
  | .act t _ _ => t
  | .halt t => t

/-- The program stopped for good. -/
def Event.isHalt {S : Sig} {ε κ : Type} : Event S ε κ → Bool
  | .halt _ => true
  | _ => false

variable {S : Sig} {ε : Type}

/-- A log, the newest event first. -/
abbrev Machine.Log (M : Machine S ε) := List (Event S ε M.Kind)

/-- A pool of programs; `next` is the name of the next one. -/
structure Config (M : Machine S ε) where
  world : M.World
  prog : ℕ → Prog S ε Unit
  next : ℕ
  log : M.Log

inductive Move (M : Machine S ε) : Type where
  | spawn (κ : M.Kind)
  | act (t : ℕ) (γ : M.Choice)
  | halt (t : ℕ)

/-- A world with no program in it. -/
def Machine.initial (M : Machine S ε) (w : M.World) : Config M :=
  ⟨w, fun _ => .pure (), 0, []⟩

namespace Config

variable {M : Machine S ε}

/-- One move, if it can be made. -/
def step (c : Config M) : Move M → Option (Config M)
  | .spawn κ => some
      { c with prog := Function.update c.prog c.next (M.body κ), next := c.next + 1,
               log := .spawn c.next κ :: c.log }
  | .act t γ =>
      match c.prog t with
      | .op o k =>
          match M.respond c.world o γ with
          | some (r, w) => some
              { c with world := w, prog := Function.update c.prog t (k r),
                       log := .act t o r :: c.log }
          | none => none
      | _ => none
  | .halt t =>
      match c.prog t with
      | .pure _ => none
      | _ => some
          { c with prog := Function.update c.prog t (.pure ()), log := .halt t :: c.log }

end Config

/-- A condition on the operations of a run: on the world and the log an operation finds, the
program that asks for it, and its answer. -/
abbrev Machine.Condition (M : Machine S ε) :=
  M.World → M.Log → ℕ → (o : S.Op) → Except ε (S.Ans o) → Prop

/-- A condition that can be checked. -/
abbrev Machine.Check (M : Machine S ε) :=
  M.World → M.Log → ℕ → (o : S.Op) → Except ε (S.Ans o) → Bool

namespace Config

variable {M : Machine S ε}

/-- Whether the operation between the two configurations, if there is one, passes the check. -/
def passes (g : M.Check) (c c' : Config M) : Bool :=
  match c'.log with
  | .act t o r :: _ => g c.world c.log t o r
  | _ => true

/-- The moves of a list, one after the other, as long as the operations pass the check. -/
def exec (g : M.Check) (c : Config M) : List (Move M) → Option (Config M)
  | [] => some c
  | m :: ms => (c.step m).bind fun c' => if passes g c c' then c'.exec g ms else none

end Config

/-! ### Runs -/

/-- One move of a pool, every operation within `G`. -/
inductive Step {M : Machine S ε} (G : M.Condition) : Config M → Config M → Prop where
  | spawn (c : Config M) (κ : M.Kind) :
      Step G c
        { c with prog := Function.update c.prog c.next (M.body κ), next := c.next + 1,
                 log := .spawn c.next κ :: c.log }
  | act {c : Config M} {t : ℕ} {o : S.Op} {k : Except ε (S.Ans o) → Prog S ε Unit} {γ : M.Choice}
      {r : Except ε (S.Ans o)} {w : M.World} (hp : c.prog t = .op o k)
      (hw : M.respond c.world o γ = some (r, w)) (hg : G c.world c.log t o r) :
      Step G c
        { c with world := w, prog := Function.update c.prog t (k r), log := .act t o r :: c.log }
  | halt {c : Config M} {t : ℕ} (hp : ∀ a, c.prog t ≠ .pure a) :
      Step G c { c with prog := Function.update c.prog t (.pure ()), log := .halt t :: c.log }

/-- The runs from `c` whose operations are all within `G`. -/
inductive Run {M : Machine S ε} (G : M.Condition) (c : Config M) : Config M → Prop where
  | refl : Run G c c
  | more {c₁ c₂ : Config M} (r : Run G c c₁) (s : Step G c₁ c₂) : Run G c c₂

/-- No condition at all. -/
def Machine.anything (M : Machine S ε) : M.Condition := fun _ _ _ _ _ => True

section Runs

variable {M : Machine S ε} {G G' : M.Condition} {c c' c'' : Config M}

theorem Run.trans (h₁ : Run G c c') (h₂ : Run G c' c'') : Run G c c'' := by
  induction h₂ with
  | refl => exact h₁
  | more _ s ih => exact ih.more s

theorem Step.mono (hG : ∀ w l t o r, G w l t o r → G' w l t o r) (h : Step G c c') :
    Step G' c c' := by
  cases h with
  | spawn κ => exact .spawn _ κ
  | act hp hw hg => exact .act hp hw (hG _ _ _ _ _ hg)
  | halt hp => exact .halt hp

theorem Run.mono (hG : ∀ w l t o r, G w l t o r → G' w l t o r) (h : Run G c c') :
    Run G' c c' := by
  induction h with
  | refl => exact .refl
  | more _ s ih => exact ih.more (s.mono hG)

variable {g : M.Check} (hg : ∀ w l t o r, g w l t o r = true → G w l t o r)
include hg

/-- `step` computes a step. -/
theorem Step.of_step {m : Move M} (h : c.step m = some c') (hp : Config.passes g c c' = true) :
    Step G c c' := by
  cases m with
  | spawn κ =>
      cases h
      exact .spawn c κ
  | act t γ =>
      simp only [Config.step] at h
      split at h
      · rename_i o k ho
        split at h
        · rename_i r w hw
          cases h
          exact .act ho hw (hg _ _ _ _ _ hp)
        · cases h
      · cases h
  | halt t =>
      simp only [Config.step] at h
      split at h
      · cases h
      · rename_i ho
        cases h
        exact .halt ho

/-- `exec` computes a run. -/
theorem Run.of_exec {ms : List (Move M)} (h : c.exec g ms = some c') : Run G c c' := by
  induction ms generalizing c with
  | nil =>
      cases h
      exact .refl
  | cons m ms ih =>
      obtain ⟨c₁, h₁, h₂⟩ := Option.bind_eq_some_iff.mp h
      split at h₂
      · exact (Run.refl.more (Step.of_step hg h₁ ‹_›)).trans (ih h₂)
      · cases h₂

/-- What `exec` comes to is reached by a run. -/
theorem Run.of_any_exec {ms : List (Move M)} {p : Config M → Bool}
    (h : (c.exec g ms).any p = true) : ∃ c', Run G c c' ∧ p c' = true := by
  obtain ⟨c', hc, hp⟩ := (Option.any_eq_true _ _).mp h
  exact ⟨c', Run.of_exec hg hc, hp⟩

end Runs

/-! ### The protocol state of each program -/

section Keeping

variable {M : Machine S ε} (P : Protocol S ε M.Kind)

/-- Where `P` has program `t` after the log. -/
def Protocol.after : M.Log → ℕ → P.State
  | [], _ => P.idle
  | .spawn t κ :: l, u => if u = t then P.start κ else after l u
  | .act t o r :: l, u => if u = t then P.next (after l u) o r else after l u
  | .halt t :: l, u => if u = t then P.gone (after l u) else after l u

/-- Every program of the pool keeps to `P`, and the names from `next` on are unused. -/
structure Keeps (c : Config M) : Prop where
  follows : ∀ t, Follows P (c.prog t) (P.after c.log t)
  unborn : ∀ t, c.next ≤ t → c.prog t = .pure ()
  named : ∀ e ∈ c.log, e.thread < c.next

variable {P}

theorem Protocol.after_of_fresh {l : M.Log} {t : ℕ} (h : ∀ e ∈ l, e.thread ≠ t) :
    P.after l t = P.idle := by
  induction l with
  | nil => rfl
  | cons e l ih =>
      have he := h e List.mem_cons_self
      have hl := ih fun e' h' => h e' (List.mem_cons_of_mem _ h')
      cases e with
      | spawn t' κ => simpa [Protocol.after, Ne.symm (show t' ≠ t from he)] using hl
      | act t' o r => simpa [Protocol.after, Ne.symm (show t' ≠ t from he)] using hl
      | halt t' => simpa [Protocol.after, Ne.symm (show t' ≠ t from he)] using hl

/-- An event is of one program, and leaves the others where they are. -/
theorem Protocol.after_of_ne {l : M.Log} {e : Event S ε M.Kind} {t : ℕ} (h : t ≠ e.thread) :
    P.after (e :: l) t = P.after l t := by
  cases e <;> exact if_neg h

/-- Where an event leaves the program it is of. -/
def Protocol.turn (P : Protocol S ε M.Kind) : Event S ε M.Kind → P.State → P.State
  | .spawn _ κ, _ => P.start κ
  | .act _ o r, s => P.next s o r
  | .halt _, s => P.gone s

theorem Protocol.after_self {l : M.Log} (e : Event S ε M.Kind) :
    P.after (e :: l) e.thread = P.turn e (P.after l e.thread) := by
  cases e <;> exact if_pos rfl

/-- **What holds of every program after an event**: of the one it is of, and still of the others. -/
theorem Protocol.forall_after {Q : ℕ → P.State → Prop} {l : M.Log} {e : Event S ε M.Kind}
    (own : Q e.thread (P.turn e (P.after l e.thread)))
    (others : ∀ t, t ≠ e.thread → Q t (P.after l t)) : ∀ t, Q t (P.after (e :: l) t) := by
  intro t
  by_cases ht : t = e.thread
  · rw [ht, after_self]
    exact own
  · rw [after_of_ne ht]
    exact others t ht

/-- Two protocols read the log each for itself. -/
theorem Protocol.after_both (Q : Protocol S ε M.Kind) (l : M.Log) (t : ℕ) :
    (P.both Q).after l t = (P.after l t, Q.after l t) := by
  induction l with
  | nil => rfl
  | cons e l ih =>
      by_cases h : t = e.thread
      · have pos : ∀ {α : Type} {x y : α}, (if t = e.thread then x else y) = x := if_pos h
        cases e with
        | spawn u κ => exact pos.trans (Prod.ext pos.symm pos.symm)
        | act u o r =>
            exact pos.trans ((congrArg (fun m => (P.both Q).next m o r) ih).trans
              (Prod.ext pos.symm pos.symm))
        | halt u =>
            exact pos.trans ((congrArg (P.both Q).gone ih).trans (Prod.ext pos.symm pos.symm))
      · rw [after_of_ne h, after_of_ne h, after_of_ne h, ih]

theorem Keeps.initial (w : M.World) : Keeps P (M.initial w) :=
  ⟨fun _ => P.done_idle, fun _ _ => rfl, fun _ h => absurd h List.not_mem_nil⟩

variable {G : M.Condition} {c c' : Config M}

/-- A program that has not returned has a name. -/
theorem Keeps.lt_next (h : Keeps P c) {t : ℕ} (ht : ∀ a, c.prog t ≠ .pure a) : t < c.next :=
  Nat.lt_of_not_le fun hle => ht () (h.unborn t hle)

/-- Programs that keep to a protocol keep to it through every move of the pool. -/
theorem Keeps.step (hP : ∀ κ, Follows P (M.body κ) (P.start κ)) (h : Keeps P c)
    (s : Step G c c') : Keeps P c' := by
  cases s with
  | spawn κ =>
      refine ⟨fun u => ?_, fun u hu => ?_, List.forall_mem_cons.mpr ⟨Nat.lt_succ_self _, ?_⟩⟩
      · by_cases hu : u = c.next
        · subst hu
          simpa [Protocol.after] using hP κ
        · simpa [Protocol.after, hu] using h.follows u
      · have hu' : c.next + 1 ≤ u := hu
        simpa [Function.update_of_ne (show u ≠ c.next by omega)] using h.unborn u (by omega)
      · exact fun e he => Nat.lt_succ_of_lt (h.named e he)
  | @act t o k γ r w hp hw hg =>
      have ht := h.follows t
      rw [hp] at ht
      have hlt := h.lt_next (t := t) (by simp [hp])
      refine ⟨fun u => ?_, fun u hu => ?_, List.forall_mem_cons.mpr ⟨hlt, h.named⟩⟩
      · by_cases hu : u = t
        · subst hu
          have hr : Follows P (k r) (P.next (P.after c.log u) o r) := ht.2 r
          simpa [Protocol.after] using hr
        · simpa [Protocol.after, hu] using h.follows u
      · have hu' : c.next ≤ u := hu
        simpa [Function.update_of_ne (show u ≠ t by omega)] using h.unborn u hu'
  | @halt t hp =>
      have hlt := h.lt_next hp
      refine ⟨fun u => ?_, fun u hu => ?_, List.forall_mem_cons.mpr ⟨hlt, h.named⟩⟩
      · by_cases hu : u = t
        · subst hu
          have hg : Follows P (.pure ()) (P.gone (P.after c.log u)) := P.done_gone _
          simpa [Protocol.after] using hg
        · simpa [Protocol.after, hu] using h.follows u
      · have hu' : c.next ≤ u := hu
        simpa [Function.update_of_ne (show u ≠ t by omega)] using h.unborn u hu'

theorem Keeps.run (hP : ∀ κ, Follows P (M.body κ) (P.start κ)) (h : Keeps P c)
    (r : Run G c c') : Keeps P c' := by
  induction r with
  | refl => exact h
  | more _ s ih => exact ih.step hP s

/-- An operation of a program that keeps to `P` is one that `P` allows. -/
theorem Keeps.allows (h : Keeps P c) {t : ℕ} {o : S.Op}
    {k : Except ε (S.Ans o) → Prog S ε Unit} (hp : c.prog t = .op o k) :
    P.allows (P.after c.log t) o := by
  have ht := h.follows t
  rw [hp] at ht
  exact ht.1

/-- A program that returned did so where `P` lets it. -/
theorem Keeps.done (h : Keeps P c) {t : ℕ} (hp : c.prog t = .pure ()) :
    P.done (P.after c.log t) := by
  have ht := h.follows t
  rwa [hp] at ht

/-- **Programs that settle do so in every run.** -/
theorem Run.settles {w : M.World} (hP : ∀ κ, Settles P (M.body κ) (P.start κ))
    (r : Run G (M.initial w) c) (t : ℕ) : Settles P (c.prog t) (P.after c.log t) := by
  induction r generalizing t with
  | refl => exact P.done_idle
  | @more c₁ c₂ r s ih =>
      cases s with
      | spawn κ =>
          by_cases ht : t = c₁.next
          · subst ht
            simpa [Protocol.after] using hP κ
          · simpa [Protocol.after, ht] using ih t
      | @act u o k γ r w hp hw hg =>
          by_cases ht : t = u
          · subst ht
            have hu := ih t
            rw [hp] at hu
            have hr : Settles P (k r) (P.next (P.after c₁.log t) o r) := hu.2 r
            simpa [Protocol.after] using hr
          · simpa [Protocol.after, ht] using ih t
      | @halt u hp =>
          by_cases ht : t = u
          · subst ht
            have hg : Settles P (.pure ()) (P.gone (P.after c₁.log t)) := P.done_gone _
            simpa [Protocol.after] using hg
          · simpa [Protocol.after, ht] using ih t

/-- A program that is where the protocol does not let it end asks for something. -/
theorem Run.asks {w : M.World} (hP : ∀ κ, Settles P (M.body κ) (P.start κ))
    (r : Run G (M.initial w) c) {t : ℕ} (h : ¬ P.done (P.after c.log t)) :
    ∃ o k, c.prog t = .op o k := by
  have ht := r.settles hP t
  cases hp : c.prog t with
  | pure a =>
      rw [hp] at ht
      exact absurd ht h
  | raise x =>
      rw [hp] at ht
      exact absurd ht h
  | op o k => exact ⟨o, k, rfl⟩

/-- **What the start, every allowed operation and every stop preserve holds in every run.** -/
theorem Run.invariant (Inv : M.World → M.Log → Prop)
    (hP : ∀ κ, Follows P (M.body κ) (P.start κ)) (hk : Keeps P c) (h₀ : Inv c.world c.log)
    (spawn : ∀ w l t κ, (∀ e ∈ l, e.thread ≠ t) → Inv w l → Inv w (.spawn t κ :: l))
    (act : ∀ w l t o γ r w', Inv w l → P.allows (P.after l t) o →
      M.respond w o γ = some (r, w') → G w l t o r → Inv w' (.act t o r :: l))
    (halt : ∀ w l t, Inv w l → Inv w (.halt t :: l))
    (r : Run G c c') : Inv c'.world c'.log := by
  induction r with
  | refl => exact h₀
  | @more c₁ c₂ r s ih =>
      have hk₁ := hk.run hP r
      cases s with
      | spawn κ => exact spawn _ _ _ κ (fun e he => Nat.ne_of_lt (hk₁.named e he)) ih
      | act hp hw hg => exact act _ _ _ _ _ _ _ ih (hk₁.allows hp) hw hg
      | halt hp => exact halt _ _ _ ih

/-- **What the start, the operations and the end of a program preserve of its state holds of every
program of every run.** -/
theorem Run.each {Q : P.State → Prop} (hP : ∀ κ, Follows P (M.body κ) (P.start κ))
    (hk : Keeps P c) (h₀ : ∀ t, Q (P.after c.log t)) (spawn : ∀ κ, Q (P.start κ))
    (act : ∀ w l t o r, Q (P.after l t) → G w l t o r → Q (P.next (P.after l t) o r))
    (halt : ∀ s, Q s → Q (P.gone s)) (r : Run G c c') : ∀ t, Q (P.after c'.log t) := by
  refine Run.invariant (fun _ l => ∀ t, Q (P.after l t)) hP hk h₀ ?_ ?_ ?_ r
  · intro w l t κ _ h
    exact Protocol.forall_after (spawn κ) fun u _ => h u
  · intro w l t o γ a w' h _ _ hg
    exact Protocol.forall_after (act w l t o a (h t) hg) fun u _ => h u
  · intro w l t h
    exact Protocol.forall_after (halt _ (h t)) fun u _ => h u

/-- **A run within `G` is within `G'`**, where what holds of every program says so. -/
theorem Run.mono_of_each {G' : M.Condition} {Q : P.State → Prop}
    (hP : ∀ κ, Follows P (M.body κ) (P.start κ)) (hk : Keeps P c) (h₀ : ∀ t, Q (P.after c.log t))
    (spawn : ∀ κ, Q (P.start κ))
    (act : ∀ w l t o r, Q (P.after l t) → P.allows (P.after l t) o → G w l t o r →
      Q (P.next (P.after l t) o r))
    (halt : ∀ s, Q s → Q (P.gone s))
    (hG : ∀ w l t o r, (∀ t, Q (P.after l t)) → P.allows (P.after l t) o → G w l t o r →
      G' w l t o r)
    (r : Run G c c') : Run G' c c' ∧ ∀ t, Q (P.after c'.log t) := by
  induction r with
  | refl => exact ⟨.refl, h₀⟩
  | @more c₁ c₂ r s ih =>
      obtain ⟨run, each⟩ := ih
      have hk₁ := hk.run hP r
      cases s with
      | spawn κ =>
          exact ⟨run.more (.spawn _ κ), Protocol.forall_after (spawn κ) fun u _ => each u⟩
      | @act t o k γ a w' hp hw hg =>
          have ha := hk₁.allows hp
          exact ⟨run.more (.act hp hw (hG _ _ _ _ _ each ha hg)),
            Protocol.forall_after (act _ _ t o a (each t) ha hg) fun u _ => each u⟩
      | @halt t hp =>
          exact ⟨run.more (.halt hp), Protocol.forall_after (halt _ (each t)) fun u _ => each u⟩

end Keeping

/-! ### Runs within a law -/

section Lawful

variable {M : Machine S ε}

/-- What a move may do: the world before it, its event, and the world after it. -/
abbrev Machine.Law (M : Machine S ε) := M.World → Event S ε M.Kind → M.World → Prop

/-- The runs from `c` whose moves are all within the law `R`. -/
inductive Course (R : M.Law) (c : Config M) : Config M → Prop where
  | refl : Course R c c
  | more {c₁ c₂ : Config M} {e : Event S ε M.Kind} (r : Course R c c₁)
      (s : Step M.anything c₁ c₂) (he : c₂.log = e :: c₁.log) (hR : R c₁.world e c₂.world) :
      Course R c c₂

/-- The event of a move. -/
theorem Step.event {G : M.Condition} {c c' : Config M} (s : Step G c c') :
    ∃ e, c'.log = e :: c.log := by
  cases s <;> exact ⟨_, rfl⟩

variable {R : M.Law} {c c' c'' : Config M}

theorem Course.run (h : Course R c c') : Run M.anything c c' := by
  induction h with
  | refl => exact .refl
  | more _ s _ _ ih => exact ih.more s

theorem Course.trans (h₁ : Course R c c') (h₂ : Course R c' c'') : Course R c c'' := by
  induction h₂ with
  | refl => exact h₁
  | more _ s he hR ih => exact ih.more s he hR

/-- The log only grows. -/
theorem Run.log {G : M.Condition} (h : Run G c c') : ∃ new, c'.log = new ++ c.log := by
  induction h with
  | refl => exact ⟨[], rfl⟩
  | more _ s ih =>
      obtain ⟨new, hnew⟩ := ih
      obtain ⟨e, he⟩ := s.event
      exact ⟨e :: new, by rw [he, hnew, List.cons_append]⟩

/-- What is new in the log. -/
theorem Run.log_take {G : M.Condition} (h : Run G c c') :
    c'.log = c'.log.take (c'.log.length - c.log.length) ++ c.log := by
  obtain ⟨new, hnew⟩ := h.log
  rw [hnew, List.length_append, Nat.add_sub_cancel, List.take_left]

/-- **What every allowed operation within the law and every stop preserve, from one configuration
on.** -/
theorem Course.invariant {P : Protocol S ε M.Kind} (Inv : M.World → M.Log → Prop)
    (hP : ∀ κ, Follows P (M.body κ) (P.start κ)) (hk : Keeps P c) (h₀ : Inv c.world c.log)
    (spawn : ∀ w l t κ, (∀ e ∈ l, e.thread ≠ t) → Inv w l → Inv w (.spawn t κ :: l))
    (act : ∀ w l t o γ r w', Inv w l → P.allows (P.after l t) o →
      M.respond w o γ = some (r, w') → R w (.act t o r) w' → Inv w' (.act t o r :: l))
    (halt : ∀ w l t, Inv w l → Inv w (.halt t :: l))
    (h : Course R c c') : Inv c'.world c'.log := by
  induction h with
  | refl => exact h₀
  | @more c₁ c₂ e r s he hR ih =>
      have hk₁ := hk.run hP r.run
      cases s with
      | spawn κ => exact spawn _ _ _ κ (fun e he => Nat.ne_of_lt (hk₁.named e he)) ih
      | act hp hw _ =>
          cases he
          exact act _ _ _ _ _ _ _ ih (hk₁.allows hp) hw hR
      | halt hp => exact halt _ _ _ ih

/-- The moves of a list, one after the other, as long as they are within the law. -/
def Config.course (g : M.World → Event S ε M.Kind → M.World → Bool) (c : Config M) :
    List (Move M) → Option (Config M)
  | [] => some c
  | m :: ms => (c.step m).bind fun c' =>
      if c'.log.head?.all fun e => g c.world e c'.world then c'.course g ms else none

/-- `course` computes a course. -/
theorem Course.of_course {g : M.World → Event S ε M.Kind → M.World → Bool}
    (hg : ∀ w e w', g w e w' = true → R w e w') {ms : List (Move M)}
    (h : c.course g ms = some c') : Course R c c' := by
  induction ms generalizing c with
  | nil =>
      cases h
      exact .refl
  | cons m ms ih =>
      obtain ⟨c₁, h₁, h₂⟩ := Option.bind_eq_some_iff.mp h
      have s : Step M.anything c c₁ :=
        Step.of_step (g := fun _ _ _ _ _ => true) (fun _ _ _ _ _ _ => trivial) h₁
          (by unfold Config.passes; split <;> rfl)
      obtain ⟨e, he⟩ := s.event
      split at h₂
      · rename_i hh
        rw [he] at hh
        exact (Course.refl.more s he (hg _ _ _ hh)).trans (ih h₂)
      · cases h₂

/-- What `course` comes to is reached by a course. -/
theorem Course.of_any_course {g : M.World → Event S ε M.Kind → M.World → Bool}
    (hg : ∀ w e w', g w e w' = true → R w e w') {ms : List (Move M)} {p : Config M → Bool}
    (h : (c.course g ms).any p = true) : ∃ c', Course R c c' ∧ p c' = true := by
  obtain ⟨c', hc, hp⟩ := (Option.any_eq_true _ _).mp h
  exact ⟨c', Course.of_course hg hc, hp⟩

end Lawful

/-! ### What a program may come to -/

section Coming

variable {M : Machine S ε} (P : Protocol S ε M.Kind) {α β : Type}

/-- Some answers of the world lead `p`, from the world `w` and the protocol state `m`, to an end
that satisfies `Q`. -/
def May : Prog S ε α → (Except ε α → M.World → P.State → Prop) → M.World → P.State → Prop
  | .pure a, Q, w, m => Q (.ok a) w m
  | .raise x, Q, w, m => Q (.error x) w m
  | .op o k, Q, w, m =>
      ∃ γ r w', M.respond w o γ = some (r, w') ∧ May (k r) Q w' (P.next m o r)

variable {P} {w : M.World} {m : P.State}

theorem May.perform {o : S.Op} {Q : Except ε (S.Ans o) → M.World → P.State → Prop} {w' : M.World}
    (γ : M.Choice) (r : Except ε (S.Ans o)) (hw : M.respond w o γ = some (r, w'))
    (h : Q r w' (P.next m o r)) : May P (.perform o) Q w m := by
  refine ⟨γ, r, w', hw, ?_⟩
  cases r <;> exact h

theorem May.mono {Q Q' : Except ε α → M.World → P.State → Prop}
    (hQ : ∀ r w m, Q r w m → Q' r w m) :
    ∀ {p : Prog S ε α} {w : M.World} {m : P.State}, May P p Q w m → May P p Q' w m
  | .pure _, _, _, h => hQ _ _ _ h
  | .raise _, _, _, h => hQ _ _ _ h
  | .op _ _, _, _, ⟨γ, r, w', hw, h⟩ => ⟨γ, r, w', hw, May.mono hQ h⟩

theorem May.bind {p : Prog S ε α} {f : α → Prog S ε β}
    {Q : Except ε β → M.World → P.State → Prop}
    (h : May P p (fun r w m => match r with
      | .ok a => May P (f a) Q w m
      | .error x => Q (.error x) w m) w m) : May P (p.bind f) Q w m := by
  induction p generalizing w m with
  | pure a => exact h
  | raise x => exact h
  | op o k ih =>
      obtain ⟨γ, r, w', hw, h⟩ := h
      exact ⟨γ, r, w', hw, ih r h⟩

theorem May.tryCatch {p : Prog S ε α} {g : ε → Prog S ε α}
    {Q : Except ε α → M.World → P.State → Prop}
    (h : May P p (fun r w m => match r with
      | .ok a => Q (.ok a) w m
      | .error x => May P (g x) Q w m) w m) : May P (p.tryCatch g) Q w m := by
  induction p generalizing w m with
  | pure a => exact h
  | raise x => exact h
  | op o k ih =>
      obtain ⟨γ, r, w', hw, h⟩ := h
      exact ⟨γ, r, w', hw, ih r h⟩

/-- What a program may come to, it comes to in a run in which no other program moves. -/
theorem May.run {p : Prog S ε Unit} {Q : Except ε Unit → M.World → P.State → Prop} {c : Config M}
    {t : ℕ} (hp : c.prog t = p) (h : May P p Q c.world (P.after c.log t)) :
    ∃ c' r, Run M.anything c c' ∧ c'.prog t = .ofExcept r ∧ Q r c'.world (P.after c'.log t) ∧
      ∀ u ≠ t, c'.prog u = c.prog u ∧ P.after c'.log u = P.after c.log u := by
  induction p generalizing c with
  | pure a => exact ⟨c, .ok a, .refl, hp, h, fun _ _ => ⟨rfl, rfl⟩⟩
  | raise x => exact ⟨c, .error x, .refl, hp, h, fun _ _ => ⟨rfl, rfl⟩⟩
  | op o k ih =>
      obtain ⟨γ, r, w', hw, h⟩ := h
      have hs := Step.act (G := M.anything) hp hw trivial
      let c₁ : Config M :=
        ⟨w', Function.update c.prog t (k r), c.next, .act t o r :: c.log⟩
      obtain ⟨c', r', run, hr', hQ, hu⟩ := ih r (c := c₁)
        (Function.update_self t (k r) c.prog) (by simpa [c₁, Protocol.after] using h)
      refine ⟨c', r', (Run.refl.more hs).trans run, hr', hQ, fun u hne => ?_⟩
      obtain ⟨h₁, h₂⟩ := hu u hne
      exact ⟨h₁.trans (Function.update_of_ne hne _ _), h₂.trans (Protocol.after_of_ne hne)⟩

/-- Two programs, the first of which runs to its end before the second starts to move. -/
theorem May.run_pair (κ₁ κ₂ : M.Kind) {R : M.World → P.State → P.State → Prop}
    (h : May P (M.body κ₁) (fun _ w' m₁ =>
      May P (M.body κ₂) (fun _ w'' m₂ => R w'' m₁ m₂) w' (P.start κ₂)) w (P.start κ₁)) :
    ∃ c, Run M.anything (M.initial w) c ∧ R c.world (P.after c.log 0) (P.after c.log 1) := by
  let c₀ : Config M :=
    ⟨w, Function.update (Function.update (fun _ => .pure ()) 0 (M.body κ₁)) 1 (M.body κ₂), 2,
      [.spawn 1 κ₂, .spawn 0 κ₁]⟩
  have run₀ : Run M.anything (M.initial w) c₀ :=
    (Run.refl.more (.spawn _ κ₁)).more (.spawn _ κ₂)
  obtain ⟨c₁, _, run₁, -, h₁, hu₁⟩ := May.run (P := P) (c := c₀) (t := 0) rfl h
  obtain ⟨hp, ha⟩ := hu₁ 1 Nat.one_ne_zero
  obtain ⟨c₂, _, run₂, -, h₂, hu₂⟩ := May.run (P := P) (c := c₁) (t := 1) hp (by rw [ha]; exact h₁)
  refine ⟨c₂, (run₀.trans run₁).trans run₂, ?_⟩
  rw [(hu₂ 0 Nat.zero_ne_one).2]
  exact h₂

end Coming

end Interleave
