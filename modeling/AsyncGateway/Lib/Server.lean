import Mathlib.Data.List.Forall2
import Mathlib.Logic.Function.Basic
import Mathlib.Data.Nat.Notation

/-!
# Library — servers

A *server* answers a call out of its state and leaves a new one: `Server ι ω σ`.  Two servers with
different states simulate each other when a relation of their states gives equal answers and is kept
(`Simulates`); then they answer every sequence of calls alike.  Where that is so only as long as the
first one's answers are of a kind, it is so of every sequence it answers in that way
(`SimulatesWhile.answers`).  What one call keeps, every sequence keeps (`Server.after_invariant`).

Where the calls come from parties with states of their own, the whole is a step function that may
refuse a step, and its runs are `Steps`, every step within a condition.
-/

namespace Interleave

variable {ι ω σ τ : Type}

/-- What answers calls: the answer, and the state after it. -/
abbrev Server (ι ω σ : Type) := ι → StateM σ ω

/-- The state after a sequence of calls. -/
def Server.after (serve : Server ι ω σ) (calls : List ι) (s : σ) : σ :=
  calls.foldl (fun s call => (serve call s).2) s

theorem Server.after_invariant {serve : Server ι ω σ} {I : σ → Prop}
    (h : ∀ call s, I s → I (serve call s).2) (calls : List ι) {s : σ} (hs : I s) :
    I (serve.after calls s) := by
  induction calls generalizing s with
  | nil => exact hs
  | cons call calls ih => exact ih (h call s hs)

/-- Related states give one answer, and related states. -/
def Simulates (R : σ → τ → Prop) (serve : Server ι ω σ) (serve' : Server ι ω τ) : Prop :=
  ∀ call s t, R s t → (serve call s).1 = (serve' call t).1 ∧ R (serve call s).2 (serve' call t).2

theorem Simulates.after {R : σ → τ → Prop} {serve : Server ι ω σ} {serve' : Server ι ω τ}
    (h : Simulates R serve serve') (calls : List ι) {s : σ} {t : τ} (hst : R s t) :
    R (serve.after calls s) (serve'.after calls t) := by
  induction calls generalizing s t with
  | nil => exact hst
  | cons call calls ih => exact ih (h call s t hst).2

/-- Two servers that simulate a third simulate each other. -/
theorem Simulates.meet {υ : Type} {R : σ → υ → Prop} {R' : τ → υ → Prop} {serve : Server ι ω σ}
    {serve' : Server ι ω τ} {spec : Server ι ω υ} (h : Simulates R serve spec)
    (h' : Simulates R' serve' spec) : Simulates (fun s t => ∃ u, R s u ∧ R' t u) serve serve' := by
  rintro call s t ⟨u, hs, ht⟩
  obtain ⟨ha, hr⟩ := h call s u hs
  obtain ⟨ha', hr'⟩ := h' call t u ht
  exact ⟨ha.trans ha'.symm, _, hr, hr'⟩

/-- The answers to a sequence of calls. -/
def Server.answers (serve : Server ι ω σ) : List ι → σ → List ω
  | [], _ => []
  | call :: calls, s => (serve call s).1 :: Server.answers serve calls (serve call s).2

/-- To a call within `G`, related states give related answers, and related states, where the first
answer is fine. -/
def SimulatesWhile {ω' : Type} (G : ι → Prop) (R : σ → τ → Prop) (Q : ω → ω' → Prop)
    (ok : ω → Prop) (serve : Server ι ω σ) (serve' : Server ι ω' τ) : Prop :=
  ∀ call s t, G call → R s t → ok (serve call s).1 →
    Q (serve call s).1 (serve' call t).1 ∧ R (serve call s).2 (serve' call t).2

/-- **As long as the first server's answers are fine, the second one's go with them.** -/
theorem SimulatesWhile.answers {ω' : Type} {G : ι → Prop} {R : σ → τ → Prop} {Q : ω → ω' → Prop}
    {ok : ω → Prop} {serve : Server ι ω σ} {serve' : Server ι ω' τ}
    (h : SimulatesWhile G R Q ok serve serve') {calls : List ι} (hG : ∀ call ∈ calls, G call)
    {s : σ} {t : τ} (hst : R s t) (hok : ∀ a ∈ serve.answers calls s, ok a) :
    List.Forall₂ Q (serve.answers calls s) (serve'.answers calls t) := by
  induction calls generalizing s t with
  | nil => exact .nil
  | cons call calls ih =>
      obtain ⟨hcall, hcalls⟩ := List.forall_mem_cons.mp hG
      obtain ⟨hfirst, hrest⟩ := List.forall_mem_cons.mp hok
      obtain ⟨hq, hr⟩ := h call s t hcall hst hfirst
      exact .cons hq (ih hcalls hr hrest)

/-! ### Steps -/

section Steps

variable {α : Type}

/-- The states that `step` comes to from `s`, every step within `G`. -/
inductive Steps (step : σ → α → Option σ) (G : σ → α → Prop) (s : σ) : σ → Prop where
  | refl : Steps step G s s
  | more {s₁ s₂ : σ} {a : α} (r : Steps step G s s₁) (g : G s₁ a) (h : step s₁ a = some s₂) :
      Steps step G s s₂

variable {step : σ → α → Option σ} {G : σ → α → Prop} {s s₁ s₂ : σ}

theorem Steps.trans (h₁ : Steps step G s s₁) (h₂ : Steps step G s₁ s₂) : Steps step G s s₂ := by
  induction h₂ with
  | refl => exact h₁
  | more _ g h ih => exact ih.more g h

theorem Steps.invariant {I : σ → Prop}
    (hI : ∀ s a s', I s → G s a → step s a = some s' → I s') (h : Steps step G s s₁) (hs : I s) :
    I s₁ := by
  induction h with
  | refl => exact hs
  | more _ g h ih => exact hI _ _ _ ih g h

/-- What a list of steps comes to, as long as each is within the condition. -/
def exec (step : σ → α → Option σ) (G : σ → α → Prop) [∀ s a, Decidable (G s a)] (s : σ)
    (acts : List α) : Option σ :=
  acts.foldlM (fun s a => if G s a then step s a else none) s

/-- `exec` computes a run. -/
theorem Steps.of_exec [∀ s a, Decidable (G s a)] {acts : List α}
    (h : exec step G s acts = some s₁) : Steps step G s s₁ := by
  induction acts generalizing s with
  | nil =>
      cases h
      exact .refl
  | cons a acts ih =>
      obtain ⟨s', h₁, h₂⟩ := Option.bind_eq_some_iff.mp h
      simp only at h₁
      split at h₁
      · exact (Steps.refl.more ‹_› h₁).trans (ih h₂)
      · cases h₁

theorem Steps.of_any (step : σ → α → Option σ) (G : σ → α → Prop) [∀ s a, Decidable (G s a)]
    (s : σ) (acts : List α) (p : σ → Bool)
    (h : (exec step G s acts).any p = true) : ∃ s₁, Steps step G s s₁ ∧ p s₁ = true := by
  obtain ⟨s₁, hs, hp⟩ := (Option.any_eq_true _ _).mp h
  exact ⟨s₁, .of_exec hs, hp⟩

end Steps

end Interleave
