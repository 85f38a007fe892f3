import AsyncGateway.Lib.Pool
import Mathlib.Algebra.BigOperators.Group.Finset.Basic
import Mathlib.Algebra.Order.BigOperators.Group.Finset
import Mathlib.Algebra.Order.Group.Nat

/-!
# Library — what the programs of a pool gain and spend

An event of a pool may give its program something, and may cost it something; what the program has
left is read off its protocol state.  Where no event of a program costs more than it has and is
given, the whole pool spends no more than it is given (`Run.total_le`), whatever the programs do in
between and however many are lost with what they had.  What an event costs may depend on the log
before it; where it does not, what was spent is a tally too (`Run.tally_le`).
-/

namespace Interleave

variable {S : Sig} {ε : Type} {M : Machine S ε}

/-- The sum of `f` over the log. -/
def Machine.tally (M : Machine S ε) (f : Event S ε M.Kind → ℕ) (l : M.Log) : ℕ :=
  l.foldr (fun e n => f e + n) 0

@[simp] theorem Machine.tally_nil {f : Event S ε M.Kind → ℕ} : M.tally f [] = 0 := rfl

@[simp] theorem Machine.tally_cons {f : Event S ε M.Kind → ℕ} {e : Event S ε M.Kind} {l : M.Log} :
    M.tally f (e :: l) = f e + M.tally f l := rfl

/-- The sum over the log of what every event costs after the events before it. -/
def Machine.total (M : Machine S ε) (f : M.Log → Event S ε M.Kind → ℕ) : M.Log → ℕ
  | [] => 0
  | e :: l => f l e + M.total f l

theorem Machine.total_const {f : Event S ε M.Kind → ℕ} (l : M.Log) :
    M.total (fun _ => f) l = M.tally f l := by
  induction l with
  | nil => rfl
  | cons e l ih => rw [Machine.total, ih, Machine.tally_cons]

/-- What changes in a sum when one summand does. -/
theorem sum_range_change {f g : ℕ → ℕ} {n t : ℕ} (ht : t < n) (h : ∀ u ≠ t, g u = f u) :
    ∑ u ∈ Finset.range n, g u + f t = ∑ u ∈ Finset.range n, f u + g t := by
  have hm := Finset.mem_range.mpr ht
  have hf := Finset.add_sum_erase (Finset.range n) f hm
  have hg := Finset.add_sum_erase (Finset.range n) g hm
  have hrest : ∑ u ∈ (Finset.range n).erase t, g u = ∑ u ∈ (Finset.range n).erase t, f u :=
    Finset.sum_congr rfl fun u hu => h u (Finset.ne_of_mem_erase hu)
  omega

variable {P : Protocol S ε M.Kind} {μ : P.State → ℕ} {gain : Event S ε M.Kind → ℕ}
  {spend : M.Log → Event S ε M.Kind → ℕ}

/-- What was spent and what the programs have left is no more than what was given. -/
def Solvent (P : Protocol S ε M.Kind) (μ : P.State → ℕ) (gain : Event S ε M.Kind → ℕ)
    (spend : M.Log → Event S ε M.Kind → ℕ) (l : M.Log) : Prop :=
  ∀ n, M.total spend l + ∑ u ∈ Finset.range n, μ (P.after l u) ≤ M.tally gain l

theorem Solvent.cons {l : M.Log} {e : Event S ε M.Kind} (h : Solvent P μ gain spend l)
    (he : spend l e + μ (P.after (e :: l) e.thread) ≤ μ (P.after l e.thread) + gain e) :
    Solvent P μ gain spend (e :: l) := by
  intro n
  have hle : ∑ u ∈ Finset.range n, μ (P.after (e :: l) u) ≤
      ∑ u ∈ Finset.range (n + e.thread + 1), μ (P.after (e :: l) u) :=
    Finset.sum_le_sum_of_subset (Finset.range_mono (by omega))
  have hchange := sum_range_change (f := fun u => μ (P.after l u))
    (g := fun u => μ (P.after (e :: l) u)) (n := n + e.thread + 1) (t := e.thread) (by omega)
    fun u hu => congrArg μ (Protocol.after_of_ne hu)
  have hl := h (n + e.thread + 1)
  simp only [Machine.total, Machine.tally_cons] at hchange ⊢
  omega

/-- **A pool spends no more than it is given.** -/
theorem Run.total_le {G : M.Condition} {c : Config M} {w : M.World}
    (hP : ∀ κ, Follows P (M.body κ) (P.start κ)) (hidle : μ P.idle = 0)
    (spawn : ∀ l t κ, spend l (.spawn t κ) + μ (P.start κ) ≤ gain (.spawn t κ))
    (act : ∀ l t o r, P.allows (P.after l t) o → spend l (.act t o r) +
      μ (P.next (P.after l t) o r) ≤ μ (P.after l t) + gain (.act t o r))
    (halt : ∀ l t, spend l (.halt t) + μ (P.gone (P.after l t)) ≤ μ (P.after l t) + gain (.halt t))
    (h : Run G (M.initial w) c) : M.total spend c.log ≤ M.tally gain c.log := by
  have hs : Solvent P μ gain spend c.log := by
    refine Run.invariant (P := P) (fun _ l => Solvent P μ gain spend l) hP (Keeps.initial _) ?_
      ?_ ?_ ?_ h
    · intro n
      simp [Machine.initial, Machine.total, Protocol.after, hidle]
    · intro _ l t κ ht hl
      refine hl.cons ?_
      have hidle' : P.after l t = P.idle := Protocol.after_of_fresh ht
      simpa [Event.thread, Protocol.after, hidle', hidle] using spawn l t κ
    · intro _ l t o γ r w' hl ha _ _
      refine hl.cons ?_
      simpa [Event.thread, Protocol.after] using act l t o r ha
    · intro _ l t hl
      refine hl.cons ?_
      simpa [Event.thread, Protocol.after] using halt l t
  simpa using hs 0

/-- The same where what an event costs does not depend on the events before it. -/
theorem Run.tally_le {spend : Event S ε M.Kind → ℕ} {G : M.Condition} {c : Config M} {w : M.World}
    (hP : ∀ κ, Follows P (M.body κ) (P.start κ)) (hidle : μ P.idle = 0)
    (spawn : ∀ t κ, spend (.spawn t κ) + μ (P.start κ) ≤ gain (.spawn t κ))
    (act : ∀ m t o r, P.allows m o →
      spend (.act t o r) + μ (P.next m o r) ≤ μ m + gain (.act t o r))
    (halt : ∀ m t, spend (.halt t) + μ (P.gone m) ≤ μ m + gain (.halt t))
    (h : Run G (M.initial w) c) : M.tally spend c.log ≤ M.tally gain c.log := by
  rw [← Machine.total_const c.log]
  exact Run.total_le hP hidle (fun _ => spawn)
    (fun l t => act (P.after l t) t) (fun l t => halt (P.after l t) t) h

end Interleave
