import AsyncGateway.Lib.Server
import Mathlib.Data.List.Induction

/-!
# Library — values that expire

A store of values each of which is gone after some time.  What a key shows depends on what was done
to it: the value that was put last, how long that lasts, and how old it is (`Kept`).  A store that
tracks what was done to a key (`Tracks`) goes on to, through every operation on this key or another,
and shows the value that was put last as long as it lasts (`Tracks.after`, `Tracks.get`,
`read_kept_iff`).
-/

namespace Expiring

variable {κ ν : Type}

/-- The values by their keys, each with the time from which on it is gone. -/
structure Store (κ ν : Type) where
  now : ℕ := 0
  cells : κ → Option (ν × ℕ) := fun _ => none

namespace Store

/-- The value of a key, while it is there. -/
def get (s : Store κ ν) (k : κ) : Option ν :=
  ((s.cells k).filter fun cell => s.now < cell.2).map Prod.fst

/-- Time goes on. -/
def wait (s : Store κ ν) (d : ℕ) : Store κ ν := { s with now := s.now + d }

variable [DecidableEq κ]

/-- A value that lasts for `ttl`. -/
def set (s : Store κ ν) (k : κ) (v : ν) (ttl : ℕ) : Store κ ν :=
  { s with cells := Function.update s.cells k (some (v, s.now + ttl)) }

def delete (s : Store κ ν) (k : κ) : Store κ ν :=
  { s with cells := Function.update s.cells k none }

end Store

/-- A value that was put, for how long, and how long ago. -/
structure Kept (ν : Type) where
  value : ν
  ttl : ℕ
  age : ℕ := 0

namespace Kept

/-- The value, while it lasts. -/
def read (c : Kept ν) : Option ν := if c.age < c.ttl then some c.value else none

def wait (c : Kept ν) (d : ℕ) : Kept ν := { c with age := c.age + d }

end Kept

/-- What an operation does to one key. -/
inductive Touch (α : Type) : Type where
  | put (a : α) (ttl : ℕ)
  | drop
  | wait (d : ℕ)

/-- The value is put or dropped. -/
def Touch.settles {α : Type} : Touch α → Bool
  | .wait _ => false
  | _ => true

/-- What is kept after an operation. -/
def keep {α : Type} : Touch α → Option (Kept α) → Option (Kept α)
  | .put a ttl, _ => some ⟨a, ttl, 0⟩
  | .drop, _ => none
  | .wait d, c => c.map fun c => c.wait d

@[simp] theorem keep_put {α : Type} (a : α) (ttl : ℕ) (c : Option (Kept α)) :
    keep (.put a ttl) c = some ⟨a, ttl, 0⟩ := rfl

@[simp] theorem keep_drop {α : Type} (c : Option (Kept α)) : keep .drop c = none := rfl

@[simp] theorem keep_wait_zero {α : Type} (c : Option (Kept α)) : keep (.wait 0) c = c := by
  cases c <;> rfl

/-- What is kept after a sequence of operations. -/
def kept {α : Type} (touches : List (Touch α)) : Option (Kept α) :=
  touches.foldl (fun c t => keep t c) none

/-- The time that goes by. -/
def elapsed {α : Type} : List (Touch α) → ℕ
  | [] => 0
  | .wait d :: touches => d + elapsed touches
  | _ :: touches => elapsed touches

theorem elapsed_append {α : Type} (ts us : List (Touch α)) :
    elapsed (ts ++ us) = elapsed ts + elapsed us := by
  induction ts with
  | nil => exact (Nat.zero_add _).symm
  | cons t ts ih => cases t <;> simp [elapsed, ih, Nat.add_assoc]

/-- The value was put last, some time ago. -/
def PutLast {α : Type} (touches : List (Touch α)) (a : α) (ttl age : ℕ) : Prop :=
  ∃ before after, touches = before ++ .put a ttl :: after ∧ (∀ t ∈ after, t.settles = false) ∧
    elapsed after = age

theorem putLast_concat {α : Type} {touches : List (Touch α)} {t : Touch α} {a : α} {ttl age : ℕ} :
    PutLast (touches ++ [t]) a ttl age ↔ t = .put a ttl ∧ age = 0 ∨
      t.settles = false ∧ ∃ age', PutLast touches a ttl age' ∧ age' + elapsed [t] = age := by
  constructor
  · rintro ⟨before, after, heq, hafter, hage⟩
    rcases List.eq_nil_or_concat after with rfl | ⟨after, u, rfl⟩
    · obtain ⟨-, ht⟩ := List.append_inj' heq rfl
      exact .inl ⟨List.singleton_inj.mp ht, hage.symm⟩
    · rw [List.concat_eq_append] at heq hafter hage
      rw [← List.cons_append, ← List.append_assoc] at heq
      obtain ⟨htouches, ht⟩ := List.append_inj' heq rfl
      obtain rfl := List.singleton_inj.mp ht
      rw [List.forall_mem_append] at hafter
      rw [elapsed_append] at hage
      exact .inr ⟨hafter.2 t (List.mem_singleton_self t), _,
        ⟨before, after, htouches, hafter.1, rfl⟩, hage⟩
  · rintro (⟨rfl, rfl⟩ | ⟨ht, _, ⟨before, after, rfl, hafter, rfl⟩, hage⟩)
    · exact ⟨touches, [], rfl, fun _ h => absurd h List.not_mem_nil, rfl⟩
    · refine ⟨before, after ++ [t], ?_, ?_, by rw [elapsed_append, hage]⟩
      · rw [List.append_assoc, List.cons_append]
      · exact List.forall_mem_append.mpr ⟨hafter, List.forall_mem_singleton.mpr ht⟩

/-- **What is kept was put last**, and the time since is its age. -/
theorem kept_eq_some_iff {α : Type} {touches : List (Touch α)} {a : α} {ttl age : ℕ} :
    kept touches = some ⟨a, ttl, age⟩ ↔ PutLast touches a ttl age := by
  induction touches using List.reverseRecOn generalizing age with
  | nil => simp [kept, PutLast]
  | append_singleton touches t ih =>
      have hkept : kept (touches ++ [t]) = keep t (kept touches) := by simp [kept]
      rw [hkept, putLast_concat]
      simp only [← ih]
      cases t with
      | put a' ttl' =>
          simp only [keep, Option.some.injEq, Kept.mk.injEq, Touch.put.injEq, Touch.settles,
            Bool.true_eq_false, false_and, or_false, and_assoc]
          rw [eq_comm (a := (0 : ℕ))]
      | drop => simp [keep, Touch.settles]
      | wait d =>
          cases kept touches with
          | none => simp [keep]
          | some c =>
              obtain ⟨value, ttl', age'⟩ := c
              simp [keep, Kept.wait, Touch.settles, elapsed, and_assoc]

/-- **A value is shown that was put last, and not too long ago.** -/
theorem read_kept_iff {α : Type} {touches : List (Touch α)} {a : α} :
    (kept touches).bind Kept.read = some a ↔ ∃ before ttl after,
      touches = before ++ .put a ttl :: after ∧ (∀ t ∈ after, t.settles = false) ∧
        elapsed after < ttl := by
  constructor
  · intro h
    obtain ⟨⟨value, ttl, age⟩, hkept, hread⟩ := Option.bind_eq_some_iff.mp h
    simp only [Kept.read, Option.ite_none_right_eq_some, Option.some.injEq] at hread
    obtain ⟨hage, rfl⟩ := hread
    obtain ⟨before, after, htouches, hafter, rfl⟩ := kept_eq_some_iff.mp hkept
    exact ⟨before, ttl, after, htouches, hafter, hage⟩
  · rintro ⟨before, ttl, after, htouches, hafter, hage⟩
    rw [kept_eq_some_iff.mpr ⟨before, after, htouches, hafter, rfl⟩, Option.bind_some, Kept.read,
      if_pos hage]

/-- The same for calls, each of which does something to the key. -/
theorem read_kept_map_iff {ι α : Type} {touch : ι → Touch α} {calls : List ι} {a : α} :
    (kept (calls.map touch)).bind Kept.read = some a ↔ ∃ before call ttl after,
      calls = before ++ call :: after ∧ touch call = .put a ttl ∧
        (∀ c ∈ after, (touch c).settles = false) ∧ elapsed (after.map touch) < ttl := by
  rw [read_kept_iff]
  constructor
  · rintro ⟨before, ttl, after, heq, hafter, hage⟩
    obtain ⟨before, rest, rfl, rfl, hrest⟩ := List.map_eq_append_iff.mp heq
    obtain ⟨call, after, rfl, hcall, rfl⟩ := List.map_eq_cons_iff.mp hrest
    exact ⟨before, call, ttl, after, rfl, hcall,
      fun c hc => hafter _ (List.mem_map_of_mem hc), hage⟩
  · rintro ⟨before, call, ttl, after, rfl, hcall, hafter, hage⟩
    refine ⟨before.map touch, ttl, after.map touch, by simp [hcall], fun t ht => ?_, hage⟩
    obtain ⟨c, hc, rfl⟩ := List.mem_map.mp ht
    exact hafter c hc

/-- The cell of the key is what is kept, its value written by `write`. -/
def Tracks {α : Type} (write : α → ν) (s : Store κ ν) (k : κ) : Option (Kept α) → Prop
  | none => s.cells k = none
  | some c => ∃ last, s.cells k = some (write c.value, last) ∧ last + c.age = s.now + c.ttl

namespace Tracks

variable {α : Type} {write : α → ν} {s : Store κ ν} {k k' : κ} {c : Option (Kept α)}

theorem empty (write : α → ν) (k : κ) : Tracks write ({} : Store κ ν) k none := rfl

/-- What a key shows is what was put last, while it lasts. -/
theorem get (h : Tracks write s k c) : s.get k = (c.bind Kept.read).map write := by
  cases c with
  | none =>
      have hcell : s.cells k = none := h
      rw [Store.get, hcell]
      rfl
  | some c =>
      obtain ⟨last, hcell, hlast⟩ := h
      rw [Store.get, hcell, Option.filter_some, Option.bind_some, Kept.read]
      by_cases hage : c.age < c.ttl
      · rw [if_pos (decide_eq_true (by omega)), if_pos hage]
        rfl
      · rw [if_neg (by simp only [decide_eq_true_eq]; omega), if_neg hage]
        rfl

theorem wait (h : Tracks write s k c) (d : ℕ) :
    Tracks write (s.wait d) k (c.map fun c => c.wait d) := by
  cases c with
  | none => exact h
  | some c =>
      obtain ⟨last, hcell, hlast⟩ := h
      refine ⟨last, hcell, ?_⟩
      simp only [Kept.wait, Store.wait]
      omega

/-- A cell that stays as it is. -/
theorem of_cell {s' : Store κ ν} (h : Tracks write s k c) (hcell : s'.cells k = s.cells k)
    (hnow : s'.now = s.now) : Tracks write s' k c := by
  cases c with
  | none => exact hcell.trans h
  | some c =>
      obtain ⟨last, hsome, hlast⟩ := h
      exact ⟨last, hcell.trans hsome, by rw [hnow, hlast]⟩

variable [DecidableEq κ]

theorem set_self (write : α → ν) (s : Store κ ν) (k : κ) (a : α) (ttl : ℕ) :
    Tracks write (s.set k (write a) ttl) k (some ⟨a, ttl, 0⟩) :=
  ⟨s.now + ttl, Function.update_self _ _ _, rfl⟩

theorem delete_self (write : α → ν) (s : Store κ ν) (k : κ) : Tracks write (s.delete k) k none :=
  Function.update_self _ _ _

theorem set_of_ne (h : Tracks write s k c) (hne : k ≠ k') (v : ν) (ttl : ℕ) :
    Tracks write (s.set k' v ttl) k c :=
  h.of_cell (Function.update_of_ne hne _ _) rfl

theorem delete_of_ne (h : Tracks write s k c) (hne : k ≠ k') : Tracks write (s.delete k') k c :=
  h.of_cell (Function.update_of_ne hne _ _) rfl

omit [DecidableEq κ] in
/-- **A server whose calls are operations on the key tracks what they do to it.** -/
theorem after {ι ω : Type} {serve : Interleave.Server ι ω (Store κ ν)} {touch : ι → Touch α}
    {G : ι → Prop} (hstep : ∀ call s c, G call → Tracks write s k c →
      Tracks write (serve call s).2 k (keep (touch call) c)) {calls : List ι}
    (hG : ∀ call ∈ calls, G call) :
    Tracks write (serve.after calls {}) k (kept (calls.map touch)) := by
  induction calls using List.reverseRecOn with
  | nil => exact .empty write k
  | append_singleton calls call ih =>
      obtain ⟨hcalls, hcall⟩ := List.forall_mem_append.mp hG
      have hkept : kept ((calls ++ [call]).map touch) =
          keep (touch call) (kept (calls.map touch)) := by simp [kept]
      have hafter : serve.after (calls ++ [call]) {} =
          (serve call (serve.after calls {})).2 := by simp [Interleave.Server.after]
      rw [hkept, hafter]
      exact hstep call _ _ (hcall call (List.mem_singleton_self call)) (ih hcalls)

end Tracks

end Expiring
