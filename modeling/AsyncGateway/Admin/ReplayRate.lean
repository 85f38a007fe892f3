import AsyncGateway.Admin.Replay
import AsyncGateway.Lib.Tally
import AsyncGateway.Lib.Window
import Mathlib.Algebra.Order.Floor.Ring
import Mathlib.Data.Rat.Floor

/-!
# Admin — the rate of replays

`_enforce_replay_rate` keeps the times of the replays of the last minute in the process.  Where the
clock does not go back, it refuses a replay exactly where the minute before it has admitted as many
as the limit (`replay_rate_is_exact`).

Any number of replays that are handled at once, interleaved at every request to the stores, share
these times.  A replay that was admitted may be refused after all, and its place in the minute is
lost; none is made without one.  So the children of a run are no more than the limit for every
minute begun (`children_le_rate`).
-/

namespace AsyncGateway

open AdminApp Interleave

/-! ### The times of the last minute -/

/-- `_enforce_replay_rate`, on the times it keeps. -/
def enforceReplayRate (limit : ℤ) (now : ℚ) (times : List ℚ) : Except Exn Unit × List ℚ :=
  let times := times.filter fun t => decide (now - t < 60)
  if limit ≤ times.length then
    (.error (.httpException 429 ("replay rate limit " ++ toString limit ++ "/min exceeded")), times)
  else (.ok (), times ++ [now])

/-- Whether each call of a sequence is admitted. -/
def replayOutcomes (limit : ℤ) : List ℚ → List ℚ → List (ℚ × Bool)
  | [], _ => []
  | now :: calls, times =>
      (now, (enforceReplayRate limit now times).1.isOk) ::
        replayOutcomes limit calls (enforceReplayRate limit now times).2

/-- It is a limiter of a minute. -/
theorem enforceReplayRate_eq (limit : ℤ) (now : ℚ) (times : List ℚ) :
    ((enforceReplayRate limit now times).1.isOk, (enforceReplayRate limit now times).2) =
      Window.decision limit.toNat 60 now times := by
  rw [enforceReplayRate, Window.decision, Window.recent]
  by_cases hfull : limit ≤ (times.filter fun t => decide (now - t < 60)).length
  · rw [if_pos hfull, if_pos (Int.toNat_le.mpr hfull)]
    rfl
  · rw [if_neg hfull, if_neg (fun h => hfull (Int.toNat_le.mp h))]
    rfl

theorem replayOutcomes_eq (limit : ℤ) (calls times : List ℚ) :
    replayOutcomes limit calls times = Window.decisions limit.toNat 60 calls times := by
  induction calls generalizing times with
  | nil => rfl
  | cons now calls ih =>
      have heq := enforceReplayRate_eq limit now times
      rw [replayOutcomes, Window.decisions, ih, ← heq]

/-- **A replay is refused exactly where the minute before it has admitted as many as the limit, and
no minute admits more.** -/
theorem replay_rate_is_exact (limit : ℤ) {calls : List ℚ} (h : calls.Pairwise (· ≤ ·)) :
    replayOutcomes limit calls [] = Window.history limit.toNat 60 calls [] ∧
      Window.Spread limit.toNat 60 (Window.granted (replayOutcomes limit calls [])) := by
  have heq : replayOutcomes limit calls [] = Window.history limit.toNat 60 calls [] := by
    rw [replayOutcomes_eq]
    cases calls with
    | nil => rfl
    | cons now calls =>
        have hle : ∀ t ∈ now :: calls, now ≤ t :=
          List.forall_mem_cons.mpr ⟨le_rfl, (List.pairwise_cons.mp h).1⟩
        exact Window.decisions_eq_history (fun _ _ => rfl) hle h
  refine ⟨heq, ?_⟩
  rw [heq]
  simpa using Window.spread_history calls Window.Spread.nil

/-- Two replays a minute: the third one is refused, and the one after a minute is not. -/
theorem replay_rate_two : replayOutcomes 2 [0, 10, 20, 61] [] =
      [(0, true), (10, true), (20, false), (61, true)] ∧
    Window.Spread 2 60 (Window.granted (replayOutcomes 2 [0, 10, 20, 61] [])) :=
  ⟨by decide +kernel, (replay_rate_is_exact 2 (by decide +kernel)).2⟩

/-! ### Replays at once -/

/-- What the replays of one process share: the clock, and the times of the last minute. -/
structure ReplayProcess where
  now : ℚ
  times : List ℚ := []

/-- The rate is looked up in the times of the process; the stores answer everything else as they
like.  The clock does not go back. -/
def ReplayProcess.respond (limit : ℤ) (w : ReplayProcess) (o : AdminOp) (γ : ℚ × Stores) :
    Option (Except Exn o.Ans × ReplayProcess) :=
  if γ.1 < w.now then none
  else match o with
    | .enforceReplayRate _ =>
        some ((enforceReplayRate limit γ.1 w.times).1,
          ⟨γ.1, (enforceReplayRate limit γ.1 w.times).2⟩)
    | o => some (γ.2 o, { w with now := γ.1 })

/-- The replays of one process. -/
def replayPool (A : AdminApp) (limit : ℤ) : Machine adminEffects Exn where
  Kind := ReplayCall
  body call := do
    let _ ← A.replayTask call
    pure ()
  World := ReplayProcess
  Choice := ℚ × Stores
  respond := ReplayProcess.respond limit

/-- Whether the answer admits a replay, as a number. -/
def admitsReplay : (o : AdminOp) → Except Exn o.Ans → ℕ
  | .enforceReplayRate _, .ok _ => 1
  | _, _ => 0

/-- Whether the operation inserts a child, as a number. -/
def insertsChild : AdminOp → ℕ
  | .insert _ => 1
  | _ => 0

section Pool

variable {A : AdminApp} {limit : ℤ}

/-- How many children a log inserts. -/
def childrenOf (l : (replayPool A limit).Log) : ℕ :=
  (replayPool A limit).tally (fun
    | .act _ o _ => insertsChild o
    | _ => 0) l

/-- How many replays a log admits. -/
def admittedReplays (l : (replayPool A limit).Log) : ℕ :=
  (replayPool A limit).tally (fun
    | .act _ o r => admitsReplay o r
    | _ => 0) l

/-- How many admissions a program has left to use. -/
abbrev admission : Protocol adminEffects Exn ReplayCall where
  State := ℕ
  start _ := 0
  idle := 0
  gone m := m
  allows m o := insertsChild o ≤ m
  next m o r := m + admitsReplay o r - insertsChild o
  done _ := True
  done_idle := trivial
  done_gone _ := trivial

namespace Admission

variable {m : ℕ}

/-- An operation that neither admits nor inserts. -/
theorem steady_ask {o : AdminOp} (hi : insertsChild o = 0) (ha : ∀ r, admitsReplay o r = 0) :
    Steady admission (askAdmin o) m :=
  .perform (show insertsChild o ≤ m from hi ▸ Nat.zero_le m) fun r => by
    change m + admitsReplay o r - insertsChild o = m
    rw [hi, ha]
    rfl

theorem steady_parentBody (parent : TaskRecord) :
    Steady admission (parentBody parent) m := by
  unfold parentBody
  split
  · exact .pure _
  · exact .bind (.tryCatch (steady_ask rfl fun _ => rfl) fun _ => .pure _) fun _ => .pure _

theorem steady_replayToken (t : ResolvedTemplate) :
    Steady admission (replayToken t) m :=
  .ite (fun _ => .bind (steady_ask rfl fun _ => rfl) fun _ => .pure _) fun _ => .pure _

/-- A child takes one admission. -/
theorem leads_createChild (call : ReplayCall) (parent : TaskRecord) (t : ResolvedTemplate)
    (body : Json.Fields) (credential : String) (hm : 1 ≤ m) :
    Leads admission (A.createChild call parent t body credential) m fun _ _ => True := by
  refine .bind_steady (steady_ask rfl fun _ => rfl) fun childId =>
    .bind_steady (steady_ask rfl fun _ => rfl) fun _ =>
    .bind_steady (steady_ask rfl fun _ => rfl) fun bucketAt =>
    .bind_steady (steady_ask rfl fun _ => rfl) fun deadlineFrom =>
    .bind_steady (steady_replayToken t) fun token => ?_
  refine .bind (.perform hm fun _ => ?_)
  exact .bind_steady (steady_ask rfl fun _ => rfl) fun _ =>
    .bind_steady (steady_ask rfl fun _ => rfl) fun _ =>
    .bind_steady (steady_ask rfl fun _ => rfl) fun _ => .pure trivial

/-- A replay inserts a child only after it was admitted, and one at most. -/
theorem leads_replayTask (call : ReplayCall) :
    Leads admission (A.replayTask call) m fun _ _ => True := by
  refine .bind_ofExcept fun _ _ => .bind_steady (steady_ask rfl fun _ => rfl) fun parent => ?_
  cases parent with
  | none => exact .raise _
  | some parent =>
      refine .ite (fun _ => .raise _) fun _ => .ite (fun _ => .raise _) fun _ =>
        .bind_steady (steady_ask rfl fun _ => rfl) fun _ =>
          .bind (.perform (Nat.zero_le m) fun _ => ?_)
      refine .ite (fun _ => .raise _) fun _ =>
        .bind_steady (steady_ask rfl fun _ => rfl) fun tv => ?_
      cases tv with
      | none => exact .raise _
      | some tv =>
          refine .ite (fun _ => .raise _) fun _ =>
            .bind_steady (steady_parentBody parent) fun body =>
            .ite (fun _ => .raise _) fun _ => leads_createChild _ _ _ _ _ ?_
          exact Nat.le_add_left 1 m

theorem follows_admission (call : ReplayCall) :
    Follows admission ((replayPool A limit).body call) ((admission).start call) :=
  .bind ((leads_replayTask call).mono fun _ _ _ => .pure trivial)

end Admission

/-- **Every child takes an admission.** -/
theorem children_le_admitted {w : ReplayProcess} {c : Config (replayPool A limit)}
    (h : Run (replayPool A limit).anything ((replayPool A limit).initial w) c) :
    childrenOf c.log ≤ admittedReplays c.log := by
  refine Run.tally_le (M := replayPool A limit) (P := admission) (μ := fun m => m)
    Admission.follows_admission rfl (fun _ _ => le_rfl) (fun m t o r ha => ?_)
    (fun _ _ => by simp) h
  change insertsChild o ≤ m at ha
  change insertsChild o + (m + admitsReplay o r - insertsChild o) ≤ m + admitsReplay o r
  omega

/-! ### The admissions of a process -/

/-- What a process has admitted since a time: the times it keeps count as all of these do, and no
minute has more than the limit. -/
structure Rated (limit : ℤ) (start : ℚ) (w : ReplayProcess) (admitted : List ℚ) : Prop where
  tracks : Window.Tracks 60 w.times admitted w.now
  spread : Window.Spread limit.toNat 60 admitted
  since : ∀ t ∈ admitted, start ≤ t ∧ t ≤ w.now
  started : start ≤ w.now

namespace Rated

variable {start : ℚ} {w : ReplayProcess} {admitted : List ℚ}

/-- Time passes. -/
theorem later (h : Rated limit start w admitted) {now : ℚ} (hle : w.now ≤ now) :
    Rated limit start { w with now := now } admitted :=
  ⟨h.tracks.mono hle, h.spread, fun t ht => ⟨(h.since t ht).1, (h.since t ht).2.trans hle⟩,
    h.started.trans hle⟩

/-- A look at the rate. -/
theorem enforce (h : Rated limit start w admitted) {now : ℚ} (hle : w.now ≤ now) :
    Rated limit start ⟨now, (enforceReplayRate limit now w.times).2⟩
      (if (enforceReplayRate limit now w.times).1.isOk then admitted ++ [now] else admitted) := by
  have hfst : (enforceReplayRate limit now w.times).1.isOk =
      (Window.decision limit.toNat 60 now w.times).1 :=
    congrArg Prod.fst (enforceReplayRate_eq limit now w.times)
  have hsnd : (enforceReplayRate limit now w.times).2 =
      (Window.decision limit.toNat 60 now w.times).2 :=
    congrArg Prod.snd (enforceReplayRate_eq limit now w.times)
  have htracks := (h.tracks.mono hle).decision limit.toNat
  have hroom := (h.tracks.mono hle).decision_fst limit.toNat
  rw [← hfst] at htracks hroom
  refine ⟨hsnd ▸ htracks, ?_, fun t ht => ?_, h.started.trans hle⟩
  · split
    next hok => exact h.spread.append (of_decide_eq_true (hroom.symm.trans hok))
    next => exact h.spread
  · split at ht
    · rcases List.mem_append.mp ht with ht | ht
      · exact ⟨(h.since t ht).1, (h.since t ht).2.trans hle⟩
      · rw [List.mem_singleton.mp ht]
        exact ⟨h.started.trans hle, le_rfl⟩
    · exact ⟨(h.since t ht).1, (h.since t ht).2.trans hle⟩

/-- A limit for every minute begun. -/
theorem length_le (h : Rated limit start w admitted) :
    admitted.length ≤ (⌊(w.now - start) / 60⌋₊ + 1) * limit.toNat := by
  refine h.spread.length_le (s := start) fun t ht => ⟨(h.since t ht).1, ?_⟩
  have hlt : (w.now - start) / 60 < ⌊(w.now - start) / 60⌋₊ + 1 := Nat.lt_floor_add_one _
  have hnow : w.now - start < (⌊(w.now - start) / 60⌋₊ + 1) * 60 := by
    rwa [div_lt_iff₀ (by norm_num)] at hlt
  have hle := (h.since t ht).2
  rw [nsmul_eq_mul]
  push_cast
  linarith

end Rated

/-- What a process admitted in a run. -/
theorem rated_run {start : ℚ} {c : Config (replayPool A limit)}
    (h : Run (replayPool A limit).anything ((replayPool A limit).initial ⟨start, []⟩) c) :
    ∃ admitted, Rated limit start c.world admitted ∧ admitted.length = admittedReplays c.log := by
  refine Run.invariant (M := replayPool A limit) (P := admission)
    (fun w l => ∃ admitted, Rated limit start w admitted ∧ admitted.length = admittedReplays l)
    Admission.follows_admission (Keeps.initial _) ⟨[], ⟨fun _ _ => rfl, .nil,
      fun _ h => absurd h List.not_mem_nil, le_rfl⟩, rfl⟩ ?_ ?_ ?_ h
  · intro w l t κ _ ⟨admitted, hr, hl⟩
    exact ⟨admitted, hr, hl.trans (Nat.zero_add _).symm⟩
  · intro w l t o γ r w' ⟨admitted, hr, hl⟩ hallows hrespond hG
    clear hallows hG
    change ReplayProcess.respond limit w o γ = some (r, w') at hrespond
    unfold ReplayProcess.respond at hrespond
    split at hrespond
    · cases hrespond
    next hclock =>
      have hle : w.now ≤ γ.1 := not_lt.mp hclock
      -- the look at the rate is the one answer that admits
      split at hrespond
      next actor =>
        obtain ⟨rfl, rfl⟩ := Prod.mk.inj (Option.some.inj hrespond)
        refine ⟨_, hr.enforce hle, ?_⟩
        change _ = admitsReplay (.enforceReplayRate actor)
          (enforceReplayRate limit γ.1 w.times).1 + admittedReplays l
        cases (enforceReplayRate limit γ.1 w.times).1 with
        | ok u =>
            change (admitted ++ [γ.1]).length = 1 + admittedReplays l
            rw [List.length_append, hl, Nat.add_comm]
            rfl
        | error x => exact hl.trans (Nat.zero_add _).symm
      next hother =>
        obtain ⟨rfl, rfl⟩ := Prod.mk.inj (Option.some.inj hrespond)
        refine ⟨admitted, hr.later hle, ?_⟩
        have hnone : admitsReplay o (γ.2 o) = 0 := by
          unfold admitsReplay
          split
          · exact absurd rfl (hother _)
          · rfl
        change _ = admitsReplay o (γ.2 o) + admittedReplays l
        rw [hnone, Nat.zero_add, hl]
  · intro w l t ⟨admitted, hr, hl⟩
    exact ⟨admitted, hr, hl.trans (Nat.zero_add _).symm⟩

/-- **The replays of a process make no more children than the limit for every minute begun.** -/
theorem children_le_rate {start : ℚ} {c : Config (replayPool A limit)}
    (h : Run (replayPool A limit).anything ((replayPool A limit).initial ⟨start, []⟩) c) :
    childrenOf c.log ≤ (⌊(c.world.now - start) / 60⌋₊ + 1) * limit.toNat := by
  obtain ⟨admitted, hr, hl⟩ := rated_run h
  exact (children_le_admitted h).trans (hl ▸ hr.length_le)

end Pool

/-- The administration that replays `deadParent`. -/
def replayingApp : AdminApp where
  library := { resolve := fun _ => none }
  container := sampleContainer sampleTemplate
  sha256 := id

/-- Two replays of one minute, one after the other. -/
def twoReplays : List (Move (replayPool replayingApp 1)) :=
  .spawn sampleReplay :: (List.replicate 10 (.act 0 (0, forgetfulStores)) ++
    .spawn sampleReplay :: List.replicate 3 (.act 1 (30, forgetfulStores)))

/-- Of two replays of one minute, a limit of one lets one make a child. -/
theorem one_child_a_minute : ∃ c, Run (replayPool replayingApp 1).anything
    ((replayPool replayingApp 1).initial ⟨0, []⟩) c ∧ childrenOf c.log = 1 ∧
    childrenOf c.log ≤ (⌊(c.world.now - 0) / 60⌋₊ + 1) * (1 : ℤ).toNat := by
  have hexec : (((replayPool replayingApp 1).initial ⟨0, []⟩).exec (fun _ _ _ _ _ => true)
      twoReplays).any (fun c => decide (childrenOf c.log = 1)) = true := by decide +kernel
  obtain ⟨c, hrun, hc⟩ := Run.of_any_exec (G := (replayPool replayingApp 1).anything)
    (fun _ _ _ _ _ _ => trivial) hexec
  exact ⟨c, hrun, of_decide_eq_true hc, children_le_rate hrun⟩

end AsyncGateway
