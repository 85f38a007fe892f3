import AsyncGateway.Db.Columns
import AsyncGateway.System.Pacing

/-!
# System — how far a deadline moves

A task that waits for its upstream gets its deadline moved, as far as the setting
`deadline_extension_max_seconds` has room.  The release that moves it and the note of how far it was
moved are two transactions, and the note is one of the attributes, which other writers replace.
Where every handler that moves the deadline loaded a row that records how far its deadline was moved
before, the bound holds in every run (`deadline_bounded`).
-/

namespace AsyncGateway

open TaskStatus TaskRuntime
open Interleave

variable {C : Container} {t : ResolvedTemplate} {now : Time} {row row' : AsyncTask}

/-! ### What a write does to the deadline -/

def deadlineColumn : Column (Option Time) where
  get := AsyncTask.deadlineAt
  sets := Assign.isDeadlineAt
  touch _ _ := rfl
  outcome _ _ _ := rfl
  apply row a h := by cases a <;> first | rfl | cases h

/-- A write on the terms of a wait leaves the deadline, but for a release that moves it. -/
theorem deadline_run {l : Local} {m : Standing} {op : DaoOp} {also : Option Message}
    (ha : AllowedWrite C t l op) (hm : m.Allows C (.apply op also))
    (h : op.run now row = .ok (some row')) :
    row'.deadlineAt = row.deadlineAt ∨ ∃ expected next decrement code message retryable d,
      op = .releaseSubmitIntent expected next decrement code message retryable none (some d) ∧
        row'.deadlineAt = some d := by
  have kept : (∀ a ∈ op.assigned now, a.isDeadlineAt = false) →
      row'.deadlineAt = row.deadlineAt := DaoOp.column_run deadlineColumn h
  -- `advance` adds no deadline of its own
  have advanced : ∀ (dst : TaskStatus) (values : List Assign),
      op.assigned now = advanceValues now dst values →
      (∀ a ∈ values, a.isDeadlineAt = false) → ∀ a ∈ op.assigned now, a.isDeadlineAt = false := by
    intro dst values he hv a ha
    rw [he] at ha
    rcases mem_advanceValues ha with ha | rfl | rfl
    · exact hv a ha
    · rfl
    · rfl
  cases op with
  | advance dst expected values =>
      refine .inl (kept (advanced dst values rfl fun a ha => Bool.eq_false_iff.mpr fun he => ?_))
      exact Bool.eq_false_iff.mp hm (List.any_eq_true.mpr ⟨a, ha, he⟩)
  | enterUnknown code message expected =>
      refine .inl (kept (advanced submitUnknown [.errorCode (some code), .errorMessage message,
        .unknownSince (some now), .nextPollAt (some now)] rfl ?_))
      simp [Assign.isDeadlineAt]
  | relocateCompensate upstreamTaskId target rawStatus snapshot next note =>
      refine .inl (kept (advanced _ _ rfl ?_))
      simp only [relocateValues, List.forall_mem_append, forall_mem_ifSome]
      split <;> simp [Assign.isDeadlineAt]
  | releaseSubmitIntent expected next decrement code message retryable attributes deadline =>
      obtain ⟨rfl, -⟩ := ha
      cases deadline with
      | none =>
          refine .inl (kept ?_)
          cases decrement <;> simp [DaoOp.assigned, releaseValues, ifSome, Assign.isDeadlineAt]
      | some d =>
          refine .inr ⟨_, _, _, _, _, _, d, rfl, ?_⟩
          obtain ⟨s, ref, rfl⟩ := DaoOp.assigned_run h
          cases decrement <;>
            simp [DaoOp.assigned, releaseValues, ifSome, Assign.apply, AsyncTask.withOutcome]
  | recordPollResult snapshot rawStatus next expected =>
      exact .inl (kept (by cases next <;> simp [DaoOp.assigned, ifSome, Assign.isDeadlineAt]))
  | markFailure expected code message retryable next snapshot =>
      exact .inl (kept (by cases snapshot <;> simp [DaoOp.assigned, ifSome, Assign.isDeadlineAt]))
  | _ => exact .inl (kept (by simp [DaoOp.assigned, Assign.isDeadlineAt]))

/-! ### The bound -/

/-- An extension is within the room that is left of the cap. -/
theorem deadlineExtension_le {task : AsyncTask} {want : PyFloat} {cap : ℚ}
    (h : 0 < deadlineExtension C task want cap) :
    deadlineExtension C task want cap ≤
      cap - numberAttribute C task.attributes "deadline_extended_seconds" := by
  -- what is positive is not cut at zero
  have uncut : ∀ {q : ℚ}, 0 < max 0 q → 0 < q ∧ max 0 q = q := by
    intro q hq
    have hpos : 0 < q := by simpa using hq
    exact ⟨hpos, max_eq_right hpos.le⟩
  unfold deadlineExtension at h ⊢
  cases want with
  | fin q =>
      dsimp only at h ⊢
      obtain ⟨hmin, heq⟩ := uncut h
      rw [heq, (uncut (lt_min_iff.mp hmin).2).2]
      exact min_le_right _ _
  | posInf =>
      dsimp only at h ⊢
      obtain ⟨hroom, heq⟩ := uncut h
      rw [heq, (uncut hroom).2]
  | _ => exact absurd h (lt_irrefl _)

/-- The row records how far its deadline was moved since it was set. -/
def Recorded (C : Container) (set_ : Time) (row : AsyncTask) : Prop :=
  ∀ d, row.deadlineAt = some d →
    d - set_ ≤ numberAttribute C row.attributes "deadline_extended_seconds"

/-- A write that moves the deadline. -/
def DaoOp.extends : DaoOp → Bool
  | .releaseSubmitIntent _ _ _ _ _ _ _ deadline => deadline.isSome
  | _ => false

/-- Every handler that moves the deadline loaded a row that records how far it was moved before. -/
def extendsRecorded (C : Container) (t : ResolvedTemplate) (set_ : Time) :
    (gateway C t).Condition :=
  fun _ l u o r => ∀ op, hit (.act u o r) = some op → op.extends = true →
    ∀ task, (standing C t l u).loaded = some task → Recorded C set_ task

/-- **The deadline of a task is moved by no more than the cap.**  In every run in which each
handler that moves it loaded a row that records how far it was moved before. -/
theorem deadline_bounded {w : World} {c : Config (gateway C t)} {set_ : Time}
    (hw : w.row.deadlineAt = some set_)
    (h : Run (extendsRecorded C t set_) ((gateway C t).initial w) c) :
    ∃ d, c.world.row.deadlineAt = some d ∧ d - set_ ≤ max 0 C.deadlineExtensionMaxSeconds := by
  refine Run.invariant (M := gateway C t) (P := paced C t)
    (fun w _ => ∃ d, w.row.deadlineAt = some d ∧ d - set_ ≤ max 0 C.deadlineExtensionMaxSeconds)
    follows_paced (Keeps.initial w) (by exact ⟨set_, hw, by simp⟩) (fun _ _ _ _ _ hi => hi) ?_
    (fun _ _ _ hi => hi) h
  intro w l u o γ r w' hi ha hr hg
  have ha : (paced C t).allows ((discipline C t).after l u, (terms C).after l u) o := by
    rwa [Protocol.after_both] at ha
  obtain ⟨-, hrow⟩ | ⟨op, hh, hop, -, -⟩ := move_cases (u := u) ha.1 hr
  · exact hrow ▸ hi
  · have hrun := respond_hit hr hh
    obtain ⟨also, he⟩ := hit_eq_some hh
    cases he
    rcases deadline_run hop ha.2 hrun with hsame | ⟨_, _, _, _, _, _, d, rfl, hd⟩
    · exact hsame ▸ hi
    · -- the new deadline is the loaded one and what there is room for
      obtain ⟨-, hext⟩ := ha.2
      obtain ⟨task, from_, want, hl, hfrom, hpos, rfl⟩ := hext d rfl
      have hrec := hg _ hh rfl task hl from_ hfrom
      have hle := deadlineExtension_le hpos
      exact ⟨_, hd, le_max_of_le_right (by linarith)⟩

/-! ### Two waits of ten minutes -/

/-- A row as it is inserted, due in half an hour. -/
def dueRow : AsyncTask := { sampleRow with deadlineAt := some 1800 }

/-- Handler `u` submits the task, its create call is answered with 429 and `Retry-After: 600`, and
it gives the intent back. -/
def waitsLong (u : ℕ) (time : Time) : List (Move limiting) :=
  .spawn .submitUpstream :: goesOnLimited u time
    [.done, .done, .text (some "key"), .slot ⟨true, none⟩, .done, .text none, .done,
      .upstream (.ok { statusCode := 429, retryAfter := some "600" }), .done, .rat 5, .done, .done,
      .done]

/-- The check of `extendsRecorded`. -/
def extendsRecordedCheck (set_ : Time) : limiting.Check := fun _ l u o r =>
  (hit (.act u o r)).all fun op => !op.extends ||
    (standing limitingContainer sampleTemplate l u).loaded.all fun task => task.deadlineAt.all
      fun d => decide (d - set_ ≤
        numberAttribute limitingContainer task.attributes "deadline_extended_seconds")

theorem extendsRecorded_of_check {set_ : Time} {w : World} {l : Log} {u : ℕ} {o : Op}
    {r : Except Exn o.Ans} (h : extendsRecordedCheck set_ w l u o r = true) :
    extendsRecorded limitingContainer sampleTemplate set_ w l u o r := by
  intro op hh hext task hl d hd
  simpa [extendsRecordedCheck, hh, hext, hl, hd] using h

theorem deadline_overrun :
    ∃ c : Config limiting, Run limiting.anything (limiting.initial ⟨dueRow, 0⟩) c ∧
      Inserted dueRow ∧ dueRow.deadlineAt = some 1800 ∧ c.world.row.deadlineAt = some 3000 ∧
      limitingContainer.deadlineExtensionMaxSeconds < 3000 - 1800 := by
  have h : (((limiting.initial ⟨dueRow, 0⟩).exec (fun _ _ _ _ _ => true)
      (waitsLong 0 0 ++ .halt 0 :: waitsLong 1 600)).any fun c =>
        decide (c.world.row.deadlineAt = some 3000)) = true := by decide +kernel
  obtain ⟨c, run, h⟩ := Run.of_any_exec (fun _ _ _ _ _ _ => trivial) h
  exact ⟨c, run, ⟨rfl, rfl, rfl, rfl, rfl, rfl, rfl, rfl⟩, rfl, of_decide_eq_true h,
    by decide +kernel⟩

theorem deadline_bounded_sample :
    ∃ c : Config limiting, c.world.row.deadlineAt = some 2700 ∧
      ∃ d, c.world.row.deadlineAt = some d ∧
        d - 1800 ≤ max 0 limitingContainer.deadlineExtensionMaxSeconds := by
  have h : (((limiting.initial ⟨dueRow, 0⟩).exec (extendsRecordedCheck 1800)
      (waitsLong 0 0 ++ goesOnLimited 0 0 [.done, .done, .done] ++ waitsLong 1 600)).any fun c =>
        decide (c.world.row.deadlineAt = some 2700)) = true := by decide +kernel
  obtain ⟨c, run, h⟩ := Run.of_any_exec (fun _ _ _ _ _ => extendsRecorded_of_check) h
  exact ⟨c, of_decide_eq_true h, deadline_bounded rfl run⟩

end AsyncGateway
