import AsyncGateway.Admin.App
import AsyncGateway.System.Deadlines
import AsyncGateway.System.Intake

/-!
# System — how long the data of a task is kept

The body of a create request and the credential of its task are kept for a time that the settings
alone determine, an hour at most.  The deadline of the task comes from the request, the channel or
the template, and it moves while the task waits for its upstream.  The data is there at every
deadline the task can come to exactly where the settings leave room for it (`outlasts_iff_roomy`).
-/

namespace AsyncGateway

open TaskStatus TaskRuntime
open Interleave

/-! ### The deadlines a task can come to -/

section Deadlines

variable {C : Container} {row row' : AsyncTask} {set_ : Time}

/-- How far the deadline of a row was moved, as the row records it. -/
def movedBy (C : Container) (row : AsyncTask) : ℚ :=
  numberAttribute C row.attributes "deadline_extended_seconds"

/-- A wait whose release and whose note are both written, whatever else happens to the row. -/
def Waited (C : Container) (row row' : AsyncTask) : Prop :=
  ∃ want, row'.deadlineAt =
      row.deadlineAt.map (· + deadlineExtension C row want C.deadlineExtensionMaxSeconds) ∧
    movedBy C row' = movedBy C row + deadlineExtension C row want C.deadlineExtensionMaxSeconds

/-- A deadline the row comes to after some waits: the one that is set by the release of the last. -/
def ComesTo (C : Container) (row : AsyncTask) (deadline : Time) : Prop :=
  ∃ row' from_ want, Relation.ReflTransGen (Waited C) row row' ∧ row'.deadlineAt = some from_ ∧
    deadline = from_ + deadlineExtension C row' want C.deadlineExtensionMaxSeconds

/-- What is kept for `ttl` seconds from the acceptance of the row on is there at each deadline the
row comes to. -/
def Outlasts (C : Container) (row : AsyncTask) (ttl : ℤ) : Prop :=
  ∀ deadline, ComesTo C row deadline → deadline ≤ row.createdAt + ttl

/-- With one more wait, the deadline is still moved by no more than the cap. -/
theorem movedBy_add_le (C : Container) (row : AsyncTask) (want : PyFloat) :
    movedBy C row + deadlineExtension C row want C.deadlineExtensionMaxSeconds ≤
      max (movedBy C row) C.deadlineExtensionMaxSeconds := by
  by_cases hpos : 0 < deadlineExtension C row want C.deadlineExtensionMaxSeconds
  · have hle := deadlineExtension_le hpos
    refine le_max_of_le_right ?_
    rw [movedBy]
    linarith
  · exact le_max_of_le_left (by linarith)

/-- The whole cap is one wait away from a row whose deadline was never moved. -/
theorem deadlineExtension_cap (hnew : movedBy C row = 0) :
    deadlineExtension C row (.fin C.deadlineExtensionMaxSeconds) C.deadlineExtensionMaxSeconds =
      max 0 C.deadlineExtensionMaxSeconds := by
  rw [movedBy] at hnew
  simp only [deadlineExtension, hnew, sub_zero]
  rw [min_eq_left (le_max_right _ _)]

/-- The row records how far its deadline was moved, and that is within the cap. -/
theorem waits_bounded (hset : row.deadlineAt = some set_) (hnew : movedBy C row = 0)
    (h : Relation.ReflTransGen (Waited C) row row') :
    row'.deadlineAt = some (set_ + movedBy C row') ∧
      movedBy C row' ≤ max 0 C.deadlineExtensionMaxSeconds := by
  induction h with
  | refl => simp [hset, hnew]
  | tail _ hwait ih =>
      obtain ⟨hdeadline, hle⟩ := ih
      obtain ⟨want, hmoved, hby⟩ := hwait
      refine ⟨?_, hby ▸ (movedBy_add_le C _ want).trans (max_le hle (le_max_right _ _))⟩
      rw [hmoved, hdeadline, hby]
      simp [add_assoc]

theorem comesTo_le_iff {bound : ℚ} (hset : row.deadlineAt = some set_)
    (hnew : movedBy C row = 0) :
    (∀ deadline, ComesTo C row deadline → deadline ≤ bound) ↔
      set_ + max 0 C.deadlineExtensionMaxSeconds ≤ bound := by
  constructor
  · intro h
    exact h _ ⟨row, set_, _, .refl, hset, congrArg (set_ + ·) (deadlineExtension_cap hnew).symm⟩
  · rintro h deadline ⟨row', from_, want, hwaits, hfrom, rfl⟩
    obtain ⟨hdeadline, hle⟩ := waits_bounded hset hnew hwaits
    have hmore := (movedBy_add_le C row' want).trans (max_le hle (le_max_right _ _))
    obtain rfl : set_ + movedBy C row' = from_ := Option.some.inj (hdeadline.symm.trans hfrom)
    linarith

/-- The settings leave room for a deadline of so many seconds and for its extensions. -/
def Roomy (taskDeadlineSeconds : ℤ) (cap : ℚ) (seconds : ℤ) : Prop :=
  seconds + max 0 cap ≤ 3600 ∧
    (seconds + max 0 cap ≤ 300 ∨ seconds + max 0 cap ≤ taskDeadlineSeconds + 300)

theorem roomy_iff {taskDeadlineSeconds seconds : ℤ} {cap : ℚ} :
    seconds + max 0 cap ≤ (min 3600 (max 300 (taskDeadlineSeconds + 300)) : ℤ) ↔
      Roomy taskDeadlineSeconds cap seconds := by
  rw [Roomy]
  push_cast
  rw [le_min_iff, le_max_iff]

theorem outlasts_iff {taskDeadlineSeconds seconds : ℤ} (accepted : Time)
    (hset : row.deadlineAt = some (accepted + seconds)) (hnew : movedBy C row = 0)
    (hcreated : row.createdAt = accepted) :
    Outlasts C row (min 3600 (max 300 (taskDeadlineSeconds + 300))) ↔
      Roomy taskDeadlineSeconds C.deadlineExtensionMaxSeconds seconds := by
  rw [Outlasts, comesTo_le_iff hset hnew, hcreated, add_assoc, add_le_add_iff_left, roomy_iff]

end Deadlines

/-! ### The data of a create request -/

section Create

variable {I : Intake} {r : CreateRequest}

/-- What `accept_create` keeps for a task it inserts is there at each deadline of the task. -/
def CreateOutlasts (I : Intake) (r : CreateRequest) : Prop :=
  ∀ task, (acceptCreate I r).Asks (.insert task) →
    (∀ key payload ttl, task.createReqRef = some key →
        (acceptCreate I r).Asks (.putJson key payload ttl) → Outlasts I.container task ttl) ∧
      ∀ value ttl, (acceptCreate I r).Asks (.putCredential task.taskId value ttl) →
        Outlasts I.container task ttl

/-- A task that is inserted with another row, or whose data is kept for another time. -/
def Unlike (I : Intake) (r : CreateRequest) : AcceptOp → Prop
  | .insert task => ∀ taskId bucket now token, task ≠ I.newTask r taskId bucket now token
  | .putJson key _ ttl =>
      (∃ taskId, key = requestKey r.auth.tenant taskId) ∧ ttl ≠ I.bodyTtlSeconds
  | .putCredential _ _ ttl => ttl ≠ I.credentialTtlSeconds
  | _ => False

theorem requestKey_ne_responseKey (tenant taskId tenant' taskId' : String) :
    requestKey tenant taskId ≠ responseKey tenant' taskId' := by
  intro h
  have hl := congrArg String.toList h
  simp [requestKey, responseKey] at hl

theorem avoids_unlike : (acceptCreate I r).Avoids (Unlike I r) :=
  Spared.acceptCreate
    { others := fun o ho => by
        cases o <;> first | exact id | cases ho
      body := fun _ h => h.2 rfl
      response := fun _ _ h => by
        obtain ⟨⟨taskId, hkey⟩, -⟩ := h
        exact requestKey_ne_responseKey _ _ _ _ hkey.symm
      row := fun taskId bucket now token h => h taskId bucket now token rfl
      credential := fun _ _ h => h rfl }

def AcceptOp.Inserts : AcceptOp → Prop
  | .insert _ => True
  | _ => False

/-- A queue with no room takes no task. -/
theorem maxDepth_pos {task : AsyncTask} (h : (acceptCreate I r).Asks (.insert task)) :
    0 < I.maxDepth := by
  by_contra hzero
  have hfull : ∀ depth, I.maxDepth ≤ depth := fun depth => by omega
  have hnone : (acceptCreate I r).Avoids AcceptOp.Inserts := by
    refine .bind (.perform id) fun _ => .ite (.raise _) (.bind (.perform id) fun depth => ?_)
    rw [if_pos (hfull depth)]
    exact .raise _
  exact hnone _ h trivial

theorem createOutlasts_iff :
    CreateOutlasts I r ↔ (0 < I.maxDepth →
      Roomy I.taskDeadlineSeconds I.container.deadlineExtensionMaxSeconds
        (I.deadlineSeconds r)) := by
  have hrow : ∀ taskId bucket now token,
      Outlasts I.container (I.newTask r taskId bucket now token) I.bodyTtlSeconds ↔
        Roomy I.taskDeadlineSeconds I.container.deadlineExtensionMaxSeconds
          (I.deadlineSeconds r) := by
    intro taskId bucket now token
    exact outlasts_iff now rfl rfl rfl
  constructor
  · intro h hdepth
    obtain ⟨taskId, bucket, now, token, hinsert, hbody⟩ := asks_insert (I := I) (r := r) hdepth
    exact (hrow ..).mp ((h _ hinsert).1 _ _ _ rfl hbody)
  · intro h task hinsert
    obtain ⟨taskId, bucket, now, token, rfl⟩ :
        ∃ taskId bucket now token, task = I.newTask r taskId bucket now token := by
      by_contra hno
      push Not at hno
      exact avoids_unlike _ hinsert hno
    have hout := (hrow taskId bucket now token).mpr (h (maxDepth_pos hinsert))
    constructor
    · intro key payload ttl hkey hput
      obtain rfl : ttl = I.bodyTtlSeconds := by
        by_contra hne
        exact avoids_unlike _ hput ⟨⟨taskId, (Option.some.inj hkey).symm⟩, hne⟩
      exact hout
    · intro value ttl hput
      obtain rfl : ttl = I.credentialTtlSeconds := by
        by_contra hne
        exact avoids_unlike _ hput hne
      exact hout

/-- With room for it, the data is there at the deadline of every state of a run in which each
handler that moves the deadline loaded a row that records how far it was moved before. -/
theorem deadline_within_ttl {t : ResolvedTemplate} {w : World}
    {c : Config (gateway I.container t)} {taskId : String} {bucket : ℤ} {now : Time}
    {token : Option String} (hw : w.row = I.newTask r taskId bucket now token)
    (hroom : Roomy I.taskDeadlineSeconds I.container.deadlineExtensionMaxSeconds
      (I.deadlineSeconds r))
    (h : Run (extendsRecorded I.container t (now + I.deadlineSeconds r))
      ((gateway I.container t).initial w) c) :
    ∃ d, c.world.row.deadlineAt = some d ∧ d ≤ now + I.bodyTtlSeconds := by
  obtain ⟨d, hd, hle⟩ := deadline_bounded (congrArg AsyncTask.deadlineAt hw) h
  refine ⟨d, hd, ?_⟩
  have hkept := roomy_iff.mpr hroom
  rw [Intake.bodyTtlSeconds]
  linarith

end Create

/-! ### The data of a replay -/

section Replay

variable {A : AdminApp} {call : AdminApp.ReplayCall} {parent : TaskRecord} {tv : TemplateVersion}

/-- What `replay_task` keeps for a task it inserts is there at each deadline of the task. -/
def ReplayOutlasts (A : AdminApp) (tv : TemplateVersion) : Prop :=
  ∀ call parent (child : TaskRecord), (A.replayParent call parent tv).Asks (.insert child) →
    (∀ key payload ttl, child.createReqRef = some key →
        (A.replayParent call parent tv).Asks (.putJson key payload ttl) →
        Outlasts A.container child.toAsyncTask ttl) ∧
      ∀ value ttl, (A.replayParent call parent tv).Asks (.putCredential child.taskId value ttl) →
        Outlasts A.container child.toAsyncTask ttl

/-- A task that is inserted with another row, or whose data is kept for another time. -/
def UnlikeReplay (A : AdminApp) (call : AdminApp.ReplayCall) (parent : TaskRecord)
    (tv : TemplateVersion) : AdminOp → Prop
  | .insert child => ∀ childId bucketAt deadlineFrom token,
      child ≠ AdminApp.replayRow parent tv.resolved call childId bucketAt deadlineFrom token
  | .putJson _ _ ttl => ttl ≠ A.bodyTtlSeconds
  | .putCredential _ _ ttl => ttl ≠ A.bodyTtlSeconds
  | _ => False

theorem avoids_unlikeReplay :
    (A.replayParent call parent tv).Avoids (UnlikeReplay A call parent tv) := by
  have body : (AdminApp.parentBody parent).Avoids (UnlikeReplay A call parent tv) := by
    unfold AdminApp.parentBody
    cases nonEmpty parent.createReqRef with
    | none => exact .pure _
    | some ref => exact .bind (.tryCatch (.perform id) fun _ => .pure _) fun _ => .pure _
  have token : (AdminApp.replayToken tv.resolved).Avoids (UnlikeReplay A call parent tv) :=
    .ite (.bind (.perform id) fun _ => .pure _) (.pure _)
  refine .bind body fun body => .ite (.raise _) (.bind (.perform id) fun childId =>
    .bind (.perform fun h => h rfl) fun _ => .bind (.perform id) fun bucketAt =>
    .bind (.perform id) fun deadlineFrom => .bind token fun token =>
    .bind (.perform fun h => ?_) fun _ => .bind (.perform fun h => h rfl) fun _ =>
    .bind (.perform id) fun _ => .bind (.perform id) fun _ => .pure _)
  exact h childId bucketAt deadlineFrom token rfl

/-- A call with a credential stores a body, and comes to the insert of the child; here for a parent
whose own body is not kept any more. -/
theorem asks_insertChild (A : AdminApp) (call : AdminApp.ReplayCall) (parent : TaskRecord)
    (tv : TemplateVersion) (hcred : String.ofList (Text.strip call.credential.toList) ≠ "")
    (href : nonEmpty parent.createReqRef = none) :
    ∃ childId bucketAt deadlineFrom token,
      (A.replayParent call parent tv).Asks (.insert
        (AdminApp.replayRow parent tv.resolved call childId bucketAt deadlineFrom token)) ∧
      (A.replayParent call parent tv).Asks
        (.putJson (requestKey parent.tenant childId) (.obj []) A.bodyTtlSeconds) := by
  let token := if tv.resolved.capabilities.callback then some "" else none
  have reaches : ∀ {o}, (A.createChild call parent tv.resolved []
      (String.ofList (Text.strip call.credential.toList))).Asks o →
        (A.replayParent call parent tv).Asks o := by
    intro o ho
    simp only [AdminApp.replayParent, AdminApp.parentBody, href, if_neg hcred]
    exact ho
  refine ⟨"", 0, 0, token, reaches ?_, reaches (Prog.asks_perform_bind "" (.inl rfl))⟩
  refine Prog.asks_perform_bind "" (Prog.asks_perform_bind () (Prog.asks_perform_bind (0 : Time)
    (Prog.asks_perform_bind (0 : Time) ?_)))
  rw [AdminApp.replayToken]
  unfold token
  split
  · exact Or.inr ⟨.ok "", Or.inl rfl⟩
  · exact Or.inl rfl

/-- A task whose body is not kept any more. -/
def spentParent : TaskRecord :=
  { toAsyncTask := sampleRow
    origin := .user
    idempotencyWindowSeconds := 86400 }

theorem replayOutlasts_iff :
    ReplayOutlasts A tv ↔ Roomy A.taskDeadlineSeconds A.container.deadlineExtensionMaxSeconds
      (truncate (tv.resolved.strategy.deadlineSeconds.getD 1800)) := by
  have hrow : ∀ parent call childId bucketAt deadlineFrom token,
      Outlasts A.container (AdminApp.replayRow parent tv.resolved call childId bucketAt
        deadlineFrom token).toAsyncTask A.bodyTtlSeconds ↔
        Roomy A.taskDeadlineSeconds A.container.deadlineExtensionMaxSeconds
          (truncate (tv.resolved.strategy.deadlineSeconds.getD 1800)) := by
    intro parent call childId bucketAt deadlineFrom token
    exact outlasts_iff deadlineFrom rfl rfl rfl
  constructor
  · intro h
    -- some call inserts a child, and that row meets the bound
    obtain ⟨call, hcred⟩ : ∃ call : AdminApp.ReplayCall,
        String.ofList (Text.strip call.credential.toList) ≠ "" :=
      ⟨{ actor := ⟨"operator", []⟩, taskId := "", credential := "Bearer token" }, by decide⟩
    obtain ⟨parent, href⟩ : ∃ parent : TaskRecord, nonEmpty parent.createReqRef = none :=
      ⟨spentParent, rfl⟩
    obtain ⟨childId, bucketAt, deadlineFrom, token, hinsert, hbody⟩ :=
      asks_insertChild A call parent tv hcred href
    exact (hrow ..).mp ((h _ _ _ hinsert).1 _ _ _ rfl hbody)
  · intro h call parent child hinsert
    obtain ⟨childId, bucketAt, deadlineFrom, token, rfl⟩ : ∃ childId bucketAt deadlineFrom token,
        child = AdminApp.replayRow parent tv.resolved call childId bucketAt deadlineFrom token := by
      by_contra hno
      push Not at hno
      exact avoids_unlikeReplay _ hinsert hno
    have hout := (hrow parent call childId bucketAt deadlineFrom token).mpr h
    constructor
    · intro key payload ttl hkey hput
      obtain rfl : ttl = A.bodyTtlSeconds := by
        by_contra hne
        exact avoids_unlikeReplay _ hput hne
      exact hout
    · intro value ttl hput
      obtain rfl : ttl = A.bodyTtlSeconds := by
        by_contra hne
        exact avoids_unlikeReplay _ hput hne
      exact hout

end Replay

/-- **The body and the credential of a task are there at every deadline it comes to exactly where
the settings leave room for that**: for the tasks of create requests, where any are accepted, and
for those of replays. -/
theorem outlasts_iff_roomy (I : Intake) (r : CreateRequest) (A : AdminApp) (tv : TemplateVersion) :
    (CreateOutlasts I r ↔ (0 < I.maxDepth →
      Roomy I.taskDeadlineSeconds I.container.deadlineExtensionMaxSeconds
        (I.deadlineSeconds r))) ∧
      (ReplayOutlasts A tv ↔
        Roomy A.taskDeadlineSeconds A.container.deadlineExtensionMaxSeconds
          (truncate (tv.resolved.strategy.deadlineSeconds.getD 1800))) := by
  constructor
  · exact createOutlasts_iff
  · exact replayOutlasts_iff

/-- By default a body is kept for 2100 seconds, and a task of 1800 seconds can be extended by
900. -/
theorem default_body_expires : ¬ CreateOutlasts sampleIntake (sampleRequest "tenant") := by
  intro h
  have hseconds : sampleIntake.deadlineSeconds (sampleRequest "tenant") = 1800 := by decide
  have htask : sampleIntake.taskDeadlineSeconds = 1800 := rfl
  have hcap : sampleIntake.container.deadlineExtensionMaxSeconds = 900 := rfl
  have hroom := createOutlasts_iff.mp h (by decide)
  rw [hseconds, htask, hcap] at hroom
  rcases hroom.2 with hfew | hfew
  · norm_num at hfew
  · norm_num at hfew

end AsyncGateway
