import AsyncGateway.Gateway.Routes
import AsyncGateway.Tasks.Compensate
import AsyncGateway.Workers.Ticks

/-!
# System — one task and everything that may work on it

The pool of all handlers on one task row: workers, the inline submission, the inspector, the
scheduler, the operator and the routes (`Work`), over the committed row and the clock (`World`).
A message may be delivered at any time and any number of times, so a handler may start whenever it
likes.  What the environment answers is chosen by the move (`Choice`); the row answers for itself.
-/

namespace AsyncGateway

open TaskStatus
open Interleave

/-- A handler, with the arguments its message, its request or its tick gives it. -/
inductive Work : Type where
  | submitUpstream
  | inlineSubmit (req : AcceptedRequest)
  | pollUpstream
  | compensateOrphan
  | cancelUpstream
  | finalizeTask
  | storeResult (attempt : ℤ)
  | query (auth : AuthContext) (identifier : String)
  | cancelRequest (auth : AuthContext) (identifier : String)
  | callback (payload : Json)
  | scanAcceptedStalls (stallSeconds : Seconds)
  | scanDeadlines (message : String)
  | boundUnknowns (maxLifetime : Seconds) (overLimit : Bool)
  | reconcileOrphans (stallSeconds : Seconds)
  | dispatchPendingTransfers
  | dispatchDue (leaseSeconds : Seconds)
  | closeTask (reason : String)

/-- Answer the request with what `route` gives. -/
def answering (route : Handler HttpAnswer) : Handler Unit := do
  let answer ← route
  ask (.respond answer)

/-- What a handler runs; the routes serve the template `t`. -/
def Work.body (C : Container) (t : ResolvedTemplate) : Work → Handler Unit
  | .submitUpstream => AsyncGateway.submitUpstream C
  | .inlineSubmit req => answering (AsyncGateway.inlineSubmit C req t)
  | .pollUpstream => AsyncGateway.pollUpstream C
  | .compensateOrphan => AsyncGateway.compensateOrphan C
  | .cancelUpstream => AsyncGateway.cancelUpstream C
  | .finalizeTask => AsyncGateway.finalizeTask C
  | .storeResult attempt => AsyncGateway.storeResult C attempt
  | .query auth identifier => answering (handleQuery C auth t identifier)
  | .cancelRequest auth identifier => answering (handleCancel C auth t identifier)
  | .callback payload => receiveCallback C payload
  | .scanAcceptedStalls stallSeconds => AsyncGateway.scanAcceptedStalls stallSeconds
  | .scanDeadlines message => AsyncGateway.scanDeadlines message
  | .boundUnknowns maxLifetime overLimit => AsyncGateway.boundUnknowns maxLifetime overLimit
  | .reconcileOrphans stallSeconds => AsyncGateway.reconcileOrphans stallSeconds
  | .dispatchPendingTransfers => AsyncGateway.dispatchPendingTransfers
  | .dispatchDue leaseSeconds => AsyncGateway.dispatchDue C leaseSeconds
  | .closeTask reason => AsyncGateway.closeTask reason

structure World where
  row : AsyncTask
  clock : Time

/-- What the environment answers to an operation the row does not answer. -/
inductive Reply : Type where
  | done
  | fail (message : String)
  | flag (b : Bool)
  | rat (q : ℚ)
  | text (s : Option String)
  | json (doc : Option Json)
  | slot (d : SlotDecision)
  | upstream (r : Except HttpxError HttpResponse)

/-- One answer of the environment, and when it comes. -/
structure Choice where
  time : Time
  reply : Reply := .done

/-- The task `find_by_upstream_id` finds in the channel, else the one of that task id there. -/
def findRow (row : AsyncTask) (channel identifier : String) : Option AsyncTask :=
  if row.channel = channel ∧ (row.upstreamTaskId = some identifier ∨ row.taskId = identifier) then
    some row
  else none

/-- The answer to an operation, where the reply is one to it. -/
def reply (row : AsyncTask) : (o : Op) → Choice → Option (Except Exn o.Ans × AsyncTask)
  | .now, γ => some (.ok γ.time, row)
  | .random, ⟨_, .rat q⟩ => if 0 ≤ q ∧ q < 1 then some (.ok q, row) else none
  | .random, _ => none
  | .apply op _, ⟨now, .done⟩ =>
      let (r, row') := op.exec now row
      some (r.mapError .transitionError, row')
  | _, ⟨_, .fail message⟩ => some (.error (.infrastructure message), row)
  | .load, ⟨_, .done⟩ => some (.ok (some row), row)
  | .readAttributes, ⟨_, .done⟩ => some (.ok (some row.attributes), row)
  | .findTask channel identifier, ⟨_, .done⟩ => some (.ok (findRow row channel identifier), row)
  | .insertCallbackEvent _ _, ⟨_, .flag b⟩ => some (.ok b, row)
  | .audit _, ⟨_, .done⟩ => some (.ok (), row)
  | .enqueue _, ⟨_, .done⟩ => some (.ok (), row)
  | .getCredential, ⟨_, .text s⟩ => some (.ok s, row)
  | .dropCredential, ⟨_, .done⟩ => some (.ok (), row)
  | .getBody _, ⟨_, .json doc⟩ => some (.ok doc, row)
  | .putResponse _ _, ⟨_, .done⟩ => some (.ok (), row)
  | .acquire _ _ _ _, ⟨_, .slot d⟩ => some (.ok d, row)
  | .release _ _, ⟨_, .done⟩ => some (.ok (), row)
  | .nextInterval _ _ _, ⟨_, .rat q⟩ => some (.ok q, row)
  | .baseInterval _ _ _, ⟨_, .rat q⟩ => some (.ok q, row)
  | .noteRateLimited _ _, ⟨_, .done⟩ => some (.ok (), row)
  | .decayIfClean _ _, ⟨_, .done⟩ => some (.ok (), row)
  | .pausedFor _, ⟨_, .rat q⟩ => some (.ok q, row)
  | .recordTerminal _ _, ⟨_, .done⟩ => some (.ok (), row)
  | .validateTarget _, ⟨_, .text s⟩ => some (.ok s, row)
  | .send _ _, ⟨_, .done⟩ => some (.ok (), row)
  | .recv _, ⟨_, .upstream r⟩ => some (.ok r, row)
  | .putBytes _ _, ⟨_, .done⟩ => some (.ok (), row)
  | .presignGet _ _, ⟨_, .text s⟩ => some (.ok s, row)
  | .respond _, ⟨_, .done⟩ => some (.ok (), row)
  | _, _ => none

/-- The answer to an operation: no earlier than the last one. -/
def respond (w : World) (o : Op) (γ : Choice) : Option (Except Exn o.Ans × World) :=
  if w.clock ≤ γ.time then (reply w.row o γ).map fun p => (p.1, ⟨p.2, γ.time⟩) else none

/-- **The gateway, on one task.** -/
abbrev gateway (C : Container) (t : ResolvedTemplate) : Machine effects Exn where
  Kind := Work
  body := Work.body C t
  World := World
  Choice := Choice
  respond := respond

abbrev Log := List (Event effects Exn Work)

/-- A row as `accept_create` and `replay_task` insert it. -/
structure Inserted (row : AsyncTask) : Prop where
  status : row.status = accepted
  attempts : row.attempts = 0
  submitStartedAt : row.submitStartedAt = none
  upstreamTaskId : row.upstreamTaskId = none
  cancelRequested : row.cancelRequested = false
  rawStatus : row.rawStatus = none
  statusSnapshot : row.statusSnapshot = none
  resultRef : row.resultRef = none

/-- The configurations a run within `G` reaches from an inserted row. -/
def Reachable (C : Container) (t : ResolvedTemplate) (G : (gateway C t).Condition)
    (c : Config (gateway C t)) : Prop :=
  ∃ w : World, Inserted w.row ∧ Run G ((gateway C t).initial w) c

/-! ### What an operation does to the row -/

variable {row row' : AsyncTask} {w w' : World} {o : Op} {γ : Choice} {r : Except Exn o.Ans}

theorem respond_eq_some (h : respond w o γ = some (r, w')) :
    reply w.row o γ = some (r, w'.row) := by
  unfold respond at h
  split at h
  · obtain ⟨p, hp, he⟩ := Option.map_eq_some_iff.mp h
    cases he
    exact hp
  · cases h

theorem respond_clock (h : respond w o γ = some (r, w')) :
    w.clock ≤ γ.time ∧ w'.clock = γ.time := by
  unfold respond at h
  split at h
  · rename_i hle
    obtain ⟨p, -, he⟩ := Option.map_eq_some_iff.mp h
    cases he
    exact ⟨hle, rfl⟩
  · cases h

/-- A reading of the clock is the time of the move. -/
theorem respond_now {n : Time} (h : respond w .now γ = some (.ok n, w')) : n = w'.clock := by
  obtain ⟨-, hclock⟩ := respond_clock h
  obtain ⟨hn, -⟩ := Prod.mk.inj (Option.some.inj (respond_eq_some h))
  rw [hclock]
  exact (Except.ok.inj hn).symm

/-- Only a write changes the row. -/
theorem reply_row (h : reply row o γ = some (r, row')) (ho : ∀ op also, o ≠ .apply op also) :
    row' = row := by
  obtain ⟨time, answer⟩ := γ
  cases o with
  | apply op also => exact absurd rfl (ho op also)
  | random =>
      cases answer <;> simp only [reply] at h <;> try cases h
      split at h <;> cases h
      rfl
  | _ => cases answer <;> simp only [reply] at h <;> cases h <;> rfl

/-- A write fails and leaves the row, or is one operation of the DAO. -/
theorem reply_apply {op : DaoOp} {also : Option Message} {r : Except Exn Bool}
    (h : reply row (.apply op also) γ = some (r, row')) :
    (∃ x, r = .error x ∧ row' = row) ∨ (r = .ok false ∧ row' = row) ∨
      ∃ now, r = .ok true ∧ op.run now row = .ok (some row') := by
  obtain ⟨time, answer⟩ := γ
  cases answer with
  | done =>
      simp only [reply, DaoOp.exec] at h
      split at h <;> cases h
      · exact .inr (.inr ⟨time, rfl, ‹_›⟩)
      · exact .inr (.inl ⟨rfl, rfl⟩)
      · exact .inl ⟨_, rfl, rfl⟩
  | fail message =>
      cases h
      exact .inl ⟨_, rfl, rfl⟩
  | _ => cases h

theorem reply_load {r : Except Exn (Option AsyncTask)}
    (h : reply row .load γ = some (r, row')) : (∃ x, r = .error x) ∨ r = .ok (some row) := by
  obtain ⟨time, answer⟩ := γ
  cases answer <;> simp only [reply] at h <;> cases h
  · exact .inr rfl
  · exact .inl ⟨_, rfl⟩

theorem reply_findTask {channel identifier : String} {r : Except Exn (Option AsyncTask)}
    (h : reply row (.findTask channel identifier) γ = some (r, row')) :
    (∃ x, r = .error x) ∨ r = .ok none ∨ r = .ok (some row) := by
  obtain ⟨time, answer⟩ := γ
  cases answer <;> simp only [reply] at h <;> cases h
  · unfold findRow
    split
    · exact .inr (.inr rfl)
    · exact .inr (.inl rfl)
  · exact .inl ⟨_, rfl⟩

/-- Whether the handler returned, or never started. -/
def returned {C : Container} {t : ResolvedTemplate} (c : Config (gateway C t)) (u : ℕ) : Bool :=
  match c.prog u with
  | .pure _ => true
  | _ => false

theorem returned_iff {C : Container} {t : ResolvedTemplate} {c : Config (gateway C t)} {u : ℕ} :
    returned c u = true ↔ c.prog u = .pure () := by
  unfold returned
  split
  · simp [*]
  · rename_i hn
    simpa using hn ()

/-! ### A gateway to run -/

section Sample

def sampleTemplate : ResolvedTemplate where
  aliasName := "video"
  baseUrl := "https://upstream"
  createPath := "/tasks"
  getPathTemplate := "/tasks/\x7bid\x7d"
  cancelPathTemplate := "/tasks/\x7bid\x7d"
  resultLocation := "$.url"
  capabilities := { confirmStrategy := .queryByClientKey, cancel := true }

/-- The sample template, which the validator accepts. -/
def acceptedSample : AcceptedTemplate := { sampleTemplate with accepted := by decide +kernel }

/-- The gateway that has the one template. -/
def sampleContainer (t : ResolvedTemplate) : Container where
  registry _ _ := some t
  joinUrl base path := .ok (base ++ path)

theorem inserted_sampleRow : Inserted sampleRow := ⟨rfl, rfl, rfl, rfl, rfl, rfl, rfl, rfl⟩

variable {t : ResolvedTemplate}

/-- The pool of the sample gateway on its row, before any handler. -/
def sampleStart (t : ResolvedTemplate) (row : AsyncTask) : Config (gateway (sampleContainer t) t) :=
  (gateway (sampleContainer t) t).initial ⟨row, 0⟩

abbrev Script (t : ResolvedTemplate) := List (Move (gateway (sampleContainer t) t))

/-- Handler `u` goes on, answered with the replies, all at one time. -/
def goesOn (u : ℕ) (time : Time) (replies : List Reply) : Script t :=
  replies.map fun reply => .act u ⟨time, reply⟩

/-- Handler `u` starts as `submit_upstream`, and comes to its create call. -/
def submitting (u : ℕ) (time : Time) : Script t :=
  .spawn .submitUpstream ::
    goesOn u time [.done, .text (some "key"), .slot ⟨true, none⟩, .done, .text none]

/-- The upstream answers with a document. -/
def answers (doc : Json) : Reply := .upstream (.ok { statusCode := 200, json := some doc })

/-- Handler 0 submits the task, which gets the id `upstream`, and returns. -/
def created (doc : Json.Fields) : Script t :=
  submitting 0 0 ++
    goesOn 0 0 [.done, answers (.obj (("id", .str "upstream") :: doc)), .done, .rat 5, .done, .done,
      .done, .done, .done, .done, .done, .done]

/-- Handler `u` polls the task, and has the answer. -/
def polled (u : ℕ) (doc : Json) : Script t :=
  .spawn .pollUpstream ::
    goesOn u 0 [.done, .rat 0, .text (some "key"), .slot ⟨true, none⟩, .text none, .done,
      answers doc, .done, .done, .done]

/-- What a script comes to is reached by a run. -/
theorem reached {G : (gateway (sampleContainer t) t).Condition} (row : AsyncTask)
    (script : Script t) (g : (gateway (sampleContainer t) t).Check)
    (p : Config (gateway (sampleContainer t) t) → Bool)
    (hg : ∀ w l u o r, g w l u o r = true → G w l u o r)
    (h : ((sampleStart t row).exec g script).any p = true) :
    ∃ c, Run G (sampleStart t row) c ∧ p c = true :=
  Run.of_any_exec hg h

end Sample

end AsyncGateway
