import AsyncGateway.Db.Attributes
import AsyncGateway.System.Rows

/-!
# System — what a replay shows of a task that was created

The answer of an idempotent replay is the one archived for the task, or pending where none is.  The
archive is read off the log (`archived`): the background submission archives only successes, the
inline submission archives whatever its create call came to.  A task that has an upstream id is
replayed as a success or as pending, as long as it is not given the id over an archived error, and
no inline submission archives an error over the id (`replay_of_created`).
-/

namespace AsyncGateway

open TaskStatus
open Interleave

variable {C : Container} {t : ResolvedTemplate} {now : Time} {row row' : AsyncTask}

/-! ### The archive -/

/-- The response an event archives, and under which key. -/
def archives : Happening → Option (String × ArchivedResponse)
  | .act _ (.putResponse key response) (.ok _) => some (key, response)
  | _ => none

/-- The response archived last under the key. -/
def archived (key : String) : Log → Option ArchivedResponse
  | [] => none
  | e :: l =>
      match archives e with
      | some (key', response) => if key' = key then some response else archived key l
      | none => archived key l

theorem archived_cons {key : String} {e : Happening} {l : Log} {response : ArchivedResponse}
    (h : archived key (e :: l) = some response) :
    archives e = some (key, response) ∨ archived key l = some response := by
  unfold archived at h
  split at h
  · rename_i key' response' he
    split_ifs at h with hk
    · subst hk
      cases h
      exact .inl he
    · exact .inr h
  · exact .inr h

/-- A write archives nothing. -/
theorem archived_of_hit {key : String} {e : Happening} {l : Log} {response : ArchivedResponse}
    {op : DaoOp} (he : hit e = some op) (h : archived key (e :: l) = some response) :
    archived key l = some response := by
  refine (archived_cons h).resolve_left fun ha => ?_
  unfold hit at he
  split at he
  · cases ha
  · cases he

/-- Only the inline submission archives what is no success. -/
theorem archives_allowed {b : Book} {u : ℕ} {o : Op} {r : Except Exn o.Ans} {key : String}
    {response : ArchivedResponse} (hb : b.Allows o)
    (h : archives (.act u o r) = some (key, response)) :
    b.kind.any Work.submitsInline = true ∨ response.good := by
  unfold archives at h
  split at h
  · rename_i he
    cases he
    cases h
    exact hb
  · cases h

def ArchivedResponse.fields (r : ArchivedResponse) : Json.Fields :=
  [("status", .int r.status), ("body", r.body.getD .null), ("pending", .bool r.pending)]

/-- What `accept_create` stores before the task is submitted. -/
def pendingFields : Json.Fields := [("status", .null), ("body", .null), ("pending", .bool true)]

/-- What the store holds under the key after the log. -/
def stored (key : String) (l : Log) : Json.Fields :=
  (archived key l).elim pendingFields ArchivedResponse.fields

/-- `_replay_or_conflict`, where `read` is what the store gives for a key. -/
def replayAnswer (existing : AsyncTask) (digest : String) (read : String → Except Exn Json) :
    Option AcceptResult :=
  match replayOrConflict existing digest with
  | .op (.getJson key) k =>
      match k (read key) with
      | .pure result => some result
      | _ => none
  | _ => none

theorem replayAnswer_eq {digest : String} {read : String → Except Exn Json}
    (h : conflicts row digest = false) :
    replayAnswer row digest read = some (replayResult row
      (match read (responseRef row) with
        | .ok (.obj fields) => fields
        | _ => [])) := by
  unfold replayAnswer replayOrConflict
  rw [if_neg (by simp [h])]
  simp only [askAccept, Prog.perform, Prog.tryCatch, Prog.bind_eq, Prog.bind]
  rcases read (responseRef row) with x | doc
  · rfl
  · cases doc <;> rfl

/-- The result is a success or pending, and names the task. -/
structure ShowsTask (row : AsyncTask) (result : AcceptResult) : Prop where
  taskId : result.taskId = row.taskId
  header : ("X-AG-Task-Id", row.taskId) ∈ result.headers
  replayed : result.replayed = true
  status : 200 ≤ result.httpStatus ∧ result.httpStatus < 300

theorem showsTask_pending {fields : Json.Fields}
    (h : fields = [] ∨ (fields.lookup "pending").any Json.truthy = true) :
    ShowsTask row (replayResult row fields) := by
  unfold replayResult
  rw [if_pos h]
  exact ⟨rfl, by simp, rfl, by simp⟩

theorem showsTask_of_good {r : ArchivedResponse} (h : r.good) :
    ShowsTask row (replayResult row r.fields) := by
  by_cases hp : (r.fields.lookup "pending").any Json.truthy = true
  · exact showsTask_pending (.inr hp)
  · have hstatus : 200 ≤ r.status ∧ r.status < 300 := by
      refine h.resolve_left fun hpend => hp ?_
      simp [ArchivedResponse.fields, List.lookup_cons, hpend, Json.truthy]
    have hs : storedStatus r.fields = r.status := by
      have hne : r.status ≠ 0 := by omega
      simp [storedStatus, ArchivedResponse.fields, hne]
    unfold replayResult
    rw [if_neg (by simpa [ArchivedResponse.fields] using hp)]
    exact ⟨rfl, by simp, rfl, by rw [hs]; exact hstatus⟩

/-! ### The key of the archive -/

/-- The attributes name no other key. -/
def Refers (key : String) (attributes : Option Json.Fields) : Prop :=
  (attributes.getD []).lookup refAttribute = none ∨
    (attributes.getD []).lookup refAttribute = some (.str key)

theorem responseRef_of_refers
    (h : Refers (responseKey row.tenant row.taskId) row.attributes) :
    responseRef row = responseKey row.tenant row.taskId := by
  unfold responseRef
  simp only [Refers, refAttribute] at h
  rcases h with h | h <;> rw [h]
  simp

/-- A careful write names no other key. -/
theorem refers_run {key : String} {l : Local} {b : Book} {op : DaoOp}
    (h : Refers key row.attributes) (hread : ∀ read, b.read = some read → Refers key read)
    (ha : AllowedWrite C t l op) (hc : Careful b op) (hr : op.run now row = .ok (some row')) :
    Refers key row'.attributes := by
  have same : row'.attributes = row.attributes → Refers key row'.attributes := fun he => he ▸ h
  have hattr := DaoOp.attributes_run hr
  cases op with
  | advance dst expected values =>
      obtain ⟨-, -, rfl⟩ := advance_eq_some hr
      exact same (hc now (row.touch now)).1
  | relocateCompensate upstreamTaskId target rawStatus snapshot nextPollAt note =>
      -- the note replaces the attributes, and names no key
      rw [hattr]
      change Refers key (((nonEmpty note).map fun n =>
        some [("compensate_note", Json.str n)]).getD row.attributes)
      cases nonEmpty note with
      | none => exact h
      | some n => exact .inl rfl
  | releaseSubmitIntent expected nextPollAt decrement code message retryable attributes deadline =>
      obtain ⟨rfl, -⟩ := ha
      exact same hattr
  | noteAttribute read attributes =>
      obtain ⟨hb, hnames⟩ := hc
      have hu := Json.lookup_update (d := read.getD []) hnames
      rw [hattr]
      exact (hread read hb).imp hu.trans hu.trans
  | scheduleTransferRetry nextPollAt attempts =>
      rw [hattr]
      exact .inl rfl
  | _ => exact same hattr

/-- What a handler has read of the attributes is what the row had. -/
theorem Book.read_next {b : Book} {o : Op} {γ : Choice} {r : Except Exn o.Ans}
    {read : Option Json.Fields} (hr : reply row o γ = some (r, row'))
    (h : (b.next C o r).read = some read) : b.read = some read ∨ read = row.attributes := by
  by_cases ho : o = .readAttributes
  · subst ho
    obtain ⟨time, answer⟩ := γ
    cases answer <;> simp only [reply] at hr <;> cases hr
    · exact .inr (Option.some.inj h).symm
    · exact .inl h
  · refine .inl ?_
    rw [← h]
    unfold Book.next
    split <;> first | rfl | exact absurd rfl ho | (split <;> rfl)

/-! ### Ids and archived errors -/

/-- A write that gives the task an upstream id. -/
def DaoOp.givesId : DaoOp → Bool
  | .markSubmitted _ _ _ _ _ => true
  | .relocateCompensate upstreamTaskId target _ _ _ _ =>
      upstreamTaskId.isSome && decide (target = upstreamSubmitted)
  | _ => false

/-- **No error is archived for a task that is created**: a task is given its id over no archived
error, and an inline submission archives no error of a task that has one. -/
def replaysWell (C : Container) (t : ResolvedTemplate) : (gateway C t).Condition :=
  fun w l u o r =>
    (∀ op, hit (.act u o r) = some op → op.givesId = true → w.row.upstreamTaskId = none →
      ∀ response, archived (responseRef w.row) l = some response → response.good) ∧
    ((book C t l u).kind.any Work.submitsInline = true → w.row.upstreamTaskId ≠ none →
      ∀ response, archives (.act u o r) = some (responseRef w.row, response) → response.good)

/-- A task gets its id from a write that gives it one, and keeps it. -/
theorem Change.gives {op : DaoOp} (h : Change row row' op) :
    (row.upstreamTaskId ≠ none → row'.upstreamTaskId ≠ none) ∧
      (row'.upstreamTaskId ≠ none → row.upstreamTaskId ≠ none ∨ op.givesId = true) := by
  have kept : row'.upstreamTaskId = row.upstreamTaskId →
      (row.upstreamTaskId ≠ none → row'.upstreamTaskId ≠ none) ∧
        (row'.upstreamTaskId ≠ none → row.upstreamTaskId ≠ none ∨ op.givesId = true) :=
    fun he => ⟨fun hn => he ▸ hn, fun hn => .inl (he ▸ hn)⟩
  cases h with
  | claimed src unclaimed dst submission reported =>
      exact kept (congrArg Submission.upstreamTaskId submission)
  | submitted src held dst submission reported =>
      have hid : row'.upstreamTaskId = _ := congrArg Submission.upstreamTaskId submission
      exact ⟨fun _ => by simp [hid], fun _ => .inr rfl⟩
  | released src dst submission reported =>
      exact kept (congrArg Submission.upstreamTaskId submission)
  | reopened src dst submission reported =>
      exact kept (congrArg Submission.upstreamTaskId submission)
  | moved edge src dst closed submission reported =>
      exact kept (congrArg Submission.upstreamTaskId submission)
  | doubted src dst submission reported =>
      exact kept (congrArg Submission.upstreamTaskId submission)
  | relocated src given dst submission reported =>
      have hid : row'.upstreamTaskId = _ := congrArg Submission.upstreamTaskId submission
      exact ⟨fun _ => by simp [hid], fun _ => .inr rfl⟩
  | flagged src dst submission reported =>
      exact kept (congrArg Submission.upstreamTaskId submission)
  | recorded src dst submission reported =>
      exact kept (congrArg Submission.upstreamTaskId submission)
  | kept still dst submission reported =>
      exact kept (congrArg Submission.upstreamTaskId submission)

/-- The archive answers for the task under the key. -/
structure Replayable (C : Container) (t : ResolvedTemplate) (key : String) (w : World) (l : Log) :
    Prop where
  named : responseKey w.row.tenant w.row.taskId = key
  refers : Refers key w.row.attributes
  read : ∀ u read, (book C t l u).read = some read → Refers key read
  good : w.row.upstreamTaskId ≠ none → ∀ response, archived key l = some response → response.good

namespace Replayable

variable {key : String} {w w' : World} {l : Log}

theorem ref (h : Replayable C t key w l) : responseRef w.row = key := by
  rw [responseRef_of_refers (h.named.symm ▸ h.refers), h.named]

theorem act {u : ℕ} {o : Op} {γ : Choice} {r : Except Exn o.Ans} (h : Replayable C t key w l)
    (ha : Allowed C t (phase C t l u) o) (hb : (book C t l u).Allows o)
    (hr : respond w o γ = some (r, w')) (hg : replaysWell C t w l u o r) :
    Replayable C t key w' (.act u o r :: l) := by
  have hread : ∀ v read, (book C t (.act u o r :: l) v).read = some read → Refers key read := by
    refine forall_book (Q := fun _ b => ∀ read, b.read = some read → Refers key read)
      (fun read hv => ?_) fun v _ => h.read v
    rcases Book.read_next (respond_eq_some hr) hv with hv | rfl
    · exact h.read u read hv
    · exact h.refers
  obtain ⟨hn, hrow⟩ | ⟨op, now, hh, hrun, hw, hc, hch, -⟩ := timed_move (u := u) ha hb hr
  · refine ⟨hrow ▸ h.named, hrow ▸ h.refers, hread, fun hid response harch => ?_⟩
    rw [hrow] at hid
    rcases archived_cons harch with he | harch
    · rcases archives_allowed hb he with hκ | hgood
      · exact hg.2 hκ hid response (h.ref ▸ he)
      · exact hgood
    · exact h.good hid response harch
  · have hkeys := congrArg Keys.taskId (DaoOp.keys_run hrun)
    have hidentity := congrArg Identity.tenant (identity_run hw hrun)
    refine ⟨?_, refers_run h.refers (h.read u) hw hc hrun, hread, fun hid response harch => ?_⟩
    · rw [show w'.row.taskId = w.row.taskId from hkeys,
        show w'.row.tenant = w.row.tenant from hidentity, h.named]
    · have harch := archived_of_hit hh harch
      by_cases hrow : w.row.upstreamTaskId = none
      · have hgives := (hch.gives.2 hid).resolve_left (by simp [hrow])
        exact hg.1 op hh hgives hrow response (h.ref.symm ▸ harch)
      · exact h.good hrow response harch

end Replayable

section Runs

variable {key : String} {w : World} {c c' : Config (gateway C t)}

theorem replayable_run (hw : Inserted w.row) (hn : responseKey w.row.tenant w.row.taskId = key)
    (href : Refers key w.row.attributes) (h : Run (replaysWell C t) ((gateway C t).initial w) c) :
    Replayable C t key c.world c.log := by
  refine conduct_invariant (Replayable C t key)
    ⟨hn, href, fun _ _ hr => (nomatch hr), fun hid => absurd hw.upstreamTaskId hid⟩ ?_
    (fun w l u o γ r w' hi ha hb hr hg => hi.act ha hb hr hg) ?_ h
  · intro w l u κ _ hi
    refine ⟨hi.named, hi.refers, ?_, hi.good⟩
    exact forall_book (Q := fun _ b => ∀ read, b.read = some read → Refers key read)
      (fun read hv => by cases hv) fun v _ => hi.read v
  · intro w l u hi
    refine ⟨hi.named, hi.refers, ?_, hi.good⟩
    exact forall_book (Q := fun _ b => ∀ read, b.read = some read → Refers key read)
      (hi.read u) fun v _ => hi.read v

/-- A task that has its id keeps one. -/
theorem id_run {G : (gateway C t).Condition} (h : Run G ((gateway C t).initial w) c)
    (hid : c.world.row.upstreamTaskId ≠ none) (h' : Run G c c') :
    c'.world.row.upstreamTaskId ≠ none := by
  refine Run.invariant (M := gateway C t) (fun w _ => w.row.upstreamTaskId ≠ none) follows_conduct
    (keeps_conduct h) hid (fun _ _ _ _ _ hi => hi) ?_ (fun _ _ _ hi => hi) h'
  intro w l u o γ r w' hi ha hr _
  rw [Protocol.after_both] at ha
  obtain ⟨-, hrow⟩ | ⟨op, -, -, hch, -⟩ := move_cases (u := u) ha.1 hr
  · exact hrow ▸ hi
  · exact hch.gives.1 hi

/-- **A replay of a task that was created shows the task.**  In every run in which no error is
archived for a task that is created: once the task has its id, a replay that found its row is
answered with a success or as pending, whenever it reads the archive and whether or not it can. -/
theorem replay_of_created (hw : Inserted w.row)
    (href : Refers (responseKey w.row.tenant w.row.taskId) w.row.attributes)
    (h : Run (replaysWell C t) ((gateway C t).initial w) c)
    (hid : c.world.row.upstreamTaskId ≠ none) (h' : Run (replaysWell C t) c c') {digest : String}
    (hd : conflicts c.world.row digest = false) {read : String → Except Exn Json}
    (hread : ∀ key, read key = .ok (.obj (stored key c'.log)) ∨ ∃ x, read key = .error x) :
    ∃ result, replayAnswer c.world.row digest read = some result ∧
      ShowsTask c.world.row result := by
  have hc := replayable_run hw rfl href h
  have hc' := replayable_run hw rfl href (h.trans h')
  refine ⟨_, replayAnswer_eq hd, ?_⟩
  rw [hc.ref]
  rcases hread (responseKey w.row.tenant w.row.taskId) with hr | ⟨x, hr⟩ <;> rw [hr]
  · cases ha : archived (responseKey w.row.tenant w.row.taskId) c'.log with
    | none => exact showsTask_pending (.inr (by simp only [stored, ha]; rfl))
    | some response =>
        simp only [stored, ha]
        exact showsTask_of_good (hc'.good (id_run h hid h') response ha)
  · exact showsTask_pending (.inl rfl)

end Runs

/-! ### Runs of the sample gateway -/

/-- The sample row, with the attributes an acceptance gives it. -/
def acceptedRow : AsyncTask :=
  { sampleRow with
    attributes := some [(refAttribute, .str (responseKey sampleRow.tenant sampleRow.taskId))] }

theorem inserted_acceptedRow : Inserted acceptedRow := ⟨rfl, rfl, rfl, rfl, rfl, rfl, rfl, rfl⟩

/-- The create call of an inline submission times out, and the caller is told so; then the upstream
says that the task was created. -/
def createdAfterAll {t : ResolvedTemplate} : Script t :=
  .spawn (.inlineSubmit ⟨"task", "channel", "tenant", some "key", []⟩) ::
    goesOn 0 0 [.done, .slot ⟨true, none⟩, .done, .text none, .done,
      .upstream (.error ⟨.timeoutException, "ReadTimeout"⟩), .done, .done, .done, .done, .done,
      .done, .done] ++
    .spawn .compensateOrphan :: goesOn 1 0 [.done, .done, .text (some "key"), .text none, .done,
      answers (.obj [("id", .str "upstream")]), .done, .done, .done]

/-- What a replay of the sample request is answered with. -/
def replayed (c : Config (gateway (sampleContainer t) t)) : Option AcceptResult :=
  replayAnswer c.world.row "digest" fun key => .ok (.obj (stored key c.log))

/-- The replay is answered with the timeout, though the task is at work upstream. -/
theorem stale_failure_replayed :
    ∃ c, Run (gateway (sampleContainer sampleTemplate) sampleTemplate).anything
        (sampleStart sampleTemplate acceptedRow) c ∧
      c.world.row.upstreamTaskId = some "upstream" ∧ conflicts c.world.row "digest" = false ∧
      ∃ result, replayed c = some result ∧ result.httpStatus = 504 ∧
        ¬ ShowsTask c.world.row result := by
  obtain ⟨c, hrun, hc⟩ := reached (t := sampleTemplate) acceptedRow createdAfterAll
    (fun _ _ _ _ _ => true)
    (fun c => decide (c.world.row.upstreamTaskId = some "upstream" ∧
      conflicts c.world.row "digest" = false) &&
        (replayed c).any fun (result : AcceptResult) => decide (result.httpStatus = 504))
    (fun _ _ _ _ _ _ => trivial) (by decide +kernel)
  simp only [Bool.and_eq_true, decide_eq_true_eq, Option.any_eq_true] at hc
  obtain ⟨⟨hid, hd⟩, result, hr, hs⟩ := hc
  exact ⟨c, hrun, hid, hd, result, hr, hs, fun h => by simpa [hs] using h.status.2⟩

instance (r : ArchivedResponse) : Decidable r.good :=
  inferInstanceAs (Decidable (_ ∨ _ ∧ _))

/-- The check of `replaysWell`. -/
def replaysWellCheck (C : Container) (t : ResolvedTemplate) : (gateway C t).Check :=
  fun w l u o r =>
    ((hit (.act u o r)).all fun op => !op.givesId ||
      (archived (responseRef w.row) l).all fun response => decide response.good) &&
    (archives (.act u o r)).all fun stored => decide stored.2.good

theorem replaysWell_of_check {w : World} {l : Log} {u : ℕ} {o : Op} {r : Except Exn o.Ans}
    (h : replaysWellCheck C t w l u o r = true) : replaysWell C t w l u o r := by
  simp only [replaysWellCheck, Bool.and_eq_true, Option.all_eq_true, decide_eq_true_eq,
    Bool.or_eq_true, Bool.not_eq_true'] at h
  exact ⟨fun op hop hg _ response hr => (h.1 op hop).resolve_left (by simp [hg]) response hr,
    fun _ _ response hr => h.2 _ hr⟩

theorem replay_of_created_sample :
    ∃ c, Run (replaysWell (sampleContainer sampleTemplate) sampleTemplate)
        (sampleStart sampleTemplate acceptedRow) c ∧
      archived (responseRef c.world.row) c.log ≠ none ∧
      ∃ result, replayed c = some result ∧ ShowsTask c.world.row result := by
  obtain ⟨c, hrun, hc⟩ := reached (t := sampleTemplate) acceptedRow (created [])
    (replaysWellCheck _ _)
    (fun c => decide (c.world.row.upstreamTaskId = some "upstream" ∧
      conflicts c.world.row "digest" = false) && (archived (responseRef c.world.row) c.log).isSome)
    (fun _ _ _ _ _ => replaysWell_of_check) (by decide +kernel)
  simp only [Bool.and_eq_true, decide_eq_true_eq] at hc
  obtain ⟨⟨hid, hd⟩, ha⟩ := hc
  exact ⟨c, hrun, Option.isSome_iff_ne_none.mp ha, replay_of_created inserted_acceptedRow (.inr rfl)
    hrun (by simp [hid]) .refl hd fun _ => .inl rfl⟩

end AsyncGateway
