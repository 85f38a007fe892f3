import AsyncGateway.Db.Audit
import AsyncGateway.Lib.Pool

/-!
# System — the audit chain under concurrent appends

Any number of transactions append to `audit_event`, interleaved at every statement.  A session sees
the committed rows and its own (`visible`), a row has its id from the sequence when it is flushed,
and a commit publishes the rows of its session.  `append` reads the row with the greatest id it
sees; nothing keeps another transaction from committing before its own commit.

Where no other commit comes between a session's first read and its commit, the committed rows are
a chain at every moment (`chain_of_commitsOnTail`).  Two sessions that read the same last row both
commit, and the chain is broken (`concurrent_appends_break_the_chain`).
-/

namespace AsyncGateway

open Interleave (Sig Prog Protocol Machine Run Keeps Config Move Event Leads Follows)

/-! ### `AuditWriter.append` in a session -/

/-- The statements of a session; `own` are the rows it flushed. -/
inductive AuditOp : Type where
  /-- `select(AuditEvent).order_by(AuditEvent.id.desc()).limit(1)`. -/
  | tail (own : List AuditRow)
  /-- `datetime.now(UTC)`. -/
  | now
  /-- `add` and `flush`: the id of the row. -/
  | flush (record : AuditRecord)
  | commit (own : List AuditRow)

def AuditOp.Ans : AuditOp → Type
  | .tail _ => Option AuditRow
  | .now => Datetime
  | .flush _ => ℕ
  | .commit _ => Unit

def auditSig : Sig := ⟨AuditOp, AuditOp.Ans⟩

/-- The arguments of `append`. -/
structure Append where
  eventType : String
  actor : String
  actorRole : Option String := none
  subjectType : Option String := none
  subjectId : Option String := none
  payload : Option Json := none
  refs : Option Json.Fields := none
  detail : Option String := none

section Body

variable (sha256 : String → String)

/-- The row `append` makes after the row `prev`. -/
def Append.record (a : Append) (prev : Option AuditRow) (createdAt : Datetime) : AuditRecord :=
  let payloadDigest := a.payload.map (digestOf sha256)
  let prevHash := prev.map (·.hash)
  { eventType := a.eventType
    actor := a.actor
    actorRole := a.actorRole
    subjectType := a.subjectType
    subjectId := a.subjectId
    payloadDigest := payloadDigest
    refs := a.refs
    detail := a.detail
    prevHash := prevHash
    hash := computeHash sha256 a.eventType a.actor a.subjectId payloadDigest prevHash createdAt
    createdAt := createdAt }

/-- `AuditWriter.append`: the rows of the session with the new one. -/
def append (own : List AuditRow) (a : Append) : Prog auditSig Exn (List AuditRow) := do
  let prev : Option AuditRow ← Prog.perform (S := auditSig) (.tail own)
  let createdAt : Datetime ← Prog.perform (S := auditSig) .now
  let record := a.record sha256 prev createdAt
  let id : ℕ ← Prog.perform (S := auditSig) (.flush record)
  pure (own ++ [⟨record, id⟩])

def appendAll (own : List AuditRow) : List Append → Prog auditSig Exn (List AuditRow)
  | [] => pure own
  | a :: as => do
      let own ← append sha256 own a
      appendAll own as

/-- A transaction that appends, under `session_scope`. -/
def auditSession (appends : List Append) : Prog auditSig Exn Unit := do
  let own ← appendAll sha256 [] appends
  Prog.perform (S := auditSig) (.commit own)

end Body

/-! ### The table -/

/-- The committed rows, in the order of their commits, and the next id of the sequence. -/
structure AuditWorld where
  committed : List AuditRow
  nextId : ℕ

/-- How the database answers. -/
inductive AuditChoice : Type where
  | answers (now : Datetime)
  /-- The statement fails, after it was done or before. -/
  | fails (done : Bool) (message : String)

/-- The row with the greatest id. -/
def lastById (rows : List AuditRow) : Option AuditRow := (byId rows).getLast?

namespace AuditWorld

/-- What a statement does. -/
def after (w : AuditWorld) : AuditOp → AuditWorld
  | .flush _ => { w with nextId := w.nextId + 1 }
  | .commit own => { w with committed := w.committed ++ own }
  | _ => w

def answer (w : AuditWorld) (now : Datetime) : (o : AuditOp) → o.Ans
  | .tail own => lastById (w.committed ++ own)
  | .now => now
  | .flush _ => w.nextId
  | .commit _ => ()

def respond (w : AuditWorld) (o : AuditOp) : AuditChoice → Option (Except Exn o.Ans × AuditWorld)
  | .answers now => some (.ok (w.answer now o), w.after o)
  | .fails done message =>
      some (.error (.infrastructure message), if done then w.after o else w)

end AuditWorld

/-- Sessions that append, each a list of appends, over one table. -/
def auditing (sha256 : String → String) : Machine auditSig Exn where
  Kind := List Append
  body := auditSession sha256
  World := AuditWorld
  Choice := AuditChoice
  respond := AuditWorld.respond

def emptyAudit (sha256 : String → String) : Config (auditing sha256) :=
  (auditing sha256).initial ⟨[], 1⟩

/-! ### What a session did so far -/

/-- The rows a session flushed, what its first read of the last row gave, and what the last one
gave where nothing was flushed since. -/
structure SessionState where
  own : List AuditRow
  first : Option (Option AuditRow)
  pending : Option (Option AuditRow)

def SessionState.fresh : SessionState := ⟨[], none, none⟩

/-- The row says that it follows `prev`. -/
def AuditRecord.Follows (sha256 : String → String) (r : AuditRecord) (prev : Option AuditRow) :
    Prop :=
  r.prevHash = prev.map (·.hash) ∧ r.hash = r.expected sha256 (prev.map (·.hash))

/-- The order of the statements of a session. -/
def sessions (sha256 : String → String) : Protocol auditSig Exn (List Append) where
  State := SessionState
  start _ := .fresh
  idle := .fresh
  gone _ := .fresh
  allows m
    | .tail own => own = m.own
    | .now => True
    | .flush record => ∃ prev, m.pending = some prev ∧ record.Follows sha256 prev
    | .commit own => own = m.own
  next m
    | .tail _, .ok row => { m with first := m.first.or (some row), pending := some row }
    | .flush record, .ok id => { m with own := m.own ++ [⟨record, id⟩], pending := none }
    | .commit _, _ => .fresh
    | _, _ => m
  done _ := True
  done_idle := trivial
  done_gone _ := trivial

section Keeping

variable {sha256 : String → String}

theorem append_record_follows (a : Append) (prev : Option AuditRow) (createdAt : Datetime) :
    (a.record sha256 prev createdAt).Follows sha256 prev := ⟨rfl, rfl⟩

theorem append_leads (own : List AuditRow) (a : Append) (m : SessionState) (hm : m.own = own) :
    Leads (sessions sha256) (append sha256 own a) m fun own' m' => m'.own = own' := by
  subst hm
  refine .bind (.perform rfl fun prev => .bind (.perform trivial fun createdAt =>
    .bind (.perform ⟨prev, rfl, append_record_follows a prev createdAt⟩ fun id => .pure ?_)))
  rfl

theorem appendAll_leads (as : List Append) (own : List AuditRow) (m : SessionState)
    (hm : m.own = own) :
    Leads (sessions sha256) (appendAll sha256 own as) m fun own' m' => m'.own = own' := by
  induction as generalizing own m with
  | nil => exact .pure hm
  | cons a as ih => exact .bind ((append_leads own a m hm).mono fun own' m' h => ih own' m' h)

/-- A session keeps to the order of its statements. -/
theorem auditSession_follows (appends : List Append) :
    Follows (sessions sha256) (auditSession sha256 appends) .fresh :=
  .bind ((appendAll_leads appends [] .fresh rfl).mono fun _ _ h => .perform h.symm fun _ => trivial)

end Keeping

/-- Where the log has the session of program `t`. -/
def sessionState (sha256 : String → String) (l : (auditing sha256).Log) (t : ℕ) : SessionState :=
  Protocol.after (M := auditing sha256) (sessions sha256) l t

/-! ### Runs without a commit in between -/

/-- **A session with rows commits while the last committed row is the one its first read gave.** -/
def CommitsOnTail (sha256 : String → String) : (auditing sha256).Condition := fun w l t o _ =>
  match o with
  | .commit own => own ≠ [] →
      (sessionState sha256 l t).first = some (lastById (AuditWorld.committed w))
  | _ => True

/-- Ascending by id. -/
def Ascending (rows : List AuditRow) : Prop := rows.Pairwise fun a b => a.id < b.id

theorem Ascending.byId_eq {rows : List AuditRow} (h : Ascending rows) : byId rows = rows :=
  List.Pairwise.insertionSort_eq (h.imp fun hlt => Nat.le_of_lt hlt)

theorem Ascending.lastById_eq {rows : List AuditRow} (h : Ascending rows) :
    lastById rows = rows.getLast? := by rw [lastById, h.byId_eq]

theorem ascending_concat {rows : List AuditRow} {row : AuditRow} (h : Ascending rows)
    (hr : ∀ a ∈ rows, a.id < row.id) : Ascending (rows ++ [row]) :=
  List.pairwise_append.mpr ⟨h, List.pairwise_singleton _ _, by simpa using hr⟩

/-- The rows continue the chain. -/
def ChainedRows (sha256 : String → String) (p : Option AuditRow) (rows : List AuditRow) : Prop :=
  (auditChain sha256).Chained (p.map (·.hash)) (rows.map (·.toAuditRecord))

section Invariant

variable {sha256 : String → String} {w w' : AuditWorld} {m : SessionState}

theorem ending_rows (p : Option AuditRow) (rows : List AuditRow) :
    (auditChain sha256).ending (p.map (·.hash)) (rows.map (·.toAuditRecord)) =
      (rows.getLast?.or p).map (·.hash) := by
  rcases List.eq_nil_or_concat rows with rfl | ⟨rows, row, rfl⟩
  · simp
  · simp [auditChain]

theorem chainedRows_append {p : Option AuditRow} {rows rows' : List AuditRow} :
    ChainedRows sha256 p (rows ++ rows') ↔
      ChainedRows sha256 p rows ∧ ChainedRows sha256 (rows.getLast?.or p) rows' := by
  rw [ChainedRows, List.map_append, Interleave.HashChain.chained_append, ending_rows]
  rfl

theorem chainedRows_singleton {p : Option AuditRow} {record : AuditRecord} {id : ℕ}
    (h : record.Follows sha256 p) : ChainedRows sha256 p [⟨record, id⟩] :=
  ⟨h.1, h.2, trivial⟩

/-- What is known of a session that is under way. -/
structure SessionState.Sound (sha256 : String → String) (w : AuditWorld) (m : SessionState) :
    Prop where
  unread : m.first = none → m.own = [] ∧ m.pending = none
  seen : ∀ row, m.first = some (some row) → row ∈ w.committed
  bound : ∀ row ∈ m.own, row.id < w.nextId
  /-- As long as the last committed row is the one first read, the rows continue its chain. -/
  current : m.first = some w.committed.getLast? →
    Ascending (w.committed ++ m.own) ∧ ChainedRows sha256 w.committed.getLast? m.own ∧
      ∀ prev, m.pending = some prev → prev = (w.committed ++ m.own).getLast?

theorem sound_fresh : SessionState.Sound sha256 w .fresh :=
  ⟨fun _ => ⟨rfl, rfl⟩, fun _ h => (by cases h), fun _ h => absurd h List.not_mem_nil,
    fun h => (by cases h)⟩

namespace SessionState.Sound

/-- Another session's flush. -/
theorem tick (h : m.Sound sha256 w) : m.Sound sha256 { w with nextId := w.nextId + 1 } :=
  ⟨h.unread, h.seen, fun row hr => Nat.lt_succ_of_lt (h.bound row hr), h.current⟩

/-- Another session's commit. -/
theorem commit (h : m.Sound sha256 w) {own : List AuditRow} (ha : Ascending (w.committed ++ own)) :
    m.Sound sha256 { w with committed := w.committed ++ own } := by
  refine ⟨h.unread, fun row hr => List.mem_append_left _ (h.seen row hr), h.bound, fun hf => ?_⟩
  rcases List.eq_nil_or_concat own with rfl | ⟨rows, last, rfl⟩
  · simpa using h.current (by simpa using hf)
  -- the row first read was committed before, and the last row is newer
  · have hlast : last ∈ w.committed := h.seen last (by simpa using hf)
    have := (List.pairwise_append.mp ha).2.2 last hlast last (by simp)
    exact absurd this (Nat.lt_irrefl _)

/-- The session reads the last row it sees. -/
theorem tail (h : m.Sound sha256 w) (hs : Ascending w.committed) :
    SessionState.Sound sha256 w
      { m with first := m.first.or (some (lastById (w.committed ++ m.own))),
               pending := some (lastById (w.committed ++ m.own)) } := by
  cases hf : m.first with
  | none =>
      obtain ⟨hown, -⟩ := h.unread hf
      have hl : lastById (w.committed ++ m.own) = w.committed.getLast? := by
        rw [hown, List.append_nil, hs.lastById_eq]
      refine ⟨fun hn => by simp at hn, fun row hr => ?_, h.bound, fun _ => ?_⟩
      · exact List.mem_of_getLast? (hl.symm.trans (by simpa using hr))
      · rw [hl, hown, List.append_nil]
        exact ⟨hs, trivial, by simp⟩
  | some a =>
      refine ⟨fun hn => by simp at hn, fun row hr => h.seen row (hf.trans hr), h.bound,
        fun hc => ?_⟩
      obtain ⟨ha, hch, -⟩ := h.current (hf.trans hc)
      exact ⟨ha, hch, fun prev hp => by rw [← ha.lastById_eq]; exact (Option.some.inj hp).symm⟩

/-- The session flushes a row that follows the one it read. -/
theorem flush (h : m.Sound sha256 w) (hb : ∀ row ∈ w.committed, row.id < w.nextId)
    {record : AuditRecord} {prev : Option AuditRow} (hp : m.pending = some prev)
    (hr : record.Follows sha256 prev) :
    SessionState.Sound sha256 { w with nextId := w.nextId + 1 }
      { m with own := m.own ++ [⟨record, w.nextId⟩], pending := none } := by
  refine ⟨fun hn => ?_, h.seen, fun row hrow => ?_, fun hc => ?_⟩
  · have := (h.unread hn).2
    rw [hp] at this
    cases this
  · rcases List.mem_append.mp hrow with hrow | hrow
    · exact Nat.lt_succ_of_lt (h.bound row hrow)
    · obtain rfl := List.mem_singleton.mp hrow
      exact Nat.lt_succ_self _
  · obtain ⟨ha, hch, hpend⟩ := h.current hc
    have hlast := hpend prev hp
    refine ⟨?_, ?_, fun prev hprev => by cases hprev⟩
    · rw [← List.append_assoc]
      refine ascending_concat ha fun row hrow => ?_
      rcases List.mem_append.mp hrow with hrow | hrow
      · exact hb row hrow
      · exact h.bound row hrow
    · refine chainedRows_append.mpr ⟨hch, chainedRows_singleton ?_⟩
      rw [← List.getLast?_append, ← hlast]
      exact hr

end SessionState.Sound

/-- What every run without a commit in between keeps. -/
structure Unbroken (sha256 : String → String) (w : AuditWorld) (l : (auditing sha256).Log) :
    Prop where
  ascending : Ascending w.committed
  bound : ∀ row ∈ w.committed, row.id < w.nextId
  chained : ChainedRows sha256 none w.committed
  sound : ∀ t, (sessionState sha256 l t).Sound sha256 w

namespace Unbroken

variable {l : (auditing sha256).Log} {t : ℕ}

/-- What an operation leaves of the sessions, its own and the others. -/
theorem sound_act {o : AuditOp} {r : Except Exn o.Ans}
    (hself : SessionState.Sound sha256 w ((sessions sha256).next (sessionState sha256 l t) o r))
    (hothers : ∀ u ≠ t, (sessionState sha256 l u).Sound sha256 w) :
    ∀ u, (sessionState sha256 (.act t o r :: l) u).Sound sha256 w :=
  Protocol.forall_after (P := sessions sha256) (M := auditing sha256)
    (Q := fun _ m => m.Sound sha256 w) hself hothers

theorem tail (h : Unbroken sha256 w l) {own : List AuditRow}
    (ha : own = (sessionState sha256 l t).own) {r : Except Exn (Option AuditRow)}
    (hr : ∀ row, r = .ok row → row = lastById (w.committed ++ own)) :
    Unbroken sha256 w (.act t (.tail own) r :: l) := by
  refine ⟨h.ascending, h.bound, h.chained, sound_act (o := .tail own) ?_ fun u _ => h.sound u⟩
  cases r with
  | error x => exact h.sound t
  | ok row =>
      obtain rfl := hr row rfl
      subst ha
      exact (h.sound t).tail h.ascending

theorem now (h : Unbroken sha256 w l) (r : Except Exn Datetime) :
    Unbroken sha256 w (.act t .now r :: l) := by
  refine ⟨h.ascending, h.bound, h.chained, sound_act (o := .now) ?_ fun u _ => h.sound u⟩
  cases r <;> exact h.sound t

theorem tick (h : Unbroken sha256 w l) :
    Unbroken sha256 { w with nextId := w.nextId + 1 } l :=
  ⟨h.ascending, fun row hr => Nat.lt_succ_of_lt (h.bound row hr), h.chained,
    fun u => (h.sound u).tick⟩

theorem flush (h : Unbroken sha256 w l) {record : AuditRecord}
    (ha : ∃ prev, (sessionState sha256 l t).pending = some prev ∧ record.Follows sha256 prev) :
    Unbroken sha256 { w with nextId := w.nextId + 1 }
      (.act t (.flush record) (.ok w.nextId) :: l) := by
  obtain ⟨prev, hp, hr⟩ := ha
  have ht := h.tick
  exact ⟨ht.ascending, ht.bound, ht.chained,
    sound_act (o := .flush record) ((h.sound t).flush h.bound hp hr) fun u _ => ht.sound u⟩

theorem flush_failed (h : Unbroken sha256 w l) {record : AuditRecord} {x : Exn} :
    Unbroken sha256 w (.act t (.flush record) (.error x) :: l) :=
  ⟨h.ascending, h.bound, h.chained,
    sound_act (o := .flush record) (h.sound t) fun u _ => h.sound u⟩

/-- A commit of a session that was not disturbed. -/
theorem commit (h : Unbroken sha256 w l) {own : List AuditRow} (r : Except Exn Unit)
    (ha : own = (sessionState sha256 l t).own)
    (hg : own ≠ [] → (sessionState sha256 l t).first = some (lastById w.committed)) :
    Unbroken sha256 { w with committed := w.committed ++ own } (.act t (.commit own) r :: l) := by
  subst ha
  by_cases hown : (sessionState sha256 l t).own = []
  · rw [hown, List.append_nil]
    exact ⟨h.ascending, h.bound, h.chained,
      sound_act (o := .commit []) sound_fresh fun u _ => h.sound u⟩
  · have hf := hg hown
    rw [h.ascending.lastById_eq] at hf
    obtain ⟨hasc, hch, -⟩ := (h.sound t).current hf
    refine ⟨hasc, fun row hrow => ?_, chainedRows_append.mpr ⟨h.chained, by simpa using hch⟩,
      sound_act (o := .commit _) sound_fresh fun u _ => (h.sound u).commit hasc⟩
    rcases List.mem_append.mp hrow with hrow | hrow
    · exact h.bound row hrow
    · exact (h.sound t).bound row hrow

/-- A commit that was not done. -/
theorem commit_failed (h : Unbroken sha256 w l) {own : List AuditRow} {x : Exn} :
    Unbroken sha256 w (.act t (.commit own) (.error x) :: l) :=
  ⟨h.ascending, h.bound, h.chained,
    sound_act (o := .commit own) sound_fresh fun u _ => h.sound u⟩

/-- Every statement of a session keeps the chain. -/
theorem act (h : Unbroken sha256 w l) {o : AuditOp} {γ : AuditChoice} {r : Except Exn o.Ans}
    (ha : (sessions sha256).allows (sessionState sha256 l t) o)
    (hw : w.respond o γ = some (r, w')) (hg : CommitsOnTail sha256 w l t o r) :
    Unbroken sha256 w' (.act t o r :: l) := by
  cases γ with
  | answers time =>
      obtain ⟨rfl, rfl⟩ := Prod.mk.inj (Option.some.inj hw)
      cases o with
      | tail own => exact h.tail ha fun row hr => (Except.ok.inj hr).symm
      | now => exact h.now _
      | flush record => exact h.flush ha
      | commit own => exact h.commit _ ha hg
  | fails done message =>
      obtain ⟨rfl, rfl⟩ := Prod.mk.inj (Option.some.inj hw)
      cases o with
      | tail own => cases done <;> exact h.tail ha fun row hr => by cases hr
      | now => cases done <;> exact h.now _
      | flush record =>
          cases done with
          | false => exact h.flush_failed
          | true => exact h.tick.flush_failed
      | commit own =>
          cases done with
          | false => exact h.commit_failed
          | true => exact h.commit _ ha hg

/-- A session that starts, or one that is gone. -/
theorem forget (h : Unbroken sha256 w l) {e : Event auditSig Exn (List Append)}
    (he : (sessions sha256).turn (M := auditing sha256) e (sessionState sha256 l e.thread) =
      .fresh) : Unbroken sha256 w (e :: l) := by
  refine ⟨h.ascending, h.bound, h.chained, ?_⟩
  refine Protocol.forall_after (P := sessions sha256) (M := auditing sha256)
    (Q := fun _ m => m.Sound sha256 w) ?_ fun u _ => h.sound u
  exact (congrArg (SessionState.Sound sha256 w) he).mpr sound_fresh

end Unbroken

/-- **Where no commit comes between, the committed rows are a chain at every moment.** -/
theorem chain_of_commitsOnTail (sha256 : String → String) {c : Config (auditing sha256)}
    (h : Run (CommitsOnTail sha256) (emptyAudit sha256) c) (limit : ℕ) :
    verifyChain sha256 limit c.world.committed = (true, none) := by
  have hinv : Unbroken sha256 c.world c.log := by
    refine Run.invariant (P := sessions sha256) (Unbroken sha256)
      auditSession_follows (Keeps.initial _) ?_ ?_ ?_ ?_ h
    · exact ⟨.nil, fun _ hr => absurd hr List.not_mem_nil, trivial, fun _ => sound_fresh⟩
    · intro w l t κ _ hw
      exact hw.forget rfl
    · intro w l t o γ r w' hw ha hr hg
      exact hw.act ha hr hg
    · intro w l t hw
      exact hw.forget rfl
  rw [verifyChain_eq_true, hinv.ascending.byId_eq, List.map_take]
  exact Interleave.HashChain.Chained.take hinv.chained limit

end Invariant

/-! ### Two sessions -/

/-- An append that says a task was accepted. -/
def acceptedAppend : Append where
  eventType := "task.accepted"
  actor := "caller"

/-- Noon of a day. -/
def noon : Datetime := ⟨2025, 1, 1, 12, 0, 0, 0⟩

/-- Both sessions read before either commits. -/
def atOnce (sha256 : String → String) : List (Move (auditing sha256)) :=
  [.spawn [acceptedAppend], .spawn [acceptedAppend], .act 0 (.answers noon), .act 1 (.answers noon),
    .act 0 (.answers noon), .act 0 (.answers noon), .act 0 (.answers noon), .act 1 (.answers noon),
    .act 1 (.answers noon), .act 1 (.answers noon)]

/-- The links of the committed rows, by their ids. -/
def links {sha256 : String → String} (c : Config (auditing sha256)) : List (Option String) :=
  (byId c.world.committed).map (·.prevHash)

/-- Two appends one after the other verify. -/
theorem appends_in_turn_verify :
    ∃ c, Run (CommitsOnTail id) (emptyAudit id) c ∧ c.world.committed.length = 2 ∧
      verifyChain id 1000 c.world.committed = (true, none) := by
  have start := (Run.refl (G := CommitsOnTail id) (c := emptyAudit id)).more
    (.spawn _ [acceptedAppend])
  have read := start.more (.act (t := 0) (γ := AuditChoice.answers noon) rfl rfl trivial)
  have stamped := read.more (.act (t := 0) (γ := AuditChoice.answers noon) rfl rfl trivial)
  have flushed := stamped.more (.act (t := 0) (γ := AuditChoice.answers noon) rfl rfl trivial)
  have committed := flushed.more
    (.act (t := 0) (γ := AuditChoice.answers noon) rfl rfl fun _ => rfl)
  have start' := committed.more (.spawn _ [acceptedAppend])
  have read' := start'.more (.act (t := 1) (γ := AuditChoice.answers noon) rfl rfl trivial)
  have stamped' := read'.more (.act (t := 1) (γ := AuditChoice.answers noon) rfl rfl trivial)
  have flushed' := stamped'.more (.act (t := 1) (γ := AuditChoice.answers noon) rfl rfl trivial)
  have committed' := flushed'.more
    (.act (t := 1) (γ := AuditChoice.answers noon) rfl rfl fun _ => rfl)
  exact ⟨_, committed', rfl, chain_of_commitsOnTail id committed' 1000⟩

/-- **Whatever the hash, two sessions that read before either commits break the chain.** -/
theorem concurrent_appends_break_the_chain :
    ¬ ∃ sha256 : String → String, ∀ c,
      Run (auditing sha256).anything (emptyAudit sha256) c →
      ∀ limit, verifyChain sha256 limit c.world.committed = (true, none) := by
  rintro ⟨sha256, h⟩
  have hexec : ((emptyAudit sha256).exec (fun _ _ _ _ _ => true) (atOnce sha256)).map links =
      some [none, none] := rfl
  obtain ⟨c, hc, hlinks⟩ := Option.map_eq_some_iff.mp hexec
  have hv := verifyChain_eq_true.mp (h c (Run.of_exec (fun _ _ _ _ _ _ => trivial) hc) 2)
  obtain ⟨row, row', hrows, hr, hr'⟩ : ∃ row row', byId c.world.committed = [row, row'] ∧
      row.prevHash = none ∧ row'.prevHash = none := by
    simpa [links, List.map_eq_cons_iff, and_assoc] using hlinks
  rw [hrows] at hv
  have hlink : row'.prevHash = some row.hash := hv.2.2.1
  rw [hr'] at hlink
  cases hlink

end AsyncGateway
