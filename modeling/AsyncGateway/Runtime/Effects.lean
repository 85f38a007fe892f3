import AsyncGateway.Lib.Pool
import AsyncGateway.Db.Dao
import AsyncGateway.Templates.Render

/-!
# Runtime — what a handler asks of its environment

The operations a handler performs (`Op`) and the type of each answer (`Op.Ans`).  A handler is a
program over them (`Handler`).  The database transactions are on one task row; a message, an audit
event, a call to the upstream, the clock and the other stores are operations of their own, and
every one of them may fail with an exception instead.

A call to the upstream is two operations, `send` and `recv`: between them it is in flight.
-/

namespace AsyncGateway

/-- What a call to the upstream is made for. -/
inductive Purpose : Type where
  | create
  | poll
  | confirm
  | cancel
  | result
  deriving DecidableEq

/-- What the upstream answers. -/
structure HttpResponse where
  statusCode : ℕ
  /-- The `Retry-After` header. -/
  retryAfter : Option String := none
  /-- The body as JSON; none where it is no JSON, or `null`. -/
  json : Option Json := none
  text : String := ""
  content : List UInt8 := []

inductive AuditEventType : Type where
  | accepted
  | cancelled
  | callback
  | terminal
  | resultExport
  | governance
  deriving DecidableEq

structure AuditEvent where
  eventType : AuditEventType
  actor : String := "system"
  subjectType : String := "task"
  subjectId : String
  refs : Json.Fields
  detail : Option String := none

/-- A message on the bus; the task is the one the handler works on. -/
structure Message where
  queue : String
  name : String
  attempt : Option ℤ := none
  recreated : Bool := false
  deriving DecidableEq

/-- The answer of the concurrency limiter. -/
structure SlotDecision where
  granted : Bool
  retryAfter : Option Seconds

/-- The archived answer to a create request. -/
structure ArchivedResponse where
  status : ℕ
  body : Option Json
  pending : Bool

/-- An answer of the gateway to its own caller. -/
structure HttpAnswer where
  status : ℕ
  body : Option Json
  headers : List (String × String) := []

inductive Op : Type where
  /-- `_now()`. -/
  | now
  /-- `random.random()`. -/
  | random
  /-- `TaskDAO.get` of the task, in a transaction of its own. -/
  | load
  /-- The `SELECT` of `note_attribute`: the attributes of the row. -/
  | readAttributes
  /-- `_find_task`: by the upstream id in the channel, else by the task id. -/
  | findTask (channel identifier : String)
  /-- One write in a transaction, with the message put on the bus before it commits. -/
  | apply (op : DaoOp) (also : Option Message)
  /-- `insert_callback_event`: whether no such event was there. -/
  | insertCallbackEvent (rawStatus : Option String) (payload : Json)
  | audit (event : AuditEvent)
  | enqueue (message : Message)
  | getCredential
  | dropCredential
  /-- The stored create body; none where it is not there any more. -/
  | getBody (ref : String)
  | putResponse (key : String) (response : ArchivedResponse)
  | acquire (channel tenant : String) (channelLimit tenantLimit : ℤ)
  | release (channel tenant : String)
  | nextInterval (channel : String) (elapsed : Seconds) (firstPoll : Bool)
  | baseInterval (channel : String) (elapsed : Seconds) (firstPoll : Bool)
  | noteRateLimited (channel : String) (retryAfter : Option PyFloat)
  | decayIfClean (channel : String) (quietSeconds : Seconds)
  | pausedFor (channel : String)
  | recordTerminal (channel : String) (elapsed : Seconds)
  /-- The SSRF check of a URL: the text of the violation, if there is one. -/
  | validateTarget (url : String)
  | send (purpose : Purpose) (request : RenderedRequest)
  | recv (purpose : Purpose)
  | putBytes (key : String) (data : List UInt8)
  /-- The presigned URL of a result; none where the object is gone. -/
  | presignGet (key : String) (ttl : ℤ)
  /-- The answer to the gateway's own caller leaves. -/
  | respond (answer : HttpAnswer)

/-- The type of the answer to an operation. -/
def Op.Ans : Op → Type
  | .now => Time
  | .random => ℚ
  | .load => Option AsyncTask
  | .readAttributes => Option (Option Json.Fields)
  | .findTask _ _ => Option AsyncTask
  | .apply _ _ => Bool
  | .insertCallbackEvent _ _ => Bool
  | .audit _ => Unit
  | .enqueue _ => Unit
  | .getCredential => Option String
  | .dropCredential => Unit
  | .getBody _ => Option Json
  | .putResponse _ _ => Unit
  | .acquire _ _ _ _ => SlotDecision
  | .release _ _ => Unit
  | .nextInterval _ _ _ => Seconds
  | .baseInterval _ _ _ => Seconds
  | .noteRateLimited _ _ => Unit
  | .decayIfClean _ _ => Unit
  | .pausedFor _ => Seconds
  | .recordTerminal _ _ => Unit
  | .validateTarget _ => Option String
  | .send _ _ => Unit
  | .recv _ => Except HttpxError HttpResponse
  | .putBytes _ _ => Unit
  | .presignGet _ _ => Option String
  | .respond _ => Unit

abbrev effects : Interleave.Sig := ⟨Op, Op.Ans⟩

abbrev Handler (α : Type) := Interleave.Prog effects Exn α

open Interleave (Prog)

/-- An operation as a program: the type of the answer is the operation's own. -/
def ask (o : Op) : Handler o.Ans := Prog.perform (S := effects) o

/-- A pure computation that may raise. -/
def raiseIn {α : Type} (r : Except Exn α) : Handler α := Prog.ofExcept r

def ExpressionError.lift {α : Type} (r : Except ExpressionError α) : Except Exn α :=
  r.mapError fun _ => .expressionError ""

theorem lift_eq_ok {α : Type} {r : Except ExpressionError α} {a : α}
    (h : ExpressionError.lift r = .ok a) : r = .ok a := by
  cases r with
  | ok _ => exact congrArg _ (Except.ok.inj h)
  | error _ => cases h

/-! ### The operations by their names in the source -/

def now_ : Handler Time := ask .now

def loadTask : Handler (Option AsyncTask) := ask .load

/-- `_apply` of a write operation. -/
def applyOp (op : DaoOp) : Handler Bool := ask (.apply op none)

def audit (event : AuditEvent) : Handler Unit := ask (.audit event)

def enqueue (queue name : String) : Handler Unit := ask (.enqueue { queue := queue, name := name })

/-- `backoff_seconds`, with the random number it draws. -/
def backoff (attempt : ℤ) (base cap : Seconds) : Handler Seconds := do
  let random ← ask .random
  raiseIn (backoffSeconds random attempt base cap)

/-- `_now() + timedelta(seconds=delay)`. -/
def nowPlus (delay : PyFloat) : Handler Time := do
  let t ← now_
  raiseIn (later t delay)

/-- `note_attribute`: reads the row, then writes the merged attributes. -/
def noteAttribute (attributes : Json.Fields) : Handler Bool := do
  match ← ask .readAttributes with
  | none => pure false
  | some read => applyOp (.noteAttribute read attributes)

end AsyncGateway
