import AsyncGateway.Gateway.Routes
import AsyncGateway.Security.CallbackAuth

/-!
# Gateway — the callbacks as they arrive

The whole route of `/callbacks/{opaque_token}` (`Reception.receiveCallback`): the signature, the
task of the endpoint, the row in `callback_event` that a repeated delivery meets, and the
application to the task.  It works on the table of the callbacks of all tasks, so it is a program
over operations of its own (`CallbackOp`); those of `_apply_callback` are among them.
-/

namespace AsyncGateway

open Interleave (Prog)

/-- A callback request: its endpoint, the headers that are read beside those of the signature, and
its body. -/
structure Delivery where
  opaqueToken : String
  /-- `x-ag-event-id`. -/
  eventId : Option String := none
  /-- `x-ag-upstream-id`. -/
  upstreamId : Option String := none
  /-- `x-ag-channel`. -/
  channel : Option String := none
  raw : List UInt8
  deriving DecidableEq

/-- A row of `callback_event`. -/
structure CallbackRow where
  channel : String
  dedupKey : String
  upstreamTaskId : Option String
  rawStatus : Option String
  kid : Option String
  payload : Json

/-- A row of `orphan_callback`. -/
structure OrphanCallback where
  channel : String
  upstreamTaskId : String
  rawStatus : Option String
  payload : Option Json

inductive CallbackOp : Type where
  /-- `verify` of the authenticator, on the headers and the body. -/
  | verify
  /-- The audit of a signature that failed. -/
  | signatureFailed (subjectId : String) (verify : CallbackVerifyResult)
  | findByCallbackToken (token : String)
  /-- The transaction of the route: `insert_callback_event`, and `stash_orphan` where the row was
  inserted.  The answer is whether it was. -/
  | insertCallbackEvent (row : CallbackRow) (orphan : Option OrphanCallback)
  /-- `CALLBACK_TOTAL.inc`. -/
  | count (result : String)
  /-- An operation of `_apply_callback`. -/
  | work (o : Op)
  /-- The answer to the upstream leaves. -/
  | respond (answer : HttpAnswer)

def CallbackOp.Ans : CallbackOp → Type
  | .verify => CallbackVerifyResult
  | .signatureFailed _ _ => Unit
  | .findByCallbackToken _ => Option AsyncTask
  | .insertCallbackEvent _ _ => Bool
  | .count _ => Unit
  | .work o => o.Ans
  | .respond _ => Unit

abbrev callbackEffects : Interleave.Sig := ⟨CallbackOp, CallbackOp.Ans⟩

abbrev CallbackHandler (α : Type) := Interleave.Prog callbackEffects Exn α

def askCallback (o : CallbackOp) : CallbackHandler o.Ans := Prog.perform (S := callbackEffects) o

/-- A handler as a part of the route. -/
def working {α : Type} (p : Handler α) : CallbackHandler α :=
  p.lift CallbackOp.work fun _ r => r

inductive LoadsError : Type where
  | jsonDecodeError
  /-- Any other exception, as of a body that is no UTF-8. -/
  | other (message : String)

/-- The library functions the route calls, and what the columns of `callback_event` take. -/
structure Reception where
  jsonLoads : List UInt8 → Except LoadsError Json
  /-- `raw.decode("utf-8", errors="replace")`. -/
  decode : List UInt8 → String
  bodyDigest : List UInt8 → String
  /-- The digest is the first half of a SHA-256 in hexadecimal. -/
  digest_length : ∀ raw, (bodyDigest raw).length = 32
  /-- Whether the texts of the row are short enough for its columns. -/
  fits : CallbackRow → Bool := fun _ => true

/-- `callback_dedup_key`. -/
def callbackDedupKey (upstreamEventId upstreamTaskId rawStatus : Option String)
    (bodyDigest : String) : String :=
  match nonEmpty upstreamEventId with
  | some eventId => "evt:" ++ eventId
  | none => "sig:" ++ (nonEmpty upstreamTaskId).getD "-" ++ ":" ++ (nonEmpty rawStatus).getD "-" ++
      ":" ++ bodyDigest

/-- What the route reads in a callback: the id of the upstream's task, and the status. -/
structure CallbackReading where
  upstreamId : Option String
  rawStatus : Option String

/-- `str(value) if found else None`. -/
def extractText (C : Container) (doc : Json) (spec : String) : Except Exn (Option String) :=
  (ExpressionError.lift (tryExtract doc spec)).map (Option.map C.pyStr)

/-- The id is read where the template has it, else in the header; the status where the template
has it. -/
def readCallback (C : Container) (d : Delivery) (payload : Json) :
    Option AsyncTask → Except Exn CallbackReading
  | none => .ok ⟨d.upstreamId, none⟩
  | some task =>
      match C.registry task.templateAlias task.templateVersion with
      | none => .ok ⟨d.upstreamId, none⟩
      | some t => do
          let doc := match payload with
            | .obj doc => Json.obj doc
            | _ => .obj []
          let found ← if task.templateAlias = "" then .ok none else extractText C doc t.idLocation
          let rawStatus ← extractText C doc t.statusField
          .ok ⟨(nonEmpty found).or d.upstreamId, rawStatus⟩

def duplicateAnswer : HttpAnswer where
  status := 200
  body := some (.obj [("accepted", .bool true), ("duplicate", .bool true)])

namespace Reception

variable (R : Reception)

/-- `_safe_json`. -/
def safeJson (raw : List UInt8) : Except Exn Json :=
  match R.jsonLoads (if raw = [] then [123, 125] else raw) with
  | .ok payload => .ok payload
  | .error .jsonDecodeError =>
      .ok (.obj [("raw", .str (String.ofList ((R.decode raw).toList.take 2000)))])
  | .error (.other message) => .error (.infrastructure message)

variable (C : Container) (d : Delivery)

/-- The channel a callback is filed under. -/
def channelOf : Option AsyncTask → String
  | some task => task.channel
  | none => (nonEmpty d.channel).getD "unknown"

/-- The row of the callback. -/
def callbackRow (verify : CallbackVerifyResult) (payload : Json) (task : Option AsyncTask)
    (reading : CallbackReading) : CallbackRow where
  channel := channelOf d task
  dedupKey := callbackDedupKey d.eventId reading.upstreamId reading.rawStatus (R.bodyDigest d.raw)
  upstreamTaskId := reading.upstreamId
  rawStatus := reading.rawStatus
  kid := verify.kid
  payload := match payload with
    | .obj doc => .obj doc
    | payload => .obj [("raw", .str (String.ofList ((C.pyStr payload).toList.take 1000)))]

/-- What is stashed of a callback that has no task. -/
def orphanOf (payload : Json) (task : Option AsyncTask) (reading : CallbackReading) :
    Option OrphanCallback :=
  match task, nonEmpty reading.upstreamId with
  | none, some id => some
      { channel := channelOf d none
        upstreamTaskId := id
        rawStatus := reading.rawStatus
        payload := match payload with
          | .obj doc => some (.obj doc)
          | _ => none }
  | _, _ => none

/-- The callback that no earlier one repeats: it is applied to its task. -/
def applyFresh (payload : Json) (reading : CallbackReading) :
    Option AsyncTask → CallbackHandler HttpAnswer
  | none => do
      askCallback (.count "orphan")
      pure { status := 200
             body := some (.obj [("accepted", .bool true), ("orphan", .bool true)]) }
  | some task => do
      working (applyCallback C task.taskId ⟨payload, reading.rawStatus⟩)
      askCallback (.count "applied")
      pure { status := 200, body := some (.obj [("accepted", .bool true)]) }

/-- The callback whose signature is right. -/
def receiveVerified (verify : CallbackVerifyResult) : CallbackHandler HttpAnswer := do
  let payload ← Prog.ofExcept (R.safeJson d.raw)
  let task : Option AsyncTask ← askCallback (.findByCallbackToken d.opaqueToken)
  let reading ← Prog.ofExcept (readCallback C d payload task)
  let row := R.callbackRow C d verify payload task reading
  let fresh : Bool ← askCallback (.insertCallbackEvent row (orphanOf d payload task reading))
  if fresh then applyFresh C payload reading task
  else do
    askCallback (.count "duplicate")
    pure duplicateAnswer

/-- `receive_callback`. -/
def receiveCallback : CallbackHandler HttpAnswer := do
  let verify : CallbackVerifyResult ← askCallback .verify
  if verify.ok then R.receiveVerified C d verify
  else do
    -- whether the signature was right is not told to the upstream
    askCallback (.signatureFailed (String.ofList (d.opaqueToken.toList.take 12)) verify)
    pure { status := 202, body := some (.obj [("accepted", .bool false)]) }

/-- `insert_callback_event` into the table: the key is unique, and a row that does not fit is an
exception. -/
def insert (events : List CallbackRow) (row : CallbackRow) : Except Exn Bool × List CallbackRow :=
  if R.fits row = false then (.error (.infrastructure "value too long"), events)
  else if events.any fun e => decide (e.dedupKey = row.dedupKey) then (.ok false, events)
  else (.ok true, row :: events)

end Reception

end AsyncGateway
