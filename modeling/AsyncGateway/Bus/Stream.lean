import AsyncGateway.Domain.Errors
import AsyncGateway.Lib.Json
import AsyncGateway.Lib.Prog
import AsyncGateway.Lib.Stream
import AsyncGateway.Lib.Text

/-!
# Bus — queues on Redis streams

A queue is a stream with one consumer group (`StreamBus`).  Every method of the bus is a few
commands of Redis, and a message travels as the fields of an entry (`BusMessage.encode`, `decode`):
its name, its payload and when it was enqueued.  How often it was delivered does not travel.

`Streams.serve` is what Redis does with a command.  The capacity of a queue is the length of its
stream (`enqueue`, `depth`), which an acknowledgement does not shrink.
-/

namespace AsyncGateway

open Interleave (Sig Prog GroupStream StreamEntry)

/-! ### Messages -/

/-- The fields of an entry. -/
abbrev Raw := List (String × String)

/-- A message of the bus. -/
structure BusMessage where
  name : String
  payload : Json
  messageId : ℕ := 0
  enqueuedAt : Time
  deliveries : ℕ := 1

/-- The library functions a message is written and read with. -/
structure MessageCodec where
  /-- `json.dumps(payload, ensure_ascii=False, default=str)`. -/
  dumps : Json → String
  /-- `json.loads`. -/
  loads : String → Option Json
  isoformat : Time → String
  /-- `datetime.fromisoformat`. -/
  fromisoformat : String → Option Time

/-- What the bus and the worker ask for: the commands of Redis, the clock, and a handler. -/
inductive BusOp : Type where
  | xgroupCreate (key group : String)
  | xlen (key : String)
  | xadd (key : String) (fields : Raw) (maxlen : ℕ)
  | xreadgroup (group consumer key : String) (count : ℕ)
  | xack (key group : String) (id : ℕ)
  | xautoclaim (key group consumer : String) (minIdle : Seconds) (start count : ℕ)
  | now
  /-- `dispatch_message` of a message of that queue. -/
  | dispatch (queue : String) (message : BusMessage)

@[reducible] def BusOp.Ans : BusOp → Type
  | .xgroupCreate _ _ => Unit
  | .xlen _ => ℕ
  | .xadd _ _ _ => ℕ
  | .xreadgroup _ _ _ _ => List (StreamEntry Raw)
  | .xack _ _ _ => ℕ
  | .xautoclaim _ _ _ _ _ _ => ℕ × List (StreamEntry Raw)
  | .now => Time
  | .dispatch _ _ => Unit

abbrev busSig : Sig := ⟨BusOp, BusOp.Ans⟩

abbrev BusProg (α : Type) := Prog busSig Exn α

def askBus (o : BusOp) : BusProg o.Ans := Prog.perform (S := busSig) o

namespace BusMessage

variable (K : MessageCodec)

/-- `Message.encode`. -/
def encode (m : BusMessage) : Raw :=
  [("name", m.name), ("payload", K.dumps m.payload), ("enqueued_at", K.isoformat m.enqueuedAt)]

/-- `json.loads` of the payload, or of an empty object. -/
def loadPayload (raw : Raw) : BusProg Json :=
  match K.loads (((raw.lookup "payload").filter (· ≠ "")).getD "\x7b\x7d") with
  | some payload => pure payload
  | none => .raise (.infrastructure "JSONDecodeError")

/-- The time in the fields, else that of now. -/
def loadEnqueuedAt (raw : Raw) : BusProg Time :=
  match K.fromisoformat ((raw.lookup "enqueued_at").getD "") with
  | some t => pure t
  | none => askBus .now

/-- `Message.decode`. -/
def decode (name : String) (raw : Raw) (messageId : ℕ) : BusProg BusMessage := do
  let payload ← loadPayload K raw
  let enqueuedAt ← loadEnqueuedAt K raw
  pure { name := name, payload := payload, messageId := messageId, enqueuedAt := enqueuedAt }

end BusMessage

/-! ### `StreamBus` -/

/-- Whether `str(exc)` holds the text. -/
def Exn.mentions (text : String) : Exn → Bool
  | .infrastructure message => Text.occursIn text.toList message.toList
  | _ => false

structure StreamBus where
  keyPrefix : String
  group : String
  maxDepth : ℕ
  codec : MessageCodec

namespace StreamBus

variable (B : StreamBus)

def stream (queue : String) : String := B.keyPrefix ++ queue

def dlq (queue : String) : String := B.keyPrefix ++ "dlq:" ++ queue

variable {B} in
theorem stream_inj {queue queue' : String} : B.stream queue' = B.stream queue ↔ queue' = queue := by
  simp [stream]

/-- `ensure_queue`: a group that exists already is fine. -/
def ensureQueue (queue : String) : BusProg Unit :=
  (askBus (.xgroupCreate (B.stream queue) B.group)).tryCatch fun x =>
    if x.mentions "BUSYGROUP" then pure () else .raise x

/-- `enqueue`. -/
def enqueue (queue name : String) (payload : Json) : BusProg ℕ := do
  let depth : ℕ ← askBus (.xlen (B.stream queue))
  if B.maxDepth ≤ depth then .raise .queueSaturated
  else do
    let enqueuedAt : Time ← askBus .now
    let message : BusMessage := { name := name, payload := payload, enqueuedAt := enqueuedAt }
    B.ensureQueue queue
    askBus (.xadd (B.stream queue) (message.encode B.codec) (B.maxDepth * 2))

/-- The messages of the entries Redis handed out. -/
def decodeAll : List (StreamEntry Raw) → BusProg (List BusMessage)
  | [] => pure []
  | entry :: entries => do
      let name := (entry.body.lookup "name").getD ""
      let message ← BusMessage.decode B.codec name entry.body entry.id
      let messages ← decodeAll entries
      pure (message :: messages)

/-- `consume`. -/
def consume (queue consumer : String) (count : ℕ) : BusProg (List BusMessage) := do
  B.ensureQueue queue
  let response : List (StreamEntry Raw) ←
    askBus (.xreadgroup B.group consumer (B.stream queue) count)
  B.decodeAll response

/-- `ack`. -/
def ack (queue : String) (messageId : ℕ) : BusProg Unit := do
  let _ : ℕ ← askBus (.xack (B.stream queue) B.group messageId)
  pure ()

/-- `dead_letter`. -/
def deadLetter (queue : String) (message : BusMessage) (reason : String) : BusProg Unit := do
  let encoded := message.encode B.codec ++
    [("reason", String.ofList (reason.toList.take 500)),
      ("failed_at", B.codec.isoformat message.enqueuedAt)]
  let _ : ℕ ← askBus (.xadd (B.dlq queue) encoded 10000)
  B.ack queue message.messageId

/-- `depth`. -/
def depth (queue : String) : BusProg ℕ := askBus (.xlen (B.stream queue))

/-- `claim_stale`, from a cursor on; a loop that is not over when the fuel is, is given up. -/
def claimFrom (queue consumer : String) (minIdle : Seconds) (count : ℕ) :
    ℕ → ℕ → BusProg (List BusMessage)
  | 0, _ => .raise (.infrastructure "claim_stale was stopped")
  | fuel + 1, cursor => do
      let answer : ℕ × List (StreamEntry Raw) ←
        askBus (.xautoclaim (B.stream queue) B.group consumer minIdle cursor count)
      let claimed ← B.decodeAll (answer.2.filter fun entry => entry.body ≠ [])
      if answer.1 = 0 ∨ answer.2 = [] then pure claimed
      else do
        let more ← claimFrom queue consumer minIdle count fuel answer.1
        pure (claimed ++ more)

/-- `claim_stale` with its defaults. -/
def claimStale (fuel : ℕ) (queue consumer : String) : BusProg (List BusMessage) :=
  B.claimFrom queue consumer 60 20 fuel 0

/-- `_check_capacity` of the acceptance. -/
def checkCapacity (queue : String) : BusProg Unit := do
  let depth ← B.depth queue
  if B.maxDepth ≤ depth then
    .raise (.acceptError 503 ("queue " ++ queue ++ " saturated"))
  else pure ()

end StreamBus

/-! ### Redis -/

/-- The streams of Redis, each with its one group, by their keys. -/
abbrev Streams := String → GroupStream Raw

/-- What a command finds: the clock, how much an approximate trim leaves, and how a handler ends. -/
structure BusChoice where
  now : Time
  surplus : ℕ := 0
  outcome : Except Exn Unit := .ok ()

namespace Streams

/-- What Redis, the clock and the handlers answer.  The group of a stream reads from its start, so
it makes no difference when it is created. -/
def serve (γ : BusChoice) : (o : BusOp) → Streams → Except Exn o.Ans × Streams
  | .xgroupCreate _ _, s => (.ok (), s)
  | .xlen key, s => (.ok (s key).entries.length, s)
  | .xadd key fields maxlen, s =>
      (.ok ((s key).add fields maxlen γ.surplus).1,
        Function.update s key ((s key).add fields maxlen γ.surplus).2)
  | .xreadgroup _ consumer key count, s =>
      (.ok ((s key).read consumer count γ.now).1,
        Function.update s key ((s key).read consumer count γ.now).2)
  | .xack key _ id, s => (.ok ((s key).ack id).1, Function.update s key ((s key).ack id).2)
  | .xautoclaim key _ consumer minIdle start count, s =>
      let claimed := (s key).autoclaim consumer minIdle start count γ.now
      (.ok (claimed.1, claimed.2.1), Function.update s key claimed.2.2)
  | .now, s => (.ok γ.now, s)
  | .dispatch _ _, s => (γ.outcome, s)

end Streams

end AsyncGateway
