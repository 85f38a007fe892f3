import AsyncGateway.Bus.Stream
import AsyncGateway.Lib.Pool

/-!
# Workers — the worker loop

A worker consumes its queues in turn and hands every message to its handler (`runWorker`).  A message
whose handler raised stays pending; every thirtieth round the worker claims what has been pending for
a minute and hands it to the handler again.  A round is as many commands as there are queues and
messages, and the loop ends when `stop_after` messages are done, or after the rounds a signal leaves
it.

Any number of workers and producers make a pool on the queues of a bus (`busPool`), interleaved at
every command of Redis, each of which may fail with its effect or without, and any of which may be
lost.
-/

namespace AsyncGateway

open Interleave (Prog Machine)

def maxHandlerFailures : ℕ := 3

/-- What a worker runs with. -/
structure WorkerArgs where
  bus : StreamBus
  /-- `queues_for_pools`. -/
  queues : List String
  consumer : String
  stopAfter : Option ℕ := none
  /-- The class and the text of an exception. -/
  describe : Exn → String := fun _ => ""
  /-- How many rounds of `claim_stale` there are before it is given up. -/
  claimFuel : ℕ := 1000

namespace WorkerArgs

variable (W : WorkerArgs)

/-- Whether `stop_after` messages are done. -/
def reached (processed : ℕ) : Bool := W.stopAfter.any (· ≤ processed)

/-- A message whose handler raised: dead-lettered after enough deliveries, else left pending. -/
def giveUp (queue : String) (message : BusMessage) (x : Exn) : BusProg Unit :=
  if maxHandlerFailures ≤ message.deliveries then
    W.bus.deadLetter queue message (W.describe x)
  else pure ()

/-- A fresh message and its handler: whether it was done. -/
def handleFresh (queue : String) (message : BusMessage) : BusProg Bool :=
  Prog.tryCatch
    (do
      let _ : Unit ← askBus (.dispatch queue message)
      pure true)
    fun x => do
      W.giveUp queue message x
      pure false

/-- The messages of one `consume`: the messages done, and whether the worker stops. -/
def handleMessages (queue : String) : ℕ → List BusMessage → BusProg (ℕ × Bool)
  | processed, [] => pure (processed, false)
  | processed, message :: messages => do
      let done ← W.handleFresh queue message
      if done then do
        W.bus.ack queue message.messageId
        if W.reached (processed + 1) then pure (processed + 1, true)
        else handleMessages queue (processed + 1) messages
      else handleMessages queue processed messages

/-- The queues in turn. -/
def consumeQueues : ℕ → List String → BusProg (ℕ × Bool)
  | processed, [] => pure (processed, false)
  | processed, queue :: queues => do
      let messages ← W.bus.consume queue W.consumer 10
      let (processed, stop) ← W.handleMessages queue processed messages
      if W.reached processed then pure (processed, stop)
      else consumeQueues processed queues

/-- A message that was pending, and its handler; whatever is raised is logged. -/
def replay (queue : String) (stale : BusMessage) : BusProg Unit :=
  Prog.tryCatch
    (do
      let _ : Unit ← askBus (.dispatch queue stale)
      W.bus.ack queue stale.messageId)
    fun _ => pure ()

def replayAll (queue : String) : List BusMessage → BusProg Unit
  | [] => pure ()
  | stale :: stales => do
      W.replay queue stale
      replayAll queue stales

/-- The recovery of what crashed workers left. -/
def claimQueues : List String → BusProg Unit
  | [] => pure ()
  | queue :: queues => do
      let stales ← W.bus.claimStale W.claimFuel queue W.consumer
      W.replayAll queue stales
      claimQueues queues

/-- The recovery, every thirtieth round. -/
def recover (ticks : ℕ) : BusProg Unit :=
  if ticks % 30 = 0 then W.claimQueues W.queues else pure ()

/-- The loop of `run_worker`, for some rounds. -/
def loop : ℕ → ℕ → ℕ → BusProg Unit
  | 0, _, _ => pure ()
  | rounds + 1, ticks, processed => do
      let (processed, stop) ← W.consumeQueues processed W.queues
      W.recover (ticks + 1)
      if stop then pure ()
      else loop rounds (ticks + 1) processed

def ensureQueues : List String → BusProg Unit
  | [] => pure ()
  | queue :: queues => do
      W.bus.ensureQueue queue
      ensureQueues queues

/-- `run_worker`, which a signal stops after some rounds. -/
def runWorker (rounds : ℕ) : BusProg Unit := do
  W.ensureQueues W.queues
  W.loop rounds 0 0

end WorkerArgs

/-! ### Workers and producers -/

/-- What runs on the bus. -/
inductive BusActor : Type where
  | worker (W : WorkerArgs) (rounds : ℕ)
  | producer (queue name : String) (payload : Json)

/-- How a command ends: answered, or failed after it was done or before. -/
inductive BusReply : Type where
  | answers (γ : BusChoice)
  | fails (γ : BusChoice) (done : Bool) (message : String)

def Streams.respond (s : Streams) (o : BusOp) : BusReply → Option (Except Exn o.Ans × Streams)
  | .answers γ => some (Streams.serve γ o s)
  | .fails γ done message =>
      some (.error (.infrastructure message), if done then (Streams.serve γ o s).2 else s)

/-- The workers and the producers of one bus. -/
def busPool (B : StreamBus) : Machine busSig Exn where
  Kind := BusActor
  body
    | .worker W rounds => { W with bus := B }.runWorker rounds
    | .producer queue name payload => do
        let _ : ℕ ← B.enqueue queue name payload
        pure ()
  World := Streams
  Choice := BusReply
  respond := Streams.respond

/-! ### A bus and a worker to run -/

/-- A bus whose messages are all empty. -/
def roomyBus : StreamBus := ⟨"ag:q:", "workers", 100, ⟨fun _ => "\x7b\x7d",
  fun _ => some (.obj []), fun _ => "1970-01-01T00:00:00+00:00", fun _ => some 0⟩⟩

def transferWorker : WorkerArgs where
  bus := roomyBus
  queues := ["transfer:transfer"]
  consumer := "worker"

end AsyncGateway
