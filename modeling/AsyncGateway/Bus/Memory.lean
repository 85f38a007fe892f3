import AsyncGateway.Bus.Stream
import AsyncGateway.Lib.Server
import Mathlib.Data.List.Infix

/-!
# Bus — queues in memory

`MemoryBus` is the bus without Redis: a list for each queue, in the order of `enqueue`, from whose
front `consume` takes.  Nothing is pending: what was consumed is gone, acknowledged or not.

Its queues are first in, first out, over any sequence of calls, and hand every message out once
(`memory_bus_fifo`).  It stands in for the bus on Redis streams as long as that one refuses nothing
(`memory_bus_mirrors_stream_bus`): the capacity of a stream counts what was consumed, that of a list
does not, so the stream is the first to be full.
-/

namespace AsyncGateway

open Interleave (Prog GroupStream StreamEntry Server SimulatesWhile)

/-! ### `MemoryBus` -/

/-- The state of `MemoryBus`; the id `mem-n` is `n`. -/
structure MemoryBus where
  maxDepth : ℕ := 100000
  queues : String → List BusMessage := fun _ => []
  dlq : String → List (BusMessage × String) := fun _ => []
  acked : List ℕ := []
  counter : ℕ := 0

namespace MemoryBus

variable (b : MemoryBus)

/-- `enqueue`. -/
def enqueue (queue name : String) (payload : Json) (now : Time) : Except Exn ℕ × MemoryBus :=
  if b.maxDepth ≤ (b.queues queue).length then (.error .queueSaturated, b)
  else
    let message : BusMessage :=
      { name := name, payload := payload, messageId := b.counter + 1, enqueuedAt := now }
    (.ok message.messageId,
      { b with counter := b.counter + 1,
               queues := Function.update b.queues queue (b.queues queue ++ [message]) })

/-- `consume`: the first message is taken before the count is looked at. -/
def consume (queue : String) (count : ℕ) : List BusMessage × MemoryBus :=
  ((b.queues queue).take (max 1 count),
    { b with queues := Function.update b.queues queue ((b.queues queue).drop (max 1 count)) })

/-- `ack`. -/
def ack (messageId : ℕ) : MemoryBus := { b with acked := b.acked ++ [messageId] }

/-- `dead_letter`. -/
def deadLetter (queue : String) (message : BusMessage) (reason : String) : MemoryBus :=
  { b with dlq := Function.update b.dlq queue (b.dlq queue ++ [(message, reason)]) }

/-- `depth`. -/
def depth (queue : String) : ℕ := (b.queues queue).length

/-- `pending`. -/
def pending (_queue : String) : ℕ := 0

end MemoryBus

/-! ### Calls on a bus -/

/-- A call on a bus. -/
inductive BusRequest : Type where
  | enqueue (queue name : String) (payload : Json)
  | consume (queue consumer : String) (count : ℕ)
  | ack (queue : String) (messageId : ℕ)
  | deadLetter (queue : String) (message : BusMessage) (reason : String)
  | depth (queue : String)

/-- What a caller sees of a message, its id apart. -/
def BusMessage.shown (m : BusMessage) : String × Json × Time × ℕ :=
  (m.name, m.payload, m.enqueuedAt, m.deliveries)

/-- What a caller sees of an answer. -/
inductive BusAnswer : Type where
  | accepted
  | refused
  | failed
  | handed (messages : List (String × Json × Time × ℕ))
  | done
  | depth (n : ℕ)

/-- The end of an `enqueue`. -/
def BusAnswer.ofEnqueue : Except Exn ℕ → BusAnswer
  | .ok _ => .accepted
  | .error .queueSaturated => .refused
  | .error _ => .failed

/-- The bus on Redis, as a server. -/
def StreamBus.answer (B : StreamBus) : Server (BusRequest × BusChoice) BusAnswer Streams
  | (.enqueue queue name payload, γ), s =>
      let r := (B.enqueue queue name payload).run (Streams.serve γ) s
      (.ofEnqueue r.1, r.2)
  | (.consume queue consumer count, γ), s =>
      let r := (B.consume queue consumer count).run (Streams.serve γ) s
      (match r.1 with
        | .ok messages => .handed (messages.map BusMessage.shown)
        | .error _ => .failed, r.2)
  | (.ack queue messageId, γ), s =>
      let r := (B.ack queue messageId).run (Streams.serve γ) s
      (if r.1.isOk then .done else .failed, r.2)
  | (.deadLetter queue message reason, γ), s =>
      let r := (B.deadLetter queue message reason).run (Streams.serve γ) s
      (if r.1.isOk then .done else .failed, r.2)
  | (.depth queue, γ), s =>
      let r := (B.depth queue).run (Streams.serve γ) s
      (match r.1 with
        | .ok n => .depth n
        | .error _ => .failed, r.2)

/-- The bus in memory, as a server. -/
def MemoryBus.answer : Server (BusRequest × BusChoice) BusAnswer MemoryBus
  | (.enqueue queue name payload, γ), b =>
      (.ofEnqueue (b.enqueue queue name payload γ.now).1, (b.enqueue queue name payload γ.now).2)
  | (.consume queue _ count, _), b =>
      (.handed ((b.consume queue count).1.map BusMessage.shown), (b.consume queue count).2)
  | (.ack _ messageId, _), b => (.done, b.ack messageId)
  | (.deadLetter queue message reason, _), b => (.done, b.deadLetter queue message reason)
  | (.depth queue, _), b => (.depth (b.depth queue), b)

/-! ### First in, first out -/

namespace MemoryBus

/-- The message a call puts in, with its queue: one that `enqueue` accepts, under the id it gives. -/
def puts (b : MemoryBus) : BusRequest × BusChoice → List (String × BusMessage)
  | (.enqueue queue name payload, γ) =>
      match (b.enqueue queue name payload γ.now).1 with
      | .ok messageId => [(queue, { name := name, payload := payload, messageId := messageId,
                                    enqueuedAt := γ.now })]
      | .error _ => []
  | _ => []

/-- The messages a call takes out, with their queue. -/
def takes (b : MemoryBus) : BusRequest × BusChoice → List (String × BusMessage)
  | (.consume queue _ count, _) => (b.consume queue count).1.map fun m => (queue, m)
  | _ => []

/-- What a sequence of calls puts in. -/
def putBy : List (BusRequest × BusChoice) → MemoryBus → List (String × BusMessage)
  | [], _ => []
  | call :: calls, b => b.puts call ++ putBy calls (answer call b).2

/-- What a sequence of calls takes out. -/
def takenBy : List (BusRequest × BusChoice) → MemoryBus → List (String × BusMessage)
  | [], _ => []
  | call :: calls, b => b.takes call ++ takenBy calls (answer call b).2

/-- The messages of one queue. -/
def ofQueue (queue : String) (l : List (String × BusMessage)) : List BusMessage :=
  (l.filter (·.1 = queue)).map (·.2)

variable {b : MemoryBus} {queue : String}

theorem ofQueue_append (l l' : List (String × BusMessage)) :
    ofQueue queue (l ++ l') = ofQueue queue l ++ ofQueue queue l' := by
  simp [ofQueue]

theorem ofQueue_map (queue' : String) (messages : List BusMessage) :
    ofQueue queue (messages.map fun m => (queue', m)) =
      if queue' = queue then messages else [] := by
  by_cases h : queue' = queue <;> simp [ofQueue, List.filter_map, Function.comp_def, h]

/-- A call keeps the order of a queue: what was in it and what is put in is what is taken out and
what is in it then. -/
theorem ofQueue_takes_append (call : BusRequest × BusChoice) :
    ofQueue queue (b.takes call) ++ (answer call b).2.queues queue =
      b.queues queue ++ ofQueue queue (b.puts call) := by
  obtain ⟨request, γ⟩ := call
  cases request with
  | enqueue queue' name payload =>
      by_cases hfull : b.maxDepth ≤ (b.queues queue').length
      · simp [takes, puts, answer, enqueue, ofQueue, hfull]
      · by_cases hq : queue' = queue
        · subst hq
          simp [takes, puts, answer, enqueue, ofQueue, hfull]
        · simp [takes, puts, answer, enqueue, ofQueue, hfull, hq,
            Function.update_of_ne (Ne.symm hq)]
  | consume queue' consumer count =>
      rw [takes, ofQueue_map]
      by_cases hq : queue' = queue
      · subst hq
        simp [puts, answer, consume, ofQueue]
      · simp [puts, answer, consume, ofQueue, hq, Function.update_of_ne (Ne.symm hq)]
  | ack queue' messageId => exact (List.append_nil _).symm
  | deadLetter queue' message reason => exact (List.append_nil _).symm
  | depth queue' => exact (List.append_nil _).symm

/-- The order of a queue over a sequence of calls. -/
theorem ofQueue_takenBy_append (calls : List (BusRequest × BusChoice)) (b : MemoryBus) :
    ofQueue queue (takenBy calls b) ++ (Server.after answer calls b).queues queue =
      b.queues queue ++ ofQueue queue (putBy calls b) := by
  induction calls generalizing b with
  | nil => exact (List.append_nil _).symm
  | cons call calls ih =>
      have hrest := ih (answer call b).2
      rw [takenBy, putBy, ofQueue_append, ofQueue_append, List.append_assoc]
      change _ ++ (_ ++ (Server.after answer calls (answer call b).2).queues queue) = _
      rw [hrest, ← List.append_assoc, ofQueue_takes_append, List.append_assoc]

/-- The ids of what a sequence of calls puts in go up by one. -/
theorem ids_putBy (calls : List (BusRequest × BusChoice)) (b : MemoryBus) :
    (putBy calls b).map (·.2.messageId) =
      List.range' (b.counter + 1) (putBy calls b).length := by
  induction calls generalizing b with
  | nil => rfl
  | cons call calls ih =>
      have hcall : (b.puts call).map (·.2.messageId) =
          List.range' (b.counter + 1) (b.puts call).length ∧
          (answer call b).2.counter = b.counter + (b.puts call).length := by
        obtain ⟨request, γ⟩ := call
        cases request with
        | enqueue queue name payload =>
            by_cases hfull : b.maxDepth ≤ (b.queues queue).length <;>
              simp [puts, answer, enqueue, hfull]
        | consume queue consumer count => exact ⟨rfl, rfl⟩
        | ack queue messageId => exact ⟨rfl, rfl⟩
        | deadLetter queue message reason => exact ⟨rfl, rfl⟩
        | depth queue => exact ⟨rfl, rfl⟩
      rw [putBy, List.map_append, ih, hcall.1, hcall.2, List.length_append, ← List.range'_append_1,
        Nat.add_right_comm]

/-- No queue is longer than it may be. -/
def Bounded (b : MemoryBus) : Prop := ∀ queue, (b.queues queue).length ≤ b.maxDepth

theorem bounded_answer (call : BusRequest × BusChoice) (b : MemoryBus) (h : b.Bounded) :
    (answer call b).2.Bounded := by
  obtain ⟨request, γ⟩ := call
  intro queue
  cases request with
  | enqueue queue' name payload =>
      by_cases hfull : b.maxDepth ≤ (b.queues queue').length
      · simpa [answer, enqueue, hfull] using h queue
      · by_cases hq : queue = queue'
        · subst hq
          simp only [answer, enqueue, hfull, if_false, Function.update_self, List.length_append,
            List.length_singleton]
          omega
        · simpa [answer, enqueue, hfull, Function.update_of_ne hq] using h queue
  | consume queue' consumer count =>
      by_cases hq : queue = queue'
      · subst hq
        have hle := h queue
        simp only [answer, consume, Function.update_self, List.length_drop]
        omega
      · simpa [answer, consume, Function.update_of_ne hq] using h queue
  | ack queue' messageId => exact h queue
  | deadLetter queue' message reason => exact h queue
  | depth queue' => exact h queue

end MemoryBus

/-- **The queues in memory are first in, first out, and hand every message out once.**  Over any
sequence of calls, the messages a queue accepted are those it handed out, in that order, and then
those it holds; the ids of all accepted messages are `1`, `2`, ..., and no queue holds more than
`max_depth`. -/
theorem memory_bus_fifo (maxDepth : ℕ) (calls : List (BusRequest × BusChoice)) (queue : String) :
    MemoryBus.ofQueue queue (MemoryBus.putBy calls { maxDepth := maxDepth }) =
      MemoryBus.ofQueue queue (MemoryBus.takenBy calls { maxDepth := maxDepth }) ++
        (Server.after MemoryBus.answer calls { maxDepth := maxDepth }).queues queue ∧
    (MemoryBus.putBy calls { maxDepth := maxDepth }).map (·.2.messageId) =
      List.range' 1 (MemoryBus.putBy calls { maxDepth := maxDepth }).length ∧
    ((Server.after MemoryBus.answer calls { maxDepth := maxDepth }).queues queue).length ≤
      maxDepth := by
  refine ⟨(MemoryBus.ofQueue_takenBy_append calls { maxDepth := maxDepth }).symm,
    MemoryBus.ids_putBy calls _, ?_⟩
  have hbound := Server.after_invariant (I := fun b => b.Bounded ∧ b.maxDepth = maxDepth)
    (fun call b hb => ⟨MemoryBus.bounded_answer call b hb.1, ?_⟩) calls
    (s := ({ maxDepth := maxDepth } : MemoryBus)) ⟨fun _ => Nat.zero_le _, rfl⟩
  · exact (hbound.1 queue).trans hbound.2.le
  · obtain ⟨request, γ⟩ := call
    cases request with
    | enqueue queue name payload =>
        by_cases hfull : b.maxDepth ≤ (b.queues queue).length <;>
          simpa [MemoryBus.answer, MemoryBus.enqueue, hfull] using hb.2
    | consume queue consumer count => exact hb.2
    | ack queue messageId => exact hb.2
    | deadLetter queue message reason => exact hb.2
    | depth queue => exact hb.2

/-! ### In the place of the streams -/

/-- A message that is read as it was written. -/
structure Legible (K : MessageCodec) (m : BusMessage) : Prop where
  dumped : K.dumps m.payload ≠ ""
  loaded : K.loads (K.dumps m.payload) = some m.payload
  dated : K.fromisoformat (K.isoformat m.enqueuedAt) = some m.enqueuedAt
  once : m.deliveries = 1

/-- A queue whose stream is not the dead-letter stream of another. -/
def PlainQueue (queue : String) : Prop := ¬ "dlq:".toList <+: queue.toList

/-- A call that workers and producers make: on a plain queue, with a payload and a time that are
read as they were written, and for one message at least. -/
def BusRequest.Regular (K : MessageCodec) : BusRequest × BusChoice → Prop
  | (.enqueue queue name payload, γ) =>
      PlainQueue queue ∧ Legible K { name := name, payload := payload, enqueuedAt := γ.now }
  | (.consume queue _ count, _) => PlainQueue queue ∧ 0 < count
  | (.ack queue _, _) => PlainQueue queue
  | (.deadLetter queue _ _, _) => PlainQueue queue
  | (.depth queue, _) => PlainQueue queue

/-- The answers of the two buses: the same, but that a stream is as long as its queue or longer. -/
def BusAnswer.Mirrors : BusAnswer → BusAnswer → Prop
  | .depth n, .depth m => m ≤ n
  | a, a' => a = a'

/-- The streams and the queues: what is undelivered in a stream is what its queue holds. -/
structure Mirrored (B : StreamBus) (s : Streams) (b : MemoryBus) : Prop where
  depth : b.maxDepth = B.maxDepth
  sound : ∀ queue, PlainQueue queue → (s (B.stream queue)).Sound
  waiting : ∀ queue, PlainQueue queue → (s (B.stream queue)).undelivered.map (·.body) =
    (b.queues queue).map (BusMessage.encode B.codec)
  legible : ∀ queue, PlainQueue queue → ∀ m ∈ b.queues queue, Legible B.codec m

section Mirror

variable {B : StreamBus} {γ : BusChoice} {s : Streams} {b : MemoryBus}

theorem stream_ne_dlq {queue queue' : String} (h : PlainQueue queue') :
    B.stream queue' ≠ B.dlq queue := by
  intro heq
  have hlist := congrArg String.toList heq
  simp only [StreamBus.stream, StreamBus.dlq, String.toList_append, List.append_assoc] at hlist
  exact h ⟨queue.toList, (List.append_cancel_left hlist).symm⟩

/-- A legible message is decoded as it was, from its fields and whatever stands behind them. -/
theorem run_decode_encode {m : BusMessage} (h : Legible B.codec m) (more : Raw) (id : ℕ) :
    (BusMessage.decode B.codec m.name (m.encode B.codec ++ more) id).run (Streams.serve γ) s =
      (.ok { m with messageId := id }, s) := by
  have hpayload : BusMessage.loadPayload B.codec (m.encode B.codec ++ more) = .pure m.payload := by
    have hlookup : (m.encode B.codec ++ more).lookup "payload" =
        some (B.codec.dumps m.payload) := rfl
    rw [BusMessage.loadPayload, hlookup, Option.filter_some,
      if_pos (decide_eq_true h.dumped), Option.getD_some, h.loaded]
    rfl
  have hdated : BusMessage.loadEnqueuedAt B.codec (m.encode B.codec ++ more) =
      .pure m.enqueuedAt := by
    have hlookup : (m.encode B.codec ++ more).lookup "enqueued_at" =
        some (B.codec.isoformat m.enqueuedAt) := rfl
    rw [BusMessage.loadEnqueuedAt, hlookup, Option.getD_some, h.dated]
    rfl
  obtain ⟨name, payload, messageId, enqueuedAt, deliveries⟩ := m
  obtain rfl : deliveries = 1 := h.once
  simp only [BusMessage.decode, hpayload, hdated, Prog.bind_eq, Prog.run_bind, Prog.run,
    Prog.pure_eq]

/-- Legible messages are decoded as they were, but for their ids. -/
theorem run_decodeAll_encode {entries : List (StreamEntry Raw)} {messages : List BusMessage}
    (hbody : entries.map (·.body) = messages.map (BusMessage.encode B.codec))
    (h : ∀ m ∈ messages, Legible B.codec m) :
    ∃ decoded, (B.decodeAll entries).run (Streams.serve γ) s = (.ok decoded, s) ∧
      decoded.map BusMessage.shown = messages.map BusMessage.shown := by
  induction messages generalizing entries with
  | nil =>
      obtain rfl : entries = [] := List.map_eq_nil_iff.mp hbody
      exact ⟨[], rfl, rfl⟩
  | cons m messages ih =>
      cases entries with
      | nil => cases hbody
      | cons e entries =>
          obtain ⟨hm, hrest⟩ := List.forall_mem_cons.mp h
          simp only [List.map_cons, List.cons.injEq] at hbody
          obtain ⟨decoded, hrun, hshown⟩ := ih hbody.2 hrest
          refine ⟨{ m with messageId := e.id } :: decoded, ?_, ?_⟩
          · have hname : ((m.encode B.codec).lookup "name").getD "" = m.name := rfl
            have hdecode := run_decode_encode (γ := γ) (s := s) hm [] e.id
            rw [List.append_nil] at hdecode
            simp only [StreamBus.decodeAll, hbody.1, hname, Prog.bind_eq, Prog.run_bind, hdecode,
              hrun, Prog.run, Prog.pure_eq]
          · rw [List.map_cons, List.map_cons, hshown]
            rfl

theorem run_enqueue (queue name : String) (payload : Json) :
    (B.enqueue queue name payload).run (Streams.serve γ) s =
      if B.maxDepth ≤ (s (B.stream queue)).entries.length then (.error .queueSaturated, s)
      else (.ok (s (B.stream queue)).nextId, Function.update s (B.stream queue)
        ((s (B.stream queue)).add
          (BusMessage.encode B.codec { name := name, payload := payload, enqueuedAt := γ.now })
          (B.maxDepth * 2) γ.surplus).2) := by
  change (if B.maxDepth ≤ (s (B.stream queue)).entries.length then _
    else _ : BusProg ℕ).run (Streams.serve γ) s = _
  by_cases h : B.maxDepth ≤ (s (B.stream queue)).entries.length
  · rw [if_pos h, if_pos h]
    rfl
  · rw [if_neg h, if_neg h]
    rfl

/-- A queue is no longer than its stream, which keeps what was handed out. -/
theorem Mirrored.length_le (h : Mirrored B s b) {queue : String} (hp : PlainQueue queue) :
    (b.queues queue).length ≤ (s (B.stream queue)).entries.length := by
  have hw := congrArg List.length (h.waiting queue hp)
  rw [List.length_map, List.length_map] at hw
  exact hw ▸ List.length_filter_le _ _

/-- What changes where one stream and one queue do. -/
theorem Mirrored.update (h : Mirrored B s b) {queue : String} {t : GroupStream Raw}
    {messages : List BusMessage} {counter : ℕ} (hsound : PlainQueue queue → t.Sound)
    (hwaiting : t.undelivered.map (·.body) = messages.map (BusMessage.encode B.codec))
    (hlegible : ∀ m ∈ messages, Legible B.codec m) :
    Mirrored B (Function.update s (B.stream queue) t)
      { b with queues := Function.update b.queues queue messages, counter := counter } := by
  have other : ∀ queue', queue' ≠ queue → B.stream queue' ≠ B.stream queue := fun queue' hne heq =>
    hne (by simpa [StreamBus.stream] using heq)
  refine ⟨h.depth, fun queue' hp => ?_, fun queue' hp => ?_, fun queue' hp => ?_⟩
  · by_cases hq : queue' = queue
    · subst hq
      rw [Function.update_self]
      exact hsound hp
    · rw [Function.update_of_ne (other queue' hq)]
      exact h.sound queue' hp
  · by_cases hq : queue' = queue
    · subst hq
      rw [Function.update_self]
      simpa using hwaiting
    · rw [Function.update_of_ne (other queue' hq)]
      simpa [Function.update_of_ne hq] using h.waiting queue' hp
  · by_cases hq : queue' = queue
    · subst hq
      simpa using hlegible
    · simpa [Function.update_of_ne hq] using h.legible queue' hp

/-- An acknowledgement leaves what is undelivered. -/
theorem Mirrored.ack (h : Mirrored B s b) (queue : String) (messageId : ℕ) :
    Mirrored B (Function.update s (B.stream queue) ((s (B.stream queue)).ack messageId).2) b := by
  have same : ∀ queue', ((Function.update s (B.stream queue)
      ((s (B.stream queue)).ack messageId).2) (B.stream queue')).undelivered =
      (s (B.stream queue')).undelivered := by
    intro queue'
    by_cases hq : B.stream queue' = B.stream queue
    · rw [hq, Function.update_self]
      rfl
    · rw [Function.update_of_ne hq]
  refine ⟨h.depth, fun queue' hp => ?_, fun queue' hp => ?_, h.legible⟩
  · by_cases hq : B.stream queue' = B.stream queue
    · rw [hq, Function.update_self]
      exact (hq ▸ h.sound queue' hp).ack messageId
    · rw [Function.update_of_ne hq]
      exact h.sound queue' hp
  · rw [same queue']
    exact h.waiting queue' hp

/-- A dead letter goes to a stream of its own. -/
theorem Mirrored.deadLetter (h : Mirrored B s b) (queue : String) (t : GroupStream Raw) :
    Mirrored B (Function.update s (B.dlq queue) t) b := by
  have same : ∀ queue', PlainQueue queue' →
      Function.update s (B.dlq queue) t (B.stream queue') = s (B.stream queue') := fun queue' hp =>
    Function.update_of_ne (stream_ne_dlq hp) _ _
  exact ⟨h.depth, fun queue' hp => by rw [same queue' hp]; exact h.sound queue' hp,
    fun queue' hp => by rw [same queue' hp]; exact h.waiting queue' hp, h.legible⟩

/-- **The bus in memory goes with the bus on streams, call by call, where that one does not
refuse.** -/
theorem mirrored_simulates : SimulatesWhile (BusRequest.Regular B.codec) (Mirrored B)
    BusAnswer.Mirrors (· ≠ .refused) B.answer MemoryBus.answer := by
  rintro ⟨request, γ⟩ s b hreg h hok
  cases request with
  | enqueue queue name payload =>
      obtain ⟨hplain, hlegible⟩ := hreg
      have hsound := h.sound queue hplain
      simp only [StreamBus.answer, run_enqueue] at hok ⊢
      by_cases hfull : B.maxDepth ≤ (s (B.stream queue)).entries.length
      · rw [if_pos hfull] at hok
        exact absurd rfl hok
      · rw [if_neg hfull] at hok ⊢
        have hlen := h.length_le hplain
        have hroom : ¬ b.maxDepth ≤ (b.queues queue).length := by
          rw [h.depth]
          omega
        simp only [MemoryBus.answer, MemoryBus.enqueue, if_neg hroom]
        refine ⟨rfl, h.update (fun hp => hsound.add _ _ _) ?_ ?_⟩
        · rw [GroupStream.add_of_le (by omega), GroupStream.undelivered, List.filter_append,
            List.map_append, List.map_append]
          have hnew : ([⟨(s (B.stream queue)).nextId, BusMessage.encode B.codec
              { name := name, payload := payload, enqueuedAt := γ.now }⟩] :
              List (StreamEntry Raw)).filter
                (fun e => (s (B.stream queue)).lastDelivered < e.id) = _ :=
            List.filter_cons_of_pos (decide_eq_true hsound.delivered_lt)
          exact congrArg₂ (· ++ ·) (h.waiting queue hplain) (by rw [hnew]; rfl)
        · intro m hm
          rcases List.mem_append.mp hm with hm | hm
          · exact h.legible queue hplain m hm
          · rw [List.mem_singleton.mp hm]
            exact ⟨hlegible.dumped, hlegible.loaded, hlegible.dated, rfl⟩
  | consume queue consumer count =>
      obtain ⟨hplain, hcount⟩ := hreg
      have hsound := h.sound queue hplain
      have hwaiting := h.waiting queue hplain
      have hmax : max 1 count = count := Nat.max_eq_right hcount
      have hbatch : (s (B.stream queue)).batch count =
          (s (B.stream queue)).undelivered.take count := by
        rw [GroupStream.batch, if_neg (Nat.ne_of_gt hcount)]
      have hbody : ((s (B.stream queue)).batch count).map (·.body) =
          ((b.queues queue).take count).map (BusMessage.encode B.codec) := by
        rw [hbatch, List.map_take, hwaiting, List.map_take]
      obtain ⟨decoded, hrun, hshown⟩ := run_decodeAll_encode (γ := γ)
        (s := Function.update s (B.stream queue)
          ((s (B.stream queue)).read consumer count γ.now).2) hbody
        fun m hm => h.legible queue hplain m (List.mem_of_mem_take hm)
      have hconsume : (B.consume queue consumer count).run (Streams.serve γ) s =
          (.ok decoded, Function.update s (B.stream queue)
            ((s (B.stream queue)).read consumer count γ.now).2) := hrun
      simp only [StreamBus.answer, hconsume, MemoryBus.answer, MemoryBus.consume, hmax]
      refine ⟨congrArg BusAnswer.handed hshown, h.update (fun _ => hsound.read _ _ _) ?_
        fun m hm => h.legible queue hplain m (List.mem_of_mem_drop hm)⟩
      rw [hsound.undelivered_read, GroupStream.rest, if_neg (Nat.ne_of_gt hcount), List.map_drop,
        hwaiting, List.map_drop]
  | ack queue messageId =>
      have hm := h.ack queue messageId
      exact ⟨rfl, hm.depth, hm.sound, hm.waiting, hm.legible⟩
  | deadLetter queue message reason =>
      have hm := (h.deadLetter queue ((s (B.dlq queue)).add (message.encode B.codec ++
        [("reason", String.ofList (reason.toList.take 500)),
          ("failed_at", B.codec.isoformat message.enqueuedAt)]) 10000 γ.surplus).2).ack queue
            message.messageId
      exact ⟨rfl, hm.depth, hm.sound, hm.waiting, hm.legible⟩
  | depth queue => exact ⟨h.length_le hreg, h⟩

end Mirror

/-- The streams and the queues, before any call. -/
theorem mirrored_empty (B : StreamBus) :
    Mirrored B (fun _ => {}) { maxDepth := B.maxDepth } :=
  ⟨rfl, fun _ _ => .empty, fun _ _ => rfl, fun _ _ _ h => absurd h List.not_mem_nil⟩

/-- **As long as the bus on streams refuses nothing, the bus in memory answers as it does**: it
accepts the same messages and hands out the same ones, but for their ids, in the same batches,
whatever is acknowledged or dead-lettered in between; only its queues are no longer than the
streams. -/
theorem memory_bus_mirrors_stream_bus (B : StreamBus) {calls : List (BusRequest × BusChoice)}
    (hreg : ∀ call ∈ calls, BusRequest.Regular B.codec call)
    (hok : ∀ a ∈ B.answer.answers calls fun _ => {}, a ≠ .refused) :
    List.Forall₂ BusAnswer.Mirrors (B.answer.answers calls fun _ => {})
      (MemoryBus.answer.answers calls { maxDepth := B.maxDepth }) :=
  mirrored_simulates.answers hreg (mirrored_empty B) hok

/-- A bus with room for two messages, whose payloads are empty and whose clock stands still. -/
def stillBus : StreamBus := ⟨"ag:q:", "workers", 2, ⟨fun _ => "\x7b\x7d",
  fun text => if text = "\x7b\x7d" then some (.obj []) else none, fun _ => "0",
  fun text => if text = "0" then some 0 else none⟩⟩

/-- A message is enqueued, consumed and acknowledged, and the depth is looked at. -/
def onePassage : List (BusRequest × BusChoice) :=
  [(.enqueue "submit:default" "submit_upstream" (.obj []), ⟨0, 0, .ok ()⟩),
    (.consume "submit:default" "worker" 10, ⟨0, 0, .ok ()⟩),
    (.ack "submit:default" 1, ⟨0, 0, .ok ()⟩), (.depth "submit:default", ⟨0, 0, .ok ()⟩)]

theorem plainQueue_submit : PlainQueue "submit:default" := by
  unfold PlainQueue
  decide

/-- The stream is one entry long then, and the queue in memory is empty. -/
theorem memory_bus_mirrors_one_passage :
    stillBus.answer.answers onePassage (fun _ => {}) =
      [.accepted, .handed [("submit_upstream", .obj [], 0, 1)], .done, .depth 1] ∧
    List.Forall₂ BusAnswer.Mirrors (stillBus.answer.answers onePassage fun _ => {})
      (MemoryBus.answer.answers onePassage { maxDepth := stillBus.maxDepth }) := by
  have hanswers : stillBus.answer.answers onePassage (fun _ => {}) =
      [.accepted, .handed [("submit_upstream", .obj [], 0, 1)], .done, .depth 1] := rfl
  refine ⟨hanswers, memory_bus_mirrors_stream_bus stillBus (fun call hcall => ?_) fun a ha => ?_⟩
  · simp only [onePassage, List.mem_cons, List.not_mem_nil, or_false] at hcall
    rcases hcall with rfl | rfl | rfl | rfl
    · exact ⟨plainQueue_submit, ⟨by decide, rfl, rfl, rfl⟩⟩
    · exact ⟨plainQueue_submit, by decide⟩
    · exact plainQueue_submit
    · exact plainQueue_submit
  · rw [hanswers] at ha
    simp only [List.mem_cons, List.not_mem_nil, or_false] at ha
    rcases ha with rfl | rfl | rfl | rfl <;> simp

end AsyncGateway
