import AsyncGateway.Bus.Stream
import Mathlib.Data.List.Induction

/-!
# System — the capacity of a queue

Sequences of calls on the queues of a `StreamBus`, and the acceptance's look at the depth of a
queue.  A call is refused where the stream of its queue has as many entries as the queue has room
for; an acknowledged message stays an entry of the stream.

The refusals of a sequence are all justified, in that as many messages are enqueued and not
acknowledged, exactly when at every check the stream is short or nothing in it is acknowledged
(`refusals_justified_iff`).
-/

namespace AsyncGateway

open Interleave (Prog GroupStream)

/-- A call on the bus, or the acceptance's check of a queue. -/
inductive BusCall : Type where
  | enqueue (queue name : String) (payload : Json)
  | consume (queue consumer : String) (count : ℕ)
  | ack (queue : String) (messageId : ℕ)
  | checkCapacity (queue : String)

/-- The queue whose capacity a call is checked against. -/
def BusCall.checks : BusCall → Option String
  | .enqueue queue _ _ => some queue
  | .checkCapacity queue => some queue
  | _ => none

namespace StreamBus

variable (B : StreamBus)

/-- What a call does on the bus; what it returns is left out. -/
def body : BusCall → BusProg Unit
  | .enqueue queue name payload => do
      let _ ← B.enqueue queue name payload
      pure ()
  | .consume queue consumer count => do
      let _ ← B.consume queue consumer count
      pure ()
  | .ack queue messageId => B.ack queue messageId
  | .checkCapacity queue => B.checkCapacity queue

/-- The end of a call, and the streams after it. -/
def serve (call : BusCall × BusChoice) (s : Streams) : Except Exn Unit × Streams :=
  (B.body call.1).run (Streams.serve call.2) s

/-- The streams after a sequence of calls, from empty ones. -/
def after (calls : List (BusCall × BusChoice)) : Streams :=
  calls.foldl (fun s call => (B.serve call s).2) fun _ => {}

end StreamBus

/-- `QueueSaturated`, or the answer 503. -/
def IsRefusal : Except Exn Unit → Prop
  | .error .queueSaturated => True
  | .error (.acceptError 503 _) => True
  | _ => False

/-- The stream is short, or nothing in it is acknowledged. -/
def HasRoom (maxDepth : ℕ) (s : GroupStream Raw) : Prop :=
  s.entries.length < maxDepth ∨ ∀ e ∈ s.entries, e.id ∈ s.outstanding

/-- **The call is refused only where `max_depth` messages are enqueued and not acknowledged.** -/
def RefusalJustified (B : StreamBus) (call : BusCall × BusChoice) (s : Streams) : Prop :=
  ∀ queue ∈ call.1.checks, IsRefusal (B.serve call s).1 →
    B.maxDepth ≤ (s (B.stream queue)).outstanding.length

/-! ### What each call does -/

section Calls

variable (B : StreamBus) (γ : BusChoice) (s : Streams)

theorem serve_enqueue (queue name : String) (payload : Json) :
    B.serve (.enqueue queue name payload, γ) s =
      if B.maxDepth ≤ (s (B.stream queue)).entries.length then (.error .queueSaturated, s)
      else (.ok (), Function.update s (B.stream queue)
        ((s (B.stream queue)).add
          (BusMessage.encode B.codec { name := name, payload := payload, enqueuedAt := γ.now })
          (B.maxDepth * 2) γ.surplus).2) := by
  change ((if B.maxDepth ≤ (s (B.stream queue)).entries.length then _
    else _ : BusProg ℕ).bind fun _ => pure ()).run (Streams.serve γ) s = _
  by_cases h : B.maxDepth ≤ (s (B.stream queue)).entries.length
  · rw [if_pos h, if_pos h]
    rfl
  · rw [if_neg h, if_neg h]
    rfl

theorem serve_ack (queue : String) (messageId : ℕ) :
    B.serve (.ack queue messageId, γ) s =
      (.ok (), Function.update s (B.stream queue) ((s (B.stream queue)).ack messageId).2) := rfl

theorem serve_checkCapacity (queue : String) :
    B.serve (.checkCapacity queue, γ) s =
      if B.maxDepth ≤ (s (B.stream queue)).entries.length then
        (.error (.acceptError 503 ("queue " ++ queue ++ " saturated")), s)
      else (.ok (), s) := by
  change (if B.maxDepth ≤ (s (B.stream queue)).entries.length then _
    else _ : BusProg Unit).run (Streams.serve γ) s = _
  by_cases h : B.maxDepth ≤ (s (B.stream queue)).entries.length
  · rw [if_pos h, if_pos h]
    rfl
  · rw [if_neg h, if_neg h]
    rfl

/-- The program leaves the streams. -/
def Idle {α : Type} (γ : BusChoice) (p : BusProg α) : Prop :=
  ∀ s, (p.run (Streams.serve γ) s).2 = s

variable {γ}

theorem Idle.pure {α : Type} (a : α) : Idle γ (Prog.pure a) := fun _ => rfl

theorem Idle.bind {α β : Type} {p : BusProg α} {f : α → BusProg β} (hp : Idle γ p)
    (hf : ∀ a, Idle γ (f a)) : Idle γ (p.bind f) := by
  intro s
  have hs := hp s
  rw [Prog.run_bind]
  generalize p.run (Streams.serve γ) s = r at hs ⊢
  obtain ⟨r, s'⟩ := r
  obtain rfl : s' = s := hs
  cases r with
  | error x => rfl
  | ok a => exact hf a s'

theorem idle_decode (K : MessageCodec) (name : String) (raw : Raw) (id : ℕ) :
    Idle γ (BusMessage.decode K name raw id) := by
  refine Idle.bind ?_ fun payload => Idle.bind ?_ fun enqueuedAt => .pure _
  · unfold BusMessage.loadPayload
    split <;> exact fun _ => rfl
  · unfold BusMessage.loadEnqueuedAt
    split <;> exact fun _ => rfl

theorem idle_decodeAll (entries : List (Interleave.StreamEntry Raw)) :
    Idle γ (B.decodeAll entries) := by
  induction entries with
  | nil => exact .pure _
  | cons entry entries ih =>
      exact Idle.bind (idle_decode _ _ _ _) fun message => Idle.bind ih fun messages => .pure _

/-- Consuming reads the stream of the queue, whether the messages can be decoded or not. -/
theorem serve_consume (queue consumer : String) (count : ℕ) :
    (B.serve (.consume queue consumer count, γ) s).2 =
      Function.update s (B.stream queue) ((s (B.stream queue)).read consumer count γ.now).2 :=
  Idle.bind (idle_decodeAll B ((s (B.stream queue)).read consumer count γ.now).1) (fun _ => .pure _)
    (Function.update s (B.stream queue) ((s (B.stream queue)).read consumer count γ.now).2)

end Calls

/-! ### Sequences of calls -/

section Sequences

variable (B : StreamBus)

/-- What every sequence of calls keeps of a stream. -/
structure Untrimmed (maxDepth : ℕ) (s : GroupStream Raw) : Prop where
  sound : s.Sound
  whole : s.Whole
  short : s.entries.length ≤ maxDepth

theorem untrimmed_empty (maxDepth : ℕ) : Untrimmed maxDepth {} :=
  ⟨.empty, .empty, Nat.zero_le _⟩

variable {B} {s : Streams}

theorem untrimmed_update {key : String} {t : GroupStream Raw}
    (hs : ∀ key, Untrimmed B.maxDepth (s key)) (ht : Untrimmed B.maxDepth t) :
    ∀ key', Untrimmed B.maxDepth (Function.update s key t key') := by
  intro key'
  by_cases h : key' = key
  · subst h
    rwa [Function.update_self]
  · rw [Function.update_of_ne h]
    exact hs key'

theorem untrimmed_add {t : GroupStream Raw} (h : Untrimmed B.maxDepth t)
    (hlt : ¬ B.maxDepth ≤ t.entries.length) (fields : Raw) (surplus : ℕ) :
    Untrimmed B.maxDepth (t.add fields (B.maxDepth * 2) surplus).2 := by
  have hl : t.entries.length < B.maxDepth * 2 := by omega
  refine ⟨h.sound.add _ _ _, h.whole.add hl _, ?_⟩
  rw [GroupStream.add_of_le hl]
  simp only [List.length_append, List.length_singleton]
  omega

/-- One call keeps the streams untrimmed. -/
theorem untrimmed_serve (hs : ∀ key, Untrimmed B.maxDepth (s key)) (call : BusCall × BusChoice) :
    ∀ key, Untrimmed B.maxDepth ((B.serve call s).2 key) := by
  obtain ⟨call, γ⟩ := call
  cases call with
  | enqueue queue name payload =>
      rw [serve_enqueue]
      split
      · exact hs
      · exact untrimmed_update hs (untrimmed_add (hs _) ‹_› _ _)
  | consume queue consumer count =>
      rw [serve_consume]
      have h := hs (B.stream queue)
      exact untrimmed_update hs ⟨h.sound.read _ _ _, h.whole.read h.sound _ _ _, h.short⟩
  | ack queue messageId =>
      rw [serve_ack]
      have h := hs (B.stream queue)
      exact untrimmed_update hs ⟨h.sound.ack _, h.whole.ack _, h.short⟩
  | checkCapacity queue =>
      rw [serve_checkCapacity]
      split <;> exact hs

/-- Every sequence of calls keeps the streams untrimmed. -/
theorem untrimmed_after (calls : List (BusCall × BusChoice)) :
    ∀ key, Untrimmed B.maxDepth (B.after calls key) := by
  induction calls using List.reverseRecOn with
  | nil => exact fun _ => untrimmed_empty _
  | append_singleton calls call ih =>
      rw [StreamBus.after, List.foldl_append]
      exact untrimmed_serve ih call

/-- A call is refused exactly where its stream is full. -/
theorem isRefusal_iff {call : BusCall × BusChoice} {queue : String}
    (hq : queue ∈ call.1.checks) :
    IsRefusal (B.serve call s).1 ↔ B.maxDepth ≤ (s (B.stream queue)).entries.length := by
  obtain ⟨call, γ⟩ := call
  cases call with
  | enqueue queue' name payload =>
      cases hq
      rw [serve_enqueue]
      split <;> simp [IsRefusal, *]
  | checkCapacity queue' =>
      cases hq
      rw [serve_checkCapacity]
      split <;> simp [IsRefusal, *]
  | consume queue' consumer count => cases hq
  | ack queue' messageId => cases hq

/-- One check: its refusal is justified exactly where there is room. -/
theorem refusalJustified_iff (hs : ∀ key, Untrimmed B.maxDepth (s key))
    (call : BusCall × BusChoice) :
    RefusalJustified B call s ↔
      ∀ queue ∈ call.1.checks, HasRoom B.maxDepth (s (B.stream queue)) := by
  refine forall_congr' fun queue => forall_congr' fun hq => ?_
  have h := hs (B.stream queue)
  have hfull := h.sound.length_le_outstanding_iff h.whole
  rw [isRefusal_iff hq, HasRoom, ← hfull, ← Nat.not_le]
  have hshort := h.short
  constructor
  · intro hj
    by_cases hd : B.maxDepth ≤ (s (B.stream queue)).entries.length
    · exact .inr (hshort.trans (hj hd))
    · exact .inl hd
  · rintro (hd | hle) hd'
    · exact absurd hd' hd
    · exact hd'.trans hle

/-- **The refusals of a sequence of calls are all justified exactly when every check finds a short
stream or one in which nothing is acknowledged.** -/
theorem refusals_justified_iff (B : StreamBus) (calls : List (BusCall × BusChoice)) :
    (∀ before call later, calls = before ++ call :: later →
        RefusalJustified B call (B.after before)) ↔
      ∀ before call later, calls = before ++ call :: later → ∀ queue ∈ call.1.checks,
        HasRoom B.maxDepth (B.after before (B.stream queue)) :=
  forall_congr' fun before => forall_congr' fun call => forall_congr' fun _ =>
    forall_congr' fun _ => refusalJustified_iff (untrimmed_after before) call

end Sequences

/-! ### A queue with room for one message -/

/-- The functions of `json` and `datetime` on an empty payload and at the epoch. -/
def epochCodec : MessageCodec where
  dumps _ := "\x7b\x7d"
  loads text := if text = "\x7b\x7d" then some (.obj []) else none
  isoformat _ := "1970-01-01T00:00:00+00:00"
  fromisoformat text := if text = "1970-01-01T00:00:00+00:00" then some 0 else none

def shortBus : StreamBus := ⟨"ag:q:", "workers", 1, epochCodec⟩

/-- One message is enqueued, consumed and acknowledged. -/
def acknowledgedOne : List (BusCall × BusChoice) :=
  [(.enqueue "submit:default" "submit" (.obj []), ⟨0, 0, .ok ()⟩),
    (.consume "submit:default" "worker" 10, ⟨0, 0, .ok ()⟩),
    (.ack "submit:default" 1, ⟨0, 0, .ok ()⟩)]

/-- **The acknowledged message fills the queue.** -/
theorem acknowledged_message_fills_the_queue :
    ¬ ∀ (B : StreamBus) (calls before later : List (BusCall × BusChoice))
      (call : BusCall × BusChoice), calls = before ++ call :: later →
        RefusalJustified B call (B.after before) := by
  intro h
  have hj := h shortBus _ acknowledgedOne []
    (.enqueue "submit:default" "submit" (.obj []), ⟨0, 0, .ok ()⟩) rfl "submit:default" rfl
  have hfull : 1 ≤ (shortBus.after acknowledgedOne
      (shortBus.stream "submit:default")).entries.length := by decide
  have hnone : (shortBus.after acknowledgedOne
      (shortBus.stream "submit:default")).outstanding = [] := by decide
  have := hj ((isRefusal_iff rfl).mpr hfull)
  rw [hnone] at this
  exact absurd this (by decide)

end AsyncGateway
