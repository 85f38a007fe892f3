import AsyncGateway.Bus.Memory
import AsyncGateway.Workers.Worker

/-!
# Workers — what a worker's programs keep to

A worker looks, hands what it read or claimed to its handler, and acknowledges what its handler was
done with.  So a protocol that says what a program holds after an answer (`WorkerRules`) is kept by
every worker (`WorkerRules.follows_worker`).  What is decoded from an entry has the entry's id and
one delivery, and is the message that was written there (`Decoded`).
-/

namespace Interleave

variable {S : Sig} {ε κ α : Type} {P : Protocol S ε κ}

/-- What every operation keeps, every program keeps. -/
theorem Leads.keep {p : Prog S ε α} {m : P.State} {Φ : α → P.State → Prop} {J : P.State → Prop}
    (hJ : ∀ m o r, J m → J (P.next m o r)) (h : Leads P p m Φ) (hm : J m) :
    Leads P p m fun a m' => Φ a m' ∧ J m' := by
  induction p generalizing m with
  | pure a => exact ⟨h, hm⟩
  | raise x => trivial
  | op o k ih => exact ⟨h.1, fun r => ih r (h.2 r) (hJ m o r hm)⟩

end Interleave

namespace AsyncGateway

open Interleave

/-! ### What is decoded -/

/-- A message that was decoded from an entry. -/
structure Decoded (K : MessageCodec) (e : StreamEntry Raw) (message : BusMessage) : Prop where
  id : message.messageId = e.id
  once : message.deliveries = 1
  read : ∀ m, Legible K m → e.body = m.encode K → message = { m with messageId := e.id }

/-- The entries an answer hands out, each with the key of its stream. -/
def handsOut : (o : BusOp) → Except Exn o.Ans → List (String × StreamEntry Raw)
  | .xreadgroup _ _ key _, .ok entries => entries.map fun e => (key, e)
  | .xautoclaim key _ _ _ _ _, .ok answer => answer.2.map fun e => (key, e)
  | _, _ => []

/-- The commands a worker may send at any time. -/
def looks : BusOp → Bool
  | .xgroupCreate _ _ | .xreadgroup _ _ _ _ | .xautoclaim _ _ _ _ _ _ | .now => true
  | _ => false

/-- A protocol that the workers of a bus keep to: what it takes a program to hold, and to be done
with. -/
structure WorkerRules (P : Protocol busSig Exn BusActor) (B : StreamBus) where
  /-- The program holds the message of that queue. -/
  Holds : String → BusMessage → P.State → Prop
  /-- The program may acknowledge the message of that queue. -/
  Done : String → ℕ → P.State → Prop
  looks : ∀ {m o}, looks o = true → P.allows m o
  keeps : ∀ {queue message} m o r, Holds queue message m → Holds queue message (P.next m o r)
  reads : ∀ {queue e message} m o r, (B.stream queue, e) ∈ handsOut o r →
    Decoded B.codec e message → Holds queue message (P.next m o r)
  dispatches : ∀ {queue message m}, Holds queue message m → P.allows m (.dispatch queue message)
  dispatched : ∀ {queue message} m, Done queue message.messageId
    (P.next m (.dispatch queue message) (.ok ()))
  acks : ∀ {queue id m}, Done queue id m → P.allows m (.xack (B.stream queue) B.group id)
  returns : ∀ m, P.done m

section Decoding

variable {P : Protocol busSig Exn BusActor} {B : StreamBus} (H : WorkerRules P B) {m : P.State}
include H

theorem WorkerRules.leads_decode (e : StreamEntry Raw) :
    Leads P (BusMessage.decode B.codec ((e.body.lookup "name").getD "") e.body e.id) m
      fun message _ => Decoded B.codec e message := by
  have hpayload : Leads P (BusMessage.loadPayload B.codec e.body) m fun payload _ =>
      B.codec.loads (((e.body.lookup "payload").filter (· ≠ "")).getD "\x7b\x7d") =
        some payload := by
    unfold BusMessage.loadPayload
    split
    · next h => exact .pure h
    · exact .raise _
  have hdated : ∀ m, Leads P (BusMessage.loadEnqueuedAt B.codec e.body) m fun t _ => ∀ t',
      B.codec.fromisoformat ((e.body.lookup "enqueued_at").getD "") = some t' → t = t' := by
    intro m
    unfold BusMessage.loadEnqueuedAt
    split
    · next h => exact .pure fun t' ht => Option.some.inj (h.symm.trans ht)
    · next h => exact .perform (H.looks rfl) fun _ t' ht => nomatch h.symm.trans ht
  refine .bind (hpayload.mono fun payload _ hp => .bind ((hdated _).mono fun t _ ht => .pure ?_))
  refine ⟨rfl, rfl, fun message hm hbody => ?_⟩
  obtain ⟨name, payload', messageId, enqueuedAt, deliveries⟩ := message
  obtain rfl : deliveries = 1 := hm.once
  rw [hbody] at hp ht ⊢
  obtain rfl : payload = payload' := by
    have hlookup : ((BusMessage.encode B.codec ⟨name, payload', messageId, enqueuedAt, 1⟩).lookup
        "payload") = some (B.codec.dumps payload') := rfl
    rw [hlookup, Option.filter_some, if_pos (decide_eq_true hm.dumped), Option.getD_some] at hp
    exact Option.some.inj (hp.symm.trans hm.loaded)
  obtain rfl : t = enqueuedAt := ht _ hm.dated
  rfl

theorem WorkerRules.leads_decodeAll (entries : List (StreamEntry Raw)) :
    Leads P (B.decodeAll entries) m fun messages _ =>
      ∀ message ∈ messages, ∃ e ∈ entries, Decoded B.codec e message := by
  induction entries generalizing m with
  | nil => exact .pure fun _ h => absurd h List.not_mem_nil
  | cons e entries ih =>
      refine .bind ((H.leads_decode e).mono fun message _ he => .bind (ih.mono fun messages _ h =>
        .pure (List.forall_mem_cons.mpr ⟨⟨e, List.mem_cons_self, he⟩, fun message' hm => ?_⟩)))
      obtain ⟨e', he', hd⟩ := h message' hm
      exact ⟨e', List.mem_cons_of_mem _ he', hd⟩

end Decoding

namespace WorkerRules

variable {P : Protocol busSig Exn BusActor} {B : StreamBus} (H : WorkerRules P B) {m : P.State}

/-- The program holds the messages, of one delivery each. -/
def HoldsAll (queue : String) (messages : List BusMessage) (m : P.State) : Prop :=
  ∀ message ∈ messages, message.deliveries = 1 ∧ H.Holds queue message m

variable {H} in
theorem HoldsAll.next {queue : String} {messages : List BusMessage}
    (h : H.HoldsAll queue messages m) (o : BusOp) (r : Except Exn o.Ans) :
    H.HoldsAll queue messages (P.next m o r) := fun message hm =>
  ⟨(h message hm).1, H.keeps m o r (h message hm).2⟩

include H

/-- What is decoded from the entries of an answer is held. -/
theorem leads_handed {queue : String} {entries : List (StreamEntry Raw)}
    (h : ∀ e ∈ entries, ∀ message, Decoded B.codec e message → H.Holds queue message m) :
    Leads P (B.decodeAll entries) m fun messages m' => H.HoldsAll queue messages m' := by
  refine ((H.leads_decodeAll entries).keep (J := fun m' => ∀ e ∈ entries, ∀ message,
    Decoded B.codec e message → H.Holds queue message m')
    (fun m' o r hJ e he message hd => H.keeps m' o r (hJ e he message hd)) h).mono
      fun messages m' hboth message hm => ?_
  obtain ⟨e, he, hd⟩ := hboth.1 message hm
  exact ⟨hd.once, hboth.2 e he message hd⟩

theorem leads_ensureQueue (queue : String) :
    Leads P (B.ensureQueue queue) m fun _ _ => True := by
  refine .tryCatch (I := fun _ => True) (wp_perform.mpr ⟨H.looks rfl, fun r => ?_⟩)
    fun x _ _ => .ite (fun _ => .pure trivial) fun _ => .raise x
  cases r <;> trivial

theorem leads_consume (queue consumer : String) (count : ℕ) :
    Leads P (B.consume queue consumer count) m fun messages m' =>
      H.HoldsAll queue messages m' :=
  .bind ((H.leads_ensureQueue queue).mono fun _ m₁ _ => .bind (.perform (H.looks rfl)
    fun entries => H.leads_handed fun _ he _ hd =>
      H.reads m₁ (.xreadgroup B.group consumer (B.stream queue) count) (.ok entries)
        (List.mem_map_of_mem he) hd))

theorem leads_claimFrom (queue consumer : String) (minIdle : Seconds) (count fuel cursor : ℕ) :
    Leads P (B.claimFrom queue consumer minIdle count fuel cursor) m fun messages m' =>
      H.HoldsAll queue messages m' := by
  induction fuel generalizing cursor m with
  | zero => exact .raise _
  | succ fuel ih =>
      refine .bind (.perform (H.looks rfl) fun answer => .bind ((H.leads_handed fun _ he _ hd =>
        H.reads m (.xautoclaim (B.stream queue) B.group consumer minIdle cursor count) (.ok answer)
          (List.mem_map_of_mem (List.mem_of_mem_filter he)) hd).mono fun claimed m₁ hclaimed =>
            .ite (fun _ => .pure hclaimed) fun _ => .bind (((ih (m := m₁) _).keep
              (fun _ o r hJ => hJ.next o r) hclaimed).mono fun more m₂ hboth => .pure ?_)))
      intro message hm
      rcases List.mem_append.mp hm with hm | hm
      · exact hboth.2 message hm
      · exact hboth.1 message hm

variable (W : WorkerArgs) (hW : W.bus = B)

/-- A fresh message that is done may be acknowledged. -/
theorem leads_handleFresh {queue : String} {message : BusMessage}
    (h : message.deliveries = 1 ∧ H.Holds queue message m) :
    Leads P (W.handleFresh queue message) m fun done m' =>
      done = true → H.Done queue message.messageId m' := by
  refine .tryCatch (I := fun _ => True) ?_ fun x m' _ => ?_
  · refine wp_bind.mpr (wp_perform.mpr ⟨H.dispatches h.2, fun r => ?_⟩)
    cases r with
    | ok a => exact fun _ => H.dispatched m
    | error x => trivial
  · -- one delivery is less than three, so nothing is dead-lettered
    have hgive : W.giveUp queue message x = .pure () := by
      rw [WorkerArgs.giveUp, h.1]
      rfl
    rw [hgive]
    exact .pure fun hfalse => absurd hfalse Bool.false_ne_true

include hW

theorem leads_ack {queue : String} {id : ℕ} (h : H.Done queue id m) :
    Leads P (W.bus.ack queue id) m fun _ _ => True := by
  subst hW
  exact .bind (.perform (H.acks h) fun _ => .pure trivial)

theorem leads_handleMessages (queue : String) (processed : ℕ) {messages : List BusMessage}
    (h : H.HoldsAll queue messages m) :
    Leads P (W.handleMessages queue processed messages) m fun _ _ => True := by
  induction messages generalizing processed m with
  | nil => exact .pure trivial
  | cons message messages ih =>
      obtain ⟨hone, hrest⟩ := List.forall_mem_cons.mp h
      have kept : ∀ m o r, H.HoldsAll queue messages m → H.HoldsAll queue messages (P.next m o r) :=
        fun _ o r hm => hm.next o r
      refine .bind (((H.leads_handleFresh W hone).keep kept hrest).mono fun done m₁ hd => ?_)
      refine .ite (fun hdone => .bind (((H.leads_ack W hW (hd.1 hdone)).keep kept hd.2).mono
        fun _ m₂ ha => ?_)) fun _ => ih _ hd.2
      exact .ite (fun _ => .pure trivial) fun _ => ih _ ha.2

theorem leads_consumeQueues (processed : ℕ) (queues : List String) :
    Leads P (W.consumeQueues processed queues) m fun _ _ => True := by
  induction queues generalizing processed m with
  | nil => exact .pure trivial
  | cons queue queues ih =>
      subst hW
      exact .bind ((H.leads_consume queue W.consumer 10).mono fun messages _ h =>
        .bind ((H.leads_handleMessages W rfl queue processed h).mono fun a _ _ =>
          .ite (fun _ => .pure trivial) fun _ => ih _))

/-- A claimed message is acknowledged after it was handled. -/
theorem leads_replay {queue : String} {stale : BusMessage} (h : H.Holds queue stale m) :
    Leads P (W.replay queue stale) m fun _ _ => True := by
  refine .tryCatch (I := fun _ => True) ?_ fun x _ _ => .pure trivial
  refine wp_bind.mpr (wp_perform.mpr ⟨H.dispatches h, fun r => ?_⟩)
  cases r with
  | ok a =>
      exact wp_mono (fun r _ _ => by cases r <;> trivial) (H.leads_ack W hW (H.dispatched m))
  | error x => trivial

theorem leads_replayAll (queue : String) {stales : List BusMessage}
    (h : H.HoldsAll queue stales m) : Leads P (W.replayAll queue stales) m fun _ _ => True := by
  induction stales generalizing m with
  | nil => exact .pure trivial
  | cons stale stales ih =>
      obtain ⟨hone, hrest⟩ := List.forall_mem_cons.mp h
      exact .bind (((H.leads_replay W hW hone.2).keep (J := fun m' => H.HoldsAll queue stales m')
        (fun _ o r hm => hm.next o r) hrest).mono fun _ _ hd => ih hd.2)

theorem leads_claimQueues (queues : List String) :
    Leads P (W.claimQueues queues) m fun _ _ => True := by
  induction queues generalizing m with
  | nil => exact .pure trivial
  | cons queue queues ih =>
      subst hW
      exact .bind ((H.leads_claimFrom queue W.consumer 60 20 W.claimFuel 0).mono fun stales _ h =>
        .bind ((H.leads_replayAll W rfl queue h).mono fun _ _ _ => ih))

theorem leads_loop (rounds ticks processed : ℕ) :
    Leads P (W.loop rounds ticks processed) m fun _ _ => True := by
  induction rounds generalizing m ticks processed with
  | zero => exact .pure trivial
  | succ rounds ih =>
      exact .bind ((H.leads_consumeQueues W hW processed W.queues).mono fun a _ _ =>
        .bind ((Leads.ite (fun _ => H.leads_claimQueues W hW W.queues) fun _ => .pure trivial).mono
          fun _ _ _ => .ite (fun _ => .pure trivial) fun _ => ih _ _))

theorem leads_ensureQueues (queues : List String) :
    Leads P (W.ensureQueues queues) m fun _ _ => True := by
  induction queues generalizing m with
  | nil => exact .pure trivial
  | cons queue queues ih =>
      subst hW
      exact .bind ((H.leads_ensureQueue queue).mono fun _ _ _ => ih)

omit hW in
/-- **The workers of the bus keep to the protocol.** -/
theorem follows_worker (rounds : ℕ) : Follows P ((busPool B).body (.worker W rounds)) m :=
  .bind ((H.leads_ensureQueues { W with bus := B } rfl W.queues).mono fun _ _ _ =>
    (H.leads_loop { W with bus := B } rfl rounds 0 0).mono fun _ m' _ => H.returns m')

end WorkerRules

end AsyncGateway
