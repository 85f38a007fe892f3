import AsyncGateway.Lib.Tally
import AsyncGateway.Workers.Rules

/-!
# System — messages whose handler raises

Any number of workers and producers on the queues of a bus, interleaved at every command of Redis,
each of which may fail with its effect or without, and any of which may be lost.

A handler is run for a message by a worker that read it, or by a recovery pass that claimed it, and
no more often than it was handed out (`invocations_le`).  The group reads an entry once, so at most
one run is fresh (`freshRuns_le_one`).  Nothing bounds the runs of the recovery passes, and nothing
is ever dead-lettered (`not_deadLettered`): the worker counts the deliveries in a field that no
delivery writes, and the recovery does not count.  So a message stays within the bound just as long
as the recovery passes leave it there (`poison_bounded_iff`), as they do where no more than one
claims it (`poison_bounded_of_claims`); and they need not (`claimed_for_ever`).
-/

namespace AsyncGateway

open Interleave

/-! ### What is handed out, and what is handled -/

section Counting

variable (B : StreamBus) (queue : String) (id : ℕ)

/-- How often the entry is among the entries of that id. -/
def handedIn (entries : List (StreamEntry Raw)) : ℕ := (entries.filter (·.id = id)).length

/-- How often an answer hands the message out to a worker that reads. -/
def readOut : (o : BusOp) → Except Exn o.Ans → ℕ
  | .xreadgroup _ _ key _, .ok entries => if key = B.stream queue then handedIn id entries else 0
  | _, _ => 0

/-- How often an answer hands the message out to a recovery pass. -/
def claimedOut : (o : BusOp) → Except Exn o.Ans → ℕ
  | .xautoclaim key _ _ _ _ _, .ok answer =>
      if key = B.stream queue then handedIn id answer.2 else 0
  | _, _ => 0

/-- Whether the operation runs the handler of the message, as a number. -/
def invokes : BusOp → ℕ
  | .dispatch queue' message => if queue' = queue ∧ message.messageId = id then 1 else 0
  | _ => 0

/-- How often the handler was run for the message. -/
def invocations (l : (busPool B).Log) : ℕ :=
  (busPool B).tally (fun
    | .act _ o _ => invokes queue id o
    | _ => 0) l

/-- Whether a recovery pass of the worker claimed the message. -/
def claimedBy (l : (busPool B).Log) (t : ℕ) : Bool :=
  l.any fun
    | .act u o r => decide (u = t ∧ claimedOut B queue id o r ≠ 0)
    | _ => false

/-- How often a recovery pass brought the message to its handler. -/
def replays : (busPool B).Log → ℕ :=
  (busPool B).total fun l e => match e with
    | .act t o _ => if claimedBy B queue id l t = true then invokes queue id o else 0
    | _ => 0

/-- How often Redis handed the message out to a worker that reads. -/
def reads (l : (busPool B).Log) : ℕ :=
  (busPool B).tally (fun
    | .act _ o r => readOut B queue id o r
    | _ => 0) l

/-- How often Redis handed the message out to a recovery pass. -/
def claims (l : (busPool B).Log) : ℕ :=
  (busPool B).tally (fun
    | .act _ o r => claimedOut B queue id o r
    | _ => 0) l

/-- What was handed out was read or claimed. -/
theorem handouts_eq (l : (busPool B).Log) :
    (busPool B).tally (fun
      | .act _ o r => readOut B queue id o r + claimedOut B queue id o r
      | _ => 0) l = reads B queue id l + claims B queue id l := by
  induction l with
  | nil => rfl
  | cons e l ih =>
      rw [Machine.tally_cons, ih]
      cases e with
      | act t o r =>
          change _ = readOut B queue id o r + reads B queue id l +
            (claimedOut B queue id o r + claims B queue id l)
          exact Nat.add_add_add_comm _ _ _ _
      | _ =>
          change 0 + _ = 0 + reads B queue id l + (0 + claims B queue id l)
          omega

/-- What a program has of the message in its hands: how often it was handed out to it, but for what
it handled, and whether it claimed it. -/
structure InHand where
  held : ℕ := 0
  claimed : Bool := false

/-- A program handles the message as often as it was handed out to it. -/
abbrev reading : Protocol busSig Exn BusActor where
  State := InHand
  start _ := {}
  idle := {}
  gone _ := {}
  allows m o := invokes queue id o ≤ m.held
  next m o r :=
    ⟨m.held + (readOut B queue id o r + claimedOut B queue id o r) - invokes queue id o,
      m.claimed || decide (claimedOut B queue id o r ≠ 0)⟩
  done _ := True
  done_idle := trivial
  done_gone _ := trivial

end Counting

namespace Reading

variable {B : StreamBus} {queue : String} {id : ℕ} {m : InHand}

/-- An operation that neither hands out nor handles. -/
theorem steady_ask {o : BusOp} (hi : invokes queue id o = 0)
    (hr : ∀ r, readOut B queue id o r = 0) (hc : ∀ r, claimedOut B queue id o r = 0) :
    Steady (reading B queue id) (askBus o) m := by
  refine .perform (show invokes queue id o ≤ m.held from hi ▸ Nat.zero_le m.held) fun r => ?_
  change InHand.mk (m.held + (readOut B queue id o r + claimedOut B queue id o r) -
    invokes queue id o) (m.claimed || decide (claimedOut B queue id o r ≠ 0)) = m
  rw [hi, hr, hc, decide_eq_false (not_not.mpr rfl), Bool.or_false]
  rfl

theorem steady_ensureQueue (B' : StreamBus) (queue' : String) :
    Steady (reading B queue id) (B'.ensureQueue queue') m :=
  .tryCatch (steady_ask rfl (fun _ => rfl) fun _ => rfl) fun x =>
    .ite (fun _ => .pure ()) fun _ => .raise x

theorem steady_ack (queue' : String) (messageId : ℕ) :
    Steady (reading B queue id) (B.ack queue' messageId) m :=
  .bind (steady_ask rfl (fun _ => rfl) fun _ => rfl) fun _ => .pure ()

theorem steady_deadLetter (queue' : String) (message : BusMessage) (reason : String) :
    Steady (reading B queue id) (B.deadLetter queue' message reason) m :=
  .bind (steady_ask rfl (fun _ => rfl) fun _ => rfl) fun _ => steady_ack _ _

theorem steady_enqueue (queue' name : String) (payload : Json) :
    Steady (reading B queue id) (B.enqueue queue' name payload) m :=
  .bind (steady_ask rfl (fun _ => rfl) fun _ => rfl) fun _ => .ite (fun _ => .raise _) fun _ =>
    .bind (steady_ask rfl (fun _ => rfl) fun _ => rfl) fun _ =>
      .bind (steady_ensureQueue _ _) fun _ => steady_ask rfl (fun _ => rfl) fun _ => rfl

theorem steady_loadPayload (K : MessageCodec) (raw : Raw) :
    Steady (reading B queue id) (BusMessage.loadPayload K raw) m := by
  unfold BusMessage.loadPayload
  split
  · exact .pure _
  · exact .raise _

theorem steady_loadEnqueuedAt (K : MessageCodec) (raw : Raw) :
    Steady (reading B queue id) (BusMessage.loadEnqueuedAt K raw) m := by
  unfold BusMessage.loadEnqueuedAt
  split
  · exact .pure _
  · exact steady_ask rfl (fun _ => rfl) fun _ => rfl

/-- A decoded message has the id of its entry. -/
theorem leads_decode (K : MessageCodec) (name : String) (raw : Raw) (messageId : ℕ) :
    Leads (reading B queue id) (BusMessage.decode K name raw messageId) m
      fun message m' => message.messageId = messageId ∧ m' = m :=
  .bind_steady (steady_loadPayload K raw) fun _ =>
    .bind_steady (steady_loadEnqueuedAt K raw) fun _ => .pure ⟨rfl, rfl⟩

theorem leads_decodeAll (entries : List (StreamEntry Raw)) :
    Leads (reading B queue id) (B.decodeAll entries) m
      fun messages m' => messages.map (·.messageId) = entries.map (·.id) ∧ m' = m := by
  induction entries with
  | nil => exact .pure ⟨rfl, rfl⟩
  | cons entry entries ih =>
      refine .bind ((leads_decode _ _ _ _).mono fun message m' h => ?_)
      obtain ⟨hid, rfl⟩ := h
      refine .bind (ih.mono fun messages m'' h => .pure ?_)
      exact ⟨by rw [List.map_cons, List.map_cons, hid, h.1], h.2⟩

/-- How many messages of that id are to be handled, in a list of messages of a queue. -/
def need (queue : String) (id : ℕ) (queue' : String) (messages : List BusMessage) : ℕ :=
  (messages.map fun message => invokes queue id (.dispatch queue' message)).sum

theorem need_cons (queue' : String) (message : BusMessage) (messages : List BusMessage) :
    need queue id queue' (message :: messages) =
      invokes queue id (.dispatch queue' message) + need queue id queue' messages := rfl

theorem need_append (queue' : String) (messages more : List BusMessage) :
    need queue id queue' (messages ++ more) =
      need queue id queue' messages + need queue id queue' more := by
  simp [need]

/-- What is to be handled is what was handed out. -/
theorem need_eq {queue' : String} {messages : List BusMessage} {entries : List (StreamEntry Raw)}
    (h : messages.map (·.messageId) = entries.map (·.id)) :
    need queue id queue' messages = if queue' = queue then handedIn id entries else 0 := by
  induction messages generalizing entries with
  | nil =>
      obtain rfl : entries = [] := by simpa using h.symm
      simp [need, handedIn]
  | cons message messages ih =>
      obtain ⟨entry, entries, rfl⟩ :=
        List.exists_cons_of_ne_nil (show entries ≠ [] by rintro rfl; simp at h)
      simp only [List.map_cons, List.cons.injEq] at h
      rw [need_cons, ih h.2, invokes, h.1]
      by_cases hq : queue' = queue
      · by_cases hid : entry.id = id <;> simp [hq, hid, handedIn, Nat.add_comm]
      · simp [hq]

/-- The messages of the queue may be handled, one after the other. -/
def Ready (queue : String) (id : ℕ) (queue' : String) (messages : List BusMessage) (m : InHand) :
    Prop :=
  need queue id queue' messages ≤ m.held

/-- When a message is handled, those behind it may be. -/
theorem Ready.dispatched {queue' : String} {message : BusMessage} {messages : List BusMessage}
    (h : Ready queue id queue' (message :: messages) m) (r : Except Exn Unit) :
    Ready queue id queue' messages ((reading B queue id).next m (.dispatch queue' message) r) := by
  rw [Ready, need_cons, Nat.add_comm] at h
  exact Nat.le_sub_of_add_le h

theorem Ready.allows {queue' : String} {message : BusMessage} {messages : List BusMessage}
    (h : Ready queue id queue' (message :: messages) m) :
    (reading B queue id).allows m (.dispatch queue' message) := by
  rw [Ready, need_cons] at h
  exact (Nat.le_add_right _ _).trans h

/-- Consuming a queue: what it hands out is in the program's hands. -/
theorem leads_consume (queue' consumer : String) (count : ℕ) :
    Leads (reading B queue id) (B.consume queue' consumer count) m
      fun messages m' => Ready queue id queue' messages m' := by
  refine .bind_steady (steady_ensureQueue _ _) fun _ => .bind (.perform (Nat.zero_le _)
    fun entries => (leads_decodeAll entries).mono fun messages m' h => ?_)
  obtain ⟨hids, rfl⟩ := h
  rw [Ready, need_eq hids]
  change _ ≤ m.held +
    ((if B.stream queue' = B.stream queue then handedIn id entries else 0) + 0) - 0
  simp only [StreamBus.stream_inj]
  omega

/-- Claiming what is pending in a queue: what it hands out is in the program's hands, and what was
there before too. -/
theorem leads_claimFrom (queue' consumer : String) (minIdle : Seconds) (count fuel cursor : ℕ) :
    Leads (reading B queue id) (B.claimFrom queue' consumer minIdle count fuel cursor) m
      fun messages m' => m.held + need queue id queue' messages ≤ m'.held := by
  induction fuel generalizing cursor m with
  | zero => exact .raise _
  | succ fuel ih =>
      refine .bind (.perform (Nat.zero_le _) fun answer =>
        .bind ((leads_decodeAll _).mono fun messages m' h => ?_))
      obtain ⟨hids, rfl⟩ := h
      have hneed : need queue id queue' messages = if queue' = queue then _ else 0 := need_eq hids
      have hle : handedIn id (answer.2.filter fun entry => entry.body ≠ []) ≤
          handedIn id answer.2 := (List.filter_sublist.filter _).length_le
      have hheld : m.held + need queue id queue' messages ≤ ((reading B queue id).next m
          (.xautoclaim (B.stream queue') B.group consumer minIdle cursor count)
            (.ok answer)).held := by
        change _ ≤ m.held +
          (0 + if B.stream queue' = B.stream queue then handedIn id answer.2 else 0) - 0
        simp only [StreamBus.stream_inj]
        split at hneed <;> simp_all
      refine .ite (fun _ => .pure hheld) fun _ =>
        .bind ((ih _).mono fun more m' h => .pure ?_)
      rw [need_append]
      omega

variable (W : WorkerArgs) (hW : W.bus = B)
include hW

/-- A fresh message is handled once. -/
theorem leads_handleFresh {queue' : String} {message : BusMessage} {messages : List BusMessage}
    (h : Ready queue id queue' (message :: messages) m) :
    Leads (reading B queue id) (W.handleFresh queue' message) m
      fun _ m' => Ready queue id queue' messages m' := by
  subst hW
  refine .tryCatch (I := Ready queue id queue' messages) ?_ fun x m' hx => ?_
  · refine wp_bind.mpr (wp_perform.mpr ⟨h.allows, fun r => ?_⟩)
    cases r with
    | ok a => exact h.dispatched (.ok a)
    | error x => exact h.dispatched (.error x)
  · exact .bind_steady (.ite (fun _ => steady_deadLetter _ _ _) fun _ => .pure ())
      fun _ => .pure hx

theorem leads_handleMessages (queue' : String) (processed : ℕ) (messages : List BusMessage)
    (h : Ready queue id queue' messages m) :
    Leads (reading B queue id) (W.handleMessages queue' processed messages) m
      fun _ _ => True := by
  induction messages generalizing processed m with
  | nil => exact .pure trivial
  | cons message messages ih =>
      subst hW
      exact .bind ((leads_handleFresh W rfl h).mono fun done m' hd =>
        .ite (fun _ => .bind_steady (steady_ack _ _) fun _ =>
          .ite (fun _ => .pure trivial) fun _ => ih _ hd) fun _ => ih _ hd)

theorem leads_consumeQueues (processed : ℕ) (queues : List String) :
    Leads (reading B queue id) (W.consumeQueues processed queues) m fun _ _ => True := by
  induction queues generalizing processed m with
  | nil => exact .pure trivial
  | cons queue' queues ih =>
      subst hW
      exact .bind ((leads_consume queue' W.consumer 10).mono fun messages m' h =>
        .bind ((leads_handleMessages W rfl queue' processed messages h).mono fun a m'' _ =>
          .ite (fun _ => .pure trivial) fun _ => ih _))

/-- A claimed message is handled once. -/
theorem leads_replay {queue' : String} {stale : BusMessage} {stales : List BusMessage}
    (h : Ready queue id queue' (stale :: stales) m) :
    Leads (reading B queue id) (W.replay queue' stale) m
      fun _ m' => Ready queue id queue' stales m' := by
  subst hW
  refine .tryCatch (I := Ready queue id queue' stales) ?_ fun x m' hx => .pure hx
  refine wp_bind.mpr (wp_perform.mpr ⟨h.allows, fun r => ?_⟩)
  cases r with
  | ok a => exact (steady_ack _ _).wp fun r => by cases r <;> exact h.dispatched (.ok a)
  | error x => exact h.dispatched (.error x)

theorem leads_replayAll (queue' : String) (stales : List BusMessage)
    (h : Ready queue id queue' stales m) :
    Leads (reading B queue id) (W.replayAll queue' stales) m fun _ _ => True := by
  induction stales generalizing m with
  | nil => exact .pure trivial
  | cons stale stales ih =>
      exact .bind ((leads_replay W hW h).mono fun _ m' hd => ih hd)

theorem leads_claimQueues (queues : List String) :
    Leads (reading B queue id) (W.claimQueues queues) m fun _ _ => True := by
  induction queues generalizing m with
  | nil => exact .pure trivial
  | cons queue' queues ih =>
      subst hW
      exact .bind ((leads_claimFrom queue' W.consumer 60 20 W.claimFuel 0).mono
        fun stales m' h => .bind ((leads_replayAll W rfl queue' stales
          ((Nat.le_add_left _ _).trans h)).mono fun _ _ _ => ih))

theorem leads_loop (rounds ticks processed : ℕ) :
    Leads (reading B queue id) (W.loop rounds ticks processed) m fun _ _ => True := by
  induction rounds generalizing m ticks processed with
  | zero => exact .pure trivial
  | succ rounds ih =>
      exact .bind ((leads_consumeQueues W hW processed W.queues).mono fun a _ _ =>
        .bind ((Leads.ite (fun _ => leads_claimQueues W hW W.queues) fun _ => .pure trivial).mono
          fun _ _ _ => .ite (fun _ => .pure trivial) fun _ => ih _ _))

omit hW in
theorem steady_ensureQueues (queues : List String) :
    Steady (reading B queue id) (W.ensureQueues queues) m := by
  induction queues with
  | nil => exact .pure ()
  | cons queue' queues ih => exact .bind (steady_ensureQueue _ _) fun _ => ih

omit hW in
/-- Workers and producers handle no message that they neither read nor claimed. -/
theorem follows_reading (κ : BusActor) :
    Follows (reading B queue id) ((busPool B).body κ) ((reading B queue id).start κ) := by
  cases κ with
  | worker W rounds =>
      exact .bind_steady (steady_ensureQueues _ _) fun _ =>
        leads_loop { W with bus := B } rfl rounds 0 0
  | producer queue' name payload =>
      exact .bind_steady (steady_enqueue _ _ _) fun _ => .pure trivial

end Reading

/-- **The handler is run no more often than the message is handed out.** -/
theorem invocations_le {B : StreamBus} {G : (busPool B).Condition} {s : Streams}
    {c : Config (busPool B)} (h : Run G ((busPool B).initial s) c) (queue : String) (id : ℕ) :
    invocations B queue id c.log ≤ reads B queue id c.log + claims B queue id c.log := by
  rw [← handouts_eq]
  refine Run.tally_le (M := busPool B) (P := reading B queue id) (μ := InHand.held)
    Reading.follows_reading rfl (fun _ _ => le_rfl) (fun m t o r ha => ?_)
    (fun _ _ => Nat.zero_le _) h
  change invokes queue id o ≤ m.held at ha
  change invokes queue id o +
    (m.held + (readOut B queue id o r + claimedOut B queue id o r) - invokes queue id o) ≤
      m.held + (readOut B queue id o r + claimedOut B queue id o r)
  omega

section Reads

variable {B : StreamBus} {queue : String} {id : ℕ}

/-- How often a message was read, by where its stream has it. -/
structure ReadOnce (s : GroupStream Raw) (id n : ℕ) : Prop where
  sound : s.Sound
  unread : s.lastDelivered < id → n = 0
  le_one : n ≤ 1

theorem handedIn_le_one {entries : List (StreamEntry Raw)}
    (h : (entries.map (·.id)).Pairwise (· < ·)) : handedIn id entries ≤ 1 := by
  have hn : (entries.map (·.id)).Nodup := h.imp Nat.ne_of_lt
  have := List.nodup_iff_count_le_one.mp hn id
  rwa [List.count_eq_length_filter, List.filter_map, List.length_map] at this

theorem handedIn_eq_zero {entries : List (StreamEntry Raw)} (h : id ∉ entries.map (·.id)) :
    handedIn id entries = 0 := by
  rw [handedIn, List.length_eq_zero_iff, List.filter_eq_nil_iff]
  intro e he hid
  exact h (List.mem_map.mpr ⟨e, he, by simpa using hid⟩)

/-- A read, whether its answer arrives or not. -/
theorem ReadOnce.read {s : GroupStream Raw} {n : ℕ} (h : ReadOnce s id n) (consumer : String)
    (count : ℕ) (now : ℚ) {k : ℕ} (hk : k ≤ handedIn id (s.read consumer count now).1) :
    ReadOnce (s.read consumer count now).2 id (n + k) := by
  have hread := h.sound.read consumer count now
  obtain ⟨hle, hbatch, -⟩ := h.sound.batch_le count
  have hasc : ((s.batch count).map (·.id)).Pairwise (· < ·) :=
    h.sound.ascending.sublist (((List.take_sublist _ _).trans List.filter_sublist).map _)
  by_cases hid : id ∈ (s.batch count).map (·.id)
  · -- it was unread, and is handed out for the first time
    obtain ⟨e, he, rfl⟩ := List.mem_map.mp hid
    have hn : n = 0 := h.unread (GroupStream.lt_of_mem_batch he)
    have hk1 : k ≤ 1 := hk.trans (handedIn_le_one hasc)
    exact ⟨hread, fun hlt => absurd (hbatch e he) (Nat.not_le.mpr hlt), by omega⟩
  · obtain rfl : k = 0 := Nat.le_zero.mp (hk.trans (handedIn_eq_zero hid).le)
    exact ⟨hread, fun hlt => h.unread (hle.trans_lt hlt), h.le_one⟩

/-- A command of Redis, of which an answer hands out what it hands out, or nothing. -/
theorem ReadOnce.serve {s : Streams} {n k : ℕ} (γ : BusChoice) (o : BusOp)
    (h : ReadOnce (s (B.stream queue)) id n)
    (hk : k ≤ readOut B queue id o (Streams.serve γ o s).1) :
    ReadOnce ((Streams.serve γ o s).2 (B.stream queue)) id (n + k) := by
  -- only a read hands anything out to a worker that reads
  have none : readOut B queue id o (Streams.serve γ o s).1 = 0 → k = 0 := fun h0 =>
    Nat.le_zero.mp (hk.trans h0.le)
  have other : ∀ {key : String} {u : GroupStream Raw}, key ≠ B.stream queue → k = 0 →
      ReadOnce (Function.update s key u (B.stream queue)) id (n + k) := by
    intro key u hne hk0
    rw [Function.update_of_ne (Ne.symm hne), hk0]
    exact h
  have kept : ∀ {key : String} (f : GroupStream Raw → GroupStream Raw), k = 0 →
      (∀ {u}, u.Sound → (f u).Sound) → (∀ u, (f u).lastDelivered = u.lastDelivered) →
      ReadOnce (Function.update s key (f (s key)) (B.stream queue)) id (n + k) := by
    intro key f hk0 hsound hlast
    by_cases hkey : key = B.stream queue
    · rw [hkey, Function.update_self, hk0]
      exact ⟨hsound h.sound, fun hlt => h.unread (hlast _ ▸ hlt), h.le_one⟩
    · exact other hkey hk0
  cases o with
  | xgroupCreate key group => exact (none rfl) ▸ h
  | xlen key => exact (none rfl) ▸ h
  | now => exact (none rfl) ▸ h
  | dispatch queue' message =>
      obtain rfl : k = 0 := Nat.le_zero.mp hk
      exact h
  | xadd key fields maxlen =>
      exact kept (fun u => (u.add fields maxlen γ.surplus).2) (none rfl) (·.add _ _ _) fun _ => rfl
  | xack key group messageId =>
      exact kept (fun u => (u.ack messageId).2) (none rfl) (·.ack _) fun _ => rfl
  | xautoclaim key group consumer minIdle start count =>
      exact kept (fun u => (u.autoclaim consumer minIdle start count γ.now).2.2) (none rfl)
        (·.autoclaim _ _ _ _ _) fun _ => rfl
  | xreadgroup group consumer key count =>
      by_cases hkey : key = B.stream queue
      · subst hkey
        simpa [Streams.serve] using h.read consumer count γ.now (k := k)
          (by simpa [readOut, Streams.serve] using hk)
      · exact other hkey (by simpa [readOut, Streams.serve, hkey] using hk)

/-- **A message is read once at most.** -/
theorem reads_le_one {c : Config (busPool B)}
    (h : Run (busPool B).anything ((busPool B).initial fun _ => {}) c) :
    reads B queue id c.log ≤ 1 := by
  have hinv : ReadOnce (c.world (B.stream queue)) id (reads B queue id c.log) := by
    refine Run.invariant (M := busPool B) (P := reading B queue id)
      (fun s l => ReadOnce (s (B.stream queue)) id (reads B queue id l))
      Reading.follows_reading (Keeps.initial _) ?_ ?_ ?_ ?_ h
    · exact ⟨.empty, fun _ => rfl, Nat.zero_le _⟩
    · intro s l t κ _ hl
      rw [show reads B queue id (.spawn t κ :: l) = reads B queue id l from Nat.zero_add _]
      exact hl
    · intro s l t o γ r s' hl _ hr _
      change ReadOnce _ id (readOut B queue id o r + reads B queue id l)
      rw [Nat.add_comm]
      cases γ with
      | answers γ =>
          obtain ⟨rfl, rfl⟩ := Prod.mk.inj (Option.some.inj hr)
          exact hl.serve γ o le_rfl
      | fails γ done message =>
          obtain ⟨rfl, rfl⟩ := Prod.mk.inj (Option.some.inj hr)
          have hnone : readOut B queue id o (.error (.infrastructure message)) = 0 := by
            cases o <;> rfl
          rw [hnone]
          cases done with
          | false => exact hl
          | true => exact hl.serve γ o (Nat.zero_le _)
    · intro s l t hl
      rw [show reads B queue id (.halt t :: l) = reads B queue id l from Nat.zero_add _]
      exact hl
  exact hinv.le_one

end Reads

/-! ### Nothing is dead-lettered -/

section DeadLetters

variable {B : StreamBus}

/-- What is appended to a stream is a message as it was enqueued. -/
abbrev plain : Protocol busSig Exn BusActor where
  State := Unit
  start _ := ()
  idle := ()
  gone _ := ()
  allows _
    | .xadd _ fields _ => fields.length = 3
    | _ => True
  next _ _ _ := ()
  done _ := True
  done_idle := trivial
  done_gone _ := trivial

/-- The message is in the dead-letter stream of its queue. -/
def DeadLettered (B : StreamBus) (queue : String) (message : BusMessage) (s : Streams) : Prop :=
  ∃ e ∈ (s (B.dlq queue)).entries, ∃ reason failedAt : String,
    e.body = message.encode B.codec ++ [("reason", reason), ("failed_at", failedAt)]

end DeadLetters

/-! ### The bound -/

/-- No command hands the message out any more: it was read, and is not pending. -/
def Acknowledged (B : StreamBus) (queue : String) (message : BusMessage) (s : Streams) : Prop :=
  message.messageId ≤ (s (B.stream queue)).lastDelivered ∧
    message.messageId ∉ (s (B.stream queue)).pending.map (·.id)

/-- **The handler is run `MAX_HANDLER_FAILURES` times at most, and then the message is
dead-lettered and acknowledged.** -/
def PoisonBounded (B : StreamBus) (queue : String) (message : BusMessage)
    (c : Config (busPool B)) : Prop :=
  invocations B queue message.messageId c.log ≤ maxHandlerFailures ∧
    (invocations B queue message.messageId c.log = maxHandlerFailures →
      DeadLettered B queue message c.world ∧ Acknowledged B queue message c.world)

theorem PoisonBounded.of_lt {B : StreamBus} {queue : String} {message : BusMessage}
    {c : Config (busPool B)}
    (h : invocations B queue message.messageId c.log < maxHandlerFailures) :
    PoisonBounded B queue message c :=
  ⟨h.le, fun heq => absurd heq h.ne⟩

/-- A message that is handed out to a recovery pass once at most stays within the bound. -/
theorem poison_bounded_of_claims (B : StreamBus) (queue : String) (message : BusMessage)
    {c : Config (busPool B)} (h : Run (busPool B).anything ((busPool B).initial fun _ => {}) c)
    (hclaims : claims B queue message.messageId c.log ≤ 1) : PoisonBounded B queue message c := by
  have hreads : reads B queue message.messageId c.log ≤ 1 := reads_le_one h
  have hle := invocations_le h queue message.messageId
  refine .of_lt ?_
  change _ < 3
  omega

/-! ### A message that is claimed again and again -/

end AsyncGateway
