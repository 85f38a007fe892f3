import AsyncGateway.System.Capacity
import AsyncGateway.Workers.Rules
import Mathlib.Data.Finset.Card

/-!
# System — what becomes of an accepted message

The workers and producers of `busPool` again, interleaved at every command, each of which may fail
with its effect or without, and any of which may be lost.

A worker acknowledges a message of a queue only after its own handler run for it was over without an
exception: `dead_letter`, the other way to an acknowledgement, is for a message with three
deliveries, and a decoded message has one.  So an entry of a stream is undelivered or pending until
a handler of it was done (`handled_at_least_once`).

A producer appends only after it found room, but others may append in between.  Where at most `k`
others are between their look and their append whenever a producer finds room, a stream holds at
most `max_depth + k` entries; and up to `max_depth` of them, nothing is ever trimmed
(`overshoot_is_bounded`).
-/

namespace AsyncGateway

open Interleave

/-! ### What a program may do to a queue -/

/-- What a program did so far: its handler run for the message was over, and it found room in the
queue and did not append yet. -/
structure Deeds where
  handled : Bool := false
  cleared : Bool := false

/-- An answer that ends a handler run for the message. -/
def handles (queue : String) (id : ℕ) : (o : BusOp) → Except Exn o.Ans → Bool
  | .dispatch queue' message, .ok _ => decide (queue' = queue ∧ message.messageId = id)
  | _, _ => false

/-- An answer that finds room in the queue. -/
def clears (B : StreamBus) (queue : String) : (o : BusOp) → Except Exn o.Ans → Bool
  | .xlen key, .ok depth => decide (key = B.stream queue ∧ depth < B.maxDepth)
  | _, _ => false

/-- An append to the queue. -/
def appends (B : StreamBus) (queue : String) : BusOp → Bool
  | .xadd key _ _ => decide (key = B.stream queue)
  | _ => false

/-- A program acknowledges what it handled, and appends where it found room. -/
abbrev deeds (B : StreamBus) (queue : String) (id : ℕ) : Protocol busSig Exn BusActor where
  State := Deeds
  start _ := {}
  idle := {}
  gone m := { m with cleared := false }
  allows m
    | .xack key _ id' => key = B.stream queue → id' = id → m.handled = true
    | .xadd key _ maxlen => key = B.stream queue → m.cleared = true ∧ maxlen = B.maxDepth * 2
    | _ => True
  next m o r := ⟨m.handled || handles queue id o r,
    (m.cleared || clears B queue o r) && !appends B queue o⟩
  done _ := True
  done_idle := trivial
  done_gone _ := trivial

namespace Deeds

variable {B : StreamBus} {queue : String} {id : ℕ}

/-- A worker acknowledges what it handled. -/
def rules (B : StreamBus) (queue : String) (id : ℕ) : WorkerRules (deeds B queue id) B where
  Holds _ _ _ := True
  Done queue' id' m := queue' = queue → id' = id → m.handled = true
  looks h := by
    rename_i o
    cases o <;> trivial
  keeps _ _ _ _ := trivial
  reads _ _ _ _ _ := trivial
  dispatches _ := trivial
  dispatched m hq hid := by
    change (m.handled || decide (_ = queue ∧ _ = id)) = true
    rw [decide_eq_true ⟨hq, hid⟩, Bool.or_true]
  acks h hkey := h (StreamBus.stream_inj.mp hkey)
  returns _ := trivial

/-- A producer appends after it found room. -/
theorem leads_enqueue {m : Deeds} (queue' name : String) (payload : Json) :
    Leads (deeds B queue id) (B.enqueue queue' name payload) m fun _ _ => True := by
  -- a command that is no append and no look at the length leaves a producer as it is
  have still : ∀ {o : BusOp} {m : Deeds}, (∀ r, (deeds B queue id).next m o r = m) →
      (deeds B queue id).allows m o → Steady (deeds B queue id) (askBus o) m := fun hn ha =>
    .perform ha hn
  have kept : ∀ m : Deeds,
      (⟨m.handled || false, (m.cleared || false) && true⟩ : Deeds) = m := fun m => by simp
  have ensured : ∀ m : Deeds, Steady (deeds B queue id) (B.ensureQueue queue') m := fun m =>
    .tryCatch (still (fun _ => kept m) trivial) fun x =>
      .ite (fun _ => .pure ()) fun _ => .raise x
  refine .bind (.perform trivial fun depth => .ite (fun _ => .raise _) fun hroom => ?_)
  refine .bind_steady (still (fun _ => kept _) trivial) fun now =>
    .bind_steady (ensured _) fun _ => .perform (fun hkey => ⟨?_, rfl⟩) fun _ => trivial
  change ((m.cleared || decide (B.stream queue' = B.stream queue ∧ depth < B.maxDepth)) && true) =
    true
  rw [decide_eq_true ⟨hkey, Nat.not_le.mp hroom⟩, Bool.or_true, Bool.true_and]

/-- Workers and producers acknowledge what they handled, and append where they found room. -/
theorem follows_deeds (κ : BusActor) :
    Follows (deeds B queue id) ((busPool B).body κ) ((deeds B queue id).start κ) := by
  cases κ with
  | worker W rounds => exact (rules B queue id).follows_worker W rounds
  | producer queue' name payload =>
      exact .bind ((leads_enqueue queue' name payload).mono fun _ _ _ => .pure trivial)

end Deeds

/-- What a program of the pool did so far. -/
def deedsOf (B : StreamBus) (queue : String) (id : ℕ) (l : (busPool B).Log) (t : ℕ) :
    Deeds :=
  Protocol.after (M := busPool B) (deeds B queue id) l t

theorem deedsOf_self {B : StreamBus} {queue : String} {id : ℕ} {l : (busPool B).Log}
    (e : Event busSig Exn BusActor) : deedsOf B queue id (e :: l) e.thread =
      Protocol.turn (M := busPool B) (deeds B queue id) e (deedsOf B queue id l e.thread) :=
  Protocol.after_self (M := busPool B) e

theorem deedsOf_of_ne {B : StreamBus} {queue : String} {id : ℕ} {l : (busPool B).Log}
    {e : Event busSig Exn BusActor} {t : ℕ} (h : t ≠ e.thread) :
    deedsOf B queue id (e :: l) t = deedsOf B queue id l t :=
  Protocol.after_of_ne (M := busPool B) h

/-! ### What a stream holds was handled, or will be handed out -/

/-- A handler run of that program for the message was over. -/
def HandledBy (B : StreamBus) (queue : String) (id t : ℕ) (l : (busPool B).Log) : Prop :=
  ∃ o r, (Event.act t o r : Event busSig Exn BusActor) ∈ l ∧ handles queue id o r = true

theorem HandledBy.cons {B : StreamBus} {queue : String} {id t : ℕ} {l : (busPool B).Log}
    (h : HandledBy B queue id t l) (e : Event busSig Exn BusActor) :
    HandledBy B queue id t (e :: l) := by
  obtain ⟨o, r, hmem, hr⟩ := h
  exact ⟨o, r, List.mem_cons_of_mem _ hmem, hr⟩

/-- A handler run for the message was over. -/
def Handled (B : StreamBus) (queue : String) (id : ℕ) (l : (busPool B).Log) : Prop :=
  ∃ t, HandledBy B queue id t l

theorem Handled.cons {B : StreamBus} {queue : String} {id : ℕ} {l : (busPool B).Log}
    (h : Handled B queue id l) (e : Event busSig Exn BusActor) : Handled B queue id (e :: l) := by
  obtain ⟨t, ht⟩ := h
  exact ⟨t, ht.cons e⟩

/-- Every acknowledgement of the message comes after a handler run of the program that sends it. -/
def AckedAfter (B : StreamBus) (queue : String) (id : ℕ) (l : (busPool B).Log) : Prop :=
  ∀ (later earlier : (busPool B).Log) (t : ℕ) (group : String) (r : Except Exn ℕ),
    l = later ++ .act t (.xack (B.stream queue) group id) r :: earlier →
      HandledBy B queue id t earlier

theorem AckedAfter.cons {B : StreamBus} {queue : String} {id : ℕ} {l : (busPool B).Log}
    (h : AckedAfter B queue id l) {e : Event busSig Exn BusActor}
    (he : ∀ t group r, e = .act t (.xack (B.stream queue) group id) r →
      HandledBy B queue id t l) : AckedAfter B queue id (e :: l) := by
  intro later earlier t group r hl
  cases later with
  | nil =>
      obtain ⟨rfl, rfl⟩ := List.cons.inj hl
      exact he t group r rfl
  | cons e' later => exact h later earlier t group r (List.cons.inj hl).2

/-- The state of a queue, as far as one of its messages goes. -/
structure Accounted (B : StreamBus) (queue : String) (id : ℕ) (s : Streams)
    (l : (busPool B).Log) : Prop where
  sound : (s (B.stream queue)).Sound
  own : ∀ t, (deedsOf B queue id l t).handled = true → HandledBy B queue id t l
  acked : AckedAfter B queue id l
  kept : id ∈ (s (B.stream queue)).entries.map (·.id) →
    id ∈ (s (B.stream queue)).outstanding ∨ Handled B queue id l

namespace Accounted

variable {B : StreamBus} {queue : String} {id : ℕ} {s : Streams} {l : (busPool B).Log}

/-- An event that handles the message is in the log; another leaves the program as it was. -/
theorem own_cons (h : Accounted B queue id s l) (e : Event busSig Exn BusActor) (t : ℕ)
    (ht : (deedsOf B queue id (e :: l) t).handled = true) :
    HandledBy B queue id t (e :: l) := by
  by_cases hne : t = e.thread
  · subst hne
    rw [deedsOf_self] at ht
    cases e with
    | spawn u κ => exact absurd ht Bool.false_ne_true
    | halt u => exact (h.own _ ht).cons _
    | act u o r =>
        rcases Bool.or_eq_true_iff.mp ht with ht | ht
        · exact (h.own _ ht).cons _
        · exact ⟨o, r, List.mem_cons_self, ht⟩
  · rw [deedsOf_of_ne hne] at ht
    exact (h.own t ht).cons _

/-- An acknowledgement is one of a program that handled the message. -/
theorem acked_act (h : Accounted B queue id s l) {t : ℕ} {o : BusOp} {r : Except Exn o.Ans}
    (ha : (deeds B queue id).allows (deedsOf B queue id l t) o) :
    AckedAfter B queue id (.act t o r :: l) :=
  h.acked.cons fun u group r' heq => by
    cases heq
    exact h.own _ (ha rfl rfl)

/-- An event that leaves the streams alone, and acknowledges nothing that was not handled. -/
theorem cons (h : Accounted B queue id s l) {e : Event busSig Exn BusActor}
    (hacked : AckedAfter B queue id (e :: l)) : Accounted B queue id s (e :: l) :=
  ⟨h.sound, h.own_cons e, hacked, fun he => (h.kept he).imp_right fun hh => hh.cons e⟩

/-- A command of Redis, whether its answer arrives or not. -/
theorem serve (h : Accounted B queue id s l) {t : ℕ} {o : BusOp} {r : Except Exn o.Ans}
    (γ : BusChoice) (ha : (deeds B queue id).allows (deedsOf B queue id l t) o) :
    Accounted B queue id (Streams.serve γ o s).2 (.act t o r :: l) := by
  -- what one command does to the stream of the queue, if it is a command on that stream
  have update : ∀ {key : String} {u : GroupStream Raw}, (key = B.stream queue →
      u.Sound ∧ (id ∈ u.entries.map (·.id) → id ∈ u.outstanding ∨ Handled B queue id l)) →
      Accounted B queue id (Function.update s key u) (.act t o r :: l) := by
    intro key u hu
    by_cases hkey : key = B.stream queue
    · subst hkey
      obtain ⟨hsound, hkept⟩ := hu rfl
      refine ⟨by rwa [Function.update_self], h.own_cons _, h.acked_act ha, fun he => ?_⟩
      rw [Function.update_self] at he ⊢
      exact (hkept he).imp_right fun hh => hh.cons _
    · have hs : Function.update s key u (B.stream queue) = s (B.stream queue) :=
        Function.update_of_ne (Ne.symm hkey) _ _
      refine ⟨by rw [hs]; exact h.sound, h.own_cons _, h.acked_act ha, fun he => ?_⟩
      rw [hs] at he ⊢
      exact (h.kept he).imp_right fun hh => hh.cons _
  cases o with
  | xgroupCreate key group => exact h.cons (h.acked_act ha)
  | xlen key => exact h.cons (h.acked_act ha)
  | now => exact h.cons (h.acked_act ha)
  | dispatch queue' message => exact h.cons (h.acked_act ha)
  | xadd key fields maxlen =>
      refine update fun hkey => ?_
      subst hkey
      refine ⟨h.sound.add _ _ _, fun he => ?_⟩
      obtain ⟨e, hmem, hid⟩ := List.mem_map.mp he
      rcases h.sound.mem_add hmem with hold | hnew
      · have hin : id ∈ (s (B.stream queue)).entries.map (·.id) := hid ▸ List.mem_map_of_mem hold
        exact (h.kept hin).imp_left fun hout => GroupStream.mem_outstanding_add he hout
      · exact .inl (hid ▸ hnew)
  | xreadgroup group consumer key count =>
      refine update fun hkey => ?_
      subst hkey
      exact ⟨h.sound.read _ _ _, fun he =>
        (h.kept he).imp_left fun hout => h.sound.mem_outstanding_read.mpr hout⟩
  | xack key group id' =>
      refine update fun hkey => ?_
      subst hkey
      refine ⟨h.sound.ack _, fun he => ?_⟩
      by_cases hid : id = id'
      · exact .inr ⟨t, h.own t (ha rfl hid.symm)⟩
      · exact (h.kept he).imp_left fun hout => GroupStream.mem_outstanding_ack hid hout
  | xautoclaim key group consumer minIdle start count =>
      refine update fun hkey => ?_
      subst hkey
      exact ⟨h.sound.autoclaim _ _ _ _ _, fun he =>
        (h.kept he).imp_left fun hout => GroupStream.mem_outstanding_autoclaim he hout⟩

end Accounted

/-- Before anything happened. -/
theorem accounted_initial (B : StreamBus) (queue : String) (id : ℕ) :
    Accounted B queue id (fun _ => {}) [] :=
  ⟨.empty, fun _ h => absurd h Bool.false_ne_true, fun later _ _ _ _ hl =>
    absurd hl.symm (List.append_ne_nil_of_right_ne_nil later (List.cons_ne_nil _ _)),
    fun h => absurd h List.not_mem_nil⟩

/-- What holds of a message in every run. -/
theorem accounted_run {B : StreamBus} {G : (busPool B).Condition} {c : Config (busPool B)}
    (h : Run G ((busPool B).initial fun _ => {}) c) (queue : String) (id : ℕ) :
    Accounted B queue id c.world c.log := by
  refine Run.invariant (M := busPool B) (P := deeds B queue id)
    (fun s l => Accounted B queue id s l) Deeds.follows_deeds (Keeps.initial _)
    (accounted_initial B queue id)
    (fun _ _ _ _ _ hl => hl.cons (hl.acked.cons fun _ _ _ heq => nomatch heq)) ?_
    (fun _ _ _ hl => hl.cons (hl.acked.cons fun _ _ _ heq => nomatch heq)) h
  intro s l t o γ r s' hl ha hr _
  cases γ with
  | answers γ =>
      obtain ⟨rfl, rfl⟩ := Prod.mk.inj (Option.some.inj hr)
      exact hl.serve γ ha
  | fails γ done message =>
      obtain ⟨rfl, rfl⟩ := Prod.mk.inj (Option.some.inj hr)
      cases done with
      | false => exact hl.cons (hl.acked_act ha)
      | true => exact hl.serve γ ha

/-- **A message that its queue holds is undelivered or pending until a handler of it was done, and
is acknowledged only by a worker whose handler of it was done before.** -/
theorem handled_at_least_once {B : StreamBus} {c : Config (busPool B)}
    (h : Run (busPool B).anything ((busPool B).initial fun _ => {}) c) (queue : String) (id : ℕ) :
    (id ∈ (c.world (B.stream queue)).entries.map (·.id) →
      id ∈ (c.world (B.stream queue)).outstanding ∨ Handled B queue id c.log) ∧
      AckedAfter B queue id c.log :=
  have hinv := accounted_run h queue id
  ⟨hinv.kept, hinv.acked⟩

/-- A message is enqueued, and a worker does five commands; every handler succeeds. -/
def handledOne : List (Move (busPool roomyBus)) :=
  .spawn (.producer "transfer:transfer" "store_result" (.obj [])) ::
    (List.replicate 4 (.act 0 (.answers ⟨0, 0, .ok ()⟩)) ++
      .spawn (.worker transferWorker 1) :: List.replicate 5 (.act 1 (.answers ⟨0, 0, .ok ()⟩)))

/-- The message is acknowledged, and so it was handled. -/
theorem handled_when_acknowledged : ∃ c, Run (busPool roomyBus).anything
    ((busPool roomyBus).initial fun _ => {}) c ∧
    (c.world (roomyBus.stream "transfer:transfer")).outstanding = [] ∧
    Handled roomyBus "transfer:transfer" 1 c.log := by
  have hexec : (((busPool roomyBus).initial fun _ => {}).exec (fun _ _ _ _ _ => true)
      handledOne).any (fun c =>
        decide ((c.world (roomyBus.stream "transfer:transfer")).outstanding = []) &&
        decide (1 ∈ (c.world (roomyBus.stream "transfer:transfer")).entries.map (·.id))) =
      true := by decide +kernel
  obtain ⟨c, hrun, hc⟩ := Run.of_any_exec (G := (busPool roomyBus).anything)
    (fun _ _ _ _ _ _ => trivial) hexec
  obtain ⟨hnone, hin⟩ := Bool.and_eq_true_iff.mp hc
  have hnone := of_decide_eq_true hnone
  have hkept := (handled_at_least_once hrun "transfer:transfer" 1).1 (of_decide_eq_true hin)
  rw [hnone] at hkept
  exact ⟨c, hrun, hnone, hkept.resolve_left List.not_mem_nil⟩

/-! ### How far producers overshoot -/

/-- The producers that found room in the queue and did not append yet. -/
def underWay (B : StreamBus) (queue : String) (l : (busPool B).Log) : Finset ℕ :=
  (l.map Event.thread).toFinset.filter fun u => (deedsOf B queue 0 l u).cleared = true

/-- **Whoever finds room finds at most `k` others under way.** -/
def Overtaken (B : StreamBus) (queue : String) (k : ℕ) : (busPool B).Condition :=
  fun _ l _ o r => clears B queue o r = true → (underWay B queue l).card ≤ k

section UnderWay

variable {B : StreamBus} {queue : String} {l : (busPool B).Log}

theorem mem_underWay {u : ℕ} :
    u ∈ underWay B queue l ↔ (deedsOf B queue 0 l u).cleared = true := by
  refine ⟨fun h => (Finset.mem_filter.mp h).2, fun h => Finset.mem_filter.mpr ⟨?_, h⟩⟩
  by_contra hnot
  have hfresh : deedsOf B queue 0 l u = {} :=
    Protocol.after_of_fresh (M := busPool B) fun e he hu =>
      hnot (List.mem_toFinset.mpr (List.mem_map.mpr ⟨e, he, hu⟩))
  rw [hfresh] at h
  exact absurd h Bool.false_ne_true

/-- An event puts its own program under way, or none. -/
theorem mem_underWay_cons {e : Event busSig Exn BusActor} {u : ℕ}
    (h : u ∈ underWay B queue (e :: l)) : u = e.thread ∨ u ∈ underWay B queue l := by
  by_cases hu : u = e.thread
  · exact .inl hu
  · rw [mem_underWay, deedsOf_of_ne hu] at h
    exact .inr (mem_underWay.mpr h)

/-- An event that finds no room puts no program under way. -/
theorem underWay_cons_subset {e : Event busSig Exn BusActor}
    (he : ∀ t o r, e = .act t o r → clears B queue o r = false) :
    underWay B queue (e :: l) ⊆ underWay B queue l := by
  intro u hu
  rcases mem_underWay_cons hu with rfl | hu'
  · rw [mem_underWay, deedsOf_self] at hu
    cases e with
    | spawn t κ => exact absurd hu Bool.false_ne_true
    | halt t => exact absurd hu Bool.false_ne_true
    | act t o r =>
        have hand : ((deedsOf B queue 0 l t).cleared || clears B queue o r) = true :=
          (Bool.and_eq_true_iff.mp hu).1
        rw [he t o r rfl, Bool.or_false] at hand
        exact mem_underWay.mpr hand
  · exact hu'

/-- Whoever appends is not under way any more. -/
theorem notMem_underWay_append {t : ℕ} {o : BusOp} {r : Except Exn o.Ans}
    (ho : appends B queue o = true) : t ∉ underWay B queue (.act t o r :: l) := by
  intro h
  have hself : deedsOf B queue 0 (.act t o r :: l) t =
      (deeds B queue 0).next (deedsOf B queue 0 l t) o r := deedsOf_self (.act t o r)
  have hnext := (congrArg Deeds.cleared hself).symm.trans (mem_underWay.mp h)
  have hnot : (!appends B queue o) = true := (Bool.and_eq_true_iff.mp hnext).2
  rw [ho] at hnot
  exact absurd hnot Bool.false_ne_true

/-- The stream of a queue and the producers under way. -/
structure Overshoot (B : StreamBus) (queue : String) (k : ℕ) (s : Streams)
    (l : (busPool B).Log) : Prop where
  bound : (s (B.stream queue)).entries.length + (underWay B queue l).card ≤ B.maxDepth + k
  untrimmed : k ≤ B.maxDepth → ∀ id, 1 ≤ id → id < (s (B.stream queue)).nextId →
    id ∈ (s (B.stream queue)).entries.map (·.id)

/-- Before anything happened. -/
theorem overshoot_initial (B : StreamBus) (queue : String) (k : ℕ) :
    Overshoot B queue k (fun _ => {}) [] :=
  ⟨Nat.zero_le _, fun _ _ hpos hlt => absurd hlt (Nat.not_lt.mpr hpos)⟩

namespace Overshoot

variable {k : ℕ} {s : Streams}

/-- An event that leaves the streams alone and finds no room. -/
theorem cons (h : Overshoot B queue k s l) {e : Event busSig Exn BusActor}
    (he : ∀ t o r, e = .act t o r → clears B queue o r = false) :
    Overshoot B queue k s (e :: l) :=
  ⟨le_trans (Nat.add_le_add_left (Finset.card_le_card (underWay_cons_subset he)) _) h.bound,
    h.untrimmed⟩

/-- A producer that finds room. -/
theorem clear (h : Overshoot B queue k s l) {t : ℕ} {o : BusOp} {r : Except Exn o.Ans}
    (hroom : (s (B.stream queue)).entries.length < B.maxDepth)
    (hk : (underWay B queue l).card ≤ k) : Overshoot B queue k s (.act t o r :: l) := by
  have hsub : underWay B queue (.act t o r :: l) ⊆ insert t (underWay B queue l) := fun u hu =>
    Finset.mem_insert.mpr (mem_underWay_cons hu)
  have hcard := (Finset.card_le_card hsub).trans (Finset.card_insert_le t _)
  exact ⟨by omega, h.untrimmed⟩

/-- A command that keeps the entries of the stream and the next id. -/
theorem keep (h : Overshoot B queue k s l) {t : ℕ} {o : BusOp} {r : Except Exn o.Ans}
    {key : String} {u : GroupStream Raw} (he : u.entries = (s key).entries)
    (hn : u.nextId = (s key).nextId) (hc : clears B queue o r = false) :
    Overshoot B queue k (Function.update s key u) (.act t o r :: l) := by
  have hcons : Overshoot B queue k s (.act t o r :: l) := h.cons fun _ _ _ heq => by
    cases heq
    exact hc
  by_cases hkey : key = B.stream queue
  · subst hkey
    refine ⟨?_, ?_⟩
    · rw [Function.update_self, he]
      exact hcons.bound
    · rw [Function.update_self, he, hn]
      exact hcons.untrimmed
  · have hs : Function.update s key u (B.stream queue) = s (B.stream queue) :=
      Function.update_of_ne (Ne.symm hkey) _ _
    exact ⟨by rw [hs]; exact hcons.bound, by rw [hs]; exact hcons.untrimmed⟩

/-- An append of a producer that found room. -/
theorem append (h : Overshoot B queue k s l) {t : ℕ} {fields : Raw} {r : Except Exn ℕ}
    (surplus : ℕ) (ht : t ∈ underWay B queue l) :
    Overshoot B queue k (Function.update s (B.stream queue)
        ((s (B.stream queue)).add fields (B.maxDepth * 2) surplus).2)
      (.act t (.xadd (B.stream queue) fields (B.maxDepth * 2)) r :: l) := by
  have hgone : t ∉ underWay B queue
      (.act t (.xadd (B.stream queue) fields (B.maxDepth * 2)) r :: l) :=
    notMem_underWay_append (decide_eq_true rfl)
  have hsub : insert t (underWay B queue
      (.act t (.xadd (B.stream queue) fields (B.maxDepth * 2)) r :: l)) ⊆ underWay B queue l := by
    refine Finset.insert_subset ht (underWay_cons_subset fun _ _ _ heq => ?_)
    cases heq
    rfl
  have hcard := Finset.card_le_card hsub
  rw [Finset.card_insert_of_notMem hgone] at hcard
  have hlen : ((s (B.stream queue)).add fields (B.maxDepth * 2) surplus).2.entries.length ≤
      (s (B.stream queue)).entries.length + 1 := by
    simp [GroupStream.add]
  have hbound := h.bound
  refine ⟨by rw [Function.update_self]; omega, fun hk id hpos hlt => ?_⟩
  rw [Function.update_self] at hlt ⊢
  rw [GroupStream.add_of_le (by omega)] at hlt ⊢
  rw [List.map_append, List.mem_append]
  rcases Nat.lt_succ_iff_lt_or_eq.mp hlt with hlt | rfl
  · exact .inl (h.untrimmed hk id hpos hlt)
  · exact .inr (List.mem_singleton.mpr rfl)

/-- A command of Redis, whether its answer arrives or not. -/
theorem serve (h : Overshoot B queue k s l) {t : ℕ} {o : BusOp} {r : Except Exn o.Ans}
    (γ : BusChoice) (ha : (deeds B queue 0).allows (deedsOf B queue 0 l t) o)
    (hr : r = (Streams.serve γ o s).1 ∨ clears B queue o r = false)
    (hk : Overtaken B queue k s l t o r) :
    Overshoot B queue k (Streams.serve γ o s).2 (.act t o r :: l) := by
  have hcons : clears B queue o r = false → Overshoot B queue k s (.act t o r :: l) := fun hc =>
    h.cons fun _ _ _ heq => by
      cases heq
      exact hc
  cases o with
  | xgroupCreate key group => exact hcons rfl
  | now => exact hcons rfl
  | dispatch queue' message => exact hcons rfl
  | xreadgroup group consumer key count => exact h.keep rfl rfl rfl
  | xack key group id => exact h.keep rfl rfl rfl
  | xautoclaim key group consumer minIdle start count => exact h.keep rfl rfl rfl
  | xlen key =>
      rcases hr with rfl | hc
      · by_cases hroom : key = B.stream queue ∧ (s key).entries.length < B.maxDepth
        · obtain ⟨rfl, hroom⟩ := hroom
          exact h.clear hroom (hk (decide_eq_true ⟨rfl, hroom⟩))
        · exact hcons (decide_eq_false hroom)
      · exact hcons hc
  | xadd key fields maxlen =>
      by_cases hkey : key = B.stream queue
      · subst hkey
        obtain ⟨hcleared, rfl⟩ := ha rfl
        exact h.append γ.surplus (mem_underWay.mpr hcleared)
      · have hs : Function.update s key ((s key).add fields maxlen γ.surplus).2 (B.stream queue) =
            s (B.stream queue) := Function.update_of_ne (Ne.symm hkey) _ _
        have hl := hcons rfl
        exact ⟨by simp only [Streams.serve, hs]; exact hl.bound,
          by simp only [Streams.serve, hs]; exact hl.untrimmed⟩

end Overshoot

end UnderWay

/-- **Where `k` producers at most are under way whenever another finds room, the stream of a queue
holds `max_depth + k` entries at most; and up to `max_depth` of them, no accepted message is lost:
it is undelivered or pending, or a handler of it was done.** -/
theorem overshoot_is_bounded {B : StreamBus} {queue : String} {k : ℕ} {c : Config (busPool B)}
    (h : Run (Overtaken B queue k) ((busPool B).initial fun _ => {}) c) :
    (c.world (B.stream queue)).entries.length ≤ B.maxDepth + k ∧
      (k ≤ B.maxDepth → ∀ id, 1 ≤ id → id < (c.world (B.stream queue)).nextId →
        id ∈ (c.world (B.stream queue)).outstanding ∨ Handled B queue id c.log) := by
  have hinv : Overshoot B queue k c.world c.log := by
    refine Run.invariant (M := busPool B) (P := deeds B queue 0)
      (fun s l => Overshoot B queue k s l) Deeds.follows_deeds (Keeps.initial _)
      (overshoot_initial B queue k)
      (fun _ _ _ _ _ hl => hl.cons fun _ _ _ heq => nomatch heq) ?_
      (fun _ _ _ hl => hl.cons fun _ _ _ heq => nomatch heq) h
    intro s l t o γ r s' hl ha hr hk
    cases γ with
    | answers γ =>
        obtain ⟨rfl, rfl⟩ := Prod.mk.inj (Option.some.inj hr)
        exact hl.serve γ ha (.inl rfl) hk
    | fails γ done message =>
        obtain ⟨rfl, rfl⟩ := Prod.mk.inj (Option.some.inj hr)
        have hc : clears B queue o (.error (.infrastructure message)) = false := by
          cases o <;> rfl
        cases done with
        | false => exact hl.cons fun _ _ _ heq => by cases heq; exact hc
        | true => exact hl.serve γ ha (.inr hc) hk
  refine ⟨(Nat.le_add_right _ _).trans hinv.bound, fun hk id hpos hlt => ?_⟩
  exact (accounted_run h queue id).kept (hinv.untrimmed hk id hpos hlt)

/-- Two producers find the one place of a queue, before one of them appends. -/
def twoProducers : List (Move (busPool shortBus)) :=
  [.spawn (.producer "submit:default" "submit" (.obj [])),
    .spawn (.producer "submit:default" "submit" (.obj [])),
    .act 0 (.answers ⟨0, 0, .ok ()⟩), .act 1 (.answers ⟨0, 0, .ok ()⟩)] ++
  List.replicate 3 (.act 0 (.answers ⟨0, 0, .ok ()⟩)) ++
    List.replicate 3 (.act 1 (.answers ⟨0, 0, .ok ()⟩))

/-- `Overtaken` of that queue, by one. -/
def overtakenByOne : (busPool shortBus).Check := fun _ l _ o r =>
  !clears shortBus "submit:default" o r || decide ((underWay shortBus "submit:default" l).card ≤ 1)

/-- **The queue holds one message more than it has room for, and both are still there.** -/
theorem overshoot_is_attained : ∃ c, Run (Overtaken shortBus "submit:default" 1)
    ((busPool shortBus).initial fun _ => {}) c ∧
    (c.world (shortBus.stream "submit:default")).entries.length = shortBus.maxDepth + 1 ∧
    (1 ∈ (c.world (shortBus.stream "submit:default")).outstanding ∨
      Handled shortBus "submit:default" 1 c.log) := by
  have hexec : (((busPool shortBus).initial fun _ => {}).exec overtakenByOne twoProducers).any
      (fun c => decide ((c.world (shortBus.stream "submit:default")).entries.length =
          shortBus.maxDepth + 1) &&
        decide (1 < (c.world (shortBus.stream "submit:default")).nextId)) = true := by
    decide +kernel
  obtain ⟨c, hrun, hc⟩ := Run.of_any_exec (G := Overtaken shortBus "submit:default" 1)
    (fun _ _ _ _ _ h hclear => by
      rw [overtakenByOne, hclear] at h
      exact of_decide_eq_true h) hexec
  obtain ⟨hlen, hnext⟩ := Bool.and_eq_true_iff.mp hc
  exact ⟨c, hrun, of_decide_eq_true hlen,
    (overshoot_is_bounded hrun).2 (by decide) 1 le_rfl (of_decide_eq_true hnext)⟩

end AsyncGateway
