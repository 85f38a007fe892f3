import AsyncGateway.Bus.Codec
import AsyncGateway.Workers.Rules

/-!
# System — handlers are given what was sent

The workers and producers of `busPool`, with payloads as JSON.  A handler is given a message only
after a producer wrote it to that queue: with the name and the payload the producer was started with
and the time it had read.  And where Redis told a producer an id, it is that producer's message that
is handled under the id (`handled_as_sent`).
-/

namespace AsyncGateway

open Interleave

/-! ### What a program carries -/

/-- What a program was started to send, the time it read last, and what it was handed. -/
structure Carried where
  sends : Option (String × String × Json) := none
  clock : Option Time := none
  received : List (String × StreamEntry Raw) := []

/-- The time an answer shows. -/
def shows : (o : BusOp) → Except Exn o.Ans → Option Time
  | .now, .ok now => some now
  | _, _ => none

/-- A program writes what it was started to send, and handles what it was handed. -/
abbrev carrying (B : StreamBus) : Protocol busSig Exn BusActor where
  State := Carried
  start
    | .producer queue name payload => { sends := some (queue, name, payload) }
    | .worker _ _ => {}
  idle := {}
  gone _ := {}
  allows m
    | .xadd key fields maxlen => maxlen = B.maxDepth * 2 ∧ ∃ queue name payload now,
        m.sends = some (queue, name, payload) ∧ m.clock = some now ∧ key = B.stream queue ∧
          fields = BusMessage.encode B.codec { name := name, payload := payload, enqueuedAt := now }
    | .dispatch queue message => ∃ e, (B.stream queue, e) ∈ m.received ∧ Decoded B.codec e message
    | _ => True
  next m o r := { m with clock := (shows o r).or m.clock, received := handsOut o r ++ m.received }
  done _ := True
  done_idle := trivial
  done_gone _ := trivial

namespace Carried

variable {B : StreamBus}

/-- What a worker holds was decoded from what it was handed. -/
def rules (B : StreamBus) : WorkerRules (carrying B) B where
  Holds queue message m := ∃ e, (B.stream queue, e) ∈ m.received ∧ Decoded B.codec e message
  Done _ _ _ := True
  looks h := by
    rename_i o
    cases o <;> trivial
  keeps m o r h := by
    obtain ⟨e, he, hd⟩ := h
    exact ⟨e, List.mem_append_right _ he, hd⟩
  reads m o r he hd := ⟨_, List.mem_append_left _ he, hd⟩
  dispatches h := h
  dispatched _ := trivial
  acks _ := trivial
  returns _ := trivial

/-- A producer writes what it was started to send, at the time it read. -/
theorem leads_enqueue {m : Carried} (queue name : String) (payload : Json)
    (hm : m.sends = some (queue, name, payload)) :
    Leads (carrying B) (B.enqueue queue name payload) m fun _ _ => True := by
  have ensured : ∀ m : Carried, Steady (carrying B) (B.ensureQueue queue) m := fun m =>
    .tryCatch (.perform trivial fun _ => rfl) fun x => .ite (fun _ => .pure ()) fun _ => .raise x
  refine .bind (.perform trivial fun depth => .ite (fun _ => .raise _) fun _ => ?_)
  refine .bind (.perform trivial fun now => .bind_steady (ensured _) fun _ => .perform ?_
    fun _ => trivial)
  exact ⟨rfl, queue, name, payload, now, hm, rfl, rfl, rfl⟩

/-- Workers and producers keep to what they carry. -/
theorem follows_carrying (κ : BusActor) :
    Follows (carrying B) ((busPool B).body κ) ((carrying B).start κ) := by
  cases κ with
  | worker W rounds => exact (rules B).follows_worker W rounds
  | producer queue name payload =>
      exact .bind ((leads_enqueue queue name payload rfl).mono fun _ _ _ => .pure trivial)

end Carried

/-! ### What is in the streams was sent -/

section Sent

variable (B : StreamBus)

/-- A producer wrote the message to the queue, started with its name and payload, at the time it had
read. -/
def Sent (queue : String) (m : BusMessage) (l : (busPool B).Log) : Prop :=
  ∃ t r, .spawn t (.producer queue m.name m.payload) ∈ l ∧
    (.act t .now (.ok m.enqueuedAt) : Event busSig Exn BusActor) ∈ l ∧
    .act t (.xadd (B.stream queue) (m.encode B.codec) (B.maxDepth * 2)) r ∈ l

/-- Redis told a program that its fields have the id. -/
def ToldId (key : String) (id : ℕ) (fields : Raw) (l : (busPool B).Log) : Prop :=
  ∃ t maxlen, (.act t (.xadd key fields maxlen) (.ok id) : Event busSig Exn BusActor) ∈ l

/-- The entry is a message that was sent. -/
def Written (key : String) (e : StreamEntry Raw) (l : (busPool B).Log) : Prop :=
  ∃ queue m, key = B.stream queue ∧ m.deliveries = 1 ∧ e.body = m.encode B.codec ∧ Sent B queue m l

/-- The id of the entry is no later one's, and whoever was told it wrote the entry. -/
structure Named (key : String) (e : StreamEntry Raw) (s : Streams) (l : (busPool B).Log) :
    Prop where
  lt : e.id < (s key).nextId
  told : ∀ fields, ToldId B key e.id fields l → e.body = fields

variable {B} {queue key : String} {m : BusMessage} {e : StreamEntry Raw} {s s' : Streams}
  {l : (busPool B).Log}

theorem Sent.cons (h : Sent B queue m l) (ev : Event busSig Exn BusActor) :
    Sent B queue m (ev :: l) := by
  obtain ⟨t, r, hspawn, hnow, hadd⟩ := h
  exact ⟨t, r, List.mem_cons_of_mem _ hspawn, List.mem_cons_of_mem _ hnow,
    List.mem_cons_of_mem _ hadd⟩

theorem Written.cons (h : Written B key e l) (ev : Event busSig Exn BusActor) :
    Written B key e (ev :: l) := by
  obtain ⟨queue, m, hkey, hone, hbody, hsent⟩ := h
  exact ⟨queue, m, hkey, hone, hbody, hsent.cons ev⟩

/-- An event tells the id of an entry to nobody, unless the id is a new one. -/
theorem Named.cons (h : Named B key e s l) {ev : Event busSig Exn BusActor}
    (hle : (s key).nextId ≤ (s' key).nextId)
    (hev : ∀ t fields maxlen id, ev = .act t (.xadd key fields maxlen) (.ok id) →
      (s key).nextId ≤ id) : Named B key e s' (ev :: l) := by
  refine ⟨h.lt.trans_le hle, fun fields htold => ?_⟩
  obtain ⟨t, maxlen, hmem⟩ := htold
  rcases List.mem_cons.mp hmem with heq | hmem
  · exact absurd (hev t fields maxlen e.id heq.symm) (Nat.not_le.mpr h.lt)
  · exact h.told fields ⟨t, maxlen, hmem⟩

end Sent

/-- What a program of the pool carries. -/
def carriedBy (B : StreamBus) (l : (busPool B).Log) (t : ℕ) : Carried :=
  Protocol.after (M := busPool B) (carrying B) l t

/-- The streams and the programs of a run, as far as the messages go. -/
structure Authentic (B : StreamBus) (s : Streams) (l : (busPool B).Log) : Prop where
  entries : ∀ key, ∀ e ∈ (s key).entries, Written B key e l ∧ Named B key e s l
  received : ∀ t key e, (key, e) ∈ (carriedBy B l t).received →
    Written B key e l ∧ Named B key e s l
  told : ∀ key id fields, ToldId B key id fields l → id < (s key).nextId
  started : ∀ t queue name payload, (carriedBy B l t).sends = some (queue, name, payload) →
    .spawn t (.producer queue name payload) ∈ l
  clocked : ∀ t now, (carriedBy B l t).clock = some now →
    (.act t .now (.ok now) : Event busSig Exn BusActor) ∈ l
  handled : ∀ later earlier t queue message r, l = later ++ .act t (.dispatch queue message) r ::
    earlier → ∃ e, Decoded B.codec e message ∧ Written B (B.stream queue) e earlier ∧
      Named B (B.stream queue) e s l

/-- What an event may do to the streams: it appends what was sent, under new ids that it tells, and
hands out what is there. -/
structure Proper (B : StreamBus) (s s' : Streams) (l : (busPool B).Log)
    (ev : Event busSig Exn BusActor) : Prop where
  next : ∀ key, (s key).nextId ≤ (s' key).nextId
  entries : ∀ key, ∀ e ∈ (s' key).entries, e ∈ (s key).entries ∨
    Written B key e (ev :: l) ∧ Named B key e s' (ev :: l)
  hands : ∀ t o r, ev = .act t o r → ∀ key e, (key, e) ∈ handsOut o r → e ∈ (s key).entries
  tells : ∀ t key fields maxlen id, ev = .act t (.xadd key fields maxlen) (.ok id) →
    (s key).nextId ≤ id ∧ id < (s' key).nextId
  dispatches : ∀ t queue message r, ev = .act t (.dispatch queue message) r →
    ∃ e, (B.stream queue, e) ∈ (carriedBy B l t).received ∧ Decoded B.codec e message

namespace Authentic

variable {B : StreamBus} {s s' : Streams} {l : (busPool B).Log} {ev : Event busSig Exn BusActor}

/-- An entry that was written and named stays so. -/
theorem kept (hp : Proper B s s' l ev) {key : String} {e : StreamEntry Raw}
    (h : Written B key e l ∧ Named B key e s l) :
    Written B key e (ev :: l) ∧ Named B key e s' (ev :: l) :=
  ⟨h.1.cons ev, h.2.cons (hp.next key) fun t fields maxlen id heq =>
    (hp.tells t key fields maxlen id heq).1⟩

/-- **What was sent stays what is handed out, through every event.** -/
theorem event (h : Authentic B s l) (hp : Proper B s s' l ev) : Authentic B s' (ev :: l) where
  entries key e he := (hp.entries key e he).elim (fun hold => kept hp (h.entries key e hold)) id
  received := by
    refine Protocol.forall_after (M := busPool B) (P := carrying B)
      (Q := fun _ m => ∀ key e, (key, e) ∈ m.received →
        Written B key e (ev :: l) ∧ Named B key e s' (ev :: l)) ?_
      fun t _ key e he => kept hp (h.received t key e he)
    intro key e he
    cases ev with
    | spawn t κ => cases κ <;> exact absurd he List.not_mem_nil
    | halt t => exact absurd he List.not_mem_nil
    | act t o r =>
        rcases List.mem_append.mp he with hnew | hold
        · exact kept hp (h.entries key e (hp.hands t o r rfl key e hnew))
        · exact kept hp (h.received t key e hold)
  told key id fields htold := by
    obtain ⟨t, maxlen, hmem⟩ := htold
    rcases List.mem_cons.mp hmem with heq | hmem
    · exact (hp.tells t key fields maxlen id heq.symm).2
    · exact (h.told key id fields ⟨t, maxlen, hmem⟩).trans_le (hp.next key)
  started := by
    refine Protocol.forall_after (M := busPool B) (P := carrying B)
      (Q := fun t m => ∀ queue name payload, m.sends = some (queue, name, payload) →
        .spawn t (.producer queue name payload) ∈ ev :: l) ?_
      fun t _ queue name payload hm => List.mem_cons_of_mem _ (h.started t queue name payload hm)
    intro queue name payload hm
    cases ev with
    | spawn t κ =>
        cases κ with
        | worker W rounds => cases hm
        | producer queue' name' payload' =>
            cases hm
            exact List.mem_cons_self
    | halt t => cases hm
    | act t o r => exact List.mem_cons_of_mem _ (h.started t queue name payload hm)
  clocked := by
    refine Protocol.forall_after (M := busPool B) (P := carrying B)
      (Q := fun t m => ∀ now, m.clock = some now →
        (.act t .now (.ok now) : Event busSig Exn BusActor) ∈ ev :: l) ?_
      fun t _ now hm => List.mem_cons_of_mem _ (h.clocked t now hm)
    intro now hm
    cases ev with
    | spawn t κ => cases κ <;> cases hm
    | halt t => cases hm
    | act t o r =>
        change (shows o r).or (carriedBy B l t).clock = some now at hm
        rcases Option.or_eq_some_iff.mp hm with hshows | ⟨-, hold⟩
        · cases o <;> cases r <;> cases hshows
          exact List.mem_cons_self
        · exact List.mem_cons_of_mem _ (h.clocked t now hold)
  handled later earlier t queue message r hl := by
    cases later with
    | nil =>
        obtain ⟨heq, rfl⟩ := List.cons.inj hl
        obtain ⟨e, he, hd⟩ := hp.dispatches t queue message r heq
        exact ⟨e, hd, (h.received t _ e he).1, (kept hp (h.received t _ e he)).2⟩
    | cons ev' later =>
        obtain ⟨rfl, hrest⟩ := List.cons.inj hl
        obtain ⟨e, hd, hwritten, hnamed⟩ := h.handled later earlier t queue message r hrest
        exact ⟨e, hd, hwritten, hnamed.cons (hp.next _) fun t fields maxlen id heq =>
          (hp.tells t _ fields maxlen id heq).1⟩

/-- An event without an effect, of a program that keeps to what it carries. -/
theorem proper_still {B : StreamBus} {s : Streams} {l : (busPool B).Log}
    {ev : Event busSig Exn BusActor} (hev : ∀ t o r, ev = .act t o r →
      (carrying B).allows (carriedBy B l t) o ∧ ∃ x, r = .error x) : Proper B s s l ev where
  next _ := le_rfl
  entries _ _ he := .inl he
  hands t o r heq key e he := by
    obtain ⟨-, x, rfl⟩ := hev t o r heq
    cases o <;> exact absurd he List.not_mem_nil
  tells t key fields maxlen id heq := by
    obtain ⟨-, x, hx⟩ := hev t _ _ heq
    cases hx
  dispatches t queue message r heq := (hev t _ r heq).1

/-- A command of Redis that appends nothing. -/
theorem proper_update {B : StreamBus} {s : Streams} {l : (busPool B).Log} {t : ℕ} {o : BusOp}
    {r : Except Exn o.Ans} {key : String} {u : Interleave.GroupStream Raw}
    (hnext : u.nextId = (s key).nextId) (hentries : u.entries = (s key).entries)
    (hhands : ∀ key e, (key, e) ∈ handsOut o r → e ∈ (s key).entries)
    (hadd : ∀ key fields maxlen, o ≠ .xadd key fields maxlen)
    (hdispatch : ∀ queue message, o ≠ .dispatch queue message) :
    Proper B s (Function.update s key u) l (.act t o r) where
  next key' := by
    by_cases hkey : key' = key
    · subst hkey
      rw [Function.update_self, hnext]
    · rw [Function.update_of_ne hkey]
  entries key' e he := by
    by_cases hkey : key' = key
    · subst hkey
      rw [Function.update_self, hentries] at he
      exact .inl he
    · rw [Function.update_of_ne hkey] at he
      exact .inl he
  hands _ _ _ heq := by
    cases heq
    exact hhands
  tells _ key' fields maxlen _ heq := by
    cases heq
    exact absurd rfl (hadd key' fields maxlen)
  dispatches _ queue message _ heq := by
    cases heq
    exact absurd rfl (hdispatch queue message)

/-- An append of a producer. -/
theorem proper_append (h : Authentic B s l) {t : ℕ} {key : String} {fields : Raw} {maxlen : ℕ}
    {r : Except Exn ℕ} (γ : BusChoice)
    (ha : (carrying B).allows (carriedBy B l t) (.xadd key fields maxlen))
    (hr : ∀ id, r = .ok id → id = (s key).nextId) :
    Proper B s (Streams.serve γ (.xadd key fields maxlen) s).2 l
      (.act t (.xadd key fields maxlen) r) := by
  obtain ⟨rfl, queue, name, payload, now, hsends, hclock, rfl, rfl⟩ := ha
  have hnext : ∀ fields, ((s (B.stream queue)).add fields (B.maxDepth * 2) γ.surplus).2.nextId =
      (s (B.stream queue)).nextId + 1 := fun _ => rfl
  refine ⟨fun key => ?_, fun key e he => ?_, fun _ _ _ heq => ?_, fun _ _ _ _ id heq => ?_,
    by rintro _ _ _ _ ⟨⟩⟩
  · simp only [Streams.serve]
    by_cases hkey : key = B.stream queue
    · subst hkey
      rw [Function.update_self, hnext]
      exact Nat.le_succ _
    · rw [Function.update_of_ne hkey]
  · simp only [Streams.serve] at he ⊢
    by_cases hkey : key = B.stream queue
    · subst hkey
      rw [Function.update_self] at he
      rcases List.mem_append.mp (List.mem_of_mem_drop he) with hold | hnew
      · exact .inl hold
      · obtain rfl := List.mem_singleton.mp hnew
        refine .inr ⟨⟨queue, _, rfl, rfl, rfl, t, r,
          List.mem_cons_of_mem _ (h.started t queue name payload hsends),
          List.mem_cons_of_mem _ (h.clocked t now hclock), List.mem_cons_self⟩, ?_,
          fun fields' htold => ?_⟩
        · rw [Function.update_self, hnext]
          exact Nat.lt_succ_self _
        · obtain ⟨u, maxlen, hmem⟩ := htold
          rcases List.mem_cons.mp hmem with heq | hmem
          · cases heq
            rfl
          · exact absurd (h.told _ _ _ ⟨u, maxlen, hmem⟩) (Nat.lt_irrefl _)
    · rw [Function.update_of_ne hkey] at he
      exact .inl he
  · cases heq
    cases r <;> exact fun _ _ he => absurd he List.not_mem_nil
  · cases heq
    obtain rfl := hr id rfl
    refine ⟨le_rfl, ?_⟩
    simp only [Streams.serve, Function.update_self, hnext]
    exact Nat.lt_succ_self _

/-- A command of Redis, whether its answer arrives or not. -/
theorem proper_serve (h : Authentic B s l) {t : ℕ} {o : BusOp} {r : Except Exn o.Ans}
    (γ : BusChoice) (ha : (carrying B).allows (carriedBy B l t) o)
    (hr : r = (Streams.serve γ o s).1 ∨ ∃ x, r = .error x) :
    Proper B s (Streams.serve γ o s).2 l (.act t o r) := by
  -- a command that leaves the streams alone and hands nothing out
  have still : (∀ e, e ∉ handsOut o r) → (∀ key fields maxlen, o ≠ .xadd key fields maxlen) →
      Proper B s s l (.act t o r) := fun hnone hadd =>
    ⟨fun _ => le_rfl, fun _ _ he => .inl he, fun _ _ _ heq key e he => by
      cases heq
      exact absurd he (hnone _), fun _ key fields maxlen _ heq => by
      cases heq
      exact absurd rfl (hadd key fields maxlen), fun _ _ _ _ heq => by
      cases heq
      exact ha⟩
  cases o with
  | xgroupCreate key group => exact still (fun _ => List.not_mem_nil) (by rintro _ _ _ ⟨⟩)
  | xlen key => exact still (fun _ => List.not_mem_nil) (by rintro _ _ _ ⟨⟩)
  | now => exact still (fun _ => List.not_mem_nil) (by rintro _ _ _ ⟨⟩)
  | dispatch queue message => exact still (fun _ => List.not_mem_nil) (by rintro _ _ _ ⟨⟩)
  | xadd key fields maxlen =>
      refine h.proper_append γ ha fun id hid => ?_
      rcases hr with rfl | ⟨x, rfl⟩
      · cases hid
        rfl
      · cases hid
  | xack key group id =>
      exact proper_update rfl rfl (fun _ _ he => by
        cases r <;> exact absurd he List.not_mem_nil) (by rintro _ _ _ ⟨⟩) (by rintro _ _ ⟨⟩)
  | xreadgroup group consumer key count =>
      refine proper_update rfl rfl (fun key' e he => ?_) (by rintro _ _ _ ⟨⟩) (by rintro _ _ ⟨⟩)
      rcases hr with rfl | ⟨x, rfl⟩
      · obtain ⟨e', he', heq⟩ := List.mem_map.mp he
        cases heq
        exact List.mem_of_mem_filter (List.mem_of_mem_take he')
      · exact absurd he List.not_mem_nil
  | xautoclaim key group consumer minIdle start count =>
      refine proper_update rfl rfl (fun key' e he => ?_) (by rintro _ _ _ ⟨⟩) (by rintro _ _ ⟨⟩)
      rcases hr with rfl | ⟨x, rfl⟩
      · obtain ⟨e', he', heq⟩ := List.mem_map.mp he
        cases heq
        exact List.mem_of_mem_filter he'
      · exact absurd he List.not_mem_nil

end Authentic

/-- **Workers are handed what producers sent, in every run.** -/
theorem authentic_run {B : StreamBus} {c : Config (busPool B)}
    (h : Run (busPool B).anything ((busPool B).initial fun _ => {}) c) :
    Authentic B c.world c.log := by
  refine Run.invariant (M := busPool B) (P := carrying B) (fun s l => Authentic B s l)
    Carried.follows_carrying (Keeps.initial _) ?_ (fun _ _ _ _ _ hl => hl.event ?_) ?_
    (fun _ _ _ hl => hl.event ?_) h
  · exact ⟨fun _ _ he => absurd he List.not_mem_nil, fun _ _ _ he => absurd he List.not_mem_nil,
      fun _ _ _ htold => by
        obtain ⟨_, _, hmem⟩ := htold
        exact absurd hmem List.not_mem_nil,
      fun _ _ _ _ hm => absurd hm.symm (Option.some_ne_none _),
      fun _ _ hm => absurd hm.symm (Option.some_ne_none _),
      fun later _ _ _ _ _ hl =>
        absurd hl.symm (List.append_ne_nil_of_right_ne_nil later (List.cons_ne_nil _ _))⟩
  · exact Authentic.proper_still (by rintro _ _ _ ⟨⟩)
  · intro s l t o γ r s' hl ha hr _
    cases γ with
    | answers γ =>
        obtain ⟨rfl, rfl⟩ := Prod.mk.inj (Option.some.inj hr)
        exact hl.event (hl.proper_serve γ ha (.inl rfl))
    | fails γ done message =>
        obtain ⟨rfl, rfl⟩ := Prod.mk.inj (Option.some.inj hr)
        cases done with
        | false =>
            refine hl.event (Authentic.proper_still fun _ _ _ heq => ?_)
            cases heq
            exact ⟨ha, _, rfl⟩
        | true => exact hl.event (hl.proper_serve γ ha (.inr ⟨_, rfl⟩))
  · exact Authentic.proper_still (by rintro _ _ _ ⟨⟩)

/-- **A handler is given a message only after a producer sent it**: one that was started with the
queue, the name and the payload the handler is given, that had read the time in the message, and
that wrote them to the queue before; and if Redis told a program the id of the message, what that
program wrote is the message.  This holds where the payloads are documents that JSON can write, and
the clock shows times that are read as they are written. -/
theorem handled_as_sent {R : Json.FloatRepr} {isoformat : Time → String}
    {fromisoformat : String → Option Time} {B : StreamBus}
    (hB : B.codec = jsonCodec R isoformat fromisoformat) {c : Config (busPool B)}
    (h : Run (busPool B).anything ((busPool B).initial fun _ => {}) c)
    (hpayload : ∀ t queue name payload,
      .spawn t (.producer queue name payload) ∈ c.log → Json.Writable R payload)
    (hclock : ∀ t now, (.act t .now (.ok now) : Event busSig Exn BusActor) ∈ c.log →
      fromisoformat (isoformat now) = some now)
    {later earlier : (busPool B).Log} {t : ℕ} {queue : String} {message : BusMessage}
    {r : Except Exn Unit} (hl : c.log = later ++ .act t (.dispatch queue message) r :: earlier) :
    Sent B queue message earlier ∧
      ∀ fields, ToldId B (B.stream queue) message.messageId fields c.log →
        fields = message.encode B.codec := by
  obtain ⟨e, hd, ⟨queue', m, hkey, hone, hbody, hsent⟩, hnamed⟩ :=
    (authentic_run h).handled later earlier t queue message r hl
  obtain rfl : queue = queue' := StreamBus.stream_inj.mp hkey
  have hearlier : ∀ ev, ev ∈ earlier → ev ∈ c.log := fun ev hev =>
    hl ▸ List.mem_append_right _ (List.mem_cons_of_mem _ hev)
  have hlegible : Legible B.codec m := by
    obtain ⟨u, r', hspawn, hnow, -⟩ := hsent
    exact hB ▸ legible_json (hpayload _ _ _ _ (hearlier _ hspawn))
      (hclock _ _ (hearlier _ hnow)) hone
  obtain rfl : message = { m with messageId := e.id } := hd.read m hlegible hbody
  exact ⟨hsent, fun fields htold => (hnamed.told fields htold).symm.trans hbody⟩

/-- A message with a task id is enqueued, and a worker does five commands. -/
def handedOne : List (Move (busPool jsonBus)) :=
  .spawn (.producer "transfer:transfer" "store_result" (.obj [("task_id", .str "t-1")])) ::
    (List.replicate 4 (.act 0 (.answers ⟨0, 0, .ok ()⟩)) ++
      .spawn (.worker transferWorker 1) :: List.replicate 5 (.act 1 (.answers ⟨0, 0, .ok ()⟩)))

/-- A dictionary of one text. -/
def oneText : Json → Bool
  | .obj [(_, .str _)] => true
  | _ => false

/-- Payloads are dictionaries of one text, and the clock shows the epoch. -/
def plainEvent : Event busSig Exn BusActor → Bool
  | .spawn _ (.producer _ _ payload) => oneText payload
  | .act _ .now (.ok now) => decide (now = 0)
  | _ => true

/-- Whether a handler is given the message with the id `1` of that queue. -/
def handsFirst : Event busSig Exn BusActor → Bool
  | .act _ (.dispatch queue message) _ =>
      decide (queue = "transfer:transfer" ∧ message.messageId = 1)
  | _ => false

/-- The message is handled, and so it was sent. -/
theorem sent_when_handled : ∃ (c : Config (busPool jsonBus)) (earlier : (busPool jsonBus).Log)
    (message : BusMessage), Run (busPool jsonBus).anything
      ((busPool jsonBus).initial fun _ => {}) c ∧ message.messageId = 1 ∧
    Sent jsonBus "transfer:transfer" message earlier := by
  have hexec : (((busPool jsonBus).initial fun _ => {}).exec (fun _ _ _ _ _ => true)
      handedOne).any (fun c => c.log.any handsFirst && c.log.all plainEvent) = true := by
    decide +kernel
  obtain ⟨c, hrun, hc⟩ := Run.of_any_exec (G := (busPool jsonBus).anything)
    (fun _ _ _ _ _ _ => trivial) hexec
  obtain ⟨hany, hall⟩ := Bool.and_eq_true_iff.mp hc
  obtain ⟨ev, hmem, hev⟩ := List.any_eq_true.mp hany
  have hplain := List.all_eq_true.mp hall
  obtain ⟨later, earlier, hl⟩ := List.append_of_mem hmem
  cases ev with
  | spawn t κ => exact absurd hev Bool.false_ne_true
  | halt t => exact absurd hev Bool.false_ne_true
  | act t o r =>
      cases o with
      | dispatch queue message =>
          obtain ⟨rfl, hid⟩ := of_decide_eq_true hev
          refine ⟨c, earlier, message, hrun, hid, (handled_as_sent rfl hrun ?_ ?_ hl).1⟩
          · intro u queue name payload hspawn
            have hp : oneText payload = true := hplain _ hspawn
            unfold oneText at hp
            split at hp
            · exact ⟨List.nodup_singleton _, trivial, trivial⟩
            · exact absurd hp Bool.false_ne_true
          · intro u now hnow
            obtain rfl : now = 0 := of_decide_eq_true (hplain _ hnow)
            exact fromisoformat_epoch
      | xgroupCreate | xlen | xadd | xreadgroup | xack | xautoclaim | now =>
          exact absurd hev Bool.false_ne_true

end AsyncGateway
