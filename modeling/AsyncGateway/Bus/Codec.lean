import AsyncGateway.Bus.Memory
import AsyncGateway.Lib.ReadBack

/-!
# Bus — messages as JSON

The bus writes a payload with `json.dumps` and reads it with `json.loads` (`jsonCodec`).  A payload
that can be written is read as it was written (`legible_json`), and what was read once can be
written: so a message that was read from a stream, whatever its text was, is read again as it was
when it has been written on, as it is to the dead letters (`dead_letter_reads_back`).  A text with
the escape of a lone surrogate is not read here; Python reads it, and cannot write it on.
-/

namespace AsyncGateway

open Interleave (Prog StreamEntry)

section Codec

variable (R : Json.FloatRepr) (isoformat : Time → String) (fromisoformat : String → Option Time)

/-- Messages as JSON. -/
def jsonCodec : MessageCodec where
  dumps := Json.plain
  loads := Json.loads R
  isoformat := isoformat
  fromisoformat := fromisoformat

variable {R isoformat fromisoformat}

theorem plain_ne_empty {doc : Json} (h : Json.Writable R doc) : Json.plain doc ≠ "" := by
  obtain ⟨c, cs, hcs, -⟩ := Json.head_plain h
  intro hempty
  have hlist : (Json.plain doc).toList = c :: cs := String.toList_ofList.trans hcs
  rw [hempty] at hlist
  cases hlist

/-- A payload that can be written, and a time that is read as it is written. -/
theorem legible_json {m : BusMessage} (h : Json.Writable R m.payload)
    (hdated : fromisoformat (isoformat m.enqueuedAt) = some m.enqueuedAt)
    (hone : m.deliveries = 1) :
    Legible (jsonCodec R isoformat fromisoformat) m :=
  ⟨plain_ne_empty h, Json.loads_plain R h, hdated, hone⟩

variable {γ : BusChoice} {s s' : Streams} {name : String} {raw : Raw} {id : ℕ} {m : BusMessage}

/-- What was decoded can be written. -/
theorem writable_of_decode (h : (BusMessage.decode (jsonCodec R isoformat fromisoformat) name raw
    id).run (Streams.serve γ) s = (.ok m, s')) :
    m.name = name ∧ m.messageId = id ∧ m.deliveries = 1 ∧ Json.Writable R m.payload := by
  simp only [BusMessage.decode, BusMessage.loadPayload, Prog.bind_eq] at h
  cases hload : (jsonCodec R isoformat fromisoformat).loads
      (((raw.lookup "payload").filter (· ≠ "")).getD "\x7b\x7d") with
  | none =>
      rw [hload] at h
      cases h
  | some payload =>
      rw [hload] at h
      simp only [BusMessage.loadEnqueuedAt, Prog.pure_eq, Prog.bind] at h
      have hwritable : Json.Writable R payload := Json.writable_of_loads hload
      split at h <;> cases h <;> exact ⟨rfl, rfl, rfl, hwritable⟩

/-- An append keeps what it appends, however it trims. -/
theorem getLast?_add {β : Type} (t : Interleave.GroupStream β) (body : β) {maxlen : ℕ}
    (h : 0 < maxlen) (surplus : ℕ) :
    (t.add body maxlen surplus).2.entries.getLast? = some ⟨t.nextId, body⟩ := by
  have hlt : (t.entries ++ [(⟨t.nextId, body⟩ : StreamEntry β)]).length - maxlen - surplus <
      (t.entries ++ [(⟨t.nextId, body⟩ : StreamEntry β)]).length := by
    rw [List.length_append, List.length_singleton]
    omega
  change (List.drop _ (t.entries ++ [(⟨t.nextId, body⟩ : StreamEntry β)])).getLast? = _
  rw [List.getLast?_drop, if_neg (Nat.not_le.mpr hlt), List.getLast?_concat]

/-- What a dead letter does to its stream and to that of its queue. -/
theorem run_deadLetter (B : StreamBus) (queue reason : String) :
    ((B.deadLetter queue m reason).run (Streams.serve γ) s).2 (B.dlq queue) =
        ((s (B.dlq queue)).add (m.encode B.codec ++
          [("reason", String.ofList (reason.toList.take 500)),
            ("failed_at", B.codec.isoformat m.enqueuedAt)]) 10000 γ.surplus).2 ∧
      ((B.deadLetter queue m reason).run (Streams.serve γ) s).2 (B.stream queue) =
        ((s (B.stream queue)).ack m.messageId).2 := by
  have hne : B.dlq queue ≠ B.stream queue := by
    intro heq
    have hlen := congrArg String.length heq
    simp only [StreamBus.dlq, StreamBus.stream, String.length_append] at hlen
    have hpos : "dlq:".length = 4 := rfl
    omega
  have hrun : ((B.deadLetter queue m reason).run (Streams.serve γ) s).2 =
      Function.update (Function.update s (B.dlq queue)
        ((s (B.dlq queue)).add (m.encode B.codec ++
          [("reason", String.ofList (reason.toList.take 500)),
            ("failed_at", B.codec.isoformat m.enqueuedAt)]) 10000 γ.surplus).2) (B.stream queue)
        (((Function.update s (B.dlq queue) ((s (B.dlq queue)).add (m.encode B.codec ++
          [("reason", String.ofList (reason.toList.take 500)),
            ("failed_at", B.codec.isoformat m.enqueuedAt)]) 10000 γ.surplus).2)
              (B.stream queue)).ack m.messageId).2 := rfl
  rw [hrun, Function.update_of_ne hne, Function.update_self, Function.update_self,
    Function.update_of_ne (Ne.symm hne)]
  exact ⟨rfl, rfl⟩

/-- **A dead letter is the message.**  Whatever text without a lone surrogate a message was read
from, what `dead_letter`
writes of it is the last entry of the dead letters, with the first 500 characters of the reason, and
is read back as the message; and the message is no longer pending in its queue. -/
theorem dead_letter_reads_back {B : StreamBus}
    (hB : B.codec = jsonCodec R isoformat fromisoformat) {γ₀ : BusChoice}
    (hread : (BusMessage.decode B.codec name raw id).run (Streams.serve γ₀) s = (.ok m, s'))
    (hdated : fromisoformat (isoformat m.enqueuedAt) = some m.enqueuedAt) (γ : BusChoice)
    (t : Streams) (queue reason : String) :
    ∃ e, (((B.deadLetter queue m reason).run (Streams.serve γ) t).2
        (B.dlq queue)).entries.getLast? = some e ∧
      e.body.lookup "reason" = some (String.ofList (reason.toList.take 500)) ∧
      (∀ γ' t', (BusMessage.decode B.codec ((e.body.lookup "name").getD "") e.body e.id).run
        (Streams.serve γ') t' = (.ok { m with messageId := e.id }, t')) ∧
      m.messageId ∉ (((B.deadLetter queue m reason).run (Streams.serve γ) t).2
        (B.stream queue)).pending.map (·.id) := by
  rw [hB] at hread
  obtain ⟨-, -, hone, hwritable⟩ := writable_of_decode hread
  have hlegible : Legible B.codec m := hB ▸ legible_json hwritable hdated hone
  obtain ⟨hdlq, hstream⟩ := run_deadLetter (γ := γ) (s := t) (m := m) B queue reason
  refine ⟨⟨(t (B.dlq queue)).nextId, m.encode B.codec ++
    [("reason", String.ofList (reason.toList.take 500)),
      ("failed_at", B.codec.isoformat m.enqueuedAt)]⟩, ?_, rfl, fun γ' t' => ?_, ?_⟩
  · rw [hdlq]
    exact getLast?_add _ _ (by decide) _
  · exact run_decode_encode hlegible _ _
  · rw [hstream]
    intro hmem
    obtain ⟨p, hp, hid⟩ := List.mem_map.mp hmem
    exact of_decide_eq_true (List.mem_filter.mp hp).2 hid

end Codec

/-- A bus with room for a hundred messages, and the epoch as the only time. -/
def jsonBus : StreamBus := ⟨"ag:q:", "workers", 100, jsonCodec Json.oneFloat
  (fun _ => "1970-01-01T00:00:00+00:00")
  fun text => if text = "1970-01-01T00:00:00+00:00" then some 0 else none⟩

theorem fromisoformat_epoch :
    jsonBus.codec.fromisoformat "1970-01-01T00:00:00+00:00" = some 0 := by
  change (if "1970-01-01T00:00:00+00:00" = "1970-01-01T00:00:00+00:00" then some (0 : Time)
    else none) = _
  rw [if_pos rfl]

/-- A payload that is not written as the bus writes it. -/
def pricePayload : String := "\x7b\"price\":1.50 , \"task_id\":\"t-1\",\"price\":1.50\x7d"

/-- No message anywhere. -/
def emptyStreams : Streams := fun _ => {}

/-- It is read, and would be written otherwise. -/
theorem dead_letter_of_a_price : ∃ m e, Json.plain m.payload =
      "\x7b\"price\": 1.5, \"task_id\": \"t-1\"\x7d" ∧
    (((jsonBus.deadLetter "submit:default" m "boom").run (Streams.serve ⟨0, 0, .ok ()⟩)
      emptyStreams).2 (jsonBus.dlq "submit:default")).entries.getLast? = some e ∧
    (BusMessage.decode jsonBus.codec ((e.body.lookup "name").getD "") e.body e.id).run
      (Streams.serve ⟨0, 0, .ok ()⟩) emptyStreams =
        (.ok { m with messageId := e.id }, emptyStreams) := by
  have hload : (Json.loads Json.oneFloat pricePayload).any (fun doc =>
      decide (Json.plain doc = "\x7b\"price\": 1.5, \"task_id\": \"t-1\"\x7d")) = true := by
    decide +kernel
  obtain ⟨doc, hdoc, hplain⟩ := (Option.any_eq_true _ _).mp hload
  have hread : (BusMessage.decode jsonBus.codec "submit_upstream" [("payload", pricePayload),
      ("enqueued_at", "1970-01-01T00:00:00+00:00")] 1).run (Streams.serve ⟨0, 0, .ok ()⟩)
        emptyStreams = (.ok ⟨"submit_upstream", doc, 1, 0, 1⟩, emptyStreams) := by
    have hne : decide (pricePayload = "") = false := by decide
    have hloads : jsonBus.codec.loads = Json.loads Json.oneFloat := rfl
    simp [BusMessage.decode, BusMessage.loadPayload, BusMessage.loadEnqueuedAt, List.lookup_cons,
      Option.filter_some, hne, hloads, hdoc, fromisoformat_epoch, Prog.bind, Prog.run]
  obtain ⟨e, hlast, -, hback, -⟩ := dead_letter_reads_back rfl hread fromisoformat_epoch
    ⟨0, 0, .ok ()⟩
    emptyStreams "submit:default" "boom"
  exact ⟨_, e, of_decide_eq_true hplain, hlast, hback _ _⟩

end AsyncGateway
