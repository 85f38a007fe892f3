import AsyncGateway.Gateway.Callbacks
import AsyncGateway.System.Gateway

/-!
# System — which callbacks count as one

A callback is answered as a duplicate where its key is in `callback_event` already, whatever task
the row is of.  The key is the event id alone, or a text put together from the id, the status and
the digest of the body, with `-` for what is missing.  Two callbacks are kept apart exactly where
these do not coincide (`separate_iff`).
-/

namespace AsyncGateway

open Interleave (Prog)

/-! ### The key -/

/-- The id and the status as the key has them. -/
def CallbackReading.written (r : CallbackReading) : String :=
  (nonEmpty r.upstreamId).getD "-" ++ ":" ++ (nonEmpty r.rawStatus).getD "-"

theorem append_eq_append {s s' x x' : String} (hx : x.length = x'.length) :
    s ++ x = s' ++ x' ↔ s = s' ∧ x = x' := by
  refine ⟨fun h => ?_, fun ⟨hs, hx⟩ => hs ▸ hx ▸ rfl⟩
  have hl : s.toList ++ x.toList = s'.toList ++ x'.toList := by
    rw [← String.toList_append, ← String.toList_append, h]
  obtain ⟨h₁, h₂⟩ := List.append_inj' hl (by simpa [String.length_toList] using hx)
  exact ⟨String.toList_inj.mp h₁, String.toList_inj.mp h₂⟩

theorem evt_ne_sig (s t : String) : "evt:" ++ s ≠ "sig:" ++ t := by
  intro h
  have hl := congrArg String.toList h
  rw [String.toList_append, String.toList_append] at hl
  exact absurd (List.cons_eq_cons.mp hl).1 (by decide)

/-- **Two keys are one where the event ids are, or where there is none and the id and the status
are written alike over one digest.** -/
theorem callbackDedupKey_eq_iff {e e' : Option String} {r r' : CallbackReading} {x x' : String}
    (hx : x.length = x'.length) :
    callbackDedupKey e r.upstreamId r.rawStatus x =
        callbackDedupKey e' r'.upstreamId r'.rawStatus x' ↔
      (∃ id, nonEmpty e = some id ∧ nonEmpty e' = some id) ∨
        (nonEmpty e = none ∧ nonEmpty e' = none ∧ r.written = r'.written ∧ x = x') := by
  have sig : ∀ (r : CallbackReading) (x : String),
      "sig:" ++ (nonEmpty r.upstreamId).getD "-" ++ ":" ++ (nonEmpty r.rawStatus).getD "-" ++ ":" ++
        x = "sig:" ++ (r.written ++ ":" ++ x) := by
    intro r x
    simp only [CallbackReading.written, String.append_assoc]
  unfold callbackDedupKey
  cases he : nonEmpty e with
  | some id =>
      cases he' : nonEmpty e' with
      | some id' => simp [String.append_right_inj, eq_comm]
      | none => simp [sig, evt_ne_sig]
  | none =>
      cases he' : nonEmpty e' with
      | some id' => simpa [sig] using (evt_ne_sig _ _).symm
      | none =>
          simp only [sig, String.append_right_inj, append_eq_append hx, String.append_left_inj]
          simp

/-! ### Two callbacks, one after the other -/

/-- A callback with a right signature, as it arrives at the endpoint of a task: the templates of
that time, and what the application to the task meets. -/
structure Arrival where
  delivery : Delivery
  container : Container
  verify : CallbackVerifyResult
  signed : verify.ok = true
  task : AsyncTask
  endpoint : task.callbackToken = some delivery.opaqueToken
  work : (o : Op) → Except Exn o.Ans

namespace Arrival

variable (R : Reception) (a b : Arrival)

/-- What answers the route: the table of the callbacks, and the arrival for the rest. -/
def serve : (o : CallbackOp) → List CallbackRow → Except Exn o.Ans × List CallbackRow
  | .verify, events => (.ok a.verify, events)
  | .signatureFailed _ _, events => (.ok (), events)
  | .findByCallbackToken _, events => (.ok (some a.task), events)
  | .insertCallbackEvent row _, events => R.insert events row
  | .count _, events => (.ok (), events)
  | .work o, events => (a.work o, events)
  | .respond _, events => (.ok (), events)

/-- The answer to the callback, and the table after it. -/
def received (events : List CallbackRow) : Except Exn HttpAnswer × List CallbackRow :=
  (R.receiveCallback a.container a.delivery).run (a.serve R) events

/-- The row of the callback. -/
def row : Except Exn CallbackRow := do
  let payload ← R.safeJson a.delivery.raw
  let reading ← readCallback a.container a.delivery payload (some a.task)
  .ok (R.callbackRow a.container a.delivery a.verify payload (some a.task) reading)

variable {R a b} {events : List CallbackRow}

/-- What becomes of a callback that was not there yet is no duplicate, and adds no row. -/
theorem run_applyFresh (payload : Json) (reading : CallbackReading) :
    ((Reception.applyFresh a.container payload reading (some a.task)).run (a.serve R) events).1 ≠
        .ok duplicateAnswer ∧
      ((Reception.applyFresh a.container payload reading (some a.task)).run (a.serve R) events).2 =
        events := by
  let applied := working (applyCallback a.container a.task.taskId ⟨payload, reading.rawStatus⟩)
  let answer : HttpAnswer := { status := 200, body := some (.obj [("accepted", .bool true)]) }
  have table : (applied.run (a.serve R) events).2 = events :=
    Prog.run_lift (fun _ _ => rfl) _ events
  have hrun : (Reception.applyFresh a.container payload reading (some a.task)).run (a.serve R)
      events = _ := Prog.run_bind (a.serve R) applied (fun _ =>
        (askCallback (.count "applied")).bind fun _ => .pure answer) events
  rcases h : applied.run (a.serve R) events with ⟨x | u, events'⟩
  · rw [h] at table hrun
    rw [hrun]
    exact ⟨nofun, table⟩
  · rw [h] at table hrun
    rw [hrun]
    refine ⟨fun he => ?_, table⟩
    have hbody : answer.body = duplicateAnswer.body := congrArg HttpAnswer.body (Except.ok.inj he)
    simp [answer, duplicateAnswer] at hbody

/-- The insert of a row, and what follows it. -/
theorem run_insert {row : CallbackRow} {orphan : Option OrphanCallback}
    {f : Bool → CallbackHandler HttpAnswer} :
    ((askCallback (.insertCallbackEvent row orphan)).bind f).run (a.serve R) events =
      match R.insert events row with
      | (.ok fresh, events') => (f fresh).run (a.serve R) events'
      | (.error x, events') => (.error x, events') := by
  have hrun := Prog.run_bind (a.serve R) (askCallback (.insertCallbackEvent row orphan)) f events
  have hs : (askCallback (.insertCallbackEvent row orphan)).run (a.serve R) events =
      R.insert events row :=
    Prog.run_perform (S := callbackEffects) (a.serve R) (.insertCallbackEvent row orphan) events
  rw [hs] at hrun
  rw [hrun]
  rcases R.insert events row with ⟨_ | _, _⟩ <;> rfl

/-- The route, past the signature. -/
theorem received_eq_verified : a.received R events =
    (R.receiveVerified a.container a.delivery a.verify : CallbackHandler HttpAnswer).run (a.serve R)
      events := by
  have verified : a.received R events =
      (if a.verify.ok = true then R.receiveVerified a.container a.delivery a.verify
        else (askCallback (.signatureFailed (String.ofList (a.delivery.opaqueToken.toList.take 12))
          a.verify)).bind fun _ => .pure
            { status := 202, body := some (.obj [("accepted", .bool false)]) }).run (a.serve R)
        events := rfl
  rw [verified, if_pos a.signed]

/-- The route, from the payload on. -/
theorem received_of_payload {payload : Json} (hp : R.safeJson a.delivery.raw = .ok payload) :
    a.received R events =
      ((Prog.ofExcept (readCallback a.container a.delivery payload (some a.task))).bind
        fun reading => (askCallback (.insertCallbackEvent
          (R.callbackRow a.container a.delivery a.verify payload (some a.task) reading)
          (Reception.orphanOf a.delivery payload (some a.task) reading))).bind fun fresh : Bool =>
        if fresh then Reception.applyFresh a.container payload reading (some a.task)
        else (askCallback (.count "duplicate")).bind fun _ => .pure duplicateAnswer).run (a.serve R)
        events := by
  rw [received_eq_verified, Reception.receiveVerified, hp]
  rfl

theorem row_eq_ok {row : CallbackRow} : a.row R = .ok row ↔ ∃ payload reading,
    R.safeJson a.delivery.raw = .ok payload ∧
      readCallback a.container a.delivery payload (some a.task) = .ok reading ∧
      row = R.callbackRow a.container a.delivery a.verify payload (some a.task) reading := by
  unfold Arrival.row
  cases R.safeJson a.delivery.raw with
  | error x => exact ⟨nofun, fun ⟨_, _, hp, _⟩ => nomatch hp⟩
  | ok payload =>
      change (readCallback _ _ _ _).bind _ = _ ↔ _
      cases hr : readCallback a.container a.delivery payload (some a.task) with
      | error x =>
          refine ⟨nofun, ?_⟩
          rintro ⟨_, _, hp, hr', -⟩
          cases hp
          rw [hr] at hr'
          cases hr'
      | ok reading =>
          refine ⟨fun h => ⟨payload, reading, rfl, hr, (Except.ok.inj h).symm⟩, ?_⟩
          rintro ⟨_, _, hp, hr', rfl⟩
          cases hp
          rw [hr] at hr'
          cases hr'
          rfl

/-- A callback that cannot be read is an exception, and leaves no row. -/
theorem received_of_error {x : Exn} (h : a.row R = .error x) :
    a.received R events = (.error x, events) := by
  unfold Arrival.row at h
  cases hp : R.safeJson a.delivery.raw with
  | error y =>
      rw [hp] at h
      cases h
      rw [received_eq_verified, Reception.receiveVerified, hp]
      rfl
  | ok payload =>
      rw [hp] at h
      change (readCallback _ _ _ _).bind _ = _ at h
      rw [received_of_payload hp]
      cases hr : readCallback a.container a.delivery payload (some a.task) with
      | error y =>
          rw [hr] at h
          cases h
          rfl
      | ok reading =>
          rw [hr] at h
          cases h

/-- **A callback that is read goes to the table with its row.** -/
theorem received_of_row {row : CallbackRow} (h : a.row R = .ok row) :
    ((a.received R events).1 = .ok duplicateAnswer ↔ (R.insert events row).1 = .ok false) ∧
      (a.received R events).2 = (R.insert events row).2 := by
  obtain ⟨payload, reading, hp, hr, rfl⟩ := row_eq_ok.mp h
  rw [received_of_payload hp, hr, Prog.ofExcept, Prog.bind, run_insert]
  rcases R.insert events _ with ⟨x | fresh, events'⟩
  · refine ⟨⟨fun hd => ?_, fun hd => ?_⟩, rfl⟩ <;> cases hd
  · cases fresh with
    | false => exact ⟨⟨fun _ => rfl, fun _ => rfl⟩, rfl⟩
    | true =>
        have happlied := @run_applyFresh R a events' payload reading
        refine ⟨⟨fun hd => absurd hd happlied.1, fun hd => ?_⟩, happlied.2⟩
        cases hd

theorem insert_eq_false {row : CallbackRow} : (R.insert events row).1 = .ok false ↔
    R.fits row = true ∧ ∃ e ∈ events, e.dedupKey = row.dedupKey := by
  unfold Reception.insert
  split
  · simp [*]
  · split <;> simp_all

theorem mem_insert {row : CallbackRow} {key : String} :
    (∃ e ∈ (R.insert events row).2, e.dedupKey = key) ↔
      (∃ e ∈ events, e.dedupKey = key) ∨ (R.fits row = true ∧ row.dedupKey = key) := by
  unfold Reception.insert
  split
  · simp [*]
  · split
    · rename_i hfits hany
      simp only [List.any_eq_true, decide_eq_true_eq] at hany
      refine ⟨.inl, fun h => h.elim id ?_⟩
      rintro ⟨-, rfl⟩
      exact hany
    · rename_i hfits hany
      simp [hfits, or_comm]

variable (R a b)

/-- The second callback is answered as a duplicate, and is not without the first. -/
def Merged (events : List CallbackRow) : Prop :=
  (b.received R events).1 ≠ .ok duplicateAnswer ∧
    (b.received R (a.received R events).2).1 = .ok duplicateAnswer

/-- The callback is read so, and its row fits. -/
def Recorded (reading : CallbackReading) : Prop :=
  ∃ payload, R.safeJson a.delivery.raw = .ok payload ∧
    readCallback a.container a.delivery payload (some a.task) = .ok reading ∧
    R.fits (R.callbackRow a.container a.delivery a.verify payload (some a.task) reading) = true

def key (reading : CallbackReading) : String :=
  callbackDedupKey a.delivery.eventId reading.upstreamId reading.rawStatus
    (R.bodyDigest a.delivery.raw)

variable {R a b}

/-- A callback is a duplicate where it is recorded under a key that is there. -/
theorem duplicate_iff : (a.received R events).1 = .ok duplicateAnswer ↔
    ∃ r, a.Recorded R r ∧ ∃ e ∈ events, e.dedupKey = a.key R r := by
  cases h : a.row R with
  | error x =>
      rw [received_of_error h]
      refine ⟨nofun, ?_⟩
      rintro ⟨r, ⟨payload, hp, hr, -⟩, -⟩
      rw [row_eq_ok.mpr ⟨payload, r, hp, hr, rfl⟩] at h
      cases h
  | ok row =>
      rw [(received_of_row h).1, insert_eq_false]
      obtain ⟨payload, r, hp, hr, rfl⟩ := row_eq_ok.mp h
      refine ⟨fun ⟨hfits, hmem⟩ => ⟨r, ⟨payload, hp, hr, hfits⟩, hmem⟩, ?_⟩
      rintro ⟨r', ⟨payload', hp', hr', hfits⟩, hmem⟩
      cases hp.symm.trans hp'
      cases hr.symm.trans hr'
      exact ⟨hfits, hmem⟩

/-- The keys after a callback are those before it, and its own where it is recorded. -/
theorem mem_received {key : String} : (∃ e ∈ (a.received R events).2, e.dedupKey = key) ↔
    (∃ e ∈ events, e.dedupKey = key) ∨ ∃ r, a.Recorded R r ∧ a.key R r = key := by
  cases h : a.row R with
  | error x =>
      rw [received_of_error h]
      refine ⟨.inl, fun hk => hk.elim id ?_⟩
      rintro ⟨r, ⟨payload, hp, hr, -⟩, -⟩
      rw [row_eq_ok.mpr ⟨payload, r, hp, hr, rfl⟩] at h
      cases h
  | ok row =>
      rw [(received_of_row h).2, mem_insert]
      obtain ⟨payload, r, hp, hr, rfl⟩ := row_eq_ok.mp h
      refine or_congr_right ⟨fun ⟨hfits, hkey⟩ => ⟨r, ⟨payload, hp, hr, hfits⟩, hkey⟩, ?_⟩
      rintro ⟨r', ⟨payload', hp', hr', hfits⟩, hkey⟩
      cases hp.symm.trans hp'
      cases hr.symm.trans hr'
      exact ⟨hfits, hkey⟩

/-- **Two callbacks are merged where both are recorded, under one key.** -/
theorem merged_iff : (∃ events, a.Merged R b events) ↔
    ∃ r r', a.Recorded R r ∧ b.Recorded R r' ∧ a.key R r = b.key R r' := by
  unfold Merged
  simp only [ne_eq, duplicate_iff, mem_received]
  constructor
  · rintro ⟨events, hnew, r', hb, ⟨e, he, hkey⟩ | ⟨r, ha, hkey⟩⟩
    · exact absurd ⟨r', hb, e, he, hkey⟩ hnew
    · exact ⟨r, r', ha, hb, hkey⟩
  · rintro ⟨r, r', ha, hb, hkey⟩
    exact ⟨[], by simp, r', hb, .inr ⟨r, ha, hkey⟩⟩

/-! ### Callbacks that are kept apart -/

variable (R a b)

def SameTask : Prop := a.task.taskId = b.task.taskId

def SameEvent : Prop :=
  ∃ id, nonEmpty a.delivery.eventId = some id ∧ nonEmpty b.delivery.eventId = some id

/-- Neither has an event id. -/
def NoEvent : Prop := nonEmpty a.delivery.eventId = none ∧ nonEmpty b.delivery.eventId = none

/-- What the route reads in the callback. -/
def reading : Except Exn CallbackReading := do
  let payload ← R.safeJson a.delivery.raw
  readCallback a.container a.delivery payload (some a.task)

/-- The callbacks of two tasks are never merged, and those of one task without an event id only
where the id, the status and the digest agree. -/
structure Separate : Prop where
  tasks : ¬ SameTask a b → ∀ events, ¬ a.Merged R b events
  parts : SameTask a b → NoEvent a b → ∀ events, a.Merged R b events →
    a.reading R = b.reading R ∧ R.bodyDigest a.delivery.raw = R.bodyDigest b.delivery.raw

/-- The callbacks of two tasks share no event id, and no body over which their ids and statuses are
written alike; the ids and statuses of one task are written alike only where they are equal. -/
structure Apart : Prop where
  tasks : ¬ SameTask a b → ∀ r r', a.Recorded R r → b.Recorded R r' →
    ¬ SameEvent a b ∧ ¬ (NoEvent a b ∧ a.delivery.raw = b.delivery.raw ∧ r.written = r'.written)
  parts : SameTask a b → NoEvent a b → ∀ r r', a.Recorded R r → b.Recorded R r' →
    a.delivery.raw = b.delivery.raw → r.written = r'.written → r = r'

variable {R a b}

theorem Recorded.reading_eq {r : CallbackReading} (h : a.Recorded R r) : a.reading R = .ok r := by
  obtain ⟨payload, hp, hr, -⟩ := h
  rw [reading, hp]
  exact hr

theorem key_eq_iff {r r' : CallbackReading} : a.key R r = b.key R r' ↔
    SameEvent a b ∨ (NoEvent a b ∧ r.written = r'.written ∧
      R.bodyDigest a.delivery.raw = R.bodyDigest b.delivery.raw) := by
  rw [key, key, callbackDedupKey_eq_iff (by rw [R.digest_length, R.digest_length]), NoEvent,
    and_assoc]
  rfl

theorem SameEvent.not_noEvent (h : SameEvent a b) : ¬ NoEvent a b := by
  obtain ⟨id, ha, -⟩ := h
  rintro ⟨ha', -⟩
  rw [ha] at ha'
  cases ha'

/-- **Two callbacks are kept apart exactly where their keys are.**  The digest tells the two bodies
apart. -/
theorem separate_iff (hdigest : R.bodyDigest a.delivery.raw = R.bodyDigest b.delivery.raw →
      a.delivery.raw = b.delivery.raw) :
    a.Separate R b ↔ a.Apart R b := by
  have same : R.bodyDigest a.delivery.raw = R.bodyDigest b.delivery.raw ↔
      a.delivery.raw = b.delivery.raw := ⟨hdigest, fun h => by rw [h]⟩
  constructor
  · intro h
    refine ⟨fun ht r r' ha hb => ⟨fun he => ?_, ?_⟩, fun ht hn r r' ha hb hraw hw => ?_⟩
    · obtain ⟨events, hm⟩ := merged_iff.mpr ⟨r, r', ha, hb, key_eq_iff.mpr (.inl he)⟩
      exact h.tasks ht events hm
    · rintro ⟨hn, hraw, hw⟩
      obtain ⟨events, hm⟩ := merged_iff.mpr
        ⟨r, r', ha, hb, key_eq_iff.mpr (.inr ⟨hn, hw, same.mpr hraw⟩)⟩
      exact h.tasks ht events hm
    · obtain ⟨events, hm⟩ := merged_iff.mpr
        ⟨r, r', ha, hb, key_eq_iff.mpr (.inr ⟨hn, hw, same.mpr hraw⟩)⟩
      have hread := (h.parts ht hn events hm).1
      rw [ha.reading_eq, hb.reading_eq] at hread
      exact Except.ok.inj hread
  · intro h
    refine ⟨fun ht events hm => ?_, fun ht hn events hm => ?_⟩
    · obtain ⟨r, r', ha, hb, hkey⟩ := merged_iff.mp ⟨events, hm⟩
      obtain ⟨hevent, hbody⟩ := h.tasks ht r r' ha hb
      rcases key_eq_iff.mp hkey with he | ⟨hn, hw, hd⟩
      · exact hevent he
      · exact hbody ⟨hn, same.mp hd, hw⟩
    · obtain ⟨r, r', ha, hb, hkey⟩ := merged_iff.mp ⟨events, hm⟩
      rcases key_eq_iff.mp hkey with he | ⟨-, hw, hd⟩
      · exact absurd hn he.not_noEvent
      · rw [ha.reading_eq, hb.reading_eq, h.parts ht hn r r' ha hb (same.mp hd) hw]
        exact ⟨rfl, hd⟩

end Arrival

/-! ### Two channels that number their tasks alike -/

section Sample

/-- The body of a callback with the id `7` and the status `done`. -/
def sampleRaw : List UInt8 :=
  [123, 34, 105, 100, 34, 58, 32, 34, 55, 34, 44, 32, 34, 115, 116, 97, 116, 117, 115, 34, 58, 32,
    34, 100, 111, 110, 101, 34, 125]

def sampleReception : Reception where
  jsonLoads raw :=
    if raw = sampleRaw then .ok (.obj [("id", .str "7"), ("status", .str "done")])
    else .error .jsonDecodeError
  decode _ := ""
  bodyDigest raw :=
    if raw = sampleRaw then "ee2ac830ddd19caac778647e18cd2750"
    else "44136fa355b3678a1146ad16f7e8649e"
  digest_length raw := by split <;> rfl

/-- The callback of the body to a task, which is in a channel of its own. -/
def sampleArrival (taskId : String) (eventId : Option String) : Arrival where
  delivery := { opaqueToken := taskId, eventId := eventId, raw := sampleRaw }
  container := sampleContainer sampleTemplate
  verify := { ok := true, kid := some "kid" }
  signed := rfl
  task := { sampleRow with taskId := taskId, channel := taskId, callbackToken := some taskId }
  endpoint := rfl
  work
    | .load => .ok none
    | .audit _ => .ok ()
    | _ => .error (.infrastructure "down")

theorem recorded_sample (taskId : String) (eventId : Option String) :
    (sampleArrival taskId eventId).Recorded sampleReception ⟨some "7", some "done"⟩ :=
  ⟨.obj [("id", .str "7"), ("status", .str "done")], rfl, rfl, rfl⟩

/-- The second callback of the same id and status, or of the same event id, is a duplicate of the
first, though it is for another task. -/
theorem callbacks_merged :
    ¬ (sampleArrival "a" none).Separate sampleReception (sampleArrival "b" none) ∧
      ¬ (sampleArrival "a" (some "1")).Separate sampleReception (sampleArrival "b" (some "1")) := by
  have merged : ∀ eventId, ∃ events,
      (sampleArrival "a" eventId).Merged sampleReception (sampleArrival "b" eventId) events :=
    fun eventId => Arrival.merged_iff.mpr ⟨_, _, recorded_sample "a" eventId,
      recorded_sample "b" eventId, rfl⟩
  have other : ∀ eventId,
      ¬ Arrival.SameTask (sampleArrival "a" eventId) (sampleArrival "b" eventId) := by
    intro eventId h
    exact absurd (show "a" = "b" from h) (by decide)
  refine ⟨fun h => ?_, fun h => ?_⟩
  · obtain ⟨events, hm⟩ := merged none
    exact h.tasks (other none) events hm
  · obtain ⟨events, hm⟩ := merged (some "1")
    exact h.tasks (other (some "1")) events hm

/-- Two callbacks that name their events are kept apart. -/
theorem separate_sample :
    (sampleArrival "a" (some "1")).Separate sampleReception (sampleArrival "b" (some "2")) := by
  have same : (sampleArrival "a" (some "1")).delivery.raw =
      (sampleArrival "b" (some "2")).delivery.raw := rfl
  refine (Arrival.separate_iff fun _ => same).mpr ⟨fun _ r r' _ _ => ⟨?_, ?_⟩, fun h => ?_⟩
  · rintro ⟨id, h, h'⟩
    exact absurd (show some "1" = some "2" from h.trans h'.symm) (by decide)
  · rintro ⟨⟨h, -⟩, -⟩
    cases h
  · exact absurd (show "a" = "b" from h) (by decide)

end Sample

end AsyncGateway
