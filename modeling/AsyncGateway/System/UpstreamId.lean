import AsyncGateway.Security.Redaction
import AsyncGateway.System.Gateway

/-!
# System — the id of a task that was created

`handleCreated` takes the upstream id from the redacted copy of the answer, and stores whatever it
finds there as text.  The id is the one the upstream sent exactly where the redaction leaves it
alone, and a value that fits in no path is turned into a doubt only where it is too large to be
extracted (`faithful_iff`).
-/

namespace AsyncGateway

open TaskStatus TaskRuntime
open Interleave (Prog)

/-- The container with the redaction of the source. -/
def Container.redacting (C : Container) (unicodeWord : Char → Bool) : Container :=
  { C with
    scrubText := Redaction.scrubText unicodeWord
    scrubPayload := Redaction.scrubPayload unicodeWord }

/-- The value at `id_location` in what the upstream sent. -/
def idValue (t : ResolvedTemplate) (r : HttpResponse) : Option Json :=
  match compileExpression t.idLocation with
  | .ok path => r.json.bind (·.follow path)
  | .error _ => none

/-- `is_safe_interpolation_value`; the text of a list or a dictionary starts with a bracket. -/
def isSafeValue : Json → Bool
  | .str s => (sanitize s).isOk
  | .int n => (sanitize (toString n)).isOk
  | .float text => (sanitize text).isOk
  | _ => false

/-- What becomes of a create call that is answered with `r`. -/
def settleAnswer (C : Container) (task : AsyncTask) (t : ResolvedTemplate) (strategy : Strategy)
    (secrets : List String) (now : Time) (r : HttpResponse) : Handler Unit :=
  handleSubmitResult C task t strategy (UpstreamClient.ofResponse C secrets .submit now r)

/-- The handler may store `id` as the upstream id. -/
def StoresId (p : Handler Unit) (id : String) : Prop :=
  ∃ rawStatus snapshot nextPollAt startedAt also,
    p.Asks (.apply (.markSubmitted id rawStatus snapshot nextPollAt startedAt) also)

/-- The handler may put the creation in doubt. -/
def Doubts (p : Handler Unit) : Prop :=
  ∃ code message expected also, p.Asks (.apply (.enterUnknown code message expected) also)

/-- **The id is kept**: a string that fits in a path is stored as it was sent, and a value that does
not fit in one puts the creation in doubt. -/
structure Faithful (p : Handler Unit) (value : Option Json) : Prop where
  string : ∀ s, value = some (.str s) → isSafeValue (.str s) = true →
    StoresId p s ∧ (∀ id, StoresId p id → id = s) ∧ ¬ Doubts p
  unusable : ∀ v, value = some v → isSafeValue v = false → Doubts p ∧ ∀ id, ¬ StoresId p id

/-- The redaction leaves the id alone, where it fits in a path; where it does not, the redacted
value is too large to be extracted. -/
structure Untouched (unicodeWord : Char → Bool) (secrets : List String) (value : Option Json) :
    Prop where
  string : ∀ s, value = some (.str s) → isSafeValue (.str s) = true →
    Redaction.Clean unicodeWord secrets s
  unusable : ∀ v, value = some v → isSafeValue v = false →
    maxResultBytes < (Redaction.scrubPayload unicodeWord secrets v).dumpsBytes

/-! ### What the handler makes of the value -/

section Handler

variable {C : Container} {task : AsyncTask} {t : ResolvedTemplate} {result : UpstreamCallResult}

/-- The writes that settle the creation. -/
def Op.settles : Op → Bool
  | .apply (.markSubmitted _ _ _ _ _) _ => true
  | .apply (.enterUnknown _ _ _) _ => true
  | _ => false

/-- The program settles nothing. -/
abbrev Unsettling {α : Type} (p : Handler α) : Prop :=
  Prog.Avoids (S := effects) (fun o => Op.settles o = true) p

theorem unsettling_ask {o : Op} (h : o.settles = false) : Unsettling (ask o) :=
  .perform (by simp [h])

theorem unsettling_noteAttribute {attributes : Json.Fields} :
    Unsettling (noteAttribute attributes) :=
  .bind (unsettling_ask rfl) fun read => by
    cases read with
    | none => exact .pure _
    | some read => exact unsettling_ask rfl

theorem unsettling_enqueue {queue name : String} : Unsettling (enqueue queue name) :=
  unsettling_ask rfl

theorem unsettling_noteChannelHealthy {channel : String} :
    Unsettling (noteChannelHealthy C channel) :=
  .tryCatch (unsettling_ask rfl) fun _ => .pure _

/-- A value that is not found puts the creation in doubt. -/
theorem doubts_of_missing
    (h : tryExtract (payloadOr (result.response.bind (·.jsonBody))) t.idLocation = .ok none) :
    Doubts (handleCreated C task t result) ∧ ∀ id, ¬ StoresId (handleCreated C task t result) id := by
  have he : handleCreated C task t result = (applyOp (.enterUnknown .upstream5xx
      (some ("create succeeded but id not found at " ++ t.idLocation)) none)).bind fun _ =>
        enqueue "compensate:default" "compensate_orphan" := by
    simp only [handleCreated, h]
    rfl
  rw [he]
  refine ⟨⟨_, _, _, _, .inl rfl⟩, fun id ⟨raw, snapshot, next, started, also, ha⟩ => ?_⟩
  rcases Prog.asks_bind ha with ha | ⟨-, ha⟩
  · cases Prog.asks_perform.mp ha
  · cases Prog.asks_perform.mp ha

/-- What follows the storing of the id settles nothing more. -/
theorem handleCreated_found (C : Container) (task : AsyncTask) {v : Json} {raw : Option Json}
    (h : tryExtract (payloadOr (result.response.bind (·.jsonBody))) t.idLocation = .ok (some v))
    (hraw : tryExtract (payloadOr (result.response.bind (·.jsonBody))) t.statusField = .ok raw) :
    ∃ tail : Bool → Time → Handler Unit, (∀ ok submittedAt, Unsettling (tail ok submittedAt)) ∧
      handleCreated C task t result = (ask (.nextInterval task.channel 0 true)).bind fun interval =>
        now_.bind fun submittedAt => (raiseIn (later submittedAt (.fin interval))).bind fun next =>
          (applyOp (.markSubmitted (C.pyStr v) (raw.map C.pyStr) none next none)).bind fun ok =>
            tail ok submittedAt := by
  refine ⟨_, ?_, by simp only [handleCreated, h, hraw]; rfl⟩
  intro ok submittedAt
  have healthy : Unsettling (do
      noteChannelHealthy C task.channel
      enqueue (pollQueue t.pool) "poll_upstream") :=
    .bind unsettling_noteChannelHealthy fun _ => unsettling_enqueue
  have rest : Unsettling (do
      if task.cancelRequested then enqueue "cancel:default" "cancel_upstream" else pure ()
      noteChannelHealthy C task.channel
      enqueue (pollQueue t.pool) "poll_upstream") :=
    .ite (.bind unsettling_enqueue fun _ => healthy) healthy
  refine .ite (.bind unsettling_noteAttribute fun _ => ?_) (.pure _)
  split
  · exact .bind (unsettling_ask rfl) fun _ => rest
  · exact rest

/-- With the interval 0, at the time 0, the report of a value that is found is asked for. -/
theorem asks_markSubmitted (C : Container) (task : AsyncTask) {v : Json} {raw : Option Json}
    (h : tryExtract (payloadOr (result.response.bind (·.jsonBody))) t.idLocation = .ok (some v))
    (hraw : tryExtract (payloadOr (result.response.bind (·.jsonBody))) t.statusField = .ok raw) :
    (handleCreated C task t result).Asks
      (.apply (.markSubmitted (C.pyStr v) (raw.map C.pyStr) none 0 none) none) := by
  obtain ⟨tail, -, he⟩ := handleCreated_found C task h hraw
  have hl : later 0 (.fin 0) = .ok 0 := by simp [later, datetimeEnd]
  rw [he]
  refine .inr ⟨.ok (0 : ℚ), .inr ⟨.ok (0 : ℚ), ?_⟩⟩
  change ((raiseIn (later 0 (.fin 0))).bind _).Asks _
  rw [hl]
  exact .inl rfl

/-- A value that is found is stored as its text. -/
theorem stores_of_found {v : Json} (hs : ResolvedTemplate.compiles t.statusField = true)
    (h : tryExtract (payloadOr (result.response.bind (·.jsonBody))) t.idLocation = .ok (some v)) :
    (∀ id, StoresId (handleCreated C task t result) id ↔ id = C.pyStr v) ∧
      ¬ Doubts (handleCreated C task t result) := by
  obtain ⟨path, hpath⟩ := ResolvedTemplate.compiles_iff.mp hs
  obtain ⟨raw, hraw⟩ : ∃ raw, tryExtract (payloadOr (result.response.bind (·.jsonBody)))
      t.statusField = .ok raw := ⟨_, tryExtract_eq hpath _⟩
  obtain ⟨tail, htail, he⟩ := handleCreated_found C task h hraw
  -- the operations before the report settle nothing, and so do those after it
  have only : ∀ o, o.settles = true → (handleCreated C task t result).Asks o →
      ∃ next, o = .apply (.markSubmitted (C.pyStr v) (raw.map C.pyStr) none next none) none := by
    intro o ho ha
    rw [he] at ha
    rcases Prog.asks_bind ha with ha | ⟨interval, ha⟩
    · rw [Prog.asks_perform.mp ha] at ho
      cases ho
    rcases Prog.asks_bind ha with ha | ⟨submittedAt, ha⟩
    · rw [Prog.asks_perform.mp ha] at ho
      cases ho
    rcases Prog.asks_bind ha with ha | ⟨next, ha⟩
    · cases hl : later submittedAt (.fin interval) <;> rw [hl] at ha <;> exact ha.elim
    rcases Prog.asks_bind ha with ha | ⟨ok, ha⟩
    · exact ⟨next, Prog.asks_perform.mp ha⟩
    · exact absurd ho (htail ok submittedAt o ha)
  refine ⟨fun id => ⟨?_, ?_⟩, ?_⟩
  · rintro ⟨raw', snapshot, next, started, also, ha⟩
    obtain ⟨next', hn⟩ := only _ rfl ha
    cases hn
    rfl
  · rintro rfl
    exact ⟨_, _, _, _, _, asks_markSubmitted C task h hraw⟩
  · rintro ⟨code, message, expected, also, ha⟩
    obtain ⟨next', hn⟩ := only _ rfl ha
    cases hn

end Handler

/-! ### What is found in the redacted answer -/

section Found

theorem isSafeValue_str {s : String} (h : isSafeValue (.str s) = true) :
    s ≠ "" ∧ '*' ∉ s.toList ∧ (Json.str s).dumpsBytes ≤ maxResultBytes := by
  simp only [isSafeValue, sanitize] at h
  split_ifs at h with hempty hdang hbad
  · cases h
  · cases h
  · cases h
  · simp only [not_or, not_not, List.all_eq_true, not_lt] at hbad
    obtain ⟨hall, hlen⟩ := hbad
    refine ⟨fun he => hempty (by simp [he]), fun hm => absurd (hall _ hm) (by decide), ?_⟩
    have hbytes : Json.stringBytes s ≤ 6 * s.toList.length + 2 := Json.stringBytes_le s
    simp only [Json.dumpsBytes, maxResultBytes]
    omega

/-- A falsy value is small, and stays so. -/
theorem dumpsBytes_of_falsy {unicodeWord : Char → Bool} {secrets : List String} {v : Json}
    (h : v.truthy = false) :
    (Redaction.scrubPayload unicodeWord secrets v).dumpsBytes ≤ maxResultBytes := by
  cases v with
  | null => exact (by decide : Json.null.dumpsBytes ≤ maxResultBytes)
  | bool b =>
      obtain rfl : b = false := h
      exact (by decide : (Json.bool false).dumpsBytes ≤ maxResultBytes)
  | int n =>
      obtain rfl : n = 0 := by simpa [Json.truthy] using h
      exact (by decide : (Json.int 0).dumpsBytes ≤ maxResultBytes)
  | float text =>
      have htext : text = "0.0" ∨ text = "-0.0" := by
        by_contra hn
        simp [Json.truthy, not_or.mp hn] at h
      rcases htext with rfl | rfl
      · exact (by decide : (Json.float "0.0").dumpsBytes ≤ maxResultBytes)
      · exact (by decide : (Json.float "-0.0").dumpsBytes ≤ maxResultBytes)
  | str s =>
      obtain rfl : s = "" := by simpa [Json.truthy] using h
      simp [Redaction.scrubPayload, Json.mapStrings, Redaction.scrubText_eq_empty.mpr rfl,
        Json.dumpsBytes, Json.stringBytes, maxResultBytes]
  | arr items =>
      cases items with
      | nil => exact (by decide : (Json.arr []).dumpsBytes ≤ maxResultBytes)
      | cons x xs => cases h
  | obj fields =>
      cases fields with
      | nil => exact (by decide : (Json.obj []).dumpsBytes ≤ maxResultBytes)
      | cons f fs => cases h

/-- A path leads nowhere in a falsy document. -/
theorem follow_of_falsy {doc v : Json} {path : List Json.Step} (h : doc.truthy = false)
    (hv : doc.follow path = some v) : path = [] ∧ v = doc := by
  cases path with
  | nil =>
      rw [Json.follow_nil] at hv
      exact ⟨rfl, (Option.some.inj hv).symm⟩
  | cons step path =>
      exfalso
      cases doc <;> cases step <;> try cases hv
      · rename_i items i
        cases items with
        | nil => simp [Json.follow, Json.item?] at hv
        | cons x xs => cases h
      · rename_i fields k
        cases fields with
        | nil => cases hv
        | cons f fs => cases h

/-- What the handler finds: the redacted value, if it is not too large; nothing is read from a
falsy answer, which is taken for an empty one. -/
theorem found_cases (unicodeWord : Char → Bool) (secrets : List String) {t : ResolvedTemplate}
    {r : HttpResponse} {v : Json} (h : idValue t r = some v) :
    let found := tryExtract (payloadOr (r.json.map (Redaction.scrubPayload unicodeWord secrets)))
      t.idLocation
    v.truthy = false ∧ found = .ok (some (.obj [])) ∨
      found = .ok (if maxResultBytes < (Redaction.scrubPayload unicodeWord secrets v).dumpsBytes
        then none else some (Redaction.scrubPayload unicodeWord secrets v)) := by
  unfold idValue at h
  cases hc : compileExpression t.idLocation with
  | error e => simp [hc] at h
  | ok path =>
      simp only [hc] at h
      obtain ⟨doc, hdoc, hv⟩ := Option.bind_eq_some_iff.mp h
      have hscrub : (Redaction.scrubPayload unicodeWord secrets doc).truthy = doc.truthy :=
        Json.truthy_mapStrings (fun _ => Redaction.scrubText_eq_empty) doc
      have hfound : tryExtract (payloadOr
          (r.json.map (Redaction.scrubPayload unicodeWord secrets))) t.idLocation =
            .ok (extract (if doc.truthy = true then Redaction.scrubPayload unicodeWord secrets doc
              else .obj []) path) := by
        simp only [tryExtract, hc, hdoc, Option.map_some, payloadOr, hscrub]
        rfl
      cases ht : doc.truthy with
      | true =>
          refine .inr ?_
          rw [hfound, if_pos ht, extract, Redaction.scrubPayload, Json.follow_mapStrings, hv]
          rfl
      | false =>
          obtain ⟨rfl, rfl⟩ := follow_of_falsy ht hv
          refine .inl ⟨ht, ?_⟩
          rw [hfound, if_neg (by simp [ht])]
          rfl

end Found

/-! ### When the id is kept -/

section Faithful

variable (C : Container) (unicodeWord : Char → Bool) (task : AsyncTask) (strategy : Strategy)
  (secrets : List String) (now : Time) {r : HttpResponse}

/-- An answer of success is one that created the task. -/
theorem settleAnswer_eq (t : ResolvedTemplate) (h : 200 ≤ r.statusCode ∧ r.statusCode < 300) :
    ∃ result : UpstreamCallResult,
      result.response.bind (·.jsonBody) = r.json.map (C.scrubPayload secrets) ∧
      settleAnswer C task t strategy secrets now r = handleCreated C task t result := by
  have hok : UpstreamClient.ofResponse C secrets .submit now r =
      { outcome := .ok
        response := some
          { statusCode := r.statusCode, retryAfterHeader := r.retryAfter
            jsonBody := r.json.map (C.scrubPayload secrets), text := C.scrubText secrets r.text
            rawJsonBody := r.json } } := by
    simp [UpstreamClient.ofResponse, UpstreamResponse.ok, h]
  refine ⟨_, ?_, by rw [settleAnswer, hok]; rfl⟩
  rfl

/-- **The upstream id is the one the upstream sent exactly where the redaction leaves it.** -/
theorem faithful_iff (t : AcceptedTemplate) (h : 200 ≤ r.statusCode ∧ r.statusCode < 300) :
    Faithful (settleAnswer (C.redacting unicodeWord) task t.toResolvedTemplate strategy secrets now r)
        (idValue t.toResolvedTemplate r) ↔
      Untouched unicodeWord secrets (idValue t.toResolvedTemplate r) := by
  -- a success goes to `handleCreated` with the redacted body
  obtain ⟨result, hbody, he⟩ : ∃ result : UpstreamCallResult,
      result.response.bind (·.jsonBody) =
        r.json.map (Redaction.scrubPayload unicodeWord secrets) ∧
      settleAnswer (C.redacting unicodeWord) task t.toResolvedTemplate strategy secrets now r =
        handleCreated (C.redacting unicodeWord) task t.toResolvedTemplate result :=
    settleAnswer_eq (C.redacting unicodeWord) task strategy secrets now t.toResolvedTemplate h
  rw [he]
  have found := fun v (hv : idValue t.toResolvedTemplate r = some v) =>
    found_cases unicodeWord secrets hv
  simp only [← hbody] at found
  have hstatus := t.compiles_fields.2.1
  constructor
  · intro hf
    refine ⟨fun s hv hs => ?_, fun v hv hs => ?_⟩
    · obtain ⟨-, honly, hdoubt⟩ := hf.string s hv hs
      obtain ⟨hne, hstar, -⟩ := isSafeValue_str hs
      rw [← Redaction.scrubText_eq_self_iff hstar]
      rcases found (.str s) hv with ⟨hfalsy, -⟩ | hr
      · exact absurd (by simpa [Json.truthy] using hfalsy) hne
      · split_ifs at hr with hlarge
        · exact absurd (doubts_of_missing hr).1 hdoubt
        · exact honly _ (((stores_of_found hstatus hr).1 _).mpr rfl)
    · obtain ⟨hdoubt, -⟩ := hf.unusable v hv hs
      rcases found v hv with ⟨-, hr⟩ | hr
      · exact absurd hdoubt (stores_of_found hstatus hr).2
      · split_ifs at hr with hlarge
        · exact hlarge
        · exact absurd hdoubt (stores_of_found hstatus hr).2
  · intro hu
    refine ⟨fun s hv hs => ?_, fun v hv hs => ?_⟩
    · obtain ⟨hne, hstar, hsize⟩ := isSafeValue_str hs
      have hself := (Redaction.scrubText_eq_self_iff hstar).mpr (hu.string s hv hs)
      have hscrub : Redaction.scrubPayload unicodeWord secrets (.str s) = .str s := by
        simp [Redaction.scrubPayload, Json.mapStrings, hself]
      rcases found (.str s) hv with ⟨hfalsy, -⟩ | hr
      · exact absurd (by simpa [Json.truthy] using hfalsy) hne
      · rw [hscrub, if_neg (not_lt.mpr hsize)] at hr
        obtain ⟨hid, hdoubt⟩ := stores_of_found hstatus hr
        exact ⟨(hid s).mpr rfl, fun id hstore => (hid id).mp hstore, hdoubt⟩
    · have hlarge := hu.unusable v hv hs
      rcases found v hv with ⟨hfalsy, -⟩ | hr
      · exact absurd (dumpsBytes_of_falsy hfalsy) (not_le.mpr hlarge)
      · rw [if_pos hlarge] at hr
        exact doubts_of_missing hr

end Faithful

/-! ### Answers to the sample gateway -/

/-- What becomes of the sample task whose create call is answered with the id. -/
def settledWith (id : Json) : Handler Unit :=
  settleAnswer ((sampleContainer sampleTemplate).redacting fun _ => false) sampleRow sampleTemplate {}
    ["Bearer secret-key"] 0 { statusCode := 200, json := some (.obj [("id", id)]) }

/-- An id of 32 hexadecimal digits has the shape of a secret, and the marker of the redaction is
stored in its place; a null id is stored as the text of it. -/
theorem id_not_kept :
    isSafeValue (.str "0123456789abcdef0123456789abcdef") = true ∧
      StoresId (settledWith (.str "0123456789abcdef0123456789abcdef")) "***redacted***" ∧
      isSafeValue .null = false ∧ StoresId (settledWith .null) "None" ∧
      ¬ Faithful (settledWith (.str "0123456789abcdef0123456789abcdef"))
        (some (.str "0123456789abcdef0123456789abcdef")) ∧
      ¬ Faithful (settledWith .null) (some .null) := by
  -- what is found is stored, and the creation is not put in doubt
  have stored : ∀ id v, tryExtract (payloadOr (some (Redaction.scrubPayload (fun _ => false)
      ["Bearer secret-key"] (.obj [("id", id)])))) sampleTemplate.idLocation = .ok (some v) →
      (∀ s, StoresId (settledWith id) s ↔
        s = ((sampleContainer sampleTemplate).redacting fun _ => false).pyStr v) ∧
        ¬ Doubts (settledWith id) := by
    intro id v hv
    obtain ⟨result, hbody, he⟩ := settleAnswer_eq
      ((sampleContainer sampleTemplate).redacting fun _ => false) sampleRow {}
      ["Bearer secret-key"] 0 sampleTemplate
      (r := { statusCode := 200, json := some (.obj [("id", id)]) })
      ⟨le_refl 200, (by decide : 200 < 300)⟩
    rw [settledWith, he]
    exact stores_of_found (by decide) (hbody ▸ hv)
  have hhex := stored (.str "0123456789abcdef0123456789abcdef") (.str "***redacted***") rfl
  have hnull := stored .null .null rfl
  have hsafe : isSafeValue (.str "0123456789abcdef0123456789abcdef") = true := by decide
  have hstore := (hhex.1 "***redacted***").mpr rfl
  refine ⟨hsafe, hstore, rfl, (hnull.1 "None").mpr rfl, fun h => ?_, fun h => ?_⟩
  · exact absurd ((h.string _ rfl hsafe).2.1 _ hstore) (by decide)
  · exact hnull.2 (h.unusable _ rfl rfl).1

theorem faithful_sample :
    Faithful (settledWith (.str "cgt-2026-abc")) (some (.str "cgt-2026-abc")) := by
  refine (faithful_iff (sampleContainer sampleTemplate) (fun _ => false) sampleRow {}
    ["Bearer secret-key"] 0 acceptedSample ⟨by decide, by decide⟩).mpr ⟨fun s hs _ => ?_, ?_⟩
  · obtain rfl : s = "cgt-2026-abc" := by
      cases hs
      rfl
    exact ⟨by decide, by decide⟩
  · intro v hv hsafe
    cases hv
    cases hsafe

end AsyncGateway
