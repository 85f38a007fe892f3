import Mathlib.Data.List.TakeWhile
import AsyncGateway.System.Widths

/-!
# System — the result field of a recorded success

The snapshot of a success is made of the redacted answer: the status is written into it, and then
the result field as the upstream sent it.  A write follows keys only: a path with an index is not
written, and the list it leads through is lost; and a value above the limit on what a path finds is
not restored.  The snapshot has the result the upstream sent, and the redacted form of every other
string, exactly where none of this happens (`result_kept_iff`).
-/

namespace AsyncGateway

open TaskStatus TaskRuntime
open Json (Step)
open Interleave (Prog)

/-! ### The snapshot that is recorded -/

section Recorded

variable (scrub : String → String) (text : Json → String) (ps pr : List Step) (native : String)

/-- The fields of the redacted answer, with the status written into them. -/
def withStatus (fields : Json.Fields) : Json.Fields :=
  (setSteps (Json.mapFields scrub fields) ps (.str native)).1

/-- The snapshot of a success whose status field has the path `ps`, and the result field `pr`. -/
def recordedSnapshot : Json → Json
  | .obj fields =>
      match extract (.obj fields) pr with
      | none => .obj (withStatus scrub ps native fields)
      | some .null => .obj (withStatus scrub ps native fields)
      | some value => .obj (setSteps (withStatus scrub ps native fields) pr value).1
  | body => body.mapStrings scrub

/-- The snapshot has at `pr` the string of the answer, and elsewhere the text of what the answer
has there, redacted. -/
structure Kept (body snapshot : Json) : Prop where
  result : ∀ url, body.follow pr = some (.str url) → snapshot.follow pr = some (.str url)
  others : ∀ q s, q ≠ pr → snapshot.follow q = some (.str s) →
    ∃ v, body.follow q = some v ∧ s = text (v.mapStrings scrub)

/-- The string is within the limit on what a path finds. -/
def Fitting (s : String) : Prop := (Json.str s).dumpsBytes ≤ maxResultBytes

/-- A string at `pr` of an object is restored, or the redaction and the status leave it; and what
is restored there holds no other string that the redaction changes. -/
structure RestorableFields (fields : Json.Fields) : Prop where
  written : ∀ url, (Json.obj fields).follow pr = some (.str url) → Fitting url → Writable pr
  untouched : ∀ url, (Json.obj fields).follow pr = some (.str url) → ¬ Fitting url →
    scrub url = url ∧ ¬ Clobbers ps pr
  leaf : ∀ value q s, Writable pr → extract (.obj fields) pr = some value → q ≠ [] →
    value.follow q = some (.str s) → scrub s = s

/-- An answer whose result field is kept; nothing is restored of one that is no object. -/
def Restorable : Json → Prop
  | .obj fields => RestorableFields scrub ps pr fields
  | body => ∀ url, body.follow pr = some (.str url) → scrub url = url

end Recorded

section Snapshot

variable {scrub : String → String} {text : Json → String} {ps pr q : List Step}
  {fields : Json.Fields} {body value v : Json} {native s url : String}

theorem extract_str (h : body.follow pr = some (.str url)) (hfit : Fitting url) :
    extract body pr = some (.str url) := by
  rw [extract, h, Option.bind_some, if_neg (not_lt.mpr hfit)]

theorem extract_long (h : body.follow pr = some (.str url)) (hlong : ¬ Fitting url) :
    extract body pr = none := by
  rw [extract, h, Option.bind_some, if_pos (not_le.mp hlong)]

/-- A string of the redacted answer is a redacted one. -/
theorem follow_mapFields_str
    (h : (Json.obj (Json.mapFields scrub fields)).follow q = some (.str s)) :
    ∃ s₀, (Json.obj fields).follow q = some (.str s₀) ∧ s = scrub s₀ := by
  have hmap := Json.follow_mapStrings scrub q (.obj fields)
  rw [Json.mapStrings, h] at hmap
  obtain ⟨v, hv, hs⟩ := Option.map_eq_some_iff.mp hmap.symm
  cases v with
  | str s₀ => exact ⟨s₀, hv, (Json.str.inj hs).symm⟩
  | _ => cases hs

/-- The status that was read, and the text that is written for it. -/
structure StatusRead (scrub : String → String) (text : Json → String) (ps : List Step)
    (fields : Json.Fields) (native : String) (raw : Json) : Prop where
  found : (Json.obj fields).follow ps = some raw
  small : (raw.mapStrings scrub).dumpsBytes ≤ maxResultBytes
  native : native = text (raw.mapStrings scrub)

variable {raw : Json}

theorem StatusRead.follow (h : StatusRead scrub text ps fields native raw) :
    (Json.obj (Json.mapFields scrub fields)).follow ps = some (raw.mapStrings scrub) := by
  have hmap := Json.follow_mapStrings scrub ps (.obj fields)
  rwa [h.found] at hmap

/-- A string of the answer with the status written into it is the text of what the answer has
there, redacted. -/
theorem StatusRead.str_withStatus (h : StatusRead scrub text ps fields native raw)
    (htext : ∀ s, text (.str s) = s)
    (hs : (Json.obj (withStatus scrub ps native fields)).follow q = some (.str s)) :
    ∃ v, (Json.obj fields).follow q = some v ∧ s = text (v.mapStrings scrub) := by
  rcases follow_setSteps_str hs with hbefore | ⟨-, q', rfl, hwritten⟩
  · obtain ⟨s₀, hs₀, rfl⟩ := follow_mapFields_str hbefore
    exact ⟨.str s₀, hs₀, (htext _).symm⟩
  · obtain ⟨rfl, hnative⟩ := Json.follow_str_eq_some hwritten
    cases hnative
    exact ⟨raw, by simpa using h.found, h.native⟩

/-- A long string is in the answer with the status written into it exactly where the redaction
leaves it, and the status does not replace it. -/
theorem StatusRead.long_withStatus (h : StatusRead scrub text ps fields native raw)
    (htext : ∀ s, text (.str s) = s) (hurl : (Json.obj fields).follow pr = some (.str url))
    (hlong : ¬ Fitting url) :
    (Json.obj (withStatus scrub ps native fields)).follow pr = some (.str url) ↔
      scrub url = url ∧ ¬ Clobbers ps pr := by
  have hscrub : (Json.obj (Json.mapFields scrub fields)).follow pr = some (.str (scrub url)) := by
    have hmap := Json.follow_mapStrings scrub pr (.obj fields)
    rwa [hurl] at hmap
  constructor
  · intro hs
    obtain ⟨v, hv, htextv⟩ := h.str_withStatus htext hs
    obtain rfl : Json.str url = v := Option.some.inj (hurl.symm.trans hv)
    have hself : scrub url = url := (htext (scrub url)).symm.trans htextv.symm
    refine ⟨hself, ?_⟩
    rintro ⟨hne, q', rfl⟩
    by_cases hall : ps.all Step.isKey = true
    · -- the status itself is there, and it was found, so it is short
      rw [List.takeWhile_eq_self_iff.mpr (List.all_eq_true.mp hall), withStatus,
        Json.follow_append, follow_setSteps_written ⟨hne, hall⟩, Option.bind_some] at hs
      obtain ⟨rfl, -⟩ := Json.follow_str_eq_some hs
      rw [List.takeWhile_eq_self_iff.mpr (List.all_eq_true.mp hall), List.append_nil,
        h.found] at hurl
      cases hurl
      refine hlong ?_
      have hsmall := h.small
      rwa [Json.mapStrings, hself] at hsmall
    · -- the list the path of the status leads through is lost
      exact follow_setSteps_lost h.follow hall q' hs
  · rintro ⟨hself, hspared⟩
    refine follow_setSteps_spared h.follow ?_ hspared
    rw [hscrub, hself]

theorem recordedSnapshot_found (h : extract (.obj fields) pr = some value) (hne : value ≠ .null) :
    recordedSnapshot scrub ps pr native (.obj fields) =
      .obj (setSteps (withStatus scrub ps native fields) pr value).1 := by
  rw [recordedSnapshot, h]
  cases value with
  | null => exact absurd rfl hne
  | _ => rfl

theorem recordedSnapshot_missing
    (h : extract (.obj fields) pr = none ∨ extract (.obj fields) pr = some .null) :
    recordedSnapshot scrub ps pr native (.obj fields) =
      .obj (withStatus scrub ps native fields) := by
  rcases h with h | h <;> rw [recordedSnapshot, h]

/-- A short string is restored only where its path can be written. -/
theorem writable_of_restored (hurl : (Json.obj fields).follow pr = some (.str url))
    (hs : (Json.obj (setSteps (withStatus scrub ps native fields) pr (.str url)).1).follow pr =
      some (.str url)) : Writable pr := by
  by_contra hw
  have hne : pr ≠ [] := by
    rintro rfl
    simp at hurl
  have hall : ¬ pr.all Step.isKey = true := fun hall => hw ⟨hne, hall⟩
  have hbefore := (follow_setSteps_str hs).resolve_right fun h => hw h.1
  have hlost : ∀ q, (Json.obj (setSteps (withStatus scrub ps native fields) pr (.str url)).1).follow
      (pr.takeWhile Step.isKey ++ q) ≠ some (.str url) := follow_setSteps_lost hbefore hall
  refine hlost (pr.dropWhile Step.isKey) ?_
  rwa [List.takeWhile_append_dropWhile]

theorem StatusRead.kept_iff (h : StatusRead scrub text ps fields native raw)
    (htext : ∀ s, text (.str s) = s) :
    Kept scrub text pr (.obj fields) (recordedSnapshot scrub ps pr native (.obj fields)) ↔
      RestorableFields scrub ps pr fields := by
  constructor
  · intro hkept
    refine ⟨fun url hurl hfit => ?_, fun url hurl hlong => ?_, fun value q s hw hvalue hq hs => ?_⟩
    · have hresult := hkept.result url hurl
      rw [recordedSnapshot_found (extract_str hurl hfit) (by simp)] at hresult
      exact writable_of_restored hurl hresult
    · have hresult := hkept.result url hurl
      rw [recordedSnapshot_missing (.inl (extract_long hurl hlong))] at hresult
      exact (h.long_withStatus htext hurl hlong).mp hresult
    · have hne : value ≠ .null := by
        rintro rfl
        cases q with
        | nil => exact hq rfl
        | cons step q => cases step <;> simp [Json.follow] at hs
      have hat : (Json.obj fields).follow (pr ++ q) = some (.str s) := by
        rw [Json.follow_append, follow_of_extract hvalue, Option.bind_some, hs]
      obtain ⟨v, hv, htextv⟩ := hkept.others (pr ++ q) s (by simpa using hq) (by
        rw [recordedSnapshot_found hvalue hne, Json.follow_append, follow_setSteps_written hw,
          Option.bind_some, hs])
      obtain rfl : Json.str s = v := Option.some.inj (hat.symm.trans hv)
      exact (htext (scrub s)).symm.trans htextv.symm
  · intro hr
    constructor
    · intro url hurl
      by_cases hfit : Fitting url
      · rw [recordedSnapshot_found (extract_str hurl hfit) (by simp)]
        exact follow_setSteps_written (hr.written url hurl hfit) _ _
      · rw [recordedSnapshot_missing (.inl (extract_long hurl hfit))]
        exact (h.long_withStatus htext hurl hfit).mpr (hr.untouched url hurl hfit)
    · intro q s hq hs
      -- what is not found at the result location is not written back
      by_cases hmissing : extract (.obj fields) pr = none ∨ extract (.obj fields) pr = some .null
      · rw [recordedSnapshot_missing hmissing] at hs
        exact h.str_withStatus htext hs
      · obtain ⟨hsome, hnull⟩ := not_or.mp hmissing
        obtain ⟨value, hvalue⟩ := Option.ne_none_iff_exists'.mp hsome
        rw [recordedSnapshot_found hvalue (fun hn => hnull (hn ▸ hvalue))] at hs
        rcases follow_setSteps_str hs with hbefore | ⟨hw, q', rfl, hbelow⟩
        · exact h.str_withStatus htext hbefore
        · have hself := hr.leaf value q' s hw hvalue (by simpa using hq) hbelow
          refine ⟨.str s, ?_, ?_⟩
          · rw [Json.follow_append, follow_of_extract hvalue, Option.bind_some, hbelow]
          · rw [Json.mapStrings, htext, hself]

/-- An answer that is no object is redacted as it is. -/
theorem kept_bare_iff (htext : ∀ s, text (.str s) = s) (hbare : ∀ fields, body ≠ .obj fields) :
    Kept scrub text pr body (recordedSnapshot scrub ps pr native body) ↔
      Restorable scrub ps pr body := by
  have hsnapshot : recordedSnapshot scrub ps pr native body = body.mapStrings scrub := by
    cases body with
    | obj fields => exact absurd rfl (hbare fields)
    | _ => rfl
  have hcondition : Restorable scrub ps pr body ↔
      ∀ url, body.follow pr = some (.str url) → scrub url = url := by
    cases body with
    | obj fields => exact absurd rfl (hbare fields)
    | _ => rfl
  rw [hsnapshot, hcondition]
  constructor
  · intro hkept url hurl
    have hresult := hkept.result url hurl
    rw [Json.follow_mapStrings, hurl] at hresult
    exact Json.str.inj (Option.some.inj hresult)
  · intro hr
    constructor
    · intro url hurl
      rw [Json.follow_mapStrings, hurl, Option.map_some, Json.mapStrings, hr url hurl]
    · intro q s _ hs
      rw [Json.follow_mapStrings] at hs
      obtain ⟨v, hv, hmap⟩ := Option.map_eq_some_iff.mp hs
      exact ⟨v, hv, by rw [hmap, htext]⟩

theorem kept_iff (htext : ∀ s, text (.str s) = s)
    (h : ∀ fields, body = .obj fields → ∃ raw, StatusRead scrub text ps fields native raw) :
    Kept scrub text pr body (recordedSnapshot scrub ps pr native body) ↔
      Restorable scrub ps pr body := by
  by_cases hobj : ∃ fields, body = .obj fields
  · obtain ⟨fields, rfl⟩ := hobj
    obtain ⟨raw, hraw⟩ := h fields rfl
    exact hraw.kept_iff htext
  · exact kept_bare_iff htext fun fields hfields => hobj ⟨fields, hfields⟩

end Snapshot

/-! ### The poll that records it -/

section Results

variable (C : Container) (unicodeWord : Char → Bool) (t : AcceptedTemplate)
  (secrets : List String) (r : HttpResponse)

/-- The program records a success, with this snapshot. -/
def RecordsSuccess (p : Handler Unit) (snapshot : Option Json) : Prop :=
  ∃ expected values also, p.Asks (.apply (.advance succeeded expected values) also) ∧
    Assign.statusSnapshot snapshot ∈ values

/-- What a poll that is answered with `r` records of a success keeps the result. -/
def ResultKept : Prop :=
  ∀ task strategy now snapshot,
    RecordsSuccess (settlePoll (C.redacting unicodeWord) secrets r task t.toResolvedTemplate
      strategy now) snapshot →
    ∀ body, r.json = some body → ∀ pr, compileExpression t.resultLocation = .ok pr →
      ∃ doc, snapshot = some doc ∧
        Kept (Redaction.scrubText unicodeWord secrets) (C.redacting unicodeWord).pyStr pr body doc

/-- The answer reports a success. -/
def ReportsSuccess (native : String) : Prop :=
  r.Success ∧ foundText (C.redacting unicodeWord) t.statusField
      (r.scrubbed (C.redacting unicodeWord) secrets) = some native ∧
    t.mapsStatus native = some succeeded

variable {C unicodeWord t secrets r} {ps pr : List Step} {native : String}

theorem ofResponse_raw (C : Container) (secrets : List String) (context : Context) (now : Time)
    (r : HttpResponse) :
    (UpstreamClient.ofResponse C secrets context now r).response.bind (·.rawJsonBody) = r.json := by
  simp only [UpstreamClient.ofResponse]
  split <;> rfl

/-- What is restored in the fields of an object. -/
theorem restoreRawResultField_obj {t : ResolvedTemplate} {result : UpstreamCallResult}
    {raw fields : Json.Fields} (hraw : result.response.bind (·.rawJsonBody) = some (.obj raw))
    (hpr : compileExpression t.resultLocation = .ok pr) :
    restoreRawResultField (some (.obj fields)) t result =
      .ok (some (match extract (.obj raw) pr with
        | none => .obj fields
        | some .null => .obj fields
        | some value => .obj (setSteps fields pr value).1)) := by
  have hne : t.resultLocation ≠ "" := by
    intro hempty
    rw [hempty] at hpr
    cases hpr
  unfold restoreRawResultField
  rw [hraw]
  simp only [if_neg hne, tryExtract_eq hpr, setPathOnDoc_eq hpr, ExpressionError.lift,
    Except.mapError, bind, Except.bind]
  cases extract (.obj raw) pr with
  | none => rfl
  | some value => cases value <;> rfl

/-- What is made of the body for a success. -/
theorem snapshot_recorded (C : Container) (unicodeWord : Char → Bool) (secrets : List String)
    (r : HttpResponse) (native : String) (hps : compileExpression t.statusField = .ok ps)
    (hpr : compileExpression t.resultLocation = .ok pr) (now : Time) :
    ∃ snapshot, snapshotWithStatus (r.scrubbed (C.redacting unicodeWord) secrets)
        t.toResolvedTemplate native = .ok snapshot ∧
      restoreRawResultField snapshot t.toResolvedTemplate
          (UpstreamClient.ofResponse (C.redacting unicodeWord) secrets .poll now r) =
        .ok (r.json.map
          (recordedSnapshot (Redaction.scrubText unicodeWord secrets) ps pr native)) := by
  have hraw := ofResponse_raw (C.redacting unicodeWord) secrets .poll now r
  by_cases hobj : ∃ fields, r.json = some (.obj fields)
  · obtain ⟨fields, hbody⟩ := hobj
    refine ⟨_, by rw [HttpResponse.scrubbed, hbody]; exact snapshotWithStatus_obj hps, ?_⟩
    rw [restoreRawResultField_obj (hraw.trans hbody) hpr, hbody]
    rfl
  · -- what is no object is left as it is
    refine ⟨r.scrubbed (C.redacting unicodeWord) secrets, ?_, ?_⟩
    · rw [HttpResponse.scrubbed]
      cases hjson : r.json with
      | none => rfl
      | some body =>
          cases body with
          | obj fields => exact absurd ⟨fields, hjson⟩ hobj
          | _ => rfl
    · unfold restoreRawResultField
      rw [hraw, HttpResponse.scrubbed]
      cases hjson : r.json with
      | none => rfl
      | some body =>
          cases body with
          | obj fields => exact absurd ⟨fields, hjson⟩ hobj
          | _ => rfl

/-- The status of an object that reports a success was found in it. -/
theorem statusRead_of_reports (hps : compileExpression t.statusField = .ok ps)
    (h : ReportsSuccess C unicodeWord t secrets r native) {body : Json}
    (hbody : r.json = some body) :
    ∀ fields, body = .obj fields → ∃ raw, StatusRead (Redaction.scrubText unicodeWord secrets)
      (C.redacting unicodeWord).pyStr ps fields native raw := by
  rintro fields rfl
  obtain ⟨-, hfound, -⟩ := h
  obtain ⟨v, hv, rfl⟩ := foundText_eq_some.mp hfound
  rw [HttpResponse.scrubbed, hbody, tryExtract_eq hps, Except.ok.injEq] at hv
  change extract (payloadOr (some (.obj (Json.mapFields _ fields)))) ps = some v at hv
  rw [payloadOr_obj] at hv
  have hnode := follow_of_extract hv
  have hmap := Json.follow_mapStrings (Redaction.scrubText unicodeWord secrets) ps (.obj fields)
  rw [Json.mapStrings, hnode] at hmap
  obtain ⟨raw, hraw, rfl⟩ := Option.map_eq_some_iff.mp hmap.symm
  refine ⟨raw, hraw, ?_, rfl⟩
  rw [extract, hnode, Option.bind_some] at hv
  by_contra hlong
  rw [if_pos (not_le.mp hlong)] at hv
  cases hv

/-- A poll records a success only of an answer that reports one, and with its snapshot. -/
theorem recorded_of_asks (hps : compileExpression t.statusField = .ok ps)
    (hpr : compileExpression t.resultLocation = .ok pr) {task : AsyncTask} {strategy : Strategy}
    {now : Time} {snapshot : Option Json}
    (h : RecordsSuccess (settlePoll (C.redacting unicodeWord) secrets r task t.toResolvedTemplate
      strategy now) snapshot) :
    ∃ native, ReportsSuccess C unicodeWord t secrets r native ∧ snapshot = r.json.map
      (recordedSnapshot (Redaction.scrubText unicodeWord secrets) ps pr native) := by
  obtain ⟨expected, values, also, hasks, hmem⟩ := h
  let result := UpstreamClient.ofResponse (C.redacting unicodeWord) secrets .poll now r
  have hwrites : Writes (fun op =>
      (result.ok = true ∧ PolledWrite (C.redacting unicodeWord) task t.toResolvedTemplate strategy
        result op) ∨ PollErrorWrite (C.redacting unicodeWord) task result op)
      (settlePoll (C.redacting unicodeWord) secrets r task t.toResolvedTemplate strategy now) :=
    writes_handlePollResult (fun hok op hop => .inl ⟨hok, hop⟩) fun _ op hop => .inr hop
  have hlisted := not_not.mp fun hnot => hwrites _ hasks ⟨_, also, rfl, hnot⟩
  rcases hlisted with ⟨hok, hop⟩ | hop
  · cases hop with
    | succeeded native first second at_ hreported hmaps hsecond target =>
        obtain ⟨hfound, hfirst⟩ := hreported
        rw [ofResponse_body] at hfound hfirst
        obtain ⟨first', hfirst', hrestored⟩ :=
          snapshot_recorded C unicodeWord secrets r native hps hpr now
        obtain rfl : first = first' := Except.ok.inj (hfirst.symm.trans hfirst')
        obtain rfl : snapshot = second := by simpa using hmem
        exact ⟨native, ⟨(ofResponse_success _ _).mp hok, hfound, hmaps⟩,
          Except.ok.inj (hsecond.symm.trans hrestored)⟩
  · cases hop

/-- An answer that reports a success is recorded. -/
theorem recordsSuccess_of_reports {native : String}
    (hps : compileExpression t.statusField = .ok ps)
    (hpr : compileExpression t.resultLocation = .ok pr)
    (h : ReportsSuccess C unicodeWord t secrets r native) (task : AsyncTask) (strategy : Strategy)
    (now : Time) :
    RecordsSuccess (settlePoll (C.redacting unicodeWord) secrets r task t.toResolvedTemplate
      strategy now) (r.json.map
        (recordedSnapshot (Redaction.scrubText unicodeWord secrets) ps pr native)) := by
  obtain ⟨hsuccess, hfound, hmaps⟩ := h
  obtain ⟨raw, hraw, rfl⟩ := foundText_eq_some.mp hfound
  obtain ⟨first, hfirst, hrestored⟩ :=
    snapshot_recorded C unicodeWord secrets r ((C.redacting unicodeWord).pyStr raw) hps hpr now
  have hok : (UpstreamClient.ofResponse (C.redacting unicodeWord) secrets .poll now r).ok = true :=
    (ofResponse_success _ _).mpr hsuccess
  let native := (C.redacting unicodeWord).pyStr raw
  let snapshot := r.json.map
    (recordedSnapshot (Redaction.scrubText unicodeWord secrets) ps pr native)
  have hasks : (settlePoll (C.redacting unicodeWord) secrets r task t.toResolvedTemplate strategy
      now).Asks (.apply (.advance succeeded (some [task.status])
        [.rawStatus (some native), .statusSnapshot snapshot, .statusSnapshotAt (some 0),
          .pollCount (task.pollCount + 1), .lastPolledAt (some 0), .nextPollAt none,
          .finishedAt (some 0), .errorCode none, .errorMessage none]) none) := by
    refine Prog.asks_perform_bind (0 : Time) ?_
    simp only [hok, if_true, handlePolled, ofResponse_body]
    refine .inr ⟨.ok (), ?_⟩
    change ((raiseIn (ExpressionError.lift (tryExtract _ _))).bind _).Asks _
    rw [hraw]
    change ((raiseIn (snapshotWithStatus _ _ _)).bind _).Asks _
    rw [hfirst]
    change (handleNative _ _ _ _ _ _ _ _).Asks _
    rw [handleNative, hmaps]
    change ((raiseIn (restoreRawResultField _ _ _)).bind _).Asks _
    rw [hrestored]
    exact Prog.asks_perform_bind (0 : Time) (.inl rfl)
  exact ⟨_, _, _, hasks, by simp only [snapshot, native]; simp⟩

/-- **A poll keeps the result of a success, and redacts the rest of what it records, exactly where
the result can be restored.** -/
theorem result_kept_iff (C : Container) (unicodeWord : Char → Bool) (t : AcceptedTemplate)
    (secrets : List String) (r : HttpResponse) :
    ResultKept C unicodeWord t secrets r ↔
      ∀ native, ReportsSuccess C unicodeWord t secrets r native → ∀ body, r.json = some body →
        ∀ ps pr, compileExpression t.statusField = .ok ps →
          compileExpression t.resultLocation = .ok pr →
          Restorable (Redaction.scrubText unicodeWord secrets) ps pr body := by
  have htext : ∀ s, (C.redacting unicodeWord).pyStr (.str s) = s := fun _ => rfl
  constructor
  · intro hkept native hreports body hbody ps pr hps hpr
    obtain ⟨doc, hdoc, hk⟩ := hkept sampleRow {} 0 _
      (recordsSuccess_of_reports hps hpr hreports sampleRow {} 0) body hbody pr hpr
    rw [hbody, Option.map_some, Option.some.injEq] at hdoc
    subst hdoc
    exact (kept_iff htext (statusRead_of_reports hps hreports hbody)).mp hk
  · intro hr task strategy now snapshot hrecords body hbody pr hpr
    obtain ⟨ps, hps⟩ := ResolvedTemplate.compiles_iff.mp t.compiles_fields.2.1
    obtain ⟨native, hreports, rfl⟩ := recorded_of_asks hps hpr hrecords
    refine ⟨_, by rw [hbody, Option.map_some], ?_⟩
    exact (kept_iff htext (statusRead_of_reports hps hreports hbody)).mpr
      (hr native hreports body hbody ps pr hps hpr)

/-! ### A list of results -/

/-- A template whose result is the first of a list. -/
def listedTemplate : AcceptedTemplate :=
  { sampleTemplate with
    resultLocation := "$.data[0].url"
    accepted := by decide +kernel }

/-- A success with one result. -/
def listedAnswer : HttpResponse where
  statusCode := 200
  json := some (.obj [("status", .str "succeeded"),
    ("data", .arr [.obj [("url", .str "https://cdn/video.mp4")]])])

/-- The list with the result is replaced by an empty object. -/
theorem listed_result_lost :
    ¬ ResultKept (sampleContainer sampleTemplate) (fun _ => false) listedTemplate []
      listedAnswer := by
  intro hkept
  have hreports : ReportsSuccess (sampleContainer sampleTemplate) (fun _ => false) listedTemplate []
      listedAnswer "succeeded" := ⟨⟨by decide, by decide⟩, rfl, by decide⟩
  have hps : compileExpression listedTemplate.statusField = .ok [.key "status"] := rfl
  have hpr : compileExpression listedTemplate.resultLocation =
      .ok [.key "data", .index 0, .key "url"] := rfl
  obtain ⟨doc, hdoc, hk⟩ := hkept sampleRow {} 0 _
    (recordsSuccess_of_reports hps hpr hreports sampleRow {} 0) _ rfl _ hpr
  have hlost : (listedAnswer.json.map (recordedSnapshot (Redaction.scrubText (fun _ => false) [])
      [.key "status"] [.key "data", .index 0, .key "url"] "succeeded")).bind
        (·.follow [.key "data", .index 0, .key "url"]) = none := rfl
  rw [hdoc, Option.bind_some, hk.result "https://cdn/video.mp4" rfl] at hlost
  cases hlost

end Results

end AsyncGateway
