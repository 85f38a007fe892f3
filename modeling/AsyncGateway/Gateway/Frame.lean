import AsyncGateway.Gateway.Shown

/-!
# Gateway — what a write at a path leaves as it is

A write at a path of keys is read back, overwrites an earlier one, changes nothing where it writes
what is there, and leaves every path of keys apart from it (`setPathOnDoc_laws`).  A query answer
is a snapshot with a few such writes, so it has the shape of the snapshot at every path apart from
those it rewrites (`buildNativeQueryResponse_frame`).
-/

namespace AsyncGateway

open TaskStatus
open Json (Step)

/-! ### The laws of the writer -/

section Writer

variable {spec : String} {p q : List Step}

theorem exists_keys (h : q.all Step.isKey = true) : ∃ ks : List String, q = ks.map .key := by
  by_cases hq : q = []
  · exact ⟨[], hq⟩
  · obtain ⟨ks, -, hks⟩ := writable_iff.mp ⟨hq, h⟩
    exact ⟨ks, hks⟩

theorem extractExcept_setSteps {d : Json.Fields} {v : Json} (hq : q.all Step.isKey = true)
    (h : Json.Apart p q) :
    extractExcept (.obj (setSteps d p v).1) q = extractExcept (.obj d) q := by
  obtain ⟨ks, rfl⟩ := exists_keys hq
  exact extractExcept_congr (follow_setSteps_frame h)

theorem follow_of_extractExcept {doc v : Json} (h : extractExcept doc p = .ok v) :
    doc.follow p = some v := by
  refine follow_of_extract ?_
  rw [extract_eq_toOption, h]
  rfl

/-- **The laws of the writer**, at a path of keys: what is written is read back, within the limit on
the size of a result; a path of keys apart from it is read as before; the second of two writes
counts; and writing what is read there changes nothing. -/
theorem setPathOnDoc_laws (hp : compileExpression spec = .ok p) (hw : Writable p)
    (d : Json.Fields) (v : Json) (hv : v.dumpsBytes ≤ maxResultBytes) :
    ∃ d', setPathOnDoc d spec v = .ok d' ∧ (setSteps d p v).2 = true ∧
      extractExcept (.obj d') p = .ok v ∧
      (∀ spec' q, compileExpression spec' = .ok q → q.all Step.isKey = true → Json.Apart p q →
        extractExcept (.obj d') q = extractExcept (.obj d) q) ∧
      (∀ w, setPathOnDoc d' spec w = setPathOnDoc d spec w) ∧
      ∀ u, extractExcept (.obj d) p = .ok u → setPathOnDoc d spec u = .ok d := by
  obtain ⟨ks, hne, hks⟩ := writable_iff.mp hw
  have hwrite : ∀ (e : Json.Fields) (w : Json),
      setPathOnDoc e spec w = .ok (Json.write e ks w) := fun e w => by
    rw [setPathOnDoc_eq hp, hks, setSteps_keys hne]
  refine ⟨Json.write d ks v, hwrite d v, ?_, ?_, ?_, ?_, ?_⟩
  · rw [hks, setSteps_keys hne]
  · rw [hks, extractExcept, Json.follow_write_self hne]
    exact if_neg (not_lt.mpr hv)
  · intro spec' q _ hq hapart
    have hframe := extractExcept_setSteps (d := d) (v := v) hq hapart
    rwa [hks, setSteps_keys hne] at hframe
  · intro w
    rw [hwrite, hwrite, Json.write_write]
  · intro u hu
    have hfollow := follow_of_extractExcept hu
    rw [hks] at hfollow
    rw [hwrite, Json.write_follow hfollow]

/-- A write that makes the object on its way, beside what is there. -/
theorem setPathOnDoc_laws_nested :
    ∃ d', setPathOnDoc [("id", .str "t-1")] "$.data.url" .null = .ok d' ∧
      (setSteps [("id", .str "t-1")] [.key "data", .key "url"] .null).2 = true ∧
      extractExcept (.obj d') [.key "data", .key "url"] = .ok .null ∧
      (∀ spec' q, compileExpression spec' = .ok q → q.all Step.isKey = true →
        Json.Apart [.key "data", .key "url"] q →
        extractExcept (.obj d') q = extractExcept (.obj [("id", .str "t-1")]) q) ∧
      (∀ w, setPathOnDoc d' "$.data.url" w =
        setPathOnDoc [("id", .str "t-1")] "$.data.url" w) ∧
      ∀ u, extractExcept (.obj [("id", .str "t-1")]) [.key "data", .key "url"] = .ok u →
        setPathOnDoc [("id", .str "t-1")] "$.data.url" u = .ok [("id", .str "t-1")] :=
  setPathOnDoc_laws (by decide +kernel) (by decide) _ _ (by decide)

end Writer

/-! ### The shape of a query answer -/

section Answer

variable {C : Container} {t : ResolvedTemplate} {task : AsyncTask} {url : Option String}
variable {snapshot : Json.Fields} {ps pr q : List Step}

/-- The write of one field, seen from a path apart from it. -/
theorem frame_setPathOnDoc {spec : String} {p : List Step} (hp : compileExpression spec = .ok p)
    (snapshot : Json.Fields) (value : Json) :
    ∃ doc, ExpressionError.lift (setPathOnDoc snapshot spec value) = .ok doc ∧
      ∀ q, q.all Step.isKey = true → Json.Apart p q →
        extractExcept (.obj doc) q = extractExcept (.obj snapshot) q := by
  rw [setPathOnDoc_eq hp]
  exact ⟨_, rfl, fun q hq hapart => extractExcept_setSteps hq hapart⟩

/-- The status field is all that showing the status writes. -/
theorem frame_showStatus (hs : compileExpression t.statusField = .ok ps) (task : AsyncTask)
    (snapshot : Json.Fields) :
    ∃ doc, showStatus task t snapshot = .ok doc ∧
      ∀ q, q.all Step.isKey = true → Json.Apart ps q →
        extractExcept (.obj doc) q = extractExcept (.obj snapshot) q := by
  unfold showStatus
  obtain ⟨value, needsRewrite⟩ := effectiveStatusValue task t
  simp only [tryExtract_eq hs]
  split
  · exact frame_setPathOnDoc hs _ _
  · exact ⟨snapshot, rfl, fun _ _ _ => rfl⟩

/-- A path that does not begin with a key is read as before a write of that key. -/
theorem extractExcept_put {k : String} {value : Json} (hne : q ≠ [])
    (hk : q.head? ≠ some (.key k)) :
    extractExcept (.obj (Json.put snapshot k value)) q = extractExcept (.obj snapshot) q := by
  refine extractExcept_congr ?_
  cases q with
  | nil => exact absurd rfl hne
  | cons s q =>
      cases s with
      | index i => rfl
      | key j =>
          have hj : j ≠ k := by simpa using hk
          simp [Json.lookup_put_ne _ _ hj]

/-- A path of keys the query answer does not rewrite. -/
structure Unwritten (t : ResolvedTemplate) (q : List Step) : Prop where
  keys : q.all Step.isKey = true
  status : ∀ p, compileExpression t.statusField = .ok p → Json.Apart p q
  result : ∀ p, compileExpression t.resultLocation = .ok p → Json.Apart p q
  error : ∀ f p, nonEmpty t.terminal.errorField = some f → compileExpression f = .ok p →
    Json.Apart p q
  hint : q.head? ≠ some (.key "_result_hint")

/-- The fields written after the status, and what a success in passthrough mode keeps. -/
theorem frame_showResult (hr : compileExpression t.resultLocation = .ok pr)
    (he : ∀ f, nonEmpty t.terminal.errorField = some f → ∃ p, compileExpression f = .ok p)
    (C : Container) (task : AsyncTask) (url : Option String) (snapshot : Json.Fields) :
    ∃ doc, showResult C task t url snapshot = .ok doc ∧
      (∀ q, Unwritten t q → extractExcept (.obj doc) q = extractExcept (.obj snapshot) q) ∧
      (task.status = succeeded → t.resultPolicy.mode = .passthrough → doc = snapshot) := by
  unfold showResult
  by_cases hsucc : task.status = succeeded
  · rw [if_pos hsucc]
    split
    · rename_i hstore
      have hmode : t.resultPolicy.mode ≠ .passthrough := fun h => by
        rw [h] at hstore
        exact nomatch hstore.1
      cases url with
      | some u =>
          obtain ⟨doc, hdoc, hframe⟩ := frame_setPathOnDoc hr snapshot (.str u)
          exact ⟨doc, by simp [bind, Except.bind, hdoc],
            fun q hq => hframe q hq.keys (hq.result _ hr), fun _ h => absurd h hmode⟩
      | none =>
          -- no location: the field is cleared, and a hint put beside it
          obtain ⟨doc, hdoc, hframe⟩ := frame_setPathOnDoc hr snapshot .null
          simp only [bind, Except.bind, hdoc]
          cases hhint : doc.lookup "_result_hint" with
          | some w =>
              exact ⟨doc, rfl, fun q hq => hframe q hq.keys (hq.result _ hr),
                fun _ h => absurd h hmode⟩
          | none =>
              refine ⟨_, rfl, fun q hq => ?_, fun _ h => absurd h hmode⟩
              have hne : q ≠ [] := by
                rintro rfl
                exact (hq.result _ hr).2 List.nil_prefix
              exact (extractExcept_put hne hq.hint).trans (hframe q hq.keys (hq.result _ hr))
    · exact ⟨snapshot, rfl, fun _ _ => rfl, fun _ _ => rfl⟩
  · rw [if_neg hsucc]
    split
    · -- the write of the result field, on what the write of the error field left
      have cleared : ∀ doc : Json.Fields,
          (∀ q, Unwritten t q → extractExcept (.obj doc) q = extractExcept (.obj snapshot) q) →
          ∃ doc', (if t.resultPolicy.mode = .store then
              ExpressionError.lift (setPathOnDoc doc t.resultLocation .null)
            else .ok doc) = Except.ok doc' ∧
            (∀ q, Unwritten t q → extractExcept (.obj doc') q = extractExcept (.obj snapshot) q) ∧
            (task.status = succeeded → t.resultPolicy.mode = .passthrough → doc' = snapshot) := by
        intro doc hdoc
        split
        · obtain ⟨doc', hdoc', hframe⟩ := frame_setPathOnDoc hr doc .null
          exact ⟨doc', hdoc', fun q hq =>
            (hframe q hq.keys (hq.result _ hr)).trans (hdoc q hq), fun h => absurd h hsucc⟩
        · exact ⟨doc, rfl, hdoc, fun h => absurd h hsucc⟩
      cases herror : nonEmpty t.terminal.errorField with
      | none => exact cleared snapshot fun _ _ => rfl
      | some f =>
          obtain ⟨pe, hpe⟩ := he f herror
          obtain ⟨doc, hdoc, hframe⟩ := frame_setPathOnDoc hpe snapshot
            (.str (failureDetail task t))
          simp only [bind, Except.bind, hdoc]
          exact cleared doc fun q hq => hframe q hq.keys (hq.error _ _ herror hpe)
    · exact ⟨snapshot, rfl, fun _ _ => rfl, fun h => absurd h hsucc⟩

/-- **A query answer has the shape of the snapshot**: every path of keys apart from the fields it
rewrites is read as in the snapshot, and a success in passthrough mode keeps its result. -/
theorem buildNativeQueryResponse_frame (hs : compileExpression t.statusField = .ok ps)
    (hr : compileExpression t.resultLocation = .ok pr)
    (he : ∀ f, nonEmpty t.terminal.errorField = some f → ∃ p, compileExpression f = .ok p)
    (hsnapshot : nativeSnapshot task = .obj snapshot) :
    ∃ doc, buildNativeQueryResponse C task t url = .ok (.obj doc) ∧
      (∀ q, Unwritten t q → extractExcept (.obj doc) q = extractExcept (.obj snapshot) q) ∧
      (task.status = succeeded → t.resultPolicy.mode = .passthrough → pr.all Step.isKey = true →
        Json.Apart ps pr →
        extractExcept (.obj doc) pr = extractExcept (.obj snapshot) pr) := by
  obtain ⟨doc, hdoc, hframe⟩ := frame_showStatus hs task snapshot
  obtain ⟨doc', hdoc', hframe', hkept⟩ := frame_showResult hr he C task url doc
  refine ⟨doc', ?_, fun q hq => ?_, fun hsucc hmode hkeys hapart => ?_⟩
  · simp only [buildNativeQueryResponse, hsnapshot, hdoc, hdoc', bind, Except.bind]
  · exact (hframe' q hq).trans (hframe q hq.keys (hq.status _ hs))
  · rw [hkept hsucc hmode]
    exact hframe pr hkeys hapart

/-- A template that shows the reason of a failure. -/
def errorTemplate (mode : ResultMode) : ResolvedTemplate where
  aliasName := "video"
  baseUrl := "https://upstream"
  createPath := "/tasks"
  getPathTemplate := "/tasks/{id}"
  cancelPathTemplate := "/tasks/{id}"
  resultLocation := "$.data.url"
  resultPolicy := { mode := mode }
  terminal := { errorField := some "$.error.message" }

/-- What the upstream answered last. -/
def pollAnswer : Json.Fields :=
  [("status", .str "running"), ("data", .obj [("url", .str "https://video"), ("frames", .int 24)])]

/-- A container with the one template. -/
def errorContainer (mode : ResultMode) : Container where
  registry _ _ := some (errorTemplate mode)
  joinUrl base path := .ok (base ++ path)

/-- A task that was answered so, in a state. -/
def answeredRow (status : TaskStatus) : AsyncTask :=
  { sampleRow with status := status, statusSnapshot := some (.obj pollAnswer) }

/-- A task that timed out in store mode has its status, its result and the reason rewritten, and
the rest of the snapshot is shown; one that succeeded in passthrough mode has its status rewritten,
and keeps its result. -/
theorem buildNativeQueryResponse_frame_terminal :
    (∃ doc, buildNativeQueryResponse (errorContainer .store) (answeredRow .timeout)
        (errorTemplate .store) none = .ok (.obj doc) ∧
      extractExcept (.obj doc) [.key "status"] = .ok (.str "failed") ∧
      extractExcept (.obj doc) [.key "data", .key "url"] = .ok .null ∧
      extractExcept (.obj doc) [.key "data", .key "frames"] = .ok (.int 24)) ∧
    ∃ doc, buildNativeQueryResponse (errorContainer .passthrough) (answeredRow .succeeded)
        (errorTemplate .passthrough) none = .ok (.obj doc) ∧
      extractExcept (.obj doc) [.key "status"] = .ok (.str "succeeded") ∧
      extractExcept (.obj doc) [.key "data", .key "url"] = .ok (.str "https://video") := by
  have hs : compileExpression "$.status" = .ok [.key "status"] := by decide +kernel
  have hr : compileExpression "$.data.url" = .ok [.key "data", .key "url"] := by decide +kernel
  have he : compileExpression "$.error.message" = .ok [.key "error", .key "message"] := by
    decide +kernel
  have herror : ∀ mode f, nonEmpty (errorTemplate mode).terminal.errorField = some f →
      f = "$.error.message" := by
    intro mode f hf
    cases (nonEmpty_eq_some.mp hf).1
    rfl
  have hframes : ∀ mode, Unwritten (errorTemplate mode) [.key "data", .key "frames"] := fun mode =>
    { keys := rfl
      status := fun p hp => by
        cases hs.symm.trans hp
        decide
      result := fun p hp => by
        cases hr.symm.trans hp
        decide
      error := fun f p hf hp => by
        cases herror mode f hf
        cases he.symm.trans hp
        decide
      hint := by decide }
  constructor
  · obtain ⟨doc, hdoc, hframe, -⟩ : ∃ doc, buildNativeQueryResponse (errorContainer .store)
        (answeredRow .timeout) (errorTemplate .store) none = .ok (.obj doc) ∧ _ ∧ _ :=
      buildNativeQueryResponse_frame hs hr (fun f hf => ⟨_, herror .store f hf ▸ he⟩) rfl
    refine ⟨doc, hdoc, ?_, ?_, (hframe _ (hframes .store)).trans (by rfl)⟩ <;>
      obtain rfl := Json.obj.inj (Except.ok.inj hdoc) <;> rfl
  · obtain ⟨doc, hdoc, -, hkept⟩ : ∃ doc, buildNativeQueryResponse (errorContainer .passthrough)
        (answeredRow .succeeded) (errorTemplate .passthrough) none = .ok (.obj doc) ∧ _ ∧ _ :=
      buildNativeQueryResponse_frame hs hr (fun f hf => ⟨_, herror .passthrough f hf ▸ he⟩) rfl
    refine ⟨doc, hdoc, ?_, (hkept rfl rfl (by decide) (by decide)).trans (by rfl)⟩
    obtain rfl := Json.obj.inj (Except.ok.inj hdoc)
    rfl

end Answer

end AsyncGateway
