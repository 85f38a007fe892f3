import AsyncGateway.Gateway.Output

/-!
# Gateway — what a client reads at the status field

The query answer at a status field that is a path of keys (`shownStatus_obj`): the value to show,
where it has to be written or the snapshot has none, else the snapshot's own.  That takes a template
whose other rewritten fields leave the status field alone (`StatusApart`).
-/

namespace AsyncGateway

open TaskStatus
open Json (Step)

/-- The status field is a path of keys, and the fields a query answer rewrites beside it are apart
from it. -/
structure StatusApart (t : ResolvedTemplate) (ks : List String) : Prop where
  ne_nil : ks ≠ []
  status : compileExpression t.statusField = .ok (ks.map .key)
  result : t.resultPolicy.mode = .store →
    ∃ p, compileExpression t.resultLocation = .ok p ∧ Json.Apart p (ks.map .key)
  error : ∀ f, nonEmpty t.terminal.errorField = some f →
    ∃ p, compileExpression f = .ok p ∧ Json.Apart p (ks.map .key)

/-- What is shown of an object: the status to show, or the one that is there. -/
def shownOf (task : AsyncTask) (t : ResolvedTemplate) (path : List Step) (snapshot : Json.Fields) :
    Json :=
  if (effectiveStatusValue task t).2 = true then .str (effectiveStatusValue task t).1
  else (extract (.obj snapshot) path).getD (.str (effectiveStatusValue task t).1)

variable {C : Container} {t : ResolvedTemplate} {ks : List String} {task : AsyncTask}
variable {url : Option String} {snapshot : Json.Fields}

/-! ### The status to show of a task that has ended -/

/-- The values that tell a failure. -/
def failureClass (t : ResolvedTemplate) (s : String) : Prop :=
  s ∈ t.terminal.failure ∨ s ∈ t.terminal.expired ∨ s = t.effectiveFailureStatus

/-- The status to show of a success is a success. -/
theorem effective_success (hne : t.terminal.success ≠ []) (hs : task.status = succeeded) :
    (effectiveStatusValue task t).1 ∈ t.terminal.success := by
  unfold effectiveStatusValue
  rw [if_pos hs]
  split
  · rename_i native hnative
    exact of_decide_eq_true (Option.filter_eq_some_iff.mp hnative).2
  · cases hsucc : t.terminal.success with
    | nil => exact absurd hsucc hne
    | cons s ss => exact List.mem_cons_self

/-- The status to show of any other end is one of a failure. -/
theorem effective_failure (hs : task.status ∈ businessTerminal) (hn : task.status ≠ succeeded) :
    failureClass t (effectiveStatusValue task t).1 := by
  have member : ∀ {native : String},
      task.rawStatus.filter (fun s => decide (s ∈ t.terminal.failure ++ t.terminal.expired)) =
        some native → failureClass t native := by
    intro native h
    have hm := of_decide_eq_true (Option.filter_eq_some_iff.mp h).2
    exact (List.mem_append.mp hm).imp id .inl
  unfold effectiveStatusValue
  rw [if_neg hn]
  by_cases hc : task.status = cancelled
  · rw [if_pos hc]
    split
    · exact member ‹_›
    · exact .inr (.inr rfl)
  · have hi : isInternalTerminal task.status = true := by
      revert hs hn hc
      cases task.status <;> decide
    rw [if_neg hc, if_pos hi]
    split
    · split
      · exact member ‹_›
      · exact .inr (.inr rfl)
    · exact .inr (.inr rfl)

/-! ### The status field of the answer -/

/-- After the status is shown, it is what leads there. -/
theorem follow_showStatus (h : StatusApart t ks) :
    ∃ doc, showStatus task t snapshot = .ok doc ∧
      (Json.obj doc).follow (ks.map .key) = some (shownOf task t (ks.map .key) snapshot) := by
  have hx : tryExtract (.obj snapshot) t.statusField =
      .ok (extract (.obj snapshot) (ks.map .key)) := by
    simp [tryExtract, h.status, bind, Except.bind]
  unfold showStatus shownOf
  obtain ⟨value, needsRewrite⟩ := effectiveStatusValue task t
  simp only [hx]
  have written : ∃ doc, ExpressionError.lift (setPathOnDoc snapshot t.statusField (.str value)) =
      .ok doc ∧ (Json.obj doc).follow (ks.map .key) = some (.str value) := by
    rw [setPathOnDoc_eq h.status]
    exact ⟨_, rfl, follow_setSteps_self h.ne_nil _ _⟩
  cases needsRewrite with
  | true => simpa using written
  | false =>
      cases hv : extract (.obj snapshot) (ks.map .key) with
      | none => simpa using written
      | some v => exact ⟨snapshot, by simp, follow_of_extract hv⟩

/-- The write of another field leaves the status. -/
theorem follow_setPathOnDoc {spec : String} (value : Json) {v : Json}
    (h : ∃ p, compileExpression spec = .ok p ∧ Json.Apart p (ks.map .key))
    (hv : (Json.obj snapshot).follow (ks.map .key) = some v) :
    ∃ doc, ExpressionError.lift (setPathOnDoc snapshot spec value) = .ok doc ∧
      (Json.obj doc).follow (ks.map .key) = some v := by
  obtain ⟨p, hp, hapart⟩ := h
  rw [setPathOnDoc_eq hp]
  exact ⟨_, rfl, follow_setSteps_apart hapart hv⟩

/-- A key that is not there is not on the way to the status. -/
theorem follow_put_missing {k : String} {value v : Json} (hn : snapshot.lookup k = none)
    (hks : ks ≠ []) (hv : (Json.obj snapshot).follow (ks.map .key) = some v) :
    (Json.obj (Json.put snapshot k value)).follow (ks.map .key) = some v := by
  cases ks with
  | nil => exact absurd rfl hks
  | cons k' ks =>
      obtain ⟨fs, node, hfs, hnode, hrest⟩ := Json.follow_key_eq_some hv
      cases hfs
      have hne : k' ≠ k := by
        rintro rfl
        rw [hn] at hnode
        cases hnode
      simpa [Json.lookup_put_ne _ _ hne, hnode] using hrest

theorem follow_showResult (h : StatusApart t ks) {v : Json}
    (hv : (Json.obj snapshot).follow (ks.map .key) = some v) :
    ∃ doc, showResult C task t url snapshot = .ok doc ∧
      (Json.obj doc).follow (ks.map .key) = some v := by
  unfold showResult
  split
  · split
    · rename_i hmode
      cases url with
      | none =>
          obtain ⟨doc, hdoc, hv⟩ := follow_setPathOnDoc .null (h.result hmode.1) hv
          simp only [bind, Except.bind, hdoc]
          cases hint : doc.lookup "_result_hint" with
          | none => exact ⟨_, rfl, follow_put_missing hint h.ne_nil hv⟩
          | some w => exact ⟨doc, rfl, hv⟩
      | some u =>
          obtain ⟨doc, hdoc, hv⟩ := follow_setPathOnDoc (.str u) (h.result hmode.1) hv
          exact ⟨doc, by simp [bind, Except.bind, hdoc], hv⟩
    · exact ⟨snapshot, rfl, hv⟩
  · split
    · -- the write of the result field, on what the write of the error field left
      have cleared : ∀ {doc : Json.Fields}, (Json.obj doc).follow (ks.map .key) = some v →
          ∃ doc', (if t.resultPolicy.mode = .store then
              ExpressionError.lift (setPathOnDoc doc t.resultLocation .null)
            else .ok doc) = Except.ok doc' ∧ (Json.obj doc').follow (ks.map .key) = some v := by
        intro doc hv
        by_cases hmode : t.resultPolicy.mode = .store
        · rw [if_pos hmode]
          exact follow_setPathOnDoc .null (h.result hmode) hv
        · rw [if_neg hmode]
          exact ⟨doc, rfl, hv⟩
      cases herror : nonEmpty t.terminal.errorField with
      | none => exact cleared hv
      | some errorField =>
          obtain ⟨doc, hdoc, hv⟩ :=
            follow_setPathOnDoc (.str (failureDetail task t)) (h.error _ herror) hv
          simp only [bind, Except.bind, hdoc]
          exact cleared hv
    · exact ⟨snapshot, rfl, hv⟩

/-- **What a client reads at the status field** of a snapshot that is an object. -/
theorem shownStatus_obj (h : StatusApart t ks) (hs : nativeSnapshot task = .obj snapshot) :
    shownStatus C task t url = some (shownOf task t (ks.map .key) snapshot) := by
  obtain ⟨doc, hdoc, hv⟩ : ∃ doc, showStatus task t snapshot = .ok doc ∧
      (Json.obj doc).follow (ks.map .key) = some (shownOf task t (ks.map .key) snapshot) :=
    follow_showStatus h
  obtain ⟨doc', hdoc', hv'⟩ : ∃ doc', showResult C task t url doc = .ok doc' ∧
      (Json.obj doc').follow (ks.map .key) = some (shownOf task t (ks.map .key) snapshot) :=
    follow_showResult h hv
  have hb : buildNativeQueryResponse C task t url = .ok (.obj doc') := by
    simp [buildNativeQueryResponse, hs, hdoc, hdoc', bind, Except.bind]
  simpa [shownStatus, hb, h.status] using hv'

end AsyncGateway
