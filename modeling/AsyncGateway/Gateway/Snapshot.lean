import AsyncGateway.Gateway.Routes

/-!
# Gateway — what a recorded snapshot says

The snapshots the handlers record agree with the status they record beside them: a string that can
be read in the status field is the raw status (`Reads`), and an answer whose status was found under
a key is an object (`Documented`).  Both are about a status field whose path begins with a key.
-/

namespace AsyncGateway

open Json (Step)

/-- A string in the status field of the snapshot is the raw status. -/
def Reads (t : ResolvedTemplate) (snapshot : Option Json) (rawStatus : String) : Prop :=
  ∀ k path s, compileExpression t.statusField = .ok (.key k :: path) →
    (snapshot.getD (.obj [])).follow (.key k :: path) = some (.str s) → s = rawStatus

/-- An answer with a status field that begins with a key is an object. -/
def Documented (t : ResolvedTemplate) (snapshot : Option Json) : Prop :=
  ∀ k path, compileExpression t.statusField = .ok (.key k :: path) →
    ∃ doc, snapshot = some (.obj doc)

variable {C : Container} {t : ResolvedTemplate} {snapshot body : Option Json} {native : String}

theorem reads_none : Reads t none native := by
  intro k path s hp h
  simp at h

/-- A string found where the path was written is the one written. -/
theorem follow_setSteps {doc : Json.Fields} {path : List Step} {n s : String}
    (h : (Json.obj (setSteps doc path (.str n)).1).follow path = some (.str s)) : s = n := by
  induction path generalizing doc with
  | nil => simp [setSteps] at h
  | cons step path ih =>
      cases step with
      | index i => simp [Json.follow] at h
      | key k =>
          cases path with
          | nil =>
              simp only [setSteps, Json.follow_obj_key, Json.lookup_put_self, Option.bind_some,
                Json.follow_nil, Option.some.injEq, Json.str.injEq] at h
              exact h.symm
          | cons step' path =>
              simp only [setSteps, Json.follow_obj_key, Json.lookup_put_self,
                Option.bind_some] at h
              exact ih h

theorem snapshotWithStatus_obj {doc : Json.Fields} {path : List Step}
    (hp : compileExpression t.statusField = .ok path) :
    snapshotWithStatus (some (.obj doc)) t native =
      .ok (some (.obj (setSteps doc path (.str native)).1)) := by
  simp [snapshotWithStatus, setPathOnDoc_eq hp, ExpressionError.lift, bind, Except.bind,
    Except.mapError]

/-- With a status field that compiles there is a snapshot. -/
theorem snapshotWithStatus_ok {path : List Step} (hp : compileExpression t.statusField = .ok path)
    (body : Option Json) (native : String) :
    ∃ snapshot, snapshotWithStatus body t native = .ok snapshot := by
  unfold snapshotWithStatus
  split
  · exact ⟨_, snapshotWithStatus_obj hp⟩
  · exact ⟨_, rfl⟩

/-- With a result location that compiles the result field can be restored, or left. -/
theorem restoreRawResultField_ok {path : List Step}
    (hp : compileExpression t.resultLocation = .ok path) (snapshot : Option Json)
    (result : UpstreamCallResult) :
    ∃ snapshot', restoreRawResultField snapshot t result = .ok snapshot' := by
  unfold restoreRawResultField
  split
  · split
    · exact ⟨_, rfl⟩
    · rename_i raw doc _ _ _
      rw [tryExtract_eq hp]
      simp only [setPathOnDoc_eq hp, ExpressionError.lift, Except.mapError, bind, Except.bind]
      split <;> exact ⟨_, rfl⟩
  · exact ⟨_, rfl⟩

theorem reads_snapshotWithStatus (h : snapshotWithStatus body t native = .ok snapshot) :
    Reads t snapshot native := by
  intro k path s hp hs
  by_cases hb : ∃ doc, body = some (.obj doc)
  · obtain ⟨doc, rfl⟩ := hb
    rw [snapshotWithStatus_obj hp] at h
    cases h
    exact follow_setSteps hs
  · have : snapshot = body := by
      unfold snapshotWithStatus at h
      split at h
      · exact absurd ⟨_, rfl⟩ hb
      · exact (Except.ok.inj h).symm
    subst this
    cases snapshot with
    | none => exact reads_none k path s hp hs
    | some doc =>
        obtain ⟨fields, -, rfl, -⟩ := Json.follow_key_eq_some hs
        exact absurd ⟨fields, rfl⟩ hb

theorem documented_snapshotWithStatus {v : Json}
    (hv : tryExtract (payloadOr body) t.statusField = .ok (some v))
    (h : snapshotWithStatus body t native = .ok snapshot) : Documented t snapshot := by
  intro k path hp
  have hf := tryExtract_eq_some hp hv
  have hb : ∃ doc, body = some (.obj doc) := by
    unfold payloadOr at hf
    split at hf
    · split at hf
      · obtain ⟨fields, -, rfl, -⟩ := Json.follow_key_eq_some hf
        exact ⟨fields, rfl⟩
      · simp at hf
    · simp at hf
  obtain ⟨doc, rfl⟩ := hb
  rw [snapshotWithStatus_obj hp] at h
  cases h
  exact ⟨_, rfl⟩

/-- The object a callback is read as. -/
def callbackDoc : Json → Json
  | .obj doc => .obj doc
  | _ => .obj []

theorem reads_callbackSnapshot {payload : Json} {found : Option Json}
    (hf : tryExtract (callbackDoc payload) t.statusField = .ok found)
    (hn : found.map C.pyStr = some native) :
    Reads t (some (callbackSnapshot payload)) native := by
  intro k path s hp hs
  obtain ⟨v, rfl, hv⟩ := Option.map_eq_some_iff.mp hn
  have hv' := tryExtract_eq_some hp hf
  cases payload with
  | obj doc =>
      have : v = .str s := by exact Option.some.inj (hv'.symm.trans hs)
      subst this
      exact hv
  | _ => simp [callbackDoc] at hv'

end AsyncGateway
