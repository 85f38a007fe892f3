import AsyncGateway.Gateway.Shown
import AsyncGateway.Gateway.Snapshot
import AsyncGateway.System.Gateway

/-!
# System — what the query answer relies on

The validator compares the success values with the failure values only, not with the expired ones,
and it merely warns of a rewrite value that is one of them.  The error field is the one path it does
not compile, and the text written there is whatever the task failed with.  The query answer can rely
on an accepted template exactly where none of this goes wrong (`wellShown_iff_coherent`).
-/

namespace AsyncGateway

open TaskStatus
open Json (Step)

section Erased

variable {p q : List Step} {doc : Json.Fields} {s : String}

/-- A null written at `p` leaves no string at the path `q` of keys. -/
def Erases (p q : List Step) : Prop :=
  p ≠ [] ∧ (q <+: p.takeWhile Step.isKey ∨ Writable p ∧ p <+: q)

theorem erases_cons {k : String} (hp : p ≠ []) :
    Erases (.key k :: p) (.key k :: q) ↔ Erases p q := by
  simp [Erases, Writable, List.takeWhile_cons, Step.isKey, hp]

theorem not_erases_of_ne {k j : String} (h : j ≠ k) : ¬ Erases (.key k :: p) (.key j :: q) := by
  simp [Erases, List.takeWhile_cons, Step.isKey, h, Ne.symm h]

theorem follow_setSteps_null_iff (hq : Writable q) (h : (Json.obj doc).follow q = some (.str s)) :
    (Json.obj (setSteps doc p .null).1).follow q = some (.str s) ↔ ¬ Erases p q := by
  induction p generalizing doc q with
  | nil => simp [setSteps, h, Erases]
  | cons step p ih =>
      obtain ⟨hne, hall⟩ := hq
      obtain _ | ⟨step', q⟩ := q
      · exact absurd rfl hne
      rw [List.all_cons, Bool.and_eq_true] at hall
      obtain ⟨hstep', hall⟩ := hall
      cases step' with
      | index i => cases hstep'
      | key j =>
          cases step with
          | index i =>
              have hkept : (setSteps doc (.index i :: p) .null).1 = doc := by cases p <;> rfl
              simp [hkept, h, Erases, Writable, Step.isKey]
          | key k =>
              by_cases hjk : j = k
              · subst hjk
                obtain _ | ⟨s', p⟩ := p
                · -- the null is written on the way, or at the end
                  have herased : Erases [.key j] (.key j :: q) := by
                    simp [Erases, Writable, Step.isKey]
                  cases q <;> simp [setSteps, herased, Json.follow]
                obtain _ | ⟨s'', q⟩ := q
                · -- an object takes the place of the string
                  have herased : Erases (.key j :: s' :: p) [.key j] := by
                    simp [Erases, List.takeWhile_cons, Step.isKey]
                  simp [setSteps, herased]
                · obtain ⟨fs, node, hfs, hnode, hrest⟩ := Json.follow_key_eq_some h
                  cases hfs
                  obtain ⟨gs, rfl⟩ : ∃ gs, node = .obj gs := by
                    cases s'' with
                    | index i => cases hall
                    | key k' =>
                        obtain ⟨gs, -, rfl, -, -⟩ := Json.follow_key_eq_some hrest
                        exact ⟨gs, rfl⟩
                  have hgs : Json.fieldsAt doc j = gs := by simp [Json.fieldsAt, hnode]
                  rw [erases_cons (List.cons_ne_nil _ _), ← ih ⟨List.cons_ne_nil _ _, hall⟩ hrest]
                  simp [setSteps, hgs]
              · have hkept : (Json.obj (setSteps doc (.key k :: p) .null).1).follow (.key j :: q) =
                    (Json.obj doc).follow (.key j :: q) := by
                  cases p <;> simp [setSteps, Json.lookup_put_ne _ _ hjk]
                simp [hkept, h, not_erases_of_ne hjk]

end Erased

/-! ### What the query answer relies on -/

section Shown

variable (C : Container) (t : ResolvedTemplate)

/-- A state in which the task failed or was cancelled in the gateway. -/
def FailedInside (status : TaskStatus) : Prop :=
  isInternalTerminal status = true ∨ status = cancelled

/-- Where the state takes the recorded status as it is, the snapshot has no other. -/
def Honest (task : AsyncTask) (fields : Json.Fields) : Prop :=
  (effectiveStatusValue task t).2 = false → ∀ ps s, compileExpression t.statusField = .ok ps →
    (Json.obj fields).follow ps = some (.str s) → s = (effectiveStatusValue task t).1

/-- What the query answer relies on. -/
structure WellShown : Prop where
  disjoint : ∀ s ∈ t.terminal.success,
    s ∉ t.terminal.failure ∧ s ∉ t.terminal.expired ∧ s ≠ t.effectiveFailureStatus
  oneFailure : ∀ s ∈ t.terminal.failure, s ∉ t.terminal.expired
  shown : ∀ task url fields, FailedInside task.status → nativeSnapshot task = .obj fields →
    Honest t task fields → ∀ s ∈ t.terminal.success, shownStatus C task t url ≠ some (.str s)
  answers : ∀ task url, ∃ answer, buildNativeQueryResponse C task t url = .ok answer

/-- A text that can be the reason of a failure. -/
def ErrorDetail (s : String) : Prop :=
  s = t.effectiveFailureErrorCode ∨ s ≠ "" ∧ Text.strip s.toList = s.toList

/-- What the validator leaves open does not go wrong. -/
structure Coherent : Prop where
  successExpired : ∀ s ∈ t.terminal.success, s ∉ t.terminal.expired
  failureExpired : ∀ s ∈ t.terminal.failure, s ∉ t.terminal.expired
  rewrite : ∀ s, nonEmpty t.terminal.internalTerminalRewrite = some s → s ∉ t.terminal.success
  errorField : ∀ f, nonEmpty t.terminal.errorField = some f → ResolvedTemplate.compiles f = true
  /-- An error field that is the status field is written over, or holds no success. -/
  errorApart : ∀ f ps pr, nonEmpty t.terminal.errorField = some f →
    compileExpression f = .ok ps → compileExpression t.statusField = .ok ps → Writable ps →
    compileExpression t.resultLocation = .ok pr →
    (t.resultPolicy.mode = .store ∧ Erases pr ps) ∨ ∀ s ∈ t.terminal.success, ¬ ErrorDetail t s

end Shown

section Proofs

variable {C : Container} {t : AcceptedTemplate} {task : AsyncTask} {url : Option String}
  {fields shown : Json.Fields} {ps pr : List Step} {f s : String}

/-- The values of failures are no successes, and the first of them stands in for a rewrite. -/
theorem effectiveFailureStatus_not_success :
    t.effectiveFailureStatus ∉ t.terminal.success ↔
      ∀ s, nonEmpty t.terminal.internalTerminalRewrite = some s → s ∉ t.terminal.success := by
  have hhead : t.terminal.failure.headD "failed" ∉ t.terminal.success := by
    intro hs
    refine t.success_failure_disjoint hs ?_
    cases hfailure : t.terminal.failure with
    | nil => exact absurd hfailure t.failure_ne_nil
    | cons s rest => exact List.mem_cons_self
  unfold ResolvedTemplate.effectiveFailureStatus
  cases hrewrite : t.terminal.internalTerminalRewrite with
  | none => simpa [ResolvedTemplate.orString, nonEmpty] using hhead
  | some rewrite =>
      by_cases hempty : rewrite = ""
      · subst hempty
        simpa [ResolvedTemplate.orString, nonEmpty] using hhead
      · have hor : ResolvedTemplate.orString (some rewrite) (t.terminal.failure.headD "failed") =
            rewrite := by
          unfold ResolvedTemplate.orString
          split
          · contradiction
          · next h => exact absurd (Option.some.inj h) hempty
          · next h => exact (Option.some.inj h).symm
        rw [hor]
        constructor
        · intro hs s hsome
          rwa [← (Option.some.inj (nonEmpty_eq_some.mp hsome).1)]
        · intro h
          exact h rewrite (nonEmpty_eq_some.mpr ⟨rfl, hempty⟩)

theorem errorDetail_failureDetail :
    ErrorDetail t.toResolvedTemplate (failureDetail task t.toResolvedTemplate) := by
  unfold failureDetail
  dsimp only
  split
  · exact .inl rfl
  · next hne =>
      refine .inr ⟨?_, ?_⟩
      · simpa using hne
      · rw [String.toList_ofList, Text.strip_strip]

theorem showStatus_eq (task : AsyncTask) (fields : Json.Fields)
    (hps : compileExpression t.statusField = .ok ps) :
    showStatus task t.toResolvedTemplate fields = .ok
      (if (effectiveStatusValue task t.toResolvedTemplate).2 = true ∨
          ¬ (extract (.obj fields) ps).isSome = true then
        (setSteps fields ps (.str (effectiveStatusValue task t.toResolvedTemplate).1)).1
      else fields) := by
  unfold showStatus
  obtain ⟨value, needsRewrite⟩ := effectiveStatusValue task t.toResolvedTemplate
  simp only [tryExtract_eq hps, setPathOnDoc_eq hps]
  split <;> rfl

/-- The status that is shown at first. -/
theorem showStatus_str (hps : compileExpression t.statusField = .ok ps)
    (hh : Honest t.toResolvedTemplate task fields)
    (h : showStatus task t.toResolvedTemplate fields = .ok shown)
    (hs : (Json.obj shown).follow ps = some (.str s)) :
    s = (effectiveStatusValue task t.toResolvedTemplate).1 := by
  rw [showStatus_eq _ _ hps, Except.ok.injEq] at h
  subst h
  split at hs
  · exact follow_setSteps hs
  · next hkept =>
      rw [not_or, Bool.not_eq_true] at hkept
      exact hh hkept.1 ps s hps hs

theorem FailedInside.ne_succeeded {status : TaskStatus} (h : FailedInside status) :
    status ≠ succeeded := by
  rintro rfl
  rcases h with h | h
  · exact absurd h (by decide)
  · cases h

theorem FailedInside.ended {status : TaskStatus} (h : FailedInside status) :
    status ∈ businessTerminal := by
  rcases h with h | rfl
  · revert h
    cases status <;> decide
  · decide

/-- The fields after the error is written, where there is an error field. -/
def withError (task : AsyncTask) (t : ResolvedTemplate) (shown : Json.Fields) :
    Except Exn Json.Fields :=
  match nonEmpty t.terminal.errorField with
  | some f => ExpressionError.lift (setPathOnDoc shown f (.str (failureDetail task t)))
  | none => .ok shown

/-- The fields after the result is cleared, where results are stored. -/
def withoutResult (t : ResolvedTemplate) (pr : List Step) (fields : Json.Fields) : Json.Fields :=
  if t.resultPolicy.mode = .store then (setSteps fields pr .null).1 else fields

theorem showResult_failed (hf : FailedInside task.status)
    (hpr : compileExpression t.resultLocation = .ok pr) :
    showResult C task t.toResolvedTemplate url shown =
      (withError task t.toResolvedTemplate shown).map (withoutResult t.toResolvedTemplate pr) := by
  have hbranch : isInternalTerminal task.status = true ∨ task.status = cancelled := hf
  have cleared : ∀ mid, (if t.resultPolicy.mode = .store then
      ExpressionError.lift (setPathOnDoc mid t.resultLocation .null) else .ok mid) =
        .ok (withoutResult t.toResolvedTemplate pr mid) := by
    intro mid
    rw [setPathOnDoc_eq hpr, withoutResult]
    split <;> rfl
  unfold showResult withError
  rw [if_neg hf.ne_succeeded, if_pos hbranch]
  cases nonEmpty t.terminal.errorField with
  | none => exact cleared shown
  | some f =>
      dsimp only
      cases ExpressionError.lift (setPathOnDoc shown f
        (.str (failureDetail task t.toResolvedTemplate))) with
      | error x => rfl
      | ok mid => exact cleared mid

/-- A string at the status field of the answer is the status that was shown first, or the reason of
the failure. -/
theorem failed_str (hf : FailedInside task.status)
    (hpr : compileExpression t.resultLocation = .ok pr) {out : Json.Fields}
    (h : showResult C task t.toResolvedTemplate url shown = .ok out)
    (hs : (Json.obj out).follow ps = some (.str s)) :
    (Json.obj shown).follow ps = some (.str s) ∨
      s = failureDetail task t.toResolvedTemplate ∧ Writable ps ∧
        (∃ f, nonEmpty t.terminal.errorField = some f ∧ compileExpression f = .ok ps) ∧
        (t.resultPolicy.mode = .store → ¬ Erases pr ps) := by
  rw [showResult_failed hf hpr] at h
  obtain ⟨mid, hmid, rfl⟩ : ∃ mid, withError task t.toResolvedTemplate shown = .ok mid ∧
      withoutResult t.toResolvedTemplate pr mid = out := by
    cases hw : withError task t.toResolvedTemplate shown with
    | error x => rw [hw] at h; cases h
    | ok mid => exact ⟨mid, rfl, by rw [hw] at h; exact Except.ok.inj h⟩
  -- a null brings no string
  have hbefore : (Json.obj mid).follow ps = some (.str s) := by
    unfold withoutResult at hs
    split at hs
    · rcases follow_setSteps_str hs with hs | ⟨-, q, -, hs⟩
      · exact hs
      · cases q <;> simp [Json.follow] at hs
    · exact hs
  unfold withError at hmid
  cases hfield : nonEmpty t.terminal.errorField with
  | none =>
      rw [hfield] at hmid
      cases hmid
      exact .inl hbefore
  | some f =>
      rw [hfield] at hmid
      dsimp only at hmid
      cases hpe : compileExpression f with
      | error x =>
          simp [setPathOnDoc, hpe, ExpressionError.lift, bind, Except.bind, Except.mapError] at hmid
      | ok pe =>
          rw [setPathOnDoc_eq hpe] at hmid
          cases hmid
          rcases follow_setSteps_str hbefore with hbefore' | ⟨hw, q, rfl, hs'⟩
          · exact .inl hbefore'
          · obtain ⟨rfl, hdetail⟩ := Json.follow_str_eq_some hs'
            rw [List.append_nil] at hs hbefore ⊢
            refine .inr ⟨Json.str.inj hdetail, hw, ⟨f, rfl, hpe⟩, fun hstore => ?_⟩
            rw [withoutResult, if_pos hstore] at hs
            exact (follow_setSteps_null_iff hw hbefore).mp hs

theorem build_obj (hdoc : nativeSnapshot task = .obj fields)
    (hshown : showStatus task t.toResolvedTemplate fields = .ok shown) :
    buildNativeQueryResponse C task t.toResolvedTemplate url =
      (showResult C task t.toResolvedTemplate url shown).map Json.obj := by
  unfold buildNativeQueryResponse
  rw [hdoc]
  dsimp only
  rw [hshown]
  change (showResult C task t.toResolvedTemplate url shown).bind (fun s => .ok (Json.obj s)) = _
  cases showResult C task t.toResolvedTemplate url shown <;> rfl

/-- With an error field that compiles, the result and the error can be written. -/
theorem showResult_ok (hpr : compileExpression t.resultLocation = .ok pr)
    (herror : ∀ f, nonEmpty t.terminal.errorField = some f → ResolvedTemplate.compiles f = true)
    (shown : Json.Fields) : ∃ out, showResult C task t.toResolvedTemplate url shown = .ok out := by
  by_cases hf : FailedInside task.status
  · rw [showResult_failed hf hpr]
    unfold withError
    cases hfield : nonEmpty t.terminal.errorField with
    | none => exact ⟨_, rfl⟩
    | some f =>
        obtain ⟨pe, hpe⟩ := ResolvedTemplate.compiles_iff.mp (herror f hfield)
        dsimp only
        rw [setPathOnDoc_eq hpe]
        exact ⟨_, rfl⟩
  · have hbranch : ¬ (isInternalTerminal task.status = true ∨ task.status = cancelled) := hf
    unfold showResult
    simp only [if_neg hbranch, setPathOnDoc_eq hpr, ExpressionError.lift, Except.mapError, bind,
      Except.bind]
    split
    · split
      · split <;> exact ⟨_, rfl⟩
      · exact ⟨_, rfl⟩
    · exact ⟨_, rfl⟩

theorem wellShown_of_coherent (h : Coherent t.toResolvedTemplate) :
    WellShown C t.toResolvedTemplate := by
  obtain ⟨ps, hps⟩ := ResolvedTemplate.compiles_iff.mp t.compiles_fields.2.1
  obtain ⟨pr, hpr⟩ := ResolvedTemplate.compiles_iff.mp t.compiles_fields.2.2
  have heff := effectiveFailureStatus_not_success.mpr h.rewrite
  constructor
  · intro s hs
    refine ⟨t.success_failure_disjoint hs, h.successExpired s hs, ?_⟩
    rintro rfl
    exact heff hs
  · exact h.failureExpired
  · intro task url fields hf hdoc hh s hs hshown
    have hfirst := showStatus_eq task fields hps
    rw [shownStatus, build_obj hdoc hfirst, hps] at hshown
    cases hout : showResult C task t.toResolvedTemplate url _ with
    | error x => rw [hout] at hshown; cases hshown
    | ok out =>
        rw [hout] at hshown
        rcases failed_str hf hpr hout hshown with hbefore | ⟨rfl, hw, ⟨f, hfield, hpe⟩, herased⟩
        · have hvalue := showStatus_str hps hh hfirst hbefore
          rcases hvalue ▸ effective_failure hf.ended hf.ne_succeeded with hin | hin | hin
          · exact t.success_failure_disjoint hs hin
          · exact h.successExpired s hs hin
          · exact heff (hin ▸ hs)
        · rcases h.errorApart f ps pr hfield hpe hps hw hpr with ⟨hstore, herases⟩ | hno
          · exact herased hstore herases
          · exact hno _ hs errorDetail_failureDetail
  · intro task url
    by_cases hobj : ∃ fields, nativeSnapshot task = .obj fields
    · obtain ⟨fields, hdoc⟩ := hobj
      obtain ⟨out, hout⟩ : ∃ out, showResult C task t.toResolvedTemplate url _ = .ok out :=
        showResult_ok hpr h.errorField _
      exact ⟨_, by rw [build_obj hdoc (showStatus_eq _ _ hps), hout]; rfl⟩
    · refine ⟨nativeSnapshot task, ?_⟩
      unfold buildNativeQueryResponse
      split
      · next fields hdoc => exact absurd ⟨fields, hdoc⟩ hobj
      · rfl

/-- A task that failed with a message, before the upstream answered. -/
def failedRow (message : Option String) : AsyncTask :=
  { sampleRow with status := dead, errorMessage := message }

theorem failedInside_failedRow (message : Option String) :
    FailedInside (failedRow message).status :=
  .inl (by decide : isInternalTerminal dead = true)

/-- Every text that can be the reason of a failure is one. -/
theorem exists_detail (h : ErrorDetail t.toResolvedTemplate s) :
    ∃ message, failureDetail (failedRow message) t.toResolvedTemplate = s := by
  rcases h with rfl | ⟨hne, hstrip⟩
  · exact ⟨none, rfl⟩
  · refine ⟨some s, ?_⟩
    have hnil : s.toList ≠ [] := by simpa using hne
    simp [failureDetail, failedRow, hstrip, hnil]

theorem coherent_of_wellShown (h : WellShown C t.toResolvedTemplate) :
    Coherent t.toResolvedTemplate := by
  obtain ⟨ps, hps⟩ := ResolvedTemplate.compiles_iff.mp t.compiles_fields.2.1
  constructor
  · intro s hs
    exact (h.disjoint s hs).2.1
  · exact h.oneFailure
  · refine effectiveFailureStatus_not_success.mp fun hs => ?_
    exact (h.disjoint _ hs).2.2 rfl
  · intro f hfield
    obtain ⟨pr, hpr⟩ := ResolvedTemplate.compiles_iff.mp t.compiles_fields.2.2
    obtain ⟨answer, hanswer⟩ := h.answers (failedRow none) none
    rw [build_obj rfl (showStatus_eq _ _ hps), showResult_failed (failedInside_failedRow none) hpr,
      withError, hfield] at hanswer
    refine ResolvedTemplate.compiles_iff.mpr ?_
    cases hpe : compileExpression f with
    | error x =>
        simp [setPathOnDoc, hpe, ExpressionError.lift, bind, Except.bind, Except.mapError,
          Except.map] at hanswer
    | ok pe => exact ⟨pe, rfl⟩
  · intro f ps' pr hfield hpe hps' hw hpr
    rw [hps, Except.ok.injEq] at hps'
    subst hps'
    by_contra hno
    push Not at hno
    obtain ⟨herases, s, hs, hdetail⟩ := hno
    obtain ⟨message, hmessage⟩ := exists_detail hdetail
    refine h.shown (failedRow message) none [] (failedInside_failedRow message) rfl ?_ s hs ?_
    · intro hfalse
      cases hfalse
    · rw [shownStatus, build_obj rfl (showStatus_eq _ _ hps),
        showResult_failed (failedInside_failedRow message) hpr, withError, hfield, hps]
      dsimp only
      rw [setPathOnDoc_eq hpe, hmessage]
      change (Json.obj (withoutResult t.toResolvedTemplate pr (setSteps _ ps (.str s)).1)).follow
        ps = some (.str s)
      unfold withoutResult
      split
      · next hstore =>
          exact (follow_setSteps_null_iff hw (follow_setSteps_written hw _ _)).mpr (herases hstore)
      · exact follow_setSteps_written hw _ _

/-- **An accepted template is sound for the query answer exactly where what the validator leaves
open is in order.** -/
theorem wellShown_iff_coherent (C : Container) (t : AcceptedTemplate) :
    WellShown C t.toResolvedTemplate ↔ Coherent t.toResolvedTemplate := by
  constructor
  · exact coherent_of_wellShown
  · exact wellShown_of_coherent

end Proofs

/-! ### Templates the validator accepts -/

/-- A status that is a success and an expiry. -/
def overlappingTemplate : AcceptedTemplate :=
  { sampleTemplate with
    terminal := { success := ["succeeded"], expired := ["succeeded"] }
    accepted := by decide +kernel }

/-- The error field is no path. -/
def unreadableTemplate : AcceptedTemplate :=
  { sampleTemplate with
    terminal := { errorField := some "error.message" }
    accepted := by decide +kernel }

/-- With the one a value is of two classes; with the other a dead task has no answer. -/
theorem accepted_not_wellShown :
    ¬ WellShown (sampleContainer sampleTemplate) overlappingTemplate.toResolvedTemplate ∧
      ¬ WellShown (sampleContainer sampleTemplate) unreadableTemplate.toResolvedTemplate := by
  constructor
  · intro h
    have hmem : "succeeded" ∈ overlappingTemplate.terminal.success := by decide
    exact (h.disjoint _ hmem).2.1 (by decide)
  · intro h
    obtain ⟨answer, hanswer⟩ := h.answers { sampleRow with status := dead } none
    have hraised : (buildNativeQueryResponse (sampleContainer sampleTemplate)
        { sampleRow with status := dead } unreadableTemplate.toResolvedTemplate none).isOk =
          false := by decide +kernel
    rw [hanswer] at hraised
    cases hraised

end AsyncGateway
