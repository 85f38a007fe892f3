import AsyncGateway.System.Whitelist

/-!
# System — which source ends a task

A template names the source its outcomes come from: the polls, or the callbacks.  What the upstream
reports reaches a handler as the answer to a poll of `poll_upstream` or of a query, or with a
callback (`Fit.report`).  A callback that is not the main source moves no task (`keeps_hearing`);
the polls do not look at the source at all, so a task of a template that waits for its callbacks is
moved by a poll too (`moved_by_poll`).  Where no poll of such a task reports an outcome, every
outcome that moves a task comes from the main source (`arbitrated`).
-/

namespace AsyncGateway

open TaskStatus TaskRuntime
open Interleave

/-! ### What a handler is told -/

/-- An outcome the upstream reported: the template it was read by, where it came from, and what it
is. -/
structure Report where
  template : ResolvedTemplate
  source : StatusSource
  outcome : TaskStatus

section Report

variable (C : Container) (t : ResolvedTemplate)

/-- The outcome the answer to a poll reports, if it is one. -/
def reportedOutcome (t' : ResolvedTemplate) (result : UpstreamCallResult) : Option TaskStatus :=
  if result.ok then
    match tryExtract (payloadOr (result.response.bind (·.jsonBody))) t'.statusField with
    | .ok (some value) => t'.mapsStatus (C.pyStr value)
    | _ => none
  else none

/-- What an answer tells a poll, read by the template of the row it loaded. -/
def Fit.polled (m : Fit) (answer : Except HttpxError HttpResponse) : Option Report :=
  (m.loaded.bind (templateOf C)).bind fun t' =>
    (reportedOutcome C t' (resultOf C .poll m.bearer answer)).map (Report.mk t' .poll)

/-- What an answer tells a handler: a worker and a query of their polls, a callback of the row it
is for. -/
def Fit.report (m : Fit) : (o : Op) → Except Exn o.Ans → Option Report
  | .recv .poll, .ok answer =>
      match m.kind with
      | some .pollUpstream => m.polled C answer
      | some (.query auth _) =>
          (reportedOutcome C t (resultOf C .poll (nonEmpty auth.bearer) answer)).map
            (Report.mk t .poll)
      | _ => none
  | .load, .ok (some row) =>
      match m.kind, m.awaits with
      | some (.callback _), .callback rawStatus =>
          (templateOf C row).bind fun t' =>
            (t'.mapsStatus (rawStatus.getD "")).map (Report.mk t' .callback)
      | _, _ => none
  | _, _ => none

end Report

/-- What is known of a handler, and what it was told last. -/
structure Hearing where
  fit : Fit := {}
  told : Option Report := none

/-- The operation may move the status of the row. -/
def Op.movesStatus : Op → Bool
  | .apply (.noteAttribute _ _) _ => false
  | .apply (.scheduleNextPoll _) _ => false
  | .apply _ _ => true
  | _ => false

namespace Hearing

variable (C : Container) (t : ResolvedTemplate) (m : Hearing)

/-- What the handler was told by a callback, it was told by the main source. -/
def Clear : Prop :=
  ∀ ρ, m.told = some ρ → ρ.source = .callback → ρ.template.statusSource = .callback

def next (o : Op) (r : Except Exn o.Ans) : Hearing :=
  ⟨m.fit.next C t o r, (m.fit.report C t o r).or m.told⟩

end Hearing

/-- **What a handler may ask for once it was told an outcome**: a callback that is not the main
source moves no status. -/
def hearing (C : Container) (t : ResolvedTemplate) : Protocol effects Exn Work where
  State := Hearing
  start κ := { fit := { kind := some κ } }
  idle := {}
  gone m := m
  allows m o := o.movesStatus = true → m.Clear
  next := Hearing.next C t
  done _ := True
  done_idle := trivial
  done_gone _ := trivial

section Heeds

variable {C : Container} {t : ResolvedTemplate} {m : Hearing} {α β : Type}

/-- `p` keeps to the protocol from `m` on. -/
abbrev Heeds (C : Container) (t : ResolvedTemplate) (p : Handler α) (m : Hearing) : Prop :=
  wp (hearing C t) p (fun _ _ => True) m

/-- Only a callback is told by a callback. -/
theorem source_of_report {o : Op} {r : Except Exn o.Ans} {ρ : Report}
    (h : m.fit.report C t o r = some ρ) :
    ρ.source = .poll ∨
      (∃ payload, m.fit.kind = some (.callback payload)) ∧ ∃ raw, m.fit.awaits = .callback raw := by
  unfold Fit.report at h
  split at h
  · left
    split at h
    · obtain ⟨t', -, h⟩ := Option.bind_eq_some_iff.mp h
      obtain ⟨outcome, -, rfl⟩ := Option.map_eq_some_iff.mp h
      rfl
    · obtain ⟨outcome, -, rfl⟩ := Option.map_eq_some_iff.mp h
      rfl
    · cases h
  · split at h
    · exact .inr ⟨⟨_, ‹_›⟩, _, ‹_›⟩
    · cases h
  · cases h

/-- An answer that tells nothing from a callback. -/
theorem Hearing.Clear.next (h : m.Clear) {o : Op} {r : Except Exn o.Ans}
    (hr : ∀ ρ, m.fit.report C t o r = some ρ → ρ.source = .poll) : (m.next C t o r).Clear := by
  intro ρ hρ hs
  rcases Option.or_eq_some_iff.mp hρ with hρ | ⟨-, hρ⟩
  · rw [hr ρ hρ] at hs
    cases hs
  · exact h ρ hρ hs

/-- `p` moves no status, whatever it is answered. -/
abbrev Still (p : Handler α) : Prop :=
  Prog.Avoids (S := effects) (fun o => Op.movesStatus o = true) p

/-- A program that moves no status heeds whatever it was told. -/
theorem heeds_of_still {p : Handler α} (h : Still p) : Heeds C t p m := by
  induction p generalizing m with
  | pure a => trivial
  | raise x => trivial
  | op o k ih =>
      exact ⟨fun hm => absurd hm (h o (.inl rfl)), fun r => ih r fun o' ho => h o' (.inr ⟨r, ho⟩)⟩

/-- A handler that is no callback hears nothing from one. -/
theorem heeds_of_other {p : Handler α} (h : m.Clear)
    (hk : ∀ payload, m.fit.kind ≠ some (.callback payload)) : Heeds C t p m := by
  induction p generalizing m with
  | pure a => trivial
  | raise x => trivial
  | op o k ih =>
      refine ⟨fun _ => h, fun r => ih r (h.next fun ρ hρ => ?_) fun payload => ?_⟩
      · exact (source_of_report hρ).resolve_right fun ⟨⟨payload, hp⟩, _⟩ => hk payload hp
      · exact fun he => hk payload ((Fit.kind_next C t m.fit).symm.trans he)

/-- The insertion of a callback's row. -/
def Op.isCallbackEvent : Op → Bool
  | .insertCallbackEvent _ _ => true
  | _ => false

theorem awaits_next {o : Op} {r : Except Exn o.Ans} {raw : Option String}
    (ho : o.isCallbackEvent = false) : (m.fit.next C t o r).awaits ≠ .callback raw := by
  unfold Fit.next
  dsimp only
  split
  · simp
  · simp
  · simp
  · cases ho
  · simp

/-- `p` files no callback, whatever it is answered. -/
abbrev Late (p : Handler α) : Prop :=
  Prog.Avoids (S := effects) (fun o => Op.isCallbackEvent o = true) p

/-- A handler whose callback was applied hears nothing more. -/
theorem heeds_of_late {p : Handler α} (h : m.Clear) (ha : ∀ raw, m.fit.awaits ≠ .callback raw)
    (hp : Late p) : Heeds C t p m := by
  induction p generalizing m with
  | pure a => trivial
  | raise x => trivial
  | op o k ih =>
      refine ⟨fun _ => h, fun r => ih r (h.next fun ρ hρ => ?_) (fun raw => ?_)
        fun o' ho => hp o' (.inr ⟨r, ho⟩)⟩
      · exact (source_of_report hρ).resolve_right fun ⟨_, raw, hr⟩ => ha raw hr
      · exact awaits_next (by simpa using hp o (.inl rfl))

/-! ### The callback -/

variable {task : AsyncTask} {t' : ResolvedTemplate} {event : CallbackEvent}

theorem heeds_ask {o : Op} {f : o.Ans → Handler β} (ho : o.movesStatus = false)
    (hf : ∀ a, Heeds C t (f a) (m.next C t o (.ok a))) : Heeds C t ((ask o).bind f) m := by
  refine wp_bind.mpr (wp_perform.mpr ⟨fun hm => ?_, fun r => ?_⟩)
  · rw [ho] at hm
    cases hm
  · cases r with
    | ok a => exact hf a
    | error x => trivial

theorem heeds_ofExcept {r : Except Exn α} {f : α → Handler β} (hf : ∀ a, Heeds C t (f a) m) :
    Heeds C t ((Prog.ofExcept r).bind f) m := by
  cases r with
  | ok a => exact hf a
  | error x => trivial

theorem still_ask {o : Op} (h : o.movesStatus = false) : Still (ask o) := .perform (by simp [h])

theorem still_noteAttribute {attributes : Json.Fields} : Still (noteAttribute attributes) := by
  refine .bind (still_ask rfl) fun read => ?_
  cases read with
  | none => exact .pure _
  | some read => exact still_ask rfl

/-- A terminal callback that is not the main source: the row is noted, and polled at once. -/
theorem still_applyCallbackTo {mapped : TaskStatus} (hs : t'.statusSource = .poll)
    (hm : t'.mapsStatus (event.rawStatus.getD "") = some mapped) :
    Still (applyCallbackTo C task t' event) := by
  unfold applyCallbackTo
  simp only [hm, if_pos hs]
  exact .bind still_noteAttribute fun _ => .bind (still_ask rfl) fun _ =>
    .bind (still_ask rfl) fun _ => still_ask rfl

theorem late_ask {o : Op} (h : o.isCallbackEvent = false) : Late (ask o) := .perform (by simp [h])

theorem late_noteAttribute {attributes : Json.Fields} : Late (noteAttribute attributes) := by
  refine .bind (late_ask rfl) fun read => ?_
  cases read with
  | none => exact .pure _
  | some read => exact late_ask rfl

theorem late_finalizeTask : Late (finalizeTask C) := by
  refine .bind (late_ask rfl) fun row => ?_
  cases row with
  | none => exact .pure _
  | some task =>
      refine .ite (.bind (.bind (.ofExcept _) fun _ => .pure _) fun found => ?_) (.pure _)
      exact .ite (.bind (late_ask rfl) fun _ => late_ask rfl) (late_ask rfl)

theorem late_applyCallbackTo : Late (applyCallbackTo C task t' event) := by
  unfold applyCallbackTo
  split
  · exact .bind (late_ask rfl) fun _ => .pure _
  · rename_i mapped hm
    refine .ite ?_ ?_
    · exact .bind late_noteAttribute fun _ => .bind (late_ask rfl) fun _ =>
        .bind (late_ask rfl) fun _ => late_ask rfl
    · refine .bind (.bind (late_ask rfl) fun _ => ?_) fun _ => .ite
        (.bind (late_ask rfl) fun _ => late_finalizeTask) (.pure _)
      rcases mapsStatus_cases hm with rfl | rfl | rfl <;> exact late_ask rfl

theorem heeds_applyCallback {taskId : String} {payload : Json} (hn : m.told = none)
    (hk : m.fit.kind = some (.callback payload)) (ha : m.fit.awaits = .callback event.rawStatus) :
    Heeds C t (applyCallback C taskId event) m := by
  refine heeds_ask rfl fun row => ?_
  cases row with
  | none => exact heeds_of_still (still_ask rfl)
  | some task =>
      refine wp_ite.mpr ⟨fun _ => heeds_of_still (still_ask rfl), fun _ => ?_⟩
      cases ht : C.registry task.templateAlias task.templateVersion with
      | none => trivial
      | some t' =>
          have report : m.fit.report C t .load (.ok (some task)) =
              (t'.mapsStatus (event.rawStatus.getD "")).map (Report.mk t' .callback) := by
            simp [Fit.report, hk, ha, templateOf, ht]
          -- what the handler is told is what the callback is applied for
          show Heeds C t (applyCallbackTo C task t' event) (m.next C t .load (.ok (some task)))
          by_cases hs : t'.statusSource = .poll
          · cases hm : t'.mapsStatus (event.rawStatus.getD "") with
            | some mapped => exact heeds_of_still (still_applyCallbackTo hs hm)
            | none =>
                refine heeds_of_late (fun ρ hρ => ?_) (fun _ => awaits_next rfl)
                  late_applyCallbackTo
                simp [Hearing.next, report, hm, hn] at hρ
          · refine heeds_of_late (fun ρ hρ _ => ?_) (fun _ => awaits_next rfl) late_applyCallbackTo
            have hcallback : t'.statusSource = .callback := by
              cases h : t'.statusSource with
              | poll => exact absurd h hs
              | callback => rfl
            rcases Option.or_eq_some_iff.mp hρ with hρ | ⟨-, hρ⟩
            · rw [report] at hρ
              obtain ⟨outcome, -, rfl⟩ := Option.map_eq_some_iff.mp hρ
              exact hcallback
            · rw [hn] at hρ
              cases hρ

theorem heeds_receiveCallback {payload : Json} :
    Heeds C t (receiveCallback C payload) { fit := { kind := some (.callback payload) } } := by
  refine heeds_ask rfl fun row => ?_
  cases row with
  | none => trivial
  | some task =>
      have rest : ∀ rawStatus : Option String, Heeds C t (do
            let fresh : Bool ← ask (.insertCallbackEvent rawStatus payload)
            if fresh then applyCallback C task.taskId ⟨payload, rawStatus⟩ else pure ())
          (Hearing.next C t { fit := { kind := some (.callback payload) } } .load
            (.ok (some task))) := by
        intro rawStatus
        refine heeds_ask rfl fun fresh => ?_
        cases fresh with
        | false => trivial
        | true => exact heeds_applyCallback rfl rfl rfl
      dsimp only
      split
      · exact heeds_ofExcept fun value => rest _
      · exact rest _

/-- **Every handler keeps to the protocol.** -/
theorem keeps_hearing (κ : Work) :
    Follows (hearing C t) (κ.body C t) ((hearing C t).start κ) := by
  suffices h : Heeds C t (κ.body C t) { fit := { kind := some κ } } from
    wp_mono (fun r _ _ => by cases r <;> trivial) h
  have clear : ({ fit := { kind := some κ } } : Hearing).Clear := fun ρ hρ => by cases hρ
  cases κ with
  | callback payload => exact heeds_receiveCallback
  | _ => exact heeds_of_other clear fun payload he => by cases he

end Heeds

/-! ### In every run -/

section Runs

variable {C : Container} {t : ResolvedTemplate}

/-- What handler `u` knows and was told, after the log. -/
abbrev heard (C : Container) (t : ResolvedTemplate) (log : Log) (u : ℕ) : Hearing :=
  (hearing C t).after (M := gateway C t) log u

/-- **Arbitration**: a handler that was told an outcome moves the status only where it was told by
the main source of the template. -/
def Arbitrated (c : Config (gateway C t)) : Prop :=
  ∀ u γ c', c.step (.act u γ) = some c' → c'.world.row.status ≠ c.world.row.status →
    ∀ ρ, (heard C t c.log u).told = some ρ → ρ.source = ρ.template.statusSource

/-- No poll reports an outcome of a task whose template waits for its callbacks. -/
def pollsQuiet (C : Container) (t : ResolvedTemplate) : (gateway C t).Condition := fun _ l u o r =>
  ∀ ρ, (heard C t l u).fit.report C t o r = some ρ → ρ.source = .poll →
    ρ.template.statusSource = .poll

/-- A write that leaves the status. -/
theorem status_of_still {w w' : World} {o : Op} {γ : Choice} {r : Except Exn o.Ans}
    (h : respond w o γ = some (r, w')) (ho : o.movesStatus = false) :
    w'.row.status = w.row.status := by
  have hr := respond_eq_some h
  by_cases ha : ∃ op also, o = .apply op also
  · obtain ⟨op, also, rfl⟩ := ha
    obtain ⟨x, -, hrow⟩ | ⟨-, hrow⟩ | ⟨now, -, hrun⟩ := reply_apply hr
    · rw [hrow]
    · rw [hrow]
    · cases op with
      | noteAttribute read attributes =>
          obtain ⟨-, -, hrow⟩ := cas_eq_some.mp (Except.ok.inj hrun)
          simp [hrow]
      | scheduleNextPoll next =>
          obtain ⟨-, -, hrow⟩ := cas_eq_some.mp (Except.ok.inj hrun)
          simp [hrow]
      | _ => cases ho
  · rw [reply_row hr fun op also he => ha ⟨op, also, he⟩]

/-- What a handler was told by a poll is an outcome of a template that polls. -/
def PollsMain (C : Container) (t : ResolvedTemplate) (l : Log) : Prop :=
  ∀ u ρ, (heard C t l u).told = some ρ → ρ.source = .poll → ρ.template.statusSource = .poll

theorem PollsMain.run {w : World} {c : Config (gateway C t)}
    (h : Run (pollsQuiet C t) ((gateway C t).initial w) c) : PollsMain C t c.log := by
  refine Run.each (M := gateway C t) (P := hearing C t)
    (Q := fun m => ∀ ρ, m.told = some ρ → ρ.source = .poll → ρ.template.statusSource = .poll)
    keeps_hearing (Keeps.initial w) ?_ ?_ ?_ ?_ h
  · intro u ρ hρ
    cases hρ
  · intro κ ρ hρ
    cases hρ
  · intro w l u o r ih hg ρ hρ hs
    rcases Option.or_eq_some_iff.mp hρ with hρ | ⟨-, hρ⟩
    · exact hg ρ hρ hs
    · exact ih ρ hρ hs
  · intro m hm
    exact hm

/-- The same in a run from any row. -/
theorem arbitrated_of_run {w : World} {c : Config (gateway C t)}
    (run : Run (pollsQuiet C t) ((gateway C t).initial w) c) : Arbitrated c := by
  have keeps : Keeps (hearing C t) c := Keeps.run keeps_hearing (Keeps.initial w) run
  intro u γ c' hstep hmoved ρ hρ
  simp only [Config.step] at hstep
  split at hstep
  · rename_i o k hp
    split at hstep
    · rename_i r w' hw
      cases hstep
      have moves : o.movesStatus = true := by
        by_contra hn
        exact hmoved (status_of_still hw (by simpa using hn))
      have clear : (heard C t c.log u).Clear := keeps.allows hp moves
      cases hs : ρ.source with
      | poll => exact (PollsMain.run run u ρ hρ hs).symm
      | callback => exact (clear ρ hρ hs).symm
    · cases hstep
  · cases hstep

/-- **Where no poll reports an outcome of a task that waits for its callbacks**, every outcome that
moves a task comes from the main source of its template. -/
theorem arbitrated {c : Config (gateway C t)} (h : Reachable C t (pollsQuiet C t) c) :
    Arbitrated c := by
  obtain ⟨w, -, run⟩ := h
  exact arbitrated_of_run run

/-- Templates that poll need no condition. -/
theorem pollsQuiet_of_poll (ht : t.statusSource = .poll)
    (hC : ∀ name version t', C.registry name version = some t' → t'.statusSource = .poll)
    (w : World) (l : Log) (u : ℕ) (o : Op) (r : Except Exn o.Ans) : pollsQuiet C t w l u o r := by
  intro ρ hρ _
  unfold Fit.report at hρ
  split at hρ
  · split at hρ
    · obtain ⟨t', hfound, hρ⟩ := Option.bind_eq_some_iff.mp hρ
      obtain ⟨outcome, -, rfl⟩ := Option.map_eq_some_iff.mp hρ
      obtain ⟨row, -, hrow⟩ := Option.bind_eq_some_iff.mp hfound
      exact hC _ _ _ hrow
    · obtain ⟨outcome, -, rfl⟩ := Option.map_eq_some_iff.mp hρ
      exact ht
    · cases hρ
  · split at hρ
    · obtain ⟨t', hrow, hρ⟩ := Option.bind_eq_some_iff.mp hρ
      obtain ⟨outcome, -, rfl⟩ := Option.map_eq_some_iff.mp hρ
      exact hC _ _ _ hrow
    · cases hρ
  · cases hρ

/-- **Where the polls are the main source**, every run is arbitrated. -/
theorem arbitrated_of_poll {c : Config (gateway C t)} (ht : t.statusSource = .poll)
    (hC : ∀ name version t', C.registry name version = some t' → t'.statusSource = .poll)
    (h : Reachable C t (gateway C t).anything c) : Arbitrated c := by
  obtain ⟨w, -, run⟩ := h
  exact arbitrated_of_run (run.mono fun w l u o r _ => pollsQuiet_of_poll ht hC w l u o r)

end Runs

/-! ### Runs of the sample gateway -/

/-- A template the validator accepts, whose outcomes come with the callbacks. -/
def callbackSample : AcceptedTemplate :=
  { sampleTemplate with
    statusSource := .callback
    capabilities := { confirmStrategy := .queryByClientKey, cancel := true, callback := true }
    accepted := by decide +kernel }

/-- The gateway of the template that waits for its callbacks, on the sample row. -/
abbrev callbackStart :=
  sampleStart callbackSample.toResolvedTemplate sampleRow

/-- Handler `u` is a callback that reports the status. -/
def calledBack {t : ResolvedTemplate} (u : ℕ) (status : String) : Script t :=
  .spawn (.callback (.obj [("status", .str status)])) ::
    goesOn u 0 [.done, .flag true, .done, .done, .done, .done]

/-- The task is created, and a poll of it is answered with a success: the poll is about to write
it. -/
def pollSucceeds {t : ResolvedTemplate} : Script t :=
  created [] ++ polled 1 (.obj [("status", .str "succeeded")]) ++ goesOn 1 0 [.done]

/-- The next answer to handler `u` moves the task to a success the main source did not report. -/
def endsAside {C : Container} {t : ResolvedTemplate} (c : Config (gateway C t)) (u : ℕ) : Bool :=
  (c.step (.act u ⟨0, .done⟩)).any (fun c' => decide (c'.world.row.status = succeeded)) &&
    decide (c.world.row.status ≠ succeeded) &&
    (heard C t c.log u).told.any fun ρ => decide (ρ.source ≠ ρ.template.statusSource)

/-- A poll ends a task whose template waits for its callbacks. -/
theorem moved_by_poll :
    ∃ c, Reachable (sampleContainer callbackSample.toResolvedTemplate)
        callbackSample.toResolvedTemplate (gateway _ _).anything c ∧
      (∃ c', c.step (.act 1 ⟨0, .done⟩) = some c' ∧ c'.world.row.status = succeeded) ∧
      ¬ Arbitrated c := by
  obtain ⟨c, hrun, hc⟩ := reached (t := callbackSample.toResolvedTemplate) sampleRow pollSucceeds
    (fun _ _ _ _ _ => true) (fun c => endsAside c 1) (fun _ _ _ _ _ _ => trivial)
    (by decide +kernel)
  simp only [endsAside, Bool.and_eq_true, decide_eq_true_eq, Option.any_eq_true] at hc
  obtain ⟨⟨⟨c', hstep, hs⟩, hne⟩, ρ, hρ, hsource⟩ := hc
  refine ⟨c, ⟨⟨sampleRow, 0⟩, inserted_sampleRow, hrun⟩, ⟨c', hstep, hs⟩, fun h => hsource ?_⟩
  exact h 1 _ c' hstep (by rw [hs]; exact Ne.symm hne) ρ hρ

/-- The check of `pollsQuiet`. -/
def pollsQuietCheck (C : Container) (t : ResolvedTemplate) : (gateway C t).Check := fun _ l u o r =>
  ((heard C t l u).fit.report C t o r).all fun ρ =>
    decide (ρ.source = .poll → ρ.template.statusSource = .poll)

theorem pollsQuiet_of_check {C : Container} {t : ResolvedTemplate} {w : World} {l : Log} {u : ℕ}
    {o : Op} {r : Except Exn o.Ans} (h : pollsQuietCheck C t w l u o r = true) :
    pollsQuiet C t w l u o r := fun ρ hρ => by
  rw [pollsQuietCheck, hρ] at h
  exact of_decide_eq_true h

/-- The task is created, a poll of it finds it at work, and its callback ends it. -/
theorem arbitrated_called_back :
    ∃ c, Run (pollsQuiet (sampleContainer callbackSample.toResolvedTemplate)
        callbackSample.toResolvedTemplate) callbackStart c ∧
      c.world.row.status = succeeded ∧ Arbitrated c := by
  obtain ⟨c, hrun, hc⟩ := reached (t := callbackSample.toResolvedTemplate) sampleRow
    (created [] ++ polled 1 (.obj [("status", .str "running")]) ++ calledBack 2 "succeeded")
    (pollsQuietCheck _ _) (fun c => decide (c.world.row.status = succeeded))
    (fun _ _ _ _ _ => pollsQuiet_of_check) (by decide +kernel)
  exact ⟨c, hrun, of_decide_eq_true hc, arbitrated ⟨_, inserted_sampleRow, hrun⟩⟩

end AsyncGateway
