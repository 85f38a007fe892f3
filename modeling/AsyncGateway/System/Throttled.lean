import AsyncGateway.Infra.Polling
import AsyncGateway.System.Alone
import AsyncGateway.System.Retry

/-!
# System — a create call answered with 429

The intent is released, and the task is put off: by what the `Retry-After` header asks for, else by
the interval of the channel (`AskedDelay`).  The header is read with a default of its own, so the
interval stands in only where the header asks for nothing, and a delay that reaches past the end of
`datetime` raises (`resubmits_iff`).
-/

namespace AsyncGateway

open TaskStatus TaskRuntime
open Interleave

variable (C : Container) (S : PollSettings) (P : PollingController)

/-- The environment of the handler: nothing fails, the clock shows `now`, and the interval is the
one of the polling controller in the state `s` at the time `read`. -/
structure Prompt (s : P.State) (read : ℚ≥0) (now : Time) (o : Op) (γ : Choice) : Prop where
  works : ∀ message, γ.reply ≠ .fail message
  clock : o = .now → γ.time = now
  interval : ∀ channel elapsed first, o = .baseInterval channel elapsed first →
    γ.reply = .rat (P.baseInterval S read s channel elapsed first)

/-- The interval of the channel, cut at the bound of the settings.  It is made of the statistics
alone, whatever the multiplier. -/
def fallbackDelay (stats : PollStats) : ℚ :=
  min (S.computeInterval 0 stats true) C.submitRetryMaxSeconds

/-- The delay a header asks for; one that is neither a number nor a date asks for none. -/
def AskedDelay (received : Time) (fallback : ℚ) : Option String → ℚ → Prop
  | none, delay => delay = fallback
  | some "", _ => True
  | some raw, delay =>
      (∀ v, C.toFloat raw = some (.fin v) → 0 ≤ v → delay = v) ∧
        (C.toFloat raw = none → ∀ date, C.parsedate raw = some date →
          delay = max 0 (date - received))

/-- The handler completed, and the task waits for its next submission. -/
structure ReleasedUntil (w : World) (x : Except Exn Unit) (w' : World) (next : Time) : Prop where
  completed : x = .ok ()
  status : w'.row.status = w.row.status
  submitStartedAt : w'.row.submitStartedAt = none
  nextPollAt : w'.row.nextPollAt = some next
  valid : next < datetimeEnd

/-- What the code makes right of: no header only where the interval is a second, and a number or a
date that is positive and not out of reach. -/
def Honoured (received now : Time) (fallback : ℚ) : Option String → Prop
  | none => fallback = 1 ∧ now + 1 < datetimeEnd
  | some "" => now + 1 < datetimeEnd
  | some raw =>
      match C.toFloat raw, C.parsedate raw with
      | some (.fin v), _ =>
          if 0 < v then now + v < datetimeEnd
          else (v = 0 → fallback = 0) ∧ now + fallback < datetimeEnd
      | some .posInf, _ => False
      | some _, _ => now + fallback < datetimeEnd
      | none, some date =>
          if received < date then now + (date - received) < datetimeEnd
          else fallback = 0 ∧ now + fallback < datetimeEnd
      | none, none => now + 1 < datetimeEnd

section Release

variable {C S P} {G : Op → Choice → Prop} {w w' : World} {row row' task : AsyncTask} {now : Time}

/-- The row, after its intent was released. -/
structure GivenBack (row row' : AsyncTask) (next : Time) : Prop where
  status : row'.status = row.status
  submitStartedAt : row'.submitStartedAt = none
  nextPollAt : row'.nextPollAt = some next

theorem givenBack_release {expected : List TaskStatus} {next : Time} {decrement : Bool}
    {code : Option ErrorCode} {message : Option String} {retryable : Option Bool}
    {deadline : Option Time}
    (h : (DaoOp.releaseSubmitIntent expected next decrement code message retryable none
      deadline).run now row = .ok (some row')) : GivenBack row row' next := by
  obtain ⟨-, -, rfl⟩ := cas_eq_some.mp (Except.ok.inj h)
  rw [foldl_cols]
  refine ⟨by simp, ?_, ?_⟩
  · cases decrement <;> cases deadline <;> simp [releaseValues, ifSome, Assign.apply]
  · cases decrement <;> cases deadline <;> simp [releaseValues, ifSome, Assign.apply]

theorem GivenBack.note {next : Time} {read : Option Json.Fields} {attributes : Json.Fields}
    {row'' : AsyncTask} (hback : GivenBack row row' next)
    (h : (DaoOp.noteAttribute read attributes).run now row' = .ok (some row'')) :
    GivenBack row row'' next := by
  obtain ⟨-, -, rfl⟩ := cas_eq_some.mp (Except.ok.inj h)
  exact ⟨hback.status, hback.submitStartedAt, hback.nextPollAt⟩

variable {s : P.State} {read : ℚ≥0}

theorem Prompt.ask {o : Op} {Φ : o.Ans → Prop} (ho : ∀ op also, o ≠ .apply op also)
    (h : ∀ γ a w', Prompt S P s read now o γ → respond w o γ = some (.ok a, w') → Φ a) :
    Answered (Prompt S P s read now) (ask o) w Φ :=
  .ask ho (fun _ message hγ => hγ.works message) h

/-- A write that never raises, and hits or misses. -/
theorem ensured_write {op : DaoOp} {Q : Except Exn Bool → World → Prop}
    (hrun : ∀ now, ∃ found, op.run now w.row = .ok found)
    (hhit : ∀ now (w' : World), op.run now w.row = .ok (some w'.row) → Q (.ok true) w')
    (hmiss : ∀ now (w' : World), op.run now w.row = .ok none → w'.row = w.row →
      Q (.ok false) w') :
    Ensured (Prompt S P s read now) (applyOp op) w Q := by
  refine Ensured.ask fun γ r w' hG hr => ?_
  have hreply := respond_eq_some hr
  have hworks := hG.works
  obtain ⟨time, answer⟩ := γ
  cases answer with
  | done =>
      obtain ⟨found, hfound⟩ := hrun time
      cases found with
      | none =>
          have hexec : op.exec time w.row = (.ok false, w.row) := by rw [DaoOp.exec, hfound]
          simp only [reply, hexec] at hreply
          obtain ⟨rfl, hrow⟩ := Prod.mk.inj (Option.some.inj hreply)
          exact hmiss time w' hfound hrow.symm
      | some row' =>
          have hexec : op.exec time w.row = (.ok true, row') := by rw [DaoOp.exec, hfound]
          simp only [reply, hexec] at hreply
          obtain ⟨rfl, hrow⟩ := Prod.mk.inj (Option.some.inj hreply)
          exact hhit time w' (by rw [hfound, hrow])
  | fail message => exact absurd rfl (hworks message)
  | _ => cases hreply

theorem ensured_noteAttribute {next : Time} {attributes : Json.Fields}
    (h : GivenBack row w.row next) :
    Ensured (Prompt S P s read now) (noteAttribute attributes) w fun x w' =>
      (∃ b, x = .ok b) ∧ GivenBack row w'.row next := by
  refine Answered.bind (Prompt.ask (fun _ _ h => nomatch h) fun _ _ _ _ _ => trivial) ?_
  intro found _ w₁ hrow
  rw [← hrow] at h
  cases found with
  | none => exact Prog.Ensures.pure ⟨⟨false, rfl⟩, h⟩
  | some read =>
      refine ensured_write (fun _ => ⟨_, rfl⟩) ?_ ?_
      · exact fun now w' hrun => ⟨⟨true, rfl⟩, h.note hrun⟩
      · exact fun now w' _ hsame => ⟨⟨false, rfl⟩, hsame ▸ h⟩

theorem ensured_nowPlus {delay : PyFloat} : Ensured (Prompt S P s read now) (nowPlus delay) w
    fun x w' => w'.row = w.row ∧ x = later now delay := by
  have hclock : Answered (Prompt S P s read now) now_ w fun t => t = now := by
    refine Prompt.ask (fun _ _ h => nomatch h) fun γ t w' hγ hr => ?_
    rw [respond_now hr, (respond_clock hr).2, hγ.clock rfl]
  refine Answered.bind hclock ?_
  rintro _ rfl w₁ hrow₁
  exact Prog.Ensures.ofExcept ⟨hrow₁, rfl⟩

/-- The write of the release gives the intent back. -/
theorem ensured_giveBack {next : Time} {code : ErrorCode} {message : Option String}
    {decrement : Bool} {deadline : Option Time} (hrow : w.row.status ∈ submitSources) :
    Ensured (Prompt S P s read now)
      (applyOp (.releaseSubmitIntent submitSources next decrement (some code) message (some true)
        none deadline)) w fun x w' => x = .ok true ∧ GivenBack w.row w'.row next := by
  refine ensured_write (fun _ => ⟨_, rfl⟩) ?_ ?_
  · exact fun _ w' hrun => ⟨rfl, givenBack_release hrun⟩
  · intro now w' hrun _
    have hhit := Except.ok.inj hrun
    rw [cas, if_neg (by decide), if_pos ⟨hrow, rfl⟩] at hhit
    cases hhit

section Outcome

variable {delay : PyFloat} {code : ErrorCode} {message : Option String} {decrement : Bool}

/-- Where there is a time of the next submission, the release gives the intent back. -/
theorem ensured_release {next : Time} (hlater : later now delay = .ok next)
    (hrow : w.row.status ∈ submitSources) :
    Ensured (Prompt S P s read now)
      (releaseForUpstreamWait C w.row submitSources delay code message decrement) w fun x w' =>
        (∃ b, x = .ok b) ∧ GivenBack w.row w'.row next := by
  refine Prog.Ensures.bind ensured_nowPlus ?_ ?_
  · rintro next' w₁ ⟨hrow₁, hnext⟩
    cases hnext.trans hlater
    rw [← hrow₁] at hrow ⊢
    refine Prog.Ensures.bind (ensured_giveBack hrow) ?_ ?_
    · rintro _ w₂ ⟨hx, hback⟩
      cases hx
      refine Prog.Ensures.ite ?_ (Prog.Ensures.pure ⟨⟨true, rfl⟩, hback⟩)
      refine Prog.Ensures.bind (ensured_noteAttribute hback) ?_ ?_
      · rintro _ w₃ ⟨-, hback⟩
        exact Prog.Ensures.pure ⟨⟨true, rfl⟩, hback⟩
      · rintro e w₃ ⟨⟨b, hb⟩, -⟩
        cases hb
    · rintro e w₂ ⟨hx, -⟩
      cases hx
  · rintro e w₁ ⟨-, hnext⟩
    cases hnext.trans hlater

/-- Where there is none, the release raises. -/
theorem ensured_release_error {e : Exn} (hlater : later now delay = .error e) :
    Ensured (Prompt S P s read now)
      (releaseForUpstreamWait C w.row submitSources delay code message decrement) w fun x _ =>
        x = .error e := by
  refine Prog.Ensures.bind ensured_nowPlus ?_ ?_
  · rintro next w₁ ⟨-, hnext⟩
    cases hnext.trans hlater
  · rintro e' w₁ ⟨-, hnext⟩
    cases hnext.trans hlater
    rfl

end Outcome

/-- The delay the handler comes to. -/
def submitDelay (C : Container) (received : Time) (fallback : ℚ) (header : Option String) :
    PyFloat :=
  (extractRetryAfter C.toFloat C.parsedate received header (.fin 1)).orElse (.fin fallback)

/-- What the handler does with a 429, up to the text of the error. -/
theorem handleSubmitResult_throttled {t : ResolvedTemplate} {strategy : Strategy}
    {secrets : List String} {received : Time} {r : HttpResponse} (h429 : r.statusCode = 429) :
    ∃ message, handleSubmitResult C task t strategy
        (UpstreamClient.ofResponse C secrets .submit received r) =
      (ask (.baseInterval task.channel 0 true)).bind fun base =>
        (ask (.noteRateLimited task.channel
            (some (extractRetryAfter C.toFloat C.parsedate received r.retryAfter (.fin 1))))).bind
          fun _ => (releaseForUpstreamWait C task submitSources
            (submitDelay C received (min base C.submitRetryMaxSeconds) r.retryAfter) .rateLimited
            message true).bind fun _ => .pure () := by
  obtain ⟨statusCode, retryAfter, json, text, content⟩ := r
  cases h429
  exact ⟨_, rfl⟩

/-- The delay decides what becomes of a 429. -/
theorem ensured_throttled {t : ResolvedTemplate} {strategy : Strategy} {secrets : List String}
    {received : Time} {r : HttpResponse} (h429 : r.statusCode = 429)
    (hrow : w.row.status ∈ submitSources) :
    Ensured (Prompt S P s read now)
      (handleSubmitResult C w.row t strategy
        (UpstreamClient.ofResponse C secrets .submit received r)) w fun x w' =>
      match later now (submitDelay C received
        (fallbackDelay C S (P.stats read s w.row.channel)) r.retryAfter) with
      | .ok next => x = .ok () ∧ GivenBack w.row w'.row next
      | .error e => x = .error e := by
  obtain ⟨message, hthrottled⟩ := @handleSubmitResult_throttled C w.row t strategy secrets received
    r h429
  rw [hthrottled]
  -- the interval the controller answers is the one of its statistics
  have hbase : Answered (Prompt S P s read now) (ask (.baseInterval w.row.channel 0 true)) w
      fun base => base = S.computeInterval 0 (P.stats read s w.row.channel) true := by
    refine Prompt.ask (fun _ _ h => nomatch h) fun γ base w' hγ hr => ?_
    have hinterval := hγ.interval _ _ _ rfl
    have hreply := respond_eq_some hr
    obtain ⟨time, answer⟩ := γ
    cases hinterval
    exact (Except.ok.inj (Prod.mk.inj (Option.some.inj hreply)).1).symm
  refine Answered.bind hbase ?_
  rintro _ rfl w₁ hrow₁
  refine Answered.bind (Prompt.ask (fun _ _ h => nomatch h) fun _ _ _ _ _ => trivial) ?_
  rintro - - w₂ hrow₂
  have hsame : w₂.row = w.row := hrow₂.trans hrow₁
  rw [← hsame] at hrow ⊢
  unfold fallbackDelay
  split
  · rename_i next hlater
    refine Prog.Ensures.bind (ensured_release hlater hrow) ?_ ?_
    · exact fun b w₃ ⟨_, hback⟩ => Prog.Ensures.pure ⟨rfl, hback⟩
    · rintro e w₃ ⟨⟨b, hb⟩, -⟩
      cases hb
  · rename_i e hlater
    refine Prog.Ensures.bind (ensured_release_error hlater) ?_ ?_
    · rintro b w₃ hx
      cases hx
    · rintro e' w₃ hx
      cases hx
      rfl

end Release

section Delay

variable {C} {received now : Time} {fallback : ℚ}

theorem later_eq_ok {delay : PyFloat} {next : Time} :
    later now delay = .ok next ↔ ∃ q, delay = .fin q ∧ now + q < datetimeEnd ∧ next = now + q := by
  cases delay with
  | fin q =>
      unfold later
      by_cases h : now + q < datetimeEnd
      · simp [h, eq_comm]
      · simp [h]
  | posInf => simp [later]
  | negInf => simp [later]
  | nan => simp [later]

/-- A delay that is there is kept. -/
theorem PyFloat.orElse_fin {q : ℚ} (h : q ≠ 0) (d : PyFloat) : (PyFloat.fin q).orElse d = .fin q :=
  if_neg fun hq => h (PyFloat.fin.inj hq)

theorem PyFloat.orElse_zero (d : PyFloat) : (PyFloat.fin 0).orElse d = d := if_pos rfl

/-- Where the delay is known, it is the one that is asked for. -/
theorem exists_delay {asks : ℚ → Prop} {q : ℚ} :
    (∃ delay, asks delay ∧ PyFloat.fin q = .fin delay ∧ now + delay < datetimeEnd) ↔
      asks q ∧ now + q < datetimeEnd := by
  constructor
  · rintro ⟨delay, hasks, hq, hlt⟩
    cases hq
    exact ⟨hasks, hlt⟩
  · rintro ⟨hasks, hlt⟩
    exact ⟨q, hasks, rfl, hlt⟩

/-- A header that is a number. -/
theorem honoured_number {raw : String} {x : PyFloat} (hraw : raw ≠ "")
    (hx : C.toFloat raw = some x) :
    (∃ delay, AskedDelay C received fallback (some raw) delay ∧
      submitDelay C received fallback (some raw) = .fin delay ∧ now + delay < datetimeEnd) ↔
      Honoured C received now fallback (some raw) := by
  have hasked : ∀ delay, AskedDelay C received fallback (some raw) delay ↔
      ∀ v, x = .fin v → 0 ≤ v → delay = v := by
    intro delay
    simp [AskedDelay, hx]
  have hdelay : submitDelay C received fallback (some raw) = x.maxZero.orElse (.fin fallback) := by
    simp [submitDelay, extractRetryAfter, hx]
  simp only [hasked, hdelay]
  cases x with
  | fin v =>
      rcases lt_trichotomy v 0 with hv | rfl | hv
      · -- a negative number asks for no delay, and counts as zero
        rw [PyFloat.maxZero, max_eq_left hv.le, PyFloat.orElse_zero, exists_delay]
        simp [Honoured, hx, hv.not_gt, hv.ne, hv.not_ge]
      · rw [PyFloat.maxZero, max_self, PyFloat.orElse_zero, exists_delay]
        simp [Honoured, hx]
      · rw [PyFloat.maxZero, max_eq_right hv.le, PyFloat.orElse_fin hv.ne', exists_delay]
        simp [Honoured, hx, hv]
  | posInf => simp [Honoured, hx, PyFloat.maxZero, PyFloat.orElse]
  | negInf =>
      rw [PyFloat.maxZero, PyFloat.orElse_zero, exists_delay]
      simp [Honoured, hx]
  | nan =>
      rw [PyFloat.maxZero, PyFloat.orElse_zero, exists_delay]
      simp [Honoured, hx]

/-- A header that is no number. -/
theorem honoured_text {raw : String} (hraw : raw ≠ "") (hx : C.toFloat raw = none) :
    (∃ delay, AskedDelay C received fallback (some raw) delay ∧
      submitDelay C received fallback (some raw) = .fin delay ∧ now + delay < datetimeEnd) ↔
      Honoured C received now fallback (some raw) := by
  cases hdate : C.parsedate raw with
  | none =>
      have hdelay : submitDelay C received fallback (some raw) = .fin 1 := by
        simp [submitDelay, extractRetryAfter, hx, hdate, PyFloat.orElse_fin]
      rw [hdelay, exists_delay]
      simp [AskedDelay, Honoured, hx, hdate]
  | some date =>
      have hdelay : submitDelay C received fallback (some raw) =
          (PyFloat.fin (max 0 (date - received))).orElse (.fin fallback) := by
        simp [submitDelay, extractRetryAfter, hx, hdate]
      rw [hdelay]
      by_cases hlate : received < date
      · have hpos : 0 < date - received := sub_pos.mpr hlate
        rw [max_eq_right hpos.le, PyFloat.orElse_fin hpos.ne', exists_delay]
        simp [AskedDelay, Honoured, hx, hdate, hlate, max_eq_right hpos.le]
      · have hneg : date - received ≤ 0 := sub_nonpos.mpr (not_lt.mp hlate)
        rw [max_eq_left hneg, PyFloat.orElse_zero, exists_delay]
        simp [AskedDelay, Honoured, hx, hdate, hlate, max_eq_left hneg]

/-- The code comes to the delay that is asked for exactly where the header is one of those it makes
right of. -/
theorem honoured_iff {header : Option String} :
    (∃ delay, AskedDelay C received fallback header delay ∧
      submitDelay C received fallback header = .fin delay ∧ now + delay < datetimeEnd) ↔
      Honoured C received now fallback header := by
  cases header with
  | none =>
      refine exists_delay.trans (and_congr_left fun _ => ?_)
      exact eq_comm
  | some raw =>
      by_cases hraw : raw = ""
      · subst hraw
        exact exists_delay.trans (iff_of_eq (true_and _))
      · cases hx : C.toFloat raw with
        | none => exact honoured_text hraw hx
        | some x => exact honoured_number hraw hx

end Delay

/-- **A 429 is answered as its header asks exactly where the header is there and asks for a delay
that is positive and not out of reach**, or the interval is a second. -/
theorem resubmits_iff {s : P.State} {read : ℚ≥0} {received now : Time} {w w' : World}
    {x : Except Exn Unit} {t : ResolvedTemplate} {strategy : Strategy} {secrets : List String}
    {r : HttpResponse} (h429 : r.statusCode = 429) (hrow : w.row.status ∈ submitSources)
    (ha : Alone (Prompt S P s read now) (handleSubmitResult C w.row t strategy
      (UpstreamClient.ofResponse C secrets .submit received r)) w x w') :
    (∃ delay, AskedDelay C received (fallbackDelay C S (P.stats read s w.row.channel))
        r.retryAfter delay ∧ ReleasedUntil w x w' (now + delay)) ↔
      Honoured C received now (fallbackDelay C S (P.stats read s w.row.channel)) r.retryAfter := by
  rw [← honoured_iff]
  have hend := ensured_throttled h429 hrow x w' ha
  refine exists_congr fun delay => and_congr_right fun _ => ?_
  constructor
  · intro h
    split at hend
    · rename_i next hnext
      obtain ⟨q, hq, hlt, rfl⟩ := later_eq_ok.mp hnext
      have hsame : now + delay = now + q :=
        Option.some.inj (h.nextPollAt.symm.trans hend.2.nextPollAt)
      cases add_left_cancel hsame
      exact ⟨hq, hlt⟩
    · rw [h.completed] at hend
      cases hend
  · rintro ⟨hdelay, hlt⟩
    rw [later_eq_ok.mpr ⟨delay, hdelay, hlt, rfl⟩] at hend
    exact ⟨hend.1, hend.2.status, hend.2.submitStartedAt, hend.2.nextPollAt, hlt⟩

/-! ### An answer of 429 with a header, and one without -/

section Sample

def throttledSample : Container :=
  { sampleContainer sampleTemplate with
    toFloat := fun raw => if raw = "7" then some (.fin 7) else none }

/-- A task whose create call is under way. -/
def submittingSample : AsyncTask := { sampleRow with submitStartedAt := some 0, attempts := 1 }

/-- The handler of the answer of 429 with that header. -/
def throttled (header : Option String) : Handler Unit :=
  handleSubmitResult throttledSample submittingSample sampleTemplate {}
    (UpstreamClient.ofResponse throttledSample [] .submit 0
      { statusCode := 429, retryAfter := header })

/-- The interval of a channel that has no statistics yet, and nothing else. -/
def unhurried : List Choice :=
  [.rat 5, .done, .done, .done, .done, .done].map fun reply => ⟨0, reply⟩

theorem baseInterval_start (channel : String) (elapsed : ℚ) (firstPoll : Bool) :
    (MemoryPolling.controller {}).baseInterval {} 0 (MemoryPolling.controller {}).start channel
      elapsed firstPoll = 5 := by
  have hcold : (PollSettings.statsOf {} []).warm = false := by
    simp [PollSettings.statsOf, Histogram.sorted, Histogram.total]
  have hinterval : PollSettings.computeInterval {} elapsed (PollSettings.statsOf {} []) firstPoll =
      5 := by
    rw [PollSettings.computeInterval, hcold]
    cases firstPoll with
    | true => norm_num [PollSettings.clamp]
    | false => norm_num [PollSettings.clamp]
  exact hinterval

theorem unhurried_prompt {γ : Choice} (hγ : γ ∈ unhurried) {o : Op} {w w' : World}
    {r : Except Exn o.Ans} (hr : respond w o γ = some (r, w')) :
    Prompt {} (MemoryPolling.controller {}) (MemoryPolling.controller {}).start 0 0 o γ := by
  obtain ⟨answer, hanswer, rfl⟩ := List.mem_map.mp hγ
  have hcases : answer = .rat 5 ∨ answer = .done := by simpa using hanswer
  rcases hcases with rfl | rfl
  · refine ⟨(fun _ h => nomatch h), fun _ => rfl, ?_⟩
    rintro channel elapsed firstPoll rfl
    rw [baseInterval_start]
  · refine ⟨(fun _ h => nomatch h), fun _ => rfl, ?_⟩
    rintro channel elapsed firstPoll rfl
    cases respond_eq_some hr

theorem throttled_alone {header : Option String}
    (h : (Prog.play respond (throttled header) unhurried ⟨submittingSample, 0⟩).isSome = true) :
    ∃ x, Alone (Prompt {} (MemoryPolling.controller {}) (MemoryPolling.controller {}).start 0 0)
      (throttled header) ⟨submittingSample, 0⟩ x
      (World.after ⟨submittingSample, 0⟩ (throttled header) unhurried) :=
  alone_after h fun _ hγ _ _ _ _ hr => unhurried_prompt hγ hr

/-- The interval that stands in for a header, for a channel that has no statistics. -/
theorem fallbackDelay_start : fallbackDelay throttledSample {}
    ((MemoryPolling.controller {}).stats 0 (MemoryPolling.controller {}).start
      submittingSample.channel) = 5 := by
  have hbase := baseInterval_start submittingSample.channel 0 true
  unfold PollingController.baseInterval at hbase
  rw [fallbackDelay, hbase]
  norm_num [throttledSample, sampleContainer]

theorem resubmits_sample : ∃ x w',
    (∃ delay, AskedDelay throttledSample 0 5 (some "7") delay ∧
        ReleasedUntil ⟨submittingSample, 0⟩ x w' (0 + delay)) ↔
      Honoured throttledSample 0 0 5 (some "7") := by
  obtain ⟨x, h⟩ := @throttled_alone (some "7") (by decide +kernel)
  have hiff := @resubmits_iff throttledSample {} (MemoryPolling.controller {})
    (MemoryPolling.controller {}).start 0 0 0 ⟨submittingSample, 0⟩ _ x sampleTemplate {} []
    { statusCode := 429, retryAfter := some "7" } rfl (by decide) h
  rw [fallbackDelay_start] at hiff
  exact ⟨x, _, hiff⟩

/-- Without a header the task is put off by a second, not by the interval. -/
theorem throttled_unasked : ∃ x w',
    Alone (Prompt {} (MemoryPolling.controller {}) (MemoryPolling.controller {}).start 0 0)
        (throttled none) ⟨submittingSample, 0⟩ x w' ∧
      w'.row.nextPollAt = some 1 ∧
      ¬ ∃ delay, AskedDelay throttledSample 0
          (fallbackDelay throttledSample {} ((MemoryPolling.controller {}).stats 0
            (MemoryPolling.controller {}).start submittingSample.channel)) none delay ∧
        ReleasedUntil ⟨submittingSample, 0⟩ x w' (0 + delay) := by
  obtain ⟨x, h⟩ := @throttled_alone none (by decide +kernel)
  have hnext : (World.after ⟨submittingSample, 0⟩ (throttled none) unhurried).row.nextPollAt =
      some 1 := by decide +kernel
  refine ⟨x, _, h, hnext, ?_⟩
  rintro ⟨delay, hasked, hreleased⟩
  have hdelay : delay = 5 := hasked.trans fallbackDelay_start
  have hsame : (0 : ℚ) + delay = 1 := Option.some.inj (hreleased.nextPollAt.symm.trans hnext)
  rw [hdelay] at hsame
  norm_num at hsame

end Sample

end AsyncGateway
