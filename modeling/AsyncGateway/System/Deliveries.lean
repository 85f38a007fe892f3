import AsyncGateway.System.Dedup

/-!
# System — the deliveries of callbacks

Any number of deliveries under way on one table of callbacks (`callbacks`), the same callback as
often as the upstream sends it, each failing or lost anywhere.  A delivery commits its row before
it applies the callback, and a later one that meets the row is answered 200 whatever became of the
first.  In a run that is `smooth`, an answer 200 comes after the callback was applied
(`callback_applied`).
-/

namespace AsyncGateway

open Interleave

/-! ### The pool of deliveries -/

/-- What the environment answers: any row for an operation of the application, and any task of the
endpoint. -/
inductive CallbackReply : Type where
  | done
  | fail (message : String)
  | verdict (verify : CallbackVerifyResult)
  | task (task : Option AsyncTask)
  | work (row : AsyncTask) (γ : Choice)

/-- The answer to an operation: the table answers for itself, and a counter does not fail. -/
def callbackRespond (R : Reception) (events : List CallbackRow) :
    (o : CallbackOp) → CallbackReply → Option (Except Exn o.Ans × List CallbackRow)
  | .count _, .done => some (.ok (), events)
  | .count _, _ => none
  | .insertCallbackEvent row _, .done => some (R.insert events row)
  | .verify, .verdict verify => some (.ok verify, events)
  | .findByCallbackToken token, .task task =>
      if task.all fun row => decide (row.callbackToken = some token) then some (.ok task, events)
      else none
  | .signatureFailed _ _, .done => some (.ok (), events)
  | .work o, .work row γ => (reply row o γ).map fun p => (p.1, events)
  | .respond _, .done => some (.ok (), events)
  | _, .fail message => some (.error (.infrastructure message), events)
  | _, _ => none

/-- The route, with its answer. -/
def deliver (R : Reception) (C : Container) (d : Delivery) : CallbackHandler Unit :=
  (R.receiveCallback C d).bind fun answer => askCallback (.respond answer)

/-- **The deliveries of callbacks.** -/
abbrev callbacks (R : Reception) (C : Container) : Machine callbackEffects Exn where
  Kind := Delivery
  body := deliver R C
  World := List CallbackRow
  Choice := CallbackReply
  respond := callbackRespond R

abbrev CallbackLog := List (Event callbackEffects Exn Delivery)

/-! ### What the log says of a delivery -/

/-- The delivery finds the task of its endpoint. -/
def finds (u : ℕ) : Event callbackEffects Exn Delivery → Bool
  | .act v (.findByCallbackToken _) (.ok (some _)) => decide (v = u)
  | _ => false

/-- The delivery that inserts a row, and the key of the row. -/
def insertion : Event callbackEffects Exn Delivery → Option (ℕ × String)
  | .act v (.insertCallbackEvent row _) (.ok true) => some (v, row.dedupKey)
  | _ => none

/-- The delivery comes to the end of `_apply_callback`. -/
def applies (u : ℕ) : Event callbackEffects Exn Delivery → Bool
  | .act v (.count result) _ => decide (v = u ∧ result = "applied")
  | _ => false

/-- The delivery stops for good. -/
def stops (u : ℕ) : Event callbackEffects Exn Delivery → Bool
  | .halt v => decide (v = u)
  | _ => false

/-- What the delivery delivers. -/
def brings (u : ℕ) : Event callbackEffects Exn Delivery → Option Delivery
  | .spawn v d => if v = u then some d else none
  | _ => none

section Log

variable (l : CallbackLog) (u : ℕ)

def known : Bool := l.any (finds u)

def completed : Bool := l.any (applies u)

def callbackOf : Option Delivery := l.findSome? (brings u)

/-- The delivery inserted its row for a task that is known, and did not come to the end of
`_apply_callback`. -/
def applying : Bool :=
  known l u && (l.any fun e => (insertion e).any fun p => decide (p.1 = u)) && !completed l u

/-- `_apply_callback` has run to completion for the callback. -/
def HasRun (d : Delivery) : Prop := ∃ u, callbackOf l u = some d ∧ completed l u = true

end Log

/-- No delivery stops while it applies its callback; and where one finds its key there, whoever
inserted it did so for the same callback and a known task, and is not applying it any more. -/
def smooth : CallbackLog → Prop
  | [] => True
  | e :: l => smooth l ∧ match e with
    | .halt u => applying l u = false
    | .act v (.insertCallbackEvent row _) (.ok false) =>
        ∀ e ∈ l, ∀ u, insertion e = some (u, row.dedupKey) →
          known l u = true ∧ callbackOf l u = callbackOf l v ∧
            (applying l u = true → l.any (stops u) = true)
    | _ => True

/-! ### What a delivery may answer -/

/-- What is known of a delivery: whether it found its task, whether it applied the callback, and
whether it was refused as a duplicate. -/
structure Handling where
  known : Bool := false
  applied : Bool := false
  refused : Bool := false
  halted : Bool := false

namespace Handling

variable (m : Handling)

/-- A delivery for a known task answers 200 where it applied the callback or was refused. -/
def Allows : CallbackOp → Prop
  | .respond answer =>
      answer.status = 200 → m.known = true → m.applied = true ∨ m.refused = true
  | _ => True

def next : (o : CallbackOp) → Except Exn o.Ans → Handling
  | .findByCallbackToken _, .ok (task : Option AsyncTask) =>
      { m with known := m.known || task.isSome }
  | .insertCallbackEvent _ _, .ok (fresh : Bool) => { m with refused := m.refused || !fresh }
  | .count result, .ok _ => { m with applied := m.applied || decide (result = "applied") }
  | _, _ => m

end Handling

/-- **The rules of a delivery.** -/
def handling : Protocol callbackEffects Exn Delivery where
  State := Handling
  start _ := {}
  idle := {}
  gone m := { m with halted := true }
  allows m o := m.halted = false ∧ m.Allows o
  next := Handling.next
  done _ := True
  done_idle := trivial
  done_gone _ := trivial

section Follows

variable {R : Reception} {C : Container} {d : Delivery}

theorem steady_working {α : Type} (p : Handler α) {m : Handling} (hm : m.halted = false) :
    Steady handling (working p) m :=
  .lift p (fun _ => ⟨hm, trivial⟩) fun _ _ => rfl

/-- What a delivery may answer. -/
def Handling.Answers (m : Handling) (answer : HttpAnswer) : Prop :=
  m.halted = false ∧ m.Allows (.respond answer)

theorem answers_applyFresh {payload : Json} {reading : CallbackReading} {task : Option AsyncTask}
    {m : Handling} (hm : m.halted = false) (hk : m.known = true → task.isSome = true) :
    Leads handling (Reception.applyFresh C payload reading task) m fun answer m' =>
      m'.Answers answer := by
  cases task with
  | none =>
      refine .bind (.perform ⟨hm, trivial⟩ fun _ => .pure ⟨hm, fun _ h => ?_⟩)
      exact nomatch hk h
  | some task =>
      refine .bind_steady (steady_working _ hm) fun _ => ?_
      refine .bind (.perform ⟨hm, trivial⟩ fun _ => .pure ⟨hm, fun _ _ => .inl ?_⟩)
      exact Bool.or_eq_true_iff.mpr (.inr rfl)

theorem answers_receiveVerified {verify : CallbackVerifyResult} :
    Leads handling (R.receiveVerified C d verify) {} fun answer m => m.Answers answer := by
  refine .bind_ofExcept fun payload _ => .bind (.perform ⟨rfl, trivial⟩ fun task => ?_)
  refine .bind_ofExcept fun reading _ => .bind (.perform ⟨rfl, trivial⟩ fun (fresh : Bool) => ?_)
  cases fresh with
  | true => exact answers_applyFresh rfl fun h => h
  | false => exact .bind (.perform ⟨rfl, trivial⟩ fun _ => .pure ⟨rfl, fun _ _ => .inr rfl⟩)

theorem follows_deliver (d : Delivery) :
    Follows handling (deliver R C d) (handling.start d) := by
  have answers : Leads handling (R.receiveCallback C d) {} fun answer m => m.Answers answer := by
    refine .bind (.perform ⟨rfl, trivial⟩ fun (verify : CallbackVerifyResult) => .ite (fun _ =>
      answers_receiveVerified) fun _ => ?_)
    exact .bind (.perform ⟨rfl, trivial⟩ fun _ => .pure ⟨rfl, fun h => absurd h (by decide)⟩)
  exact .bind (answers.mono fun answer m ha => .perform ha fun _ => trivial)

end Follows

/-! ### What holds in a smooth run -/

section Sound

variable {e : Event callbackEffects Exn Delivery} {l : CallbackLog} {u : ℕ}

theorem finds_of_ne (h : e.thread ≠ u) : finds u e = false := by
  unfold finds
  split
  · exact decide_eq_false h
  · rfl

theorem applies_of_ne (h : e.thread ≠ u) : applies u e = false := by
  unfold applies
  split
  · exact decide_eq_false fun hv => h hv.1
  · rfl

theorem stops_of_ne (h : e.thread ≠ u) : stops u e = false := by
  unfold stops
  split
  · exact decide_eq_false h
  · rfl

theorem brings_of_ne (h : e.thread ≠ u) : brings u e = none := by
  unfold brings
  split
  · exact if_neg h
  · rfl

theorem insertion_thread {key : String} (h : insertion e = some (u, key)) : e.thread = u := by
  unfold insertion at h
  split at h
  · cases h
    rfl
  · cases h

theorem known_cons_of_ne (h : e.thread ≠ u) : known (e :: l) u = known l u := by
  rw [known, List.any_cons, finds_of_ne h, Bool.false_or, known]

theorem completed_cons_of_ne (h : e.thread ≠ u) : completed (e :: l) u = completed l u := by
  rw [completed, List.any_cons, applies_of_ne h, Bool.false_or, completed]

theorem callbackOf_cons_of_ne (h : e.thread ≠ u) : callbackOf (e :: l) u = callbackOf l u := by
  rw [callbackOf, List.findSome?_cons, brings_of_ne h, callbackOf]

theorem applying_cons_of_ne (h : e.thread ≠ u) : applying (e :: l) u = applying l u := by
  have inserts : (insertion e).any (fun p => decide (p.1 = u)) = false := by
    cases hi : insertion e with
    | none => rfl
    | some p => exact decide_eq_false fun hp => h (hp ▸ insertion_thread hi)
  rw [applying, known_cons_of_ne h, completed_cons_of_ne h, List.any_cons, inserts, Bool.false_or,
    applying]

/-- A delivery that did not start has no event. -/
theorem callbackOf_of_fresh (h : ∀ e ∈ l, e.thread ≠ u) : callbackOf l u = none := by
  refine List.findSome?_eq_none_iff.mpr fun e he => ?_
  exact brings_of_ne (h e he)

/-- What a delivery delivers is told once. -/
theorem HasRun.cons {d : Delivery} (h : HasRun l d)
    (he : ∀ u, callbackOf l u = some d → callbackOf (e :: l) u = some d) : HasRun (e :: l) d := by
  obtain ⟨u, hd, hu⟩ := h
  exact ⟨u, he u hd, by rw [completed, List.any_cons, ← completed, hu, Bool.or_true]⟩

/-- A delivery that inserted its row for a known task, and is not applying it, applied it. -/
theorem completed_of_insertion {key : String} (hk : known l u = true) (he : e ∈ l)
    (hi : insertion e = some (u, key)) (ha : applying l u = false) : completed l u = true := by
  have inserted : (l.any fun e => (insertion e).any fun p => decide (p.1 = u)) = true :=
    List.any_eq_true.mpr ⟨e, he, by simp [hi]⟩
  rw [applying, hk, inserted] at ha
  simpa using ha

end Sound

/-- What is known of delivery `u` after the log. -/
abbrev handled (R : Reception) (C : Container) (l : CallbackLog) (u : ℕ) : Handling :=
  handling.after (M := callbacks R C) l u

/-- What the log says of delivery `u` in a smooth run. -/
structure SoundOf (R : Reception) (C : Container) (l : CallbackLog) (u : ℕ) : Prop where
  known : AsyncGateway.known l u = true → (handled R C l u).known = true
  halted : l.any (stops u) = true → (handled R C l u).halted = true ∧ applying l u = false
  applied : (handled R C l u).applied = true → completed l u = true
  refused : ∀ d, (handled R C l u).refused = true → callbackOf l u = some d → HasRun l d

/-- What holds in every smooth run. -/
structure Sound (R : Reception) (C : Container) (events : List CallbackRow) (l : CallbackLog) :
    Prop where
  each : ∀ u, SoundOf R C l u
  keys : ∀ row ∈ events, ∃ e ∈ l, ∃ u, insertion e = some (u, row.dedupKey)
  answered : ∀ u answer r before, .act u (.respond answer) r :: before <:+ l →
    answer.status = 200 → AsyncGateway.known before u = true → ∀ d, callbackOf before u = some d →
      HasRun before d

section Next

variable {m : Handling} {t : ℕ} {o : CallbackOp} {r : Except Exn o.Ans}

theorem next_known (h : finds t (.act t o r) = true ∨ m.known = true) :
    (m.next o r).known = true := by
  cases o with
  | findByCallbackToken token =>
      cases r with
      | error x => exact h.resolve_left (by simp [finds])
      | ok task =>
          change (m.known || Option.isSome task) = true
          cases task with
          | none => simpa using h.resolve_left (by simp [finds])
          | some row => simp
  | insertCallbackEvent row orphan => cases r <;> exact h.resolve_left (by simp [finds])
  | count result => cases r <;> exact h.resolve_left (by simp [finds])
  | _ => exact h.resolve_left (by simp [finds])

theorem next_applied (h : (m.next o r).applied = true) :
    m.applied = true ∨ applies t (.act t o r) = true := by
  cases o with
  | findByCallbackToken token => cases r <;> exact .inl h
  | insertCallbackEvent row orphan => cases r <;> exact .inl h
  | count result =>
      cases r with
      | error x => exact .inl h
      | ok a => simpa [Handling.next, applies] using h
  | _ => exact .inl h

theorem next_refused (h : (m.next o r).refused = true) :
    m.refused = true ∨ ∃ row orphan, (.act t o r : Event callbackEffects Exn Delivery) =
      .act t (.insertCallbackEvent row orphan) (.ok false) := by
  cases o with
  | findByCallbackToken token => cases r <;> exact .inl h
  | insertCallbackEvent row orphan =>
      cases r with
      | error x => exact .inl h
      | ok fresh =>
          change (m.refused || !(fresh : Bool)) = true at h
          cases fresh with
          | true => exact .inl (by simpa using h)
          | false => exact .inr ⟨row, orphan, rfl⟩
  | count result => cases r <;> exact .inl h
  | _ => exact .inl h

/-- The table changes where a row is inserted, and a delivery is refused where its key is there. -/
theorem respond_events {R : Reception} {events events' : List CallbackRow} {γ : CallbackReply}
    (h : callbackRespond R events o γ = some (r, events')) :
    (∀ row ∈ events', row ∈ events ∨
      insertion (.act t o r : Event callbackEffects Exn Delivery) = some (t, row.dedupKey)) ∧
      ∀ row orphan, (.act t o r : Event callbackEffects Exn Delivery) =
          .act t (.insertCallbackEvent row orphan) (.ok false) →
        ∃ row' ∈ events, row'.dedupKey = row.dedupKey := by
  by_cases ho : ∃ row orphan, o = .insertCallbackEvent row orphan
  · obtain ⟨row, orphan, rfl⟩ := ho
    cases γ with
    | done =>
        have hins : R.insert events row = (r, events') := Option.some.inj h
        unfold Reception.insert at hins
        split at hins
        · cases hins
          exact ⟨fun row hrow => .inl hrow, fun _ _ he => nomatch he⟩
        · split at hins
          · rename_i hany
            cases hins
            refine ⟨fun row hrow => .inl hrow, fun _ _ he => ?_⟩
            cases he
            simpa using hany
          · cases hins
            refine ⟨fun row' hrow => ?_, fun _ _ he => nomatch he⟩
            rcases List.mem_cons.mp hrow with rfl | hrow
            · exact .inr rfl
            · exact .inl hrow
    | fail message =>
        cases h
        exact ⟨fun row hrow => .inl hrow, fun _ _ he => nomatch he⟩
    | _ => cases h
  · -- no other operation touches the table
    have same : events' = events := by
      cases o with
      | insertCallbackEvent row orphan => exact absurd ⟨row, orphan, rfl⟩ ho
      | findByCallbackToken token =>
          cases γ <;> simp only [callbackRespond] at h <;> try cases h
          · rfl
          · split at h <;> cases h
            rfl
      | work o =>
          cases γ <;> simp only [callbackRespond] at h <;> try cases h
          · rfl
          · obtain ⟨p, -, he⟩ := Option.map_eq_some_iff.mp h
            cases he
            rfl
      | _ => cases γ <;> cases h <;> rfl
    refine ⟨fun row hrow => .inl (same ▸ hrow), fun row orphan he => ?_⟩
    cases he
    exact absurd ⟨row, orphan, rfl⟩ ho

end Next

section Steps

variable {R : Reception} {C : Container} {events events' : List CallbackRow} {l : CallbackLog}
  {t : ℕ} {o : CallbackOp} {γ : CallbackReply} {r : Except Exn o.Ans}

theorem handled_of_ne {e : Event callbackEffects Exn Delivery} {u : ℕ} (h : e.thread ≠ u) :
    handled R C (e :: l) u = handled R C l u := Protocol.after_of_ne (Ne.symm h)

@[simp] theorem handled_spawn {d : Delivery} : handled R C (.spawn t d :: l) t = {} := if_pos rfl

@[simp] theorem handled_halt :
    handled R C (.halt t :: l) t = { handled R C l t with halted := true } := if_pos rfl

@[simp] theorem handled_act :
    handled R C (.act t o r :: l) t = (handled R C l t).next o r := if_pos rfl

/-- An event is sound where the delivery it is of is sound after it, and what it puts into the table
and answers is. -/
theorem Sound.cons (h : Sound R C events l) {e : Event callbackEffects Exn Delivery}
    (hd : ∀ u d, callbackOf l u = some d → callbackOf (e :: l) u = some d)
    (hown : SoundOf R C (e :: l) e.thread)
    (hkeys : ∀ row ∈ events', row ∈ events ∨ ∃ u, insertion e = some (u, row.dedupKey))
    (hanswer : ∀ u answer r, e = .act u (.respond answer) r → answer.status = 200 →
      AsyncGateway.known l u = true → ∀ d, callbackOf l u = some d → HasRun l d) :
    Sound R C events' (e :: l) := by
  refine ⟨fun u => ?_, fun row hrow => ?_, ?_⟩
  · by_cases hu : e.thread = u
    · exact hu ▸ hown
    · -- nothing that is read of another delivery changes
      have hu' := h.each u
      refine ⟨?_, ?_, ?_, fun d => ?_⟩
      · rw [known_cons_of_ne hu, handled_of_ne hu]
        exact hu'.known
      · rw [List.any_cons, stops_of_ne hu, Bool.false_or, handled_of_ne hu, applying_cons_of_ne hu]
        exact hu'.halted
      · rw [completed_cons_of_ne hu, handled_of_ne hu]
        exact hu'.applied
      · rw [callbackOf_cons_of_ne hu, handled_of_ne hu]
        exact fun hr hc => (hu'.refused d hr hc).cons fun v => hd v d
  · rcases hkeys row hrow with hrow | ⟨u, hu⟩
    · obtain ⟨e', he', hu⟩ := h.keys row hrow
      exact ⟨e', List.mem_cons_of_mem _ he', hu⟩
    · exact ⟨e, List.mem_cons_self, u, hu⟩
  · intro u answer r before hsuffix
    rcases List.suffix_cons_iff.mp hsuffix with he | hsuffix
    · obtain ⟨hev, rfl⟩ := List.cons.inj he
      exact hanswer u answer r hev.symm
    · exact h.answered u answer r before hsuffix

theorem Sound.spawn {d : Delivery} (h : Sound R C events l) (hf : ∀ e ∈ l, e.thread ≠ t) :
    Sound R C events (.spawn t d :: l) := by
  have hnone := callbackOf_of_fresh hf
  have hfinds : known l t = false :=
    List.any_eq_false.mpr fun e he => by simp [finds_of_ne (hf e he)]
  have hstops : l.any (stops t) = false :=
    List.any_eq_false.mpr fun e he => by simp [stops_of_ne (hf e he)]
  refine h.cons (fun u d' hc => ?_) ⟨fun hk => ?_, fun hs => ?_, fun ha => ?_, fun d' hr => ?_⟩
    (fun row hrow => .inl hrow) nofun
  · by_cases hu : t = u
    · -- a name that is new delivers nothing yet
      rw [← hu, hnone] at hc
      cases hc
    · have hne : (Event.spawn t d : Event callbackEffects Exn Delivery).thread ≠ u := hu
      rwa [callbackOf_cons_of_ne hne]
  · cases hfinds.symm.trans hk
  · cases hstops.symm.trans hs
  · exact absurd ha (by rw [Event.thread, handled_spawn]; decide)
  · exact absurd hr (by rw [Event.thread, handled_spawn]; decide)

theorem Sound.halt (h : Sound R C events l) (hs : applying l t = false) :
    Sound R C events (.halt t :: l) := by
  have ht := h.each t
  refine h.cons (fun u d hc => hc) ⟨fun hk => ?_, fun _ => ?_, fun ha => ?_, fun d hr hc => ?_⟩
    (fun row hrow => .inl hrow) nofun
  · rw [Event.thread, handled_halt]
    exact ht.known hk
  · rw [Event.thread, handled_halt]
    exact ⟨rfl, hs⟩
  · rw [Event.thread, handled_halt] at ha
    exact ht.applied ha
  · rw [Event.thread, handled_halt] at hr
    exact (ht.refused d hr hc).cons fun u hu => hu

theorem Sound.act (h : Sound R C events l) (ha : handling.allows (handled R C l t) o)
    (hw : callbackRespond R events o γ = some (r, events')) (hs : smooth (.act t o r :: l)) :
    Sound R C events' (.act t o r :: l) := by
  have ht := h.each t
  obtain ⟨hhalted, hallows⟩ := ha
  have brings : ∀ u d, callbackOf l u = some d → callbackOf (.act t o r :: l) u = some d :=
    fun _ _ hc => hc
  obtain ⟨htable, hrefusal⟩ := respond_events (t := t) hw
  refine h.cons brings ⟨fun hk => ?_, fun hst => ?_, fun ha => ?_, fun d hr hc => ?_⟩
    (fun row hrow => (htable row hrow).imp id fun hi => ⟨t, hi⟩)
    fun u answer r' he h200 hk d hc => ?_
  · rw [Event.thread, handled_act]
    exact next_known ((Bool.or_eq_true_iff.mp hk).imp id ht.known)
  · rw [(ht.halted hst).1] at hhalted
    cases hhalted
  · rw [Event.thread, handled_act] at ha
    exact Bool.or_eq_true_iff.mpr ((next_applied ha).symm.imp id ht.applied)
  · rw [Event.thread, handled_act] at hr
    rcases next_refused (t := t) hr with hr | ⟨row, orphan, he⟩
    · exact (ht.refused d hr hc).cons fun v => brings v d
    · -- whoever inserted the key applied the callback
      obtain ⟨row', hrow', hkey⟩ := hrefusal row orphan he
      obtain ⟨e, hmem, u, hi⟩ := h.keys row' hrow'
      rw [he] at hs
      obtain ⟨hknown, hsame, hover⟩ := hs.2 e hmem u (hkey ▸ hi)
      have hdone : applying l u = false := by
        cases hap : applying l u with
        | false => rfl
        | true => exact hap.symm.trans ((h.each u).halted (hover hap)).2
      have hrun : HasRun l d := ⟨u, hsame.trans hc, completed_of_insertion hknown hmem hi hdone⟩
      exact hrun.cons fun v => brings v d
  · cases he
    rcases hallows h200 (ht.known hk) with ha | hr
    · exact ⟨t, hc, ht.applied ha⟩
    · exact ht.refused d hr hc

end Steps

/-- **In a smooth run a delivery for a known task that is answered 200 is of a callback that was
applied.** -/
theorem callback_applied {R : Reception} {C : Container} {c : Config (callbacks R C)}
    (h : Run (callbacks R C).anything ((callbacks R C).initial []) c) (hs : smooth c.log) :
    ∀ u answer r before, .act u (.respond answer) r :: before <:+ c.log → answer.status = 200 →
      known before u = true → ∀ d, callbackOf before u = some d → HasRun before d := by
  have sound := Run.invariant (M := callbacks R C) (P := handling)
    (fun events l => smooth l → Sound R C events l) follows_deliver (Keeps.initial [])
    (fun _ => ⟨fun u => ⟨nofun, nofun, nofun, nofun⟩, nofun, fun _ _ _ _ hb =>
      absurd (List.suffix_nil.mp hb) (List.cons_ne_nil _ _)⟩)
    (fun _ _ _ _ hf h hs => (h hs.1).spawn hf)
    (fun _ _ _ _ _ _ _ h ha hw _ hs => (h hs.1).act ha hw hs)
    (fun _ _ _ h hs => (h hs.1).halt hs.2) h
  exact (sound hs).answered

/-! ### A callback that is sent twice -/

section Sample

abbrev SampleCallbacks := callbacks sampleReception (sampleContainer sampleTemplate)

def sampleDelivery : Delivery := { opaqueToken := "a", raw := sampleRaw }

/-- The signature is right, and the endpoint is that of a task. -/
def arrives : List CallbackReply :=
  [.verdict { ok := true, kid := some "kid" },
    .task (some { sampleRow with callbackToken := some "a", status := .upstreamSubmitted })]

/-- Delivery `u` comes to its insert, and is answered so from there on. -/
def delivering (u : ℕ) (replies : List CallbackReply) : List (Move SampleCallbacks) :=
  .spawn sampleDelivery :: (arrives ++ replies).map fun reply => .act u reply

/-- The run has an answer 200 of the delivery, to the sample callback for a known task. -/
def Answers200 (l : CallbackLog) (u : ℕ) : Prop :=
  ∃ answer before, .act u (.respond answer) (.ok ()) :: before <:+ l ∧ answer.status = 200 ∧
    known before u = true ∧ callbackOf before u = some sampleDelivery

/-- The first delivery meets a database that is down once its row is there; the second is answered
200, and the callback is never applied. -/
theorem callback_dropped : ∃ c : Config SampleCallbacks,
    Run SampleCallbacks.anything (SampleCallbacks.initial []) c ∧ Answers200 c.log 1 ∧
      ¬ HasRun c.log sampleDelivery := by
  have reached : ∃ c : Config SampleCallbacks, (SampleCallbacks.initial []).exec
      (fun _ _ _ _ _ => true) (delivering 0 [.done, .work sampleRow ⟨0, .fail "down"⟩] ++
        delivering 1 [.done, .done, .done]) = some c ∧
      (∃ before, c.log = .act 1 (.respond duplicateAnswer) (.ok ()) :: before ∧
        known before 1 = true ∧ callbackOf before 1 = some sampleDelivery) ∧
      c.log.all (fun e => !applies e.thread e) = true := ⟨_, rfl, ⟨_, rfl, rfl, rfl⟩, rfl⟩
  obtain ⟨c, hc, ⟨before, hlog, hk, hd⟩, hnone⟩ := reached
  refine ⟨c, Run.of_exec (fun _ _ _ _ _ _ => trivial) hc,
    ⟨duplicateAnswer, before, hlog ▸ List.suffix_refl _, rfl, hk, hd⟩, ?_⟩
  rintro ⟨u, -, hu⟩
  obtain ⟨e, he, hap⟩ := List.any_eq_true.mp hu
  have hthread : e.thread = u := Classical.byContradiction fun hne =>
    Bool.false_ne_true ((applies_of_ne hne).symm.trans hap)
  have hno := List.all_eq_true.mp hnone e he
  rw [hthread, hap] at hno
  cases hno

/-- A check that a log is smooth. -/
def plainlySmooth : CallbackLog → Bool
  | [] => true
  | e :: l => plainlySmooth l && match e with
    | .halt u => !applying l u
    | .act v (.insertCallbackEvent row _) (.ok false) => l.all fun e => (insertion e).all fun p =>
        decide (p.2 ≠ row.dedupKey) ||
          (known l p.1 && decide (callbackOf l p.1 = callbackOf l v) && !applying l p.1)
    | _ => true

theorem smooth_of_plainly {l : CallbackLog} (h : plainlySmooth l = true) : smooth l := by
  induction l with
  | nil => trivial
  | cons e l ih =>
      obtain ⟨hl, he⟩ := Bool.and_eq_true_iff.mp h
      refine ⟨ih hl, ?_⟩
      split
      · simpa using he
      · rename_i v row orphan
        intro e he' u hi
        have hp := List.all_eq_true.mp he e he'
        rw [hi] at hp
        have hp' : (known l u = true ∧ callbackOf l u = callbackOf l v) ∧ applying l u = false := by
          simpa using hp
        exact ⟨hp'.1.1, hp'.1.2, fun ha => nomatch hp'.2.symm.trans ha⟩
      · trivial

/-- The first delivery applies the callback, so the second is of a callback that was applied. -/
theorem callback_applied_sample : ∃ c : Config SampleCallbacks,
    Run SampleCallbacks.anything (SampleCallbacks.initial []) c ∧ Answers200 c.log 1 ∧
      HasRun c.log sampleDelivery := by
  have reached : ∃ c : Config SampleCallbacks, (SampleCallbacks.initial []).exec
      (fun _ _ _ _ _ => true)
      (delivering 0 [.done, .work { sampleRow with status := .succeeded } ⟨0, .done⟩,
        .work sampleRow ⟨0, .done⟩, .done, .done] ++ delivering 1 [.done, .done, .done]) = some c ∧
      (∃ before, c.log = .act 1 (.respond duplicateAnswer) (.ok ()) :: before ∧
        known before 1 = true ∧ callbackOf before 1 = some sampleDelivery) ∧ smooth c.log :=
    ⟨_, rfl, ⟨_, rfl, rfl, rfl⟩, smooth_of_plainly rfl⟩
  obtain ⟨c, hc, ⟨before, hlog, hk, hd⟩, hsmooth⟩ := reached
  have run : Run SampleCallbacks.anything (SampleCallbacks.initial []) c :=
    Run.of_exec (fun _ _ _ _ _ _ => trivial) hc
  have suffix : .act 1 (.respond duplicateAnswer) (.ok ()) :: before <:+ c.log :=
    hlog ▸ List.suffix_refl _
  have hrun := callback_applied run hsmooth 1 _ _ before suffix rfl hk sampleDelivery hd
  refine ⟨c, run, ⟨_, before, suffix, rfl, hk, hd⟩, ?_⟩
  rw [hlog]
  exact hrun.cons fun _ h => h

end Sample

end AsyncGateway
