import AsyncGateway.System.Rows

/-!
# System — the end of a task

What follows the write that ends a task: its credential is dropped, and one terminal audit event
says as what it ended.  A handler follows its write through to both (`Ending`); at most one handler
is ever at it, since a terminal row moves no more (`Tally`).  That the credential is dropped and
the event written only for a row that has ended, and as the row says, holds as long as nothing is
finalized whose write missed, and nothing is ended by the ticks, which finalize nothing
(`finalisation`).
-/

namespace AsyncGateway

open TaskStatus
open Interleave

variable {C : Container} {t : ResolvedTemplate} {row row' : AsyncTask}

/-! ### What the log says of the end -/

/-- A terminal audit event was written. -/
def isTerminalAudit : Happening → Bool
  | .act _ (.audit event) (.ok _) => decide (event.eventType = .terminal)
  | _ => false

def terminalAudits (l : Log) : ℕ := l.countP isTerminalAudit

/-- Handler `u` dropped the credential. -/
def drops (u : ℕ) : Happening → Bool
  | .act v .dropCredential (.ok _) => decide (v = u)
  | _ => false

/-- Handler `u` made the write that ended the task. -/
def endsTask (u : ℕ) (e : Happening) : Bool :=
  (hit e).any DaoOp.ends && decide (e.thread = u)

/-- Handler `u` ended the task, and has not dropped the credential since. -/
def owes (u : ℕ) : Log → Bool
  | [] => false
  | e :: l => endsTask u e || !drops u e && owes u l

/-- **The end of a task is finalized as it was made**: no handler takes a write for made that
missed, the ticks and the operator end no task, no task that has ended is moved, and nothing fails
between the end of a task and the drop of its credential. -/
def finalizesWell (C : Container) (t : ResolvedTemplate) : (gateway C t).Condition :=
  fun w l u o r =>
    (∀ op also, (.act u o r : Happening) = .act u (.apply op also) (.ok false) →
      presumes C (book C t l u).loaded op = false) ∧
    ((hit (.act u o r)).any DaoOp.ends = true →
      (book C t l u).finalizes = true ∧ w.row.status ∉ businessTerminal) ∧
    ∀ x s, r = .error x → (book C t l u).ending ≠ .due s

/-! ### What a write does to the end -/

/-- A write that hit ended the task, or left it as far from its end as it was. -/
theorem Change.ending {op : DaoOp} (h : Change row row' op) :
    (∃ expected values, op = .advance row'.status expected values ∧
        row'.status ∈ businessTerminal) ∨
      op.ends = false ∧ (row'.status ∈ businessTerminal ∨ row.status ∈ businessTerminal →
        row'.status = row.status) := by
  have same : row'.status = row.status → row'.status ∈ businessTerminal ∨
      row.status ∈ businessTerminal → row'.status = row.status := fun he _ => he
  have active : ∀ {s s' : TaskStatus}, row.status = s → row'.status = s' →
      s ∉ businessTerminal → s' ∉ businessTerminal →
      row'.status ∈ businessTerminal ∨ row.status ∈ businessTerminal →
        row'.status = row.status := by
    rintro s s' rfl rfl hs hs' (hm | hm)
    · exact absurd hm hs'
    · exact absurd hm hs
  cases h with
  | claimed src unclaimed dst submission reported =>
      exact .inr ⟨rfl, active src dst (by decide) (by decide)⟩
  | submitted src held dst submission reported =>
      exact .inr ⟨rfl, active src dst (by decide) (by decide)⟩
  | released src dst submission reported => exact .inr ⟨rfl, same dst⟩
  | reopened src dst submission reported =>
      exact .inr ⟨rfl, active src dst (by decide) (by decide)⟩
  | @moved target expected values edge src dst closed submission reported =>
      by_cases ht : target ∈ businessTerminal
      · exact .inl ⟨expected, values, by rw [dst], dst ▸ ht⟩
      · -- the whitelist leaves no terminal state
        refine .inr ⟨decide_eq_false ht, ?_⟩
        rintro (hm | hm)
        · exact absurd (dst ▸ hm) ht
        · obtain ⟨-, rfl⟩ := edge_of_terminal hm edge
          exact absurd (by decide) ht
  | doubted src dst submission reported =>
      exact .inr ⟨rfl, active src dst (by decide) (by decide)⟩
  | relocated src given dst submission reported =>
      exact .inr ⟨rfl, active src dst (by decide) (by decide)⟩
  | flagged src dst submission reported => exact .inr ⟨rfl, same dst⟩
  | recorded src dst submission reported => exact .inr ⟨rfl, same dst⟩
  | kept still dst submission reported =>
      refine .inr ⟨?_, same dst⟩
      cases op <;> first | rfl | cases still

/-! ### What a handler does about the end -/

/-- How an operation that ends nothing moves a handler on. -/
inductive Onward (u : ℕ) (e : Happening) (b b' : Ending) : Prop where
  | stays (ending : b' = b) (audit : isTerminalAudit e = false)
      (drop : drops u e = true → ∀ s, b ≠ .due s) : Onward u e b b'
  | drops {s : TaskStatus} (was : b = .due s) (ending : b' = .dropped s)
      (audit : isTerminalAudit e = false) (drop : drops u e = true) : Onward u e b b'
  | audits {s : TaskStatus} (was : b = .dropped s) (ending : b' = .audited)
      (audit : isTerminalAudit e = true) : Onward u e b b'

/-- A handler that is shown the task it ended. -/
theorem shown_of_terminal {b : Book} {row : AsyncTask} (hsame : b.sameTemplate row = true)
    (h : ∀ s, b.ending = .due s → row.status ∈ businessTerminal) :
    b.shown (some row) = b.ending := by
  unfold Book.shown
  split
  · next s hs => simp [isBusinessTerminal, h s hs, hsame, hs]
  · rfl

theorem Book.onward {b : Book} {u : ℕ} {o : Op} {γ : Choice} {r : Except Exn o.Ans}
    (hb : b.Allows o) (hr : reply row o γ = some (r, row'))
    (hends : (hit (.act u o r)).any DaoOp.ends = false)
    (hmiss : ∀ op also, (.act u o r : Happening) = .act u (.apply op also) (.ok false) →
      presumes C b.loaded op = false)
    (hfail : ∀ x s, r = .error x → b.ending ≠ .due s) (hfirm : ∀ s, b.ending ≠ .presumed s)
    (hrow : ∀ s, b.ending = .due s → row.status ∈ businessTerminal)
    (hsame : b.sameTemplate row = true) :
    Onward u (.act u o r) b.ending (b.next C o r).ending := by
  rcases r with x | a
  · -- a failure hinders only who owes the end of a task, and this handler owes none
    have hh : b.ending.hinder = b.ending := by
      cases he : b.ending with
      | due s => exact absurd he (hfail x s rfl)
      | presumed s => exact absurd he (hfirm s)
      | _ => rfl
    refine .stays (by cases o <;> exact hh) ?_ ?_ <;> cases o <;> simp [isTerminalAudit, drops]
  · cases o with
    | load =>
        obtain ⟨x, hx⟩ | hx := reply_load hr <;> cases hx
        exact .stays (shown_of_terminal hsame hrow) rfl (by simp [AsyncGateway.drops])
    | findTask channel identifier =>
        have hs : b.ending.settled = true := hb
        exact .stays (shown_of_settled hs _) rfl (by simp [AsyncGateway.drops])
    | apply op also =>
        refine .stays ?_ rfl (by simp [AsyncGateway.drops])
        cases a with
        | true =>
            have hop : op.ends = false := hends
            cases op with
            | advance dst expected values =>
                have hd : isBusinessTerminal dst = false := hop
                simp [Book.next, hd]
            | _ => rfl
        | false =>
            have hp := hmiss op also rfl
            cases op with
            | advance dst expected values => simp [Book.next, hp]
            | _ => rfl
    | dropCredential =>
        cases he : b.ending with
        | due s => exact .drops rfl (by simp [Book.next, he]) rfl (by simp [AsyncGateway.drops])
        | presumed s => exact absurd he (hfirm s)
        | _ => exact .stays (by simp [Book.next, he]) rfl (by simp)
    | audit event =>
        by_cases ht : event.eventType = .terminal
        · obtain ⟨s, hs, -⟩ := hb ht
          exact .audits hs (by simp [Book.next, ht]) (decide_eq_true ht)
        · exact .stays (by simp [Book.next, ht]) (decide_eq_false ht)
            (by simp [AsyncGateway.drops])
    | _ => exact .stays rfl rfl (by simp [AsyncGateway.drops])

/-- The row a handler loaded is the one it is shown, or the one it had. -/
theorem Book.loaded_next {b : Book} {o : Op} {γ : Choice} {r : Except Exn o.Ans}
    (hr : reply row o γ = some (r, row')) {p : AsyncTask → Bool}
    (h : (b.next C o r).loaded.any p = true) : b.loaded.any p = true ∨ p row = true := by
  by_cases hl : o = .load
  · subst hl
    obtain ⟨x, rfl⟩ | rfl := reply_load hr
    · exact .inl h
    · exact .inr h
  by_cases hf : ∃ channel identifier, o = .findTask channel identifier
  · obtain ⟨channel, identifier, rfl⟩ := hf
    obtain ⟨x, rfl⟩ | rfl | rfl := reply_findTask hr
    · exact .inl h
    · cases h
    · exact .inr h
  · refine .inl (h ▸ congrArg (Option.any p) ?_)
    unfold Book.next
    split <;> first | rfl | exact absurd rfl hl | exact absurd ⟨_, _, rfl⟩ hf | (split <;> rfl)

/-- An operation leaves the task its template. -/
theorem templateRef_respond {w w' : World} {l : Local} {o : Op} {γ : Choice}
    {r : Except Exn o.Ans} (ha : Allowed C t l o) (h : respond w o γ = some (r, w')) :
    w'.row.templateRef = w.row.templateRef := by
  obtain ⟨-, hrow⟩ | ⟨op, -, -, -, href⟩ := move_cases (u := 0) ha h
  · rw [hrow]
  · exact congrArg Identity.templateRef href

/-- The row a handler loaded is of the template of the task, as long as the task keeps it. -/
theorem Book.sameTemplate_next {b : Book} {o : Op} {γ : Choice} {r : Except Exn o.Ans}
    (h : b.sameTemplate row = true) (hr : reply row o γ = some (r, row')) :
    (b.next C o r).sameTemplate row = true := by
  have hall : ∀ {b : Book}, b.sameTemplate row =
      !b.loaded.any fun before => !decide (row.templateRef = before.templateRef) := by
    intro b
    unfold Book.sameTemplate
    cases b.loaded <;> simp
  rw [hall, Bool.not_eq_true'] at h ⊢
  by_contra hn
  obtain hn | hn := Book.loaded_next hr (Bool.not_eq_false _ ▸ hn)
  · exact Bool.noConfusion (h.symm.trans hn)
  · simp at hn

/-! ### Who is at the end -/

/-- The handler ended the task as `s`, and has yet to write the terminal audit event. -/
def Ending.finishing (e : Ending) (s : TaskStatus) : Prop := e = .due s ∨ e = .dropped s

namespace Onward

variable {u : ℕ} {e : Happening} {b b' : Ending} {s : TaskStatus}

/-- Who is at the end was so before. -/
theorem finishing (h : Onward u e b b') (hf : b'.finishing s) : b.finishing s := by
  cases h with
  | stays ending audit drop => exact ending ▸ hf
  | drops was ending audit drop =>
      rw [ending] at hf
      rcases hf with hf | hf <;> cases hf
      exact .inl was
  | audits was ending audit =>
      rw [ending] at hf
      rcases hf with hf | hf <;> cases hf

theorem presumed (h : Onward u e b b') (hp : b' = .presumed s) : b = .presumed s := by
  cases h with
  | stays ending audit drop => exact ending.symm.trans hp
  | drops was ending audit drop => cases ending.symm.trans hp
  | audits was ending audit => cases ending.symm.trans hp

/-- The terminal audit event is of a handler that dropped the credential. -/
theorem of_audit (h : Onward u e b b') (ha : isTerminalAudit e = true) :
    ∃ s, b = .dropped s ∧ b' = .audited := by
  cases h with
  | stays ending audit drop => exact Bool.noConfusion (audit.symm.trans ha)
  | drops was ending audit drop => exact Bool.noConfusion (audit.symm.trans ha)
  | audits was ending audit => exact ⟨_, was, ending⟩

end Onward

/-- **One handler finalizes the task, as the row says.** -/
structure Tally (C : Container) (t : ResolvedTemplate) (w : World) (l : Log) : Prop where
  matches_ : ∀ u s, (book C t l u).ending.finishing s →
    w.row.status = s ∧ s ∈ businessTerminal
  firm : ∀ u s, (book C t l u).ending ≠ .presumed s
  shown : ∀ u, (book C t l u).loaded.any (fun row => isBusinessTerminal row.status) = true →
    w.row.status ∈ businessTerminal
  template : ∀ u, (book C t l u).sameTemplate w.row = true
  once : terminalAudits l ≤ 1
  alone : ∀ u v s s', (book C t l u).ending.finishing s → (book C t l v).ending.finishing s' →
    u = v
  unaudited : ∀ u s, (book C t l u).ending.finishing s → terminalAudits l = 0
  active : w.row.status ∉ businessTerminal → terminalAudits l = 0
  owed : ∀ u, owes u l = true → (∃ s, (book C t l u).ending = .due s) ∨ .halt u ∈ l
  dropped : w.row.status ∈ businessTerminal →
    (∃ u, ∃ e ∈ l, drops u e = true) ∨ ∃ u, owes u l = true

theorem tally_inserted {w : World} (hw : Inserted w.row) : Tally C t w [] where
  matches_ u s h := by rcases h with h | h <;> cases h
  firm u s h := by cases h
  shown u h := by cases h
  template _ := rfl
  once := Nat.zero_le _
  alone u v s s' h := by rcases h with h | h <;> cases h
  unaudited u s h := rfl
  active h := rfl
  owed u h := by cases h
  dropped h := by simp [hw.status, businessTerminal] at h

namespace Tally

variable {w w' : World} {l : Log} {u : ℕ}

/-- The task keeps its template, and so every handler does. -/
theorem template_act {o : Op} {γ : Choice} {r : Except Exn o.Ans} (h : Tally C t w l)
    (ha : Allowed C t (phase C t l u) o) (hr : respond w o γ = some (r, w')) (v : ℕ) :
    (book C t (.act u o r :: l) v).sameTemplate w'.row = true := by
  have hrow : ∀ b : Book, b.sameTemplate w'.row = b.sameTemplate w.row := fun b => by
    simp only [Book.sameTemplate, templateRef_respond ha hr]
  rw [hrow]
  refine forall_book (e := .act u o r) (Q := fun _ b => b.sameTemplate w.row = true) ?_
    (fun v _ => h.template v) v
  exact Book.sameTemplate_next (h.template u) (respond_eq_some hr)

/-- A handler ends the task: nobody was at its end before. -/
theorem act_ends {o : Op} {γ : Choice} {r : Except Exn o.Ans} (h : Tally C t w l)
    (ha : Allowed C t (phase C t l u) o) (hb : (book C t l u).Allows o)
    (hr : respond w o γ = some (r, w')) (hg : finalizesWell C t w l u o r)
    (he : (hit (.act u o r)).any DaoOp.ends = true) : Tally C t w' (.act u o r :: l) := by
  obtain ⟨hfin, hopen⟩ := hg.2.1 he
  obtain ⟨hn, -⟩ | ⟨op, -, hh, -, -, -, hch, -⟩ := timed_move (u := u) ha hb hr
  · simp [hn] at he
  obtain ⟨expected, values, rfl, hterm⟩ | ⟨hop, -⟩ := hch.ending
  · obtain ⟨also, heq⟩ := hit_eq_some hh
    cases heq
    have hself : book C t (.act u (.apply (.advance w'.row.status expected values) also)
        (.ok true) :: l) u = { book C t l u with ending := .due w'.row.status } := by
      rw [book_act]
      simp [Book.next, isBusinessTerminal, hterm, hfin]
    -- nobody is at the end of a task that has not ended
    have none_ : ∀ v s, ¬ (book C t l v).ending.finishing s := fun v s hv =>
      hopen ((h.matches_ v s hv).1 ▸ (h.matches_ v s hv).2)
    have unique : ∀ {v s}, (book C t (.act u (.apply (.advance w'.row.status expected values) also)
        (.ok true) :: l) v).ending.finishing s → v = u := by
      intro v s hv
      by_contra hu
      rw [book_of_ne hu] at hv
      exact none_ v s hv
    have haudits : terminalAudits (.act u (.apply (.advance w'.row.status expected values) also)
        (.ok true) :: l) = 0 := by
      simpa [terminalAudits, isTerminalAudit] using h.active hopen
    refine ⟨fun v s hv => ?_, fun v s hv => ?_, fun _ _ => hterm, h.template_act ha hr,
      haudits ▸ Nat.zero_le _,
      fun v v' s s' hv hv' => (unique hv).trans (unique hv').symm, fun _ _ _ => haudits,
      fun hn => absurd hterm hn, fun v hv => ?_, fun _ => .inr ⟨u, ?_⟩⟩
    · obtain rfl := unique hv
      rw [hself] at hv
      rcases hv with hv | hv <;> cases hv
      exact ⟨rfl, hterm⟩
    · by_cases hu : v = u
      · subst hu
        rw [hself] at hv
        cases hv
      · rw [book_of_ne hu] at hv
        exact h.firm v s hv
    · by_cases hu : v = u
      · subst hu
        exact .inl ⟨_, by rw [hself]⟩
      · have hv : owes v l = true := by
          simpa [owes, endsTask, drops, Event.thread, Ne.symm hu] using hv
        rw [book_of_ne hu]
        exact (h.owed v hv).imp_right (List.mem_cons_of_mem _)
    · simp [owes, endsTask, he, Event.thread]
  · rw [hh] at he
    simp [hop] at he

/-- A handler does anything else. -/
theorem act_goesOn {o : Op} {γ : Choice} {r : Except Exn o.Ans} (h : Tally C t w l)
    (ha : Allowed C t (phase C t l u) o) (hb : (book C t l u).Allows o)
    (hr : respond w o γ = some (r, w')) (hg : finalizesWell C t w l u o r)
    (he : (hit (.act u o r)).any DaoOp.ends = false) : Tally C t w' (.act u o r :: l) := by
  -- a task that has ended moves no more
  have hstatus : w'.row.status ∈ businessTerminal ∨ w.row.status ∈ businessTerminal →
      w'.row.status = w.row.status := by
    obtain ⟨-, hrow⟩ | ⟨op, -, hh, -, -, -, hch, -⟩ := timed_move (u := u) ha hb hr
    · exact fun _ => by rw [hrow]
    · obtain ⟨expected, values, hop, hterm⟩ | ⟨-, hs⟩ := hch.ending
      · rw [hh, hop] at he
        simp [DaoOp.ends, isBusinessTerminal, hterm] at he
      · exact hs
  have stays : w.row.status ∈ businessTerminal → w'.row.status ∈ businessTerminal := fun hm =>
    (hstatus (.inr hm)).symm ▸ hm
  have onward : Onward u (.act u o r) (book C t l u).ending ((book C t l u).next C o r).ending :=
    Book.onward hb (respond_eq_some hr) he hg.1 hg.2.2 (h.firm u)
      (fun s hs => (h.matches_ u s (.inl hs)).1 ▸ (h.matches_ u s (.inl hs)).2) (h.template u)
  -- who is at the end was so before
  have before : ∀ v s, (book C t (.act u o r :: l) v).ending.finishing s →
      (book C t l v).ending.finishing s :=
    forall_book (Q := fun v b => ∀ s, b.ending.finishing s → (book C t l v).ending.finishing s)
      (fun _ => onward.finishing) fun _ _ _ hv => hv
  have hends : ∀ v, endsTask v (.act u o r) = false := fun v => by simp [endsTask, he]
  have hcount : isTerminalAudit (.act u o r) = false →
      terminalAudits (.act u o r :: l) = terminalAudits l := fun ha => by
    simp [terminalAudits, ha]
  constructor
  case matches_ =>
    intro v s hv
    obtain ⟨hs, hm⟩ := h.matches_ v s (before v s hv)
    exact ⟨(hstatus (.inr (hs ▸ hm))).trans hs, hm⟩
  case firm =>
    exact forall_book (Q := fun _ b => ∀ s, b.ending ≠ .presumed s)
      (fun s hs => h.firm u s (onward.presumed hs)) fun v _ => h.firm v
  case shown =>
    refine forall_book (Q := fun _ b =>
      b.loaded.any (fun row => isBusinessTerminal row.status) = true →
        w'.row.status ∈ businessTerminal) (fun hv => ?_) fun v _ hv => stays (h.shown v hv)
    rcases Book.loaded_next (respond_eq_some hr) hv with hv | hv
    · exact stays (h.shown u hv)
    · exact stays (of_decide_eq_true hv)
  case template => exact h.template_act ha hr
  case once =>
    by_cases hae : isTerminalAudit (.act u o r) = true
    · obtain ⟨s, was, -⟩ := onward.of_audit hae
      have hz : l.countP isTerminalAudit = 0 := h.unaudited u s (.inr was)
      simp [terminalAudits, hae, hz]
    · exact (hcount (by simpa using hae)).symm ▸ h.once
  case alone =>
    exact fun v v' s s' hv hv' => h.alone v v' s s' (before v s hv) (before v' s' hv')
  case unaudited =>
    intro v s hv
    rw [hcount, h.unaudited v s (before v s hv)]
    by_contra hae
    obtain ⟨s', was, now_⟩ := onward.of_audit (by simpa using hae)
    obtain rfl := h.alone v u s s' (before v s hv) (.inr was)
    rw [book_act, now_] at hv
    rcases hv with hv | hv <;> cases hv
  case active =>
    intro hn
    have hopen : w.row.status ∉ businessTerminal := fun hm => hn (stays hm)
    rw [hcount, h.active hopen]
    by_contra hae
    obtain ⟨s, was, -⟩ := onward.of_audit (by simpa using hae)
    exact hopen ((h.matches_ u s (.inr was)).1 ▸ (h.matches_ u s (.inr was)).2)
  case owed =>
    intro v hv
    obtain ⟨hdrop, hv⟩ : drops v (.act u o r) = false ∧ owes v l = true := by
      simpa [owes, hends] using hv
    obtain ⟨s, hs⟩ | hstop := h.owed v hv
    · left
      by_cases hu : v = u
      · subst hu
        cases onward with
        | stays ending audit drop => exact ⟨s, by rw [book_act, ending, hs]⟩
        | drops was ending audit drop => simp [drop] at hdrop
        | audits was ending audit => simp [was] at hs
      · exact ⟨s, by rw [book_of_ne hu, hs]⟩
    · exact .inr (List.mem_cons_of_mem _ hstop)
  case dropped =>
    intro hm
    rcases h.dropped (hstatus (.inl hm) ▸ hm) with ⟨v, e, he, hd⟩ | ⟨v, hv⟩
    · exact .inl ⟨v, e, List.mem_cons_of_mem _ he, hd⟩
    · by_cases hd : drops v (.act u o r) = true
      · exact .inl ⟨v, _, List.mem_cons_self, hd⟩
      · exact .inr ⟨v, by simp [owes, hends, hv, hd]⟩

/-- A handler starts or stops. -/
theorem still (h : Tally C t w l) {e : Happening} (hends : ∀ v, endsTask v e = false)
    (hdrops : ∀ v, drops v e = false) (haudit : isTerminalAudit e = false)
    {b : Book} (hb : (bookkeeping C).turn (M := gateway C t) e (book C t l e.thread) = b)
    (hunder : b.ending = .under)
    (hloaded : b.loaded = none ∨ b.loaded = (book C t l e.thread).loaded)
    (howed : owes e.thread l = true → .halt e.thread ∈ e :: l) : Tally C t w (e :: l) := by
  subst hb
  have before : ∀ v s, (book C t (e :: l) v).ending.finishing s →
      (book C t l v).ending.finishing s := by
    refine forall_book (Q := fun v b => ∀ s, b.ending.finishing s →
      (book C t l v).ending.finishing s) (fun s hv => ?_) fun _ _ _ hv => hv
    rw [hunder] at hv
    rcases hv with hv | hv <;> cases hv
  have hcount : terminalAudits (e :: l) = terminalAudits l := by simp [terminalAudits, haudit]
  have howes : ∀ v, owes v (e :: l) = owes v l := fun v => by simp [owes, hends, hdrops]
  constructor
  case matches_ => exact fun v s hv => h.matches_ v s (before v s hv)
  case firm =>
    refine forall_book (Q := fun _ b => ∀ s, b.ending ≠ .presumed s) (fun s hs => ?_)
      fun v _ => h.firm v
    rw [hunder] at hs
    cases hs
  case shown =>
    refine forall_book (Q := fun _ b =>
      b.loaded.any (fun row => isBusinessTerminal row.status) = true →
        w.row.status ∈ businessTerminal) (fun hv => ?_) fun v _ => h.shown v
    rcases hloaded with hl | hl
    · rw [hl] at hv
      cases hv
    · exact h.shown e.thread (hl ▸ hv)
  case template =>
    refine forall_book (Q := fun _ b => b.sameTemplate w.row = true) ?_ fun v _ => h.template v
    have htemplate := h.template e.thread
    unfold Book.sameTemplate at htemplate ⊢
    rcases hloaded with hl | hl
    · rw [hl]
      rfl
    · rw [hl]
      exact htemplate
  case once => exact hcount ▸ h.once
  case alone =>
    exact fun v v' s s' hv hv' => h.alone v v' s s' (before v s hv) (before v' s' hv')
  case unaudited => exact fun v s hv => hcount ▸ h.unaudited v s (before v s hv)
  case active => exact fun hn => hcount ▸ h.active hn
  case owed =>
    refine forall_book (Q := fun v b => owes v (e :: l) = true →
      (∃ s, b.ending = .due s) ∨ .halt v ∈ e :: l) (fun hv => ?_) fun v _ hv => ?_
    · exact .inr (howed (howes _ ▸ hv))
    · exact (h.owed v (howes v ▸ hv)).imp_right (List.mem_cons_of_mem _)
  case dropped =>
    intro hm
    rcases h.dropped hm with ⟨v, e', he, hd⟩ | ⟨v, hv⟩
    · exact .inl ⟨v, e', List.mem_cons_of_mem _ he, hd⟩
    · exact .inr ⟨v, howes v ▸ hv⟩

theorem spawn (h : Tally C t w l) (u : ℕ) (κ : Work) (hfresh : ∀ e ∈ l, e.thread ≠ u) :
    Tally C t w (.spawn u κ :: l) := by
  refine h.still (fun _ => rfl) (fun _ => rfl) rfl rfl rfl (.inl rfl) fun ho => ?_
  have hidle : book C t l u = {} := Protocol.after_of_fresh (M := gateway C t) hfresh
  rcases h.owed u ho with ⟨s, hs⟩ | hh
  · rw [hidle] at hs
    cases hs
  · exact absurd rfl (hfresh _ hh)

theorem halt (h : Tally C t w l) (u : ℕ) : Tally C t w (.halt u :: l) :=
  h.still (fun _ => rfl) (fun _ => rfl) rfl rfl rfl (.inr rfl) fun _ => List.mem_cons_self

end Tally

/-- What a configuration finalized, and may yet. -/
structure Finalized (c : Config (gateway C t)) : Prop where
  /-- A credential is dropped only of a task that has ended. -/
  drops : ∀ u k, c.prog u = .op .dropCredential k → c.world.row.status ∈ businessTerminal
  /-- A terminal audit event says as what the task ended. -/
  audits : ∀ u event k, c.prog u = .op (.audit event) k → event.eventType = .terminal →
    c.world.row.status ∈ businessTerminal ∧
      event.refs.lookup "status" = some (.str c.world.row.status.value)
  once : terminalAudits c.log ≤ 1
  /-- The credential of a task that has ended was dropped, or a handler has yet to. -/
  dropped : c.world.row.status ∈ businessTerminal →
    (∃ u, ∃ e ∈ c.log, AsyncGateway.drops u e = true) ∨ ∃ u, owes u c.log = true
  /-- The handler that has yet to is still at an operation, unless it was stopped. -/
  owed : ∀ u, owes u c.log = true → (∃ o k, c.prog u = .op o k) ∨ .halt u ∈ c.log

/-- **Finalisation matches the row.** -/
theorem finalisation {w : World} {c : Config (gateway C t)} (hw : Inserted w.row)
    (h : Run (finalizesWell C t) ((gateway C t).initial w) c) : Finalized c := by
  have ht : Tally C t c.world c.log := by
    refine conduct_invariant (Tally C t) (tally_inserted hw)
      (fun w l u κ hfresh hi => hi.spawn u κ hfresh) ?_ (fun w l u hi => hi.halt u) h
    intro w l u o γ r w' hi ha hb hr hg
    cases he : (hit (.act u o r)).any DaoOp.ends with
    | true => exact hi.act_ends ha hb hr hg he
    | false => exact hi.act_goesOn ha hb hr hg he
  have terminal : ∀ {u s}, (book C t c.log u).ending.finishing s →
      c.world.row.status ∈ businessTerminal := fun {u s} hf =>
    (ht.matches_ u s hf).1 ▸ (ht.matches_ u s hf).2
  refine ⟨fun u k hp => ?_, fun u event k hp he => ?_, ht.once, ht.dropped, fun u ho => ?_⟩
  · rcases books_allow h hp with ⟨s, hs | hs⟩ | hs
    · exact terminal (.inl hs)
    · exact absurd hs (ht.firm u s)
    · exact ht.shown u hs
  · obtain ⟨s, hs, href⟩ := books_allow h hp he
    exact ⟨terminal (.inr hs), (ht.matches_ u s (.inr hs)).1 ▸ href⟩
  · exact (ht.owed u ho).imp_left fun ⟨s, hs⟩ => books_ask h (by rw [hs]; rfl)

/-! ### Runs of the sample gateway -/

/-- Two handlers load the task before either submits it; the second submits it, and the first finds
no credential. -/
def endedUnawares {t : ResolvedTemplate} : Script t :=
  .spawn .submitUpstream :: goesOn 0 0 [.done] ++
    .spawn .submitUpstream ::
      goesOn 1 0 [.done, .text (some "key"), .slot ⟨true, none⟩, .done, .text none, .done,
        answers (.obj [("id", .str "upstream")]), .done, .rat 5, .done, .done, .done, .done, .done,
        .done, .done, .done] ++
    goesOn 0 0 [.text none, .done, .done, .done, .done]

/-- Whether the handler is about to drop the credential. -/
def atDrop (c : Config (gateway C t)) (u : ℕ) : Bool :=
  match c.prog u with
  | .op .dropCredential _ => true
  | _ => false

theorem atDrop_iff {c : Config (gateway C t)} {u : ℕ} :
    atDrop c u = true ↔ ∃ k, c.prog u = .op .dropCredential k := by
  unfold atDrop
  split
  · rename_i k hp
    simp [hp]
  · rename_i hn
    simpa using hn

/-- The sample row, with a deadline. -/
def lateRow : AsyncTask := { sampleRow with deadlineAt := some 0 }

/-- The deadline of the task passes. -/
def sweptAway {t : ResolvedTemplate} : Script t :=
  .spawn (.scanDeadlines "deadline exceeded") :: goesOn 0 10 [.done, .done, .done, .done]

/-- A handler drops the credential of a task that is at work upstream; and a task is timed out whose
credential nobody drops. -/
theorem finalisation_unmatched :
    (∃ c, Run (gateway (sampleContainer sampleTemplate) sampleTemplate).anything
        (sampleStart sampleTemplate sampleRow) c ∧
      c.world.row.status = upstreamSubmitted ∧ ∃ k, c.prog 0 = .op .dropCredential k) ∧
    ∃ c, Run (gateway (sampleContainer sampleTemplate) sampleTemplate).anything
        (sampleStart sampleTemplate lateRow) c ∧
      c.world.row.status = timeout ∧ owes 0 c.log = true ∧ c.prog 0 = .pure () ∧
        .halt 0 ∉ c.log := by
  constructor
  · obtain ⟨c, hrun, hc⟩ := reached (t := sampleTemplate) sampleRow endedUnawares
      (fun _ _ _ _ _ => true)
      (fun c => decide (c.world.row.status = upstreamSubmitted) && atDrop c 0)
      (fun _ _ _ _ _ _ => trivial) (by decide +kernel)
    simp only [Bool.and_eq_true, decide_eq_true_eq] at hc
    exact ⟨c, hrun, hc.1, atDrop_iff.mp hc.2⟩
  · obtain ⟨c, hrun, hc⟩ := reached (t := sampleTemplate) lateRow sweptAway
      (fun _ _ _ _ _ => true)
      (fun c => decide (c.world.row.status = timeout) && owes 0 c.log && returned c 0 &&
        c.log.all fun e => !e.isHalt)
      (fun _ _ _ _ _ _ => trivial) (by decide +kernel)
    simp only [Bool.and_eq_true, decide_eq_true_eq, List.all_eq_true, Bool.not_eq_true'] at hc
    obtain ⟨⟨⟨hs, ho⟩, hr⟩, hh⟩ := hc
    exact ⟨c, hrun, hs, ho, returned_iff.mp hr, fun hm => absurd (hh _ hm) (by simp [Event.isHalt])⟩

/-- The task is submitted without a credential, and closed. -/
def closedWithoutKey {t : ResolvedTemplate} : Script t :=
  .spawn .submitUpstream :: goesOn 0 0 [.done, .text none, .done, .done, .done, .done, .done, .done]

/-- Whether an operation succeeds, and hits if it is a write. -/
def goesWell : Happening → Bool
  | .act _ (.apply _ _) (.ok false) => false
  | .act _ _ (.error _) => false
  | _ => true

/-- The check of `finalizesWell`. -/
def finalizesWellCheck (C : Container) (t : ResolvedTemplate) : (gateway C t).Check :=
  fun w l u o r => goesWell (.act u o r) && (!(hit (.act u o r)).any DaoOp.ends ||
    (book C t l u).finalizes && decide (w.row.status ∉ businessTerminal))

theorem finalizesWell_of_check {w : World} {l : Log} {u : ℕ} {o : Op} {r : Except Exn o.Ans}
    (h : finalizesWellCheck C t w l u o r = true) : finalizesWell C t w l u o r := by
  simp only [finalizesWellCheck, Bool.and_eq_true, Bool.or_eq_true, Bool.not_eq_true',
    decide_eq_true_eq] at h
  obtain ⟨hwell, hends⟩ := h
  refine ⟨fun op also he => ?_, fun he => hends.resolve_left (by simp [he]), fun x s hx => ?_⟩
  · rw [he] at hwell
    cases hwell
  · subst hx
    cases o <;> cases hwell

theorem finalisation_closed :
    ∃ c, Run (finalizesWell (sampleContainer sampleTemplate) sampleTemplate)
        (sampleStart sampleTemplate sampleRow) c ∧
      c.world.row.status = dead ∧ terminalAudits c.log = 1 ∧ Finalized c := by
  obtain ⟨c, hrun, hc⟩ := reached (t := sampleTemplate) sampleRow closedWithoutKey
    (finalizesWellCheck _ _)
    (fun c => decide (c.world.row.status = dead ∧ terminalAudits c.log = 1))
    (fun _ _ _ _ _ => finalizesWell_of_check) (by decide +kernel)
  obtain ⟨hs, ha⟩ := of_decide_eq_true hc
  exact ⟨c, hrun, hs, ha, finalisation inserted_sampleRow hrun⟩

end AsyncGateway
