import AsyncGateway.Db.Table
import AsyncGateway.System.Changes
import AsyncGateway.System.Conduct

/-!
# System — the query and the cancel request among other tenants' tasks

The two routes over the table of all tasks (`Desk`): the lookup chooses the task, and everything
the request does afterwards is done to that one.  The lookup takes the first row of the channel
with the upstream id, whoever's it is, and ownership is checked on that row alone; so a row of
another tenant can shadow the caller's own (`Shadowed`), and nothing else of other tenants can make
a difference (`tenants_apart`).
-/

namespace AsyncGateway

open TaskStatus
open Interleave

/-- The tasks of all tenants, and the id of the one the request has found. -/
structure Desk where
  table : Table
  found : Option String := none

namespace Desk

/-- The row of the task that was found, as it is now. -/
def row (d : Desk) : Option AsyncTask := d.found.bind d.table.get

/-- The answer to an operation.  A request looks its task up once; what it asks of the task
afterwards, it asks of that one. -/
def reply (d : Desk) : (o : Op) → Choice → Option (Except Exn o.Ans × Desk)
  | .findTask channel identifier, γ =>
      match d.found, γ.reply with
      | none, .done =>
          let row := d.table.findTask channel identifier
          some (.ok row, { d with found := row.map (·.taskId) })
      | none, .fail message => some (.error (.infrastructure message), d)
      | _, _ => none
  | .apply op _, γ =>
      match d.row, γ.reply with
      | some row, .done =>
          let (r, table) := d.table.exec γ.time row.taskId op
          some (r.mapError .transitionError, { d with table := table })
      | some _, .fail message => some (.error (.infrastructure message), d)
      | _, _ => none
  | o, γ => d.row.bind fun row => (AsyncGateway.reply row o γ).map fun p => (p.1, d)

end Desk

/-- What a request comes to: the operations it asked for, its end where it came to one, and the
table. -/
structure Served (α : Type) where
  asked : List Op
  ended : Option (Except Exn α)
  table : Table

/-- Serve a request, with the answers of the environment as far as they go. -/
def Desk.serve {α : Type} : Handler α → Desk → List Choice → Served α
  | .pure a, d, _ => ⟨[], some (.ok a), d.table⟩
  | .raise x, d, _ => ⟨[], some (.error x), d.table⟩
  | .op o _, d, [] => ⟨[o], none, d.table⟩
  | .op o k, d, γ :: γs =>
      match d.reply o γ with
      | some (r, d') =>
          let rest := serve (k r) d' γs
          { rest with asked := o :: rest.asked }
      | none => ⟨[o], none, d.table⟩

section Serve

variable {α : Type} {d d' : Desk} {o : Op} {k : Except Exn (effects.Ans o) → Handler α} {γ : Choice}
  {γs : List Choice}

theorem Desk.serve_some {r : Except Exn o.Ans} {p : Handler α} (h : d.reply o γ = some (r, d'))
    (hk : k r = p) :
    Desk.serve (.op o k) d (γ :: γs) =
      { Desk.serve p d' γs with asked := o :: (Desk.serve p d' γs).asked } := by
  subst hk
  simp only [Desk.serve, h]

theorem Desk.serve_none (h : d.reply o γ = none) :
    Desk.serve (.op o k) d (γ :: γs) = ⟨[o], none, d.table⟩ := by
  simp only [Desk.serve, h]

end Serve

/-! ### The rows of one tenant -/

/-- A row of the caller's channel and tenant. -/
def AuthContext.owns (auth : AuthContext) (row : AsyncTask) : Bool :=
  decide (row.channel = auth.channel ∧ row.tenant = auth.tenant)

/-- The caller's rows, in the order the database lists them. -/
def Table.own (tbl : Table) (auth : AuthContext) : List AsyncTask := tbl.rows.filter auth.owns

/-- A row of the caller's answers to the identifier. -/
def Table.Answers (tbl : Table) (auth : AuthContext) (identifier : String) : Prop :=
  ∃ row ∈ tbl.own auth, row.upstreamTaskId = some identifier ∨ row.taskId = identifier

/-- The first row of the channel with that upstream id is another tenant's. -/
def Shadowed (tbl : Table) (auth : AuthContext) (identifier : String) : Prop :=
  ∃ row, tbl.findByUpstreamId auth.channel identifier = some row ∧ row.tenant ≠ auth.tenant

instance (tbl : Table) (auth : AuthContext) (identifier : String) :
    Decidable (Shadowed tbl auth identifier) :=
  match h : tbl.findByUpstreamId auth.channel identifier with
  | some row => decidable_of_iff (row.tenant ≠ auth.tenant) (by simp [Shadowed, h])
  | none => isFalse (by simp [Shadowed, h])

/-- The caller sees no difference: the request asks for the same, answers included, ends the same,
and leaves the caller's rows the same. -/
structure SameFor {α : Type} (auth : AuthContext) (s s' : Served α) : Prop where
  asked : s.asked = s'.asked
  ended : s.ended = s'.ended
  own : s.table.own auth = s'.table.own auth

/-- The query and the cancel request are served the same from the two tables. -/
def Undisturbed (C : Container) (t : ResolvedTemplate) (auth : AuthContext) (identifier : String)
    (tbl tbl' : Table) : Prop :=
  ∀ κ ∈ [Work.query auth identifier, .cancelRequest auth identifier], ∀ γs : List Choice,
    SameFor auth (Desk.serve (κ.body C t) ⟨tbl, none⟩ γs)
      (Desk.serve (κ.body C t) ⟨tbl', none⟩ γs)

section Own

variable {tbl : Table} {auth : AuthContext} {identifier : String} {row : AsyncTask}

theorem mem_own : row ∈ tbl.own auth ↔
    row ∈ tbl.rows ∧ row.channel = auth.channel ∧ row.tenant = auth.tenant := by
  simp [Table.own, AuthContext.owns]

theorem get_own (h : row ∈ tbl.own auth) : tbl.get row.taskId = some row :=
  Table.get_eq_some.mpr ⟨(mem_own.mp h).1, rfl⟩

/-- What a write that keeps the identity of every row makes of the caller's rows. -/
theorem own_exec {now : Time} {taskId : String} {op : DaoOp}
    (hid : ∀ row, (op.exec now row).2.identity = row.identity) :
    (tbl.exec now taskId op).2.own auth = (tbl.own auth).map (Table.written now taskId op) := by
  have howns : ∀ row, auth.owns (Table.written now taskId op row) = auth.owns row := by
    intro row
    unfold Table.written
    split
    · have ht := congrArg Identity.tenant (hid row)
      have hc := congrArg Identity.channel (hid row)
      simp only [AsyncTask.identity] at ht hc
      simp [AuthContext.owns, ht, hc]
    · rfl
  simp only [Table.own, Table.exec, Table.update, List.filter_map]
  exact congrArg _ (List.filter_congr fun row _ => howns row)

/-- The first that has the stronger property, where the first that has the weaker one has it. -/
theorem find?_of_imp {α : Type} {p q : α → Bool} {l : List α} {a : α}
    (hpq : ∀ a, q a = true → p a = true) (hp : l.find? p = some a) (hq : q a = true) :
    l.find? q = some a := by
  induction l with
  | nil => cases hp
  | cons b l ih =>
      rw [List.find?_cons] at hp ⊢
      cases hb : p b with
      | true =>
          rw [hb] at hp
          cases hp
          rw [hq]
      | false =>
          have hqb : q b = false := by
            cases h : q b with
            | false => rfl
            | true => rw [hpq b h] at hb; cases hb
          rw [hb] at hp
          rw [hqb]
          exact ih hp

/-- The caller's own task: by the upstream id, else by the task id. -/
def ownTask (own : List AsyncTask) (identifier : String) : Option AsyncTask :=
  match own.find? (·.upstreamTaskId = some identifier) with
  | some row => some row
  | none => own.find? (·.taskId = identifier)

/-- A shadowed lookup finds a row that is not the caller's. -/
theorem findTask_shadowed (h : Shadowed tbl auth identifier) :
    ∃ row, tbl.findTask auth.channel identifier = some row ∧ row.tenant ≠ auth.tenant := by
  obtain ⟨row, hrow, ht⟩ := h
  exact ⟨row, by simp [Table.findTask, hrow], ht⟩

/-- What the lookup finds where no row of the caller's answers is not the caller's. -/
theorem findTask_unanswered (h : ¬ tbl.Answers auth identifier) :
    ∀ row, tbl.findTask auth.channel identifier = some row → row.tenant ≠ auth.tenant := by
  intro row hrow ht
  refine h ⟨row, ?_⟩
  unfold Table.findTask at hrow
  split at hrow
  · rename_i found hf
    cases hrow
    have hp := List.find?_some hf
    simp only [decide_eq_true_eq] at hp
    exact ⟨mem_own.mpr ⟨List.mem_of_find?_eq_some hf, hp.1, ht⟩, .inl hp.2⟩
  · obtain ⟨hg, hc⟩ := Option.filter_eq_some_iff.mp hrow
    obtain ⟨hm, hid⟩ := Table.get_eq_some.mp hg
    exact ⟨mem_own.mpr ⟨hm, by simpa using hc, ht⟩, .inr hid⟩

/-- Without a shadow, the lookup finds the caller's own task. -/
theorem findTask_own (h : ¬ Shadowed tbl auth identifier) (ha : tbl.Answers auth identifier) :
    ∃ row ∈ tbl.own auth, tbl.findTask auth.channel identifier = some row ∧
      ownTask (tbl.own auth) identifier = some row := by
  have stronger : ∀ row : AsyncTask,
      decide (auth.owns row ∧ decide (row.upstreamTaskId = some identifier)) = true →
      decide (row.channel = auth.channel ∧ row.upstreamTaskId = some identifier) = true := by
    intro row hr
    simp only [decide_eq_true_eq, AuthContext.owns] at hr
    simp [hr.1.1, hr.2]
  cases hf : tbl.findByUpstreamId auth.channel identifier with
  | some row =>
      have ht : row.tenant = auth.tenant := by_contra fun ht => h ⟨row, hf, ht⟩
      have hp := List.find?_some hf
      simp only [decide_eq_true_eq] at hp
      have howns : auth.owns row = true := by simp [AuthContext.owns, hp.1, ht]
      have hown : (tbl.own auth).find? (·.upstreamTaskId = some identifier) = some row := by
        rw [Table.own, List.find?_filter]
        exact find?_of_imp stronger hf (by simp [howns, hp.2])
      exact ⟨row, mem_own.mpr ⟨List.mem_of_find?_eq_some hf, hp.1, ht⟩,
        by simp [Table.findTask, hf], by simp [ownTask, hown]⟩
  | none =>
      have hnone : (tbl.own auth).find? (·.upstreamTaskId = some identifier) = none := by
        rw [Table.own, List.find?_filter, List.find?_eq_none]
        intro row hrow hr
        exact List.find?_eq_none.mp hf row hrow (stronger row hr)
      obtain ⟨row, hrow, hup | rfl⟩ := ha
      · exact absurd (List.find?_eq_none.mp hnone row hrow) (by simp [hup])
      · have hg := get_own hrow
        have hc := (mem_own.mp hrow).2.1
        have hown : (tbl.own auth).find? (·.taskId = row.taskId) = some row := by
          rw [Table.own, List.find?_filter]
          refine find?_of_imp (p := fun a : AsyncTask => decide (a.taskId = row.taskId))
            (fun a ha => (of_decide_eq_true ha).2) hg ?_
          simp [AuthContext.owns, (mem_own.mp hrow).2]
        exact ⟨row, hrow, by simp [Table.findTask, hf, hg, hc], by simp [ownTask, hnone, hown]⟩

end Own

/-! ### Requests that found the same task -/

section Served

variable {C : Container} {t : ResolvedTemplate} {auth : AuthContext} {d d' : Desk}

/-- Two desks with the same task of the caller's, and the same rows of the caller's. -/
structure Level (auth : AuthContext) (d d' : Desk) : Prop where
  own : d.table.own auth = d'.table.own auth
  found : d.found = d'.found
  mine : ∃ row ∈ d.table.own auth, d.found = some row.taskId

theorem Level.row (h : Level auth d d') :
    ∃ row ∈ d.table.own auth, d.found = some row.taskId ∧ d.row = some row ∧ d'.row = some row := by
  obtain ⟨row, hrow, hf⟩ := h.mine
  refine ⟨row, hrow, hf, ?_, ?_⟩
  · simp [Desk.row, hf, get_own hrow]
  · simp [Desk.row, ← h.found, hf, get_own (h.own ▸ hrow)]

/-- A write that the discipline allows keeps the identity of every row. -/
theorem exec_identity {l : Local} {op : DaoOp} (ha : AllowedWrite C t l op) (now : Time)
    (row : AsyncTask) : (op.exec now row).2.identity = row.identity := by
  unfold DaoOp.exec
  split
  · exact identity_run ha ‹_›
  · rfl
  · rfl

/-- The answer to a write, where the environment does not fail it. -/
theorem Desk.reply_write {row : AsyncTask} {op : DaoOp} {also : Option Message} {γ : Choice}
    (hr : d.row = some row) (hg : d.table.get row.taskId = some row) (hγ : γ.reply = .done) :
    d.reply (.apply op also) γ =
      some (((op.exec γ.time row).1.mapError .transitionError : Except Exn Bool),
        { d with table := (d.table.exec γ.time row.taskId op).2 }) := by
  have hx : (d.table.exec γ.time row.taskId op).1 = (op.exec γ.time row).1 :=
    (Table.get_exec_self hg).1
  rw [← hx]
  simp only [Desk.reply, hr, hγ]
  rfl

/-- The row the write leaves is the caller's, and still the one that was found. -/
theorem Level.write (h : Level auth d d') {row : AsyncTask} (hrow : row ∈ d.table.own auth)
    (hf : d.found = some row.taskId) {op : DaoOp} {now : Time}
    (hid : ∀ row, (op.exec now row).2.identity = row.identity) :
    Level auth { d with table := (d.table.exec now row.taskId op).2 }
      { d' with table := (d'.table.exec now row.taskId op).2 } where
  own := by
    show (d.table.exec now row.taskId op).2.own auth = (d'.table.exec now row.taskId op).2.own auth
    rw [own_exec hid, own_exec hid, h.own]
  found := h.found
  mine := by
    refine ⟨Table.written now row.taskId op row, ?_, ?_⟩
    · show _ ∈ (d.table.exec now row.taskId op).2.own auth
      rw [own_exec hid]
      exact List.mem_map_of_mem hrow
    · exact hf.trans (congrArg some
        (congrArg Keys.taskId (Table.written_keys now row.taskId op row)).symm)

/-- Level desks answer alike, and stay level. -/
theorem Level.reply (h : Level auth d d') {l : Local} {o : Op} (ha : Allowed C t l o) (γ : Choice) :
    (d.reply o γ = none ∧ d'.reply o γ = none) ∨
      ∃ r d₁ d₁', d.reply o γ = some (r, d₁) ∧ d'.reply o γ = some (r, d₁') ∧ Level auth d₁ d₁' := by
  obtain ⟨row, hrow, hf, hr, hr'⟩ := h.row
  have hf' : d'.found = some row.taskId := h.found ▸ hf
  have other : ∀ {o : Op},
      (∀ e : Desk, e.reply o γ =
        e.row.bind fun row => (AsyncGateway.reply row o γ).map fun p => (p.1, e)) →
      (d.reply o γ = none ∧ d'.reply o γ = none) ∨
        ∃ r d₁ d₁', d.reply o γ = some (r, d₁) ∧ d'.reply o γ = some (r, d₁') ∧
          Level auth d₁ d₁' := by
    intro o ho
    rw [ho, ho, hr, hr']
    cases hx : AsyncGateway.reply row o γ with
    | none => exact .inl (by simp [hx])
    | some p => exact .inr ⟨p.1, d, d', by simp [hx], by simp [hx], h⟩
  cases o with
  | findTask channel identifier => exact .inl (by simp [Desk.reply, hf, hf'])
  | apply op also =>
      cases hγ : γ.reply with
      | done =>
          exact .inr ⟨_, _, _, Desk.reply_write hr (get_own hrow) hγ,
            Desk.reply_write hr' (get_own (h.own ▸ hrow)) hγ,
            h.write hrow hf (exec_identity (C := C) (t := t) (l := l) ha γ.time)⟩
      | fail message =>
          refine .inr ⟨.error (.infrastructure message), d, d', ?_, ?_, h⟩
          · simp only [Desk.reply, hr, hγ]
          · simp only [Desk.reply, hr', hγ]
      | _ => exact .inl (by simp only [Desk.reply, hr, hr', hγ, and_self])
  | _ => exact other fun _ => rfl

/-- A program that keeps to the discipline is served the same from level desks. -/
theorem Level.serve {α : Type} {p : Handler α} {l : Local} {Φ : Except Exn α → Local → Prop}
    (hp : wp (discipline C t) p Φ l) (h : Level auth d d') (γs : List Choice) :
    SameFor auth (Desk.serve p d γs) (Desk.serve p d' γs) := by
  induction p generalizing l d d' γs with
  | pure a => exact ⟨rfl, rfl, h.own⟩
  | raise x => exact ⟨rfl, rfl, h.own⟩
  | op o k ih =>
      cases γs with
      | nil => exact ⟨rfl, rfl, h.own⟩
      | cons γ γs =>
          obtain ⟨hn, hn'⟩ | ⟨r, d₁, d₁', hr, hr', h₁⟩ := h.reply hp.1 γ
          · simp only [Desk.serve, hn, hn']
            exact ⟨rfl, rfl, h.own⟩
          · obtain ⟨hasked, hended, hown⟩ := ih r (hp.2 r) h₁ γs
            simp only [Desk.serve, hr, hr']
            exact ⟨congrArg (o :: ·) hasked, hended, hown⟩

end Served

/-! ### The lookup -/

section Lookup

variable {C : Container} {t : ResolvedTemplate} {auth : AuthContext} {identifier : String}
  {tbl tbl' : Table}

/-- A route looks its task up, and goes no further where it finds none, or one that the caller
does not own. -/
structure LooksUp (C : Container) (auth : AuthContext) (identifier : String) (p : Handler Unit)
    (k : Except Exn (effects.Ans (.findTask auth.channel identifier)) → Handler Unit) : Prop where
  prog : p = .op (.findTask auth.channel identifier) k
  failed : ∀ x, k (.error x) = .raise x
  missed : C.ownershipCheck = true → ∀ found : Option AsyncTask,
    (∀ row, found = some row → row.tenant ≠ auth.tenant) →
      k (.ok found) = .raise (.httpException 404 "task not found")

theorem assertOwned_refused (hC : C.ownershipCheck = true) {row : AsyncTask}
    (ht : row.tenant ≠ auth.tenant) :
    assertOwned C row auth = .error (.httpException 404 "task not found") := by
  simp [assertOwned, hC, ht]

theorem looksUp_query (auth : AuthContext) (identifier : String) :
    ∃ k, LooksUp C auth identifier (Work.body C t (.query auth identifier)) k := by
  refine ⟨_, rfl, fun _ => rfl, fun hC found ht => ?_⟩
  cases found with
  | none => rfl
  | some row =>
      show Prog.bind (Prog.bind (raiseIn (assertOwned C row auth)) _) _ = _
      rw [assertOwned_refused hC (ht row rfl)]
      rfl

/-- The cancel request goes on with a task that the caller owns. -/
theorem looksUp_cancelRequest (auth : AuthContext) (identifier : String) :
    ∃ k, LooksUp C auth identifier (Work.body C t (.cancelRequest auth identifier)) k ∧
      ∀ row, auth.owns row = true → ∃ o k', k (.ok (some row)) = .op o k' := by
  refine ⟨_, ⟨rfl, fun _ => rfl, fun hC found ht => ?_⟩, fun row howns => ?_⟩
  · cases found with
    | none => rfl
    | some row =>
        show Prog.bind (Prog.bind (raiseIn (assertOwned C row auth)) _) _ = _
        rw [assertOwned_refused hC (ht row rfl)]
        rfl
  · have ho : assertOwned C row auth = .ok () := by
      simp only [AuthContext.owns, decide_eq_true_eq] at howns
      simp [assertOwned, howns]
    show ∃ o k', Prog.bind (Prog.bind (raiseIn (assertOwned C row auth)) _) _ = .op o k'
    rw [ho]
    by_cases hterm : isBusinessTerminal row.status = true
    · show ∃ o k', Prog.bind (ite _ _ _) _ = Prog.op o k'
      rw [if_pos hterm]
      exact ⟨_, _, rfl⟩
    · show ∃ o k', Prog.bind (ite _ _ _) _ = Prog.op o k'
      rw [if_neg hterm]
      exact ⟨_, _, rfl⟩

/-- The lookup finds no task of the caller's. -/
def Misses (tbl : Table) (auth : AuthContext) (identifier : String) : Prop :=
  ∀ row, tbl.findTask auth.channel identifier = some row → row.tenant ≠ auth.tenant

/-- How a request that misses ends. -/
def missedEnd : List Choice → Option (Except Exn Unit)
  | [] => none
  | γ :: _ =>
      match γ.reply with
      | .done => some (.error (.httpException 404 "task not found"))
      | .fail message => some (.error (.infrastructure message))
      | _ => none

variable {p : Handler Unit}
  {k : Except Exn (effects.Ans (.findTask auth.channel identifier)) → Handler Unit}

theorem Desk.reply_findTask {channel : String} {γ : Choice} (hγ : γ.reply = .done) :
    Desk.reply ⟨tbl, none⟩ (.findTask channel identifier) γ =
      some ((.ok (tbl.findTask channel identifier) : Except Exn (Option AsyncTask)),
        ⟨tbl, (tbl.findTask channel identifier).map (·.taskId)⟩) := by
  simp only [Desk.reply, hγ]
  rfl

theorem Desk.reply_findTask_fail {channel message : String} {γ : Choice}
    (hγ : γ.reply = .fail message) :
    Desk.reply ⟨tbl, none⟩ (.findTask channel identifier) γ =
      some ((.error (.infrastructure message) : Except Exn (Option AsyncTask)), ⟨tbl, none⟩) := by
  simp only [Desk.reply, hγ]
  rfl

/-- A request that misses looks its task up, and does nothing else. -/
theorem LooksUp.serve_missed (h : LooksUp C auth identifier p k) (hC : C.ownershipCheck = true)
    (hm : Misses tbl auth identifier) (γs : List Choice) :
    Desk.serve p ⟨tbl, none⟩ γs =
      ⟨[.findTask auth.channel identifier], missedEnd γs, tbl⟩ := by
  rw [h.prog]
  cases γs with
  | nil => rfl
  | cons γ γs =>
      cases hγ : γ.reply with
      | done =>
          rw [Desk.serve_some (Desk.reply_findTask hγ) (h.missed hC _ hm)]
          simp only [Desk.serve, missedEnd, hγ]
      | fail message =>
          rw [Desk.serve_some (Desk.reply_findTask_fail hγ) (h.failed _)]
          simp only [Desk.serve, missedEnd, hγ]
      | _ =>
          rw [Desk.serve_none (by simp only [Desk.reply, hγ])]
          simp only [missedEnd, hγ]

/-- Two requests that find the same task of the caller's are served the same. -/
theorem LooksUp.serve_found {l : Local} (h : LooksUp C auth identifier p k)
    (hp : Follows (discipline C t) p l) {row : AsyncTask} (hrow : row ∈ tbl.own auth)
    (hown : tbl.own auth = tbl'.own auth)
    (hf : tbl.findTask auth.channel identifier = some row)
    (hf' : tbl'.findTask auth.channel identifier = some row) (γs : List Choice) :
    SameFor auth (Desk.serve p ⟨tbl, none⟩ γs) (Desk.serve p ⟨tbl', none⟩ γs) := by
  rw [h.prog] at hp ⊢
  cases γs with
  | nil => exact ⟨rfl, rfl, hown⟩
  | cons γ γs =>
      cases hγ : γ.reply with
      | done =>
          have hlevel : Level auth ⟨tbl, some row.taskId⟩ ⟨tbl', some row.taskId⟩ :=
            ⟨hown, rfl, row, hrow, rfl⟩
          obtain ⟨hasked, hended, hrows⟩ := hlevel.serve (hp.2 (.ok (some row))) γs
          have hk : k (.ok (tbl.findTask auth.channel identifier)) = k (.ok (some row)) := by rw [hf]
          have hk' : k (.ok (tbl'.findTask auth.channel identifier)) = k (.ok (some row)) := by
            rw [hf']
          rw [Desk.serve_some (Desk.reply_findTask hγ) hk, Desk.serve_some (Desk.reply_findTask hγ) hk',
            hf, hf']
          exact ⟨congrArg (Op.findTask auth.channel identifier :: ·) hasked, hended, hrows⟩
      | fail message =>
          rw [Desk.serve_some (Desk.reply_findTask_fail hγ) (h.failed _),
            Desk.serve_some (Desk.reply_findTask_fail hγ) (h.failed _)]
          exact ⟨rfl, rfl, hown⟩
      | _ =>
          rw [Desk.serve_none (by simp only [Desk.reply, hγ]),
            Desk.serve_none (by simp only [Desk.reply, hγ])]
          exact ⟨rfl, rfl, hown⟩

theorem misses_of_shadowed (h : Shadowed tbl auth identifier) : Misses tbl auth identifier := by
  obtain ⟨found, hf, ht⟩ := findTask_shadowed h
  intro row hrow
  rw [hf] at hrow
  cases hrow
  exact ht

/-- A request that goes on with what it found asks for more than the lookup. -/
theorem LooksUp.serve_more (h : LooksUp C auth identifier p k) {row : AsyncTask}
    (hf : tbl.findTask auth.channel identifier = some row)
    (hk : ∃ o k', k (.ok (some row)) = .op o k') :
    (Desk.serve p ⟨tbl, none⟩ [⟨0, .done⟩]).asked ≠ [.findTask auth.channel identifier] := by
  obtain ⟨o, k', hk⟩ := hk
  rw [h.prog, Desk.serve_some (Desk.reply_findTask rfl)
    ((congrArg (fun found => k (.ok found)) hf).trans hk)]
  simp [Desk.serve]

/-- **The rows of other tenants make no difference to a caller, but for a shadow.**  The query and
the cancel request are served the same from two tables with the same rows of the caller's if and
only if, where one of these rows answers to the identifier, both lookups are shadowed by another
tenant's row or neither is. -/
theorem tenants_apart (hC : C.ownershipCheck = true) (hown : tbl.own auth = tbl'.own auth) :
    Undisturbed C t auth identifier tbl tbl' ↔
      (tbl.Answers auth identifier →
        (Shadowed tbl auth identifier ↔ Shadowed tbl' auth identifier)) := by
  have ha : tbl.Answers auth identifier ↔ tbl'.Answers auth identifier := by
    simp only [Table.Answers, hown]
  constructor
  · intro h hans
    -- a cancel request tells the tables apart: it goes on where its row is found
    have served := h (.cancelRequest auth identifier) (by simp) [⟨0, .done⟩]
    obtain ⟨k, hk, hgo⟩ := looksUp_cancelRequest (C := C) (t := t) auth identifier
    constructor
    · intro hs
      by_contra hs'
      obtain ⟨row, hrow, hf, -⟩ := findTask_own hs' (ha.mp hans)
      have hasked := served.asked
      rw [hk.serve_missed hC (misses_of_shadowed hs)] at hasked
      exact hk.serve_more hf (hgo row (by simpa [AuthContext.owns] using (mem_own.mp hrow).2))
        hasked.symm
    · intro hs'
      by_contra hs
      obtain ⟨row, hrow, hf, -⟩ := findTask_own hs hans
      have hasked := served.asked
      rw [hk.serve_missed hC (misses_of_shadowed hs')] at hasked
      exact hk.serve_more hf (hgo row (by simpa [AuthContext.owns] using (mem_own.mp hrow).2))
        hasked
  · intro h κ hκ γs
    have hroute : ∃ k, LooksUp C auth identifier (κ.body C t) k := by
      simp only [List.mem_cons, List.not_mem_nil, or_false] at hκ
      obtain rfl | rfl := hκ
      · exact looksUp_query auth identifier
      · obtain ⟨k, hk, -⟩ := looksUp_cancelRequest (C := C) (t := t) auth identifier
        exact ⟨k, hk⟩
    obtain ⟨k, hk⟩ := hroute
    have missed : Misses tbl auth identifier → Misses tbl' auth identifier →
        SameFor auth (Desk.serve (κ.body C t) ⟨tbl, none⟩ γs)
          (Desk.serve (κ.body C t) ⟨tbl', none⟩ γs) := by
      intro hm hm'
      rw [hk.serve_missed hC hm, hk.serve_missed hC hm']
      exact ⟨rfl, rfl, hown⟩
    by_cases hans : tbl.Answers auth identifier
    · by_cases hs : Shadowed tbl auth identifier
      · exact missed (misses_of_shadowed hs) (misses_of_shadowed ((h hans).mp hs))
      · have hs' : ¬ Shadowed tbl' auth identifier := fun hs' => hs ((h hans).mpr hs')
        obtain ⟨row, hrow, hf, ho⟩ := findTask_own hs hans
        obtain ⟨row', -, hf', ho'⟩ := findTask_own hs' (ha.mp hans)
        rw [← hown, ho] at ho'
        cases ho'
        exact hk.serve_found (follows_body κ) hrow hown hf hf' γs
    · exact missed (findTask_unanswered hans) (findTask_unanswered fun h' => hans (ha.mpr h'))

/-- A task under way that has the id `upstream`. -/
def submittedSample (taskId tenant : String) : AsyncTask :=
  { sampleRow with taskId := taskId, idempotencyKey := taskId, tenant := tenant,
                   status := upstreamSubmitted, upstreamTaskId := some "upstream" }

def callerSample : AuthContext where
  channel := "channel"
  tenant := "tenant"
  bearer := none

/-- The caller's task alone, and behind another tenant's. -/
def aloneTable : Table := .single (submittedSample "task" "tenant")

def behindTable : Table :=
  ⟨[submittedSample "other" "stranger", submittedSample "task" "tenant"], by decide, by decide⟩

theorem tenants_apart_sample :
    (sampleContainer sampleTemplate).ownershipCheck = true ∧
      Undisturbed (sampleContainer sampleTemplate) sampleTemplate callerSample "task" aloneTable
        behindTable := by
  have hown : aloneTable.own callerSample = behindTable.own callerSample := rfl
  exact ⟨rfl, (tenants_apart rfl hown).mpr fun _ => by decide⟩

/-- Another tenant's task of the same upstream id hides the caller's: the cancel request that is
accepted without it is answered that there is no such task. -/
theorem tenants_hidden :
    aloneTable.own callerSample = behindTable.own callerSample ∧
      (Desk.serve (Work.body (sampleContainer sampleTemplate) sampleTemplate
        (.cancelRequest callerSample "upstream")) ⟨aloneTable, none⟩
        (List.replicate 6 ⟨0, .done⟩)).ended = some (.ok ()) ∧
      (Desk.serve (Work.body (sampleContainer sampleTemplate) sampleTemplate
        (.cancelRequest callerSample "upstream")) ⟨behindTable, none⟩
        (List.replicate 6 ⟨0, .done⟩)).ended =
          some (.error (.httpException 404 "task not found")) ∧
      ¬ Undisturbed (sampleContainer sampleTemplate) sampleTemplate callerSample "upstream"
        aloneTable behindTable := by
  have halone : (Desk.serve (Work.body (sampleContainer sampleTemplate) sampleTemplate
      (.cancelRequest callerSample "upstream")) ⟨aloneTable, none⟩
      (List.replicate 6 ⟨0, .done⟩)).ended = some (.ok ()) := by rfl
  have hbehind : (Desk.serve (Work.body (sampleContainer sampleTemplate) sampleTemplate
      (.cancelRequest callerSample "upstream")) ⟨behindTable, none⟩
      (List.replicate 6 ⟨0, .done⟩)).ended =
        some (.error (.httpException 404 "task not found")) := by rfl
  refine ⟨rfl, halone, hbehind, fun h => ?_⟩
  have hended := (h (.cancelRequest callerSample "upstream") (by simp)
    (List.replicate 6 ⟨0, .done⟩)).ended
  rw [halone, hbehind] at hended
  cases hended

end Lookup

end AsyncGateway
