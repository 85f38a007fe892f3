import AsyncGateway.Admin.Replay

/-!
# System — the tickets of the executed operations

Sequences of requests to the administration, on the tickets, the registry and the canary bindings
of its process.  An operation is executed when it changes one of them or a task (`Executed`), and
is matched by a ticket that was approved for its action, for what it changes and for its payload
(`Authorises`).

A ticket stays as it is when it is consumed, its digest is never compared, a patch changes the
alias of its draft and a binding is set before its ticket is looked at.  Where no request relies
on any of this (`Fair`), the executed operations have tickets of their own
(`four_eyes_of_fair`).
-/

namespace AsyncGateway

open AdminApp
open Interleave (Prog)

inductive AdminRequest : Type where
  | createApproval (actor : Actor) (body : Json.Fields)
  | approve (actor : Actor) (ticketId : String)
  | patchTemplate (actor : Actor) (ticketId : Option String) (a : String) (raw : Json.Fields)
  | publishTemplate (actor : Actor) (ticketId : Option String) (raw : Json.Fields)
  | setCanary (actor : Actor) (ticketId : Option String) (a : String) (body : Json.Fields)
  | replayTask (call : ReplayCall)
  | closeTask (actor : Actor) (ticketId : Option String) (taskId : String)
      (body : Option Json.Fields)

namespace AdminRequest

/-- `X-AG-Approval`. -/
def ticketId : AdminRequest → Option String
  | .patchTemplate _ ticketId _ _ => ticketId
  | .publishTemplate _ ticketId _ => ticketId
  | .setCanary _ ticketId _ _ => ticketId
  | .replayTask call => call.ticketId
  | .closeTask _ ticketId _ _ => ticketId
  | _ => none

/-- The body of the request; a replay has none. -/
def payload : AdminRequest → Json
  | .createApproval _ body => .obj body
  | .patchTemplate _ _ _ raw => .obj raw
  | .publishTemplate _ _ raw => .obj raw
  | .setCanary _ _ _ body => .obj body
  | .closeTask _ _ _ body => .obj (body.getD [])
  | _ => .obj []

def body (A : AdminApp) : AdminRequest → AdminHandler Unit
  | .createApproval actor body => do
      let _ ← A.createApproval actor body
      pure ()
  | .approve actor ticketId => AdminApp.approve actor ticketId
  | .patchTemplate actor ticketId a raw => AdminApp.patchTemplate actor ticketId a raw
  | .publishTemplate actor ticketId raw => A.publishTemplate actor ticketId raw
  | .setCanary actor ticketId a body => A.setCanary actor ticketId a body
  | .replayTask call => do
      let _ ← A.replayTask call
      pure ()
  | .closeTask actor ticketId taskId body => AdminApp.closeTask actor ticketId taskId body

end AdminRequest

inductive Operation : Type where
  | patch
  | publish
  | canary
  | replay
  | close
  deriving DecidableEq

/-- The action of an operation.  `close_task` asks for a ticket of `task.replay` and no ticket of
`task.close` can be made, so what the action of a close is called is left open. -/
def Operation.action (closeAction : String) : Operation → String
  | .patch => "template.patch"
  | .publish => "template.publish"
  | .canary => "template.canary"
  | .replay => "task.replay"
  | .close => closeAction

/-- An operation that was executed: for which request, on what, when, and the tickets then. -/
structure Executed where
  request : AdminRequest
  operation : Operation
  subject : String
  time : Time
  store : ApprovalStore

structure AdminWorld where
  approvals : ApprovalStore := .empty
  registry : Registry := .empty
  policies : String → ChannelPolicy := fun _ => {}
  executed : List Executed := []

/-- The time of a request, the ticket id it may draw, and what the stores answer it. -/
structure AdminChoice where
  now : Time
  drawn : String := ""
  answers : (o : AdminOp) → Except Exn o.Ans

/-- `entries[key] = value`: in its place where the key is there, else at the end. -/
def setEntry {β : Type} (entries : List (String × β)) (key : String) (value : β) :
    List (String × β) :=
  match entries with
  | [] => [(key, value)]
  | (k, v) :: rest => if k = key then (k, value) :: rest else (k, v) :: setEntry rest key value

/-- The policy with a weight bound. -/
def ChannelPolicy.bindCanary (policy : ChannelPolicy) (a : String) (version : ℤ) (weight : ℚ) :
    ChannelPolicy :=
  { policy with
    canary := setEntry policy.canary a
      (setEntry ((policy.canary.lookup a).getD []) (toString version) weight) }

namespace AdminWorld

variable (w : AdminWorld)

/-- The world with an operation executed in it. -/
def execute (request : AdminRequest) (operation : Operation) (subject : String) (time : Time) :
    AdminWorld :=
  { w with executed := ⟨request, operation, subject, time, w.approvals⟩ :: w.executed }

end AdminWorld

/-- What the process and the stores answer an operation of the request. -/
def AdminApp.serve (A : AdminApp) (r : AdminRequest) (γ : AdminChoice) :
    (o : AdminOp) → AdminWorld → Except Exn o.Ans × AdminWorld
  | .createTicket action subject digest actor, w =>
      (.ok γ.drawn,
        { w with approvals := w.approvals.create γ.drawn action subject digest actor γ.now })
  | .approveTicket ticketId approver, w =>
      match w.approvals.approve ticketId approver γ.now with
      | .ok approvals => (.ok (), { w with approvals := approvals })
      | .error x => (.error x, w)
  | .consume ticketId action subject, w =>
      (w.approvals.consume ticketId action subject γ.now, w)
  | .planChange raw, w =>
      (match w.registry.planChange A.library raw with
        | some plan => .ok plan
        | none => .error (.infrastructure "ValidationError"), w)
  | .patchInPlace raw, w =>
      match w.registry.patchInPlace A.library raw with
      | .ok (some tv, registry) =>
          (.ok (some tv), { w.execute r .patch tv.aliasName γ.now with registry := registry })
      | .ok (none, _) => (.ok none, w)
      | .error x => (.error x, w)
  | .register raw, w =>
      match w.registry.register A.library raw none true true with
      | some (some tv, registry) =>
          -- a change that two people need not review is no operation of high risk
          if (w.registry.planChange A.library raw).any (·.requiresDualReview) then
            (.ok (some tv), { w.execute r .publish tv.aliasName γ.now with registry := registry })
          else (.ok (some tv), { w with registry := registry })
      | some (none, _) => (.ok none, w)
      | none => (.error (.infrastructure "ValidationError"), w)
  | .templateVersion a version, w => (.ok (w.registry.get a (some version)), w)
  | .bindCanary channel a version weight, w =>
      (.ok (), { w.execute r .canary a γ.now with
        policies := Function.update w.policies channel
          ((w.policies channel).bindCanary a version weight) })
  | .getTask taskId, w =>
      -- a row is found under its own id
      (match γ.answers (.getTask taskId) with
        | .ok (some task) => .ok (if task.taskId = taskId then some task else none)
        | .ok none => .ok none
        | .error x => .error x, w)
  | .insert task, w =>
      match γ.answers (.insert task) with
      | .ok () => (.ok (), w.execute r .replay (task.replayOf.getD "") γ.now)
      | .error x => (.error x, w)
  | .write taskId op, w =>
      match γ.answers (.write taskId op) with
      | .ok true => (.ok true, w.execute r .close taskId γ.now)
      | .ok false => (.ok false, w)
      | .error x => (.error x, w)
  | o, w => (γ.answers o, w)

/-- What is answered in a world that stays as it is. -/
def AdminApp.answers (A : AdminApp) (r : AdminRequest) (γ : AdminChoice) (w : AdminWorld) :
    Stores := fun o => (A.serve r γ o w).1

/-- The world after a request. -/
def AdminApp.step (A : AdminApp) (w : AdminWorld) (h : AdminRequest × AdminChoice) : AdminWorld :=
  ((h.1.body A).run (A.serve h.1 h.2) w).2

/-- The world after a sequence of requests. -/
def AdminApp.after (A : AdminApp) (history : List (AdminRequest × AdminChoice))
    (w : AdminWorld) : AdminWorld := history.foldl A.step w

section Statements

variable (A : AdminApp) (closeAction : String)

/-- The ticket is for the action of the operation, what it changed and its payload, and was
approved by another actor and had not expired. -/
structure Authorises (e : Executed) (ticket : ApprovalTicket) : Prop where
  created : ticket ∈ e.store.tickets
  action : ticket.action = e.operation.action closeAction
  subject : ticket.subject = e.subject
  digest : ticket.payloadDigest = digestOf A.sha256 e.request.payload
  approved : ticket.ApprovedByOther
  valid : e.time ≤ ticket.expiresAt

/-- **Every executed operation has a ticket of its own.** -/
def FourEyes (w : AdminWorld) : Prop :=
  ∃ tickets, List.Forall₂ (Authorises A closeAction) w.executed tickets ∧
    (tickets.map (·.ticketId)).Nodup

/-- The ticket is one no operation was executed with, and was made for the payload. -/
def Fits (w : AdminWorld) (r : AdminRequest) (ticket : ApprovalTicket) : Prop :=
  (∀ e ∈ w.executed, e.request.ticketId ≠ some ticket.ticketId) ∧
    ticket.payloadDigest = digestOf A.sha256 r.payload

/-- The request is one that binds a canary, ticket or no ticket. -/
def BindsCanary (actor : Actor) (body : Json.Fields) : Prop :=
  actor.has [.operator, .approver] = true ∧
    (∃ version, A.intOf (fieldOr body "version" (.int 0)) = .ok version) ∧
    (∃ weight, A.floatOf (fieldOr body "weight" (.int 0)) = .ok weight) ∧
    A.container.pyStr (fieldOr body "channel" (.str "")) ≠ ""

/-- A patch that comes to its operation when its ticket is accepted: its fields may be changed in
place, and a version takes them. -/
structure Patches (w : AdminWorld) (actor : Actor) (raw : Json.Fields) : Prop where
  role : actor.has [.templateAuthor, .approver] = true
  plan : ∃ plan, w.registry.planChange A.library raw = some plan ∧ plan.applyMode = .inPlace
  version : ∃ tv registry, w.registry.patchInPlace A.library raw = .ok (some tv, registry)

/-- A publication that two people have to review, of a draft in order. -/
structure Publishes (w : AdminWorld) (actor : Actor) (raw : Json.Fields) (t : ResolvedTemplate) :
    Prop where
  role : actor.has [.templateAuthor, .approver] = true
  draft : A.library.validate raw = some t
  reviewed : (w.registry.planChange A.library raw).any (·.requiresDualReview) = true

/-- A close whose task is there, and moves. -/
structure Closes (γ : AdminChoice) (actor : Actor) (taskId : String) (body : Option Json.Fields)
    (task : TaskRecord) (reason : String) (finishedAt : Time) : Prop where
  role : actor.has [.operator, .approver] = true
  found : γ.answers (.getTask taskId) = .ok (some task)
  named : task.taskId = taskId
  readable : closeReason body = .ok reason
  clock : γ.answers .now = .ok finishedAt
  moved : γ.answers (.write taskId (.advance .dead (some [task.status])
    [.errorCode (some .unknownExhausted), .errorMessage (some reason),
      .finishedAt (some finishedAt), .nextPollAt none])) = .ok true

/-- A request that comes to its operation does not rely on what the code leaves out. -/
def Fair (w : AdminWorld) (h : AdminRequest × AdminChoice) : Prop :=
  match h.1 with
  | .patchTemplate actor ticketId a raw =>
      Patches A w actor raw → ∀ ticket,
        w.approvals.consume ticketId "template.patch" a h.2.now = .ok ticket →
          Fits A w h.1 ticket ∧ ∀ t, A.library.resolve raw = some t → t.aliasName = a
  | .publishTemplate actor ticketId raw =>
      ∀ t, Publishes A w actor raw t → ∀ ticket,
        w.approvals.consume ticketId "template.publish" t.aliasName h.2.now = .ok ticket →
          Fits A w h.1 ticket
  | .setCanary actor ticketId a body =>
      BindsCanary A actor body →
        ∃ ticket, w.approvals.consume ticketId "template.canary" a h.2.now = .ok ticket ∧
          Fits A w h.1 ticket
  | .replayTask call =>
      (∃ parent tv child, Admitted A (A.answers h.1 h.2 w) call parent tv child) → ∀ ticket,
        w.approvals.consume call.ticketId "task.replay" call.taskId h.2.now = .ok ticket →
          Fits A w h.1 ticket
  | .closeTask actor ticketId taskId body =>
      (∃ task reason finishedAt, Closes h.2 actor taskId body task reason finishedAt) → ∀ ticket,
        w.approvals.consume ticketId "task.replay" taskId h.2.now = .ok ticket →
          Fits A w h.1 ticket ∧ closeAction = "task.replay"
  | _ => True

/-- Every request of the sequence is fair where it comes. -/
def AllFair : List (AdminRequest × AdminChoice) → AdminWorld → Prop
  | [], _ => True
  | h :: history, w => Fair A closeAction w h ∧ AllFair history (A.step w h)

end Statements

/-! ### One request -/

section Step

variable {A : AdminApp} {closeAction : String} {r : AdminRequest} {γ : AdminChoice} {α β : Type}
  {Q : AdminWorld → Prop} {w : AdminWorld}

/-- The program ends in such a world. -/
def EndsIn (A : AdminApp) (r : AdminRequest) (γ : AdminChoice) (p : AdminHandler α)
    (w : AdminWorld) (Q : AdminWorld → Prop) : Prop := Q (p.run (A.serve r γ) w).2

namespace EndsIn

theorem pure {a : α} (h : Q w) : EndsIn A r γ (Prog.pure a) w Q := h

theorem refuse {status : ℕ} {detail : String} (h : Q w) :
    EndsIn A r γ (AdminApp.refuse status detail : AdminHandler α) w Q := h

/-- An operation is asked for, and the program goes on from the world it leaves. -/
theorem ask {o : AdminOp} {f : o.Ans → AdminHandler α}
    (herror : ∀ x, (A.serve r γ o w).1 = .error x → Q (A.serve r γ o w).2)
    (hok : ∀ a, (A.serve r γ o w).1 = .ok a → EndsIn A r γ (f a) (A.serve r γ o w).2 Q) :
    EndsIn A r γ ((askAdmin o).bind f) w Q := by
  have hrun : (askAdmin o).run (A.serve r γ) w = A.serve r γ o w := Prog.run_perform _ _ _
  unfold EndsIn at hok ⊢
  rw [Prog.run_bind, hrun]
  rcases hs : A.serve r γ o w with ⟨x | a, w'⟩
  · rw [hs] at herror
    exact herror x rfl
  · rw [hs] at hok
    exact hok a rfl

/-- An operation that leaves the world. -/
theorem look {o : AdminOp} {f : o.Ans → AdminHandler α} (hw : (A.serve r γ o w).2 = w) (h : Q w)
    (hok : ∀ a, (A.serve r γ o w).1 = .ok a → EndsIn A r γ (f a) w Q) :
    EndsIn A r γ ((askAdmin o).bind f) w Q :=
  ask (fun _ _ => hw.symm ▸ h) fun a ha => hw.symm ▸ hok a ha

theorem last {o : AdminOp} (hw : (A.serve r γ o w).2 = w) (h : Q w) :
    EndsIn A r γ (askAdmin o) w Q := by
  have hrun : (askAdmin o).run (A.serve r γ) w = A.serve r γ o w := Prog.run_perform _ _ _
  unfold EndsIn
  rw [hrun, hw]
  exact h

/-- As `look`, where the failure of the operation is refused. -/
theorem attempt {o : AdminOp} {status : ℕ} {detail : String} {f : o.Ans → AdminHandler α}
    (hw : (A.serve r γ o w).2 = w) (h : Q w)
    (hok : ∀ a, (A.serve r γ o w).1 = .ok a → EndsIn A r γ (f a) w Q) :
    EndsIn A r γ ((Prog.tryCatch (askAdmin o) fun _ => AdminApp.refuse status detail).bind f) w
      Q := by
  unfold EndsIn at hok ⊢
  simp only [askAdmin, Prog.perform, Prog.tryCatch, Prog.bind, Prog.run, hw]
  cases hs : (A.serve r γ o w).1 with
  | ok a => exact hok a hs
  | error x => exact h

theorem check {c : Except Exn β} {f : β → AdminHandler α} (h : Q w)
    (hok : ∀ a, c = .ok a → EndsIn A r γ (f a) w Q) :
    EndsIn A r γ ((Prog.ofExcept c).bind f) w Q := by
  cases c with
  | ok a => exact hok a rfl
  | error x => exact h

theorem ite {c : Prop} [Decidable c] {p q : AdminHandler α} (hp : c → EndsIn A r γ p w Q)
    (hq : ¬ c → EndsIn A r γ q w Q) : EndsIn A r γ (if c then p else q) w Q := by
  split
  · exact hp ‹_›
  · exact hq ‹_›

/-- What a program ends in does not depend on what is made of its result. -/
theorem ignore {p : AdminHandler α} (h : EndsIn A r γ p w Q) :
    EndsIn A r γ (p.bind fun _ => Prog.pure ()) w Q := by
  unfold EndsIn at h ⊢
  rw [Prog.run_bind]
  rcases hrun : p.run (A.serve r γ) w with ⟨x | a, w'⟩
  · rw [hrun] at h ⊢
    exact h
  · rw [hrun] at h ⊢
    exact h

end EndsIn

/-- What a request adds to the executed operations: nothing, or one that its ticket authorises
and that is the first of that ticket. -/
def Adds (A : AdminApp) (closeAction : String) (w w' : AdminWorld) : Prop :=
  w'.executed = w.executed ∨
    ∃ e ticket, w'.executed = e :: w.executed ∧ e.request.ticketId = some ticket.ticketId ∧
      Authorises A closeAction e ticket ∧
      ∀ e' ∈ w.executed, e'.request.ticketId ≠ some ticket.ticketId

theorem Adds.none (w : AdminWorld) : Adds A closeAction w w := .inl rfl

/-- The operation of a request whose ticket was consumed for it, and fits. -/
theorem Adds.of_consume (operation : Operation) {subject : String} {ticket : ApprovalTicket}
    (hc : w.approvals.consume r.ticketId (operation.action closeAction) subject γ.now = .ok ticket)
    (hf : Fits A w r ticket) {w' : AdminWorld}
    (hw : w'.executed = ⟨r, operation, subject, γ.now, w.approvals⟩ :: w.executed) :
    Adds A closeAction w w' := by
  obtain ⟨hmem, hid, haction, hsubject, hother, htime⟩ := ApprovalStore.of_consume hc
  exact .inr ⟨_, ticket, hw, hid, ⟨hmem, haction, hsubject, hf.2, hother, htime⟩, hf.1⟩

/-- Whether the rest of a program adds anything is a matter of the executed operations alone. -/
theorem Adds.congr {w₁ w₂ : AdminWorld} (h : w₁.executed = w₂.executed)
    (ha : Adds A closeAction w w₁) : Adds A closeAction w w₂ := by
  unfold Adds at ha ⊢
  rwa [← h]

theorem endsIn_createApproval (actor : Actor) (body : Json.Fields) :
    EndsIn A r γ (A.createApproval actor body) w (Adds A closeAction w) := by
  unfold AdminApp.createApproval
  dsimp only
  split
  · exact .refuse (.none w)
  · refine .check (.none w) fun _ _ => .ask (fun _ _ => .inl rfl) fun _ _ => ?_
    exact .look rfl (.inl rfl) fun _ _ => .pure (.inl rfl)

theorem endsIn_approve (actor : Actor) (ticketId : String) :
    EndsIn A r γ (AdminApp.approve actor ticketId) w (Adds A closeAction w) := by
  have happrove : (A.serve r γ (.approveTicket ticketId actor) w).2.executed = w.executed := by
    unfold AdminApp.serve
    dsimp only
    split <;> rfl
  refine .check (.none w) fun _ _ => .ask (fun _ _ => .inl happrove) fun _ _ => ?_
  exact .last rfl (.inl happrove)

theorem endsIn_recordChange {actor : Actor} {ticketId : Option String} {tv : TemplateVersion}
    {eventType subject detail : String} {raw : Json.Fields} (h : Q w) :
    EndsIn A r γ (recordChange actor ticketId tv eventType subject detail raw) w Q :=
  .look rfl h fun _ _ => .last rfl h

theorem planChange_of_answer {raw : Json.Fields} {plan : ChangePlan}
    (h : A.answers r γ w (.planChange raw) = .ok plan) :
    w.registry.planChange A.library raw = some plan := by
  cases hp : w.registry.planChange A.library raw with
  | none => simp [AdminApp.answers, AdminApp.serve, hp] at h
  | some plan' => simpa [AdminApp.answers, AdminApp.serve, hp] using h

theorem aliasName_of_patchInPlace {L : TemplateLibrary} {R R' : Registry} {raw : Json.Fields}
    {tv : TemplateVersion} (h : R.patchInPlace L raw = .ok (some tv, R')) :
    ∃ t, L.resolve raw = some t ∧ tv.aliasName = t.aliasName := by
  rcases Registry.patchInPlace_eq_ok h with ⟨hnone, -⟩ | ⟨_, t, current, -, ht, -, hcurrent, htv, -⟩
  · cases hnone
  · cases htv
    exact ⟨t, L.resolve_of_validate ht, (R.named _ _ (Registry.mem_of_get hcurrent)).1⟩

theorem endsIn_patchTemplate {actor : Actor} {ticketId : Option String} {a : String}
    {raw : Json.Fields}
    (h : Fair A closeAction w (.patchTemplate actor ticketId a raw, γ)) :
    EndsIn A (.patchTemplate actor ticketId a raw) γ
      (AdminApp.patchTemplate actor ticketId a raw) w (Adds A closeAction w) := by
  refine .check (.none w) fun _ hrole => .attempt rfl (.none w) fun plan hplan =>
    .ite (fun _ => .refuse (.none w)) fun hmode => .look rfl (.none w) fun ticket hticket => ?_
  -- the version that is patched is of the draft's alias, which is that of the path
  have hpatch : Adds A closeAction w
      (A.serve (.patchTemplate actor ticketId a raw) γ (.patchInPlace raw) w).2 := by
    unfold AdminApp.serve
    dsimp only
    split
    · rename_i tv registry htv
      obtain ⟨hfits, hown⟩ := h ⟨require_eq_ok.mp hrole,
        ⟨plan, planChange_of_answer hplan, not_not.mp hmode⟩, tv, registry, htv⟩ ticket hticket
      obtain ⟨t, ht, hname⟩ := aliasName_of_patchInPlace htv
      have hc : w.approvals.consume ticketId "template.patch" tv.aliasName γ.now = .ok ticket := by
        rw [hname, hown t ht]
        exact hticket
      exact .of_consume .patch hc hfits rfl
    · exact .none w
    · exact .none w
  refine .ask (fun _ _ => hpatch) fun patched _ => ?_
  cases patched with
  | none => exact .refuse hpatch
  | some tv => exact endsIn_recordChange hpatch

theorem aliasName_of_register {L : TemplateLibrary} {R R' : Registry} {raw : Json.Fields}
    {version : Option ℕ} {enabled validateFirst : Bool} {tv : TemplateVersion}
    (h : R.register L raw version enabled validateFirst = some (some tv, R')) :
    ∃ t, L.resolve raw = some t ∧ tv.aliasName = t.aliasName := by
  rcases Registry.register_eq_some h with ⟨hnone, -⟩ | ⟨t, ht, htv, -⟩
  · cases hnone
  · cases htv
    exact ⟨t, ht, rfl⟩

/-- What is registered is of high risk only where the plan asked for a ticket. -/
theorem adds_register {actor : Actor} {ticketId : Option String} {raw : Json.Fields}
    {t : ResolvedTemplate} {plan : ChangePlan}
    (h : Fair A closeAction w (.publishTemplate actor ticketId raw, γ))
    (hrole : actor.has [.templateAuthor, .approver] = true)
    (hvalid : A.library.validate raw = some t)
    (hplan : w.registry.planChange A.library raw = some plan)
    (hticket : plan.requiresDualReview = true →
      ∃ ticket, w.approvals.consume ticketId "template.publish" t.aliasName γ.now = .ok ticket) :
    Adds A closeAction w
      (A.serve (.publishTemplate actor ticketId raw) γ (.register raw) w).2 := by
  unfold AdminApp.serve
  dsimp only
  split
  · rename_i tv registry htv
    split
    · rename_i hreview
      obtain ⟨t', ht', hname⟩ := aliasName_of_register htv
      obtain rfl : t' = t :=
        Option.some.inj (ht'.symm.trans (A.library.resolve_of_validate hvalid))
      obtain ⟨ticket, hticket⟩ := hticket (by simpa [hplan] using hreview)
      have hfits := h t' ⟨hrole, hvalid, hreview⟩ ticket hticket
      rw [← hname] at hticket
      exact .of_consume .publish hticket hfits rfl
    · exact .inl rfl
  · exact .none w
  · exact .none w

theorem endsIn_publishTemplate {actor : Actor} {ticketId : Option String} {raw : Json.Fields}
    (h : Fair A closeAction w (.publishTemplate actor ticketId raw, γ)) :
    EndsIn A (.publishTemplate actor ticketId raw) γ
      (A.publishTemplate actor ticketId raw) w (Adds A closeAction w) := by
  refine .check (.none w) fun _ hrole => ?_
  have hrole := require_eq_ok.mp hrole
  cases hvalid : A.library.validate raw with
  | none => exact .refuse (.none w)
  | some t =>
      refine .look rfl (.none w) fun plan hplan => ?_
      have hplan := planChange_of_answer hplan
      by_cases hreview : plan.requiresDualReview = true
      · rw [reviewPublication, if_pos hreview, Prog.bind_eq, Prog.bind_eq, Prog.bind_assoc]
        refine .look rfl (.none w) fun ticket hticket => ?_
        have hadds := adds_register h hrole hvalid hplan fun _ => ⟨ticket, hticket⟩
        refine .ask (fun _ _ => hadds) fun registered _ => ?_
        cases registered with
        | none => exact .refuse hadds
        | some tv => exact endsIn_recordChange hadds
      · rw [reviewPublication, if_neg hreview]
        have hadds := adds_register h hrole hvalid hplan fun hr => absurd hr hreview
        refine .ask (fun _ _ => hadds) fun registered _ => ?_
        cases registered with
        | none => exact .refuse hadds
        | some tv => exact endsIn_recordChange hadds

theorem endsIn_setCanary {actor : Actor} {ticketId : Option String} {a : String}
    {body : Json.Fields} (h : Fair A closeAction w (.setCanary actor ticketId a body, γ)) :
    EndsIn A (.setCanary actor ticketId a body) γ
      (A.setCanary actor ticketId a body) w (Adds A closeAction w) := by
  refine .check (.none w) fun _ hrole => .check (.none w) fun version hversion =>
    .check (.none w) fun weight hweight => ?_
  dsimp only
  refine .ite (fun _ => .refuse (.none w)) fun hchannel => ?_
  -- the binding is set; the ticket it is not yet asked for is one that fits
  obtain ⟨ticket, hticket, hfits⟩ :=
    h ⟨require_eq_ok.mp hrole, ⟨version, hversion⟩, ⟨weight, hweight⟩, hchannel⟩
  have hadds : Adds A closeAction w
      (A.serve (.setCanary actor ticketId a body) γ
        (.bindCanary (A.container.pyStr (fieldOr body "channel" (.str ""))) a version
          (clampWeight weight)) w).2 :=
    .of_consume .canary hticket hfits rfl
  refine .ask (fun _ _ => hadds) fun _ _ => .look rfl hadds fun _ _ => .look rfl hadds fun _ _ => ?_
  exact .last rfl hadds

theorem endsIn_parentBody {parent : TaskRecord} {f : Json.Fields → AdminHandler α}
    (hok : EndsIn A r γ (f (readBody (A.answers r γ w) parent)) w Q) :
    EndsIn A r γ ((parentBody parent).bind f) w Q := by
  unfold parentBody
  unfold readBody at hok
  cases href : nonEmpty parent.createReqRef with
  | none =>
      rw [href] at hok
      exact hok
  | some ref =>
      rw [href] at hok
      have hstore : A.serve r γ (.getJson ref) w = (γ.answers (.getJson ref), w) := rfl
      have hanswer : A.answers r γ w (.getJson ref) = γ.answers (.getJson ref) := rfl
      unfold EndsIn at hok ⊢
      simp only [hanswer] at hok
      simp only [askAdmin, Prog.perform, Prog.tryCatch, Prog.bind_eq, Prog.bind, Prog.run, hstore]
      cases hs : γ.answers (.getJson ref) with
      | ok doc =>
          rw [hs] at hok
          cases doc <;> exact hok
      | error x =>
          rw [hs] at hok
          exact hok

theorem endsIn_replayToken {t : ResolvedTemplate} {f : Option String → AdminHandler α} (h : Q w)
    (hok : ∀ token, drawnToken (A.answers r γ w) t = .ok token → EndsIn A r γ (f token) w Q) :
    EndsIn A r γ ((replayToken t).bind f) w Q := by
  unfold replayToken
  unfold drawnToken at hok
  split
  · rename_i hcallback
    rw [if_pos hcallback] at hok
    rw [Prog.bind_eq, Prog.bind_assoc]
    refine .look rfl h fun token htoken => hok (some token) ?_
    change Except.map some (A.serve r γ .newOpaqueToken w).1 = _
    rw [htoken]
    rfl
  · rename_i hcallback
    rw [if_neg hcallback] at hok
    exact hok none rfl

/-- A child is inserted where it is drawn and the row is taken; the ticket is one that fits then. -/
theorem endsIn_createChild {call : ReplayCall} {parent : TaskRecord} {t : ResolvedTemplate}
    {body : Json.Fields} {credential : String} {ticket : ApprovalTicket}
    (hc : w.approvals.consume call.ticketId "task.replay" parent.taskId γ.now = .ok ticket)
    (hf : ∀ child, Draws A (A.answers (.replayTask call) γ w) call parent t body child →
      γ.answers (.insert child) = .ok () → Fits A w (.replayTask call) ticket) :
    EndsIn A (.replayTask call) γ (A.createChild call parent t body credential) w
      (Adds A closeAction w) := by
  refine .look rfl (.none w) fun childId hid => .look rfl (.none w) fun _ hput =>
    .look rfl (.none w) fun bucketAt hbucket => .look rfl (.none w) fun deadlineFrom hnow =>
    endsIn_replayToken (.none w) fun token htoken => ?_
  have hadds : Adds A closeAction w (A.serve (.replayTask call) γ
      (.insert (replayRow parent t call childId bucketAt deadlineFrom token)) w).2 := by
    unfold AdminApp.serve
    dsimp only
    split
    · rename_i hinsert
      exact .of_consume .replay hc (hf _ ⟨childId, bucketAt, deadlineFrom, token, hid, hput,
        hbucket, hnow, htoken, rfl⟩ hinsert) rfl
    · exact .none w
  exact .ask (fun _ _ => hadds) fun _ _ => .look rfl hadds fun _ _ => .look rfl hadds fun _ _ =>
    .look rfl hadds fun _ _ => .pure hadds

/-- A row is found under its own id. -/
theorem getTask_of_answer {taskId : String} {task : TaskRecord}
    (h : A.answers r γ w (.getTask taskId) = .ok (some task)) :
    γ.answers (.getTask taskId) = .ok (some task) ∧ task.taskId = taskId := by
  unfold AdminApp.answers AdminApp.serve at h
  dsimp only at h
  split at h
  · rename_i found hfound
    simp only [Except.ok.injEq] at h
    split at h
    · rename_i hnamed
      cases h
      exact ⟨hfound, hnamed⟩
    · cases h
  · cases h
  · cases h

theorem endsIn_replayTask {call : ReplayCall}
    (h : Fair A closeAction w (.replayTask call, γ)) :
    EndsIn A (.replayTask call) γ (A.replayTask call) w (Adds A closeAction w) := by
  refine .check (.none w) fun _ hrole => .look rfl (.none w) fun found hfound => ?_
  cases found with
  | none => exact .refuse (.none w)
  | some parent =>
      obtain ⟨-, hparent⟩ := getTask_of_answer hfound
      dsimp only
      refine .ite (fun _ => .refuse (.none w)) fun hover => .ite (fun _ => .refuse (.none w))
        fun hreal => .look rfl (.none w) fun ticket hticket => .look rfl (.none w) fun _ hrate =>
        .ite (fun _ => .refuse (.none w)) fun hunsent => .look rfl (.none w) fun version htv => ?_
      cases version with
      | none => exact .refuse (.none w)
      | some tv =>
          refine .ite (fun _ => .refuse (.none w)) fun hasked => endsIn_parentBody ?_
          dsimp only
          refine .ite (fun _ => .refuse (.none w)) fun hcredential => endsIn_createChild ?_
            fun child hdrawn htaken => h ⟨parent, tv, child,
              { role := require_eq_ok.mp hrole
                found := hfound
                ended := by grind
                real := hreal
                ticket := ⟨ticket, hticket⟩
                rate := hrate
                unsent := by simpa using hunsent
                template := htv
                asked := by simpa using hasked
                credential := hcredential
                drawn := hdrawn
                taken := ?_ }⟩ ticket hticket
          · rw [hparent]
            exact hticket
          · unfold AdminApp.answers AdminApp.serve
            dsimp only
            rw [htaken]

theorem endsIn_closeTask {actor : Actor} {ticketId : Option String} {taskId : String}
    {body : Option Json.Fields}
    (h : Fair A closeAction w (.closeTask actor ticketId taskId body, γ)) :
    EndsIn A (.closeTask actor ticketId taskId body) γ
      (AdminApp.closeTask actor ticketId taskId body) w (Adds A closeAction w) := by
  refine .check (.none w) fun _ hrole => .look rfl (.none w) fun ticket hticket =>
    .look rfl (.none w) fun found hfound => ?_
  cases found with
  | none => exact .refuse (.none w)
  | some task =>
      obtain ⟨hfound, hnamed⟩ := getTask_of_answer hfound
      refine .check (.none w) fun reason hreason => .look rfl (.none w) fun finishedAt hclock => ?_
      have hadds : Adds A closeAction w (A.serve (.closeTask actor ticketId taskId body) γ
          (.write taskId (.advance .dead (some [task.status])
            [.errorCode (some .unknownExhausted), .errorMessage (some reason),
              .finishedAt (some finishedAt), .nextPollAt none])) w).2 := by
        unfold AdminApp.serve
        dsimp only
        split
        · rename_i hmoved
          obtain ⟨hfits, hclose⟩ := h ⟨task, reason, finishedAt,
            ⟨require_eq_ok.mp hrole, hfound, hnamed, hreason, hclock, hmoved⟩⟩ ticket hticket
          have hc : w.approvals.consume ticketId (Operation.close.action closeAction) taskId
              γ.now = .ok ticket := by
            rw [Operation.action, hclose]
            exact hticket
          exact .of_consume .close hc hfits rfl
        · exact .none w
        · exact .none w
      refine .ask (fun _ _ => hadds) fun moved _ => .ite (fun _ => .refuse hadds) fun _ => ?_
      exact .last rfl hadds

/-- **A fair request adds no operation that its ticket does not authorise.** -/
theorem adds_step {h : AdminRequest × AdminChoice} (hf : Fair A closeAction w h) :
    Adds A closeAction w (A.step w h) := by
  obtain ⟨r, γ⟩ := h
  cases r with
  | createApproval actor body => exact (endsIn_createApproval actor body).ignore
  | approve actor ticketId => exact endsIn_approve actor ticketId
  | patchTemplate actor ticketId a raw => exact endsIn_patchTemplate hf
  | publishTemplate actor ticketId raw => exact endsIn_publishTemplate hf
  | setCanary actor ticketId a body => exact endsIn_setCanary hf
  | replayTask call => exact (endsIn_replayTask hf).ignore
  | closeTask actor ticketId taskId body => exact endsIn_closeTask hf

end Step

/-! ### Sequences of requests -/

section Histories

variable (A : AdminApp) (closeAction : String)

/-- Every executed operation has a ticket of its own: the one its request carries. -/
def Matched (w : AdminWorld) : Prop :=
  ∃ tickets, List.Forall₂ (fun e ticket => e.request.ticketId = some ticket.ticketId ∧
      Authorises A closeAction e ticket) w.executed tickets ∧
    (tickets.map (·.ticketId)).Nodup

variable {A closeAction}

theorem Matched.fourEyes {w : AdminWorld} (h : Matched A closeAction w) :
    FourEyes A closeAction w := by
  obtain ⟨tickets, hall, hnodup⟩ := h
  exact ⟨tickets, hall.imp fun _ _ h => h.2, hnodup⟩

/-- A ticket of a matching is carried by the request of an operation. -/
theorem exists_carrier {executed : List Executed} {tickets : List ApprovalTicket}
    (h : List.Forall₂ (fun e ticket => e.request.ticketId = some ticket.ticketId ∧
      Authorises A closeAction e ticket) executed tickets) {ticket : ApprovalTicket}
    (ht : ticket ∈ tickets) :
    ∃ e ∈ executed, e.request.ticketId = some ticket.ticketId := by
  induction h with
  | nil => exact absurd ht List.not_mem_nil
  | @cons e other executed tickets hd _ ih =>
      rcases List.mem_cons.mp ht with rfl | ht
      · exact ⟨e, List.mem_cons_self, hd.1⟩
      · obtain ⟨e', he', hcarried⟩ := ih ht
        exact ⟨e', List.mem_cons_of_mem _ he', hcarried⟩

theorem Matched.adds {w w' : AdminWorld} (h : Matched A closeAction w)
    (ha : Adds A closeAction w w') : Matched A closeAction w' := by
  obtain ⟨tickets, hall, hnodup⟩ := h
  rcases ha with hw | ⟨e, ticket, hw, hid, hauth, hfirst⟩
  · exact ⟨tickets, hw ▸ hall, hnodup⟩
  · refine ⟨ticket :: tickets, hw ▸ .cons ⟨hid, hauth⟩ hall, ?_⟩
    rw [List.map_cons, List.nodup_cons]
    refine ⟨?_, hnodup⟩
    intro hmem
    obtain ⟨other, hother, heq⟩ := List.mem_map.mp hmem
    obtain ⟨e', he', hcarried⟩ := exists_carrier hall hother
    exact hfirst e' he' (hcarried.trans (congrArg some heq))

/-- **Four eyes, in every state of a sequence of fair requests.** -/
theorem four_eyes_of_fair (A : AdminApp) (closeAction : String)
    (history : List (AdminRequest × AdminChoice)) (w : AdminWorld) (hw : w.executed = [])
    (h : AllFair A closeAction history w) (n : ℕ) :
    FourEyes A closeAction (A.after (history.take n) w) := by
  suffices hrun : ∀ (history : List (AdminRequest × AdminChoice)) (w : AdminWorld) (n : ℕ),
      Matched A closeAction w → AllFair A closeAction history w →
        Matched A closeAction (A.after (history.take n) w) by
    exact (hrun history w n ⟨[], hw ▸ .nil, List.nodup_nil⟩ h).fourEyes
  intro history
  induction history with
  | nil =>
      intro w n hm _
      rw [List.take_nil]
      exact hm
  | cons first rest ih =>
      intro w n hm hfair
      cases n with
      | zero => exact hm
      | succ n => exact ih (A.step w first) n (hm.adds (adds_step hfair.1)) hfair.2

end Histories

/-! ### A canary with a ticket, and one without -/

section Sample

def sampleAdmin : AdminApp where
  library := { resolve := fun _ => none }
  container := sampleContainer sampleTemplate
  sha256 := id

/-- Version 1 of the template is rolled back on a channel. -/
def rollback : Json.Fields := [("version", .int 1), ("weight", .int 0), ("channel", .str "ch")]

def atTime (now : Time) : AdminChoice where
  now := now
  drawn := "ticket-1"
  answers := forgetfulStores

def reviewedRollback : List (AdminRequest × AdminChoice) :=
  [(.createApproval ⟨"operator-1", [.operator]⟩
      [("action", .str "template.canary"), ("subject", .str "video"), ("payload", .obj rollback)],
    atTime 0),
    (.approve ⟨"approver-1", [.approver]⟩ "ticket-1", atTime 60),
    (.setCanary ⟨"operator-1", [.operator]⟩ (some "ticket-1") "video" rollback, atTime 120)]

def rollbackTicket : ApprovalTicket where
  ticketId := "ticket-1"
  action := "template.canary"
  subject := "video"
  payloadDigest := digestOf id (.obj rollback)
  submittedBy := "operator-1"
  approvedBy := some "approver-1"
  approvedAt := some 60
  expiresAt := 14400

theorem reviewed_rollback_is_four_eyed :
    (sampleAdmin.after reviewedRollback {}).executed.length = 1 ∧
      ∀ n, FourEyes sampleAdmin "task.replay" (sampleAdmin.after (reviewedRollback.take n) {}) := by
  let before := sampleAdmin.after (reviewedRollback.take 2) {}
  have hc : (before.approvals.consume (some "ticket-1") "template.canary" "video" 120).toOption =
      some rollbackTicket := by decide +kernel
  have hnone : before.executed.length = 0 := by decide +kernel
  refine ⟨by decide +kernel, four_eyes_of_fair sampleAdmin "task.replay" reviewedRollback {} rfl
    ⟨trivial, trivial, fun _ => ?_, trivial⟩⟩
  cases hticket : before.approvals.consume (some "ticket-1") "template.canary" "video" 120 with
  | error x =>
      rw [hticket] at hc
      cases hc
  | ok ticket =>
      rw [hticket] at hc
      obtain rfl : ticket = rollbackTicket := Option.some.inj hc
      refine ⟨rollbackTicket, hticket, fun e he => ?_, rfl⟩
      change e ∈ before.executed at he
      rw [List.length_eq_zero_iff.mp hnone] at he
      exact absurd he List.not_mem_nil

/-- **A canary is changed without a ticket.** -/
theorem canary_without_ticket :
    ¬ ∀ (A : AdminApp) (closeAction : String) (history : List (AdminRequest × AdminChoice))
      (w : AdminWorld), w.executed = [] → ∀ n,
        FourEyes A closeAction (A.after (history.take n) w) := by
  intro h
  let history : List (AdminRequest × AdminChoice) :=
    [(.setCanary ⟨"operator-1", [.operator]⟩ none "video" rollback, atTime 0)]
  obtain ⟨tickets, hall, -⟩ := h sampleAdmin "task.replay" history {} rfl 1
  -- the one operation was executed on an empty store
  have hempty : ((sampleAdmin.after (history.take 1) {}).executed.map
      fun e => e.store.tickets.length) = [0] := by decide +kernel
  generalize (sampleAdmin.after (history.take 1) {}).executed = executed at hall hempty
  cases hall with
  | nil => cases hempty
  | cons hauth _ =>
      have hnone := List.length_eq_zero_iff.mp (List.cons.inj hempty).1
      exact absurd hauth.created (by rw [hnone]; exact List.not_mem_nil)

end Sample

end AsyncGateway
