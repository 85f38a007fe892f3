import AsyncGateway.Admin.App
import AsyncGateway.System.Gateway

/-!
# Admin — a replay and the request it repeats

One call of `replayTask`, against stores that answer every operation (`Stores`).  A call makes
something, a row, a credential or a message, exactly when it passes every check the code makes and
the stores take what it writes (`makes_iff`); the row it then makes has the body it read of its
parent, or an empty one.

The call keeps the request exactly when no such call is made for a parent outside `replay_child`,
or for one whose body cannot be read (`replay_keeps_request_iff`).
-/

namespace AsyncGateway

open TaskStatus AdminApp
open Interleave (Prog)

/-- What the stores answer to each operation of a call. -/
abbrev Stores := (o : AdminOp) → Except Exn o.Ans

abbrev AdminHeard := Σ o : AdminOp, Except Exn o.Ans

namespace Stores

variable (γ : Stores)

/-- The operations of a program, and their answers. -/
def heard {α : Type} (p : AdminHandler α) : List AdminHeard :=
  p.trace (fun o (_ : Unit) => (γ o, ())) ()

end Stores

/-- The operations that make a row, a credential or a message. -/
def AdminOp.creates : AdminOp → Bool
  | .insert _ => true
  | .putCredential _ _ _ => true
  | .enqueue _ _ => true
  | _ => false

def AdminHeard.makes (e : AdminHeard) : Bool := e.1.creates && e.2.isOk

/-- The statuses `WRITE_PATHS["replay_child"]` lists. -/
def replayChild : List TaskStatus := [dead, deadAwaitingConfirm]

/-- The body the store has under the reference of a task, where there is one that can be read. -/
def StoredBody (γ : Stores) (parent : TaskRecord) (body : Json.Fields) : Prop :=
  ∃ ref, nonEmpty parent.createReqRef = some ref ∧ γ (.getJson ref) = .ok (.obj body)

section Replay

variable (A : AdminApp) (γ : Stores) (call : ReplayCall)

/-- A child row, under whose reference this body was stored. -/
def ChildWith (body : Json.Fields) (child : TaskRecord) : Prop :=
  ⟨.insert child, .ok ()⟩ ∈ γ.heard (A.replayTask call) ∧
    ∃ key ttl, child.createReqRef = some key ∧
      ⟨.putJson key (.obj body) ttl, .ok ()⟩ ∈ γ.heard (A.replayTask call)

/-- **The call makes nothing, or a child with the body of a parent that may be replayed.** -/
def KeepsRequest : Prop :=
  (∀ e ∈ γ.heard (A.replayTask call), e.makes = false) ∨
    ∃ parent body child, γ (.getTask call.taskId) = .ok (some parent) ∧
      StoredBody γ parent body ∧ ChildWith A γ call body child ∧
      child.replayOf = some parent.taskId ∧ parent.status ∈ replayChild ∧
      nonEmpty parent.upstreamTaskId = none

/-! ### What is heard of a part of the call -/

section Heard

variable {γ} {α β : Type} {e : AdminHeard}

/-- The program makes something. -/
def Makes (γ : Stores) (p : AdminHandler α) : Prop := ∃ e ∈ γ.heard p, e.makes = true

@[simp] theorem heard_ask_bind {o : AdminOp} {f : o.Ans → AdminHandler α} :
    e ∈ γ.heard ((askAdmin o).bind f) ↔
      e = ⟨o, γ o⟩ ∨ ∃ a, γ o = .ok a ∧ e ∈ γ.heard (f a) := by
  have h : e ∈ γ.heard (askAdmin o) ↔ e = ⟨o, γ o⟩ := by
    unfold Stores.heard askAdmin Prog.perform
    simp only [Prog.trace, List.mem_cons]
    cases γ o <;> simp [Prog.trace]
  have hrun : (askAdmin o).run (fun o (_ : Unit) => (γ o, ())) () = (γ o, ()) :=
    Prog.run_perform _ _ _
  unfold Stores.heard at h ⊢
  rw [Prog.mem_trace_bind, h, hrun]
  refine or_congr_right ⟨?_, ?_⟩
  · rintro ⟨a, s', heq, he⟩
    exact ⟨a, congrArg Prod.fst heq, he⟩
  · rintro ⟨a, ha, he⟩
    exact ⟨a, (), Prod.ext ha rfl, he⟩

theorem makes_ask_bind {o : AdminOp} {f : o.Ans → AdminHandler α} :
    Makes γ ((askAdmin o).bind f) ↔
      AdminHeard.makes ⟨o, γ o⟩ = true ∨ ∃ a, γ o = .ok a ∧ Makes γ (f a) := by
  constructor
  · rintro ⟨e, he, hm⟩
    rcases heard_ask_bind.mp he with rfl | ⟨a, ha, he⟩
    · exact .inl hm
    · exact .inr ⟨a, ha, e, he, hm⟩
  · rintro (hm | ⟨a, ha, e, he, hm⟩)
    · exact ⟨_, heard_ask_bind.mpr (.inl rfl), hm⟩
    · exact ⟨e, heard_ask_bind.mpr (.inr ⟨a, ha, he⟩), hm⟩

theorem heard_ofExcept_bind {r : Except Exn β} {f : β → AdminHandler α} :
    e ∈ γ.heard ((Prog.ofExcept r).bind f) ↔ ∃ a, r = .ok a ∧ e ∈ γ.heard (f a) := by
  cases r with
  | ok a => simp [Prog.ofExcept, Prog.bind]
  | error x => simp [Prog.ofExcept, Prog.bind, Stores.heard, Prog.trace]

@[simp] theorem not_makes_refuse {status : ℕ} {detail : String} :
    ¬ Makes γ (AdminApp.refuse status detail : AdminHandler α) := by
  rintro ⟨e, he, -⟩
  exact List.not_mem_nil he

/-- A check that refuses must not be met. -/
theorem makes_unless {p : Prop} [Decidable p] {status : ℕ} {detail : String}
    {f : AdminHandler α} :
    Makes γ (if p then AdminApp.refuse status detail else f) ↔ ¬ p ∧ Makes γ f := by
  by_cases hp : p
  · rw [if_pos hp]
    exact ⟨fun hm => absurd hm not_makes_refuse, fun hm => absurd hp hm.1⟩
  · rw [if_neg hp]
    exact ⟨fun hm => ⟨hp, hm⟩, fun hm => hm.2⟩

@[simp] theorem not_makes_pure {a : α} : ¬ Makes γ (Prog.pure a : AdminHandler α) := by
  rintro ⟨e, he, -⟩
  exact List.not_mem_nil he

theorem makes_ofExcept_bind {r : Except Exn β} {f : β → AdminHandler α} :
    Makes γ ((Prog.ofExcept r).bind f) ↔ ∃ a, r = .ok a ∧ Makes γ (f a) := by
  constructor
  · rintro ⟨e, he, hm⟩
    obtain ⟨a, ha, he⟩ := heard_ofExcept_bind.mp he
    exact ⟨a, ha, e, he, hm⟩
  · rintro ⟨a, ha, e, he, hm⟩
    exact ⟨e, heard_ofExcept_bind.mpr ⟨a, ha, he⟩, hm⟩

/-- An operation that makes nothing only decides how the program goes on. -/
theorem makes_ask_bind' {o : AdminOp} {f : o.Ans → AdminHandler α}
    (ho : o.creates = false) :
    Makes γ ((askAdmin o).bind f) ↔ ∃ a, γ o = .ok a ∧ Makes γ (f a) := by
  rw [makes_ask_bind, AdminHeard.makes, ho]
  exact or_iff_right Bool.false_ne_true

end Heard

/-! ### The body of the parent -/

/-- What the call reads as the body of the parent. -/
def readBody (parent : TaskRecord) : Json.Fields :=
  match nonEmpty parent.createReqRef with
  | none => []
  | some ref =>
      match γ (.getJson ref) with
      | .ok (.obj fields) => fields
      | _ => []

variable {A γ call} {α : Type}

theorem StoredBody.readBody_eq {parent : TaskRecord} {body : Json.Fields}
    (h : StoredBody γ parent body) : readBody γ parent = body := by
  obtain ⟨ref, href, hget⟩ := h
  simp [readBody, href, hget]

theorem heard_parentBody_bind {parent : TaskRecord} {f : Json.Fields → AdminHandler α}
    {e : AdminHeard} :
    e ∈ γ.heard ((parentBody parent).bind f) ↔
      (∃ ref, nonEmpty parent.createReqRef = some ref ∧ e = ⟨.getJson ref, γ (.getJson ref)⟩) ∨
        e ∈ γ.heard (f (readBody γ parent)) := by
  unfold parentBody readBody
  cases href : nonEmpty parent.createReqRef with
  | none => simp [Prog.bind]
  | some ref =>
      simp only [Option.some.injEq, exists_eq_left']
      unfold Stores.heard
      cases hget : γ (.getJson ref) with
      | error x =>
          simp [askAdmin, Prog.perform, Prog.tryCatch, Prog.bind, Prog.trace, hget]
      | ok doc =>
          cases doc <;>
            simp [askAdmin, Prog.perform, Prog.tryCatch, Prog.bind, Prog.trace, hget]

theorem makes_parentBody_bind {parent : TaskRecord} {f : Json.Fields → AdminHandler α} :
    Makes γ ((parentBody parent).bind f) ↔ Makes γ (f (readBody γ parent)) := by
  constructor
  · rintro ⟨e, he, hm⟩
    rcases heard_parentBody_bind.mp he with ⟨ref, -, rfl⟩ | he
    · cases hm
    · exact ⟨e, he, hm⟩
  · rintro ⟨e, he, hm⟩
    exact ⟨e, heard_parentBody_bind.mpr (.inr he), hm⟩

/-! ### The calls that make something -/

variable (A γ call)

/-- The callback token the call draws for a child. -/
def drawnToken (t : ResolvedTemplate) : Except Exn (Option String) :=
  if t.capabilities.callback then (γ .newOpaqueToken).map some else .ok none

/-- The child the call draws, the stores having taken its body. -/
def Draws (parent : TaskRecord) (t : ResolvedTemplate) (body : Json.Fields) (child : TaskRecord) :
    Prop :=
  ∃ childId bucketAt deadlineFrom token, γ .newTaskId = .ok childId ∧
    γ (.putJson (requestKey parent.tenant childId) (.obj body) A.bodyTtlSeconds) = .ok () ∧
    γ .utcnow = .ok bucketAt ∧ γ .now = .ok deadlineFrom ∧ drawnToken γ t = .ok token ∧
    child = replayRow parent t call childId bucketAt deadlineFrom token

/-- The call passes every check the code makes, and the stores take the child. -/
structure Admitted (parent : TaskRecord) (tv : TemplateVersion) (child : TaskRecord) : Prop where
  role : call.actor.has [.operator, .approver] = true
  found : γ (.getTask call.taskId) = .ok (some parent)
  ended : isBusinessTerminal parent.status = true ∨ parent.status = failed
  real : parent.origin ≠ .dryRun
  ticket : ∃ k, γ (.consume call.ticketId "task.replay" call.taskId) = .ok k
  rate : γ (.enforceReplayRate call.actor.name) = .ok ()
  unsent : nonEmpty parent.upstreamTaskId = none
  template : γ (.templateVersion parent.templateAlias parent.templateVersion) = .ok (some tv)
  asked : confirmed tv.resolved call = true
  credential : String.ofList (Text.strip call.credential.toList) ≠ ""
  drawn : Draws A γ call parent tv.resolved (readBody γ parent) child
  taken : γ (.insert child) = .ok ()

variable {A γ call}

theorem makes_replayToken_bind {t : ResolvedTemplate} {f : Option String → AdminHandler α} :
    Makes γ ((replayToken t).bind f) ↔ ∃ token, drawnToken γ t = .ok token ∧ Makes γ (f token) := by
  unfold replayToken drawnToken
  split
  · rw [Prog.bind_eq, Prog.bind_assoc, makes_ask_bind' rfl]
    constructor
    · rintro ⟨token, htoken, hm⟩
      exact ⟨some token, by rw [htoken]; rfl, hm⟩
    · rintro ⟨token, htoken, hm⟩
      cases h : γ .newOpaqueToken with
      | error x =>
          rw [h] at htoken
          cases htoken
      | ok drawn =>
          rw [h] at htoken
          cases htoken
          exact ⟨drawn, rfl, hm⟩
  · constructor
    · intro hm
      exact ⟨none, rfl, hm⟩
    · rintro ⟨token, htoken, hm⟩
      cases htoken
      exact hm

theorem makes_createChild {parent : TaskRecord} {t : ResolvedTemplate} {body : Json.Fields}
    {credential : String} :
    Makes γ (A.createChild call parent t body credential) ↔
      ∃ child, Draws A γ call parent t body child ∧ γ (.insert child) = .ok () := by
  have hinsert : ∀ {child : TaskRecord} {f : Unit → AdminHandler String},
      Makes γ ((askAdmin (.insert child)).bind f) ↔ γ (.insert child) = .ok () := by
    intro child f
    rw [makes_ask_bind]
    cases h : γ (.insert child) with
    | ok _ => simp [AdminHeard.makes, AdminOp.creates, Except.isOk, Except.toBool]
    | error x => simp [AdminHeard.makes, AdminOp.creates, Except.isOk, Except.toBool]
  constructor
  · intro hm
    obtain ⟨childId, hid, hm⟩ := (makes_ask_bind' rfl).mp hm
    obtain ⟨_, hput, hm⟩ := (makes_ask_bind' rfl).mp hm
    obtain ⟨bucketAt, hb, hm⟩ := (makes_ask_bind' rfl).mp hm
    obtain ⟨deadlineFrom, hd, hm⟩ := (makes_ask_bind' rfl).mp hm
    obtain ⟨token, htoken, hm⟩ := makes_replayToken_bind.mp hm
    exact ⟨_, ⟨childId, bucketAt, deadlineFrom, token, hid, hput, hb, hd, htoken, rfl⟩,
      hinsert.mp hm⟩
  · rintro ⟨_, ⟨childId, bucketAt, deadlineFrom, token, hid, hput, hb, hd, htoken, rfl⟩, hins⟩
    exact (makes_ask_bind' rfl).mpr ⟨childId, hid, (makes_ask_bind' rfl).mpr ⟨(), hput,
      (makes_ask_bind' rfl).mpr ⟨bucketAt, hb, (makes_ask_bind' rfl).mpr ⟨deadlineFrom, hd,
        makes_replayToken_bind.mpr ⟨token, htoken, hinsert.mpr hins⟩⟩⟩⟩⟩

theorem require_eq_ok {actor : Actor} {roles : List Role} {u : Unit} :
    actor.require roles = .ok u ↔ actor.has roles = true := by
  unfold Actor.require
  split <;> simp_all

/-- **The calls that make something are those that are admitted.** -/
theorem makes_iff :
    Makes γ (A.replayTask call) ↔ ∃ parent tv child, Admitted A γ call parent tv child := by
  constructor
  · intro hm
    -- each check is passed, in the order the handler makes them
    obtain ⟨_, hrole, hm⟩ := makes_ofExcept_bind.mp hm
    obtain ⟨found, hfound, hm⟩ := (makes_ask_bind' rfl).mp hm
    cases found with
    | none => exact absurd hm not_makes_refuse
    | some parent =>
        dsimp only at hm
        obtain ⟨hover, hm⟩ := makes_unless.mp hm
        obtain ⟨hreal, hm⟩ := makes_unless.mp hm
        obtain ⟨k, hk, hm⟩ := (makes_ask_bind' rfl).mp hm
        obtain ⟨_, hrate, hm⟩ := (makes_ask_bind' rfl).mp hm
        obtain ⟨hunsent, hm⟩ := makes_unless.mp hm
        obtain ⟨found, htv, hm⟩ := (makes_ask_bind' rfl).mp hm
        cases found with
        | none => exact absurd hm not_makes_refuse
        | some tv =>
            dsimp only at hm
            obtain ⟨hasked, hm⟩ := makes_unless.mp hm
            have hm := makes_parentBody_bind.mp hm
            dsimp only at hm
            obtain ⟨hcred, hm⟩ := makes_unless.mp hm
            obtain ⟨child, hdrawn, htaken⟩ := makes_createChild.mp hm
            exact ⟨parent, tv, child, require_eq_ok.mp hrole, hfound, by grind, hreal, ⟨k, hk⟩,
              hrate, by simpa using hunsent, htv, by simpa using hasked, hcred, hdrawn, htaken⟩
  · rintro ⟨parent, tv, child, h⟩
    -- and nothing else stops it
    obtain ⟨k, hk⟩ := h.ticket
    have hover : ¬ (¬ isBusinessTerminal parent.status = true ∧ parent.status ≠ failed) := by
      have := h.ended
      tauto
    refine makes_ofExcept_bind.mpr ⟨(), require_eq_ok.mpr h.role, ?_⟩
    refine (makes_ask_bind' rfl).mpr ⟨some parent, h.found, ?_⟩
    refine makes_unless.mpr ⟨hover, makes_unless.mpr ⟨h.real, ?_⟩⟩
    refine (makes_ask_bind' rfl).mpr ⟨k, hk, (makes_ask_bind' rfl).mpr ⟨(), h.rate, ?_⟩⟩
    refine makes_unless.mpr ⟨by simp [h.unsent], ?_⟩
    refine (makes_ask_bind' rfl).mpr ⟨some tv, h.template, ?_⟩
    refine makes_unless.mpr ⟨by simp [h.asked], makes_parentBody_bind.mpr ?_⟩
    exact makes_unless.mpr ⟨h.credential, makes_createChild.mpr ⟨child, h.drawn, h.taken⟩⟩

/-! ### What an admitted call makes -/

theorem heard_replayToken_bind {t : ResolvedTemplate} {f : Option String → AdminHandler α}
    {token : Option String} (ht : drawnToken γ t = .ok token) {e : AdminHeard}
    (he : e ∈ γ.heard (f token)) : e ∈ γ.heard ((replayToken t).bind f) := by
  unfold replayToken
  unfold drawnToken at ht
  split at ht
  · rename_i hcallback
    rw [if_pos hcallback, Prog.bind_eq, Prog.bind_assoc]
    cases h : γ .newOpaqueToken with
    | error x =>
        rw [h] at ht
        cases ht
    | ok drawn =>
        rw [h] at ht
        cases ht
        exact heard_ask_bind.mpr (.inr ⟨drawn, h, he⟩)
  · rename_i hcallback
    rw [if_neg hcallback]
    cases ht
    exact he

/-- What is heard of the creation of a child is heard of an admitted call. -/
theorem Admitted.heard {parent : TaskRecord} {tv : TemplateVersion} {child : TaskRecord}
    (h : Admitted A γ call parent tv child) {e : AdminHeard}
    (he : e ∈ γ.heard (A.createChild call parent tv.resolved (readBody γ parent)
      (String.ofList (Text.strip call.credential.toList)))) :
    e ∈ γ.heard (A.replayTask call) := by
  obtain ⟨k, hk⟩ := h.ticket
  have hended : ¬ (¬ isBusinessTerminal parent.status = true ∧ parent.status ≠ failed) := by
    have := h.ended
    tauto
  refine heard_ofExcept_bind.mpr ⟨(), require_eq_ok.mpr h.role, ?_⟩
  refine heard_ask_bind.mpr (.inr ⟨some parent, h.found, ?_⟩)
  dsimp only
  rw [if_neg hended, if_neg h.real]
  refine heard_ask_bind.mpr (.inr ⟨k, hk, heard_ask_bind.mpr (.inr ⟨(), h.rate, ?_⟩)⟩)
  rw [if_neg (by simp [h.unsent])]
  refine heard_ask_bind.mpr (.inr ⟨some tv, h.template, ?_⟩)
  dsimp only
  rw [if_neg (by simp [h.asked])]
  refine heard_parentBody_bind.mpr (.inr ?_)
  dsimp only
  rwa [if_neg h.credential]

/-- The child of an admitted call has the body that was read. -/
theorem Admitted.child {parent : TaskRecord} {tv : TemplateVersion} {child : TaskRecord}
    (h : Admitted A γ call parent tv child) : ChildWith A γ call (readBody γ parent) child := by
  obtain ⟨childId, bucketAt, deadlineFrom, token, hid, hput, hb, hd, htoken, rfl⟩ := h.drawn
  constructor
  · refine h.heard (heard_ask_bind.mpr (.inr ⟨childId, hid, heard_ask_bind.mpr (.inr ⟨(), hput,
      heard_ask_bind.mpr (.inr ⟨bucketAt, hb, heard_ask_bind.mpr (.inr ⟨deadlineFrom, hd,
        heard_replayToken_bind htoken (heard_ask_bind.mpr (.inl ?_))⟩)⟩)⟩)⟩))
    rw [h.taken]
  · refine ⟨_, A.bodyTtlSeconds, rfl, h.heard (heard_ask_bind.mpr (.inr ⟨childId, hid,
      heard_ask_bind.mpr (.inl ?_)⟩))⟩
    rw [hput]

/-- **A call keeps the request exactly when no parent is replayed outside the documented
statuses, or without its body.** -/
theorem replay_keeps_request_iff (A : AdminApp) (γ : Stores) (call : ReplayCall) :
    KeepsRequest A γ call ↔
      ∀ parent tv child, Admitted A γ call parent tv child →
        parent.status ∈ replayChild ∧ ∃ body, StoredBody γ parent body := by
  constructor
  · rintro (hnone | ⟨parent', body, child', hfound, hbody, -, -, hstatus, -⟩) parent tv child h
    · obtain ⟨e, he, hm⟩ := makes_iff.mpr ⟨parent, tv, child, h⟩
      exact absurd (hnone e he) (by simp [hm])
    · obtain rfl : parent' = parent :=
        Option.some.inj (Except.ok.inj (hfound.symm.trans h.found))
      exact ⟨hstatus, body, hbody⟩
  · intro h
    by_cases hm : Makes γ (A.replayTask call)
    · obtain ⟨parent, tv, child, ha⟩ := makes_iff.mp hm
      obtain ⟨hstatus, body, hbody⟩ := h parent tv child ha
      have hchild : ChildWith A γ call body child := hbody.readBody_eq ▸ ha.child
      obtain ⟨_, _, _, _, _, _, _, _, _, rfl⟩ := ha.drawn
      exact .inr ⟨parent, body, _, ha.found, hbody, hchild, rfl, hstatus, ha.unsent⟩
    · left
      intro e he
      by_contra hne
      exact hm ⟨e, he, by simpa using hne⟩

end Replay

/-! ### A replay of a task whose body has expired -/

section Sample

/-- A dead task whose create request is no longer in the store. -/
def deadParent : TaskRecord :=
  { sampleRow with
    status := dead
    createReqRef := some "req:tenant:task"
    origin := .user
    idempotencyWindowSeconds := 86400 }

def sampleReplay : ReplayCall where
  actor := { name := "operator-1", roles := [.operator] }
  taskId := sampleRow.taskId
  ticketId := some "ticket"
  credential := "Bearer key"

/-- Stores that take what they are given, and have lost every request. -/
def forgetfulStores : Stores
  | .createTicket _ _ _ _ => .ok "ticket"
  | .approveTicket _ _ => .ok ()
  | .consume _ action subject => .ok
      { ticketId := "ticket", action := action, subject := subject, payloadDigest := "",
        submittedBy := "operator-1", approvedBy := some "approver-1", approvedAt := some 0,
        expiresAt := 14400 }
  | .planChange _ => .ok .newAlias
  | .patchInPlace _ => .ok none
  | .register _ => .ok none
  | .templateVersion a version => .ok (some
      { aliasName := a, version := version, resolved := sampleTemplate })
  | .bindCanary _ _ _ _ => .ok ()
  | .activeTasks _ => .ok (0 : ℕ)
  | .upsertTemplateVersion _ _ _ _ => .ok ()
  | .getTask _ => .ok (some deadParent)
  | .enforceReplayRate _ => .ok ()
  | .getJson _ => .error .requestDataNotFound
  | .newTaskId => .ok "0123456789abcdef01234567"
  | .utcnow => .ok (0 : ℚ)
  | .now => .ok (0 : ℚ)
  | .newOpaqueToken => .ok "token"
  | .putJson _ _ _ => .ok ()
  | .insert _ => .ok ()
  | .putCredential _ _ _ => .ok ()
  | .enqueue _ _ => .ok ()
  | .write _ _ => .ok true
  | .audit _ => .ok ()

/-- **A task whose body cannot be read is replayed with an empty one.** -/
theorem lost_body_is_replayed_empty :
    ¬ ∀ (A : AdminApp) (γ : Stores) (call : ReplayCall), KeepsRequest A γ call := by
  intro h
  let A : AdminApp :=
    { library := { resolve := fun _ => none }
      container := sampleContainer sampleTemplate
      sha256 := id }
  have hmakes : Makes forgetfulStores (A.replayTask sampleReplay) := by
    exact makes_iff.mpr ⟨deadParent,
      { aliasName := deadParent.templateAlias, version := deadParent.templateVersion,
        resolved := sampleTemplate },
      replayRow deadParent sampleTemplate sampleReplay "0123456789abcdef01234567" 0 0 none,
      { role := rfl
        found := rfl
        ended := .inl rfl
        real := by decide
        ticket := ⟨_, rfl⟩
        rate := rfl
        unsent := rfl
        template := rfl
        asked := rfl
        credential := by decide +kernel
        drawn := ⟨_, _, _, _, rfl, rfl, rfl, rfl, rfl, rfl⟩
        taken := rfl }⟩
  rcases h A forgetfulStores sampleReplay with hnone | ⟨parent, body, -, -, ⟨ref, -, hget⟩, -⟩
  · obtain ⟨e, he, hm⟩ := hmakes
    exact absurd (hnone e he) (by simp [hm])
  · cases hget

end Sample

end AsyncGateway
