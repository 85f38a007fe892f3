import AsyncGateway.Db.Dao
import Mathlib.Data.List.Basic

/-!
# Admin — actors and approval tickets

Who asks (`Actor`), and the tickets a high-risk operation is made with (`ApprovalStore`): a ticket
is created for an action, a subject and the digest of a payload, approved by another actor, and
looked at by `consume` when the operation is executed.  No store has a ticket that its submitter
approved.
-/

namespace AsyncGateway

inductive Role : Type where
  | templateAuthor
  | approver
  | operator
  | auditor
  deriving DecidableEq

structure Actor where
  name : String
  roles : List Role

namespace Actor

variable (actor : Actor)

def has (roles : List Role) : Bool := roles.any fun r => decide (r ∈ actor.roles)

def isApprover : Bool := actor.has [.approver]

/-- What `require` checks of an actor it has parsed. -/
def require (roles : List Role) : Except Exn Unit :=
  if actor.has roles then .ok () else .error (.httpException 403 "requires one of the roles")

end Actor

/-- `HIGH_RISK_ACTIONS`. -/
def highRiskActions : List (String × List Role) :=
  [("template.publish", [.templateAuthor, .approver]),
    ("template.patch", [.templateAuthor, .approver]),
    ("template.canary", [.operator, .approver]),
    ("task.replay", [.operator, .approver]),
    ("credential_ref.change", [.operator, .approver])]

structure ApprovalTicket where
  ticketId : String
  action : String
  subject : String
  payloadDigest : String
  submittedBy : String
  approvedBy : Option String := none
  approvedAt : Option Time := none
  expiresAt : Time
  deriving DecidableEq

namespace ApprovalTicket

variable (ticket : ApprovalTicket)

def approved : Bool := ticket.approvedBy.isSome && ticket.approvedAt.isSome

def expired (now : Time) : Bool := decide (ticket.expiresAt < now)

/-- It was approved by an actor other than its submitter. -/
def ApprovedByOther : Prop := ∃ a, ticket.approvedBy = some a ∧ a ≠ ticket.submittedBy

end ApprovalTicket

/-- `ApprovalStore._tickets`. -/
structure ApprovalStore where
  tickets : List ApprovalTicket
  distinct : (tickets.map (·.ticketId)).Nodup
  separate : ∀ ticket ∈ tickets, ∀ a, ticket.approvedBy = some a → a ≠ ticket.submittedBy

namespace ApprovalStore

variable (s : ApprovalStore)

def empty : ApprovalStore where
  tickets := []
  distinct := List.nodup_nil
  separate := fun _ h => absurd h List.not_mem_nil

def find (ticketId : String) : Option ApprovalTicket :=
  s.tickets.find? fun ticket => ticket.ticketId == ticketId

theorem mem_of_find {s : ApprovalStore} {ticketId : String} {ticket : ApprovalTicket}
    (h : s.find ticketId = some ticket) : ticket ∈ s.tickets ∧ ticket.ticketId = ticketId :=
  ⟨List.mem_of_find?_eq_some h, by simpa using List.find?_some h⟩

/-- The store with a ticket in the place of the one of its id. -/
def put (ticket : ApprovalTicket)
    (h : ∀ a, ticket.approvedBy = some a → a ≠ ticket.submittedBy) : ApprovalStore where
  tickets := ticket :: s.tickets.filter fun other => decide (other.ticketId ≠ ticket.ticketId)
  distinct := by
    rw [List.map_cons, List.nodup_cons]
    refine ⟨?_, s.distinct.sublist ((List.filter_sublist).map _)⟩
    intro hmem
    obtain ⟨other, hother, heq⟩ := List.mem_map.mp hmem
    simp [List.mem_filter, heq] at hother
  separate := by
    intro other hother
    rcases List.mem_cons.mp hother with rfl | hother
    · exact h
    · exact s.separate other (List.mem_filter.mp hother).1

/-- `create`: a ticket is good for four hours. -/
def create (ticketId action subject payloadDigest actor : String) (now : Time) : ApprovalStore :=
  s.put
    { ticketId := ticketId
      action := action
      subject := subject
      payloadDigest := payloadDigest
      submittedBy := actor
      expiresAt := now + 14400 }
    fun _ h => by cases h

/-- `approve`. -/
def approve (ticketId : String) (approver : Actor) (now : Time) : Except Exn ApprovalStore :=
  match s.find ticketId with
  | none => .error (.httpException 404 "unknown approval ticket")
  | some ticket =>
      if ticket.expired now then .error (.httpException 410 "approval ticket expired")
      else if h : ticket.submittedBy = approver.name then
        .error (.httpException 403 "职责分离：提交人不得自审")
      else if ¬ approver.isApprover then .error (.httpException 403 "requires approver role")
      else .ok (s.put { ticket with approvedBy := some approver.name, approvedAt := some now }
        fun a ha => by
          cases ha
          exact Ne.symm h)

/-- `consume`: the ticket, where it is one for the operation; it stays as it is. -/
def consume (ticketId : Option String) (action subject : String) (now : Time) :
    Except Exn ApprovalTicket :=
  match nonEmpty ticketId with
  | none => .error (.httpException 409
      "该操作属高危操作，必须携带 X-AG-Approval（先建票据并由他人复核）")
  | some ticketId =>
      match s.find ticketId with
      | none => .error (.httpException 404 "unknown approval ticket")
      | some ticket =>
          if ¬ ticket.approved then .error (.httpException 409 "approval ticket not approved")
          else if ticket.expired now then .error (.httpException 410 "approval ticket expired")
          else if ticket.action ≠ action ∨ ticket.subject ≠ subject then
            .error (.httpException 409 "approval ticket does not match operation")
          else if some ticket.submittedBy = ticket.approvedBy then
            .error (.httpException 403 "职责分离：不得自审自批")
          else .ok ticket

/-- What a ticket that was consumed says. -/
theorem of_consume {s : ApprovalStore} {ticketId : Option String} {action subject : String}
    {now : Time} {ticket : ApprovalTicket}
    (h : s.consume ticketId action subject now = .ok ticket) :
    ticket ∈ s.tickets ∧ ticketId = some ticket.ticketId ∧ ticket.action = action ∧
      ticket.subject = subject ∧ ticket.ApprovedByOther ∧ now ≤ ticket.expiresAt := by
  unfold consume at h
  cases hid : nonEmpty ticketId with
  | none => rw [hid] at h; cases h
  | some id =>
      rw [hid] at h
      cases hf : s.find id with
      | none => simp only [hf] at h; cases h
      | some k =>
          simp only [hf] at h
          split_ifs at h with happ hexp hmatch hself
          cases h
          obtain ⟨hmem, hk⟩ := mem_of_find hf
          obtain ⟨ha, hs⟩ := not_or.mp hmatch
          have happ := (Bool.and_eq_true_iff.mp happ).1
          obtain ⟨a, hby⟩ := Option.isSome_iff_exists.mp happ
          refine ⟨hmem, (nonEmpty_eq_some.mp hid).1.trans (congrArg some hk.symm), not_not.mp ha,
            not_not.mp hs, ⟨a, hby, s.separate ticket hmem a hby⟩, ?_⟩
          simpa [ApprovalTicket.expired] using hexp

end ApprovalStore

end AsyncGateway
