import AsyncGateway.Gateway.AcceptCreate
import AsyncGateway.System.Conduct

/-!
# System — the books a handler keeps

A second protocol of the handlers, beside the discipline: what each of them sees to
(`bookkeeping`).  A write that moves the task sets the columns its new state needs
(`CarefulAdvance`); a handler that ended the task drops the credential before it returns, and says
so in a terminal audit event at most once (`Ending`); and only the inline submission archives an
answer that is no success.
-/

namespace AsyncGateway

open TaskStatus TaskRuntime
open Interleave

/-- How far a handler is with the end of the task. -/
inductive Ending : Type where
  | under
  /-- It ended the task: the credential is to be dropped. -/
  | due (s : TaskStatus)
  /-- It takes the task for ended, though its write missed. -/
  | presumed (s : TaskStatus)
  | dropped (s : TaskStatus)
  | audited
  /-- An operation failed before the credential was dropped. -/
  | hindered
  /-- The task it ended was shown to it as one under way, or as one of another template. -/
  | misled
  deriving DecidableEq

/-- No credential is to be dropped. -/
def Ending.settled : Ending → Bool
  | .due _ => false
  | .presumed _ => false
  | _ => true

/-- After an operation failed. -/
def Ending.hinder : Ending → Ending
  | .due _ => .hindered
  | .presumed _ => .hindered
  | e => e

/-- What is known of a handler: what it runs, the row it loaded last, the attributes it read last,
and how far it is with the end of the task. -/
structure Book where
  kind : Option Work := none
  loaded : Option AsyncTask := none
  read : Option (Option Json.Fields) := none
  ending : Ending := .under

/-- The ticks and the operator, that end a task and finalize nothing. -/
def Work.sweeps : Work → Bool
  | .scanDeadlines _ => true
  | .boundUnknowns _ _ => true
  | .closeTask _ => true
  | _ => false

def Work.submitsInline : Work → Bool
  | .inlineSubmit _ => true
  | _ => false

/-- The endings after which a handler finalizes the task whether or not its write hit: the dead
ends of a submission, a missing credential, a poll target that was refused, and the cancellation of
a task whose template has none. -/
def presumes (C : Container) (loaded : Option AsyncTask) : DaoOp → Bool
  | .advance .dead (some expected) (.errorCode (some code) :: _) =>
      decide (expected = submitSources ∨ code = .upstream4xx ∨ code = .upstreamTerminal)
  | .advance .cancelled _ (.errorCode _ :: _) =>
      loaded.any fun row => (templateOf C row).any fun t => !t.capabilities.cancel
  | _ => false

/-! ### The writes -/

/-- An advance leaves the columns its new state needs, and the attributes as they are. -/
def CarefulAdvance (dst : TaskStatus) (values : List Assign) : Prop :=
  ∀ (now : Time) (row : AsyncTask),
    let row' := assign row (advanceValues now dst values)
    row'.attributes = row.attributes ∧ match dst with
    | submitUnknown => row'.unknownSince ≠ none ∧ row'.nextPollAt ≠ none
    | pollUnrecognized => row'.unknownSince ≠ none ∧ row'.nextPollAt ≠ none
    | failed =>
        row.nextPollAt ≠ none ∨ values.any Assign.isNextPollAt = true → row'.nextPollAt ≠ none
    | succeeded => row'.finishedAt ≠ none
    | accepted => True
    | upstreamSubmitted => True
    | inProgress => True
    | _ => row'.finishedAt ≠ none ∧ row'.nextPollAt = none

/-- The attribute that names the archived response. -/
def refAttribute : String := "create_response_ref"

/-- The writes a handler may ask for, for the columns they set. -/
def Careful (b : Book) : DaoOp → Prop
  | .advance dst _ values => CarefulAdvance dst values
  | .setResultRef _ _ degraded => degraded = none
  | .recordPollResult _ _ _ expected => ∀ s ∈ expected, s ∉ businessTerminal
  | .markFailure expected _ _ _ _ _ =>
      ∀ s ∈ expected, s ∈ [upstreamSubmitted, inProgress, pollUnrecognized]
  | .leaseDispatch _ expected => ∀ s ∈ expected, s ∉ businessTerminal
  | .releaseSubmitIntent expected _ _ _ _ _ _ _ => ∀ s ∈ expected, s ∉ businessTerminal
  | .noteAttribute read attributes => b.read = some read ∧ attributes.lookup refAttribute = none
  | _ => True

/-- An archived response that is replayed as a success, or as pending. -/
def ArchivedResponse.good (r : ArchivedResponse) : Prop :=
  r.pending = true ∨ 200 ≤ r.status ∧ r.status < 300

namespace Book

variable (C : Container) (b : Book)

/-- The handler is one that finalizes what it ends. -/
def finalizes : Bool := b.kind.any fun κ => !κ.sweeps

/-- The operations a handler may ask for. -/
def Allows : Op → Prop
  | .apply op _ => Careful b op
  | .findTask _ _ => b.ending.settled = true
  | .dropCredential =>
      (∃ s, b.ending = .due s ∨ b.ending = .presumed s) ∨
        b.loaded.any (fun row => isBusinessTerminal row.status) = true
  | .audit event =>
      event.eventType = .terminal →
        ∃ s, b.ending = .dropped s ∧ event.refs.lookup "status" = some (.str s.value)
  | .putResponse _ response => b.kind.any Work.submitsInline = true ∨ response.good
  | _ => True

/-- Whether the row is of the template of the one loaded before it. -/
def sameTemplate (row : AsyncTask) : Bool :=
  b.loaded.all fun before => decide (row.templateRef = before.templateRef)

/-- The task it ended, where it is shown to it again. -/
def shown (row : Option AsyncTask) : Ending :=
  match b.ending with
  | .due s =>
      if row.any fun row => isBusinessTerminal row.status && b.sameTemplate row then .due s
      else .misled
  | e => e

/-- After an operation was answered. -/
def next : (o : Op) → Except Exn o.Ans → Book
  | _, .error _ => { b with ending := b.ending.hinder }
  | .load, .ok row => { b with loaded := row, ending := b.shown row }
  | .findTask _ _, .ok row => { b with loaded := row, ending := b.shown row }
  | .readAttributes, .ok read => { b with read := read }
  | .apply (.advance dst _ _) _, .ok true =>
      if isBusinessTerminal dst && b.finalizes then { b with ending := .due dst } else b
  | .apply (.advance dst expected values) _, .ok false =>
      if presumes C b.loaded (.advance dst expected values) then { b with ending := .presumed dst }
      else b
  | .dropCredential, .ok _ =>
      match b.ending with
      | .due s => { b with ending := .dropped s }
      | .presumed s => { b with ending := .dropped s }
      | _ => b
  | .audit event, .ok _ =>
      if event.eventType = .terminal then { b with ending := .audited } else b
  | _, .ok _ => b

end Book

/-- **What the handlers see to.** -/
def bookkeeping (C : Container) : Protocol effects Exn Work where
  State := Book
  start κ := { kind := some κ }
  idle := {}
  gone b := { b with ending := .under }
  allows := Book.Allows
  next := Book.next C
  done b := b.ending.settled = true
  done_idle := rfl
  done_gone _ := rfl

/-- Where the books have handler `u` after the log. -/
abbrev book (C : Container) (t : ResolvedTemplate) (log : Log) (u : ℕ) : Book :=
  (bookkeeping C).after (M := gateway C t) log u

section Books

variable {C : Container} {t : ResolvedTemplate} {log : Log} {u : ℕ}

theorem book_act {o : Op} {r : Except Exn o.Ans} :
    book C t (.act u o r :: log) u = (book C t log u).next C o r := if_pos rfl

theorem book_of_ne {e : Event effects Exn Work} (h : u ≠ e.thread) :
    book C t (e :: log) u = book C t log u :=
  Protocol.after_of_ne (P := bookkeeping C) (M := gateway C t) h

/-- What holds of every handler after an event. -/
theorem forall_book {Q : ℕ → Book → Prop} {e : Event effects Exn Work}
    (own : Q e.thread ((bookkeeping C).turn (M := gateway C t) e (book C t log e.thread)))
    (others : ∀ v, v ≠ e.thread → Q v (book C t log v)) : ∀ v, Q v (book C t (e :: log) v) :=
  Protocol.forall_after (P := bookkeeping C) (M := gateway C t) own others

end Books

end AsyncGateway
