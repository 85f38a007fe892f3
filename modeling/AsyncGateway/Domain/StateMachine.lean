import Mathlib.Logic.Basic

/-!
# Domain — the state machine of a task

The states of a task (`TaskStatus`), the whitelist of its transitions (`allowedTransitions`), the
sets of terminal states, and the checks the writers make against them.
-/

namespace AsyncGateway

inductive TaskStatus : Type where
  | accepted
  | upstreamSubmitted
  | inProgress
  | submitUnknown
  | pollUnrecognized
  | failed
  | succeeded
  | cancelled
  | timeout
  | dead
  | deadAwaitingConfirm
  deriving DecidableEq, Repr

/-- A transition outside the whitelist. -/
structure TransitionError where
  src : TaskStatus
  dst : TaskStatus
  deriving DecidableEq, Repr

namespace TaskStatus

/-- `for s in TaskStatus`. -/
def all : List TaskStatus :=
  [accepted, upstreamSubmitted, inProgress, submitUnknown, pollUnrecognized, failed, succeeded,
   cancelled, timeout, dead, deadAwaitingConfirm]

/-- The value the status column holds. -/
def value : TaskStatus → String
  | accepted => "accepted"
  | upstreamSubmitted => "upstream_submitted"
  | inProgress => "in_progress"
  | submitUnknown => "submit_unknown"
  | pollUnrecognized => "poll_unrecognized"
  | failed => "failed"
  | succeeded => "succeeded"
  | cancelled => "cancelled"
  | timeout => "timeout"
  | dead => "dead"
  | deadAwaitingConfirm => "dead_awaiting_confirm"

@[simp] theorem mem_all (s : TaskStatus) : s ∈ all := by cases s <;> decide

end TaskStatus

open TaskStatus

/-- The gateway's own terminal states; no upstream has a name for them. -/
def internalTerminal : List TaskStatus := [timeout, dead, deadAwaitingConfirm]

def businessTerminal : List TaskStatus := [succeeded, cancelled, timeout, dead, deadAwaitingConfirm]

/-- The states the scheduler may reschedule. -/
def activeStatuses : List TaskStatus :=
  [accepted, upstreamSubmitted, inProgress, submitUnknown, pollUnrecognized, failed]

def cancelPreconditions : List TaskStatus :=
  [accepted, upstreamSubmitted, inProgress, submitUnknown]

def allowedTransitions : TaskStatus → List TaskStatus
  | accepted => [upstreamSubmitted, cancelled, submitUnknown, dead, deadAwaitingConfirm, timeout]
  | upstreamSubmitted =>
      [inProgress, succeeded, failed, cancelled, timeout, dead, deadAwaitingConfirm, submitUnknown,
       pollUnrecognized]
  | inProgress =>
      [succeeded, failed, cancelled, timeout, dead, deadAwaitingConfirm, pollUnrecognized,
       submitUnknown]
  | submitUnknown => [upstreamSubmitted, deadAwaitingConfirm, accepted]
  | pollUnrecognized => [inProgress, deadAwaitingConfirm, timeout, succeeded, failed]
  | failed => [upstreamSubmitted, submitUnknown, dead, deadAwaitingConfirm, cancelled]
  | succeeded => []
  | cancelled => []
  | timeout => []
  | dead => []
  -- the one exit of a terminal state: a human closed the task
  | deadAwaitingConfirm => [dead]

def canTransition (src dst : TaskStatus) : Bool := decide (dst ∈ allowedTransitions src)

def assertTransition (src dst : TaskStatus) : Except TransitionError Unit :=
  if canTransition src dst then .ok () else .error ⟨src, dst⟩

def isBusinessTerminal (status : TaskStatus) : Bool := decide (status ∈ businessTerminal)

def isInternalTerminal (status : TaskStatus) : Bool := decide (status ∈ internalTerminal)

def allowedTargets (status : TaskStatus) : List TaskStatus := allowedTransitions status

/-! ### The whitelist as a relation -/

/-- `src → dst` is on the whitelist. -/
def Edge (src dst : TaskStatus) : Prop := dst ∈ allowedTransitions src

instance (src dst : TaskStatus) : Decidable (Edge src dst) := inferInstanceAs (Decidable (_ ∈ _))

theorem canTransition_iff {src dst : TaskStatus} : canTransition src dst = true ↔ Edge src dst :=
  decide_eq_true_iff

theorem assertTransition_ok {src dst : TaskStatus} :
    assertTransition src dst = .ok () ↔ Edge src dst := by
  rw [← canTransition_iff, assertTransition]
  split <;> simp [*]

/-- A business-terminal state has no exit, but for the closing of a task that awaits a human. -/
theorem edge_of_terminal {src dst : TaskStatus} (ht : src ∈ businessTerminal) (h : Edge src dst) :
    src = deadAwaitingConfirm ∧ dst = dead := by
  revert ht h
  cases src <;> cases dst <;> decide

/-- No transition of the whitelist stays where it is. -/
theorem edge_irrefl (s : TaskStatus) : ¬ Edge s s := by cases s <;> decide

/-- An active state is one that is not terminal. -/
theorem mem_activeStatuses {s : TaskStatus} : s ∈ activeStatuses ↔ s ∉ businessTerminal := by
  cases s <;> decide

end AsyncGateway
