import Mathlib.Data.List.Basic

/-!
# Print job statuses and their legal transitions

`state_machine.py`: the status enumeration, the table `LEGAL_TRANSITIONS`, `is_legal_transition`
and `is_terminal`.
-/

namespace PrintAgent

inductive PrintJobStatus where
  | queued
  | received
  | printing
  | completed
  | failed
  | cancelled
  | waitingForPrinter
  deriving DecidableEq, Repr

namespace PrintJobStatus

def legalTransitions : PrintJobStatus → List PrintJobStatus
  | .queued => [.received, .cancelled]
  | .received => [.printing, .waitingForPrinter, .failed, .cancelled]
  | .waitingForPrinter => [.printing, .failed, .cancelled]
  | .printing => [.completed, .failed]
  | .completed => []
  | .failed => []
  | .cancelled => []

def terminalStatuses : List PrintJobStatus := [.completed, .failed, .cancelled]

/-- `is_legal_transition`; a status may always be written again -/
def isLegalTransition (current next : PrintJobStatus) : Bool :=
  if current = next then true else decide (next ∈ current.legalTransitions)

def isTerminal (status : PrintJobStatus) : Bool := decide (status ∈ terminalStatuses)

/-- the statuses a cancel is honoured in, and startup resumes a job from -/
def isResumable : PrintJobStatus → Bool
  | .received | .waitingForPrinter => true
  | _ => false

theorem isResumable_iff (status : PrintJobStatus) :
    status.isResumable = true ↔ status = .received ∨ status = .waitingForPrinter := by
  cases status <;> decide

theorem isLegalTransition_self (status : PrintJobStatus) :
    isLegalTransition status status = true := if_pos rfl

/-- the only way out of a resumable status that keeps it resumable is to `waitingForPrinter` -/
theorem isLegalTransition_of_isResumable {current next : PrintJobStatus}
    (hc : current.isResumable = true)
    (hn : next = .printing ∨ next = .failed ∨ next = .cancelled ∨ next = .waitingForPrinter) :
    isLegalTransition current next = true := by
  rcases hn with rfl | rfl | rfl | rfl <;> cases current <;> first | rfl | exact absurd hc (by decide)

end PrintJobStatus

end PrintAgent
