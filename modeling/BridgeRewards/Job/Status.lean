/-!
# The states of a job

A job starts as `initial`, is `inProgress` while its window is built, and ends as `done` or
`failed`.  There are no other steps: a job that has ended never runs again.
-/

set_option autoImplicit false

namespace BridgeRewards

/-- The state of a job. -/
inductive JobStatus
  | initial
  | inProgress
  | done
  | failed
  deriving DecidableEq, Repr

namespace JobStatus

/-- Every state. -/
def all : List JobStatus := [initial, inProgress, done, failed]

def name : JobStatus → String
  | initial => "Initial"
  | inProgress => "InProgress"
  | done => "Done"
  | failed => "Failed"

/-- The state with a name. -/
def ofName? (s : String) : Option JobStatus := all.find? (·.name == s)

/-- Whether a job may step from one state to another. -/
def canBecome : JobStatus → JobStatus → Bool
  | initial, inProgress => true
  | inProgress, done => true
  | inProgress, failed => true
  | _, _ => false

/-- Whether a job in this state has ended. -/
def isTerminal : JobStatus → Bool
  | done => true
  | failed => true
  | _ => false

end JobStatus

end BridgeRewards
