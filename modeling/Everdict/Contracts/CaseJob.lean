import Mathlib.Tactic.Common

/-!
# The job document

`CaseJob` is what the control plane hands to a scheduler, a backend or a runner.
Only the fields that the modelled code reads are kept; the credentials, seeds
and pins that travel with a job are not read by it.
-/

namespace Everdict

/-- The box a harness declares (`resources`); an absent axis asks nothing. -/
structure ResourceRequest where
  cpu : Option Nat
  memoryMb : Option Nat
  deriving DecidableEq

/-- The kinds of a harness.  A topology's box is per service. -/
inductive HarnessSpec where
  | command (resources : Option ResourceRequest)
  | process (resources : Option ResourceRequest)
  | service
  deriving DecidableEq

structure Placement where
  target : Option String
  deriving DecidableEq

structure EvalCase where
  id : String
  placement : Option Placement
  deriving DecidableEq

structure HarnessRef where
  id : String
  version : String
  deriving DecidableEq

inductive Priority where
  | interactive
  | batch
  deriving DecidableEq

structure CaseJob where
  evalCase : EvalCase
  harness : HarnessRef
  harnessSpec : Option HarnessSpec := none
  tenant : Option String := none
  priority : Option Priority := none
  batchId : Option String := none
  runId : Option String := none
  recordingGeneration : Option Nat := none
  attemptId : Option String := none
  deriving DecidableEq

/-- The one reader of the box a harness declared. -/
def harnessResourcesOf : Option HarnessSpec → Option ResourceRequest
  | none => none
  | some (.command resources) => resources
  | some (.process resources) => resources
  | some .service => none

end Everdict
