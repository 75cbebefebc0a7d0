import Everdict.Contracts.CaseJob
import Everdict.Contracts.Score
import Everdict.Table

/-!
# What a batch was sealed with, and what a case ran in

A scorecard's manifest seals the documents that decide its numbers when the batch
is submitted; a result records the image bytes and the box its case ran in.  A
JavaScript record is a `Table` read by its own names; `objectKeys` is the order in
which it lists them.  Of a verifier's receipt only its completeness is kept.
-/

namespace Everdict

def objectKeys {ρ : Type*} (record : Table String ρ) : List String :=
  Text.objectKeys (record.entries.map Prod.fst)

theorem mem_objectKeys {ρ : Type*} {record : Table String ρ} {name : String} :
    name ∈ objectKeys record ↔ ∃ value, record.get name = some value := by
  rw [objectKeys, Text.mem_objectKeys, Table.mem_keys]

theorem objectKeys_nodup {ρ : Type*} (record : Table String ρ) : (objectKeys record).Nodup :=
  (Text.objectKeys_perm _).nodup_iff.mpr record.nodup

/-! ## The manifest -/

structure SealedDataset where
  id : String
  version : String
  digest : String
  deriving DecidableEq

structure SealedHarness where
  id : String
  version : String
  specDigest : Option String := none
  model : Option String := none
  serviceModels : Option (Table String String) := none

/-- A judge and what its nested references resolved to. -/
structure SealedJudgeEntry where
  id : String
  version : String
  specDigest : Option String := none
  model : Option String := none
  rubric : Option String := none
  harness : Option String := none
  deriving DecidableEq

structure SealedJudgeRun where
  provider : Option String := none
  model : String
  deriving DecidableEq

structure SealedEnvironmentEntry where
  ref : String
  digest : Option String := none
  deriving DecidableEq

structure ScorecardManifest where
  identityVersion : Option Nat := none
  dataset : SealedDataset
  cases : Option (Table String String) := none
  grading : Option String := none
  gradingCases : Option (Table String String) := none
  harness : SealedHarness
  graders : Option String := none
  judges : Option (List SealedJudgeEntry) := none
  judgeRun : Option SealedJudgeRun := none
  environments : Option (Table String SealedEnvironmentEntry) := none

/-! ## The world of a result -/

structure ProvisionedImage where
  ref : String
  digest : String
  unit : Option String := none
  deriving DecidableEq

structure RequestedImage where
  ref : String
  unit : Option String := none
  deriving DecidableEq

inductive ImageResolver where
  | ref
  | driver
  | orchestrator
  | runtime
  deriving DecidableEq

inductive ImageUnresolvedReason where
  | inspectFailed
  | noRegistryDigest
  | laneCannotReport
  | incomplete
  | legacyEra
  deriving DecidableEq

inductive ImageProvenance where
  | none
  | resolved (images : List ProvisionedImage) (by' : ImageResolver)
  | unresolved (images : List RequestedImage) (reason : ImageUnresolvedReason) (detail : String)
  deriving DecidableEq

def ImageProvenance.kind : ImageProvenance → String
  | .none => "none"
  | .resolved _ _ => "resolved"
  | .unresolved _ _ _ => "unresolved"

inductive PlacementOs where
  | linux
  | windows
  | macos
  deriving DecidableEq

inductive Enforcer where
  | k8s
  | nomad
  | docker
  deriving DecidableEq

/-- The whole of a box.  A harness asks for its first two fields only. -/
structure BoxResources extends ResourceRequest where
  gpu : Option Nat
  deriving DecidableEq

inductive NetworkMode where
  | «public»
  | none
  | allowlist
  deriving DecidableEq

structure NetworkPolicy where
  mode : NetworkMode
  allowedHosts : List String
  deriving DecidableEq

structure ProvisionedWorldProof where
  os : PlacementOs
  enforcedBy : Enforcer
  resources : Option BoxResources := none
  network : Option NetworkPolicy := none
  isolation : Option String := none
  deriving DecidableEq

structure ExecutionManifest where
  manifestVersion : Option Nat := none
  image : Option String := none
  imageProvenance : Option ImageProvenance := none
  world : Option ProvisionedWorldProof := none
  deriving DecidableEq

structure VerifierReceipt where
  complete : Bool
  deriving DecidableEq

/-- A case result together with the record of its execution. -/
structure ExecutedResult extends CaseResult where
  execution : Option ExecutionManifest := none
  verifier : Option VerifierReceipt := none
  deriving DecidableEq

end Everdict
