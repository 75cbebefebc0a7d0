import Everdict.Runner.MintRace
import Everdict.Attempt.ActivationRace
import Everdict.Attempt.Parity
import Everdict.Scheduling.WakeUp
import Everdict.Scorecard.FullComparison
import Everdict.Scorecard.CriticalCases
import Everdict.Evolution.FamilyRuns
import Everdict.Scorecard.VerdictAuthority
import Everdict.Scorecard.HeldWorld
import Everdict.Admission.FleetPermits
import Everdict.Cancellation.Parity
import Everdict.Scoring.StageConvergence
import Everdict.Cleanup.Staging
import Everdict.Results.Settlement
import Everdict.Scoring.PromotionParity
import Everdict.Publication.FinalReceipts
import Everdict.Submission.CollectionBoundaries
import Everdict.Trace.RoundTrip
import Everdict.Passes.Lock
import Everdict.Leadership.OneLeader
import Everdict.Envelope.Capacity
import Everdict.EventLog.Delivery
import Everdict.SharedWorld.Lives
import Everdict.Recording.Replay
import Everdict.WorkspaceFs.LabelledReads
import Everdict.WorkspaceFs.Moves
import Everdict.WorkspaceFs.MemberMemory
import Everdict.Registry.SpecIdentity
import Everdict.Scoring.PlaneIdentity
import Everdict.Scoring.RetryBudget
import Everdict.Registry.Versions
import Everdict.Approval.OneDecision
import Everdict.Trace.PayloadOwners
import Everdict.Scorecard.StepUp
import Everdict.Concurrency.Gates
import Everdict.Trace.FairShare
import Everdict.Evolution.OracleBoundary
import Everdict.WorkspaceFile.Patch
import Everdict.WorkspaceFile.MergeSymmetry
import Everdict.Contracts.OutboundGuard
import Everdict.Placement.QueueKeys
import Everdict.Scorecard.PassAtK
import Everdict.Scorecard.FisherExact
import Everdict.Speculation.OneAnswer
import Everdict.Contracts.JobResultWire
import Everdict.Tracker.IssueHistories
import Everdict.Tracker.IssueBoard
import Everdict.Adoption.OneAdoption
import Everdict.Images.Pinning
