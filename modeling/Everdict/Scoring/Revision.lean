import Everdict.Contracts.CaseKey
import Everdict.Scoring.Stage
import Everdict.Sorting
import Everdict.Submission.ScoreRows
import Mathlib.Data.List.Lex

/-!
# Scoring revisions

The ledger of scoring passes: each pass appends the digest of the plane it left behind and
the receipts of the judgments it adopted.  A revision states how many judgments the plane
carries and how many receipts the vector holds, and calls the vector complete when the
second count reaches the first.
-/

namespace Everdict.Scoring

open ScoringStage (JudgmentClaim)
open Sorting (sortBy)
open Submission (Json JsNumber ScoreRow UnmeasuredReason)

/-! ## Judge families -/

/-- The id in `judge:<id>` and in `judge:<id>:<criterion>`. -/
def familyOfMetric (metric : String) : Option String :=
  if Text.startsWith metric "judge:" then
    let id := String.ofList ((Text.sliceAfter metric "judge:").toList.takeWhile (· ≠ ':'))
    if id = "" then none else some id
  else none

def judgeFamilyOf (score : ScoreRow) : Option String :=
  match score.measurement with
  | some measurement =>
      if measurement.producer.kind = .judge then some measurement.producer.id else none
  | none => familyOfMetric score.metric

/-! ## The plane -/

structure CaseResult where
  caseId : String
  trial : Option Nat := none
  scores : List ScoreRow
  failure : Option CaseFailure := none

def CaseResult.key (result : CaseResult) : String := childKey result.caseId result.trial

/-- What a row claims, without its narration. A number that is not finite is `null` in JSON. -/
inductive Judgment where
  | measured (graderId metric : String) (value : Option ℚ) (pass : Option Bool)
      (label : Option String)
  | unmeasured (graderId metric : String) (reason : UnmeasuredReason)
  | invalid (graderId metric : String)
  deriving DecidableEq

def JsNumber.finite? : JsNumber → Option ℚ
  | .finite value => some value
  | _ => none

def judgmentOf : ScoreRow → Judgment
  | .measured row =>
      .measured row.graderId row.metric (JsNumber.finite? row.value) row.pass row.label
  | .unmeasured row => .unmeasured row.graderId row.metric row.reason
  | .invalid identity => .invalid identity.graderId identity.metric

structure JudgmentRef where
  scoringPassId : String
  case : CaseKey
  judgeId : String
  claim : Option JudgmentClaim := none
  deriving DecidableEq

structure JudgmentReceipt where
  ref : JudgmentRef
  scoreDigest : String
  evidenceEmitter : String
  deriving DecidableEq

/-- What the code takes from its runtime: the sort key that `localeCompare` compares texts
by, and `contentDigest` of each kind of document. -/
structure Runtime where
  collation : String → List Nat
  planeDigest : List (String × List Judgment) → String
  receiptsDigest : List JudgmentReceipt → String
  scoresDigest : List ScoreRow → String

variable (runtime : Runtime)

/-- The order of the rows in the digest of a plane. -/
def Runtime.rowKey (score : ScoreRow) : List Nat ×ₗ List Nat :=
  toLex (runtime.collation score.metric, runtime.collation score.graderId)

/-- The plane as an object: of two results under one key the later one stays. -/
def scorePlane (results : List CaseResult) : Table String (List Judgment) :=
  .ofEntries (results.map fun result =>
    (result.key, (sortBy runtime.rowKey result.scores).map judgmentOf))

def scorePlaneDigest (results : List CaseResult) : String :=
  runtime.planeDigest (sortBy (fun entry => Text.utf16 entry.1) (scorePlane runtime results).entries)

/-! ## Receipts -/

def orderedReceipts (receipts : List JudgmentReceipt) : List JudgmentReceipt :=
  sortBy (fun receipt : JudgmentReceipt =>
    toLex (runtime.collation (encodeCaseKey receipt.ref.case),
      runtime.collation receipt.ref.judgeId)) receipts

def judgmentReceiptSetDigest (receipts : List JudgmentReceipt) : String :=
  runtime.receiptsDigest (orderedReceipts runtime receipts)

/-- `JSON.stringify([caseKey, judgeId])` -/
def judgmentUnit (caseKey judgeId : String) : String :=
  Text.jsonArray [Text.json caseKey, Text.json judgeId]

def JudgmentReceipt.unit (receipt : JudgmentReceipt) : String :=
  judgmentUnit (encodeCaseKey receipt.ref.case) receipt.ref.judgeId

/-- The units of one result's rows, row by row. -/
def CaseResult.units (result : CaseResult) : List String :=
  (result.scores.filterMap judgeFamilyOf).map (judgmentUnit result.key)

/-- The judgments a plane carries, each (case, judge family) once. -/
def judgmentUnits (results : List CaseResult) : List String :=
  (results.flatMap CaseResult.units).dedup

def expectedJudgmentUnits (results : List CaseResult) : Nat := (judgmentUnits results).length

structure JudgeEvidenceScope where
  passId : String
  claim : Option JudgmentClaim := none

def judgeEvidenceEmitter (judgeId : String) : Option JudgeEvidenceScope → String
  | none => s!"judge:{judgeId}"
  | some scope =>
      let passId := scope.passId
      match scope.claim with
      | none => s!"judge:{judgeId}#{passId}"
      | some claim =>
          let generation := claim.generation
          let attempt := claim.attempt
          s!"judge:{judgeId}#{passId}.{generation}.{attempt}"

/-- The digest of one judge's rows; a row that its schema refuses throws. -/
def canonicalJudgmentScores (scores : List ScoreRow) : Option String :=
  (scores.mapM ScoreRow.reread).map fun parsed =>
    runtime.scoresDigest (sortBy (fun row => runtime.collation row.metric) parsed)

/-- The rows of each judge, the judges in the order of their first row. -/
def byJudge (scores : List ScoreRow) : Table String (List ScoreRow) :=
  Table.group Prod.fst (fun rows row => rows.getD [] ++ [row.2])
    (scores.filterMap fun score => (judgeFamilyOf score).map fun judgeId => (judgeId, score))

def receiptOf (passId : String) (result : CaseResult) (claim : Option JudgmentClaim)
    (judge : String × List ScoreRow) : Option JudgmentReceipt :=
  (canonicalJudgmentScores runtime judge.2).map fun scoreDigest =>
    { ref := { scoringPassId := passId, case := ⟨result.caseId, result.trial⟩,
               judgeId := judge.1, claim }
      scoreDigest
      evidenceEmitter := judgeEvidenceEmitter judge.1 (some { passId, claim }) }

/-- The receipts of one result. -/
def receiptsOfResult (passId : String) (claimFor : CaseResult → Option JudgmentClaim)
    (result : CaseResult) : Option (List JudgmentReceipt) :=
  (sortBy (fun judge => runtime.collation judge.1) (byJudge result.scores).entries).mapM
    (receiptOf runtime passId result (claimFor result))

/-- `none` where a row's schema throws. -/
def judgmentReceiptsFromPlane (results : List CaseResult) (passId : String)
    (claimFor : CaseResult → Option JudgmentClaim) : Option (List JudgmentReceipt) :=
  (results.mapM (receiptsOfResult runtime passId claimFor)).map List.flatten

/-! ## The ledger -/

inductive PassKind where
  | initial
  | rescore
  deriving DecidableEq

inductive JudgmentProvenance where
  | recorded (digest : String) (expectedUnits recordedUnits : Nat) (complete : Bool)
  | unrecorded (reason : String)
  deriving DecidableEq

/-- The documents that a pass hands through to its revision are carried as they are. -/
structure ScoringPassInput where
  kind : PassKind
  judges : List Json
  judgeRun : Option Json := none
  results : List CaseResult
  analysisRef : Option String := none
  analysisKey : Option String := none
  stageParity : Option Json := none
  stagePromotion : Option Json := none
  inputObservation : Json
  judgments : Option (List JudgmentReceipt) := none
  judgmentsUnrecorded : Option String := none
  passId : Option String := none
  createdAt : String
  createdBy : Option String := none

structure ScoringRevision where
  revision : Nat
  kind : PassKind
  judges : List Json
  judgeRun : Option Json
  scorePlaneDigest : String
  analysisRef : Option String
  analysisKey : Option String
  stageParity : Option Json
  stagePromotion : Option Json
  judgments : Option (List JudgmentReceipt)
  judgmentReceiptSetDigest : Option String
  judgmentProvenance : JudgmentProvenance
  inputObservation : Json
  passId : Option String
  createdAt : String
  createdBy : Option String

def nextScoringRevision (previous : List ScoringRevision) : Nat :=
  (previous.getLast?.map (·.revision)).getD 0 + 1

def provenanceOf (input : ScoringPassInput) : JudgmentProvenance :=
  match input.judgments with
  | some judgments =>
      .recorded (judgmentReceiptSetDigest runtime judgments) (expectedJudgmentUnits input.results)
        judgments.length (expectedJudgmentUnits input.results ≤ judgments.length)
  | none =>
      .unrecorded (input.judgmentsUnrecorded.getD "this pass stated no judgment provenance")

def appendScoringRevision (previous : Option (List ScoringRevision)) (input : ScoringPassInput) :
    List ScoringRevision :=
  let prior := previous.getD []
  prior ++
    [{ revision := nextScoringRevision prior
       kind := input.kind
       judges := input.judges
       judgeRun := input.judgeRun
       scorePlaneDigest := scorePlaneDigest runtime input.results
       analysisRef := input.analysisRef
       analysisKey := input.analysisKey
       stageParity := input.stageParity
       stagePromotion := input.stagePromotion
       judgments := input.judgments.map (orderedReceipts runtime)
       judgmentReceiptSetDigest := input.judgments.map (judgmentReceiptSetDigest runtime)
       judgmentProvenance := provenanceOf runtime input
       inputObservation := input.inputObservation
       passId := input.passId
       createdAt := input.createdAt
       createdBy := input.createdBy }]

end Everdict.Scoring
