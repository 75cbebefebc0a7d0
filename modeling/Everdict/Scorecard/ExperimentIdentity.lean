import Everdict.Contracts.Manifest
import Everdict.Scorecard.Gate

/-!
# Experiment identity

Each axis of the experiment is read against the other side's: it is held, or it
verifiably moved, or nobody can tell.  An axis that compares one thing after
another is a `collect`: the first thing nobody can verify ends it, and otherwise
what differs is named.  An axis that gives the first verdict of a list of checks is
a `firstUnheld`.

The properties every JavaScript object inherits (`constructor`, `toString`) are no
keys of a record here.
-/

namespace Everdict.Scorecard.Identity

inductive UnverifiedReason where
  | unsealed
  | digestEra
  | composite
  | unresolved
  deriving DecidableEq

inductive AxisReading where
  | held
  | confound (detail : String)
  | unverified (reason : UnverifiedReason) (detail : String)
  deriving DecidableEq

/-- What one compared thing shows: the names under which it differs, or why nothing
can be told of it. -/
abbrev Compared := Except (UnverifiedReason × String) (List String)

/-- Compare one thing after another, up to the first that nobody can verify. -/
def collect {α : Type*} (compare : α → Compared) : List α → Compared
  | [] => .ok []
  | x :: xs =>
      match compare x with
      | .error unknown => .error unknown
      | .ok differing =>
          match collect compare xs with
          | .error unknown => .error unknown
          | .ok rest => .ok (differing ++ rest)

def conclude (detail : List String → String) : Compared → AxisReading
  | .error (reason, text) => .unverified reason text
  | .ok [] => .held
  | .ok differing => .confound (detail differing)

def firstUnheld (readings : List AxisReading) : AxisReading :=
  (readings.find? fun reading => reading ≠ .held).getD .held

/-! ## Eras -/

inductive DigestEra where
  | sha256
  | legacy
  deriving DecidableEq

def era (digest : String) : DigestEra :=
  if Text.startsWith digest "sha256:" then .sha256 else .legacy

def DigestEra.name : DigestEra → String
  | .sha256 => "sha256"
  | .legacy => "legacy"

def eraDeclared (m : ScorecardManifest) : Bool := m.identityVersion.isSome

def legacySide (b c : ScorecardManifest) : String :=
  if ¬ eraDeclared b ∧ ¬ eraDeclared c then "both sides"
  else if eraDeclared b then "the candidate"
  else "the baseline"

def compareStamps (what baseline candidate : String) : AxisReading :=
  let be := (era baseline).name
  let ce := (era candidate).name
  if era baseline ≠ era candidate then
    .unverified .digestEra
      (s!"{what}: the two seals use different digest algorithms ({be} vs {ce}) — sameness " ++
        "cannot be verified either way")
  else if baseline = candidate then .held
  else .confound what

/-- The seals of one case.  A case that one side never sealed is nothing to compare. -/
def compareSeals (eras : String → String) (b c : Table String String) (id : String) : Compared :=
  match b.get id, c.get id with
  | some bd, some cd =>
      if era bd ≠ era cd then .error (.digestEra, eras id)
      else if bd = cd then .ok []
      else .ok [id]
  | _, _ => .ok []

def andMore (differing : List String) : String :=
  let rest := differing.length - 3
  if differing.length > 3 then s!" and {rest} more" else ""

/-! ## The documents -/

def datasetLabel (m : ScorecardManifest) : String := s!"{m.dataset.id}@{m.dataset.version}"

def datasetAxis (b c : ScorecardManifest) : AxisReading :=
  let bl := datasetLabel b
  let cl := datasetLabel c
  match b.cases, c.cases with
  | some bs, some cs =>
      let shared := (objectKeys bs).filter fun id => (cs.get id).isSome
      conclude (fun differing =>
          let named := "', '".intercalate (differing.take 3)
          let more := andMore differing
          s!"{differing.length} shared case(s) changed content between the sides " ++
            s!"('{named}'{more}) ({bl} → {cl}) — the same case id no longer names the same task")
        (collect
          (compareSeals
            (fun id =>
              s!"case '{id}' is sealed under different digest algorithms — sameness cannot be " ++
                "verified either way")
            bs cs)
          shared)
  | _, _ =>
      let be := (era b.dataset.digest).name
      let ce := (era c.dataset.digest).name
      if era b.dataset.digest ≠ era c.dataset.digest then
        .unverified .digestEra
          (s!"dataset seals use different digest algorithms ({be} vs {ce}) — sameness cannot be " ++
            "verified either way")
      else if b.dataset.digest = c.dataset.digest then .held
      else
        .unverified .composite
          (s!"the sides sealed only composite bundle digests and they differ ({bl} → {cl}) — " ++
            "content, selection and grading moved indistinguishably, so no content claim can be " ++
            "made either way")

def onePlanned (defaults : String) : AxisReading :=
  .confound
    (s!"one side ran a grading-plan override and the other ran per-case defaults ({defaults} " ++
      "default) — the scoring apparatus differs")

def comparePlans : String → String → AxisReading :=
  compareStamps "the grading plan differs — the same trace would be scored differently"

/-- Both sides sealed the same case ids. -/
def sameSelection (b c : ScorecardManifest) : Bool :=
  match b.cases, c.cases with
  | some bs, some cs =>
      (objectKeys bs).length = (objectKeys cs).length
        && (objectKeys bs).all fun id => (cs.get id).isSome
  | _, _ => false

/-- Both sides ran the per-case defaults and sealed the effective grading. -/
def defaultsReading (b c : ScorecardManifest) (bg cg : String) : AxisReading :=
  match b.gradingCases, c.gradingCases with
  | some bs, some cs =>
      conclude (fun differing =>
          let named := "', '".intercalate (differing.take 3)
          let more := andMore differing
          s!"{differing.length} shared case(s) grade differently between the sides " ++
            s!"('{named}'{more}) — the same trace would be scored differently")
        (collect
          (compareSeals
            (fun id =>
              s!"case '{id}'s default graders are sealed under different digest algorithms — " ++
                "sameness cannot be verified either way")
            bs cs)
          (objectKeys bs))
  | _, _ =>
      if era bg ≠ era cg then
        .unverified .digestEra
          ("both sides ran per-case default graders and their effective-grading seals use " ++
            "different digest algorithms — sameness cannot be verified either way")
      else if bg = cg then .held
      else if sameSelection b c then
        .confound
          ("the per-case default graders differ over a verifiably identical selection — the " ++
            "same trace would be scored differently")
      else
        .unverified .composite
          ("both sides ran per-case default graders and at least one sealed only the " ++
            "selection-keyed composite — a subset selection and a default-grader edit are " ++
            "indistinguishable, so no grading claim can be made either way")

/-- Neither side sealed the effective grading: only a plan's digest is there, if any. -/
def presplitGrading (b c : ScorecardManifest) : AxisReading :=
  match b.graders, c.graders with
  | none, none =>
      if era b.dataset.digest ≠ era c.dataset.digest then
        .unverified .digestEra
          ("both sides ran per-case default graders and their composite seals use different " ++
            "digest algorithms — whether the defaults matched cannot be verified either way")
      else if b.dataset.digest = c.dataset.digest then .held
      else
        .unverified .composite
          ("both sides ran per-case default graders under pre-split seals — whether the " ++
            "defaults matched is not verifiable from the composite digests")
  | none, some _ => onePlanned "baseline"
  | some _, none => onePlanned "candidate"
  | some bp, some cp => comparePlans bp cp

def unsealedGrading (side : String) : AxisReading :=
  .unverified .unsealed
    (s!"{side} predates the effective-grading seal — the grading semantics cannot be compared " ++
      "across seal generations")

def gradingPlanAxis (b c : ScorecardManifest) : AxisReading :=
  match b.grading, c.grading with
  | some bg, some cg =>
      -- a plan run seals its plan as well; a defaults run seals none
      match b.graders, c.graders with
      | some _, none => onePlanned "candidate"
      | none, some _ => onePlanned "baseline"
      | some _, some _ => comparePlans bg cg
      | none, none => defaultsReading b c bg cg
  | none, some _ => unsealedGrading "the baseline"
  | some _, none => unsealedGrading "the candidate"
  | none, none => presplitGrading b c

/-! ## The judges -/

def runKey : Option SealedJudgeRun → String
  | none => "none"
  | some run => run.provider.getD "default" ++ "/" ++ run.model

/-- A side whose seal generation recorded the runtime judge. -/
def splitSeal (m : ScorecardManifest) : Bool := eraDeclared m || m.cases.isSome

def judgeRunReading (b c : ScorecardManifest) : AxisReading :=
  let bk := runKey b.judgeRun
  let ck := runKey c.judgeRun
  if splitSeal b ∧ splitSeal c then
    if b.judgeRun.map SealedJudgeRun.model = some "unresolved"
        ∨ c.judgeRun.map SealedJudgeRun.model = some "unresolved" then
      .unverified .unsealed
        ("the runtime judge model could not be resolved at seal time — which model judged is " ++
          "unverifiable")
    else if bk ≠ ck then
      .confound
        (s!"the runtime judge configuration differs ({bk} → {ck}) — the same trace would be " ++
          "judged by a different model")
    else .held
  else if b.judgeRun.isSome ∨ c.judgeRun.isSome then
    .unverified .unsealed
      ("a pre-split side never sealed its runtime judge configuration — whether the same model " ++
        "judged cannot be verified")
  else .held

structure ClosureTexts where
  unresolved : String
  differ : String → String → String
  oneSided : String

/-- What a reference resolved to on the two sides; `absent` answers when neither
side sealed it. -/
def closureReading (texts : ClosureTexts) (absent : AxisReading) (bv cv : Option String) :
    AxisReading :=
  if bv = some "unresolved" ∨ cv = some "unresolved" then
    .unverified .unsealed texts.unresolved
  else
    match bv, cv with
    | some bv, some cv => if bv = cv then .held else .confound (texts.differ bv cv)
    | none, none => absent
    | _, _ => .unverified .unsealed texts.oneSided

/-- An absent seal is a claim of emptiness only where both sides declare their era. -/
def absentReading (b c : ScorecardManifest) (detail : String → String) : AxisReading :=
  if eraDeclared b ∧ eraDeclared c then .held
  else .unverified .unsealed (detail (legacySide b c))

def judgeName (j : SealedJudgeEntry) : String := s!"{j.id}@{j.version}"

def judgeModelTexts (name : String) : ClosureTexts where
  unresolved :=
    s!"judge {name}'s model binding could not be resolved at seal time — which concrete model " ++
      "judged is unverifiable"
  differ bm cm :=
    s!"judge {name} resolved different concrete models ({bm} → {cm}) — same document, " ++
      "different judge"
  oneSided :=
    s!"judge {name}'s resolved model is sealed on only one side — whether the same model " ++
      "judged cannot be verified"

def judgeClosureTexts (name what : String) : ClosureTexts where
  unresolved :=
    s!"judge {name}'s {what} could not be resolved at seal time — which {what} judged is " ++
      "unverifiable"
  differ bv cv :=
    s!"judge {name}'s {what} closure differs ({bv} → {cv}) — same document, different judging " ++
      "apparatus"
  oneSided :=
    s!"judge {name}'s {what} is sealed on only one side — whether the same {what} judged " ++
      "cannot be verified"

def judgeAbsent (b c : ScorecardManifest) (name what : String) : AxisReading :=
  absentReading b c fun side =>
    s!"judge {name}'s {what} closure predates the declared identity era on {side} — an absent " ++
      "seal cannot be told from an unsealed one"

def missingSpec (name side : String) : AxisReading :=
  .unverified .unsealed
    (s!"judge {name} carries no spec digest on {side} — same id@version, but the documents " ++
      "cannot be verified identical")

/-- One judge against the one at its place on the other side, if there is one. -/
def judgeReading (b c : ScorecardManifest) (bj : SealedJudgeEntry) (cj : Option SealedJudgeEntry) :
    AxisReading :=
  let name := judgeName bj
  match bj.specDigest, cj with
  | none, _ => missingSpec name "the baseline"
  | some _, none => missingSpec name "the candidate"
  | some bd, some cj =>
      match cj.specDigest with
      | none => missingSpec name "the candidate"
      | some cd =>
          firstUnheld
            [compareStamps
                (s!"judge {name}'s document differs between the sides — same id@version, " ++
                  "different judge")
                bd cd,
              closureReading (judgeModelTexts name) (judgeAbsent b c name "model")
                bj.model cj.model,
              closureReading (judgeClosureTexts name "rubric") (judgeAbsent b c name "rubric")
                bj.rubric cj.rubric,
              closureReading (judgeClosureTexts name "delegated harness")
                (judgeAbsent b c name "delegated harness") bj.harness cj.harness]

/-- The judges by their ids, those of one id as they were listed. -/
def sortJudges (judges : Option (List SealedJudgeEntry)) : List SealedJudgeEntry :=
  (judges.getD []).insertionSort fun x y => ¬ Text.before y.id x.id

def selection (judges : List SealedJudgeEntry) : String := ", ".intercalate (judges.map judgeName)

def selectionReading (b c : ScorecardManifest) (bs cs : List SealedJudgeEntry) : AxisReading :=
  let bn := if bs = [] then "none" else selection bs
  let cn := if cs = [] then "none" else selection cs
  if bs = [] ∧ cs = [] then .held
  else if selection bs ≠ selection cs then
    .confound
      (s!"the judge selection differs ([{bn}] vs [{cn}]) — different judges produced the judge " ++
        "scores")
  else firstUnheld (bs.mapIdx fun i bj => judgeReading b c bj cs[i]?)

def judgeSetAxis (b c : ScorecardManifest) : AxisReading :=
  firstUnheld
    [judgeRunReading b c, selectionReading b c (sortJudges b.judges) (sortJudges c.judges)]

/-! ## The models under a held harness -/

def treatmentHeld (b c : ScorecardManifest) : Bool :=
  b.harness.id = c.harness.id && b.harness.version = c.harness.version
    && b.harness.specDigest = c.harness.specDigest

/-- The sealed models by service; the harness's own stands under the empty name. -/
def sealedOf (m : ScorecardManifest) : Table String String :=
  ((m.harness.serviceModels.map Table.entries).getD []).foldl (fun t e => t.set e.1 e.2)
    (match m.harness.model with
    | none => .empty
    | some model => Table.empty.set "" model)

def modelTexts (b : ScorecardManifest) (key : String) : ClosureTexts :=
  let label := if key = "" then "the harness model" else s!"service '{key}'s model"
  { unresolved :=
      s!"{label} binding could not be resolved at seal time — which concrete model executed is " ++
        "unverifiable"
    differ := fun bv cv =>
      s!"{label} resolved differently ({bv} → {cv}) under a HELD harness " ++
        s!"{b.harness.id}@{b.harness.version} — same harness document, different executing model"
    oneSided :=
      s!"{label} is sealed on only one side — whether the same model executed cannot be verified" }

def unsealedModels (side : String) : AxisReading :=
  .unverified .unsealed
    (s!"{side} predates the harness model-closure seal — whether the same model executed cannot " ++
      "be verified")

def harnessModelAxis (b c : ScorecardManifest) : AxisReading :=
  if ¬ treatmentHeld b c then .held
  else
    let bs := sealedOf b
    let cs := sealedOf c
    match objectKeys bs, objectKeys cs with
    | [], [] =>
        absentReading b c fun side =>
          s!"the harness model closure predates the declared identity era on {side} — an " ++
            "absent seal cannot be told from an unsealed one"
    | [], _ :: _ => unsealedModels "the baseline"
    | _ :: _, [] => unsealedModels "the candidate"
    | bkeys, ckeys =>
        firstUnheld ((bkeys ++ ckeys.filter fun key => (bs.get key).isNone).map fun key =>
          -- every key is sealed on one side at least
          closureReading (modelTexts b key) .held (bs.get key) (cs.get key))

/-! ## The world of the results -/

def CURRENT_EXECUTION_MANIFEST_ERA : Nat := 2

def imageProvenanceOf (manifest : ExecutionManifest) : ImageProvenance :=
  let images : List RequestedImage := [{ ref := manifest.image.getD "" }]
  if manifest.manifestVersion.getD 1 < CURRENT_EXECUTION_MANIFEST_ERA then
    .unresolved images .legacyEra
      (match manifest.image with
      | some image =>
          "the manifest predates image provenance and recorded only the requested reference " ++
            s!"'{image}'"
      | none => "the manifest predates image provenance and recorded no reference at all")
  else
    manifest.imageProvenance.getD
      (.unresolved images .laneCannotReport
        "the manifest declares the current era but states no image provenance")

/-- The images of a world as one text: the order of the units does not show. -/
def imageKey (images : List ProvisionedImage) : String :=
  "\x01".intercalate (Text.sort (images.map fun i => i.unit.getD "" ++ "\x00" ++ i.digest))

def sameResolvedImages : ImageProvenance → ImageProvenance → Bool
  | .resolved as _, .resolved bs _ => imageKey as = imageKey bs
  | _, _ => false

def sameHosts (a b : Option (List String)) : Bool :=
  let x := Text.sort (a.getD [])
  let y := Text.sort (b.getD [])
  x.length = y.length && (x.zip y).all fun hosts => hosts.1 = hosts.2

def sameEnforcedWorld (a b : ProvisionedWorldProof) : Bool :=
  a.os = b.os && a.enforcedBy = b.enforcedBy && a.isolation = b.isolation
    && (a.resources.bind fun r => r.cpu) = (b.resources.bind fun r => r.cpu)
    && (a.resources.bind fun r => r.memoryMb) = (b.resources.bind fun r => r.memoryMb)
    && (a.resources.bind fun r => r.gpu) = (b.resources.bind fun r => r.gpu)
    && a.network.map NetworkPolicy.mode = b.network.map NetworkPolicy.mode
    && sameHosts (a.network.map NetworkPolicy.allowedHosts)
        (b.network.map NetworkPolicy.allowedHosts)

/-- The last result of each case. -/
def byCase (candidate : List ExecutedResult) : Table String ExecutedResult :=
  Table.group (fun r => r.caseId) (fun _ r => r) candidate

def sharedPairs (baseline candidate : List ExecutedResult) :
    List (ExecutedResult × ExecutedResult) :=
  baseline.filterMap fun b => ((byCase candidate).get b.caseId).map fun c => (b, c)

/-- Nothing states what the result ran from. -/
def silent (r : ExecutedResult) : Bool := r.execution.isNone && r.verifier.isNone

def incompleteVerifier (r : ExecutedResult) : Bool := r.verifier.any fun v => ¬ v.complete

def unnamedVerifier (side : String) (r : ExecutedResult) : UnverifiedReason × String :=
  (.unresolved,
    (s!"case {r.caseId}'s verdict came from a verifier container the {side} lane could not name " ++
      "(an incomplete receipt), so the world its verdict was reached in is unknown"))

def noExecution (caseId side : String) : UnverifiedReason × String :=
  (.unsealed,
    (s!"case {caseId} recorded no execution manifest on {side}, so nothing states which bytes " ++
      "it ran"))

def unpinnedImage (caseId side : String) (p : ImageProvenance) : UnverifiedReason × String :=
  (.unresolved,
    (s!"case {caseId} could not pin the image it ran from on {side} ({p.kind}), so sameness " ++
      "cannot be verified either way"))

def oneSidedWorld (caseId side : String) : UnverifiedReason × String :=
  (.unsealed,
    (s!"case {caseId} recorded the world it was placed in on {side} only, so the two sides' " ++
      "worlds cannot be compared beyond their image bytes"))

def compareImages (caseId : String) (bp cp : ImageProvenance) : Compared :=
  match bp, cp with
  | .resolved _ _, .resolved _ _ => .ok (if sameResolvedImages bp cp then [] else [caseId])
  | .resolved _ _, cp => .error (unpinnedImage caseId "the candidate" cp)
  | bp, _ => .error (unpinnedImage caseId "the baseline" bp)

/-- A box that neither side attests is nothing to compare. -/
def compareBoxes (caseId : String) (bw cw : Option ProvisionedWorldProof) : Compared :=
  match bw, cw with
  | none, none => .ok []
  | some bw, some cw => .ok (if sameEnforcedWorld bw cw then [] else [caseId])
  | none, some _ => .error (oneSidedWorld caseId "the candidate")
  | some _, none => .error (oneSidedWorld caseId "the baseline")

def compareWorlds (pair : ExecutedResult × ExecutedResult) : Compared :=
  let b := pair.1
  let c := pair.2
  if incompleteVerifier b then .error (unnamedVerifier "baseline" b)
  else if incompleteVerifier c then .error (unnamedVerifier "candidate" c)
  else
    match b.execution, c.execution with
    | none, _ => .error (noExecution b.caseId "the baseline")
    | some _, none => .error (noExecution b.caseId "the candidate")
    | some be, some ce =>
        match compareImages b.caseId (imageProvenanceOf be) (imageProvenanceOf ce) with
        | .error unknown => .error unknown
        | .ok images =>
            match compareBoxes b.caseId be.world ce.world with
            | .error unknown => .error unknown
            | .ok boxes => .ok (images ++ boxes)

/-- `none` is an abstention: the records give nothing to speak about. -/
def worldAxis (baseline candidate : List ExecutedResult) : Option AxisReading :=
  let shared := sharedPairs baseline candidate
  if shared = [] then none
  else if shared.all fun pair => silent pair.1 && silent pair.2 then none
  else
    some (conclude (fun differences =>
        let named := ", ".intercalate (differences.take 5)
        let more := if differences.length > 5 then ", …" else ""
        s!"{differences.length} compared case(s) ran in a different world on the two sides — " ++
          s!"different image bytes, or a different enforced box ({named}{more}) — a delta " ++
          "across different worlds is not evidence about the change under test")
      (collect compareWorlds shared))

/-! ## The environments -/

def oneSidedEnvironments (side : String) (naming : Table String SealedEnvironmentEntry) :
    AxisReading :=
  let refs := ", ".intercalate ((objectKeys naming).filterMap fun id =>
    (naming.get id).map SealedEnvironmentEntry.ref)
  .unverified .unsealed
    (s!"{side} references no environment while the other side pins {refs} — one side's world is " ++
      "stated and the other's is unstated, so sameness cannot be verified either way")

def compareEnvironments (be ce : Table String SealedEnvironmentEntry) (id : String) : Compared :=
  match be.get id, ce.get id with
  | some b, some c =>
      match b.digest, c.digest with
      | some bd, some cd =>
          if era bd ≠ era cd then
            .error (.digestEra,
              (s!"case '{id}'s environment documents are sealed under different digest " ++
                "algorithms — sameness cannot be verified either way"))
          else if b.ref ≠ c.ref ∨ bd ≠ cd then .ok [s!"{id} ({b.ref} → {c.ref})"]
          else .ok []
      | _, _ =>
          .error (.unresolved,
            (s!"case '{id}' pins {b.ref} against {c.ref} and at least one document could not be " ++
              "read at seal time — an unpinned document is never agreement"))
  | _, _ => .ok []

def environmentAxis (b c : ScorecardManifest) : Option AxisReading :=
  let be := b.environments.getD .empty
  let ce := c.environments.getD .empty
  match objectKeys be, objectKeys ce with
  | [], [] => none
  | _ :: _, [] => some (oneSidedEnvironments "the candidate" be)
  | [], _ :: _ => some (oneSidedEnvironments "the baseline" ce)
  | bkeys, _ =>
      let shared := bkeys.filter fun id => (ce.get id).isSome
      if shared = [] then
        some (.unverified .unresolved
          ("the two sides reference environments on disjoint cases, so no case pins a world on " ++
            "both sides — nothing to compare"))
      else
        some (conclude (fun differing =>
            let named := ", ".intercalate (differing.take 3)
            let more := andMore differing
            s!"{differing.length} case(s) ran against a different environment document: " ++
              s!"{named}{more} — the world moved, so the delta is not evidence about the harness")
          (collect (compareEnvironments be ce) shared))

/-! ## The identity -/

structure ExperimentConfound where
  axis : ExperimentAxis
  detail : String
  deriving DecidableEq

structure ExperimentUnverified where
  axis : ExperimentAxis
  reason : UnverifiedReason
  detail : String
  deriving DecidableEq

structure ExperimentIdentity where
  held : List ExperimentAxis
  confounds : List ExperimentConfound
  unverified : List ExperimentUnverified
  deriving DecidableEq

def EXPERIMENT_AXES : List ExperimentAxis :=
  [.datasetContent, .gradingPlan, .judgeSet, .harnessModel, .executionWorld, .environment]

/-- The axis as a detail words it, without the underscore. -/
def axisWords : ExperimentAxis → String
  | .datasetContent => "dataset content"
  | .gradingPlan => "grading plan"
  | .judgeSet => "judge set"
  | .harnessModel => "harness model"
  | .executionWorld => "execution world"
  | .environment => "environment"

structure SideResults where
  baseline : List ExecutedResult
  candidate : List ExecutedResult

def unsealedIdentity (sides : String) : ExperimentIdentity where
  held := []
  confounds := []
  unverified := EXPERIMENT_AXES.map fun axis =>
    let words := axisWords axis
    { axis
      reason := .unsealed
      detail :=
        s!"{sides} unsealed (no reproducibility manifest) — nothing to verify the {words} against" }

/-- The reading of an axis, unless it abstains. -/
def readingOf (b c : ScorecardManifest) (results : SideResults) :
    ExperimentAxis → Option AxisReading
  | .datasetContent => some (datasetAxis b c)
  | .gradingPlan => some (gradingPlanAxis b c)
  | .judgeSet => some (judgeSetAxis b c)
  | .harnessModel => some (harnessModelAxis b c)
  | .executionWorld => worldAxis results.baseline results.candidate
  | .environment => environmentAxis b c

def record (out : ExperimentIdentity) (axis : ExperimentAxis) : AxisReading → ExperimentIdentity
  | .held => { out with held := out.held ++ [axis] }
  | .confound detail => { out with confounds := out.confounds ++ [{ axis, detail }] }
  | .unverified reason detail =>
      { out with unverified := out.unverified ++ [{ axis, reason, detail }] }

def classify (b c : ScorecardManifest) (results : SideResults) (out : ExperimentIdentity)
    (axis : ExperimentAxis) : ExperimentIdentity :=
  match readingOf b c results axis with
  | none => out
  | some reading => record out axis reading

def experimentIdentity (baseline candidate : Option ScorecardManifest) (results : SideResults) :
    ExperimentIdentity :=
  match baseline, candidate with
  | none, none => unsealedIdentity "both sides are"
  | none, some _ => unsealedIdentity "the baseline is"
  | some _, none => unsealedIdentity "the candidate is"
  | some b, some c => EXPERIMENT_AXES.foldl (classify b c results) ⟨[], [], []⟩

end Everdict.Scorecard.Identity
