import Everdict.Evolution.FamilySteps
import Everdict.Evolution.Settle

/-!
# Spending an adoption

A campaign that closes as adopted owes an operation.  `adopt` turns it into a registry write,
`merge` pays its code debt, and three callers join the registration with the issue it was
opened for: `adopt` itself, the watch of the issue's events and the reconciler's sweep.  Every
call is split where it awaits, so any number of them interleave in the `machine`; a call that
crashed is one that never goes on.
-/

namespace Everdict.Adoption

open Transition Evolution

/-! ## The operations of a campaign -/

/-- Which store holds the campaigns and their operations. -/
inductive Backend where
  | inMemory
  | postgres
  deriving DecidableEq

/-- Another workspace's operation reads as nonexistent. -/
def forCampaign (s : CampaignStore) (tenant campaignId : String) : Option AdoptionOperation :=
  (s.adoptions.get campaignId).filter fun op => op.tenant = tenant

def forIssue (s : CampaignStore) (tenant issueId : String) : List AdoptionOperation :=
  s.adoptions.values.filter fun op => op.tenant = tenant ∧ op.proof.issueId = issueId

/-- The sweep's worklist: which rows are due, and in which order, the clocks decide. -/
def registeredOlderThan (s : CampaignStore) (due : List String) : List AdoptionOperation :=
  (due.filterMap s.adoptions.get).filter fun op => op.state = .registered

/-- The three marks: the registration spent, the code debt paid, the intent settled. -/
inductive Mark where
  | registered (version : String)
  | merged (sha : String)
  | completed
  deriving DecidableEq

inductive MarkOutcome where
  | marked
  | already
  | noCodeDebt
  | notRegistered
  | noSuchOperation
  | proofMismatch
  deriving DecidableEq

def MarkOutcome.name : MarkOutcome → String
  | .marked => "marked"
  | .already => "already"
  | .noCodeDebt => "no_code_debt"
  | .notRegistered => "not_registered"
  | .noSuchOperation => "no_such_operation"
  | .proofMismatch => "proof_mismatch"

/-- What a mark answers from the row it read, where it goes no further.  The SQL
`markRegistered` leaves the state to its statement. -/
def Mark.answers (backend : Backend) (op : AdoptionOperation) : Mark → Option MarkOutcome
  | .registered _ => if backend = .inMemory ∧ op.state ≠ .decided then some .already else none
  | .merged _ =>
      match op.code with
      | none => some .noCodeDebt
      | some debt =>
          if debt.merged then some .already
          else if op.state = .decided then some .notRegistered
          else none
  | .completed =>
      if op.state = .completed then some .already
      else if op.state ≠ .registered then some .notRegistered
      else none

/-- The condition of the SQL statement, on the row it finds. -/
def Mark.guards (op : AdoptionOperation) : Mark → Bool
  | .registered _ => op.state = .decided
  | .merged _ => (op.state = .registered ∨ op.state = .completed) ∧ op.code.any (!·.merged)
  | .completed => op.state = .registered

def paid (sha : String) (debt : AdoptionCodeDebt) : AdoptionCodeDebt :=
  { debt with merged := true, mergedSha := some sha }

/-- The row a mark makes of a row; the code document is written as it was read. -/
def Mark.apply (read op : AdoptionOperation) : Mark → AdoptionOperation
  | .registered version => { op with state := .registered, registeredVersion := some version }
  | .merged sha => { op with code := read.code.map (paid sha) }
  | .completed => { op with state := .completed }

/-- A mark and the facts that ride it. -/
structure Marking where
  tenant : String
  campaignId : String
  proofDigest : String
  mark : Mark
  events : List CampaignFact
  deriving DecidableEq

/-- From a mark's own read to its write: refused, or the row it holds. -/
def Marking.check (proofDigest : CampaignAdoptionProof → String) (backend : Backend)
    (marking : Marking) (found : Option AdoptionOperation) : Except MarkOutcome AdoptionOperation :=
  match found with
  | none => .error .noSuchOperation
  | some op =>
      if proofDigest op.proof ≠ marking.proofDigest then .error .proofMismatch
      else
        match marking.mark.answers backend op with
        | some outcome => .error outcome
        | none => .ok op

def Marking.put (s : CampaignStore) (marking : Marking) (op : AdoptionOperation) : CampaignStore :=
  { s with
    adoptions := s.adoptions.set marking.campaignId op
    events := s.events ++ marking.events }

/-- The in-process store writes the row it read; the SQL statement looks at the row again. -/
def Marking.write (backend : Backend) (s : CampaignStore) (marking : Marking)
    (read : AdoptionOperation) : CampaignStore × MarkOutcome :=
  match backend with
  | .inMemory => (marking.put s (marking.mark.apply read read), .marked)
  | .postgres =>
      match forCampaign s marking.tenant marking.campaignId with
      | none => (s, .already)
      | some op =>
          if marking.mark.guards op then (marking.put s (marking.mark.apply read op), .marked)
          else (s, .already)

/-! ## What a call is asked and what it answers -/

/-- A candidate as a caller presents it and as a registry holds it. -/
structure RegistryCandidate where
  type : SubjectType
  id : String
  version : String
  specDigest : Option String := none
  deriving DecidableEq

inductive RegistrationKind where
  | created
  | alreadyExists
  deriving DecidableEq

structure RegistrationOutcome where
  kind : RegistrationKind
  candidate : RegistryCandidate
  deriving DecidableEq

structure AdoptionRequest where
  tenant : String
  campaignId : String
  proof : CampaignAdoptionProof
  candidate : RegistryCandidate
  spec : String
  caller : String
  via : String
  deriving DecidableEq

structure MergeRequest where
  tenant : String
  campaignId : String
  proof : CampaignAdoptionProof
  caller : String
  deriving DecidableEq

structure IssueResolution where
  scorecardId : Option String := none
  deriving DecidableEq

structure IssueResolutionView where
  status : String
  resolution : Option IssueResolution := none
  deriving DecidableEq

/-- The answer of an issue read. -/
inductive IssueAnswer where
  | found (issue : IssueResolutionView)
  | notFound
  | failed
  deriving DecidableEq

structure AdoptionError where
  code : String
  campaign : String
  message : String
  deriving DecidableEq

/-- What one sweep did. -/
structure AdoptionCompletionSweep where
  examined : Nat := 0
  completed : Nat := 0
  stillOpen : Nat := 0
  unknown : Nat := 0
  orphaned : Nat := 0
  undeferred : Nat := 0
  deriving DecidableEq

inductive Unfinished where
  | stillOpen
  | unknown
  | orphaned
  deriving DecidableEq

def AdoptionCompletionSweep.count (sweep : AdoptionCompletionSweep) :
    Unfinished → AdoptionCompletionSweep
  | .stillOpen => { sweep with stillOpen := sweep.stillOpen + 1 }
  | .unknown => { sweep with unknown := sweep.unknown + 1 }
  | .orphaned => { sweep with orphaned := sweep.orphaned + 1 }

inductive Call where
  | settle (tenant id closedBy : String)
  | adopt (input : AdoptionRequest)
  | merge (input : MergeRequest)
  /-- The watch is handed an `issue.status_changed` event. -/
  | handle (tenant issueId status : String) (scorecardId : Option String)
  | sweep
  deriving DecidableEq

/-- The workspace a call reads; the sweep takes each operation's own. -/
def Call.tenant : Call → String
  | .settle tenant _ _ | .handle tenant _ _ _ => tenant
  | .adopt input => input.tenant
  | .merge input => input.tenant
  | .sweep => ""

inductive Outcome where
  | threw (error : AdoptionError)
  | unsettled (refusal : Option SettleRefusal)
  | closed (outcome : CampaignCloseOutcome)
  | adopted (operation : AdoptionOperation) (version : String)
  | alreadyAdopted (version : Option String)
  | merged (now : Bool) (sha : String) (operation : AdoptionOperation)
  | handled
  | swept (sweep : AdoptionCompletionSweep)
  deriving DecidableEq

/-! ## The refusals -/

def typeName : SubjectType → String
  | .agent => "agent"
  | .harness => "harness"
  | .environment => "environment"

/-- The coordinates both comparisons read, type before id before version. -/
def labelMismatch (want : AdoptionCandidate) (given : RegistryCandidate) : Option String :=
  let wanted := typeName want.type
  let type := typeName given.type
  if want.type ≠ given.type then some s!"type {type} (authorized: {wanted})"
  else if want.id ≠ given.id then some s!"id {given.id} (authorized: {want.id})"
  else if want.version ≠ given.version then
    some s!"version {given.version} (authorized: {want.version})"
  else none

/-- What of the presented candidate the proof does not authorize. -/
def mismatchOf (want : AdoptionCandidate) (given : RegistryCandidate) : Option String :=
  (labelMismatch want given).or
    (want.specDigest.bind fun digest =>
      let presented := given.specDigest.getD "absent"
      if given.specDigest ≠ some digest then
        some s!"spec digest {presented} (authorized: {digest})"
      else none)

/-- What of the candidate the registry now holds the proof does not authorize. -/
def driftOf (authorized : AdoptionCandidate) (landed : RegistryCandidate) : Option String :=
  (labelMismatch authorized landed).or
    (authorized.specDigest.bind fun measured =>
      if landed.specDigest ≠ some measured then
        some (match landed.specDigest with
          | none => s!"no resolvable document (this campaign proved {measured})"
          | some digest => s!"spec digest {digest} (this campaign proved {measured})")
      else none)

def conflict (campaign message : String) : AdoptionError :=
  { code := "CONFLICT", campaign, message }

def neverAuthorized (campaign : String) : AdoptionError where
  code := "NOT_FOUND"
  campaign := campaign
  message := "this campaign never authorized an adoption — settle it through the gate first"

def notTheRecordedProof : String :=
  "the proof presented is not the one this campaign recorded"

/-- Did this issue close on this adoption's evidence? -/
def issueSettledThisAdoption (issue : IssueResolutionView) (proof : CampaignAdoptionProof) : Bool :=
  issue.status = "done" ∧ issue.resolution.bind (·.scorecardId) = some proof.provingScorecardId

/-! ## The facts -/

/-- `campaign.adoption_registered`: the identity is the proof's, the rest what landed. -/
def registeredFact (campaignId : String) (proof : CampaignAdoptionProof)
    (landed : RegistrationOutcome) : CampaignFact :=
  .adoptionRegistered campaignId
    { identity := proof.candidate.identity
      type := landed.candidate.type
      id := landed.candidate.id
      version := landed.candidate.version }
    proof.provingScorecardId proof.issueId (landed.kind = .created)

def mergedFact (campaignId : String) (proof : CampaignAdoptionProof) (debt : AdoptionCodeDebt)
    (sha : String) : CampaignFact :=
  .adoptionMerged campaignId proof.candidate debt.repo debt.prNumber sha proof.issueId

def completionFact (operation : AdoptionOperation) : CampaignFact :=
  .adoptionCompleted operation.proof.campaignId operation.proof.candidate.id
    (operation.registeredVersion.getD operation.proof.candidate.version)
    operation.proof.issueId operation.proof.provingScorecardId

/-! ## The calls -/

/-- What an adoption answers once the join is done or given up. -/
inductive Joined where
  | retried (version : Option String)
  | spent (operation : AdoptionOperation) (version : String)
  deriving DecidableEq

/-- Who marks, and what it does with the outcome. -/
inductive Then where
  | spent (version : String)
  | paid (sha : String) (alreadyMerged : Bool)
  | joined (operation : AdoptionOperation) (joined : Joined)
  | handled (rest : List AdoptionOperation)
  | swept (operation : AdoptionOperation) (rest : List AdoptionOperation)
      (sweep : AdoptionCompletionSweep)
  deriving DecidableEq

/-- Where a call stands: what it awaits, and what it has in hand. -/
inductive Phase where
  | get (id closedBy : String)
  | spend (record : EvolutionCampaignRecord) (closedBy : String)
  | close (record : EvolutionCampaignRecord) (settlement : Settlement)
  | forCampaign
  | register (input : AdoptionRequest) (recorded : AdoptionOperation)
  | merge (input : MergeRequest) (recorded : AdoptionOperation) (debt : AdoptionCodeDebt)
  | forIssue
  | due
  | issue (operation : AdoptionOperation) (joined : Joined)
  | sweepIssue (operation : AdoptionOperation) (rest : List AdoptionOperation)
      (sweep : AdoptionCompletionSweep)
  | markRead (marking : Marking) (next : Then)
  | markWrite (marking : Marking) (read : AdoptionOperation) (next : Then)
  | spentRead (campaignId version : String)
  | paidRead (campaignId : String) (now : Bool) (sha : String)
  | joinedRead (campaignId : String) (joined : Joined)
  | defer (operation : AdoptionOperation) (rest : List AdoptionOperation)
      (sweep : AdoptionCompletionSweep)
  | done (outcome : Outcome)
  deriving DecidableEq

/-- What a call asks of the outside. -/
inductive Effect where
  | register (tenant caller via : String) (proof : CampaignAdoptionProof) (spec : String)
  | merge (tenant caller repo : String) (prNumber : Int) (expectedSha : Option String)
  deriving DecidableEq

/-- What a step reports: the facts of an accepted write, and the effect it starts. -/
structure Report where
  facts : List CampaignFact := []
  effect : Option Effect := none
  deriving DecidableEq

structure Deps where
  store : Backend
  policyDigest : NonInferiorityPolicy → String
  answerDigest : CampaignGateAnswer → String
  /-- `contentDigest` of a proof. -/
  proofDigest : CampaignAdoptionProof → String
  requestDigestOf : List String → String

def Joined.answer (completed : Option AdoptionOperation) : Joined → Outcome
  | .retried version => .alreadyAdopted version
  | .spent operation version => .adopted (completed.getD operation) version

section calls

variable (deps : Deps)

def Deps.completes (operation : AdoptionOperation) (tenant : String) : Marking where
  tenant := tenant
  campaignId := operation.proof.campaignId
  proofDigest := deps.proofDigest operation.proof
  mark := .completed
  events := [completionFact operation]

/-- `adopt`, from the answer of `forCampaign` to the next await. -/
def Deps.adoptRead (input : AdoptionRequest) (found : Option AdoptionOperation) :
    Phase × Option Effect :=
  match found with
  | none => (.done (.threw (neverAuthorized input.campaignId)), none)
  | some recorded =>
      if deps.proofDigest input.proof ≠ deps.proofDigest recorded.proof then
        (.done (.threw (conflict input.campaignId notTheRecordedProof)), none)
      else
        match mismatchOf recorded.proof.candidate input.candidate with
        | some mismatch =>
            (.done (.threw (conflict input.campaignId
              s!"this adoption authorizes a different candidate — {mismatch}")), none)
        | none =>
            match recorded.state with
            | .decided =>
                (.register input recorded,
                  some (.register input.tenant input.caller input.via recorded.proof input.spec))
            | .registered => (.issue recorded (.retried recorded.registeredVersion), none)
            | .completed => (.done (.alreadyAdopted recorded.registeredVersion), none)

/-- `adopt`, from the registry's answer to the next await. -/
def Deps.afterRegister (input : AdoptionRequest) (recorded : AdoptionOperation)
    (landed : RegistrationOutcome) : Phase :=
  match driftOf recorded.proof.candidate landed.candidate with
  | some drift =>
      .done (.threw (conflict input.campaignId
        ("the registry now holds a different capability than this campaign authorized — "
          ++ drift ++ ". The authorization stays unspent")))
  | none =>
      .markRead
        { tenant := input.tenant
          campaignId := input.campaignId
          proofDigest := deps.proofDigest recorded.proof
          mark := .registered landed.candidate.version
          events := [registeredFact input.campaignId recorded.proof landed] }
        (.spent landed.candidate.version)

/-- `merge`, from the answer of `forCampaign` to the next await. -/
def Deps.mergeRead (input : MergeRequest) (found : Option AdoptionOperation) :
    Phase × Option Effect :=
  match found with
  | none => (.done (.threw (neverAuthorized input.campaignId)), none)
  | some recorded =>
      if deps.proofDigest input.proof ≠ deps.proofDigest recorded.proof then
        (.done (.threw (conflict input.campaignId notTheRecordedProof)), none)
      else
        match recorded.code with
        | none =>
            (.done (.threw (conflict input.campaignId
              ("this adoption carries no code debt — its candidate scorecard named no pull "
                ++ "request, so there is nothing to merge"))), none)
        | some debt =>
            if recorded.state = .decided then
              (.done (.threw (conflict input.campaignId
                ("the adopted bytes are not registered yet — spend the adoption (adopt) before "
                  ++ "merging the code that built them"))), none)
            else
              match debt.merged, debt.mergedSha with
              | true, some sha => (.done (.merged false sha recorded), none)
              | _, _ =>
                  (.merge input recorded debt,
                    some (.merge input.tenant input.caller debt.repo debt.prNumber debt.sha))

/-- `merge`, from the answer of the merge to the next await. -/
def Deps.afterMerge (input : MergeRequest) (recorded : AdoptionOperation)
    (debt : AdoptionCodeDebt) (sha : String) (alreadyMerged : Bool) : Phase :=
  .markRead
    { tenant := input.tenant
      campaignId := input.campaignId
      proofDigest := deps.proofDigest recorded.proof
      mark := .merged sha
      events := [mergedFact input.campaignId recorded.proof debt sha] }
    (.paid sha alreadyMerged)

/-- `completeIfIntentSettled`, from the issue's answer: unreadable is not unresolved. -/
def Deps.afterIssue (tenant : String) (operation : AdoptionOperation) (joined : Joined)
    (answer : IssueAnswer) : Phase :=
  match answer with
  | .found issue =>
      if issueSettledThisAdoption issue operation.proof then
        .markRead (deps.completes operation tenant) (.joined operation joined)
      else .done (joined.answer none)
  | .notFound | .failed => .done (joined.answer none)

/-- The watch goes on to the next operation the event settles. -/
def Deps.handleNext (tenant : String) (issue : IssueResolutionView) :
    List AdoptionOperation → Phase
  | [] => .done .handled
  | operation :: rest =>
      if operation.state = .registered ∧ issueSettledThisAdoption issue operation.proof then
        .markRead (deps.completes operation tenant) (.handled rest)
      else Deps.handleNext tenant issue rest

/-- The sweep goes on to the next operation of its worklist. -/
def sweepNext (sweep : AdoptionCompletionSweep) : List AdoptionOperation → Phase
  | [] => .done (.swept sweep)
  | operation :: rest => .sweepIssue operation rest sweep

/-- The sweep, from the issue's answer to the next await. -/
def Deps.afterSweepIssue (operation : AdoptionOperation) (rest : List AdoptionOperation)
    (sweep : AdoptionCompletionSweep) (answer : IssueAnswer) : Phase :=
  match answer with
  | .found issue =>
      if issueSettledThisAdoption issue operation.proof then
        .markRead (deps.completes operation operation.tenant) (.swept operation rest sweep)
      else .defer operation rest (sweep.count .stillOpen)
  | .notFound => .defer operation rest (sweep.count .orphaned)
  | .failed => .defer operation rest (sweep.count .unknown)

/-- The event of the watch as the record the join reads. -/
def settledOf (status : String) (scorecardId : Option String) : IssueResolutionView where
  status := status
  resolution := scorecardId.map fun id => { scorecardId := some id }

def Call.settled : Call → IssueResolutionView
  | .handle _ _ status scorecardId => settledOf status scorecardId
  | .settle .. | .adopt .. | .merge .. | .sweep => { status := "" }

/-- What a call does with the outcome of its mark. -/
def Deps.afterMark (call : Call) (marking : Marking) (outcome : MarkOutcome) : Then → Phase
  | .spent version =>
      match outcome with
      | .already => .done (.alreadyAdopted (some version))
      | .marked => .spentRead marking.campaignId version
      | .noCodeDebt | .notRegistered | .noSuchOperation | .proofMismatch =>
          .done (.threw (conflict marking.campaignId
            ("the registry write landed but its authorization could not be spent ("
              ++ outcome.name ++ ")")))
  | .paid sha alreadyMerged =>
      match outcome with
      | .marked => .paidRead marking.campaignId (!alreadyMerged) sha
      | .already => .paidRead marking.campaignId false sha
      | .noCodeDebt | .notRegistered | .noSuchOperation | .proofMismatch =>
          .done (.threw (conflict marking.campaignId
            ("the merge landed at " ++ sha ++ " but the code debt could not be recorded as paid ("
              ++ outcome.name ++ ") — the operation stays owed; re-drive it")))
  | .joined _ joined =>
      match outcome with
      | .marked | .already => .joinedRead marking.campaignId joined
      | .noCodeDebt | .notRegistered | .noSuchOperation | .proofMismatch =>
          .done (joined.answer none)
  | .handled rest =>
      match outcome with
      | .proofMismatch | .noSuchOperation =>
          .done (.threw (conflict marking.campaignId
            ("the adoption this issue resolved could not be discharged (" ++ outcome.name
              ++ ") — the operation read for this issue is not the one the ledger holds")))
      | .marked | .already | .noCodeDebt | .notRegistered =>
          deps.handleNext call.tenant call.settled rest
  | .swept operation rest sweep =>
      match outcome with
      | .marked | .already => sweepNext { sweep with completed := sweep.completed + 1 } rest
      | .noCodeDebt | .notRegistered | .noSuchOperation | .proofMismatch =>
          .defer operation rest (sweep.count .unknown)

def vanished (campaign doing : String) : Outcome :=
  .threw (conflict campaign
    ("the authorization vanished between " ++ doing ++ " and reading it back"))

/-! ## The machine -/

/-- What an await is answered with; the store answers from its rows. -/
inductive Answer where
  | store
  | spent (spend : CampaignSpend)
  | registry (landed : RegistrationOutcome)
  | merged (sha : String) (alreadyMerged : Bool)
  | issue (answer : IssueAnswer)
  | due (ids : List String)

/-- The fact of a close. -/
def closedFact (record : EvolutionCampaignRecord) (settlement : Settlement) : CampaignFact :=
  .closed record.id settlement.state

/-- A read of the store: it changes nothing. -/
def Deps.read (s : CampaignStore) (call : Call) : Phase → Option (Phase × Option Effect)
  | .get id closedBy =>
      match s.get call.tenant id with
      | none => some (.done (.closed .absent), none)
      | some record =>
          if record.state ≠ .opened then
            some (.done (.unsettled (some (.alreadySettled record.state))), none)
          else some (.spend record closedBy, none)
  | .forCampaign =>
      match call with
      | .adopt input =>
          some (deps.adoptRead input (Adoption.forCampaign s input.tenant input.campaignId))
      | .merge input =>
          some (deps.mergeRead input (Adoption.forCampaign s input.tenant input.campaignId))
      | .settle .. | .handle .. | .sweep => none
  | .forIssue =>
      match call with
      | .handle tenant issueId _ _ =>
          some (deps.handleNext tenant call.settled (Adoption.forIssue s tenant issueId), none)
      | .settle .. | .adopt .. | .merge .. | .sweep => none
  | .markRead marking next =>
      match marking.check deps.proofDigest deps.store
          (Adoption.forCampaign s marking.tenant marking.campaignId) with
      | .error outcome => some (deps.afterMark call marking outcome next, none)
      | .ok read => some (.markWrite marking read next, none)
  | .spentRead campaignId version =>
      match Adoption.forCampaign s call.tenant campaignId with
      | none => some (.done (vanished campaignId "spending it"), none)
      | some operation => some (.issue operation (.spent operation version), none)
  | .paidRead campaignId now sha =>
      match Adoption.forCampaign s call.tenant campaignId with
      | none => some (.done (vanished campaignId "paying its code debt"), none)
      | some operation => some (.done (.merged now sha operation), none)
  | .joinedRead campaignId joined =>
      some (.done (joined.answer (Adoption.forCampaign s call.tenant campaignId)), none)
  | .defer operation rest sweep =>
      -- the deferral dates the next look and leaves the lifecycle alone
      let moved := (Adoption.forCampaign s operation.tenant operation.proof.campaignId).any
        (·.state = .registered)
      some (sweepNext
        (if moved then sweep else { sweep with undeferred := sweep.undeferred + 1 }) rest, none)
  | .spend .. | .close .. | .register .. | .merge .. | .due | .issue .. | .sweepIssue ..
  | .markWrite .. | .done .. => none

/-- What the answer does to a call that stands in the phase. -/
def Deps.advance (s : CampaignStore) (call : Call) (phase : Phase) :
    Answer → Option (CampaignStore × Phase × Report)
  | .store =>
      match phase with
      | .close record settlement =>
          let closing := close s call.tenant record.id settlement.state settlement.close
            record.rounds.length [closedFact record settlement] settlement.adoption
          some (closing.1, .done (.closed closing.2),
            { facts := if closing.2 = .closed then [closedFact record settlement] else [] })
      | .markWrite marking read next =>
          let written := marking.write deps.store s read
          some (written.1, deps.afterMark call marking written.2 next,
            { facts := if written.2 = .marked then marking.events else [] })
      | phase =>
          (deps.read s call phase).map fun moved => (s, moved.1, { effect := moved.2 })
  | .spent spend =>
      match phase with
      | .spend record closedBy =>
          match settle deps.policyDigest deps.answerDigest record spend closedBy with
          | .error refusal => some (s, .done (.unsettled (some refusal)), {})
          | .ok settlement => some (s, .close record settlement, {})
      | _ => none
  | .registry landed =>
      match phase with
      | .register input recorded => some (s, deps.afterRegister input recorded landed, {})
      | _ => none
  | .merged sha alreadyMerged =>
      match phase with
      | .merge input recorded debt =>
          some (s, deps.afterMerge input recorded debt sha alreadyMerged, {})
      | _ => none
  | .issue answer =>
      match phase with
      | .issue operation joined =>
          some (s, deps.afterIssue call.tenant operation joined answer, {})
      | .sweepIssue operation rest sweep =>
          some (s, deps.afterSweepIssue operation rest sweep answer, {})
      | _ => none
  | .due ids =>
      match phase with
      | .due =>
          let due := registeredOlderThan s ids
          some (s, sweepNext { examined := due.length } due, {})
      | _ => none

end calls

/-- Where a call begins; the watch asks the store only about an issue that is done. -/
def Call.begins : Call → Phase
  | .settle _ id closedBy => .get id closedBy
  | .adopt _ | .merge _ => .forCampaign
  | .handle _ _ status _ => if status = "done" then .forIssue else .done .handled
  | .sweep => .due

structure State where
  store : CampaignStore
  calls : List (Call × Phase) := []

def start : State where
  store := .empty

inductive Event where
  | create (record : EvolutionCampaignRecord)
  | reserveEvaluation (input : ReserveCampaignEvaluation)
  | appendRound (tenant id : String) (round : CampaignRound) (expectedRounds : Nat)
  | call (call : Call)
  | goes (i : Nat) (answer : Answer)

/-- The events of the store that belong to no call. -/
def Deps.besides (deps : Deps) (s : CampaignStore) : Event → Option (CampaignStore × Report)
  | .create record =>
      match create s record [.opened record.id] with
      | .error _ => some (s, {})
      | .ok t => some (t, { facts := [.opened record.id] })
  | .reserveEvaluation input =>
      match reserveEvaluation deps.policyDigest deps.requestDigestOf s input with
      | .error _ => some (s, {})
      | .ok (t, _) => some (t, {})
  | .appendRound tenant id round expectedRounds =>
      some ((appendRound s tenant id round expectedRounds []).1, {})
  | .call _ | .goes .. => none

def machine (deps : Deps) : Machine State Event Report := fun s e =>
  match e with
  | .call call => some ({ s with calls := s.calls ++ [(call, call.begins)] }, {})
  | .goes i answer =>
      match s.calls[i]? with
      | none => none
      | some (call, phase) =>
          match deps.advance s.store call phase answer with
          | none => none
          | some (store, next, report) =>
              some ({ store, calls := s.calls.set i (call, next) }, report)
  | e => (deps.besides s.store e).map fun done => ({ s with store := done.1 }, done.2)

end Everdict.Adoption
