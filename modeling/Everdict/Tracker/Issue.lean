import Everdict.Text
import Mathlib.Data.List.DropRight

/-!
# The issue aggregate

An issue is moved by transitions: each is legal or refused in the record's present state, and
answers a patch of the record together with the facts of the move.  The board status and the
work chain are two axes.  What the aggregate asks of the language beyond its texts (the instant
a date writes, lower case) is a `Runtime`.
-/

namespace Everdict.Tracker

/-! ## The record -/

inductive IssueStatus where
  | backlog
  | todo
  | in_progress
  | in_review
  | done
  | cancelled
  | regressed
  deriving DecidableEq

def IssueStatus.text : IssueStatus → String
  | .backlog => "backlog"
  | .todo => "todo"
  | .in_progress => "in_progress"
  | .in_review => "in_review"
  | .done => "done"
  | .cancelled => "cancelled"
  | .regressed => "regressed"

inductive IssueStatusCategory where
  | backlog
  | unstarted
  | started
  | completed
  | canceled
  deriving DecidableEq

def ISSUE_STATUS_CATEGORY : IssueStatus → IssueStatusCategory
  | .backlog => .backlog
  | .todo => .unstarted
  | .in_progress | .in_review | .regressed => .started
  | .done => .completed
  | .cancelled => .canceled

def isOpenIssueStatus (status : IssueStatus) : Bool :=
  ISSUE_STATUS_CATEGORY status ≠ .completed ∧ ISSUE_STATUS_CATEGORY status ≠ .canceled

def isTerminal (status : IssueStatus) : Bool := !isOpenIssueStatus status

inductive IssuePriority where
  | none
  | urgent
  | high
  | medium
  | low
  deriving DecidableEq

inductive IssueLinkType where
  | harness
  | dataset
  | judge
  | scorecard
  | run
  | view
  | issue
  | product
  | release
  | case
  | commit
  deriving DecidableEq

def IssueLinkType.text : IssueLinkType → String
  | .harness => "harness"
  | .dataset => "dataset"
  | .judge => "judge"
  | .scorecard => "scorecard"
  | .run => "run"
  | .view => "view"
  | .issue => "issue"
  | .product => "product"
  | .release => "release"
  | .case => "case"
  | .commit => "commit"

structure IssueLink where
  type : IssueLinkType
  id : String
  version : Option String := none
  dataset : Option String := none
  repository : Option String := none
  host : Option String := none
  committedAt : Option String := none
  note : Option String := none
  addedBy : String
  addedAt : String
  deriving DecidableEq

inductive IssueDesign where
  | spec (path : String)
  | declined (why : String)
  deriving DecidableEq

inductive IssueChain where
  | draft
  | accepted (at' by' : String) (design : IssueDesign)
  | rejected (at' by' reason : String)
  | shipped (at' by' : String)
  deriving DecidableEq

/-- `IssueChain["state"]` -/
inductive IssueChainState where
  | draft
  | accepted
  | rejected
  | shipped
  deriving DecidableEq

def IssueChain.state : IssueChain → IssueChainState
  | .draft => .draft
  | .accepted .. => .accepted
  | .rejected .. => .rejected
  | .shipped .. => .shipped

def IssueChainState.text : IssueChainState → String
  | .draft => "draft"
  | .accepted => "accepted"
  | .rejected => "rejected"
  | .shipped => "shipped"

structure IssueResolution where
  scorecardId : Option String := none
  note : Option String := none
  by' : String
  at' : String
  deriving DecidableEq

inductive RemoteState where
  | isOpen
  | closed
  deriving DecidableEq

structure IssueGithubComment where
  author : String
  body : String
  createdAt : String
  url : String
  deriving DecidableEq

structure IssueGithubSync where
  pull : Bool
  push : Bool
  deriving DecidableEq

inductive SyncOp where
  | pull
  | push
  deriving DecidableEq

structure IssueGithubError where
  at' : String
  op : SyncOp
  message : String
  deriving DecidableEq

structure IssueGithub where
  host : Option String := none
  repository : String
  number : Nat
  url : String
  state : RemoteState
  syncedAt : Option String := none
  sync : IssueGithubSync
  comments : List IssueGithubComment := []
  lastError : Option IssueGithubError := none
  deriving DecidableEq

def ISSUE_GITHUB_COMMENT_LIMIT : Nat := 50

inductive IssueStatusCause where
  | manual
  | github_sync
  | regression
  deriving DecidableEq

/-- The address of a GitHub issue, as `githubOrigin` gives it. -/
structure GithubOrigin where
  repository : String
  number : Nat
  url : String
  host : Option String := none
  deriving DecidableEq

def githubOrigin (github : IssueGithub) : GithubOrigin :=
  { repository := github.repository, number := github.number, url := github.url
    host := github.host }

inductive TrackerHistoryEvent where
  | created
  | updated
  | status_changed
  | resolved
  | reopened
  | linked
  | unlinked
  | github_imported
  | github_pulled
  | github_pushed
  | github_push_failed
  deriving DecidableEq

/-- The details the aggregate writes into its history, one constructor for each shape. -/
inductive HistoryDetail where
  | born (status : IssueStatus) (origin : Option GithubOrigin)
  | changed (changed : List String)
  | chain (changed : List String) (chain : IssueChainState)
  | status (source target : IssueStatus) (cause : IssueStatusCause)
      (scorecardId note : Option String)
  | linked (type : IssueLinkType) (id : String) (version dataset repository : Option String)
  | unlinked (type : IssueLinkType) (id : String) (repository : Option String)
  | attached (changed : List String) (attached : String) (origin : GithubOrigin)
  | detached (changed : List String) (detached : String) (origin : GithubOrigin)
  | pulled (changed : List String) (remoteState : RemoteState) (remoteUpdatedAt : String)
      (commentsUnavailable : Bool)
  | pushed (state : RemoteState)
  | pushFailed (message : String)
  deriving DecidableEq

structure TrackerHistoryEntry where
  at' : String
  by' : String
  event : TrackerHistoryEvent
  detail : HistoryDetail
  deriving DecidableEq

def TRACKER_HISTORY_LIMIT : Nat := 200

def appendHistory (history : List TrackerHistoryEntry) (entry : TrackerHistoryEntry) :
    List TrackerHistoryEntry :=
  let next := history ++ [entry]
  if TRACKER_HISTORY_LIMIT < next.length then next.drop (next.length - TRACKER_HISTORY_LIMIT)
  else next

structure IssueOrigin where
  agentId : Option String := none
  conversationId : Option String := none
  deriving DecidableEq

structure IssueRecord where
  id : String
  tenant : String
  number : Nat
  identifier : String
  formerIdentifiers : List String := []
  title : String
  description : Option String := none
  status : IssueStatus
  chain : Option IssueChain := none
  priority : IssuePriority := .none
  estimate : Option Nat := none
  dueDate : Option String := none
  parentId : Option String := none
  milestoneId : Option String := none
  stateId : Option String := none
  projectId : Option String := none
  assignee : Option String := none
  labelIds : List String := []
  links : List IssueLink := []
  resolution : Option IssueResolution := none
  github : Option IssueGithub := none
  history : List TrackerHistoryEntry := []
  createdBy : String
  origin : Option IssueOrigin := none
  createdAt : String
  updatedAt : String
  deriving DecidableEq

/-! ## Links -/

/-- What the aggregate asks of the language: the instant a text writes (none where
`Date.parse` answers NaN) and a text in lower case, whose ASCII part is settled. -/
structure Runtime where
  dateParse : String → Option ℤ
  toLowerCase : String → String
  ascii : ∀ s, (∀ c ∈ s.toList, c.toNat < 128) →
    toLowerCase s = String.ofList (s.toList.map Char.toLower)

variable (rt : Runtime)

/-- `/^[0-9a-f]{7,64}$/` -/
def isCommitSha (id : String) : Bool :=
  7 ≤ id.toList.length && id.toList.length ≤ 64 &&
    id.toList.all fun c => c.isDigit || 'a' ≤ c && c ≤ 'f'

/-- `/^[^/\s]+\/[^/\s]+$/` -/
def isOwnerName (repository : String) : Bool :=
  let parts := repository.toList.splitOn '/'
  parts.length = 2 && parts.all fun part => part ≠ [] && part.all fun c => !Text.isSpace c

def normaliseIssueLinkId (type : IssueLinkType) (id : String) : String :=
  if type = .commit then rt.toLowerCase (Text.trim id) else id

/-- A link as a caller spells it. -/
structure NewIssueLinkInput where
  type : IssueLinkType
  id : String
  version : Option String := none
  dataset : Option String := none
  repository : Option String := none
  host : Option String := none
  committedAt : Option String := none
  note : Option String := none
  deriving DecidableEq

def NewIssueLinkInput.ofLink (link : IssueLink) : NewIssueLinkInput :=
  { type := link.type, id := link.id, version := link.version, dataset := link.dataset
    repository := link.repository, host := link.host, committedAt := link.committedAt
    note := link.note }

/-- `defects.push(message)` where the condition holds. -/
def defectIf (condition : Bool) (message : String) : List String :=
  if condition then [message] else []

def belongsTo (field owners : String) (type : IssueLinkType) : String :=
  "`" ++ field ++ "` belongs to " ++ owners ++ " links only (this link is a " ++ type.text ++ ")"

/-- The defects of a commit link's coordinates. -/
def commitDefects (link : NewIssueLinkInput) : List String :=
  (match link.repository with
    | none =>
        ["a commit link names its repository (`repository`, \"owner/name\") — a sha alone " ++
          "has no address"]
    | some repository =>
        defectIf (!isOwnerName repository)
          ("`repository` is written \"owner/name\" (got \"" ++ repository ++ "\")")) ++
  defectIf (!isCommitSha (normaliseIssueLinkId rt .commit link.id))
    "a commit link's id is the sha — hex, 7 to 64 characters" ++
  defectIf link.version.isSome
    "a commit link carries no `version` — the sha IS the version" ++
  (match link.committedAt with
    | none => []
    | some committedAt =>
        defectIf (rt.dateParse committedAt).isNone
          ("`committedAt` is the commit's author date as an ISO timestamp (got \"" ++
            committedAt ++ "\")"))

def issueLinkDefects (link : NewIssueLinkInput) : List String :=
  (if link.type = .case then
    defectIf link.dataset.isNone
      "a case link names its dataset (`dataset`) — a case id alone has no address" ++
    defectIf link.version.isNone
      ("a case link pins the dataset version (`version`) — a campaign derived from the issue " ++
        "freezes exactly that exam")
  else defectIf link.dataset.isSome (belongsTo "dataset" "case" link.type)) ++
  (if link.type = .commit then commitDefects rt link
  else
    defectIf link.repository.isSome (belongsTo "repository" "commit" link.type) ++
    defectIf link.host.isSome (belongsTo "host" "commit" link.type) ++
    defectIf link.committedAt.isSome (belongsTo "committedAt" "commit" link.type))

def sameIssueLink (a b : NewIssueLinkInput) : Bool :=
  a.type = b.type ∧
    normaliseIssueLinkId rt a.type a.id = normaliseIssueLinkId rt b.type b.id ∧
    a.dataset = b.dataset ∧ a.repository = b.repository

/-! ## Facts and refusals -/

inductive FactPayload where
  | created (status : IssueStatus) (source identifier title : String)
      (projectId : Option String) (origin : Option GithubOrigin)
  | statusChanged (source target : IssueStatus) (cause : IssueStatusCause)
      (identifier title : String) (projectId scorecardId : Option String)
  | linked (linkType : IssueLinkType) (linkId identifier title : String) (version : Option String)
  deriving DecidableEq

structure DomainFact where
  kind : String
  subject : String
  actor : String
  payload : FactPayload
  deriving DecidableEq

structure IssueError where
  code : String
  data : List (String × String)
  message : String
  deriving DecidableEq

/-- `Partial<IssueRecord>`, the fields transitions write.  The inner option is what is written
to a field that can be absent. -/
structure IssuePatch where
  title : Option String := none
  description : Option (Option String) := none
  status : Option IssueStatus := none
  chain : Option IssueChain := none
  priority : Option IssuePriority := none
  estimate : Option (Option Nat) := none
  dueDate : Option (Option String) := none
  parentId : Option (Option String) := none
  milestoneId : Option (Option String) := none
  stateId : Option String := none
  projectId : Option (Option String) := none
  assignee : Option (Option String) := none
  labelIds : Option (List String) := none
  links : Option (List IssueLink) := none
  resolution : Option IssueResolution := none
  github : Option (Option IssueGithub) := none
  history : Option (List TrackerHistoryEntry) := none
  updatedAt : Option String := none
  deriving DecidableEq

/-- `{ ...current, ...patch, id: current.id, tenant: current.tenant }` -/
def IssuePatch.apply (patch : IssuePatch) (current : IssueRecord) : IssueRecord :=
  { current with
    title := patch.title.getD current.title
    description := patch.description.getD current.description
    status := patch.status.getD current.status
    chain := patch.chain.or current.chain
    priority := patch.priority.getD current.priority
    estimate := patch.estimate.getD current.estimate
    dueDate := patch.dueDate.getD current.dueDate
    parentId := patch.parentId.getD current.parentId
    milestoneId := patch.milestoneId.getD current.milestoneId
    stateId := patch.stateId.or current.stateId
    projectId := patch.projectId.getD current.projectId
    assignee := patch.assignee.getD current.assignee
    labelIds := patch.labelIds.getD current.labelIds
    links := patch.links.getD current.links
    resolution := patch.resolution.or current.resolution
    github := patch.github.getD current.github
    history := patch.history.getD current.history
    updatedAt := patch.updatedAt.getD current.updatedAt }

section

variable (patch : IssuePatch) (current : IssueRecord)

@[simp] theorem IssuePatch.apply_status :
    (patch.apply current).status = patch.status.getD current.status := rfl

@[simp] theorem IssuePatch.apply_chain :
    (patch.apply current).chain = patch.chain.or current.chain := rfl

@[simp] theorem IssuePatch.apply_links :
    (patch.apply current).links = patch.links.getD current.links := rfl

@[simp] theorem IssuePatch.apply_resolution :
    (patch.apply current).resolution = patch.resolution.or current.resolution := rfl

@[simp] theorem IssuePatch.apply_history :
    (patch.apply current).history = patch.history.getD current.history := rfl

end

structure IssueTransition where
  patch : IssuePatch
  facts : List DomainFact
  deriving DecidableEq

/-! ## Birth -/

structure NewIssueInput where
  id : String
  tenant : String
  number : Nat
  identifier : String
  title : String
  description : Option String := none
  status : Option IssueStatus := none
  priority : Option IssuePriority := none
  estimate : Option Nat := none
  dueDate : Option String := none
  parentId : Option String := none
  milestoneId : Option String := none
  stateId : Option String := none
  projectId : Option String := none
  assignee : Option String := none
  labelIds : Option (List String) := none
  links : Option (List NewIssueLinkInput) := none
  resolution : Option IssueResolution := none
  github : Option IssueGithub := none
  createdBy : String
  origin : Option IssueOrigin := none
  now : String
  deriving DecidableEq

/-- A link at birth: of its coordinates only the type, the id and the version are kept. -/
def NewIssueInput.bornLink (input : NewIssueInput) (link : NewIssueLinkInput) : IssueLink :=
  { type := link.type, id := link.id, version := link.version, note := link.note
    addedBy := input.createdBy, addedAt := input.now }

def newIssue (input : NewIssueInput) : IssueRecord :=
  let status := input.status.getD .backlog
  { id := input.id
    tenant := input.tenant
    number := input.number
    identifier := input.identifier
    title := input.title
    description := input.description
    status
    priority := input.priority.getD .none
    estimate := input.estimate
    dueDate := input.dueDate
    parentId := input.parentId
    milestoneId := input.milestoneId
    stateId := input.stateId
    projectId := input.projectId
    assignee := input.assignee
    labelIds := input.labelIds.getD []
    links := (input.links.getD []).map input.bornLink
    resolution := input.resolution
    github := input.github
    history :=
      [{ at' := input.now
         by' := input.createdBy
         event := if input.github.isSome then .github_imported else .created
         detail := .born status (input.github.map githubOrigin) }]
    createdBy := input.createdBy
    origin := input.origin
    createdAt := input.now
    updatedAt := input.now }

/-! ## Content -/

/-- The inner `none` is the edit's `null`. -/
structure IssueEditInput where
  title : Option String := none
  description : Option (Option String) := none
  labelIds : Option (List String) := none
  assignee : Option (Option String) := none
  projectId : Option (Option String) := none
  priority : Option IssuePriority := none
  estimate : Option (Option Nat) := none
  dueDate : Option (Option String) := none
  parentId : Option (Option String) := none
  milestoneId : Option (Option String) := none
  deriving DecidableEq

/-- What an edit writes to a field: the stated value, where it is another one. -/
def edited {α : Type} [DecidableEq α] (stated : Option α) (current : α) : Option α :=
  stated.filter (· ≠ current)

/-- The name of a field in the list of changes, if it is written. -/
def named {α : Type} (name : String) (written : Option α) : List String :=
  if written.isSome then [name] else []

/-- A move to another project leaves the old project's milestone behind. -/
def milestoneLeft (record : IssueRecord) (fields : IssueEditInput) : Option (Option String) :=
  if (edited fields.projectId record.projectId).isSome ∧ fields.milestoneId = none ∧
      record.milestoneId ≠ none then
    some none
  else none

def update (record : IssueRecord) (fields : IssueEditInput) (by' now : String) :
    Except IssueError IssueTransition :=
  let title := edited fields.title record.title
  let description := edited fields.description record.description
  let assignee := edited fields.assignee record.assignee
  let projectId := edited fields.projectId record.projectId
  let leftMilestone := milestoneLeft record fields
  let priority := edited fields.priority record.priority
  let estimate := edited fields.estimate record.estimate
  let dueDate := edited fields.dueDate record.dueDate
  let milestoneId := edited fields.milestoneId record.milestoneId
  let parentId := edited fields.parentId record.parentId
  let changed := named "title" title ++ named "description" description ++
    named "labels" fields.labelIds ++ named "assignee" assignee ++
    named "project" projectId ++ named "milestone" leftMilestone ++
    named "priority" priority ++ named "estimate" estimate ++ named "dueDate" dueDate ++
    named "milestone" milestoneId ++ named "parent" parentId
  if fields.parentId = some (some record.id) then
    .error ⟨"BAD_REQUEST", [("issue", record.id)], "An issue cannot be its own parent."⟩
  else if changed = [] then
    .error ⟨"BAD_REQUEST", [("issue", record.id)], "Nothing to update."⟩
  else
    .ok
      { patch :=
          { title, description, assignee, projectId, priority, estimate, dueDate, parentId
            labelIds := fields.labelIds
            milestoneId := milestoneId <|> leftMilestone
            history := some (appendHistory record.history
              { at' := now, by', event := .updated, detail := .changed changed })
            updatedAt := some now }
        facts := [] }

/-! ## The work chain -/

def chainText (chain : Option IssueChain) : String :=
  (chain.map fun chain => chain.state.text).getD "none"

def chainConflict (record : IssueRecord) (message : String) : IssueError :=
  ⟨"CONFLICT", [("issue", record.id), ("chain", chainText record.chain)], message⟩

def chainTransition (record : IssueRecord) (chain : IssueChain) (by' now : String) :
    IssueTransition :=
  { patch :=
      { chain := some chain
        history := some (appendHistory record.history
          { at' := now, by', event := .updated, detail := .chain ["chain"] chain.state })
        updatedAt := some now }
    facts := [] }

def accept (record : IssueRecord) (design : IssueDesign) (by' now : String) :
    Except IssueError IssueTransition :=
  match record.chain with
  | none | some .draft => .ok (chainTransition record (.accepted now by' design) by' now)
  | some (.accepted ..) =>
      .error (chainConflict record
        ("This request is already accepted — an acceptance is not re-taken, and re-dating it " ++
          "would re-date every commit that claims it."))
  | some chain =>
      .error (chainConflict record
        ("This request is " ++ chain.state.text ++ " — move it back to draft before accepting " ++
          "it, so the reversal is on the record."))

def reject (record : IssueRecord) (reason by' now : String) : Except IssueError IssueTransition :=
  match record.chain with
  | some (.shipped ..) =>
      .error (chainConflict record
        ("This request shipped — it cannot be rejected afterwards; record what went wrong as " ++
          "a new request."))
  | some (.rejected ..) => .error (chainConflict record "This request is already rejected.")
  | none | some .draft | some (.accepted ..) =>
      .ok (chainTransition record (.rejected now by' reason) by' now)

def ship (record : IssueRecord) (by' now : String) : Except IssueError IssueTransition :=
  match record.chain with
  | some (.accepted ..) => .ok (chainTransition record (.shipped now by') by' now)
  | none =>
      .error (chainConflict record
        ("This request predates the work chain and has never been accepted — accept it first, " ++
          "and its acceptance will be dated now rather than backwards."))
  | some chain =>
      .error (chainConflict record
        ("This request is " ++ chain.state.text ++ " — only an accepted request ships, because " ++
          "'shipped' is what an acceptance leads to."))

def redraft (record : IssueRecord) (by' now : String) : Except IssueError IssueTransition :=
  match record.chain with
  | none | some .draft =>
      .error (chainConflict record
        "This request is not in a chain state that can be redrafted.")
  | some (.shipped ..) =>
      .error (chainConflict record
        "This request shipped — its chain is history, not a draft.")
  | some (.accepted ..) | some (.rejected ..) =>
      .ok (chainTransition record .draft by' now)

/-! ## The board status -/

structure IssueStatusChangeOptions where
  cause : Option IssueStatusCause := none
  stateId : Option String := none
  scorecardId : Option String := none
  note : Option String := none
  deriving DecidableEq

structure IssueReopenInput where
  to' : Option IssueStatus := none
  cause : IssueStatusCause
  scorecardId : Option String := none
  note : Option String := none
  deriving DecidableEq

def statusTransition (record : IssueRecord) (to' : IssueStatus) (by' now : String)
    (options : IssueStatusChangeOptions) (event : TrackerHistoryEvent) : IssueTransition :=
  let cause := options.cause.getD .manual
  { patch :=
      { status := some to'
        stateId := options.stateId
        history := some (appendHistory record.history
          { at' := now, by', event
            detail := .status record.status to' cause options.scorecardId options.note })
        updatedAt := some now }
    facts :=
      [{ kind := "issue.status_changed"
         subject := record.id
         actor := by'
         payload := .statusChanged record.status to' cause record.identifier record.title
           record.projectId options.scorecardId }] }

def statusConflict (record : IssueRecord) (message : String) : IssueError :=
  ⟨"CONFLICT", [("issue", record.id), ("status", record.status.text)], message⟩

def setStatus (record : IssueRecord) (to' : IssueStatus) (by' now : String)
    (options : IssueStatusChangeOptions) : Except IssueError IssueTransition :=
  if to' = .done then
    .error ⟨"BAD_REQUEST", [("issue", record.id)],
      "Closing an issue records how it was evaluated — resolve it instead of setting the " ++
        "status directly."⟩
  else if to' = .regressed then
    .error ⟨"BAD_REQUEST", [("issue", record.id)],
      "An issue can only regress from a resolution — reopen a done issue as regressed instead."⟩
  else if to' = record.status then
    .error (statusConflict record ("Issue is already " ++ record.status.text ++ "."))
  else if isTerminal record.status then
    .error (statusConflict record
      ("Issue is " ++ record.status.text ++ " — reopen it before moving it."))
  else .ok (statusTransition record to' by' now options .status_changed)

def resolve (record : IssueRecord) (scorecardId note : Option String) (by' now : String)
    (cause : IssueStatusCause) : Except IssueError IssueTransition :=
  if !isOpenIssueStatus record.status then
    .error (statusConflict record ("Issue is already " ++ record.status.text ++ "."))
  else
    let settled : IssueResolution := { scorecardId, note, by', at' := now }
    let transition := statusTransition record .done by' now
      { cause := some cause, scorecardId } .resolved
    .ok { transition with patch := { transition.patch with resolution := some settled } }

def reopen (record : IssueRecord) (input : IssueReopenInput) (by' now : String) :
    Except IssueError IssueTransition :=
  let to' := input.to'.getD .todo
  if !isTerminal record.status then
    .error (statusConflict record
      ("Issue is " ++ record.status.text ++ " — only a done or cancelled issue can be reopened."))
  else if !isOpenIssueStatus to' then
    .error ⟨"BAD_REQUEST", [("issue", record.id), ("status", to'.text)],
      "Reopen requires an open status."⟩
  else if to' = .regressed ∧ record.status ≠ .done then
    .error (statusConflict record "Only a resolved issue can regress.")
  else
    .ok (statusTransition record to' by' now
      { cause := some input.cause, scorecardId := input.scorecardId, note := input.note }
      .reopened)

/-! ## Linking -/

/-- The order witness: why a commit link may not claim the issue, if it may not. -/
def witnessRefusal (record : IssueRecord) (input : NewIssueLinkInput) : Option IssueError :=
  if input.type ≠ .commit then none
  else
    match record.chain with
    | none => none
    | some chain =>
        if chain.state = .draft ∨ chain.state = .rejected then
          some (chainConflict record
            ("This request is " ++ chain.state.text ++ " — code cannot claim a request nobody " ++
              "accepted. Accept it first, and the acceptance will be dated before this link " ++
              "rather than after it."))
        else
          match input.committedAt with
          | none =>
              some ⟨"BAD_REQUEST", [("issue", record.id), ("id", input.id)],
                "A commit link on a request in the chain names the commit's author date " ++
                  "(`committedAt`) — without it nothing witnesses that the decision came " ++
                  "first, and `addedAt` cannot: it is when you made the link."⟩
          | some committedAt =>
              match chain with
              | .accepted acceptedAt _ _ =>
                  match rt.dateParse committedAt, rt.dateParse acceptedAt with
                  | some authored, some decided =>
                      if authored < decided then
                        some ⟨"CONFLICT",
                          [("issue", record.id), ("committedAt", committedAt),
                            ("acceptedAt", acceptedAt)],
                          "This commit was authored at " ++ committedAt ++ ", before the " ++
                            "request was accepted at " ++ acceptedAt ++ " — a decision that " ++
                            "followed the diff is a description that agrees with itself, not " ++
                            "a decision."⟩
                      else none
                  -- A comparison with NaN is false.
                  | _, _ => none
              | _ => none

/-- The link a spelling is stored as. -/
def storedLink (input : NewIssueLinkInput) (by' now : String) : IssueLink :=
  { type := input.type, id := normaliseIssueLinkId rt input.type input.id
    version := input.version, dataset := input.dataset, repository := input.repository
    host := input.host, committedAt := input.committedAt, note := input.note
    addedBy := by', addedAt := now }

def link (record : IssueRecord) (input : NewIssueLinkInput) (by' now : String) :
    Except IssueError IssueTransition :=
  let defects := issueLinkDefects rt input
  if defects ≠ [] then
    .error ⟨"BAD_REQUEST",
      [("issue", record.id), ("type", input.type.text), ("id", input.id)],
      "; ".intercalate defects⟩
  else
    match witnessRefusal rt record input with
    | some refusal => .error refusal
    | none =>
        let id := normaliseIssueLinkId rt input.type input.id
        if record.links.any fun existing =>
            sameIssueLink rt (.ofLink existing) { input with id } then
          .error ⟨"CONFLICT", [("issue", record.id), ("type", input.type.text), ("id", id)],
            input.type.text ++ " " ++ id ++ " is already linked to this issue."⟩
        else
          let link := storedLink rt input by' now
          .ok
            { patch :=
                { links := some (record.links ++ [link])
                  history := some (appendHistory record.history
                    { at' := now, by', event := .linked
                      detail := .linked link.type link.id link.version link.dataset
                        link.repository })
                  updatedAt := some now }
              facts :=
                [{ kind := "issue.linked"
                   subject := record.id
                   actor := by'
                   payload := .linked link.type link.id record.identifier record.title
                     link.version }] }

/-- What narrows an `unlink` to one link. -/
structure UnlinkWhere where
  dataset : Option String := none
  repository : Option String := none
  deriving DecidableEq

def unlinkMatches (type : IssueLinkType) (id : String) (where' : UnlinkWhere)
    (link : IssueLink) : Bool :=
  link.type = type ∧
    normaliseIssueLinkId rt link.type link.id = normaliseIssueLinkId rt type id ∧
    (where'.dataset = none ∨ link.dataset = where'.dataset) ∧
    (where'.repository = none ∨ link.repository = where'.repository)

def unlink (record : IssueRecord) (type : IssueLinkType) (id : String) (where' : UnlinkWhere)
    (by' now : String) : Except IssueError IssueTransition :=
  let wanted := normaliseIssueLinkId rt type id
  let remaining := record.links.filter fun link => !unlinkMatches rt type id where' link
  if remaining.length = record.links.length then
    .error ⟨"NOT_FOUND", [("issue", record.id), ("type", type.text), ("id", wanted)],
      type.text ++ " " ++ wanted ++ " is not linked to this issue."⟩
  else
    .ok
      { patch :=
          { links := some remaining
            history := some (appendHistory record.history
              { at' := now, by', event := .unlinked
                detail := .unlinked type wanted where'.repository })
            updatedAt := some now }
        facts := [] }

/-! ## The GitHub copy -/

def requireGithub (record : IssueRecord) : Except IssueError IssueGithub :=
  match record.github with
  | some github => .ok github
  | none =>
      .error ⟨"BAD_REQUEST", [("issue", record.id)],
        "This issue is not linked to a GitHub issue."⟩

/-- `${repository}#${number}` -/
def githubName (github : IssueGithub) : String :=
  github.repository ++ "#" ++ toString github.number

def setGithubSync (record : IssueRecord) (sync : IssueGithubSync) (now : String) :
    Except IssueError IssueTransition := do
  let github ← requireGithub record
  return { patch := { github := some (some { github with sync }), updatedAt := some now }
           facts := [] }

def attachGithub (record : IssueRecord) (github : IssueGithub) (by' now : String) :
    Except IssueError IssueTransition :=
  match record.github with
  | some linked =>
      .error ⟨"CONFLICT", [("issue", record.id), ("linked", githubName linked)],
        "This issue is already linked to a GitHub issue. Detach it before linking another."⟩
  | none =>
      .ok
        { patch :=
            { github := some (some github)
              history := some (appendHistory record.history
                { at' := now, by', event := .updated
                  detail := .attached ["github"] (githubName github) (githubOrigin github) })
              updatedAt := some now }
          facts := [] }

def detachGithub (record : IssueRecord) (by' now : String) :
    Except IssueError IssueTransition := do
  let github ← requireGithub record
  .ok
    { patch :=
        { github := some none
          history := some (appendHistory record.history
            { at' := now, by', event := .updated
              detail := .detached ["github"] (githubName github) (githubOrigin github) })
          updatedAt := some now }
      facts := [] }

/-- What a pull read.  No comments: the thread could not be read. -/
structure RemoteIssue where
  title : String
  description : Option String := none
  labelIds : List String
  state : RemoteState
  url : String
  updatedAt : String
  comments : Option (List IssueGithubComment)
  deriving DecidableEq

def applyGithubPull (record : IssueRecord) (remote : RemoteIssue) (by' now : String) :
    Except IssueError IssueTransition := do
  let github ← requireGithub record
  let changed := defectIf (remote.title ≠ record.title) "title" ++
    defectIf (remote.description ≠ record.description) "description" ++
    defectIf ("\x00".intercalate remote.labelIds ≠ "\x00".intercalate record.labelIds)
      "labels" ++
    defectIf (remote.state ≠ github.state) "state"
  let nextGithub : IssueGithub :=
    { github with
      lastError := none
      url := remote.url
      state := remote.state
      syncedAt := some remote.updatedAt
      comments :=
        match remote.comments with
        | none => github.comments
        | some comments => comments.rtake ISSUE_GITHUB_COMMENT_LIMIT }
  .ok
    { patch :=
        { title := some remote.title
          description := some remote.description
          labelIds := some remote.labelIds
          github := some (some nextGithub)
          history := some (appendHistory record.history
            { at' := now, by', event := .github_pulled
              detail := .pulled changed remote.state remote.updatedAt remote.comments.isNone })
          updatedAt := some now }
      facts := [] }

inductive PushOutcome where
  | ok (state : RemoteState)
  | failed (message : String)
  deriving DecidableEq

def recordGithubPush (record : IssueRecord) (outcome : PushOutcome) (by' now : String) :
    Except IssueError IssueTransition := do
  let github ← requireGithub record
  match outcome with
  | .ok state =>
      .ok
        { patch :=
            { github := some (some { github with lastError := none, state })
              history := some (appendHistory record.history
                { at' := now, by', event := .github_pushed, detail := .pushed state })
              updatedAt := some now }
          facts := [] }
  | .failed message =>
      .ok
        { patch :=
            { github := some (some
                { github with lastError := some { at' := now, op := .push, message } })
              history := some (appendHistory record.history
                { at' := now, by', event := .github_push_failed
                  detail := .pushFailed message })
              updatedAt := some now }
          facts := [] }

def recordGithubPullFailure (record : IssueRecord) (message now : String) :
    Except IssueError IssueTransition := do
  let github ← requireGithub record
  .ok
    { patch :=
        { github := some (some
            { github with lastError := some { at' := now, op := .pull, message } })
          updatedAt := some now }
      facts := [] }

end Everdict.Tracker
