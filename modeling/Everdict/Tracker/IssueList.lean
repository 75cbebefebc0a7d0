import Everdict.ArraySort
import Everdict.Table
import Everdict.Tracker.Issue

/-!
# The issue list

The list of a workspace is filtered, ordered, cut into pages and counted by group.  A page ends
with an opaque token of the position of its last row; the next page is what comes after that
position in the same order.  The ledger in memory keeps its records by id.
-/

namespace Everdict.Tracker

open Double (Number)

/-! ## Grouping and ordering -/

def ISSUE_PRIORITIES : List IssuePriority := [.none, .urgent, .high, .medium, .low]

def IssuePriority.text : IssuePriority → String
  | .none => "none"
  | .urgent => "urgent"
  | .high => "high"
  | .medium => "medium"
  | .low => "low"

def issuePriorityRank : IssuePriority → Nat
  | .urgent => 0
  | .high => 1
  | .medium => 2
  | .low => 3
  | .none => 4

structure IssueSummaryGithub where
  host : Option String := none
  repository : String
  pull : Bool
  deriving DecidableEq

structure IssueSummary where
  id : String
  tenant : String
  number : Nat
  identifier : String
  title : String
  status : IssueStatus
  priority : IssuePriority := .none
  estimate : Option Nat := none
  dueDate : Option String := none
  parentId : Option String := none
  milestoneId : Option String := none
  stateId : Option String := none
  projectId : Option String := none
  assignee : Option String := none
  labelIds : List String := []
  linkCount : Nat
  resolution : Option IssueResolution := none
  github : Option IssueSummaryGithub := none
  createdBy : String
  createdAt : String
  updatedAt : String
  deriving DecidableEq

def issueSummaryOf (record : IssueRecord) : IssueSummary :=
  { id := record.id
    tenant := record.tenant
    number := record.number
    identifier := record.identifier
    title := record.title
    status := record.status
    priority := record.priority
    estimate := record.estimate
    dueDate := record.dueDate
    parentId := record.parentId
    milestoneId := record.milestoneId
    stateId := record.stateId
    projectId := record.projectId
    assignee := record.assignee
    labelIds := record.labelIds
    linkCount := record.links.length
    resolution := record.resolution
    github := record.github.map fun github =>
      { host := github.host, repository := github.repository, pull := github.sync.pull }
    createdBy := record.createdBy
    createdAt := record.createdAt
    updatedAt := record.updatedAt }

inductive IssueGroupBy where
  | status
  | assignee
  | priority
  | project
  | chain
  deriving DecidableEq

/-- The group of a record; none is the unset bucket. -/
def issueGroupKey (record : IssueRecord) : IssueGroupBy → Option String
  | .status => some record.status.text
  | .priority => some record.priority.text
  | .assignee => record.assignee
  | .project => record.projectId
  | .chain => record.chain.map fun chain => chain.state.text

structure IssueGroupCount where
  key : Option String
  count : Nat
  deriving DecidableEq

/-- What the list asks of the reader's locale. -/
structure Locale where
  toLocaleLowerCase : String → String
  localeCompare : String → String → ℤ

/-- Largest first, ties by key, the unset bucket last. -/
def compareGroupCounts (locale : Locale) (a b : IssueGroupCount) : ℤ :=
  match a.key, b.key with
  | none, none => 0
  | none, some _ => 1
  | some _, none => -1
  | some key, some key' =>
      if b.count = a.count then locale.localeCompare key key' else (b.count : ℤ) - a.count

def orderIssueGroupCounts (sort : ArraySort IssueGroupCount) (locale : Locale)
    (counts : List IssueGroupCount) : List IssueGroupCount :=
  sort.run (fun a b => .finite (compareGroupCounts locale a b)) counts

/-- The key of a group in the map that counts. -/
def groupSlot : Option String → String
  | none => "unset:"
  | some key => "key:" ++ key

/-- The entry of a group with one more record. -/
def countRecord (groupBy : IssueGroupBy) (entry : Option IssueGroupCount) (record : IssueRecord) :
    IssueGroupCount :=
  let entry := entry.getD { key := issueGroupKey record groupBy, count := 0 }
  { entry with count := entry.count + 1 }

def issueCountsByGroup (sort : ArraySort IssueGroupCount) (locale : Locale)
    (records : List IssueRecord) (groupBy : IssueGroupBy) : List IssueGroupCount :=
  orderIssueGroupCounts sort locale
    (Table.group (fun record => groupSlot (issueGroupKey record groupBy)) (countRecord groupBy)
      records).values

inductive IssueOrder where
  | updated
  | created
  | priority
  | due
  deriving DecidableEq

def IssueOrder.text : IssueOrder → String
  | .updated => "updated"
  | .created => "created"
  | .priority => "priority"
  | .due => "due"

/-- What an ordering reads. -/
structure IssueOrderable where
  id : String
  updatedAt : String
  createdAt : String
  priority : IssuePriority
  dueDate : Option String
  deriving DecidableEq

def IssueRecord.orderable (record : IssueRecord) : IssueOrderable :=
  { id := record.id, updatedAt := record.updatedAt, createdAt := record.createdAt
    priority := record.priority, dueDate := record.dueDate }

def IssueSummary.orderable (summary : IssueSummary) : IssueOrderable :=
  { id := summary.id, updatedAt := summary.updatedAt, createdAt := summary.createdAt
    priority := summary.priority, dueDate := summary.dueDate }

/-- `2026-08-03` becomes `7973-91-96`. -/
def complementDate (date : String) : String :=
  String.ofList (date.toList.flatMap fun c =>
    if c.isDigit then (toString (9 - (c.toNat - 48))).toList else [c])

/-- `text.padStart(2, "0")` -/
def padStart2 (text : String) : String :=
  String.ofList (List.replicate (2 - text.toList.length) '0' ++ text.toList)

def issueOrderKey (record : IssueOrderable) : IssueOrder → String
  | .updated => record.updatedAt
  | .created => record.createdAt
  | .priority =>
      padStart2 (toString (ISSUE_PRIORITIES.length - issuePriorityRank record.priority))
  | .due =>
      match record.dueDate with
      | none => "0000-00-00"
      | some date => complementDate date

def compareText (a b : String) : ℤ :=
  if Text.before a b then -1 else if Text.before b a then 1 else 0

/-- `a || b` of two numbers. -/
def orElse (a b : ℤ) : ℤ := if a ≠ 0 then a else b

def compareIssuesForList (a b : IssueOrderable) (order : IssueOrder) : ℤ :=
  orElse (compareText (issueOrderKey b order) (issueOrderKey a order))
    (orElse (compareText b.updatedAt a.updatedAt) (compareText b.id a.id))

structure CursorPosition where
  key : String
  updatedAt : String
  id : String
  deriving DecidableEq

def isIssueAfterCursor (record : IssueOrderable) (after : CursorPosition) (order : IssueOrder) :
    Bool :=
  let key := issueOrderKey record order
  if key ≠ after.key then Text.before key after.key
  else if record.updatedAt ≠ after.updatedAt then Text.before record.updatedAt after.updatedAt
  else Text.before record.id after.id

/-- `after === undefined || isIssueAfterCursor(record, after, order)` -/
def isPast (record : IssueOrderable) (after : Option CursorPosition) (order : IssueOrder) : Bool :=
  match after with
  | none => true
  | some after => isIssueAfterCursor record after order

/-! ## Filters -/

structure LinkFilter where
  type : IssueLinkType
  id : String
  deriving DecidableEq

/-- The inner `none` of `parentId` is its `null`. -/
structure IssueListFilter where
  status : Option IssueStatus := none
  projectId : Option String := none
  assignee : Option String := none
  priority : Option IssuePriority := none
  milestoneId : Option String := none
  parentId : Option (Option String) := none
  link : Option LinkFilter := none
  scorecards : Option (List String) := none
  query : Option String := none
  githubRepository : Option String := none
  syncPull : Option Bool := none
  statuses : Option (List IssueStatus) := none
  priorities : Option (List IssuePriority) := none
  assignees : Option (List String) := none
  projectIds : Option (List String) := none
  labelIds : Option (List String) := none
  deriving DecidableEq

/-- The empty text among the wanted ones names the unset bucket. -/
def matchesOptional (value : Option String) (wanted : List String) : Bool :=
  match value with
  | none => wanted.contains ""
  | some value => wanted.contains value

/-- `text.includes(needle)` -/
def includes (text needle : String) : Bool :=
  text.toList.tails.any fun rest => needle.toList.isPrefixOf rest

/-- A facet of the filter: satisfied when the caller did not open it. -/
def facet {α : Type} (wanted : Option α) (test : α → Bool) : Bool :=
  match wanted with
  | none => true
  | some wanted => test wanted

def matchesFilter (locale : Locale) (record : IssueRecord) (filter : IssueListFilter) : Bool :=
  facet filter.status (fun status => record.status = status) &&
  facet filter.projectId (fun projectId => record.projectId = some projectId) &&
  facet filter.assignee (fun assignee => record.assignee = some assignee) &&
  facet filter.priority (fun priority => record.priority = priority) &&
  facet filter.milestoneId (fun milestoneId => record.milestoneId = some milestoneId) &&
  facet filter.parentId (fun parentId => record.parentId = parentId) &&
  facet filter.githubRepository (fun repository =>
    record.github.map IssueGithub.repository = some repository) &&
  facet filter.syncPull (fun wanted =>
    !wanted || record.github.map (fun github => github.sync.pull) = some true) &&
  facet filter.link (fun wanted =>
    record.links.any fun link => link.type = wanted.type && link.id = wanted.id) &&
  facet filter.scorecards (fun wanted =>
    (record.links.any fun link => link.type = .scorecard && wanted.contains link.id) ||
      (record.resolution.bind IssueResolution.scorecardId).any (wanted.contains ·)) &&
  facet filter.query (fun query =>
    (record.identifier :: record.formerIdentifiers ++ [record.title]).any fun text =>
      includes (locale.toLocaleLowerCase text) (locale.toLocaleLowerCase query)) &&
  facet filter.statuses (·.contains record.status) &&
  facet filter.priorities (·.contains record.priority) &&
  facet filter.assignees (matchesOptional record.assignee) &&
  facet filter.projectIds (matchesOptional record.projectId) &&
  facet filter.labelIds (fun wanted => record.labelIds.any (wanted.contains ·))

/-! ## Pages -/

def DEFAULT_PAGE_LIMIT : Nat := 50

def MAX_PAGE_LIMIT : Nat := 200

/-- A page size that is whole, infinite or not a number. -/
def clampLimit : Option Number → Nat
  | some (.finite n) => if n ≤ 0 then DEFAULT_PAGE_LIMIT else min n.toNat MAX_PAGE_LIMIT
  | none | some (.infinity _) | some .nan => DEFAULT_PAGE_LIMIT

/-- A text as a base64url token of its UTF-8, and a token read back. -/
structure TokenCodec where
  mint : String → String
  read : String → String
  read_mint : ∀ text, read (mint text) = text

def cursorText (record : IssueOrderable) (order : IssueOrder) : String :=
  order.text ++ "|" ++ issueOrderKey record order ++ "|" ++ record.updatedAt ++ "|" ++ record.id

def encodeCursor (codec : TokenCodec) (record : IssueOrderable) (order : IssueOrder) : String :=
  codec.mint (cursorText record order)

structure BadRequestError where
  code : String
  message : String
  deriving DecidableEq

def foreignCursor : BadRequestError :=
  ⟨"BAD_REQUEST", "This page cursor belongs to a different ordering. Start from the first page."⟩

/-- `raw.split("|")` -/
def barParts (raw : String) : List String := (raw.toList.splitOn '|').map String.ofList

/-- `rest.join("|")` -/
def joinBars (rest : List String) : String :=
  String.ofList (['|'].intercalate (rest.map String.toList))

def decodeCursorText (raw : String) (order : IssueOrder) :
    Except BadRequestError CursorPosition :=
  match barParts raw with
  | [updatedAt, id] =>
      if order ≠ .updated ∨ updatedAt = "" then .error foreignCursor
      else .ok { key := updatedAt, updatedAt, id }
  | cursorOrder :: key :: updatedAt :: rest =>
      if cursorOrder ≠ order.text ∨ joinBars rest = "" then .error foreignCursor
      else .ok { key, updatedAt, id := joinBars rest }
  | _ => .error foreignCursor

def decodeCursor (codec : TokenCodec) (cursor : String) (order : IssueOrder) :
    Except BadRequestError CursorPosition :=
  decodeCursorText (codec.read cursor) order

structure IssuePage where
  items : List IssueSummary
  nextCursor : Option String := none
  deriving DecidableEq

structure IssuePageFilter extends IssueListFilter where
  limit : Option Number := none
  cursor : Option String := none
  order : Option IssueOrder := none
  deriving DecidableEq

/-! ## The ledger in memory -/

/-- The ledger keeps every record under its own id, beside the events it wrote. -/
structure InMemoryIssueStore (ε : Type) where
  byId : Table String IssueRecord
  events : List ε
  keyed : ∀ id record, byId.get id = some record → record.id = id

namespace InMemoryIssueStore

variable {ε : Type} (store : InMemoryIssueStore ε)

def empty : InMemoryIssueStore ε where
  byId := .empty
  events := []
  keyed := by simp

def create (record : IssueRecord) (events : List ε) : InMemoryIssueStore ε where
  byId := store.byId.set record.id record
  events := store.events ++ events
  keyed := by
    intro id found eq
    rw [Table.get_set] at eq
    split at eq
    · next same => exact Option.some.inj eq ▸ same.symm
    · exact store.keyed id found eq

def get (tenant id : String) : Option IssueRecord :=
  (store.byId.get id).filter fun record => record.tenant = tenant

/-- The rows a filter selects in a workspace. -/
def selected (locale : Locale) (tenant : String) (filter : IssueListFilter) : List IssueRecord :=
  store.byId.values.filter fun record =>
    record.tenant = tenant && matchesFilter locale record filter

def ordered (sort : ArraySort IssueRecord) (locale : Locale) (tenant : String)
    (filter : IssueListFilter) (order : IssueOrder) : List IssueRecord :=
  sort.run (fun a b => .finite (compareIssuesForList a.orderable b.orderable order))
    (store.selected locale tenant filter)

def listSummaries (sort : ArraySort IssueRecord) (locale : Locale) (codec : TokenCodec)
    (tenant : String) (filter : IssuePageFilter) : Except BadRequestError IssuePage := do
  let limit := clampLimit filter.limit
  let order := filter.order.getD .updated
  let after ← filter.cursor.mapM fun cursor => decodeCursor codec cursor order
  let rows := (store.ordered sort locale tenant filter.toIssueListFilter order).filter fun record =>
    isPast record.orderable after order
  let page := rows.take limit
  let nextCursor :=
    if limit < rows.length then
      page.getLast?.map fun last => encodeCursor codec last.orderable order
    else none
  return { items := page.map issueSummaryOf, nextCursor }

def countByGroup (sort : ArraySort IssueGroupCount) (locale : Locale) (tenant : String)
    (groupBy : IssueGroupBy) (filter : IssueListFilter) : List IssueGroupCount :=
  issueCountsByGroup sort locale (store.selected locale tenant filter) groupBy

end InMemoryIssueStore

end Everdict.Tracker
