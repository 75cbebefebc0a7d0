import Everdict.Tracker.IssuePages

/-!
# The groups of a board

A board draws a column for each group, with the group's count over it and the issues its facet
selects under it.  Both come from the ledger on their own: `board_counts` says that they agree.
The facet of an unset value is spelled as the empty text, so a column so spelled tells the two
apart only where the ledger holds one of them.
-/

namespace Everdict.Tracker

variable {ε : Type} {store : InMemoryIssueStore ε} {locale : Locale} {tenant : String}
  {filter : IssueListFilter} {grouping : IssueGroupBy} {records : List IssueRecord}

/-! ## Counts -/

theorem groupSlot_inj {key key' : Option String} (eq : groupSlot key = groupSlot key') :
    key = key' := by
  have chars := congrArg String.toList eq
  cases key with
  | none =>
      cases key' with
      | none => rfl
      | some text => simp [groupSlot, String.toList_append] at chars
  | some text =>
      cases key' with
      | none => simp [groupSlot, String.toList_append] at chars
      | some text' =>
          rw [groupSlot, groupSlot, String.toList_append, String.toList_append,
            List.append_cancel_left_eq] at chars
          rw [String.toList_inj.mp chars]

theorem foldl_countRecord {key : Option String} (counted : List IssueRecord)
    (one : ∀ record ∈ counted, issueGroupKey record grouping = key) :
    counted.foldl (fun entry record => some (countRecord grouping entry record)) none =
      if counted.length = 0 then none else some { key, count := counted.length } := by
  induction counted using List.reverseRecOn with
  | nil => rfl
  | append_singleton counted record ih =>
      rw [List.foldl_append, ih fun record isIn => one record (List.mem_append_left _ isIn)]
      have named := one record (by simp)
      by_cases empty : counted = []
      · simp [empty, countRecord, named]
      · simp [empty, countRecord]

/-- The records of a group. -/
def groupSize (grouping : IssueGroupBy) (records : List IssueRecord) (key : Option String) : Nat :=
  records.countP fun record => issueGroupKey record grouping = key

/-- The map that counts. -/
def counting (grouping : IssueGroupBy) (records : List IssueRecord) :
    Table String IssueGroupCount :=
  Table.group (fun record => groupSlot (issueGroupKey record grouping)) (countRecord grouping) records

theorem get_counting (key : Option String) :
    (counting grouping records).get (groupSlot key) =
      if groupSize grouping records key = 0 then none
      else some { key, count := groupSize grouping records key } := by
  have same : ∀ record, groupSlot (issueGroupKey record grouping) = groupSlot key ↔
      issueGroupKey record grouping = key := fun record => ⟨groupSlot_inj, congrArg groupSlot⟩
  unfold counting
  rw [Table.get_group]
  simp only [same]
  rw [foldl_countRecord _ fun record isIn => of_decide_eq_true (List.mem_filter.mp isIn).2]
  unfold groupSize
  rw [List.countP_eq_length_filter]

theorem mem_counting {slot : String} {entry : IssueGroupCount}
    (found : (counting grouping records).get slot = some entry) :
    slot = groupSlot entry.key ∧ entry.count = groupSize grouping records entry.key ∧
      0 < entry.count := by
  have named : ∃ record ∈ records, groupSlot (issueGroupKey record grouping) = slot := by
    by_contra none'
    rw [counting, Table.get_group_eq_none.mpr fun record isIn eq => none' ⟨record, isIn, eq⟩] at found
    cases found
  obtain ⟨record, -, rfl⟩ := named
  rw [get_counting] at found
  split at found
  · cases found
  · next some' =>
      obtain rfl := Option.some.inj found
      exact ⟨rfl, rfl, Nat.pos_of_ne_zero some'⟩

theorem counts_perm (sort : ArraySort IssueGroupCount) :
    (store.countByGroup sort locale tenant grouping filter).Perm
      (counting grouping (store.selected locale tenant filter)).values :=
  sort.perm ..

/-- The counts add up. -/
theorem sum_counting : ((counting grouping records).values.map IssueGroupCount.count).sum =
    records.length := by
  induction records using List.reverseRecOn with
  | nil => rfl
  | append_singleton records record ih =>
      have one : ∀ entry : Option IssueGroupCount,
          (countRecord grouping entry record).count =
            (entry.map IssueGroupCount.count).getD 0 + 1 := by
        intro entry
        cases entry <;> rfl
      unfold counting at ih ⊢
      rw [Table.group_concat, List.length_append, List.length_singleton, ← ih]
      have total := Table.sum_set IssueGroupCount.count
        (Table.group (fun record => groupSlot (issueGroupKey record grouping))
          (countRecord grouping) records)
        (groupSlot (issueGroupKey record grouping))
        (countRecord grouping ((Table.group (fun record =>
          groupSlot (issueGroupKey record grouping)) (countRecord grouping) records).get
            (groupSlot (issueGroupKey record grouping))) record)
      rw [one] at total
      omega

/-! ## Columns -/

/-- A column of a board.  An unset assignee or project is a column of its own. -/
inductive Column where
  | status (status : IssueStatus)
  | priority (priority : IssuePriority)
  | assignee (assignee : Option String)
  | project (projectId : Option String)
  deriving DecidableEq

namespace Column

def groupBy : Column → IssueGroupBy
  | .status _ => .status
  | .priority _ => .priority
  | .assignee _ => .assignee
  | .project _ => .project

def key : Column → Option String
  | .status s => some s.text
  | .priority p => some p.text
  | .assignee who => who
  | .project id => id

/-- The filter a column lists its issues with. -/
def narrow (filter : IssueListFilter) : Column → IssueListFilter
  | .status s => { filter with statuses := some [s] }
  | .priority p => { filter with priorities := some [p] }
  | .assignee who => { filter with assignees := some [who.getD ""] }
  | .project id => { filter with projectIds := some [id.getD ""] }

/-- The board's own filter leaves the facet of the column to the column. -/
def Free (filter : IssueListFilter) : Column → Prop
  | .status _ => filter.statuses = none
  | .priority _ => filter.priorities = none
  | .assignee _ => filter.assignees = none
  | .project _ => filter.projectIds = none

end Column

/-- A value that is spelled as the one wanted is the one wanted. -/
def Told (wanted value : Option String) : Prop := value.getD "" = wanted.getD "" → value = wanted

/-- No issue is spelled as another column's: of an unset value and the empty text, which share a
facet, the ledger holds one. -/
def Column.Apart (store : InMemoryIssueStore ε) : Column → Prop
  | .status _ | .priority _ => True
  | .assignee who => ∀ record ∈ store.byId.values, Told who record.assignee
  | .project id => ∀ record ∈ store.byId.values, Told id record.projectId

theorem matchesOptional_iff {value wanted : Option String} (told : Told wanted value) :
    matchesOptional value [wanted.getD ""] = true ↔ value = wanted := by
  unfold Told at told
  cases value <;> cases wanted <;> simp_all [matchesOptional, eq_comm]

theorem statusText_inj {a b : IssueStatus} : a.text = b.text ↔ a = b := by
  constructor
  · cases a <;> cases b <;> simp [IssueStatus.text]
  · exact congrArg _

theorem priorityText_inj {a b : IssuePriority} : a.text = b.text ↔ a = b := by
  constructor
  · cases a <;> cases b <;> simp [IssuePriority.text]
  · exact congrArg _

theorem facet_none {α : Type} (test : α → Bool) : facet none test = true := rfl

/-- What a column's filter selects: what the board selects, of its group. -/
theorem matchesFilter_narrow {record : IssueRecord} {column : Column} (isFree : column.Free filter)
    (apart : column.Apart store) (isIn : record ∈ store.byId.values) :
    matchesFilter locale record (column.narrow filter) =
      (matchesFilter locale record filter &&
        decide (issueGroupKey record column.groupBy = column.key)) := by
  cases column with
  | status status =>
      have seat : facet (some [status]) (fun wanted => wanted.contains record.status) =
          decide (issueGroupKey record .status = some status.text) := by
        simp [facet, issueGroupKey, statusText_inj]
      have isFree : filter.statuses = none := isFree
      simp only [matchesFilter, Column.narrow, Column.groupBy, Column.key, isFree, seat,
        facet_none, Bool.and_true]
      ac_rfl
  | priority priority =>
      have seat : facet (some [priority]) (fun wanted => wanted.contains record.priority) =
          decide (issueGroupKey record .priority = some priority.text) := by
        simp [facet, issueGroupKey, priorityText_inj]
      have isFree : filter.priorities = none := isFree
      simp only [matchesFilter, Column.narrow, Column.groupBy, Column.key, isFree, seat,
        facet_none, Bool.and_true]
      ac_rfl
  | assignee assignee =>
      have seat : facet (some [assignee.getD ""]) (matchesOptional record.assignee) =
          decide (issueGroupKey record .assignee = assignee) := by
        rw [Bool.eq_iff_iff, decide_eq_true_iff]
        exact matchesOptional_iff (apart record isIn)
      have isFree : filter.assignees = none := isFree
      simp only [matchesFilter, Column.narrow, Column.groupBy, Column.key, isFree, seat,
        facet_none, Bool.and_true]
      ac_rfl
  | project projectId =>
      have seat : facet (some [projectId.getD ""]) (matchesOptional record.projectId) =
          decide (issueGroupKey record .project = projectId) := by
        rw [Bool.eq_iff_iff, decide_eq_true_iff]
        exact matchesOptional_iff (apart record isIn)
      have isFree : filter.projectIds = none := isFree
      simp only [matchesFilter, Column.narrow, Column.groupBy, Column.key, isFree, seat,
        facet_none, Bool.and_true]
      ac_rfl

/-- The count over a column; a group no issue is in has none. -/
def countOf (counts : List IssueGroupCount) (key : Option String) : Nat :=
  ((counts.find? (·.key = key)).map IssueGroupCount.count).getD 0

theorem countOf_countByGroup (sort : ArraySort IssueGroupCount) (key : Option String) :
    countOf (store.countByGroup sort locale tenant grouping filter) key =
      groupSize grouping (store.selected locale tenant filter) key := by
  have perm : (store.countByGroup sort locale tenant grouping filter).Perm
      (counting grouping (store.selected locale tenant filter)).values := counts_perm sort
  unfold countOf
  cases found : (store.countByGroup sort locale tenant grouping filter).find? (·.key = key) with
  | none =>
      have size := @get_counting grouping (store.selected locale tenant filter) key
      split at size
      · next zero => rw [zero]; rfl
      · have isIn := perm.mem_iff.mpr (Table.mem_values.mpr ⟨_, size⟩)
        have := List.find?_eq_none.mp found _ isIn
        simp at this
  | some entry =>
      obtain ⟨slot, held⟩ := Table.mem_values.mp (perm.mem_iff.mp (List.mem_of_find?_eq_some found))
      obtain ⟨-, count, -⟩ := mem_counting held
      have named : entry.key = key := by simpa using List.find?_some found
      rw [Option.map_some, Option.getD_some, count, named]

end Everdict.Tracker
