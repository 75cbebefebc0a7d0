import Everdict.Base64Url
import Everdict.KeysetPaging
import Everdict.Tracker.IssueList
import Mathlib.Data.List.Lex
import Mathlib.Data.Prod.Lex

/-!
# Paging the issue list

Followed from the first page to the last, the list serves every issue that keeps its place
exactly once, in the order it names, whatever is written to the ledger between two pages
(`issue_pages`).  The groups of a board count what their columns serve (`board_counts`).

The order is that of a position: three texts by their code units, the greatest first.  A page
token is read back as the position it was minted of when the texts of dates hold no bar.
-/

namespace Everdict.Tracker

open KeysetPaging Text

/-! ## Positions -/

abbrev Position := List ℕ ×ₗ (List ℕ ×ₗ List ℕ)

def positionOf (key updatedAt id : String) : Position :=
  toLex (utf16 key, toLex (utf16 updatedAt, utf16 id))

def position (order : IssueOrder) (record : IssueOrderable) : Position :=
  positionOf (issueOrderKey record order) record.updatedAt record.id

theorem positionOf_lt_iff {key updatedAt id key' updatedAt' id' : String} :
    positionOf key updatedAt id < positionOf key' updatedAt' id' ↔
      before key key' = true ∨ key = key' ∧
        (before updatedAt updatedAt' = true ∨ updatedAt = updatedAt' ∧ before id id' = true) := by
  have units : ∀ {s t : String}, utf16 s = utf16 t ↔ s = t := ⟨utf16_inj, congrArg utf16⟩
  simp only [positionOf, Prod.Lex.toLex_lt_toLex, units, before, decide_eq_true_iff]

theorem id_of_position {order : IssueOrder} {x y : IssueOrderable}
    (eq : position order x = position order y) : x.id = y.id :=
  utf16_inj (congrArg (fun p => (ofLex (ofLex p).2).2) eq)

theorem before_iff {s t : String} : before s t = true ↔ utf16 s < utf16 t := decide_eq_true_iff

theorem compareText_cases (a b : String) :
    compareText a b = -1 ∧ before a b = true ∨ compareText a b = 0 ∧ a = b ∨
      compareText a b = 1 ∧ before b a = true := by
  unfold compareText
  split
  · next below => exact .inl ⟨rfl, below⟩
  · next notBelow =>
      split
      · next above => exact .inr (.inr ⟨rfl, above⟩)
      · next notAbove =>
          rw [before_iff] at notBelow notAbove
          exact .inr (.inl ⟨rfl, utf16_inj (le_antisymm (not_lt.mp notAbove) (not_lt.mp notBelow))⟩)

/-- The comparison has the sign of the positions. -/
theorem compareIssuesForList_cases (order : IssueOrder) (a b : IssueOrderable) :
    compareIssuesForList a b order < 0 ∧ position order b < position order a ∨
      compareIssuesForList a b order = 0 ∧ position order a = position order b ∨
      0 < compareIssuesForList a b order ∧ position order a < position order b := by
  unfold compareIssuesForList orElse position
  rw [positionOf_lt_iff, positionOf_lt_iff]
  rcases compareText_cases (issueOrderKey b order) (issueOrderKey a order) with
    ⟨value, below⟩ | ⟨value, key⟩ | ⟨value, above⟩
  · rw [value]
    exact .inl ⟨by simp, .inl below⟩
  · rw [value, key]
    rcases compareText_cases b.updatedAt a.updatedAt with
      ⟨value, below⟩ | ⟨value, updated⟩ | ⟨value, above⟩
    · rw [value]
      exact .inl ⟨by simp, .inr ⟨rfl, .inl below⟩⟩
    · rw [value, updated]
      rcases compareText_cases b.id a.id with ⟨value, below⟩ | ⟨value, id⟩ | ⟨value, above⟩
      · rw [value]
        exact .inl ⟨by simp, .inr ⟨rfl, .inr ⟨rfl, below⟩⟩⟩
      · rw [value, id]
        exact .inr (.inl ⟨by simp, rfl⟩)
      · rw [value]
        exact .inr (.inr ⟨by simp, .inr ⟨rfl, .inr ⟨rfl, above⟩⟩⟩)
    · rw [value]
      exact .inr (.inr ⟨by simp, .inr ⟨rfl, .inl above⟩⟩)
  · rw [value]
    exact .inr (.inr ⟨by simp, .inl above⟩)

theorem compareIssuesForList_neg_iff {order : IssueOrder} {a b : IssueOrderable} :
    compareIssuesForList a b order < 0 ↔ position order b < position order a := by
  rcases compareIssuesForList_cases order a b with ⟨neg, lt⟩ | ⟨zero, eq⟩ | ⟨pos, gt⟩
  · exact iff_of_true neg lt
  · exact iff_of_false (by omega) (by rw [eq]; exact lt_irrefl _)
  · exact iff_of_false (by omega) gt.not_gt

theorem isIssueAfterCursor_iff {order : IssueOrder} {record : IssueOrderable}
    {after : CursorPosition} :
    isIssueAfterCursor record after order = true ↔
      position order record < positionOf after.key after.updatedAt after.id := by
  have irrefl : ∀ s, before s s = false := fun s => by
    rw [Bool.eq_false_iff, ne_eq, before_iff]
    exact lt_irrefl _
  unfold isIssueAfterCursor position
  dsimp only
  rw [positionOf_lt_iff]
  split
  · next other => simp [other]
  · next same =>
      rw [not_not.mp same]
      split
      · next other => simp [other, irrefl]
      · next same => simp [not_not.mp same, irrefl]

/-! ## The rows -/

variable {ε : Type} (sort : ArraySort IssueRecord) (locale : Locale) (codec : TokenCodec)
  {store : InMemoryIssueStore ε} {tenant : String} {filter : IssueListFilter}
  {order : IssueOrder}

/-- Where a record stands in the list. -/
def rowPosition (order : IssueOrder) (record : IssueRecord) : Position :=
  position order record.orderable

theorem ordered_eq :
    store.ordered sort locale tenant filter order =
      listed (rowPosition order) (store.selected locale tenant filter) := by
  refine sort.run_eq_sortBy (.of_order ?_ ?_ ?_)
  · intro a _ b _ less
    exact ⟨_, rfl, compareIssuesForList_neg_iff.mpr (OrderDual.toDual_lt_toDual.mp less)⟩
  · intro a _ b _ same
    rcases compareIssuesForList_cases order a.orderable b.orderable with
      ⟨-, lt⟩ | ⟨zero, -⟩ | ⟨-, gt⟩
    · exact absurd (OrderDual.toDual.injective same) lt.ne'
    · rw [zero]
    · exact absurd (OrderDual.toDual.injective same) gt.ne
  · intro a _ b _ greater
    have gt : rowPosition order a < rowPosition order b := OrderDual.toDual_lt_toDual.mp greater
    rcases compareIssuesForList_cases order a.orderable b.orderable with
      ⟨-, lt⟩ | ⟨-, eq⟩ | ⟨pos, -⟩
    · exact absurd gt lt.not_gt
    · exact absurd gt (by unfold rowPosition; rw [eq]; exact lt_irrefl _)
    · exact ⟨_, rfl, pos⟩

theorem mem_selected {record : IssueRecord} :
    record ∈ store.selected locale tenant filter ↔
      store.get tenant record.id = some record ∧ matchesFilter locale record filter = true := by
  unfold InMemoryIssueStore.selected InMemoryIssueStore.get
  rw [List.mem_filter, Table.mem_values, Bool.and_eq_true, Option.filter_eq_some_iff]
  constructor
  · intro ⟨⟨id, found⟩, ours, selects⟩
    exact ⟨⟨store.keyed id record found ▸ found, ours⟩, selects⟩
  · intro ⟨⟨found, ours⟩, selects⟩
    exact ⟨⟨record.id, found⟩, ours, selects⟩

/-- The ids of a ledger differ. -/
theorem selected_ids : (store.selected locale tenant filter).Pairwise fun a b => a.id ≠ b.id := by
  have keys := List.pairwise_map.mp store.byId.nodup
  have values : store.byId.values.Pairwise fun a b => a.id ≠ b.id := by
    refine List.pairwise_map.mpr (keys.imp_of_mem fun {a b} ina inb differ same => differ ?_)
    rw [← store.keyed a.1 a.2 (Table.get_eq_some.mpr ina),
      ← store.keyed b.1 b.2 (Table.get_eq_some.mpr inb), same]
  exact values.sublist List.filter_sublist

theorem selected_positions :
    (store.selected locale tenant filter).Pairwise fun a b =>
      rowPosition order a ≠ rowPosition order b :=
  (selected_ids locale).imp fun differ same => differ (id_of_position same)

/-! ## Tokens -/

/-- The date an order sorts by, as it stands in the record. -/
def dateOf (order : IssueOrder) (record : IssueOrderable) : Option String :=
  match order with
  | .updated => some record.updatedAt
  | .created => some record.createdAt
  | .priority => none
  | .due => record.dueDate

/-- The dates a token of an order joins hold no bar, and the id that ends it is not empty.  The
dates a store stamps are so; a due date is whatever text its caller gave. -/
structure Plain (order : IssueOrder) (record : IssueOrderable) : Prop where
  updatedAt : '|' ∉ record.updatedAt.toList
  date : ∀ date ∈ dateOf order record, '|' ∉ date.toList
  id : record.id ≠ ""

theorem Plain.key {record : IssueOrderable} (plain : Plain order record) :
    '|' ∉ (issueOrderKey record order).toList := by
  cases order with
  | updated => exact plain.updatedAt
  | created => exact plain.date record.createdAt rfl
  | priority => cases priority : record.priority <;> (rw [issueOrderKey, priority]; decide)
  | due =>
      cases due : record.dueDate with
      | none => simp [issueOrderKey, due]
      | some date =>
          intro bar
          rw [issueOrderKey, due] at bar
          simp only [complementDate, String.toList_ofList, List.mem_flatMap] at bar
          obtain ⟨c, inDate, inside⟩ := bar
          split at inside
          · have digit : '|' ∈ Nat.toDigits 10 (9 - (c.toNat - 48)) := by simpa using inside
            exact not_mem_digits (by decide) _ digit
          · rw [List.mem_singleton] at inside
            exact plain.date date due (inside ▸ inDate)

theorem barParts_append {front : String} (plain : '|' ∉ front.toList) (rest : String) :
    barParts (front ++ "|" ++ rest) = front :: barParts rest := by
  have chars : (front ++ "|" ++ rest).toList = front.toList ++ '|' :: rest.toList := by
    simp [String.toList_append]
  unfold barParts
  rw [chars, List.splitOn_append_cons_self_of_not_mem plain, List.map_cons, String.ofList_toList]

theorem joinBars_barParts (text : String) : joinBars (barParts text) = text := by
  unfold joinBars barParts
  rw [List.map_map, show String.toList ∘ String.ofList = id from funext fun _ => by simp,
    List.map_id, List.intercalate_splitOn, String.ofList_toList]

/-- A token is read back as the position it was minted of. -/
theorem decodeCursor_encodeCursor {record : IssueOrderable} (plain : Plain order record) :
    decodeCursor codec (encodeCursor codec record order) order =
      .ok { key := issueOrderKey record order, updatedAt := record.updatedAt, id := record.id } := by
  have orderPlain : '|' ∉ order.text.toList := by cases order <;> decide
  have parts : barParts (cursorText record order) =
      order.text :: issueOrderKey record order :: record.updatedAt :: barParts record.id := by
    unfold cursorText
    rw [show order.text ++ "|" ++ issueOrderKey record order ++ "|" ++ record.updatedAt ++ "|" ++
        record.id = order.text ++ "|" ++ (issueOrderKey record order ++ "|" ++
          (record.updatedAt ++ "|" ++ record.id)) by simp [String.append_assoc],
      barParts_append orderPlain, barParts_append plain.key,
      barParts_append plain.updatedAt]
  unfold decodeCursor encodeCursor decodeCursorText
  rw [codec.read_mint, parts]
  have some' : ∃ first rest, barParts record.id = first :: rest :=
    List.exists_cons_of_ne_nil (by simp [barParts])
  obtain ⟨first, rest, shape⟩ := some'
  rw [shape]
  dsimp only
  rw [← shape, joinBars_barParts, if_neg (by simp [plain.id])]

/-! ## Pages -/

/-- Where the rows of a page begin. -/
def startOf (order : IssueOrder) (after : Option IssueOrderable) : Option Position :=
  after.map (position order)

/-- The filter of one request. -/
def pageFilter (filter : IssueListFilter) (order : IssueOrder) (limit : Option Double.Number)
    (cursor : Option String) : IssuePageFilter :=
  { filter with limit, cursor, order := some order }

/-- What a token is read back as. -/
def CursorPosition.of (order : IssueOrder) (record : IssueOrderable) : CursorPosition :=
  { key := issueOrderKey record order, updatedAt := record.updatedAt, id := record.id }

theorem left_eq (order : IssueOrder) (after : Option IssueOrderable) :
    (store.ordered sort locale tenant filter order).filter (fun record =>
        isPast record.orderable (after.map (CursorPosition.of order)) order) =
      left (rowPosition order) (store.selected locale tenant filter) (startOf order after) := by
  rw [ordered_eq]
  refine List.filter_congr fun record _ => ?_
  cases after with
  | none => simp [isPast, startOf, IsBehind]
  | some after =>
      rw [Bool.eq_iff_iff, decide_eq_true_iff]
      refine isIssueAfterCursor_iff.trans ?_
      simp [startOf, IsBehind, rowPosition, position, CursorPosition.of]

theorem clampLimit_bounds (limit : Option Double.Number) :
    0 < clampLimit limit ∧ clampLimit limit ≤ MAX_PAGE_LIMIT := by
  unfold clampLimit MAX_PAGE_LIMIT DEFAULT_PAGE_LIMIT
  split
  · split <;> omega
  all_goals omega

/-- A request for a page: the ledger as it stands then, and the size asked for. -/
structure Request (ε : Type) where
  store : InMemoryIssueStore ε
  limit : Option Double.Number

/-- The rows of a request. -/
def Request.moment (locale : Locale) (tenant : String) (filter : IssueListFilter)
    (q : Request ε) : Moment IssueRecord :=
  ⟨q.store.selected locale tenant filter, clampLimit q.limit⟩

/-- The rows a request serves behind a record. -/
def Request.page (locale : Locale) (tenant : String) (filter : IssueListFilter)
    (order : IssueOrder) (q : Request ε) (after : Option IssueOrderable) :
    Page IssueRecord Position :=
  serve (rowPosition order) (clampLimit q.limit) (q.store.selected locale tenant filter)
    (startOf order after)

/-- The token of a page: that of its last row, when rows are left. -/
def tokenOf (order : IssueOrder) (page : Page IssueRecord Position) : Option String :=
  page.next.bind fun _ =>
    page.items.getLast?.map fun last => encodeCursor codec last.orderable order

/-- A page as the list serves it. -/
theorem listSummaries_eq (q : Request ε) (after : Option IssueOrderable)
    (plain : ∀ record ∈ after, Plain order record) :
    q.store.listSummaries sort locale codec tenant (pageFilter filter order q.limit
        (after.map fun record => encodeCursor codec record order)) =
      .ok
        { items := (q.page locale tenant filter order after).items.map issueSummaryOf
          nextCursor := tokenOf codec order (q.page locale tenant filter order after) } := by
  have decoded : (after.map fun record => encodeCursor codec record order).mapM
      (fun cursor => decodeCursor codec cursor order) =
        Except.ok (after.map (CursorPosition.of order)) := by
    cases after with
    | none => rfl
    | some record =>
        rw [Option.map_some, Option.mapM_some, decodeCursor_encodeCursor codec (plain record rfl)]
        rfl
  unfold InMemoryIssueStore.listSummaries pageFilter
  dsimp only [Option.getD_some]
  rw [decoded]
  dsimp only [bind, Except.bind, pure, Except.pure]
  rw [left_eq]
  congr 2
  unfold tokenOf Request.page serve
  dsimp only
  split
  · next more =>
      obtain ⟨p, next⟩ := next_of_more (clampLimit_bounds q.limit).1 more
      unfold serve at next
      dsimp only at next
      rw [if_pos more] at next
      rw [next, Option.bind_some]
  · rfl

/-- The row a page that leaves rows ends with. -/
theorem exists_last {q : Request ε} {after : Option IssueOrderable} {p : Position}
    (next : (q.page locale tenant filter order after).next = some p) :
    ∃ last ∈ q.store.selected locale tenant filter,
      (q.page locale tenant filter order after).items.getLast? = some last ∧
      rowPosition order last = p := by
  obtain ⟨-, front, last, shape, eq⟩ := exists_of_next next
  have inItems : last ∈ (q.page locale tenant filter order after).items := by
    unfold Request.page
    rw [shape]
    exact List.mem_append_right front (List.mem_singleton_self last)
  refine ⟨last, (mem_items inItems).1, ?_, eq⟩
  unfold Request.page
  rw [shape, List.getLast?_concat]

/-- Pages asked for one after another, each with the token of the one before, up to one that
has no token. -/
inductive Pages (tenant : String) (filter : IssueListFilter) (order : IssueOrder) :
    Option String → List (Request ε) → List (List IssueSummary) → Prop
  | last {cursor : Option String} {q : Request ε} {page : IssuePage} :
      q.store.listSummaries sort locale codec tenant (pageFilter filter order q.limit cursor) =
        .ok page →
      page.nextCursor = none → Pages tenant filter order cursor [q] [page.items]
  | more {cursor : Option String} {q : Request ε} {page : IssuePage} {token : String}
      {requests : List (Request ε)} {pages : List (List IssueSummary)} :
      q.store.listSummaries sort locale codec tenant (pageFilter filter order q.limit cursor) =
        .ok page →
      page.nextCursor = some token → Pages tenant filter order (some token) requests pages →
      Pages tenant filter order cursor (q :: requests) (page.items :: pages)

variable {sort locale codec} {requests : List (Request ε)} {pages : List (List IssueSummary)}

/-- Every record a request selects can be named by a token. -/
def AllPlain (locale : Locale) (tenant : String) (filter : IssueListFilter) (order : IssueOrder)
    (requests : List (Request ε)) : Prop :=
  ∀ q ∈ requests, ∀ record ∈ q.store.selected locale tenant filter, Plain order record.orderable

/-- The pages served are those of a walk over the rows. -/
theorem Pages.walk {cursor : Option String}
    (served : Pages sort locale codec tenant filter order cursor requests pages)
    (plain : AllPlain locale tenant filter order requests) {after : Option IssueOrderable}
    (start : cursor = after.map fun record => encodeCursor codec record order)
    (startPlain : ∀ record ∈ after, Plain order record) :
    ∃ rows, Walk (rowPosition order) (startOf order after)
        (requests.map (Request.moment locale tenant filter)) rows ∧
      pages = rows.map (·.map issueSummaryOf) := by
  induction served generalizing after with
  | @last cursor q page asked none' =>
      rw [start, listSummaries_eq sort locale codec q after startPlain] at asked
      obtain rfl := Except.ok.inj asked
      cases next : (q.page locale tenant filter order after).next with
      | none => exact ⟨_, .last next, rfl⟩
      | some p =>
          obtain ⟨last, -, isLast, -⟩ := exists_last locale next
          simp [tokenOf, next, isLast] at none'
  | @more cursor q page token requests pages asked given rest ih =>
      rw [start, listSummaries_eq sort locale codec q after startPlain] at asked
      obtain rfl := Except.ok.inj asked
      cases next : (q.page locale tenant filter order after).next with
      | none => simp [tokenOf, next] at given
      | some p =>
          obtain ⟨last, inRows, isLast, rfl⟩ := exists_last locale next
          have lastPlain := plain q List.mem_cons_self last inRows
          obtain ⟨rows, walk, eq⟩ := @ih (fun q' isIn => plain q' (List.mem_cons_of_mem q isIn))
            (some last.orderable) (by simpa [tokenOf, next, isLast] using given.symm)
            (fun record isLast => Option.some.inj isLast ▸ lastPlain)
          exact ⟨_ :: rows, .more next walk, by rw [eq, List.map_cons]; rfl⟩

/-- A walk over the rows of one ledger is served. -/
theorem pages_of_walk {limit : Option Double.Number} {start : Option Position}
    {moments : List (Moment IssueRecord)} {rows : List (List IssueRecord)}
    (walk : Walk (rowPosition order) start moments rows)
    (still : ∀ m ∈ moments, m = Request.moment locale tenant filter ⟨store, limit⟩)
    (plain : ∀ record ∈ store.selected locale tenant filter, Plain order record.orderable)
    {after : Option IssueOrderable} (begins : startOf order after = start)
    (startPlain : ∀ record ∈ after, Plain order record) :
    ∃ requests, (∀ q ∈ requests, q = ⟨store, limit⟩) ∧
      Pages sort locale codec tenant filter order
        (after.map fun record => encodeCursor codec record order) requests
        (rows.map (·.map issueSummaryOf)) := by
  induction walk generalizing after with
  | @last start m next =>
      obtain rfl := still m (by simp)
      subst begins
      have none' : (Request.page locale tenant filter order ⟨store, limit⟩ after).next = none := next
      refine ⟨[⟨store, limit⟩], by simp,
        .last (listSummaries_eq sort locale codec ⟨store, limit⟩ after startPlain) ?_⟩
      simp [tokenOf, none']
  | @more start m p moments rows next rest ih =>
      obtain rfl := still m (by simp)
      subst begins
      have some' : (Request.page locale tenant filter order ⟨store, limit⟩ after).next = some p :=
        next
      obtain ⟨last, inRows, isLast, rfl⟩ := exists_last locale some'
      obtain ⟨requests, same, served⟩ := @ih (fun m isIn => still m (List.mem_cons_of_mem _ isIn))
        (some last.orderable) rfl (fun record isLast => Option.some.inj isLast ▸ plain last inRows)
      refine ⟨⟨store, limit⟩ :: requests, by simpa using same,
        .more (listSummaries_eq sort locale codec ⟨store, limit⟩ after startPlain) ?_ served⟩
      simp [tokenOf, some', isLast]

/-! ## The pages of a list -/

/-- An issue is listed at the same place whenever a page is asked for. -/
def KeepsPlace (locale : Locale) (tenant : String) (filter : IssueListFilter) (order : IssueOrder)
    (requests : List (Request ε)) (id : String) : Prop :=
  ∃ p, ∀ q ∈ requests, ∃ record ∈ q.store.selected locale tenant filter,
    record.id = id ∧ rowPosition order record = p

/-- What pages followed from the first to the last serve. -/
structure Served (sort : ArraySort IssueRecord) (locale : Locale) (tenant : String)
    (filter : IssueListFilter) (order : IssueOrder) (requests : List (Request ε))
    (pages : List (List IssueSummary)) : Prop where
  once : ∀ id, KeepsPlace locale tenant filter order requests id →
    pages.flatten.countP (·.id = id) = 1
  ordered : pages.flatten.Pairwise fun a b =>
    compareIssuesForList a.orderable b.orderable order < 0
  listed : ∀ summary ∈ pages.flatten, ∃ q ∈ requests,
    ∃ record ∈ q.store.selected locale tenant filter, summary = issueSummaryOf record
  short : List.Forall₂ (fun q page => page.length ≤ clampLimit q.limit) requests pages
  whole : ∀ store : InMemoryIssueStore ε, (∀ q ∈ requests, q.store = store) →
    pages.flatten = (store.ordered sort locale tenant filter order).map issueSummaryOf

/-- No page of a walk is longer than it was asked to be. -/
theorem Walk.lengths_le {start : Option Position} {moments : List (Moment IssueRecord)}
    {rows : List (List IssueRecord)} (walk : Walk (rowPosition order) start moments rows) :
    List.Forall₂ (fun m page => page.length ≤ m.limit) moments rows := by
  induction walk with
  | last next => exact .cons length_items .nil
  | more next rest ih => exact .cons length_items ih

/-- A served row with the id of an issue that keeps its place is at that place. -/
theorem position_of_id {id : String} {p : Position}
    (stays : ∀ q ∈ requests, ∃ record ∈ q.store.selected locale tenant filter,
      record.id = id ∧ rowPosition order record = p)
    {q : Request ε} (asked : q ∈ requests) {record : IssueRecord}
    (isIn : record ∈ q.store.selected locale tenant filter) :
    record.id = id ↔ rowPosition order record = p := by
  obtain ⟨kept, isKept, rfl, rfl⟩ := stays q asked
  constructor
  · intro same
    have found := ((mem_selected locale).mp isIn).1
    rw [same, ((mem_selected locale).mp isKept).1] at found
    rw [Option.some.inj found]
  · exact id_of_position

/-- One row stands at the place of an issue that keeps it. -/
theorem countP_of_stays {id : String} {p : Position}
    (stays : ∀ q ∈ requests, ∃ record ∈ q.store.selected locale tenant filter,
      record.id = id ∧ rowPosition order record = p) :
    ∀ m ∈ requests.map (Request.moment locale tenant filter),
      m.rows.countP (standsAt (rowPosition order) p) = 1 := by
  intro m isIn
  obtain ⟨q, asked, rfl⟩ := List.mem_map.mp isIn
  obtain ⟨record, isKept, -, rfl⟩ := stays q asked
  have nodup : ((q.store.selected locale tenant filter).map (rowPosition order)).Nodup :=
    List.pairwise_map.mpr (selected_positions locale)
  have counted := List.count_eq_one_of_mem nodup (List.mem_map_of_mem isKept)
  rw [List.count_eq_countP, List.countP_map] at counted
  rw [← counted]
  exact List.countP_congr fun row _ => by rw [standsAt_iff, Function.comp, beq_iff_eq]

theorem Pages.served (served : Pages sort locale codec tenant filter order none requests pages)
    (plain : AllPlain locale tenant filter order requests) :
    Served sort locale tenant filter order requests pages := by
  have start : none = (none : Option IssueOrderable).map fun record =>
      encodeCursor codec record order := rfl
  obtain ⟨rows, walk, rfl⟩ := served.walk plain start (by simp)
  have flat : (rows.map (·.map issueSummaryOf)).flatten = rows.flatten.map issueSummaryOf :=
    List.map_flatten.symm
  have distinct : ∀ m ∈ requests.map (Request.moment locale tenant filter),
      m.rows.Pairwise fun a b => rowPosition order a ≠ rowPosition order b := by
    intro m isIn
    obtain ⟨q, asked, rfl⟩ := List.mem_map.mp isIn
    exact selected_positions locale
  have some' : ∀ m ∈ requests.map (Request.moment locale tenant filter), 0 < m.limit := by
    intro m isIn
    obtain ⟨q, asked, rfl⟩ := List.mem_map.mp isIn
    exact (clampLimit_bounds q.limit).1
  constructor
  · rintro id ⟨p, stays⟩
    rw [flat, List.countP_map]
    have once := walk.served_once some' (countP_of_stays stays)
    rw [if_pos (by simp [startOf, IsBehind])] at once
    rw [← once]
    refine List.countP_congr fun row isIn => ?_
    obtain ⟨m, inMoments, here⟩ := walk.mem isIn
    obtain ⟨q, asked, rfl⟩ := List.mem_map.mp inMoments
    rw [standsAt_iff, Function.comp, decide_eq_true_iff]
    exact position_of_id stays asked here
  · rw [flat]
    refine List.pairwise_map.mpr ((walk.falling distinct).1.imp fun {a b} falls => ?_)
    exact compareIssuesForList_neg_iff.mpr falls
  · intro summary isIn
    rw [flat] at isIn
    obtain ⟨row, inRows, rfl⟩ := List.mem_map.mp isIn
    obtain ⟨m, inMoments, here⟩ := walk.mem inRows
    obtain ⟨q, asked, rfl⟩ := List.mem_map.mp inMoments
    exact ⟨q, asked, row, here, rfl⟩
  · have lengths := List.forall₂_map_left_iff.mp (Walk.lengths_le walk)
    exact List.forall₂_map_right_iff.mpr (lengths.imp fun _ _ le => by rwa [List.length_map])
  · intro store still
    rw [flat, ordered_eq, ← left_none, walk.eq_left (selected_positions locale)]
    · rfl
    · intro m inMoments
      obtain ⟨q, asked, rfl⟩ := List.mem_map.mp inMoments
      exact ⟨by rw [Request.moment, still q asked], (clampLimit_bounds q.limit).1⟩

/-- Over a ledger that stays the same the pages come to an end. -/
theorem exists_pages (q : Request ε) (plain : AllPlain locale tenant filter order [q]) :
    ∃ requests pages, (∀ q' ∈ requests, q' = q) ∧
      Pages sort locale codec tenant filter order none requests pages := by
  have apart : (q.store.selected locale tenant filter).Pairwise fun a b =>
      rowPosition order a ≠ rowPosition order b := selected_positions locale
  obtain ⟨moments, rows, walk, still⟩ := exists_walk apart (clampLimit_bounds q.limit).1 none
  have start : startOf order none = none := rfl
  obtain ⟨requests, same, served⟩ :=
    pages_of_walk walk still (plain q (List.mem_singleton_self q)) start (by simp)
  exact ⟨requests, _, same, served⟩

def base64url : TokenCodec := ⟨Base64Url.ofText, Base64Url.readText, Base64Url.readText_ofText⟩

/-- A locale on ASCII texts. -/
def plainLocale : Locale where
  toLocaleLowerCase := fun s => String.ofList (s.toList.map Char.toLower)
  localeCompare := compareText

def listedIssue (id : String) (priority : IssuePriority) : IssueRecord :=
  { id, tenant := "acme", number := 1, identifier := "EVD-" ++ id, title := "Five cases fail"
    status := .todo, priority, createdBy := "ada", createdAt := "2026-09-01T10:00:00.000Z"
    updatedAt := "2026-09-01T10:00:00.000Z" }

def smallLedger : InMemoryIssueStore Unit :=
  ((InMemoryIssueStore.empty.create (listedIssue "a" .low) []).create
    (listedIssue "b" .none) []).create (listedIssue "c" .urgent) []

theorem smallLedger_plain (filter : IssueListFilter) (order : IssueOrder)
    (limit : Option Double.Number) :
    AllPlain plainLocale "acme" filter order [(⟨smallLedger, limit⟩ : Request Unit)] := by
  intro q asked record isIn
  obtain rfl := List.mem_singleton.mp asked
  have all : ∀ record ∈ smallLedger.byId.values,
      record.updatedAt = "2026-09-01T10:00:00.000Z" ∧
        record.createdAt = "2026-09-01T10:00:00.000Z" ∧ record.dueDate = none ∧
        record.id ≠ "" := by decide +kernel
  obtain ⟨updatedAt, createdAt, dueDate, id⟩ := all record (List.mem_of_mem_filter isIn)
  have stamped : record.orderable.updatedAt = "2026-09-01T10:00:00.000Z" := updatedAt
  refine ⟨stamped ▸ by decide, fun date isDate => ?_, id⟩
  cases order with
  | updated => exact (Option.some.inj isDate).symm.trans updatedAt ▸ by decide
  | created => exact (Option.some.inj isDate).symm.trans createdAt ▸ by decide
  | priority => cases isDate
  | due =>
      rw [dateOf, IssueRecord.orderable, dueDate] at isDate
      cases isDate

end Everdict.Tracker
