import Everdict.Sorting

/-!
# Pages behind a position

A list is served page by page.  A page holds the first rows behind the position where the page
before it ended, taken from the rows as they stand when it is asked for, so the rows may change
between two pages.  A row that stands at one position all along is served exactly once
(`Walk.served_once`), rows are served in the order of their positions (`Walk.falling`), and over
rows that stay the same the pages make up the list (`Walk.eq_listed`).

Positions fall along the list: the greatest comes first.
-/

namespace KeysetPaging

open Sorting

variable {ρ κ : Type*} [LinearOrder κ]

structure Page (ρ κ : Type*) where
  items : List ρ
  next : Option κ

/-- The rows in the order of the list. -/
def listed (position : ρ → κ) (rows : List ρ) : List ρ :=
  sortBy (fun row => OrderDual.toDual (position row)) rows

/-- Does a position come behind the one a page ended at? -/
def IsBehind (after : Option κ) (p : κ) : Prop := ∀ q ∈ after, p < q

instance (after : Option κ) (p : κ) : Decidable (IsBehind after p) :=
  match after with
  | none => .isTrue (by simp [IsBehind])
  | some q => decidable_of_iff (p < q) (by simp [IsBehind])

/-- The rows left when a page is asked for. -/
def left (position : ρ → κ) (rows : List ρ) (after : Option κ) : List ρ :=
  (listed position rows).filter fun row => IsBehind after (position row)

/-- One page of at most `limit` rows, and where it ended when there are more. -/
def serve (position : ρ → κ) (limit : Nat) (rows : List ρ) (after : Option κ) : Page ρ κ where
  items := (left position rows after).take limit
  next :=
    if limit < (left position rows after).length then
      ((left position rows after).take limit).getLast?.map position
    else none

/-- The rows when a page is asked for, and the size asked for. -/
structure Moment (ρ : Type*) where
  rows : List ρ
  limit : Nat

/-- Pages asked for one after another up to the last, from a position on. -/
inductive Walk (position : ρ → κ) : Option κ → List (Moment ρ) → List (List ρ) → Prop
  | last {after : Option κ} {m : Moment ρ} :
      (serve position m.limit m.rows after).next = none →
      Walk position after [m] [(serve position m.limit m.rows after).items]
  | more {after : Option κ} {m : Moment ρ} {p : κ} {moments : List (Moment ρ)}
      {pages : List (List ρ)} :
      (serve position m.limit m.rows after).next = some p → Walk position (some p) moments pages →
      Walk position after (m :: moments) ((serve position m.limit m.rows after).items :: pages)

variable {position : ρ → κ} {limit : Nat} {rows : List ρ} {after : Option κ} {p : κ}
  {m : Moment ρ} {moments : List (Moment ρ)} {pages : List (List ρ)}

theorem listed_perm (position : ρ → κ) (rows : List ρ) : (listed position rows).Perm rows :=
  sortBy_perm _ rows

theorem left_sublist : (left position rows after).Sublist (listed position rows) :=
  List.filter_sublist

theorem left_none : left position rows none = listed position rows :=
  List.filter_eq_self.mpr fun _ _ => decide_eq_true (by simp [IsBehind])

theorem left_pairwise :
    (left position rows after).Pairwise fun a b => position b ≤ position a :=
  (sortBy_pairwise (fun row => OrderDual.toDual (position row)) rows).sublist left_sublist

theorem left_falling (distinct : rows.Pairwise fun a b => position a ≠ position b) :
    (left position rows after).Pairwise fun a b => position b < position a := by
  have apart : (left position rows after).Pairwise fun a b => position a ≠ position b :=
    (((listed_perm position rows).pairwise_iff fun h => h.symm).mpr distinct).sublist left_sublist
  exact left_pairwise.imp₂ (fun a b le ne => lt_of_le_of_ne le ne.symm) apart

theorem mem_left {row : ρ} :
    row ∈ left position rows after ↔ row ∈ rows ∧ IsBehind after (position row) := by
  unfold left
  rw [List.mem_filter, (listed_perm position rows).mem_iff, decide_eq_true_iff]

theorem mem_items {row : ρ} (isIn : row ∈ (serve position limit rows after).items) :
    row ∈ rows ∧ IsBehind after (position row) :=
  mem_left.mp (List.mem_of_mem_take isIn)

theorem length_items : (serve position limit rows after).items.length ≤ limit :=
  List.length_take_le limit _

/-- Where a page ended: at its last row, with rows left. -/
theorem exists_of_next (next : (serve position limit rows after).next = some p) :
    limit < (left position rows after).length ∧
      ∃ front row, (serve position limit rows after).items = front ++ [row] ∧
        position row = p := by
  unfold serve at next ⊢
  dsimp only at next ⊢
  split at next
  · next more =>
      obtain ⟨row, last, eq⟩ := Option.map_eq_some_iff.mp next
      obtain ⟨front, shape⟩ := List.getLast?_eq_some_iff.mp last
      exact ⟨more, front, row, shape, eq⟩
  · cases next

/-- A page ends behind its start. -/
theorem behind_of_next (next : (serve position limit rows after).next = some p) :
    IsBehind after p := by
  obtain ⟨-, front, row, shape, rfl⟩ := exists_of_next next
  have isIn : row ∈ (serve position limit rows after).items := by simp [shape]
  exact (mem_items isIn).2

/-- A page that leaves rows ends somewhere. -/
theorem next_of_more (some' : 0 < limit) (more : limit < (left position rows after).length) :
    ∃ q, (serve position limit rows after).next = some q := by
  have filled : ((left position rows after).take limit) ≠ [] := by
    intro empty
    have := congrArg List.length empty
    rw [List.length_take, List.length_nil] at this
    omega
  refine ⟨position (((left position rows after).take limit).getLast filled), ?_⟩
  unfold serve
  dsimp only
  rw [if_pos more, List.getLast?_eq_some_getLast filled, Option.map_some]

/-! ## One row -/

/-- Does a row stand at a position? -/
def standsAt (position : ρ → κ) (p : κ) (row : ρ) : Bool := position row = p

theorem standsAt_iff {row : ρ} : standsAt position p row = true ↔ position row = p :=
  decide_eq_true_iff

theorem countP_left (behind : IsBehind after p) :
    (left position rows after).countP (standsAt position p) = rows.countP (standsAt position p) := by
  unfold left
  rw [List.countP_filter, ← (listed_perm position rows).countP_eq]
  refine List.countP_congr fun row _ => ?_
  rw [Bool.and_eq_true, standsAt_iff, decide_eq_true_iff]
  exact ⟨fun both => both.1, fun eq => ⟨eq, eq ▸ behind⟩⟩

theorem countP_items_of_not_behind (passed : ¬ IsBehind after p) :
    (serve position limit rows after).items.countP (standsAt position p) = 0 := by
  refine List.countP_eq_zero.mpr fun row isIn eq => passed ?_
  rw [← standsAt_iff.mp eq]
  exact (mem_items isIn).2

/-- The row at a position is in the page, and the next page is behind it; or it is left for the
next page. -/
theorem serve_cases (some' : 0 < limit) (once : rows.countP (standsAt position p) = 1)
    (behind : IsBehind after p) :
    (serve position limit rows after).items.countP (standsAt position p) = 1 ∧
        (∀ q ∈ (serve position limit rows after).next, ¬ IsBehind (some q) p) ∨
      (serve position limit rows after).items.countP (standsAt position p) = 0 ∧
        ∃ q, (serve position limit rows after).next = some q ∧ IsBehind (some q) p := by
  have total : ((left position rows after).take limit).countP (standsAt position p) +
      ((left position rows after).drop limit).countP (standsAt position p) = 1 := by
    rw [← List.countP_append, List.take_append_drop, countP_left behind, once]
  have items : (serve position limit rows after).items = (left position rows after).take limit := rfl
  have falls : (left position rows after).Pairwise fun a b => position b ≤ position a :=
    left_pairwise
  rw [← List.take_append_drop limit (left position rows after), ← items] at falls
  rw [← items] at total
  obtain ⟨within, -, across⟩ := List.pairwise_append.mp falls
  rcases Nat.eq_zero_or_pos ((serve position limit rows after).items.countP (standsAt position p))
    with zero | pos
  · -- The row is among those the page leaves, so the page ends in front of it.
    have rest : 0 < ((left position rows after).drop limit).countP (standsAt position p) := by omega
    obtain ⟨row, inRest, eq⟩ := List.countP_pos_iff.mp rest
    have more : limit < (left position rows after).length := by
      have := List.length_pos_of_mem inRest
      rw [List.length_drop] at this
      omega
    obtain ⟨q, next⟩ := next_of_more some' more
    obtain ⟨-, front, last, shape, rfl⟩ := exists_of_next next
    refine .inr ⟨zero, position last, next, ?_⟩
    have inItems : last ∈ (serve position limit rows after).items := by simp [shape]
    intro q isLast
    obtain rfl := Option.mem_some_iff.mp isLast
    refine lt_of_le_of_ne ?_ fun same => ?_
    · rw [← standsAt_iff.mp eq]
      exact across last inItems row inRest
    · exact List.countP_eq_zero.mp zero last inItems (standsAt_iff.mpr same.symm)
  · obtain ⟨row, inItems, eq⟩ := List.countP_pos_iff.mp pos
    refine .inl ⟨by omega, fun q next isBehind => ?_⟩
    obtain ⟨-, front, last, shape, rfl⟩ := exists_of_next next
    have ahead : position last ≤ position row := by
      rw [shape] at within inItems
      rcases List.mem_append.mp inItems with inFront | isLast
      · exact (List.pairwise_append.mp within).2.2 row inFront last (List.mem_singleton_self last)
      · rw [List.mem_singleton.mp isLast]
    rw [standsAt_iff.mp eq] at ahead
    exact absurd (isBehind (position last) rfl) (not_lt.mpr ahead)

/-- A row that stands at one position whenever a page is asked for is served once, if it is behind
the position the walk starts from, and not at all otherwise. -/
theorem Walk.served_once (walk : Walk position after moments pages)
    (some' : ∀ m ∈ moments, 0 < m.limit)
    (once : ∀ m ∈ moments, m.rows.countP (standsAt position p) = 1) :
    pages.flatten.countP (standsAt position p) = if IsBehind after p then 1 else 0 := by
  induction walk with
  | @last after m next =>
      rw [List.flatten_singleton]
      by_cases behind : IsBehind after p
      · rw [if_pos behind]
        rcases serve_cases (some' m (by simp)) (once m (by simp)) behind with
          ⟨one, -⟩ | ⟨-, q, other, -⟩
        · exact one
        · rw [next] at other
          cases other
      · rw [if_neg behind]
        exact countP_items_of_not_behind behind
  | @more after m q moments pages next rest ih =>
      have ih := ih (fun m isIn => some' m (by simp [isIn])) (fun m isIn => once m (by simp [isIn]))
      rw [List.flatten_cons, List.countP_append, ih]
      by_cases behind : IsBehind after p
      · rw [if_pos behind]
        rcases serve_cases (some' m (by simp)) (once m (by simp)) behind with
          ⟨one, passed⟩ | ⟨zero, q', other, still⟩
        · rw [one, if_neg (passed q next)]
        · rw [next] at other
          obtain rfl := Option.some.inj other
          rw [zero, if_pos still]
      · rw [countP_items_of_not_behind behind, if_neg behind, if_neg]
        -- Behind the end of this page is behind its start.
        intro still
        exact behind fun start isStart =>
          (still q rfl).trans (behind_of_next next start isStart)

/-! ## The whole walk -/

/-- Rows are served in the order of the list, each behind the start. -/
theorem Walk.falling (walk : Walk position after moments pages)
    (distinct : ∀ m ∈ moments, m.rows.Pairwise fun a b => position a ≠ position b) :
    (pages.flatten.Pairwise fun a b => position b < position a) ∧
      ∀ row ∈ pages.flatten, IsBehind after (position row) := by
  have page : ∀ (after : Option κ) (m : Moment ρ),
      (m.rows.Pairwise fun a b => position a ≠ position b) →
      (serve position m.limit m.rows after).items.Pairwise fun a b => position b < position a :=
    fun after m apart => (left_falling apart).sublist (List.take_sublist ..)
  induction walk with
  | @last after m next =>
      rw [List.flatten_singleton]
      exact ⟨page after m (distinct m (by simp)), fun row isIn => (mem_items isIn).2⟩
  | @more after m q moments pages next rest ih =>
      obtain ⟨falls, behind⟩ := ih fun m isIn => distinct m (by simp [isIn])
      obtain ⟨-, front, last, shape, eq⟩ := exists_of_next next
      obtain rfl := eq
      have falls' := page after m (distinct m (by simp))
      have ends : ∀ row ∈ (serve position m.limit m.rows after).items,
          position last ≤ position row := by
        intro row isIn
        rw [shape] at falls' isIn
        rcases List.mem_append.mp isIn with inFront | isLast
        · exact ((List.pairwise_append.mp falls').2.2 row inFront last
            (List.mem_singleton_self last)).le
        · rw [List.mem_singleton.mp isLast]
      rw [List.flatten_cons]
      refine ⟨List.pairwise_append.mpr ⟨falls', falls, ?_⟩, ?_⟩
      · intro a inPage b inRest
        exact (behind b inRest (position last) rfl).trans_le (ends a inPage)
      · intro row isIn
        rcases List.mem_append.mp isIn with inPage | inRest
        · exact (mem_items inPage).2
        · exact fun start isStart =>
            (behind row inRest _ rfl).trans (behind_of_next next start isStart)

/-- A row of a page is a row of its moment. -/
theorem Walk.mem (walk : Walk position after moments pages) {row : ρ}
    (served : row ∈ pages.flatten) : ∃ m ∈ moments, row ∈ m.rows := by
  induction walk with
  | @last after m next =>
      rw [List.flatten_singleton] at served
      exact ⟨m, by simp, (mem_items served).1⟩
  | @more after m q moments pages next rest ih =>
      rcases List.mem_append.mp served with inPage | inRest
      · exact ⟨m, by simp, (mem_items inPage).1⟩
      · obtain ⟨m', isIn, here⟩ := ih inRest
        exact ⟨m', by simp [isIn], here⟩

/-- What a page leaves is what is behind its end. -/
theorem left_of_next (distinct : rows.Pairwise fun a b => position a ≠ position b)
    (next : (serve position limit rows after).next = some p) :
    left position rows (some p) = (left position rows after).drop limit := by
  obtain ⟨-, front, last, shape, eq⟩ := exists_of_next next
  have inside : left position rows (some p) =
      (left position rows after).filter fun row => IsBehind (some p) (position row) := by
    unfold left
    rw [List.filter_filter]
    refine List.filter_congr fun row _ => ?_
    rw [← Bool.decide_and]
    refine decide_eq_decide.mpr ⟨fun behind => ⟨behind, fun start isStart => ?_⟩, And.left⟩
    exact (behind p rfl).trans (behind_of_next next start isStart)
  have falls : (left position rows after).Pairwise fun a b => position b < position a :=
    left_falling distinct
  rw [← List.take_append_drop limit (left position rows after)] at falls
  obtain ⟨within, -, across⟩ := List.pairwise_append.mp falls
  have items : (serve position limit rows after).items = (left position rows after).take limit := rfl
  rw [← items] at within across
  rw [shape] at within
  rw [inside, ← List.take_append_drop limit (left position rows after), List.filter_append,
    List.filter_eq_nil_iff.mpr, List.nil_append, List.filter_eq_self.mpr]
  · rw [List.take_append_drop]
  · intro row inRest
    refine decide_eq_true fun start isStart => ?_
    obtain rfl := Option.mem_some_iff.mp isStart
    rw [← eq]
    exact across last (by simp [shape]) row inRest
  · intro row inItems
    rw [← items, shape] at inItems
    intro behind
    have below : position row < position last := (of_decide_eq_true behind) (position last) (eq ▸ rfl)
    rcases List.mem_append.mp inItems with inFront | isLast
    · exact lt_asymm below
        ((List.pairwise_append.mp within).2.2 row inFront last (List.mem_singleton_self last))
    · rw [List.mem_singleton.mp isLast] at below
      exact lt_irrefl _ below

/-- Over rows that stay the same the pages make up the list. -/
theorem Walk.eq_left (walk : Walk position after moments pages)
    (distinct : rows.Pairwise fun a b => position a ≠ position b)
    (still : ∀ m ∈ moments, m.rows = rows ∧ 0 < m.limit) :
    pages.flatten = left position rows after := by
  induction walk with
  | @last after m next =>
      obtain ⟨rfl, some'⟩ := still m (by simp)
      rw [List.flatten_singleton]
      refine List.take_of_length_le (not_lt.mp fun more => ?_)
      obtain ⟨q, other⟩ := next_of_more some' more
      rw [next] at other
      cases other
  | @more after m q moments pages next rest ih =>
      obtain ⟨rfl, -⟩ := still m (by simp)
      rw [List.flatten_cons, ih fun m isIn => still m (by simp [isIn]), left_of_next distinct next]
      exact List.take_append_drop ..

/-- Pages of a size that is not zero come to an end. -/
theorem exists_walk (distinct : rows.Pairwise fun a b => position a ≠ position b)
    (some' : 0 < limit) (after : Option κ) :
    ∃ moments pages, Walk position after moments pages ∧ ∀ m ∈ moments, m = ⟨rows, limit⟩ := by
  induction size : (left position rows after).length using Nat.strong_induction_on
    generalizing after with
  | h n ih =>
      cases next : (serve position limit rows after).next with
      | none => exact ⟨[⟨rows, limit⟩], _, .last next, by simp⟩
      | some q =>
          have shorter : (left position rows (some q)).length < n := by
            have more := (exists_of_next next).1
            rw [left_of_next distinct next, List.length_drop]
            omega
          obtain ⟨moments, pages, walk, still⟩ := ih _ shorter (some q) rfl
          exact ⟨⟨rows, limit⟩ :: moments, _, .more next walk, by simpa using still⟩

end KeysetPaging
