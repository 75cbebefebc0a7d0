import Everdict.Double
import Everdict.Sorting

/-!
# `Array.prototype.sort` with a comparator

The language settles what a sort returns where the comparator is consistent on the elements:
the stable sort.  Elsewhere the order is the engine's, and only the elements are known
(`ArraySort`).  A comparator that agrees with a key sorts by that key (`run_eq_sortBy`).
-/

open Double

variable {α : Type*}

/-- The requirements on a comparator, for the elements of a list. -/
structure Consistent (compare : α → α → Number) (l : List α) : Prop where
  number : ∀ a ∈ l, ∀ b ∈ l, compare a b ≠ .nan
  refl : ∀ a ∈ l, compare a a = .finite 0
  symm : ∀ a ∈ l, ∀ b ∈ l, compare a b = .finite 0 → compare b a = .finite 0
  trans : ∀ a ∈ l, ∀ b ∈ l, ∀ c ∈ l,
    compare a b = .finite 0 → compare b c = .finite 0 → compare a c = .finite 0
  less : ∀ a ∈ l, ∀ b ∈ l, ∀ c ∈ l, (compare a b).negative = true →
    (compare b c).negative = true → (compare a c).negative = true
  greater : ∀ a ∈ l, ∀ b ∈ l, ∀ c ∈ l, (compare a b).positive = true →
    (compare b c).positive = true → (compare a c).positive = true

/-- The stable sort: an element goes before the first it is not greater than. -/
def stableSort (compare : α → α → Number) (l : List α) : List α :=
  l.insertionSort fun a b => (compare a b).positive = false

/-- What the language says of an engine's sort. -/
structure ArraySort (α : Type*) where
  run : (α → α → Number) → List α → List α
  perm : ∀ compare l, (run compare l).Perm l
  settled : ∀ compare l, Consistent compare l → run compare l = stableSort compare l

namespace ArraySort

/-- An engine that sorts by insertion. -/
def insertion : ArraySort α where
  run := stableSort
  perm := fun _ l => List.perm_insertionSort _ l
  settled := fun _ _ _ => rfl

variable {κ : Type*} [LinearOrder κ] {compare : α → α → Number} {key : α → κ} {l : List α}

/-- The comparator of two elements has the sign of their keys. -/
structure Agrees (compare : α → α → Number) (key : α → κ) (l : List α) : Prop where
  negative : ∀ a ∈ l, ∀ b ∈ l, (compare a b).negative = true ↔ key a < key b
  positive : ∀ a ∈ l, ∀ b ∈ l, (compare a b).positive = true ↔ key b < key a
  zero : ∀ a ∈ l, ∀ b ∈ l, compare a b = .finite 0 ↔ key a = key b
  number : ∀ a ∈ l, ∀ b ∈ l, compare a b ≠ .nan

/-- It is enough that the difference falls, vanishes and rises with the keys. -/
theorem Agrees.of_order
    (less : ∀ a ∈ l, ∀ b ∈ l, key a < key b → ∃ d : ℤ, compare a b = .finite d ∧ d < 0)
    (same : ∀ a ∈ l, ∀ b ∈ l, key a = key b → compare a b = .finite 0)
    (greater : ∀ a ∈ l, ∀ b ∈ l, key b < key a → ∃ d : ℤ, compare a b = .finite d ∧ 0 < d) :
    Agrees compare key l := by
  have cases : ∀ a ∈ l, ∀ b ∈ l, ∃ d : ℤ, compare a b = .finite d ∧
      (d < 0 ↔ key a < key b) ∧ (0 < d ↔ key b < key a) ∧ (d = 0 ↔ key a = key b) := by
    intro a ina b inb
    rcases lt_trichotomy (key a) (key b) with lt | eq | gt
    · obtain ⟨d, value, neg⟩ := less a ina b inb lt
      exact ⟨d, value, iff_of_true neg lt, iff_of_false neg.not_gt lt.not_gt,
        iff_of_false neg.ne lt.ne⟩
    · exact ⟨0, same a ina b inb eq, iff_of_false (lt_irrefl 0) eq.not_lt,
        iff_of_false (lt_irrefl 0) eq.not_gt, iff_of_true rfl eq⟩
    · obtain ⟨d, value, pos⟩ := greater a ina b inb gt
      exact ⟨d, value, iff_of_false pos.not_gt gt.not_gt, iff_of_true pos gt,
        iff_of_false pos.ne' gt.ne'⟩
  constructor
  · intro a ina b inb
    obtain ⟨d, value, neg, -, -⟩ := cases a ina b inb
    rw [value, ← neg, Number.negative, decide_eq_true_eq]
  · intro a ina b inb
    obtain ⟨d, value, -, pos, -⟩ := cases a ina b inb
    rw [value, ← pos, Number.positive, decide_eq_true_eq]
  · intro a ina b inb
    obtain ⟨d, value, -, -, zero⟩ := cases a ina b inb
    rw [value, ← zero, Number.finite.injEq]
  · intro a ina b inb nan
    obtain ⟨d, value, -, -, -⟩ := cases a ina b inb
    rw [value] at nan
    cases nan

theorem Agrees.consistent (agrees : Agrees compare key l) : Consistent compare l where
  number := agrees.number
  refl := fun a isIn => (agrees.zero a isIn a isIn).mpr rfl
  symm := by
    intro a ina b inb eq
    exact (agrees.zero b inb a ina).mpr ((agrees.zero a ina b inb).mp eq).symm
  trans := by
    intro a ina b inb c inc ab bc
    exact (agrees.zero a ina c inc).mpr
      (((agrees.zero a ina b inb).mp ab).trans ((agrees.zero b inb c inc).mp bc))
  less := by
    intro a ina b inb c inc ab bc
    exact (agrees.negative a ina c inc).mpr
      (((agrees.negative a ina b inb).mp ab).trans ((agrees.negative b inb c inc).mp bc))
  greater := by
    intro a ina b inb c inc ab bc
    exact (agrees.positive a ina c inc).mpr
      (((agrees.positive b inb c inc).mp bc).trans ((agrees.positive a ina b inb).mp ab))

theorem run_eq_sortBy (sort : ArraySort α) (agrees : Agrees compare key l) :
    sort.run compare l = Sorting.sortBy key l := by
  rw [sort.settled compare l agrees.consistent]
  have same := List.map_insertionSort (fun a b => (compare a b).positive = false)
    (fun a b => key a ≤ key b) id l (by
      intro a ina b inb
      rw [id_eq, id_eq, ← not_lt, ← agrees.positive a ina b inb, Bool.not_eq_true])
  rwa [List.map_id, List.map_id] at same

end ArraySort
