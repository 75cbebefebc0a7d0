import Mathlib.Algebra.Field.Rat
import Mathlib.Algebra.Order.Field.Rat
import Mathlib.Data.List.Perm.Basic
import Mathlib.Logic.Function.Basic
import Mathlib.Tactic.Common

/-!
# Weighted fair queueing

`FairQueue` hands every item a virtual finish time and keeps its nodes in that
order.  The times are the code's doubles: a quotient and a sum are rounded, by a
`Rounding` that the results about any queue leave open.  What its operations do to
the items that wait is said by `enqueue_perm`, `promote_perm` and `remove_perm`.
-/

namespace Everdict.Placement

/-- How a number that no double has is rounded to one. -/
structure Rounding where
  round : ℚ → ℚ
  monotone : Monotone round
  round_round : ∀ x, round (round x) = round x
  round_zero : round 0 = 0

/-- Numbers that are kept as they are. -/
def Rounding.exact : Rounding where
  round := id
  monotone := monotone_id
  round_round _ := rfl
  round_zero := rfl

structure FairNode (α : Type) where
  item : α
  tenant : String
  vf : ℚ
  seq : Int
  deriving DecidableEq

structure FairQueueOptions (α : Type) where
  tenantOf : α → String
  /-- The weight of a tenant; 1 where none is configured. -/
  weightFor : String → ℚ := fun _ => 1

structure FairQueue (α : Type) where
  nodes : List (FairNode α)
  lastVf : String → ℚ
  vclock : ℚ
  seq : Int

namespace FairQueue

variable {α : Type}

def empty : FairQueue α := ⟨[], fun _ => 0, 0, 0⟩

def size (q : FairQueue α) : Nat := q.nodes.length

/-- The items in fair order; the nodes are kept sorted. -/
def ordered (q : FairQueue α) : List α := q.nodes.map FairNode.item

/-- The first node between `lo` and `hi` with a finish time after `vf`, by binary
search.  Each round halves the window, so the length of the list is fuel enough. -/
def insertionPoint (nodes : List (FairNode α)) (vf : ℚ) : Nat → Nat → Nat → Nat
  | 0, lo, _ => lo
  | fuel + 1, lo, hi =>
      if lo < hi then
        let mid := (lo + hi) / 2
        if (nodes[mid]?).any fun node => node.vf ≤ vf then
          insertionPoint nodes vf fuel (mid + 1) hi
        else insertionPoint nodes vf fuel lo mid
      else lo

def enqueueRounded (arith : Rounding) (opts : FairQueueOptions α) (item : α) (q : FairQueue α) :
    FairQueue α :=
  let tenant := opts.tenantOf item
  let weight := max (arith.round (1 / 1000000000)) (opts.weightFor tenant)
  let start := max q.vclock (q.lastVf tenant)
  let vf := arith.round (start + arith.round (1 / weight))
  let lo := insertionPoint q.nodes vf (q.nodes.length + 1) 0 q.nodes.length
  -- `splice` past the end inserts at the end
  { nodes := q.nodes.insertIdx (min lo q.nodes.length) ⟨item, tenant, vf, q.seq⟩
    lastVf := Function.update q.lastVf tenant vf
    vclock := q.vclock
    seq := q.seq + 1 }

/-- The queue with exact virtual times. -/
def enqueue (opts : FairQueueOptions α) (item : α) (q : FairQueue α) : FairQueue α :=
  q.enqueueRounded .exact opts item

variable [DecidableEq α]

def nodeOf (item : α) (q : FairQueue α) : Option (FairNode α) :=
  q.nodes.find? fun node => node.item = item

/-- The nodes without the first one of an item. -/
def without (item : α) (q : FairQueue α) : List (FairNode α) :=
  q.nodes.eraseP fun node => node.item = item

/-- Move an item to the front: it takes the head's time with a smaller number.
The fairness accounts are left alone. -/
def promote (item : α) (q : FairQueue α) : Bool × FairQueue α :=
  match q.nodeOf item with
  | none => (false, q)
  | some node =>
      if q.nodes.findIdx (fun node => node.item = item) = 0 then (true, q)
      else
        match q.without item with
        | [] => (true, { q with nodes := [node] })
        | head :: rest =>
            (true, { q with nodes := { node with vf := head.vf, seq := head.seq - 1 } :: head :: rest })

/-- Take an item out and advance the virtual clock to its finish time. -/
def remove (item : α) (q : FairQueue α) : Bool × FairQueue α :=
  match q.nodeOf item with
  | none => (false, q)
  | some node => (true, { q with nodes := q.without item, vclock := max q.vclock node.vf })

/-- How many items of each tenant wait. -/
def queuedByTenant (q : FairQueue α) (tenant : String) : Nat :=
  q.nodes.countP fun node => node.tenant = tenant

/-! ## The items that wait -/

variable {q : FairQueue α} {item : α}

omit [DecidableEq α] in
theorem ordered_length : q.ordered.length = q.size := by
  simp [ordered, size]

omit [DecidableEq α] in
theorem enqueueRounded_perm (arith : Rounding) (opts : FairQueueOptions α) :
    (q.enqueueRounded arith opts item).ordered.Perm (item :: q.ordered) := by
  have inserted (node : FairNode α) (i : Nat) :
      (q.nodes.insertIdx (min i q.nodes.length) node).Perm (node :: q.nodes) :=
    List.perm_insertIdx _ _ (Nat.min_le_right _ _)
  exact (inserted _ _).map FairNode.item

omit [DecidableEq α] in
theorem enqueue_perm (opts : FairQueueOptions α) :
    (q.enqueue opts item).ordered.Perm (item :: q.ordered) := enqueueRounded_perm .exact opts

omit [DecidableEq α] in
theorem mem_enqueueRounded {arith : Rounding} {opts : FairQueueOptions α} {x : α} :
    x ∈ (q.enqueueRounded arith opts item).ordered ↔ x = item ∨ x ∈ q.ordered := by
  rw [(enqueueRounded_perm arith opts).mem_iff, List.mem_cons]

omit [DecidableEq α] in
theorem mem_enqueue {opts : FairQueueOptions α} {x : α} :
    x ∈ (q.enqueue opts item).ordered ↔ x = item ∨ x ∈ q.ordered := mem_enqueueRounded

theorem nodeOf_isSome_iff : (q.nodeOf item).isSome = true ↔ item ∈ q.ordered := by
  simp [nodeOf, ordered]

theorem nodeOf_item {node : FairNode α} (found : q.nodeOf item = some node) :
    node.item = item := by
  simpa using List.find?_some found

/-- Taking a node out takes its item out. -/
theorem without_items : (q.without item).map FairNode.item = q.ordered.erase item := by
  simp only [without, ordered]
  induction q.nodes with
  | nil => rfl
  | cons node nodes ih =>
      by_cases hit : node.item = item
      · simp [hit]
      · simp [hit, ih]

theorem remove_fst : (q.remove item).1 = true ↔ item ∈ q.ordered := by
  rw [← nodeOf_isSome_iff, remove]
  cases q.nodeOf item <;> simp

theorem remove_ordered : (q.remove item).2.ordered = q.ordered.erase item := by
  rw [remove]
  split
  · next none =>
      have absent : item ∉ q.ordered := by
        rw [← nodeOf_isSome_iff, none]
        simp
      exact (List.erase_of_not_mem absent).symm
  · exact without_items

theorem promote_perm : (q.promote item).2.ordered.Perm q.ordered := by
  rw [promote]
  split
  · exact .refl _
  · next node found =>
      have item_eq := nodeOf_item found
      have waits : item ∈ q.ordered := nodeOf_isSome_iff.mp (by simp [found])
      have moved : (item :: (q.without item).map FairNode.item).Perm q.ordered := by
        rw [without_items]
        exact (List.perm_cons_erase waits).symm
      split
      · exact .refl _
      · split
        · next alone => simpa [ordered, alone, item_eq] using moved
        · next head rest split => simpa [ordered, split, item_eq] using moved

theorem mem_promote {x : α} : x ∈ (q.promote item).2.ordered ↔ x ∈ q.ordered :=
  promote_perm.mem_iff

theorem mem_remove (nodup : q.ordered.Nodup) {x : α} :
    x ∈ (q.remove item).2.ordered ↔ x ∈ q.ordered ∧ x ≠ item := by
  rw [remove_ordered, nodup.mem_erase_iff, and_comm]

theorem remove_subset {x : α} (mem : x ∈ (q.remove item).2.ordered) : x ∈ q.ordered := by
  rw [remove_ordered] at mem
  exact List.mem_of_mem_erase mem

end FairQueue

end Everdict.Placement
