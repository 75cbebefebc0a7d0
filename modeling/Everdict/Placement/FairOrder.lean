import Everdict.Placement.FairQueue
import Mathlib.Data.Rat.Floor
import Mathlib.Tactic.FieldSimp
import Mathlib.Tactic.Linarith

/-!
# The order of a fair queue

`enqueue` finds its place by binary search: the nodes before it finish no later
than the new one and those after it finish later (`enqueue_nodes`).  So the nodes
stay sorted, and points that lie `d` apart within a stretch of length `l` are at most
`⌊l / d⌋ + 1` (`length_le_of_spaced`).  However times are rounded, no item finishes
before it starts (`start_le_nodeFor`).
-/

namespace Everdict.Placement

/-! ## Points that keep a distance -/

theorem span_of_spaced {d lo hi : ℚ} {xs : List ℚ} (spaced : xs.Pairwise fun a b => a + d ≤ b)
    (within : ∀ x ∈ xs, lo ≤ x ∧ x ≤ hi) (room : lo ≤ hi + d) :
    (xs.length : ℚ) * d ≤ hi - lo + d := by
  induction xs generalizing lo with
  | nil =>
      simp only [List.length_nil, Nat.cast_zero, zero_mul]
      linarith
  | cons x xs ih =>
      obtain ⟨apart, spaced⟩ := List.pairwise_cons.mp spaced
      have first := within x List.mem_cons_self
      have rest : (xs.length : ℚ) * d ≤ hi - (lo + d) + d := by
        apply ih spaced
        · intro y mem
          have := apart y mem
          exact ⟨by linarith, (within y (List.mem_cons_of_mem x mem)).2⟩
        · linarith
      simp only [List.length_cons, Nat.cast_add, Nat.cast_one]
      linarith

theorem length_le_of_spaced {d l lo : ℚ} {xs : List ℚ} (positive : 0 < d) (length : 0 ≤ l)
    (spaced : xs.Pairwise fun a b => a + d ≤ b) (within : ∀ x ∈ xs, lo ≤ x ∧ x ≤ lo + l) :
    xs.length ≤ ⌊l / d⌋₊ + 1 := by
  have span : (xs.length : ℚ) * d ≤ lo + l - lo + d :=
    span_of_spaced spaced within (by linarith)
  have share : ((xs.length - 1 : Nat) : ℚ) ≤ l / d := by
    rw [le_div_iff₀ positive]
    rcases count : xs.length with _ | n
    · simpa using length
    · rw [count] at span
      push_cast at span
      rw [Nat.add_sub_cancel]
      linarith
  have floor := Nat.le_floor share
  omega

/-! ## The place of a new node -/

namespace FairQueue

variable {α : Type}

/-- Where the place of a finish time can still be. -/
structure Window (nodes : List (FairNode α)) (vf : ℚ) (lo hi : Nat) : Prop where
  le : lo ≤ hi
  bound : hi ≤ nodes.length
  before : ∀ node ∈ nodes.take lo, node.vf ≤ vf
  after : ∀ node ∈ nodes.drop hi, vf < node.vf

/-- The nodes are in the order of their finish times. -/
def Sorted (nodes : List (FairNode α)) : Prop := nodes.Pairwise fun a b => a.vf ≤ b.vf

theorem insertionPoint_window {nodes : List (FairNode α)} {vf : ℚ} {fuel lo hi : Nat}
    (sorted : Sorted nodes) (window : Window nodes vf lo hi) (enough : hi - lo ≤ fuel) :
    Window nodes vf (insertionPoint nodes vf fuel lo hi)
      (insertionPoint nodes vf fuel lo hi) := by
  induction fuel generalizing lo hi with
  | zero =>
      obtain rfl : lo = hi := by
        have := window.le
        omega
      exact window
  | succ fuel ih =>
      unfold insertionPoint
      by_cases wide : lo < hi
      swap
      · obtain rfl : lo = hi := by
          have := window.le
          omega
        rw [if_neg wide]
        exact window
      rw [if_pos wide]
      dsimp only
      have inside : (lo + hi) / 2 < nodes.length := by
        have := window.bound
        omega
      rw [List.getElem?_eq_getElem inside, Option.any_some]
      have split : nodes = nodes.take ((lo + hi) / 2) ++
          nodes[(lo + hi) / 2] :: nodes.drop ((lo + hi) / 2 + 1) := by
        rw [List.cons_getElem_drop_succ, List.take_append_drop]
      have ordered := sorted
      unfold Sorted at ordered
      rw [split, List.pairwise_append, List.pairwise_cons] at ordered
      obtain ⟨-, ⟨later, -⟩, earlier⟩ := ordered
      by_cases past : nodes[(lo + hi) / 2].vf ≤ vf
      · rw [if_pos (decide_eq_true past)]
        apply ih ⟨by omega, window.bound, ?_, window.after⟩ (by omega)
        intro node mem
        rw [List.take_succ_eq_append_getElem inside, List.mem_append, List.mem_singleton] at mem
        rcases mem with mem | rfl
        · exact (earlier node mem _ List.mem_cons_self).trans past
        · exact past
      · rw [if_neg (by simpa using past)]
        apply ih ⟨by omega, by omega, window.before, ?_⟩ (by omega)
        intro node mem
        rw [List.drop_eq_getElem_cons inside, List.mem_cons] at mem
        rcases mem with here | mem
        · rw [here]
          exact not_le.mp past
        · exact (not_le.mp past).trans_le (later node mem)

theorem insertIdx_eq_split {β : Type} (x : β) {xs : List β} {i : Nat} (bound : i ≤ xs.length) :
    xs.insertIdx i x = xs.take i ++ x :: xs.drop i := by
  induction xs generalizing i with
  | nil =>
      obtain rfl : i = 0 := by simpa using bound
      rfl
  | cons y xs ih =>
      rcases i with _ | i
      · rfl
      · simp [ih (by simpa using bound)]

/-- The weight the queue counts with. -/
def weight (opts : FairQueueOptions α) (tenant : String) : ℚ :=
  max (1 / 1000000000) (opts.weightFor tenant)

theorem weight_pos (opts : FairQueueOptions α) (tenant : String) : 0 < weight opts tenant :=
  lt_of_lt_of_le (by norm_num) (le_max_left _ _)

/-- Where the time of a tenant's next item starts. -/
def start (q : FairQueue α) (tenant : String) : ℚ := max q.vclock (q.lastVf tenant)

/-- The node that an item gets. -/
def nodeFor (arith : Rounding) (opts : FairQueueOptions α) (q : FairQueue α) (item : α) :
    FairNode α where
  item := item
  tenant := opts.tenantOf item
  vf := arith.round (q.start (opts.tenantOf item) +
    arith.round (1 / max (arith.round (1 / 1000000000)) (opts.weightFor (opts.tenantOf item))))
  seq := q.seq

theorem nodeFor_exact_vf (opts : FairQueueOptions α) (q : FairQueue α) (item : α) :
    (nodeFor .exact opts q item).vf =
      q.start (opts.tenantOf item) + 1 / weight opts (opts.tenantOf item) := rfl

theorem enqueue_nodes (arith : Rounding) (opts : FairQueueOptions α) {q : FairQueue α} (item : α)
    (sorted : Sorted q.nodes) :
    ∃ front back, q.nodes = front ++ back ∧
      (q.enqueueRounded arith opts item).nodes = front ++ nodeFor arith opts q item :: back ∧
      (∀ node ∈ front, node.vf ≤ (nodeFor arith opts q item).vf) ∧
      ∀ node ∈ back, (nodeFor arith opts q item).vf < node.vf := by
  have whole : Window q.nodes (nodeFor arith opts q item).vf 0 q.nodes.length :=
    ⟨Nat.zero_le _, le_rfl, by simp, by simp⟩
  have enough : q.nodes.length - 0 ≤ q.nodes.length + 1 := by omega
  have window := insertionPoint_window sorted whole enough
  refine ⟨_, _, (List.take_append_drop _ _).symm, ?_, window.before, window.after⟩
  rw [← insertIdx_eq_split _ window.bound]
  exact congrArg (fun i => q.nodes.insertIdx i (nodeFor arith opts q item))
    (Nat.min_eq_left window.bound)

/-! ## Rounded times -/

/-- All times of the queue are numbers that rounding keeps. -/
structure Timed (arith : Rounding) (q : FairQueue α) : Prop where
  nodes : ∀ node ∈ q.nodes, arith.round node.vf = node.vf
  accounts : ∀ tenant, arith.round (q.lastVf tenant) = q.lastVf tenant
  clock : arith.round q.vclock = q.vclock

variable {arith : Rounding} {q : FairQueue α}

theorem timed_empty : Timed arith (empty : FairQueue α) where
  nodes := by simp [empty]
  accounts _ := arith.round_zero
  clock := arith.round_zero

theorem Timed.max {x y : ℚ} (left : arith.round x = x) (right : arith.round y = y) :
    arith.round (max x y) = max x y := by
  rcases max_choice x y with eq | eq <;> rwa [eq]

/-- No step of a clock goes back. -/
theorem start_le_nodeFor (timed : Timed arith q) (opts : FairQueueOptions α) (item : α) :
    q.start (opts.tenantOf item) ≤ (nodeFor arith opts q item).vf := by
  have nonneg : ∀ x : ℚ, 0 ≤ x → 0 ≤ arith.round x := fun x le => by
    rw [← arith.round_zero]
    exact arith.monotone le
  have step : 0 ≤ arith.round
      (1 / max (arith.round (1 / 1000000000)) (opts.weightFor (opts.tenantOf item))) :=
    nonneg _ (one_div_nonneg.mpr ((nonneg _ (by norm_num)).trans (le_max_left _ _)))
  calc q.start (opts.tenantOf item)
      = arith.round (q.start (opts.tenantOf item)) :=
        (Timed.max timed.clock (timed.accounts _)).symm
    _ ≤ (nodeFor arith opts q item).vf := arith.monotone (le_add_of_nonneg_right step)

theorem Timed.enqueue (timed : Timed arith q) (opts : FairQueueOptions α) (item : α)
    (sorted : Sorted q.nodes) : Timed arith (q.enqueueRounded arith opts item) := by
  have made : arith.round (nodeFor arith opts q item).vf = (nodeFor arith opts q item).vf :=
    arith.round_round _
  obtain ⟨front, back, nodes, nodes', -, -⟩ := enqueue_nodes arith opts item sorted
  refine ⟨?_, fun tenant => ?_, timed.clock⟩
  · rw [nodes']
    intro node isIn
    rcases List.mem_append.mp isIn with isIn | isIn
    · exact timed.nodes node (nodes ▸ List.mem_append_left back isIn)
    · rcases List.mem_cons.mp isIn with rfl | isIn
      · exact made
      · exact timed.nodes node (nodes ▸ List.mem_append_right front isIn)
  · have account : (q.enqueueRounded arith opts item).lastVf tenant =
        if tenant = opts.tenantOf item then (nodeFor arith opts q item).vf else q.lastVf tenant :=
      Function.update_apply q.lastVf _ _ tenant
    rw [account]
    split
    · exact made
    · exact timed.accounts tenant

end FairQueue

end Everdict.Placement
