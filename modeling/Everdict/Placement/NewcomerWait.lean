import Everdict.Placement.FairOrder
import Everdict.Transition

/-!
# What stands before a newcomer

A `Line` is a fair queue with the items promoted so far.  Any sequence of its
operations keeps the nodes in order and every account at its tenant's last item
(`Ordered`), however times are rounded.  With exact times a tenant's other items stay a
step of its weight apart (`Fair`), so of those that a newcomer's start has not passed only
so many stand before it (`newcomer_wait`).  The start passes none while items leave in turn and the newcomer's
tenant never jumped the line.
-/

namespace Everdict.Placement

open Transition Transition.Machine FairQueue

variable {α : Type}

structure Line (α : Type) where
  queue : FairQueue α
  promoted : List α

inductive FairOp (α : Type) where
  | enqueue (item : α)
  | remove (item : α)
  | promote (item : α)
  deriving DecidableEq

namespace Line

def empty : Line α := ⟨FairQueue.empty, []⟩

variable [DecidableEq α]

def stepRounded (arith : Rounding) (opts : FairQueueOptions α) : Machine (Line α) (FairOp α) Bool
  | s, .enqueue item => some ({ s with queue := s.queue.enqueueRounded arith opts item }, true)
  | s, .remove item => some ({ s with queue := (s.queue.remove item).2 }, (s.queue.remove item).1)
  | s, .promote item =>
      some (⟨(s.queue.promote item).2,
        if (s.queue.promote item).1 then item :: s.promoted else s.promoted⟩,
        (s.queue.promote item).1)

/-- The steps with exact times. -/
def step (opts : FairQueueOptions α) : Machine (Line α) (FairOp α) Bool := stepRounded .exact opts

/-- The nodes of a tenant whose items were never promoted. -/
def own (s : Line α) (tenant : String) : List (FairNode α) :=
  s.queue.nodes.filter fun node => node.tenant = tenant ∧ node.item ∉ s.promoted

/-- The nodes are in order, under rounded times, and within the accounts of their tenants. -/
structure Ordered (arith : Rounding) (opts : FairQueueOptions α) (s : Line α) : Prop where
  timed : Timed arith s.queue
  sorted : Sorted s.queue.nodes
  tenants : ∀ node ∈ s.queue.nodes, node.tenant = opts.tenantOf node.item
  accounts : ∀ tenant, ∀ node ∈ s.own tenant, node.vf ≤ s.queue.lastVf tenant

structure Fair (opts : FairQueueOptions α) (s : Line α) : Prop extends
    Ordered .exact opts s where
  spaced : ∀ tenant,
    (s.own tenant).Pairwise fun a b => a.vf + 1 / weight opts tenant ≤ b.vf

variable {arith : Rounding} {opts : FairQueueOptions α} {s t : Line α} {item : α}
  {node : FairNode α} {tenant : String}

theorem mem_own :
    node ∈ s.own tenant ↔
      node ∈ s.queue.nodes ∧ node.tenant = tenant ∧ node.item ∉ s.promoted := by
  simp [own]

theorem ordered_empty : Ordered arith opts (empty : Line α) where
  timed := timed_empty
  sorted := List.Pairwise.nil
  tenants := by simp [empty, FairQueue.empty]
  accounts := by simp [own, empty, FairQueue.empty]

theorem fair_empty : Fair opts (empty : Line α) where
  toOrdered := ordered_empty
  spaced := by simp [own, empty, FairQueue.empty]

/-! ## What an operation leaves in order -/

theorem own_sublist (nodes : t.queue.nodes.Sublist s.queue.nodes)
    (promoted : s.promoted ⊆ t.promoted) (tenant : String) :
    (t.own tenant).Sublist (s.own tenant) := by
  refine List.Sublist.trans ?_ (nodes.filter _)
  apply List.monotone_filter_right
  intro node mine
  simp only [decide_eq_true_eq] at mine ⊢
  exact ⟨mine.1, fun before => mine.2 (promoted before)⟩

/-- Fewer nodes in the same order and under the same accounts are in order. -/
theorem Ordered.of_sublist (inOrder : Ordered arith opts s)
    (nodes : t.queue.nodes.Sublist s.queue.nodes) (promoted : s.promoted ⊆ t.promoted)
    (accounts : t.queue.lastVf = s.queue.lastVf)
    (clock : arith.round t.queue.vclock = t.queue.vclock) : Ordered arith opts t where
  timed := ⟨fun node isIn => inOrder.timed.nodes node (nodes.subset isIn),
    fun tenant => by rw [accounts, inOrder.timed.accounts], clock⟩
  sorted := List.Pairwise.sublist nodes inOrder.sorted
  tenants node isIn := inOrder.tenants node (nodes.subset isIn)
  accounts tenant node isIn := by
    rw [accounts]
    exact inOrder.accounts tenant node ((own_sublist nodes promoted tenant).subset isIn)

theorem without_sublist (q : FairQueue α) (item : α) : (q.without item).Sublist q.nodes :=
  List.eraseP_sublist

theorem remove_frame (q : FairQueue α) (item : α) :
    (q.remove item).2.nodes.Sublist q.nodes ∧ (q.remove item).2.lastVf = q.lastVf := by
  unfold FairQueue.remove
  rcases q.nodeOf item with _ | node
  · exact ⟨List.Sublist.refl _, rfl⟩
  · exact ⟨without_sublist q item, rfl⟩

theorem mem_of_nodeOf {q : FairQueue α} (found : q.nodeOf item = some node) :
    node ∈ q.nodes :=
  List.mem_of_find?_eq_some found

theorem Ordered.clock_remove (inOrder : Ordered arith opts s) (item : α) :
    arith.round (s.queue.remove item).2.vclock = (s.queue.remove item).2.vclock := by
  unfold FairQueue.remove
  rcases found : s.queue.nodeOf item with _ | node
  · exact inOrder.timed.clock
  · exact Timed.max inOrder.timed.clock (inOrder.timed.nodes node (mem_of_nodeOf found))

theorem promote_frame (q : FairQueue α) (item : α) :
    (q.promote item).2.lastVf = q.lastVf ∧ (q.promote item).2.vclock = q.vclock := by
  unfold FairQueue.promote
  rcases q.nodeOf item with _ | node
  · exact ⟨rfl, rfl⟩
  dsimp only
  split
  · exact ⟨rfl, rfl⟩
  · split <;> exact ⟨rfl, rfl⟩

/-- A promotion leaves the nodes as they are, or moves one of them to the front with the
time of another that none of them precedes. -/
theorem promote_nodes {q : FairQueue α} (sorted : Sorted q.nodes) (item : α) :
    (q.promote item).2.nodes = q.nodes ∨
      ∃ node vf seq, q.nodeOf item = some node ∧ (∀ other ∈ q.without item, vf ≤ other.vf) ∧
        (∃ other ∈ q.nodes, other.vf = vf) ∧ (q.promote item).1 = true ∧
        (q.promote item).2.nodes = { node with vf, seq } :: q.without item := by
  unfold FairQueue.promote
  rcases found : q.nodeOf item with _ | node
  · exact Or.inl rfl
  dsimp only
  split
  · exact Or.inl rfl
  right
  have order : Sorted (q.without item) := List.Pairwise.sublist (without_sublist q item) sorted
  rcases rest : q.without item with _ | ⟨head, rest⟩
  · exact ⟨node, node.vf, node.seq, rfl, by simp, ⟨node, mem_of_nodeOf found, rfl⟩, rfl, rfl⟩
  · have there : head ∈ q.nodes :=
      (without_sublist q item).subset (rest ▸ List.mem_cons_self)
    refine ⟨node, head.vf, head.seq - 1, rfl, ?_, ⟨head, there, rfl⟩, rfl, rfl⟩
    intro other mem
    rw [rest] at order
    rcases List.mem_cons.mp mem with rfl | mem
    · exact le_rfl
    · exact (List.pairwise_cons.mp order).1 other mem

theorem Ordered.remove (inOrder : Ordered arith opts s) (item : α) :
    Ordered arith opts { s with queue := (s.queue.remove item).2 } := by
  obtain ⟨nodes, accounts⟩ := remove_frame s.queue item
  exact inOrder.of_sublist nodes (List.Subset.refl _) accounts (inOrder.clock_remove item)

theorem Fair.remove (fair : Fair opts s) (item : α) :
    Fair opts { s with queue := (s.queue.remove item).2 } where
  toOrdered := fair.toOrdered.remove item
  spaced tenant := by
    have kept := own_sublist (t := ⟨(s.queue.remove item).2, s.promoted⟩)
      (remove_frame s.queue item).1 (fun _ isIn => isIn) tenant
    exact List.Pairwise.sublist kept (fair.spaced tenant)

theorem promoted_subset (item : α) :
    s.promoted ⊆ if (s.queue.promote item).1 then item :: s.promoted else s.promoted := by
  split
  · exact List.subset_cons_self item s.promoted
  · exact List.Subset.refl _

/-- A promotion takes an item out of its tenant's own, and moves no other. -/
theorem own_promote (sorted : Sorted s.queue.nodes) (item : α) (tenant : String) :
    ((⟨(s.queue.promote item).2,
      if (s.queue.promote item).1 then item :: s.promoted else s.promoted⟩ : Line α).own
        tenant).Sublist (s.own tenant) := by
  rcases promote_nodes sorted item with same | ⟨node, vf, seq, found, -, -, moved, nodes⟩
  · exact own_sublist (by rw [same]) (promoted_subset item) tenant
  · have rest : ((⟨{ s.queue with nodes := s.queue.without item },
        item :: s.promoted⟩ : Line α).own tenant).Sublist (s.own tenant) :=
      own_sublist (without_sublist s.queue item) (List.subset_cons_self item s.promoted) tenant
    have item_eq := nodeOf_item found
    rw [if_pos moved]
    simp only [own, nodes]
    rw [List.filter_cons_of_neg]
    · exact rest
    · simp [item_eq]

theorem Ordered.promote (inOrder : Ordered arith opts s) (item : α) :
    Ordered arith opts ⟨(s.queue.promote item).2,
      if (s.queue.promote item).1 then item :: s.promoted else s.promoted⟩ := by
  obtain ⟨accounts, clock⟩ := promote_frame s.queue item
  have clocked : arith.round (s.queue.promote item).2.vclock = (s.queue.promote item).2.vclock := by
    rw [clock, inOrder.timed.clock]
  have own := own_promote inOrder.sorted item
  rcases promote_nodes inOrder.sorted item with
    same | ⟨node, vf, seq, found, first, ⟨other, there, rfl⟩, -, nodes⟩
  · exact inOrder.of_sublist (by rw [same]) (promoted_subset item) accounts clocked
  -- the nodes that stay are in order as before, and the promoted one does not count
  have rest : ∀ node ∈ s.queue.without item, node ∈ s.queue.nodes := fun node isIn =>
    (without_sublist s.queue item).subset isIn
  refine ⟨⟨?_, fun tenant => ?_, clocked⟩, ?_, ?_, fun tenant node mem => ?_⟩
  · rw [nodes]
    exact List.forall_mem_cons.mpr ⟨inOrder.timed.nodes other there,
      fun node isIn => inOrder.timed.nodes node (rest node isIn)⟩
  · rw [accounts, inOrder.timed.accounts]
  · rw [nodes]
    exact List.pairwise_cons.mpr
      ⟨first, List.Pairwise.sublist (without_sublist s.queue item) inOrder.sorted⟩
  · rw [nodes]
    exact List.forall_mem_cons.mpr ⟨inOrder.tenants node (mem_of_nodeOf found),
      fun node isIn => inOrder.tenants node (rest node isIn)⟩
  · rw [accounts]
    exact inOrder.accounts tenant node ((own tenant).subset mem)

theorem Fair.promote (fair : Fair opts s) (item : α) :
    Fair opts ⟨(s.queue.promote item).2,
      if (s.queue.promote item).1 then item :: s.promoted else s.promoted⟩ where
  toOrdered := fair.toOrdered.promote item
  spaced tenant :=
    List.Pairwise.sublist (own_promote fair.sorted item tenant) (fair.spaced tenant)

/-- The new node does not come before what its tenant had queued. -/
theorem Ordered.le_nodeFor (inOrder : Ordered arith opts s) (item : α) :
    ∀ node ∈ s.own (opts.tenantOf item), node.vf ≤ (nodeFor arith opts s.queue item).vf :=
  fun node mem => ((inOrder.accounts _ node mem).trans (le_max_right _ _)).trans
    (start_le_nodeFor inOrder.timed opts item)

/-- The new node keeps its distance from what its tenant had queued. -/
theorem Fair.apart (fair : Fair opts s) (item : α) :
    ∀ node ∈ s.own (opts.tenantOf item),
      node.vf + 1 / weight opts (opts.tenantOf item) ≤ (nodeFor .exact opts s.queue item).vf := by
  intro node mem
  have account : node.vf ≤ s.queue.start (opts.tenantOf item) :=
    (fair.accounts _ node mem).trans (le_max_right _ _)
  rw [nodeFor_exact_vf]
  linarith

omit [DecidableEq α] in
theorem enqueue_lastVf (arith : Rounding) (opts : FairQueueOptions α) (q : FairQueue α) (item : α) :
    (q.enqueueRounded arith opts item).lastVf =
      Function.update q.lastVf (opts.tenantOf item) (nodeFor arith opts q item).vf := rfl

/-- The nodes of a tenant after one more item was queued. -/
theorem own_enqueue (inOrder : Ordered arith opts s) (item : α) (tenant : String) :
    (⟨s.queue.enqueueRounded arith opts item, s.promoted⟩ : Line α).own tenant =
      s.own tenant ++
        if opts.tenantOf item = tenant ∧ item ∉ s.promoted then [nodeFor arith opts s.queue item]
        else [] := by
  obtain ⟨front, back, nodes, nodes', -, after⟩ := enqueue_nodes arith opts item inOrder.sorted
  simp only [own, nodes, nodes', List.filter_append, List.filter_cons]
  by_cases counts : opts.tenantOf item = tenant ∧ item ∉ s.promoted
  · have beyond : back.filter
        (fun node => node.tenant = tenant ∧ node.item ∉ s.promoted) = [] := by
      apply List.filter_eq_nil_iff.mpr
      intro node mem mine
      have queued : node ∈ s.own (opts.tenantOf item) := by
        rw [mem_own, nodes, counts.1]
        exact ⟨List.mem_append_right front mem, by simpa using mine⟩
      exact absurd (inOrder.le_nodeFor item node queued) (not_le.mpr (after node mem))
    have mine : (nodeFor arith opts s.queue item).tenant = tenant ∧
        (nodeFor arith opts s.queue item).item ∉ s.promoted := counts
    rw [if_pos (decide_eq_true mine), if_pos counts, beyond, List.append_nil]
  · have other : ¬ ((nodeFor arith opts s.queue item).tenant = tenant ∧
        (nodeFor arith opts s.queue item).item ∉ s.promoted) := counts
    rw [if_neg (by simpa using other), if_neg counts, List.append_nil]

theorem Ordered.enqueue (inOrder : Ordered arith opts s) (item : α) :
    Ordered arith opts { s with queue := s.queue.enqueueRounded arith opts item } := by
  obtain ⟨front, back, nodes, nodes', before, after⟩ :=
    enqueue_nodes arith opts item inOrder.sorted
  refine ⟨inOrder.timed.enqueue opts item inOrder.sorted, ?_, ?_, ?_⟩
  · have sorted := inOrder.sorted
    unfold Sorted at sorted ⊢
    rw [nodes, List.pairwise_append] at sorted
    rw [nodes', List.pairwise_append, List.pairwise_cons]
    refine ⟨sorted.1, ⟨fun node mem => (after node mem).le, sorted.2.1⟩, ?_⟩
    intro node mem other mem'
    rcases List.mem_cons.mp mem' with rfl | mem'
    · exact before node mem
    · exact sorted.2.2 node mem other mem'
  · intro node mem
    rw [nodes'] at mem
    rcases List.mem_append.mp mem with mem | mem
    · exact inOrder.tenants node (nodes ▸ List.mem_append_left back mem)
    · rcases List.mem_cons.mp mem with rfl | mem
      · rfl
      · exact inOrder.tenants node (nodes ▸ List.mem_append_right front mem)
  · intro tenant node mem
    rw [own_enqueue inOrder, List.mem_append] at mem
    rw [enqueue_lastVf, Function.update_apply]
    by_cases same : tenant = opts.tenantOf item
    · rw [if_pos same]
      rcases mem with mem | mem
      · exact inOrder.le_nodeFor item node (same ▸ mem)
      · split at mem
        · rw [List.mem_singleton.mp mem]
        · cases mem
    · rw [if_neg same]
      rcases mem with mem | mem
      · exact inOrder.accounts tenant node mem
      · rw [if_neg (fun counts => same counts.1.symm)] at mem
        cases mem

theorem Fair.enqueue (fair : Fair opts s) (item : α) :
    Fair opts { s with queue := s.queue.enqueue opts item } where
  toOrdered := fair.toOrdered.enqueue item
  spaced := by
    intro tenant
    rw [FairQueue.enqueue, own_enqueue fair.toOrdered, List.pairwise_append]
    refine ⟨fair.spaced tenant, ?_, ?_⟩
    · split
      · exact List.pairwise_singleton _ _
      · exact List.Pairwise.nil
    · intro node mem other mem'
      split at mem'
      · next counts =>
          rw [List.mem_singleton.mp mem', ← counts.1]
          exact fair.apart item node (counts.1 ▸ mem)
      · cases mem'

theorem fair_of_reachable {ok : Line α → FairOp α → Prop}
    (reachable : Reachable (step opts) ok empty s) : Fair opts s := by
  obtain ⟨log, run⟩ := reachable
  apply run.state_invariant fair_empty
  intro s op t o fair _ eq
  cases op with
  | enqueue item =>
      obtain ⟨rfl, -⟩ := by simpa [step, stepRounded] using eq
      exact fair.enqueue item
  | remove item =>
      obtain ⟨rfl, -⟩ := by simpa [step, stepRounded] using eq
      exact fair.remove item
  | promote item =>
      obtain ⟨rfl, -⟩ := by simpa [step, stepRounded] using eq
      exact fair.promote item

/-! ## What stands before a newcomer -/

/-- How many items of a tenant, never promoted, stand before an item in `ordered()`
once it is enqueued. -/
def ahead (opts : FairQueueOptions α) (s : Line α) (item : α) (tenant : String) : Nat :=
  ((s.queue.enqueue opts item).ordered.takeWhile fun other => other ≠ item).countP
    fun other => opts.tenantOf other = tenant ∧ other ∉ s.promoted

/-- How many of them the newcomer's start has passed. -/
def passed (opts : FairQueueOptions α) (s : Line α) (item : α) (tenant : String) : Nat :=
  (s.own tenant).countP fun node => node.vf < s.queue.start (opts.tenantOf item)

/-- Nothing of the item's tenant is queued. -/
def Idle (opts : FairQueueOptions α) (s : Line α) (item : α) : Prop :=
  ∀ other ∈ s.queue.ordered, opts.tenantOf other ≠ opts.tenantOf item

theorem ahead_eq (fair : Fair opts s) (idle : Idle opts s item) (tenant : String) :
    ∃ front : List (FairNode α), front.Sublist (s.own tenant) ∧ ahead opts s item tenant = front.length ∧
      ∀ node ∈ front, node.vf ≤ (nodeFor .exact opts s.queue item).vf := by
  obtain ⟨front, back, nodes, nodes', before, -⟩ := enqueue_nodes .exact opts item fair.sorted
  have counted : front.countP (fun node =>
        opts.tenantOf node.item = tenant ∧ node.item ∉ s.promoted) =
      (front.filter fun node => node.tenant = tenant ∧ node.item ∉ s.promoted).length := by
    rw [← List.countP_eq_length_filter]
    apply List.countP_congr
    intro node mem
    rw [fair.tenants node (nodes ▸ List.mem_append_left back mem)]
  refine ⟨front.filter fun node => node.tenant = tenant ∧ node.item ∉ s.promoted, ?_, ?_, ?_⟩
  · unfold own
    rw [nodes]
    exact (List.sublist_append_left front back).filter _
  · have others : ∀ other ∈ front.map FairNode.item, decide (other ≠ item) = true := by
      intro other mem
      rw [decide_eq_true_eq]
      intro same
      have queued : other ∈ s.queue.ordered := by
        unfold ordered
        rw [nodes, List.map_append]
        exact List.mem_append_left _ mem
      exact idle other queued (by rw [same])
    have newcomer : (nodeFor .exact opts s.queue item).item = item := rfl
    unfold ahead ordered
    rw [FairQueue.enqueue, nodes', List.map_append, List.takeWhile_append_of_pos others, List.map_cons, newcomer,
      List.takeWhile_cons_of_neg (by simp), List.append_nil, List.countP_map, ← counted]
    rfl
  · intro node mem
    exact before node (List.mem_of_mem_filter mem)

theorem ahead_le (fair : Fair opts s) (idle : Idle opts s item) (tenant : String) :
    ahead opts s item tenant ≤
      ⌊weight opts tenant / weight opts (opts.tenantOf item)⌋₊ + 1 +
        passed opts s item tenant := by
  obtain ⟨front, sublist, count, before⟩ := ahead_eq fair idle tenant
  have split := List.length_eq_countP_add_countP
    (fun node : FairNode α => decide (node.vf < s.queue.start (opts.tenantOf item))) (l := front)
  have behind : front.countP (fun node => node.vf < s.queue.start (opts.tenantOf item)) ≤
      passed opts s item tenant := sublist.countP_le
  have inside : front.countP
        (fun node => ¬ decide (node.vf < s.queue.start (opts.tenantOf item)) = true) ≤
      ⌊weight opts tenant / weight opts (opts.tenantOf item)⌋₊ + 1 := by
    have share : weight opts tenant / weight opts (opts.tenantOf item) =
        1 / weight opts (opts.tenantOf item) / (1 / weight opts tenant) := by
      field_simp
    rw [List.countP_eq_length_filter, share, ← List.length_map FairNode.vf]
    have apart := List.Pairwise.sublist sublist (fair.spaced tenant)
    apply length_le_of_spaced (one_div_pos.mpr (weight_pos opts tenant))
      (one_div_pos.mpr (weight_pos opts (opts.tenantOf item))).le
      (List.pairwise_map.mpr (apart.filter _))
    intro vf mem
    obtain ⟨node, kept, rfl⟩ := List.mem_map.mp mem
    obtain ⟨inFront, late⟩ := List.mem_filter.mp kept
    exact ⟨by simpa using late, before node inFront⟩
  rw [count, split]
  omega

/-! ## Items that leave in turn -/

/-- An item that leaves finishes no later than the ones that stay; the promoted ones
among them do not count. -/
def TakesInTurn (s : Line α) : FairOp α → Prop
  | .remove item => ∀ node ∈ s.queue.nodeOf item,
      ∀ other ∈ s.queue.without item, other.item ∉ s.promoted → node.vf ≤ other.vf
  | _ => True

instance (s : Line α) : (op : FairOp α) → Decidable (TakesInTurn s op)
  | .remove item => inferInstanceAs (Decidable (∀ node ∈ s.queue.nodeOf item,
      ∀ other ∈ s.queue.without item, other.item ∉ s.promoted → node.vf ≤ other.vf))
  | .enqueue _ => isTrue trivial
  | .promote _ => isTrue trivial

/-- The clock has passed nothing that waits. -/
def ClockBehind (s : Line α) : Prop :=
  ∀ node ∈ s.queue.nodes, node.item ∉ s.promoted → s.queue.vclock ≤ node.vf

/-- The account of a tenant is behind the clock or is the time of an item that waits. -/
def Settled (s : Line α) (tenant : String) : Prop :=
  s.queue.lastVf tenant ≤ s.queue.vclock ∨
    ∃ node ∈ s.queue.nodes, node.tenant = tenant ∧ node.vf = s.queue.lastVf tenant

theorem nodeOf_split {q : FairQueue α} (found : q.nodeOf item = some node) :
    ∃ front back, q.nodes = front ++ node :: back ∧ q.without item = front ++ back := by
  have hit : decide (node.item = item) = true := decide_eq_true (nodeOf_item found)
  obtain ⟨first, front, back, others, here, nodes, rest⟩ :=
    List.exists_of_eraseP (p := fun node => node.item = item) (mem_of_nodeOf found) hit
  have same : first = node := by
    have none : front.find? (fun node => node.item = item) = none :=
      List.find?_eq_none.mpr others
    rw [nodeOf, nodes, List.find?_append, none, Option.none_or, List.find?_cons, here] at found
    exact Option.some.inj found
  exact ⟨front, back, same ▸ nodes, rest⟩

theorem mem_nodes_iff {q : FairQueue α} (found : q.nodeOf item = some node) {other : FairNode α} :
    other ∈ q.nodes ↔ other = node ∨ other ∈ q.without item := by
  obtain ⟨front, back, nodes, rest⟩ := nodeOf_split found
  rw [nodes, rest, List.mem_append, List.mem_cons, List.mem_append]
  tauto

omit [DecidableEq α] in
theorem mem_enqueue_nodes (sorted : Sorted s.queue.nodes) :
    node ∈ (s.queue.enqueue opts item).nodes ↔
      node = nodeFor .exact opts s.queue item ∨ node ∈ s.queue.nodes := by
  obtain ⟨front, back, nodes, nodes', -, -⟩ := enqueue_nodes .exact opts item sorted
  rw [FairQueue.enqueue, nodes, nodes', List.mem_append, List.mem_cons, List.mem_append]
  tauto

theorem ClockBehind.enqueue (fair : Fair opts s) (behind : ClockBehind s) (item : α) :
    ClockBehind { s with queue := s.queue.enqueue opts item } := by
  intro node mem unpromoted
  rcases (mem_enqueue_nodes fair.sorted).mp mem with rfl | mem
  · have positive := one_div_pos.mpr (weight_pos opts (opts.tenantOf item))
    have started : s.queue.vclock ≤ s.queue.start (opts.tenantOf item) := le_max_left _ _
    change s.queue.vclock ≤ (nodeFor .exact opts s.queue item).vf
    rw [nodeFor_exact_vf]
    linarith
  · exact behind node mem unpromoted

theorem ClockBehind.remove (behind : ClockBehind s) (inTurn : TakesInTurn s (.remove item)) :
    ClockBehind { s with queue := (s.queue.remove item).2 } := by
  unfold FairQueue.remove
  rcases found : s.queue.nodeOf item with _ | node
  · exact behind
  · intro other mem unpromoted
    have waits : other ∈ s.queue.nodes := (mem_nodes_iff found).mpr (Or.inr mem)
    exact max_le (behind other waits unpromoted) (inTurn node found other mem unpromoted)

theorem ClockBehind.promote (fair : Fair opts s) (behind : ClockBehind s) (item : α) :
    ClockBehind ⟨(s.queue.promote item).2,
      if (s.queue.promote item).1 then item :: s.promoted else s.promoted⟩ := by
  obtain ⟨-, clock⟩ := promote_frame s.queue item
  intro node mem unpromoted
  have before : node.item ∉ s.promoted := by
    intro before
    apply unpromoted
    split
    · exact List.mem_cons_of_mem item before
    · exact before
  change (s.queue.promote item).2.vclock ≤ node.vf
  rw [clock]
  rcases promote_nodes fair.sorted item with same | ⟨moved, vf, seq, found, -, -, queued, nodes⟩
  · exact behind node (same ▸ mem) before
  · change node ∈ (s.queue.promote item).2.nodes at mem
    rw [nodes] at mem
    rcases List.mem_cons.mp mem with rfl | mem
    · rw [if_pos queued] at unpromoted
      exact absurd (List.mem_cons.mpr (Or.inl (nodeOf_item found))) unpromoted
    · exact behind node ((mem_nodes_iff found).mpr (Or.inr mem)) before

theorem Settled.enqueue (fair : Fair opts s) (settled : Settled s tenant) (item : α) :
    Settled { s with queue := s.queue.enqueue opts item } tenant := by
  unfold Settled
  rw [show ({ s with queue := s.queue.enqueue opts item } : Line α).queue =
    s.queue.enqueue opts item from rfl, FairQueue.enqueue, enqueue_lastVf, Function.update_apply]
  by_cases same : tenant = opts.tenantOf item
  · rw [if_pos same]
    exact Or.inr ⟨_, (mem_enqueue_nodes fair.sorted).mpr (Or.inl rfl), same.symm, rfl⟩
  · rw [if_neg same]
    rcases settled with behind | ⟨node, mem, own, account⟩
    · exact Or.inl behind
    · exact Or.inr ⟨node, (mem_enqueue_nodes fair.sorted).mpr (Or.inr mem), own, account⟩

theorem Settled.remove (settled : Settled s tenant) (item : α) :
    Settled { s with queue := (s.queue.remove item).2 } tenant := by
  unfold FairQueue.remove
  rcases found : s.queue.nodeOf item with _ | node
  · exact settled
  rcases settled with behind | ⟨other, mem, own, account⟩
  · exact Or.inl (behind.trans (le_max_left _ _))
  · rcases (mem_nodes_iff found).mp mem with rfl | mem
    · exact Or.inl (account ▸ le_max_right _ _)
    · exact Or.inr ⟨other, mem, own, account⟩

theorem Settled.promote (fair : Fair opts s) (settled : Settled s tenant) (item : α)
    (other : opts.tenantOf item ≠ tenant) :
    Settled (⟨(s.queue.promote item).2,
      if (s.queue.promote item).1 then item :: s.promoted else s.promoted⟩ : Line α) tenant := by
  obtain ⟨accounts, clock⟩ := promote_frame s.queue item
  unfold Settled
  dsimp only
  rw [accounts, clock]
  rcases settled with behind | ⟨node, mem, own, account⟩
  · exact Or.inl behind
  · refine Or.inr ⟨node, ?_, own, account⟩
    rcases promote_nodes fair.sorted item with same | ⟨moved, vf, seq, found, -, -, -, nodes⟩
    · rw [same]
      exact mem
    · rw [nodes]
      rcases (mem_nodes_iff found).mp mem with rfl | mem
      · have mine := fair.tenants node mem
        rw [nodeOf_item found, own] at mine
        exact absurd mine.symm other
      · exact List.mem_cons_of_mem _ mem

theorem clockBehind_of_reachable (reachable : Reachable (step opts) TakesInTurn empty s) :
    ClockBehind s := by
  obtain ⟨log, run⟩ := reachable
  have both : Fair opts s ∧ ClockBehind s := by
    apply run.state_invariant ⟨fair_empty, by simp [ClockBehind, empty, FairQueue.empty]⟩
    intro s op t o inv inTurn eq
    obtain ⟨fair, behind⟩ := inv
    cases op with
    | enqueue item =>
        obtain ⟨rfl, -⟩ := by simpa [step, stepRounded] using eq
        exact ⟨fair.enqueue item, behind.enqueue fair item⟩
    | remove item =>
        obtain ⟨rfl, -⟩ := by simpa [step, stepRounded] using eq
        exact ⟨fair.remove item, behind.remove inTurn⟩
    | promote item =>
        obtain ⟨rfl, -⟩ := by simpa [step, stepRounded] using eq
        exact ⟨fair.promote item, behind.promote fair item⟩
  exact both.2

/-- A tenant none of whose items jumped the line is settled. -/
theorem settled_of_reachable {ok : Line α → FairOp α → Prop}
    (reachable : Reachable (step opts) ok empty s)
    (inLine : ∀ other ∈ s.promoted, opts.tenantOf other ≠ tenant) : Settled s tenant := by
  obtain ⟨log, run⟩ := reachable
  have both : Fair opts s ∧
      ((∀ other ∈ s.promoted, opts.tenantOf other ≠ tenant) → Settled s tenant) := by
    apply run.state_invariant ⟨fair_empty, fun _ => Or.inl le_rfl⟩
    intro s op t o inv _ eq
    obtain ⟨fair, settled⟩ := inv
    cases op with
    | enqueue item =>
        obtain ⟨rfl, -⟩ := by simpa [step, stepRounded] using eq
        exact ⟨fair.enqueue item, fun inLine => (settled inLine).enqueue fair item⟩
    | remove item =>
        obtain ⟨rfl, -⟩ := by simpa [step, stepRounded] using eq
        exact ⟨fair.remove item, fun inLine => (settled inLine).remove item⟩
    | promote item =>
        obtain ⟨rfl, -⟩ := by simpa [step, stepRounded] using eq
        refine ⟨fair.promote item, fun inLine => ?_⟩
        have before : ∀ other ∈ s.promoted, opts.tenantOf other ≠ tenant := by
          intro other mem
          apply inLine other
          dsimp only
          split
          · exact List.mem_cons_of_mem item mem
          · exact mem
        rcases promote_nodes fair.sorted item with same | ⟨node, vf, seq, -, -, -, queued, -⟩
        · obtain ⟨accounts, clock⟩ := promote_frame s.queue item
          have still := settled before
          unfold Settled at still ⊢
          dsimp only
          rwa [accounts, clock, same]
        · apply (settled before).promote fair item
          apply inLine item
          dsimp only
          rw [if_pos queued]
          exact List.mem_cons_self
  exact both.2 inLine

/-- While items leave in turn, the start of a tenant that never jumped the line passes
nothing that waits. -/
theorem passed_eq_zero (reachable : Reachable (step opts) TakesInTurn empty s)
    (idle : Idle opts s item)
    (inLine : ∀ other ∈ s.promoted, opts.tenantOf other ≠ opts.tenantOf item) (tenant : String) :
    passed opts s item tenant = 0 := by
  have behind : ClockBehind s := clockBehind_of_reachable reachable
  have arrived : s.queue.lastVf (opts.tenantOf item) ≤ s.queue.vclock := by
    rcases settled_of_reachable reachable inLine with late | ⟨node, mem, own, -⟩
    · exact late
    · have fair := fair_of_reachable reachable
      have queued : node.item ∈ s.queue.ordered := List.mem_map.mpr ⟨node, mem, rfl⟩
      exact absurd ((fair.tenants node mem).symm.trans own) (idle node.item queued)
  unfold passed
  rw [List.countP_eq_zero]
  intro node mem
  obtain ⟨waits, -, unpromoted⟩ := mem_own.mp mem
  have notPassed := behind node waits unpromoted
  simp only [FairQueue.start, max_eq_left arrived, decide_eq_true_eq]
  exact not_lt.mpr notPassed

/-- Of the items that an arriving tenant's start has not passed, only a step's worth stand
before its item; and of all of them, while items leave in turn and nothing of the
arriving tenant was ever promoted. -/
theorem newcomer_wait (reachable : Reachable (step opts) Always empty s)
    (idle : Idle opts s item) (tenant : String) :
    ahead opts s item tenant ≤
        ⌊weight opts tenant / weight opts (opts.tenantOf item)⌋₊ + 1 +
          passed opts s item tenant ∧
      (Reachable (step opts) TakesInTurn empty s →
        (∀ other ∈ s.promoted, opts.tenantOf other ≠ opts.tenantOf item) →
        ahead opts s item tenant ≤
          ⌊weight opts tenant / weight opts (opts.tenantOf item)⌋₊ + 1) := by
  have bounded := ahead_le (fair_of_reachable reachable) idle tenant
  refine ⟨bounded, ?_⟩
  intro inTurn inLine
  have none := passed_eq_zero inTurn idle inLine tenant
  omega

/-! ### Tenants of equal weight -/

def equalWeights : FairQueueOptions (String × Nat) where
  tenantOf := Prod.fst

theorem equal_share (tenant tenant' : String) :
    ⌊weight equalWeights tenant / weight equalWeights tenant'⌋₊ = 1 := by
  have one : ∀ tenant, weight equalWeights tenant = 1 := by
    intro tenant
    simp only [weight, equalWeights]
    norm_num
  rw [one, one, div_one, Nat.floor_one]

theorem newcomer_wait_in_turn :
    ∃ s, Reachable (step equalWeights) Always empty s ∧
      ahead equalWeights s ("b", 0) "a" ≤ 1 + 1 + passed equalWeights s ("b", 0) "a" ∧
      ahead equalWeights s ("b", 0) "a" ≤ 1 + 1 := by
  obtain ⟨log, s, run, found⟩ := exists_run_of_exec (step equalWeights) TakesInTurn empty
    [.enqueue ("a", 0), .enqueue ("a", 1), .enqueue ("a", 2), .remove ("a", 0)]
    (fun s => (s.queue.ordered.all fun other => other.1 ≠ "b") && s.promoted = [])
    (by decide +kernel)
  rw [Bool.and_eq_true, decide_eq_true_eq] at found
  obtain ⟨idle, nobody⟩ := found
  have always : Reachable (step equalWeights) Always empty s :=
    ⟨log, run.mono fun _ _ _ => trivial⟩
  have arrives : Idle equalWeights s ("b", 0) := by
    simpa [Idle, equalWeights] using idle
  obtain ⟨bounded, inTurn⟩ := newcomer_wait always arrives "a"
  rw [equal_share] at bounded inTurn
  exact ⟨s, always, bounded, inTurn ⟨log, run⟩ (by simp [nobody])⟩

/-- A tenant that got three items promoted arrives anew behind four items of another one;
and so does, behind three, one that arrives after the last of four items was withdrawn. -/
theorem newcomer_waits_longer :
    (∃ s, Reachable (step equalWeights) Always empty s ∧ Idle equalWeights s ("b", 3) ∧
      ⌊weight equalWeights "a" / weight equalWeights "b"⌋₊ + 1 <
        ahead equalWeights s ("b", 3) "a") ∧
    ∃ s, Reachable (step equalWeights) Always empty s ∧ Idle equalWeights s ("b", 0) ∧
      ⌊weight equalWeights "a" / weight equalWeights "b"⌋₊ + 1 <
        ahead equalWeights s ("b", 0) "a" := by
  rw [equal_share]
  constructor
  · obtain ⟨log, s, run, found⟩ := exists_run_of_exec (step equalWeights) Always empty
      [.enqueue ("b", 0), .enqueue ("b", 1), .enqueue ("b", 2), .enqueue ("a", 0),
        .enqueue ("a", 1), .enqueue ("a", 2), .enqueue ("a", 3), .promote ("b", 1),
        .promote ("b", 2), .remove ("b", 2), .remove ("b", 1), .remove ("b", 0)]
      (fun s => (s.queue.ordered.all fun other => other.1 ≠ "b")
        && ahead equalWeights s ("b", 3) "a" = 4) (by decide +kernel)
    rw [Bool.and_eq_true, decide_eq_true_eq] at found
    obtain ⟨idle, four⟩ := found
    exact ⟨s, ⟨log, run⟩, by simpa [Idle, equalWeights] using idle, by omega⟩
  · obtain ⟨log, s, run, found⟩ := exists_run_of_exec (step equalWeights) Always empty
      [.enqueue ("a", 0), .enqueue ("a", 1), .enqueue ("a", 2), .enqueue ("a", 3),
        .remove ("a", 3)]
      (fun s => (s.queue.ordered.all fun other => other.1 ≠ "b")
        && ahead equalWeights s ("b", 0) "a" = 3) (by decide +kernel)
    rw [Bool.and_eq_true, decide_eq_true_eq] at found
    obtain ⟨idle, three⟩ := found
    exact ⟨s, ⟨log, run⟩, by simpa [Idle, equalWeights] using idle, by omega⟩

end Line

end Everdict.Placement
