import Everdict.Placement.NewcomerWait
import Mathlib.Data.List.Sort

/-!
# The keys of a fair queue

A promoted node takes the head's finish time with a smaller number, so numbers may be negative
or return.  All of them stay below the number that comes next, and that keeps the list of nodes
strictly increasing in finish time and number (`Keyed`), whatever was promoted before.  Over any
run, and however times are rounded, the items are those enqueued and not removed since, and a
tenant's items that never jumped the line stand as they were enqueued (`queue_represents`).
-/

namespace Everdict.Placement

open Transition Transition.Machine FairQueue

variable {α : Type}

namespace FairNode

/-- The order of the nodes, by finish time and then by number. -/
def Before (a b : FairNode α) : Prop := a.vf < b.vf ∨ a.vf = b.vf ∧ a.seq < b.seq

def keyLe (a b : FairNode α) : Bool := a.vf < b.vf || (a.vf = b.vf && a.seq ≤ b.seq)

theorem keyLe_iff {a b : FairNode α} :
    a.keyLe b = true ↔ a.vf < b.vf ∨ a.vf = b.vf ∧ a.seq ≤ b.seq := by
  simp only [keyLe, Bool.or_eq_true, Bool.and_eq_true, decide_eq_true_eq]

theorem Before.trans {a b c : FairNode α} (first : a.Before b) (second : b.Before c) :
    a.Before c := by
  unfold Before at *
  grind

theorem Before.keyLe {a b : FairNode α} (before : a.Before b) : a.keyLe b = true := by
  rw [keyLe_iff]
  unfold Before at before
  grind

theorem Before.not_keyLe {a b : FairNode α} (before : a.Before b) : b.keyLe a = false := by
  rw [Bool.eq_false_iff, ne_eq, keyLe_iff]
  unfold Before at before
  grind

end FairNode

/-- The nodes are strictly increasing, and every number is below the next one. -/
structure Keyed (q : FairQueue α) : Prop where
  strict : q.nodes.Pairwise FairNode.Before
  numbered : ∀ node ∈ q.nodes, node.seq < q.seq

/-- A strictly increasing list is what sorting any arrangement of it gives. -/
theorem mergeSort_of_strict {nodes nodes' : List (FairNode α)}
    (strict : nodes.Pairwise FairNode.Before) (perm : nodes'.Perm nodes) :
    nodes'.mergeSort FairNode.keyLe = nodes := by
  have sorted : (nodes'.mergeSort FairNode.keyLe).Pairwise fun a b => a.keyLe b = true := by
    apply List.pairwise_mergeSort
    · intro a b c first second
      rw [FairNode.keyLe_iff] at *
      grind
    · intro a b
      rw [Bool.or_eq_true, FairNode.keyLe_iff, FairNode.keyLe_iff]
      grind
  have weak : nodes.Pairwise fun a b => a.keyLe b = true := strict.imp fun before => before.keyLe
  -- two nodes of a strict list that do not come one before the other are one node
  have apart : ∀ a ∈ nodes, ∀ b ∈ nodes, a.keyLe b = true → b.keyLe a = true → a = b := by
    intro a inNodes b inNodes'
    have here : nodes.Pairwise fun a b : FairNode α =>
        a.keyLe b = true → b.keyLe a = true → a = b := by
      refine strict.imp fun before _ back => ?_
      rw [before.not_keyLe] at back
      cases back
    have there : nodes.Pairwise (flip fun a b : FairNode α =>
        a.keyLe b = true → b.keyLe a = true → a = b) := by
      refine strict.imp fun before back _ => ?_
      rw [before.not_keyLe] at back
      cases back
    exact here.forall_of_forall_of_flip (fun _ _ _ _ => rfl) there inNodes inNodes'
  refine ((List.mergeSort_perm nodes' _).trans perm).eq_of_pairwise ?_ sorted weak
  intro a b inSorted inNodes
  exact apart a (perm.mem_iff.mp (List.mem_mergeSort.mp inSorted)) b inNodes

/-! ## What one operation leaves -/

theorem keyed_empty : Keyed (FairQueue.empty : FairQueue α) :=
  ⟨List.Pairwise.nil, fun _ isIn => absurd isIn List.not_mem_nil⟩

theorem Keyed.enqueue {arith : Rounding} {opts : FairQueueOptions α} {q : FairQueue α}
    (keyed : Keyed q) (sorted : Sorted q.nodes) (item : α) :
    Keyed (q.enqueueRounded arith opts item) := by
  obtain ⟨front, back, nodes, nodes', before, after⟩ := enqueue_nodes arith opts item sorted
  obtain ⟨strict, numbered⟩ := keyed
  rw [nodes] at strict numbered
  obtain ⟨first, second, across⟩ := List.pairwise_append.mp strict
  constructor
  · rw [nodes', List.pairwise_append, List.pairwise_cons]
    refine ⟨first, ⟨fun node isIn => Or.inl (after node isIn), second⟩, ?_⟩
    intro node isIn other isIn'
    rcases List.mem_cons.mp isIn' with rfl | isIn'
    · -- an equal finish time has a smaller number
      rcases (before node isIn).lt_or_eq with less | same
      · exact Or.inl less
      · exact Or.inr ⟨same, numbered node (List.mem_append_left back isIn)⟩
    · exact across node isIn other isIn'
  · rw [nodes']
    intro node isIn
    have next : (q.enqueueRounded arith opts item).seq = q.seq + 1 := rfl
    rcases List.mem_append.mp isIn with isIn | isIn
    · have := numbered node (List.mem_append_left back isIn)
      omega
    · rcases List.mem_cons.mp isIn with rfl | isIn
      · exact Int.lt_add_one_of_le le_rfl
      · have := numbered node (List.mem_append_right front isIn)
        omega

variable [DecidableEq α]

theorem Keyed.remove {q : FairQueue α} (keyed : Keyed q) (item : α) : Keyed (q.remove item).2 := by
  obtain ⟨nodes, -⟩ := Line.remove_frame q item
  have next : (q.remove item).2.seq = q.seq := by
    unfold FairQueue.remove
    split <;> rfl
  refine ⟨List.Pairwise.sublist nodes keyed.strict, fun node isIn => ?_⟩
  rw [next]
  exact keyed.numbered node (nodes.subset isIn)

theorem Keyed.promote {q : FairQueue α} (keyed : Keyed q) (item : α) :
    Keyed (q.promote item).2 := by
  unfold FairQueue.promote
  rcases found : q.nodeOf item with _ | node
  · exact keyed
  dsimp only
  split
  · exact keyed
  have strict := List.Pairwise.sublist (Line.without_sublist q item) keyed.strict
  have numbered : ∀ other ∈ q.without item, other.seq < q.seq := fun other isIn =>
    keyed.numbered other ((Line.without_sublist q item).subset isIn)
  rcases rest : q.without item with _ | ⟨head, rest⟩
  · refine ⟨List.pairwise_singleton _ _, fun other isIn => ?_⟩
    rw [List.mem_singleton.mp isIn]
    exact keyed.numbered node (Line.mem_of_nodeOf found)
  · rw [rest] at strict numbered
    -- the node comes right before the head, so before all that the head comes before
    have front : FairNode.Before { node with vf := head.vf, seq := head.seq - 1 } head :=
      Or.inr ⟨rfl, Int.sub_one_lt_of_le le_rfl⟩
    constructor
    · refine List.pairwise_cons.mpr ⟨fun other isIn => ?_, strict⟩
      rcases List.mem_cons.mp isIn with rfl | isIn
      · exact front
      · exact front.trans ((List.pairwise_cons.mp strict).1 other isIn)
    · intro other isIn
      rcases List.mem_cons.mp isIn with rfl | isIn
      · have := numbered head List.mem_cons_self
        exact (Int.sub_one_lt_of_le le_rfl).trans this
      · exact numbered other isIn

/-! ## What a run says of its items -/

/-- The items that a run enqueued, in the order of the calls. -/
def enqueued (log : List (FairOp α × Bool)) : List α :=
  log.filterMap fun
    | (.enqueue item, _) => some item
    | _ => none

/-- An item was enqueued, and not removed since. -/
def Waits (log : List (FairOp α × Bool)) (item : α) : Prop :=
  ∃ before answer after, log = before ++ (.enqueue item, answer) :: after ∧
    ∀ entry ∈ after, entry.1 ≠ .remove item

/-- A promotion of the item took effect. -/
def Promoted (log : List (FairOp α × Bool)) (item : α) : Prop := (.promote item, true) ∈ log

omit [DecidableEq α] in
theorem waits_append {log : List (FairOp α × Bool)} {op : FairOp α} {answer : Bool} {item : α} :
    Waits (log ++ [(op, answer)]) item ↔
      op = .enqueue item ∨ Waits log item ∧ op ≠ .remove item := by
  constructor
  · rintro ⟨before, answer', after, eq, kept⟩
    rcases after.eq_nil_or_concat' with rfl | ⟨after, last, rfl⟩
    · obtain ⟨-, same⟩ := List.append_inj' eq rfl
      exact Or.inl (congrArg Prod.fst (List.cons.inj same).1)
    · rw [← List.cons_append, ← List.append_assoc] at eq
      obtain ⟨rfl, same⟩ := List.append_inj' eq rfl
      obtain rfl := (List.cons.inj same).1
      exact Or.inr ⟨⟨before, answer', after, rfl,
        fun entry isIn => kept entry (List.mem_append_left _ isIn)⟩,
        kept _ (List.mem_append_right _ List.mem_cons_self)⟩
  · rintro (rfl | ⟨⟨before, answer', after, rfl, kept⟩, other⟩)
    · exact ⟨log, answer, [], rfl, fun entry isIn => absurd isIn List.not_mem_nil⟩
    · refine ⟨before, answer', after ++ [(op, answer)], by simp, fun entry isIn => ?_⟩
      rcases List.mem_append.mp isIn with isIn | isIn
      · exact kept entry isIn
      · rw [List.mem_singleton.mp isIn]
        exact other

namespace Line

/-- What holds of the queue after a run with these calls and answers. -/
structure Represents (opts : FairQueueOptions α) (log : List (FairOp α × Bool)) (s : Line α) :
    Prop where
  strict : s.queue.nodes.Pairwise FairNode.Before
  sorts : ∀ nodes : List (FairNode α), nodes.Perm s.queue.nodes →
    (nodes.mergeSort FairNode.keyLe).map FairNode.item = s.queue.ordered
  once : s.queue.ordered.Nodup
  items : ∀ item, item ∈ s.queue.ordered ↔ Waits log item
  turns : ∀ (tenant : String) (items : List α), items.Sublist s.queue.ordered →
    (∀ item ∈ items, opts.tenantOf item = tenant ∧ ¬ Promoted log item) →
    items.Sublist (enqueued log)

/-- What the steps preserve. -/
structure Kept (arith : Rounding) (opts : FairQueueOptions α) (log : List (FairOp α × Bool))
    (s : Line α) : Prop where
  inOrder : Ordered arith opts s
  keyed : Keyed s.queue
  promoted : ∀ item, item ∈ s.promoted ↔ Promoted log item
  items : ∀ item, item ∈ s.queue.ordered ↔ Waits log item
  once : s.queue.ordered.Nodup
  turns : ∀ tenant, ((s.own tenant).map FairNode.item).Sublist (enqueued log)

variable {arith : Rounding} {opts : FairQueueOptions α} {log : List (FairOp α × Bool)}
  {s : Line α}

theorem kept_empty : Kept arith opts [] (empty : Line α) where
  inOrder := ordered_empty
  keyed := keyed_empty
  promoted := fun item => ⟨fun isIn => absurd isIn List.not_mem_nil,
    fun isIn => absurd isIn List.not_mem_nil⟩
  items := by
    intro item
    refine ⟨fun isIn => absurd isIn List.not_mem_nil, ?_⟩
    rintro ⟨before, answer, after, eq, _⟩
    simp at eq
  once := List.nodup_nil
  turns := fun _ => List.nil_sublist _

omit [DecidableEq α] in
theorem mem_enqueued_of_waits {item : α} (waits : Waits log item) : item ∈ enqueued log := by
  obtain ⟨before, answer, after, rfl, _⟩ := waits
  simp [enqueued]

theorem Kept.enqueue (kept : Kept arith opts log s) (item : α) (fresh : item ∉ enqueued log) :
    Kept arith opts (log ++ [(.enqueue item, true)])
      { s with queue := s.queue.enqueueRounded arith opts item } where
  inOrder := kept.inOrder.enqueue item
  keyed := kept.keyed.enqueue kept.inOrder.sorted item
  promoted := by
    intro other
    rw [kept.promoted, Promoted, Promoted, List.mem_append]
    simp
  items := by
    intro other
    rw [mem_enqueueRounded, waits_append, kept.items]
    simp [eq_comm]
  once := by
    rw [(enqueueRounded_perm arith opts).nodup_iff, List.nodup_cons, kept.items]
    exact ⟨fun waits => fresh (mem_enqueued_of_waits waits), kept.once⟩
  turns := by
    intro tenant
    have grown : enqueued (log ++ [(.enqueue item, true)]) = enqueued log ++ [item] := by
      simp [enqueued]
    rw [own_enqueue kept.inOrder, List.map_append, grown]
    refine (kept.turns tenant).append ?_
    split
    · exact List.Sublist.refl _
    · exact List.nil_sublist _

theorem Kept.remove (kept : Kept arith opts log s) (item : α) :
    Kept arith opts (log ++ [(.remove item, (s.queue.remove item).1)])
      { s with queue := (s.queue.remove item).2 } where
  inOrder := kept.inOrder.remove item
  keyed := kept.keyed.remove item
  promoted := by
    intro other
    rw [kept.promoted, Promoted, Promoted, List.mem_append]
    simp
  items := by
    intro other
    rw [mem_remove kept.once, waits_append, kept.items]
    simp [eq_comm]
  once := by
    rw [remove_ordered]
    exact kept.once.erase item
  turns := by
    intro tenant
    have same : enqueued (log ++ [(.remove item, (s.queue.remove item).1)]) = enqueued log := by
      simp [enqueued]
    obtain ⟨nodes, -⟩ := remove_frame s.queue item
    rw [same]
    exact ((nodes.filter _).map _).trans (kept.turns tenant)

theorem Kept.promote (kept : Kept arith opts log s) (item : α) :
    Kept arith opts (log ++ [(.promote item, (s.queue.promote item).1)])
      ⟨(s.queue.promote item).2,
        if (s.queue.promote item).1 then item :: s.promoted else s.promoted⟩ where
  inOrder := kept.inOrder.promote item
  keyed := kept.keyed.promote item
  promoted := by
    intro other
    have before := kept.promoted other
    rw [Promoted] at before ⊢
    rw [List.mem_append, ← before]
    split
    next moved => simp [moved, or_comm]
    next still => simp [still]
  items := by
    intro other
    rw [mem_promote, waits_append, kept.items]
    simp
  once := promote_perm.nodup_iff.mpr kept.once
  turns := by
    intro tenant
    have same : enqueued (log ++ [(.promote item, (s.queue.promote item).1)]) = enqueued log := by
      simp [enqueued]
    rw [same]
    exact ((own_promote kept.inOrder.sorted item tenant).map _).trans (kept.turns tenant)

theorem kept_of_runs (run : Runs (stepRounded arith opts) Always empty log s)
    (distinct : (enqueued log).Nodup) : Kept arith opts log s := by
  induction run with
  | refl => exact kept_empty
  | @tail log s t op answer before _ eq ih =>
      have earlier : (enqueued log).Nodup := by
        rw [enqueued, List.filterMap_append] at distinct
        exact distinct.of_append_left
      have kept := ih earlier
      cases op with
      | enqueue item =>
          obtain ⟨rfl, rfl⟩ := by simpa [stepRounded] using eq
          refine kept.enqueue item ?_
          have grown : enqueued (log ++ [(.enqueue item, true)]) = enqueued log ++ [item] := by
            simp [enqueued]
          rw [grown, List.nodup_append] at distinct
          exact fun isIn => distinct.2.2 item isIn item List.mem_cons_self rfl
      | remove item =>
          obtain ⟨rfl, rfl⟩ := by simpa [stepRounded] using eq
          exact kept.remove item
      | promote item =>
          obtain ⟨rfl, rfl⟩ := by simpa [stepRounded] using eq
          exact kept.promote item

/-- Over any run that enqueues distinct items the queue represents the items that wait, whatever
its times are rounded to. -/
theorem queue_represents (arith : Rounding) (run : Runs (stepRounded arith opts) Always empty log s)
    (distinct : (enqueued log).Nodup) : Represents opts log s := by
  have kept := kept_of_runs run distinct
  refine ⟨kept.keyed.strict, ?_, kept.once, kept.items, ?_⟩
  · intro nodes perm
    rw [mergeSort_of_strict kept.keyed.strict perm]
    rfl
  · intro tenant items queued mine
    have own : (s.own tenant).map FairNode.item = s.queue.ordered.filter
        fun item => opts.tenantOf item = tenant ∧ item ∉ s.promoted := by
      rw [FairQueue.ordered, List.filter_map, Line.own]
      refine congrArg _ (List.filter_congr fun node isIn => ?_)
      rw [Function.comp_apply, kept.inOrder.tenants node isIn]
    have all : items.filter (fun item => opts.tenantOf item = tenant ∧ item ∉ s.promoted)
        = items := by
      refine List.filter_eq_self.mpr fun item isIn => decide_eq_true ?_
      rw [kept.promoted]
      exact mine item isIn
    refine List.Sublist.trans ?_ (kept.turns tenant)
    rw [own, ← all]
    exact queued.filter _

/-- Times on a grid of sixteenths. -/
def sixteenths : Rounding where
  round x := ⌊x * 16 + 1 / 2⌋ / 16
  monotone x y le := by
    have floors : ⌊x * 16 + 1 / 2⌋ ≤ ⌊y * 16 + 1 / 2⌋ := Int.floor_le_floor (by linarith)
    have cast : ((⌊x * 16 + 1 / 2⌋ : Int) : ℚ) ≤ ⌊y * 16 + 1 / 2⌋ := by exact_mod_cast floors
    linarith
  round_round x := by
    have whole : ((⌊x * 16 + 1 / 2⌋ : Int) : ℚ) / 16 * 16 + 1 / 2 =
        ((⌊x * 16 + 1 / 2⌋ : Int) : ℚ) + 1 / 2 := by ring
    have half : ⌊(1 / 2 : ℚ)⌋ = 0 := by norm_num
    rw [whole, Int.floor_intCast_add, half, add_zero]
  round_zero := by norm_num

def tenfold : FairQueueOptions (String × Nat) where
  tenantOf := Prod.fst
  weightFor tenant := if tenant = "a" then 10 else 1

/-- Tenants of weight ten and one, whose tenth is rounded to an eighth: the eighth item of the one
comes behind the first of the other.  Then a promotion and a removal. -/
theorem queue_represents_promotion :
    ∃ log s, Runs (stepRounded sixteenths tenfold) Always empty log s ∧
      enqueued log = ("b", 0) :: (List.range 9).map (("a", ·)) ∧
      s.queue.ordered =
        (("a", 8) :: (List.range 6).map fun n => ("a", n + 1)) ++ [("b", 0), ("a", 7)] ∧
      Represents tenfold log s := by
  obtain ⟨log, s, run, found⟩ := exists_of_exec (stepRounded sixteenths tenfold) Always empty
    (.enqueue ("b", 0) :: (List.range 9).map (fun n => .enqueue ("a", n)) ++
      [.promote ("a", 8), .remove ("a", 0)])
    (fun log s => enqueued log = ("b", 0) :: (List.range 9).map (("a", ·)) ∧
      s.queue.ordered =
        (("a", 8) :: (List.range 6).map fun n => ("a", n + 1)) ++ [("b", 0), ("a", 7)])
    (by decide +kernel)
  obtain ⟨items, ordered⟩ := of_decide_eq_true found
  have distinct : (enqueued log).Nodup := by
    rw [items]
    decide
  exact ⟨log, s, run, items, ordered, queue_represents sixteenths run distinct⟩

end Line

end Everdict.Placement
