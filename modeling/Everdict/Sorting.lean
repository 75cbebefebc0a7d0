import Mathlib.Data.List.Sort
import Mathlib.Data.List.Nodup
import Mathlib.Tactic.Common

/-!
# Lists sorted by a key

A stable sort by a key that the elements of a list do not share depends on the elements
alone: not on the order they came in (`sortBy_eq_of_perm`), nor on whether a filter or a
key-preserving map comes before it or after it.  Where elements share a key it depends on
the order of each class of them and on nothing else (`sortBy_eq_of_classes`).
-/

namespace Sorting

variable {α β κ : Type*} [LinearOrder κ]

/-- `xs.sort((a, b) => …)` by a key; elements of one key keep their order. -/
def sortBy (key : α → κ) (l : List α) : List α := l.insertionSort fun a b => key a ≤ key b

variable {key : α → κ} {l l' : List α}

theorem sortBy_perm (key : α → κ) (l : List α) : (sortBy key l).Perm l :=
  List.perm_insertionSort _ l

theorem mem_sortBy {a : α} : a ∈ sortBy key l ↔ a ∈ l := (sortBy_perm key l).mem_iff

theorem sortBy_pairwise (key : α → κ) (l : List α) :
    (sortBy key l).Pairwise fun a b => key a ≤ key b := by
  have : Std.Total fun a b : α => key a ≤ key b := ⟨fun a b => le_total (key a) (key b)⟩
  have : IsTrans α fun a b => key a ≤ key b := ⟨fun _ _ _ ab bc => le_trans ab bc⟩
  exact List.pairwise_insertionSort _ l

/-- Keys that differ rise. -/
theorem sortBy_rising (distinct : (l.map key).Nodup) :
    (sortBy key l).Pairwise fun a b => key a < key b := by
  have sorted : ((sortBy key l).map key).Nodup :=
    ((sortBy_perm key l).map key).nodup_iff.mpr distinct
  exact (sortBy_pairwise key l).imp₂ (fun _ _ => lt_of_le_of_ne) (List.pairwise_map.mp sorted)

/-- A list in order that has the elements of another is what the other sorts to. -/
theorem eq_sortBy (distinct : (l.map key).Nodup) (same : l'.Perm l)
    (ordered : l'.Pairwise fun a b => key a ≤ key b) : l' = sortBy key l := by
  refine List.Perm.eq_of_pairwise ?_ ordered (sortBy_pairwise key l)
    (same.trans (sortBy_perm key l).symm)
  intro a b ina inb ab ba
  have ina : a ∈ l := same.mem_iff.mp ina
  have inb : b ∈ l := mem_sortBy.mp inb
  exact List.inj_on_of_nodup_map distinct ina inb (le_antisymm ab ba)

theorem sortBy_eq_of_perm (distinct : (l.map key).Nodup) (same : l'.Perm l) :
    sortBy key l' = sortBy key l :=
  eq_sortBy distinct ((sortBy_perm key l').trans same) (sortBy_pairwise key l')

theorem sortBy_filter (distinct : (l.map key).Nodup) (p : α → Bool) :
    sortBy key (l.filter p) = (sortBy key l).filter p := by
  have sub : ((l.filter p).map key).Nodup := distinct.sublist (List.filter_sublist.map key)
  refine (eq_sortBy sub ((sortBy_perm key l).filter p) ?_).symm
  exact (sortBy_pairwise key l).sublist List.filter_sublist

theorem sortBy_map (key : α → κ) (key' : β → κ) (f : α → β) (keeps : ∀ a, key' (f a) = key a)
    (l : List α) : sortBy key' (l.map f) = (sortBy key l).map f := by
  refine (List.map_insertionSort _ _ f l ?_).symm
  intro a _ b _
  rw [keeps a, keeps b]

/-! ## Shared keys -/

theorem orderedInsert_filter {p : α → Bool} {c : κ} (same : ∀ a, p a = true → key a = c) (a : α)
    (l : List α) :
    (l.orderedInsert (fun a b => key a ≤ key b) a).filter p =
      if p a then a :: l.filter p else l.filter p := by
  induction l with
  | nil => simp [List.filter_singleton]
  | cons b l ih =>
      rw [List.orderedInsert_cons]
      split
      · rw [List.filter_cons]
      · next after =>
          rw [List.filter_cons, ih, List.filter_cons]
          by_cases pa : p a = true
          · -- an element that `a` is put behind is of a smaller key, so of another class
            have pb : p b ≠ true := by
              intro pb
              rw [same a pa, same b pb] at after
              exact after le_rfl
            simp [pa, pb]
          · simp [pa]

/-- Elements of one key keep their order. -/
theorem sortBy_filter_class {p : α → Bool} {c : κ} (same : ∀ a, p a = true → key a = c)
    (l : List α) : (sortBy key l).filter p = l.filter p := by
  unfold sortBy
  induction l with
  | nil => rfl
  | cons a l ih => rw [List.insertionSort_cons, orderedInsert_filter same, ih, List.filter_cons]

theorem mem_iff_of_classes (same : ∀ c, l.filter (key · = c) = l'.filter (key · = c)) {a : α} :
    a ∈ l ↔ a ∈ l' := by
  have classes := congrArg (a ∈ ·) (same (key a))
  simpa using classes

theorem eq_of_classes (ordered : l.Pairwise fun a b => key a ≤ key b)
    (ordered' : l'.Pairwise fun a b => key a ≤ key b)
    (same : ∀ c, l.filter (key · = c) = l'.filter (key · = c)) : l = l' := by
  have mem := fun a => mem_iff_of_classes same (a := a)
  induction l generalizing l' with
  | nil =>
      cases l' with
      | nil => rfl
      | cons b l' => exact absurd ((mem b).mpr List.mem_cons_self) List.not_mem_nil
  | cons a l ih =>
      cases l' with
      | nil => exact absurd ((mem a).mp List.mem_cons_self) List.not_mem_nil
      | cons b l' =>
          have low : ∀ c ∈ a :: l, key a ≤ key c :=
            List.forall_mem_cons.mpr ⟨le_rfl, (List.pairwise_cons.mp ordered).1⟩
          have low' : ∀ c ∈ b :: l', key b ≤ key c :=
            List.forall_mem_cons.mpr ⟨le_rfl, (List.pairwise_cons.mp ordered').1⟩
          have heads : key a = key b :=
            le_antisymm (low b ((mem b).mpr List.mem_cons_self))
              (low' a ((mem a).mp List.mem_cons_self))
          have first := same (key b)
          simp only [List.filter_cons, heads, decide_true, if_true, List.cons.injEq] at first
          obtain ⟨rfl, -⟩ := first
          have rest : ∀ c, l.filter (key · = c) = l'.filter (key · = c) := by
            intro c
            have both := same c
            simp only [List.filter_cons] at both
            split at both
            · exact (List.cons.inj both).2
            · exact both
          rw [ih (List.pairwise_cons.mp ordered).2 (List.pairwise_cons.mp ordered').2 rest
            fun x => mem_iff_of_classes rest]

theorem sortBy_eq_of_classes (same : ∀ c, l.filter (key · = c) = l'.filter (key · = c)) :
    sortBy key l = sortBy key l' := by
  refine eq_of_classes (sortBy_pairwise key l) (sortBy_pairwise key l') ?_
  intro c
  rw [sortBy_filter_class (c := c) (by simp), sortBy_filter_class (c := c) (by simp), same c]

theorem sortBy_of_pairwise (ordered : l.Pairwise fun a b => key a ≤ key b) : sortBy key l = l :=
  eq_of_classes (sortBy_pairwise key l) ordered fun c => sortBy_filter_class (c := c) (by simp) l

/-- What is picked out of a list, each pick with the key it was picked from, is in the order
that sorting the picks gives. -/
theorem sortBy_filterMap {g : α → Option β} {key' : β → κ}
    (keeps : ∀ a b, g a = some b → key' b = key a) (l : List α) :
    (sortBy key l).filterMap g = sortBy key' (l.filterMap g) := by
  have picks : ∀ (c : κ) (l : List α),
      (l.filterMap g).filter (key' · = c) = (l.filter (key · = c)).filterMap g := by
    intro c l
    rw [List.filter_filterMap, List.filterMap_filter]
    refine List.filterMap_congr fun a _ => ?_
    rcases picked : g a with _ | b
    · simp
    · simp [Option.filter, keeps a b picked]
  refine eq_of_classes ?_ (sortBy_pairwise key' _) fun c => ?_
  · rw [List.pairwise_filterMap]
    refine (sortBy_pairwise key l).imp fun le b picked b' picked' => ?_
    rwa [keeps _ b picked, keeps _ b' picked']
  · rw [picks, sortBy_filter_class (c := c) (by simp), sortBy_filter_class (c := c) (by simp),
      picks]

/-- Where elements of one key are equal, the order they came in does not matter. -/
theorem sortBy_eq_of_ties (ties : ∀ a ∈ l, ∀ b ∈ l, key a = key b → a = b) (same : l'.Perm l) :
    sortBy key l' = sortBy key l := by
  refine sortBy_eq_of_classes fun c => ?_
  have perm := same.filter (key · = c)
  rcases class' : l.filter (key · = c) with _ | ⟨a, rest⟩
  · rw [class'] at perm
    exact List.perm_nil.mp perm
  · have mem : ∀ b ∈ a :: rest, b = a := by
      intro b isIn
      rw [← class', List.mem_filter, decide_eq_true_eq] at isIn
      have first : a ∈ l.filter (key · = c) := class' ▸ List.mem_cons_self
      rw [List.mem_filter, decide_eq_true_eq] at first
      exact ties b isIn.1 a first.1 (isIn.2.trans first.2.symm)
    rw [class'] at perm
    rw [List.eq_replicate_of_mem mem] at perm ⊢
    exact List.perm_replicate.mp perm

/-- Of elements of one key the first in a list is the first of them in order. -/
theorem eq_of_sortBy_cons {a b : α} (tie : key a = key b)
    (eq : sortBy key (a :: l) = sortBy key (b :: l')) : a = b := by
  have first := congrArg (List.filter (key · = key b)) eq
  rw [sortBy_filter_class (c := key b) (by simp), sortBy_filter_class (c := key b) (by simp),
    List.filter_cons_of_pos (by simpa using tie), List.filter_cons_of_pos (by simp)] at first
  exact (List.cons.inj first).1

/-- Lists sorted one by one and put together are their sorted whole exactly when no element
of an earlier list comes after one of a later list. -/
theorem flatMap_sortBy_iff {ls : List (List α)} :
    ls.flatMap (sortBy key) = sortBy key ls.flatten ↔
      ls.Pairwise fun l l' => ∀ a ∈ l, ∀ b ∈ l', key a ≤ key b := by
  have pairs : (ls.flatMap (sortBy key)).Pairwise (fun a b => key a ≤ key b) ↔
      ls.Pairwise fun l l' => ∀ a ∈ l, ∀ b ∈ l', key a ≤ key b := by
    rw [List.pairwise_flatMap]
    simp only [sortBy_pairwise, mem_sortBy, implies_true, true_and]
  rw [← pairs]
  constructor
  · intro eq
    rw [eq]
    exact sortBy_pairwise key _
  · intro ordered
    refine eq_of_classes ordered (sortBy_pairwise key _) fun c => ?_
    rw [sortBy_filter_class (c := c) (by simp), List.filter_flatMap, List.filter_flatten,
      List.flatMap_def]
    congr 1
    exact List.map_congr_left fun l _ => sortBy_filter_class (c := c) (by simp) l

/-- A filter that keeps the first elements of a list keeps them first. -/
theorem take_filter {p : α → Bool} {n : Nat} (all : ∀ a ∈ l.take n, p a = true) :
    (l.filter p).take n = l.take n := by
  induction l generalizing n with
  | nil => rfl
  | cons a l ih =>
      cases n with
      | zero => rfl
      | succ n =>
          have passes : p a = true := all a List.mem_cons_self
          rw [List.filter_cons_of_pos passes, List.take_succ_cons, List.take_succ_cons, ih]
          intro b mem
          exact all b (List.mem_cons_of_mem _ mem)

end Sorting
