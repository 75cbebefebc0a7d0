import Everdict.WorkspaceFile.Alignment
import Mathlib.Data.List.Infix

/-!
# The matching of two documents is a longest one

`lcs` is the length of a longest common subsequence by its recurrence.  The table holds it for
all pairs of suffixes (`cell_lcsTable`), the walk over the table loses nothing of it
(`length_lcsWalk`), and no matching from the same positions is longer (`Matching.length_le`).

So the hunks of a document are `Tight`: between any two positions they take out no more lines than
they have to, and over hunks the side reads otherwise than the base (`Tight.differ`).
-/

namespace Everdict.WorkspaceFile

variable {α : Type} [DecidableEq α]

def lcs : List α → List α → Nat
  | [], _ => 0
  | _ :: _, [] => 0
  | x :: a, y :: b => if x = y then lcs a b + 1 else max (lcs a (y :: b)) (lcs (x :: a) b)

theorem lcs_nil (a : List α) : lcs a [] = 0 := by
  cases a with
  | nil => rw [lcs]
  | cons => rw [lcs]

/-! ## The table -/

theorem lcsRow_tails (x : α) (a b : List α) :
    lcsRow x b (b.tails.map (lcs a)) = b.tails.map (lcs (x :: a)) := by
  induction b with
  | nil =>
      have one : ([] : List α).tails = [[]] := by simp
      rw [one, List.map_singleton, List.map_singleton, lcs]
      rfl
  | cons y b ih =>
      have first : ∀ a : List α, (b.tails.map (lcs a)).headD 0 = lcs a b := by
        intro a
        cases b with
        | nil => rfl
        | cons => rfl
      rw [List.tails_cons, List.map_cons, List.map_cons, lcsRow, ih, first, first, lcs]

theorem lcsTable_tails (a b : List α) :
    lcsTable a b = a.tails.map fun suffix => b.tails.map (lcs suffix) := by
  induction a with
  | nil =>
      have zeros : b.tails.map (lcs []) = List.replicate (b.length + 1) 0 := by
        rw [List.map_congr_left fun suffix _ => by rw [lcs], List.map_const', List.length_tails]
      exact congrArg (· :: []) zeros.symm
  | cons x a ih =>
      have below : (lcsTable a b).headD [] = b.tails.map (lcs a) := by
        rw [ih]
        cases a with
        | nil => rfl
        | cons => rfl
      have step : lcsTable (x :: a) b
          = lcsRow x b ((lcsTable a b).headD []) :: lcsTable a b := rfl
      rw [step, below, lcsRow_tails, ih, List.tails_cons, List.map_cons]

variable {a b : List α} {i j : Nat}

/-- The cell of two positions is the length for the two suffixes that begin there. -/
theorem cell_lcsTable (le : i ≤ a.length) (le' : j ≤ b.length) :
    cell (lcsTable a b) i j = lcs (a.drop i) (b.drop j) := by
  have row : i < a.tails.length := by rw [List.length_tails]; omega
  have column : j < b.tails.length := by rw [List.length_tails]; omega
  have suffixes : (lcsTable a b).getD i [] = b.tails.map (lcs (a.drop i)) := by
    rw [lcsTable_tails, List.getD_eq_getElem?_getD, List.getElem?_map,
      List.getElem?_eq_getElem row, List.getElem_tails, Option.map_some, Option.getD_some]
  rw [cell, suffixes, List.getD_eq_getElem?_getD, List.getElem?_map,
    List.getElem?_eq_getElem column, List.getElem_tails, Option.map_some, Option.getD_some]

/-! ## The walk -/

theorem lcs_drop (inA : i < a.length) (inB : j < b.length) :
    lcs (a.drop i) (b.drop j) =
      if a[i]? = b[j]? then lcs (a.drop (i + 1)) (b.drop (j + 1)) + 1
      else max (lcs (a.drop (i + 1)) (b.drop j)) (lcs (a.drop i) (b.drop (j + 1))) := by
  rw [List.drop_eq_getElem_cons inA, List.drop_eq_getElem_cons inB, lcs,
    List.getElem?_eq_getElem inA, List.getElem?_eq_getElem inB]
  simp only [Option.some.injEq]

theorem lcs_drop_outside (outside : ¬ (i < a.length ∧ j < b.length)) :
    lcs (a.drop i) (b.drop j) = 0 := by
  by_cases inA : i < a.length
  · have none' : b.drop j = [] := List.drop_eq_nil_of_le (by omega)
    rw [none', lcs_nil]
  · have none' : a.drop i = [] := List.drop_eq_nil_of_le (by omega)
    rw [none', lcs]

theorem length_lcsWalk (a b : List α) (i j : Nat) :
    (lcsWalk a b (lcsTable a b) i j).length = lcs (a.drop i) (b.drop j) := by
  induction i, j using lcsWalk.induct a b (lcsTable a b) with
  | case1 i j bounds same ih =>
      rw [lcsWalk, if_pos bounds, if_pos same, List.length_cons, ih, lcs_drop bounds.1 bounds.2,
        if_pos same]
  | case2 i j bounds other down ih =>
      have more := down
      rw [ge_iff_le, cell_lcsTable (by omega) (by omega),
        cell_lcsTable (by omega) (by omega)] at more
      rw [lcsWalk, if_pos bounds, if_neg other, if_pos down, ih, lcs_drop bounds.1 bounds.2,
        if_neg other, max_eq_left more]
  | case3 i j bounds other right ih =>
      have more := right
      rw [ge_iff_le, cell_lcsTable (by omega) (by omega),
        cell_lcsTable (by omega) (by omega)] at more
      rw [lcsWalk, if_pos bounds, if_neg other, if_neg right, ih, lcs_drop bounds.1 bounds.2,
        if_neg other, max_eq_right (by omega)]
  | case4 i j outside =>
      rw [lcsWalk, if_neg outside, lcs_drop_outside outside, List.length_nil]

/-! ## No matching is longer -/

variable {pairs : List (Nat × Nat)}

theorem Matching.length_le (pairing : Matching a b i j pairs) :
    pairs.length ≤ lcs (a.drop i) (b.drop j) := by
  induction size : (a.length - i) + (b.length - j) using Nat.strong_induction_on
    generalizing i j pairs with
  | _ size ih =>
      cases pairs with
      | nil => exact Nat.zero_le _
      | cons p rest =>
          obtain ⟨le, le', line, later⟩ := pairing
          obtain ⟨text, inA, inB⟩ := line
          obtain ⟨boundA, -⟩ := List.getElem?_eq_some_iff.mp inA
          obtain ⟨boundB, -⟩ := List.getElem?_eq_some_iff.mp inB
          rw [lcs_drop (by omega) (by omega)]
          split
          case isTrue =>
              -- the pair takes the place of the match at the two positions
              have beyond : Matching a b (i + 1) (j + 1) rest :=
                later.mono (Nat.succ_le_succ le) (Nat.succ_le_succ le')
              have shorter := ih _ (by omega) beyond rfl
              rw [List.length_cons]
              exact Nat.succ_le_succ shorter
          case isFalse other =>
              have apart : i < p.1 ∨ j < p.2 := by
                by_contra here
                obtain rfl : i = p.1 := by omega
                obtain rfl : j = p.2 := by omega
                exact other (inA.trans inB.symm)
              rcases apart with down | right
              · have kept : Matching a b (i + 1) j (p :: rest) :=
                  ⟨down, le', ⟨text, inA, inB⟩, later⟩
                exact (ih _ (by omega) kept rfl).trans (le_max_left _ _)
              · have kept : Matching a b i (j + 1) (p :: rest) :=
                  ⟨le, right, ⟨text, inA, inB⟩, later⟩
                exact (ih _ (by omega) kept rfl).trans (le_max_right _ _)

/-! ## Common subsequences as index pairs -/

/-- Pairs of positions of equal lines, each behind the one before it on both sides. -/
structure CommonSubsequence (a b : List α) (pairs : List (Nat × Nat)) : Prop where
  increasing : pairs.Pairwise fun p q => p.1 < q.1 ∧ p.2 < q.2
  equal : ∀ p ∈ pairs, ∃ line, a[p.1]? = some line ∧ b[p.2]? = some line

omit [DecidableEq α] in
theorem Matching.behind (pairing : Matching a b i j pairs) :
    ∀ p ∈ pairs, i ≤ p.1 ∧ j ≤ p.2 := by
  induction pairs generalizing i j with
  | nil => exact fun p isIn => absurd isIn List.not_mem_nil
  | cons first rest ih =>
      obtain ⟨le, le', _, later⟩ := pairing
      intro p isIn
      rcases List.mem_cons.mp isIn with rfl | isIn
      · exact ⟨le, le'⟩
      · have behind := ih later p isIn
        omega

omit [DecidableEq α] in
theorem Matching.commonSubsequence (pairing : Matching a b i j pairs) :
    CommonSubsequence a b pairs := by
  induction pairs generalizing i j with
  | nil => exact ⟨List.Pairwise.nil, fun p isIn => absurd isIn List.not_mem_nil⟩
  | cons first rest ih =>
      obtain ⟨_, _, line, later⟩ := pairing
      obtain ⟨increasing, equal⟩ := ih later
      exact ⟨List.pairwise_cons.mpr ⟨later.behind, increasing⟩,
        List.forall_mem_cons.mpr ⟨line, equal⟩⟩

omit [DecidableEq α] in
theorem CommonSubsequence.matching (common : CommonSubsequence a b pairs)
    (behind : ∀ p ∈ pairs, i ≤ p.1 ∧ j ≤ p.2) :
    Matching a b i j pairs := by
  induction pairs generalizing i j with
  | nil => trivial
  | cons first rest ih =>
      obtain ⟨increasing, equal⟩ := common
      obtain ⟨after, increasing⟩ := List.pairwise_cons.mp increasing
      obtain ⟨line, equal⟩ := List.forall_mem_cons.mp equal
      obtain ⟨le, le'⟩ := behind first List.mem_cons_self
      exact ⟨le, le', line, ih ⟨increasing, equal⟩ after⟩

/-- `lcsPairs` is a common subsequence of the two documents, and no other is longer. -/
theorem lcsPairs_longest (a b : List α) :
    CommonSubsequence a b (lcsPairs a b) ∧
      ∀ pairs, CommonSubsequence a b pairs → pairs.length ≤ (lcsPairs a b).length := by
  refine ⟨(matching_lcsWalk a b (lcsTable a b) 0 0).commonSubsequence, fun pairs common => ?_⟩
  have pairing : Matching a b 0 0 pairs :=
    common.matching fun p _ => ⟨Nat.zero_le _, Nat.zero_le _⟩
  rw [lcsPairs, length_lcsWalk]
  exact pairing.length_le

/-! ## Hunks that leave out no more than they have to -/

theorem length_le_lcs {l a b : List α} (inA : l.Sublist a) (inB : l.Sublist b) :
    l.length ≤ lcs a b := by
  induction a, b using lcs.induct generalizing l with
  | case1 b => rw [List.sublist_nil.mp inA, List.length_nil]; exact Nat.zero_le _
  | case2 x a => rw [List.sublist_nil.mp inB, List.length_nil]; exact Nat.zero_le _
  | case3 a y b ih =>
      have shorter := ih inA.tail inB.tail
      rw [List.length_tail] at shorter
      rw [lcs, if_pos rfl]
      omega
  | case4 x a y b other ihA ihB =>
      rw [lcs, if_neg other]
      rcases List.sublist_cons_iff.mp inA with inA' | ⟨l', rfl, -⟩
      · exact (ihA inA' inB).trans (le_max_left _ _)
      · -- the common text begins with `x`, so the side passes over `y`
        rcases List.sublist_cons_iff.mp inB with inB' | ⟨_, eq, -⟩
        · exact (ihB inA inB').trans (le_max_right _ _)
        · exact absurd (List.cons.inj eq).1 other

variable {base side : List α} {hunks taken left : List Hunk} {b s b' s' : Nat}

omit [DecidableEq α]

theorem length_slice {l : List α} {start stop : Nat} (inside : stop ≤ l.length) :
    (slice l start stop).length = stop - start := by
  rw [slice, List.length_take, List.length_drop]
  omega

/-- The lines of the base that hunks take out. -/
def removed : List Hunk → Nat
  | [] => 0
  | h :: hunks => h.bEnd - h.bStart + removed hunks

def inserted : List Hunk → Nat
  | [] => 0
  | h :: hunks => h.sEnd - h.sStart + inserted hunks

theorem Spans.balance (spans : Spans base side hunks b s b' s') :
    s' + removed hunks + b = s + inserted hunks + b' := by
  induction hunks generalizing b s with
  | nil =>
      have := Copies.le spans
      have := Copies.same spans
      simp only [removed, inserted]
      omega
  | cons h hunks ih =>
      obtain ⟨run, inside, inside', rest⟩ := spans
      have := run.le
      have := run.same
      have := ih rest
      simp only [removed, inserted] at this ⊢
      omega

/-- The lines the two sides of a span have in common: those its hunks leave. -/
theorem Spans.exists_common (spans : Spans base side hunks b s b' s') (inside : b' ≤ base.length) :
    ∃ l : List α, l.Sublist (slice base b b') ∧ l.Sublist (slice side s s') ∧
      l.length + removed hunks = b' - b := by
  induction hunks generalizing b s with
  | nil =>
      refine ⟨slice base b b', .refl _, ?_, length_slice inside⟩
      rw [Copies.text spans]
  | cons h hunks ih =>
      obtain ⟨run, le, le', rest⟩ := spans
      obtain ⟨l, inBase, inSide, length⟩ := ih rest
      have restLe := rest.le
      have runSame := run.same
      have runLe := run.le
      refine ⟨slice base b h.bStart ++ l, ?_, ?_, ?_⟩
      · rw [← slice_append run.le (le.trans restLe.1), ← slice_append le restLe.1]
        exact (List.Sublist.refl _).append (inBase.trans (List.sublist_append_right _ _))
      · rw [← slice_append (b := h.sStart) (by omega) (le'.trans restLe.2),
          ← slice_append le' restLe.2, run.text]
        exact (List.Sublist.refl _).append (inSide.trans (List.sublist_append_right _ _))
      · have gap : (slice base b h.bStart).length = h.bStart - b := length_slice (by omega)
        simp only [List.length_append, gap, removed] at length ⊢
        omega

/-- No text common to the two sides of a span is longer than what its hunks leave, and none of
them is empty. -/
structure Tight (base side : List α) (hunks : List Hunk) (b s b' s' : Nat) : Prop where
  longest : ∀ l : List α, l.Sublist (slice base b b') → l.Sublist (slice side s s') →
    l.length + removed hunks ≤ b' - b
  changes : ∀ h ∈ hunks, h.bStart < h.bEnd ∨ h.sStart < h.sEnd

theorem removed_append (taken left : List Hunk) :
    removed (taken ++ left) = removed taken + removed left := by
  induction taken with
  | nil => simp [removed]
  | cons h taken ih => simp only [List.cons_append, removed, ih, Nat.add_assoc]

/-- What is tight between two positions is tight in each part of it. -/
theorem Tight.parts {start stop q q' : Nat} (tight : Tight base side (taken ++ left) b s b' s')
    (front : Copies base side b s start q) (part : Spans base side taken start q stop q')
    (rest : Spans base side left stop q' b' s') (inside : b' ≤ base.length) :
    Tight base side taken start q stop q' ∧ Tight base side left stop q' b' s' := by
  have frontSame := front.same
  have frontLe := front.le
  have partLe := part.le
  have restLe := rest.le
  have frontLength : (slice base b start).length = start - b := length_slice (by omega)
  have inBase {l l' : List α} (first : l.Sublist (slice base start stop))
      (second : l'.Sublist (slice base stop b')) :
      (slice base b start ++ (l ++ l')).Sublist (slice base b b') := by
    rw [← slice_append front.le (partLe.1.trans restLe.1), ← slice_append partLe.1 restLe.1]
    exact (List.Sublist.refl _).append (first.append second)
  have inSide {l l' : List α} (first : l.Sublist (slice side q q'))
      (second : l'.Sublist (slice side q' s')) :
      (slice base b start ++ (l ++ l')).Sublist (slice side s s') := by
    rw [← slice_append (b := q) (by omega) (partLe.2.trans restLe.2),
      ← slice_append partLe.2 restLe.2, front.text]
    exact (List.Sublist.refl _).append (first.append second)
  constructor
  · refine ⟨fun l first second => ?_, fun h isIn => tight.changes h (List.mem_append_left _ isIn)⟩
    obtain ⟨l', first', second', length⟩ := rest.exists_common inside
    have bound := tight.longest _ (inBase first first') (inSide second second')
    rw [List.length_append, List.length_append, removed_append] at bound
    omega
  · refine ⟨fun l first second => ?_, fun h isIn => tight.changes h (List.mem_append_right _ isIn)⟩
    obtain ⟨l', first', second', length⟩ := part.exists_common (by omega)
    have bound := tight.longest _ (inBase first' first) (inSide second' second)
    rw [List.length_append, List.length_append, removed_append] at bound
    omega

/-- Where there are hunks the side reads otherwise. -/
theorem Tight.differ (tight : Tight base side hunks b s b' s')
    (spans : Spans base side hunks b s b' s') (some' : hunks ≠ []) (inside : b' ≤ base.length)
    (inside' : s' ≤ side.length) : slice side s s' ≠ slice base b b' := by
  intro same
  have bound := tight.longest (slice base b b') (.refl _) (by rw [same])
  have lengths := congrArg List.length same
  rw [length_slice inside] at bound lengths
  rw [length_slice inside'] at lengths
  have balance := spans.balance
  have le := spans.le
  obtain ⟨h, rest, rfl⟩ := List.exists_cons_of_ne_nil some'
  have change := tight.changes h List.mem_cons_self
  simp only [removed, inserted] at bound balance
  omega

theorem removed_hunksLoop (pairing : Matching base side b s pairs) (inside : b ≤ base.length) :
    removed (hunksLoop base side pairs b s) + pairs.length + b = base.length := by
  induction pairs generalizing b s with
  | nil =>
      rw [hunksLoop]
      split
      · simp only [removed, List.length_nil]
        omega
      · simp only [removed, List.length_nil]
        omega
  | cons p pairs ih =>
      obtain ⟨pb, ps⟩ := p
      obtain ⟨le, -, ⟨line, inBase, -⟩, rest⟩ := pairing
      obtain ⟨bound, -⟩ := List.getElem?_eq_some_iff.mp inBase
      have tail := ih rest (by omega)
      simp only [hunksLoop]
      split
      · simp only [removed, List.length_cons]
        omega
      · simp only [List.length_cons]
        omega

theorem hunksLoop_changes (pairs : List (Nat × Nat)) (b s : Nat) :
    ∀ h ∈ hunksLoop base side pairs b s, h.bStart < h.bEnd ∨ h.sStart < h.sEnd := by
  induction pairs generalizing b s with
  | nil =>
      intro h isIn
      rw [hunksLoop] at isIn
      split at isIn
      · rw [List.mem_singleton.mp isIn]
        assumption
      · exact absurd isIn List.not_mem_nil
  | cons p pairs ih =>
      intro h isIn
      simp only [hunksLoop] at isIn
      split at isIn
      · rcases List.mem_cons.mp isIn with rfl | isIn
        · assumption
        · exact ih _ _ h isIn
      · exact ih _ _ h isIn

theorem tight_hunksOf [DecidableEq α] (base side : List α) :
    Tight base side (hunksOf base side) 0 0 base.length side.length := by
  refine ⟨fun l inBase inSide => ?_, hunksLoop_changes _ 0 0⟩
  rw [slice_zero_length] at inBase inSide
  have bound := length_le_lcs inBase inSide
  have length : (lcsPairs base side).length = lcs base side :=
    length_lcsWalk base side 0 0
  have removes := removed_hunksLoop (matching_lcsWalk base side (lcsTable base side) 0 0)
    (Nat.zero_le _)
  rw [hunksOf]
  rw [← lcsPairs, length] at removes
  omega

end Everdict.WorkspaceFile
