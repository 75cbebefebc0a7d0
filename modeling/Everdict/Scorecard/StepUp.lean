import Everdict.Scorecard.Trials
import Everdict.Sorting
import Everdict.StepUp
import Mathlib.Data.Fintype.EquivFin

/-!
# The correction over the family of tests

`benjaminiHochberg` sorts the values and finds the last rank within its share of `alpha`.
What it rejects is the step-up procedure's set for the lines `k / m * alpha`
(`mem_benjaminiHochberg_iff`), so it has that set's properties (`benjaminiHochberg_step_up`).
-/

namespace Everdict.Scorecard

open StepUp
open Sorting (sortBy sortBy_perm sortBy_pairwise)

variable {pValues : List ℚ} {alpha : ℚ}

/-- The values in order, each with its index. -/
def ranks (pValues : List ℚ) : List (ℚ × Nat) := sortBy Prod.fst pValues.zipIdx

def shareOf (m : Nat) (alpha : ℚ) (k : Nat) : ℚ := k / m * alpha

def valueAt (pValues : List ℚ) (i : Fin pValues.length) : ℚ := pValues[i]

theorem mem_ranks {e : ℚ × Nat} : e ∈ ranks pValues ↔ pValues[e.2]? = some e.1 := by
  rw [ranks, (sortBy_perm _ _).mem_iff, List.mem_zipIdx_iff_getElem?]

theorem shareOf_mono (nonneg : 0 ≤ alpha) (m : Nat) : Monotone (shareOf m alpha) := by
  intro k k' le
  unfold shareOf
  gcongr

theorem shareOf_le {alpha' : ℚ} (le : alpha ≤ alpha') (m : Nat) :
    shareOf m alpha ≤ shareOf m alpha' := by
  intro k
  exact mul_le_mul_of_nonneg_left le (div_nonneg k.cast_nonneg m.cast_nonneg)

/-- As many ranks lie under a bound as values do. -/
theorem countP_ranks (bound : ℚ) :
    (ranks pValues).countP (fun e => e.1 ≤ bound) = (under (valueAt pValues) bound).card := by
  have values : (ranks pValues).countP (fun e => e.1 ≤ bound) =
      pValues.countP (fun p => p ≤ bound) := by
    rw [ranks, (sortBy_perm _ _).countP_eq]
    conv_rhs => rw [← List.zipIdx_map_fst 0 pValues, List.countP_map]
    rfl
  have listed : pValues = (List.finRange pValues.length).map (valueAt pValues) := by
    refine List.ext_getElem (by simp) fun i h h' => ?_
    simp [valueAt]
  rw [values]
  conv_lhs => rw [listed, List.countP_map]
  rw [List.countP_eq_length_filter]
  rfl

/-! ## The last rank within its line -/

theorem le_getLast_of_mem {α : Type*} {l : List α} {p : α × Nat → Bool} {last e : α × Nat}
    (isLast : (l.zipIdx.filter p).getLast? = some last) (isIn : e ∈ l.zipIdx.filter p) :
    e.2 ≤ last.2 := by
  have rising : (l.zipIdx.filter p).Pairwise fun a b => a.2 < b.2 := by
    refine List.Pairwise.sublist List.filter_sublist (List.pairwise_map.mp ?_)
    rw [List.zipIdx_map_snd]
    exact List.pairwise_lt_range'
  obtain ⟨front, eq⟩ := List.getLast?_eq_some_iff.mp isLast
  rw [eq] at rising isIn
  rcases List.mem_append.mp isIn with isIn | isIn
  · exact ((List.pairwise_append.mp rising).2.2 e isIn last (List.mem_singleton_self _)).le
  · rw [List.mem_singleton.mp isIn]

/-- The ranks within their share. -/
def withinShare (pValues : List ℚ) (alpha : ℚ) : List ((ℚ × Nat) × Nat) :=
  (ranks pValues).zipIdx.filter fun e => e.1.1 ≤ (e.2 + 1) / pValues.length * alpha

theorem mem_withinShare {e : ℚ × Nat} {r : Nat} :
    (e, r) ∈ withinShare pValues alpha ↔
      (ranks pValues)[r]? = some e ∧ e.1 ≤ shareOf pValues.length alpha (r + 1) := by
  rw [withinShare, List.mem_filter, List.mk_mem_zipIdx_iff_getElem?, decide_eq_true_eq, shareOf,
    Nat.cast_add, Nat.cast_one]

theorem benjaminiHochberg_of_none (none : (withinShare pValues alpha).getLast? = none) :
    benjaminiHochberg pValues alpha = [] := by
  unfold withinShare ranks sortBy at none
  simp only [benjaminiHochberg, none]

theorem benjaminiHochberg_of_some {last : (ℚ × Nat) × Nat}
    (isLast : (withinShare pValues alpha).getLast? = some last) :
    benjaminiHochberg pValues alpha = ((ranks pValues).take (last.2 + 1)).map Prod.snd := by
  unfold withinShare ranks sortBy at isLast
  simp only [benjaminiHochberg, isLast]
  rfl

/-- An index is rejected when its rank is not behind one that is within its share. -/
theorem mem_benjaminiHochberg {i : Nat} :
    i ∈ benjaminiHochberg pValues alpha ↔
      ∃ e r, (e, r) ∈ withinShare pValues alpha ∧
        i ∈ ((ranks pValues).take (r + 1)).map Prod.snd := by
  rcases isLast : (withinShare pValues alpha).getLast? with _ | ⟨e, r⟩
  · rw [benjaminiHochberg_of_none isLast]
    refine iff_of_false List.not_mem_nil ?_
    rintro ⟨e, r, isWithin, _⟩
    rw [List.getLast?_eq_none_iff.mp isLast] at isWithin
    cases isWithin
  · rw [benjaminiHochberg_of_some isLast]
    constructor
    · intro isIn
      exact ⟨e, r, List.mem_of_getLast? isLast, isIn⟩
    · rintro ⟨e', r', isWithin, isIn⟩
      have le : r' ≤ r := le_getLast_of_mem isLast isWithin
      refine List.map_subset _ ?_ isIn
      exact List.take_subset_take_left _ (by omega)

/-- The ranks that are taken are those whose values lie under the line of their number. -/
theorem mem_benjaminiHochberg_iff (nonneg : 0 ≤ alpha) {i : Nat} :
    i ∈ benjaminiHochberg pValues alpha ↔
      ∃ inside : i < pValues.length,
        Rejects (valueAt pValues) (shareOf pValues.length alpha) ⟨i, inside⟩ := by
  have ordered : (ranks pValues).Pairwise fun a b => a.1 ≤ b.1 := sortBy_pairwise _ _
  rw [mem_benjaminiHochberg]
  constructor
  · rintro ⟨e, r, isWithin, isIn⟩
    obtain ⟨placed, low⟩ := mem_withinShare.mp isWithin
    obtain ⟨inside, rfl⟩ := List.getElem?_eq_some_iff.mp placed
    obtain ⟨⟨p, i⟩, taken, rfl⟩ := List.mem_map.mp isIn
    obtain ⟨j, before, eq⟩ := List.mem_take_iff_getElem.mp taken
    obtain ⟨isIndex, value⟩ := List.getElem?_eq_some_iff.mp
      (mem_ranks.mp (List.mem_of_mem_take taken))
    refine ⟨isIndex, r + 1, ?_, ?_⟩
    · rw [← countP_ranks]
      exact (getElem_le_iff ordered inside).mp low
    · have first : (ranks pValues)[j].1 ≤ (ranks pValues)[r].1 := by
        rcases Nat.lt_or_ge j r with lt | ge
        · exact List.pairwise_iff_getElem.mp ordered j r _ _ lt
        · have same : j = r := by omega
          subst same
          exact le_rfl
      rw [eq] at first
      exact value.le.trans (first.trans low)
  · rintro ⟨isIndex, k, enough, low⟩
    obtain ⟨j, inside, eq⟩ := List.mem_iff_getElem.mp
      (mem_ranks.mpr (List.getElem?_eq_getElem isIndex) :
        (pValues[i], i) ∈ ranks pValues)
    -- the last of the ranks under the line is within its own share
    have rank := (getElem_le_iff ordered inside).mp
      ((congrArg Prod.fst eq).trans_le low : (ranks pValues)[j].1 ≤ _)
    rw [← countP_ranks] at enough
    set count := (ranks pValues).countP fun e => e.1 ≤ shareOf pValues.length alpha k
    have count_le : count ≤ (ranks pValues).length := List.countP_le_length
    have last : count - 1 < (ranks pValues).length := by omega
    have under : (ranks pValues)[count - 1].1 ≤ shareOf pValues.length alpha k :=
      (getElem_le_iff ordered last).mpr (by omega)
    refine ⟨(ranks pValues)[count - 1], count - 1, mem_withinShare.mpr ⟨?_, ?_⟩, ?_⟩
    · exact List.getElem?_eq_getElem last
    · exact under.trans (shareOf_mono nonneg _ (by omega))
    · refine List.mem_map.mpr ⟨(pValues[i], i), ?_, rfl⟩
      exact List.mem_take_iff_getElem.mpr ⟨j, by omega, eq⟩

theorem nodup_benjaminiHochberg : (benjaminiHochberg pValues alpha).Nodup := by
  have indices : ((ranks pValues).map Prod.snd).Nodup := by
    rw [ranks, ((sortBy_perm _ _).map _).nodup_iff, List.zipIdx_map_snd]
    exact List.nodup_range'
  rcases isLast : (withinShare pValues alpha).getLast? with _ | last
  · rw [benjaminiHochberg_of_none isLast]
    exact List.nodup_nil
  · rw [benjaminiHochberg_of_some isLast, List.map_take]
    exact indices.sublist (List.take_sublist _ _)

/-! ## The rejected set -/

/-- The indices that are rejected. -/
def rejectedSet (pValues : List ℚ) (alpha : ℚ) : Finset (Fin pValues.length) :=
  {i | (i : Nat) ∈ benjaminiHochberg pValues alpha}

/-- A list of the same length is read at the same indices. -/
theorem mem_benjaminiHochberg_cast {l : List ℚ} {m : Nat} (nonneg : 0 ≤ alpha)
    (length : m = l.length) {i : Fin m} :
    (i : Nat) ∈ benjaminiHochberg l alpha ↔
      Rejects (valueAt l ∘ finCongr length) (shareOf m alpha) i := by
  subst length
  rw [mem_benjaminiHochberg_iff nonneg]
  exact exists_prop_of_true i.isLt

theorem benjaminiHochberg_perm (nonneg : 0 ≤ alpha) (e : Equiv.Perm (Fin pValues.length))
    (i : Fin pValues.length) :
    (i : Nat) ∈ benjaminiHochberg (List.ofFn (valueAt pValues ∘ e)) alpha ↔
      (e i : Nat) ∈ benjaminiHochberg pValues alpha := by
  have length : pValues.length = (List.ofFn (valueAt pValues ∘ e)).length := List.length_ofFn.symm
  have same : valueAt (List.ofFn (valueAt pValues ∘ e)) ∘ finCongr length =
      valueAt pValues ∘ e := by
    funext j
    simp [valueAt]
  rw [mem_benjaminiHochberg_cast nonneg length, mem_benjaminiHochberg_cast nonneg rfl, same]
  exact rejects_comp e

theorem benjaminiHochberg_mono {lower : List ℚ} {alpha' : ℚ} (nonneg : 0 ≤ alpha)
    (raised : alpha ≤ alpha') (lowered : List.Forall₂ (· ≤ ·) lower pValues) {i : Nat}
    (isIn : i ∈ benjaminiHochberg pValues alpha) : i ∈ benjaminiHochberg lower alpha' := by
  obtain ⟨length, le⟩ := List.forall₂_iff_get.mp lowered
  obtain ⟨inside, rejects⟩ := (mem_benjaminiHochberg_iff nonneg).mp isIn
  refine (mem_benjaminiHochberg_cast (nonneg.trans raised) length.symm (i := ⟨i, inside⟩)).mpr ?_
  refine rejects.mono (fun j => ?_) (shareOf_le raised _)
  exact le j (j.isLt.trans_eq length.symm) j.isLt

/-- The rejected indices are the largest set that is downward closed in the values and in
which each is within the share of the set's size; they follow the values under every
permutation, and stay rejected when `alpha` rises or values fall. -/
theorem benjaminiHochberg_step_up (pValues : List ℚ) {alpha : ℚ} (positive : 0 < alpha) :
    ((benjaminiHochberg pValues alpha).Nodup ∧
        ∀ i ∈ benjaminiHochberg pValues alpha, i < pValues.length) ∧
      IsGreatest {R | Admissible (valueAt pValues) (shareOf pValues.length alpha) R}
        (rejectedSet pValues alpha) ∧
      (∀ (e : Equiv.Perm (Fin pValues.length)) (i : Fin pValues.length),
        (i : Nat) ∈ benjaminiHochberg (List.ofFn (valueAt pValues ∘ e)) alpha ↔
          (e i : Nat) ∈ benjaminiHochberg pValues alpha) ∧
      ∀ alpha' lower, alpha ≤ alpha' → List.Forall₂ (· ≤ ·) lower pValues →
        benjaminiHochberg pValues alpha ⊆ benjaminiHochberg lower alpha' := by
  have nonneg := positive.le
  refine ⟨⟨nodup_benjaminiHochberg, fun i isIn => ?_⟩, ?_, ?_, ?_⟩
  · exact ((mem_benjaminiHochberg_iff nonneg).mp isIn).choose
  · exact isGreatest_rejects (shareOf_mono nonneg _) fun i => by
      rw [rejectedSet, Finset.mem_filter_univ]
      exact mem_benjaminiHochberg_cast nonneg rfl
  · exact benjaminiHochberg_perm nonneg
  · intro alpha' lower raised lowered i isIn
    exact benjaminiHochberg_mono nonneg raised lowered isIn

/-- The first rank misses its own line and is rejected with the second. -/
theorem step_up_two :
    ¬ (1 : ℚ) ≤ shareOf 2 1 1 ∧ benjaminiHochberg [1, 1] 1 = [0, 1] ∧
      benjaminiHochberg [1, 1] 1 ⊆ benjaminiHochberg [0, 1] 1 :=
  ⟨by decide +kernel, by decide +kernel,
    (benjaminiHochberg_step_up [1, 1] one_pos).2.2.2 1 [0, 1] le_rfl
      (.cons zero_le_one (.cons le_rfl .nil))⟩

end Everdict.Scorecard
