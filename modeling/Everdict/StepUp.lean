import Mathlib.Data.Finset.Card
import Mathlib.Data.Fintype.Card
import Mathlib.Order.Bounds.Basic

/-!
# Step-up procedures

Each of finitely many hypotheses has a value, and the `k`-th of a rising row of lines is the
bound for a set of `k` of them.  A hypothesis is rejected if its value lies under a line that
at least as many values lie under as its number says.  The rejected ones are the largest set
that no value outside of it undercuts and that lies under its own line (`isGreatest_rejects`).
-/

namespace StepUp

variable {ι ι' κ : Type*} [Fintype ι] [Fintype ι'] [LinearOrder κ] {p p' : ι → κ}
  {line line' : ℕ → κ}

/-- Those whose value lies under a bound. -/
def under (p : ι → κ) (bound : κ) : Finset ι := {i | p i ≤ bound}

def Rejects (p : ι → κ) (line : ℕ → κ) (i : ι) : Prop :=
  ∃ k, k ≤ (under p (line k)).card ∧ p i ≤ line k

/-- A set that no value outside of it undercuts and that lies under its own line. -/
structure Admissible (p : ι → κ) (line : ℕ → κ) (R : Finset ι) : Prop where
  downward : ∀ i ∈ R, ∀ j ∉ R, ¬ p j < p i
  underLine : ∀ i ∈ R, p i ≤ line R.card

theorem mem_under {bound : κ} {i : ι} : i ∈ under p bound ↔ p i ≤ bound := by
  rw [under, Finset.mem_filter_univ]

theorem under_mono (lower : p' ≤ p) {bound bound' : κ} (le : bound ≤ bound') :
    under p bound ⊆ under p' bound' := by
  intro i isIn
  rw [mem_under] at isIn ⊢
  exact (lower i).trans (isIn.trans le)

/-- A hypothesis stays rejected when values fall and lines rise. -/
theorem Rejects.mono {i : ι} (rejects : Rejects p line i) (lower : p' ≤ p) (higher : line ≤ line') :
    Rejects p' line' i := by
  obtain ⟨k, enough, le⟩ := rejects
  refine ⟨k, enough.trans (Finset.card_le_card (under_mono lower (higher k))), ?_⟩
  exact (lower i).trans (le.trans (higher k))

/-- Hypotheses are rejected by their values, whatever they are called. -/
theorem rejects_comp (e : ι' ≃ ι) {i : ι'} : Rejects (p ∘ e) line i ↔ Rejects p line (e i) := by
  have renamed : ∀ bound, (under (p ∘ e) bound).card = (under p bound).card := by
    intro bound
    refine Finset.card_equiv e fun j => ?_
    rw [mem_under, mem_under]
    rfl
  simp only [Rejects, renamed, Function.comp_apply]

/-- An admissible set is rejected: as many values as it has lie under its line. -/
theorem Admissible.rejects {R : Finset ι} (admissible : Admissible p line R) {i : ι}
    (isIn : i ∈ R) : Rejects p line i := by
  refine ⟨R.card, Finset.card_le_card fun j inR => ?_, admissible.underLine i isIn⟩
  exact mem_under.mpr (admissible.underLine j inR)

theorem admissible_rejects {R : Finset ι} (mono : Monotone line)
    (mem : ∀ i, i ∈ R ↔ Rejects p line i) : Admissible p line R where
  downward := by
    intro i isIn j out lower
    obtain ⟨k, enough, le⟩ := (mem i).mp isIn
    exact out ((mem j).mpr ⟨k, enough, lower.le.trans le⟩)
  underLine := by
    intro i isIn
    obtain ⟨k, enough, le⟩ := (mem i).mp isIn
    have all : under p (line k) ⊆ R := fun j low =>
      (mem j).mpr ⟨k, enough, mem_under.mp low⟩
    exact le.trans (mono (enough.trans (Finset.card_le_card all)))

theorem isGreatest_rejects {R : Finset ι} (mono : Monotone line)
    (mem : ∀ i, i ∈ R ↔ Rejects p line i) : IsGreatest {R | Admissible p line R} R :=
  ⟨admissible_rejects mono mem, fun _ admissible i isIn =>
    (mem i).mpr (Admissible.rejects admissible isIn)⟩

/-! ## Ranks -/

section Ranks

variable {α : Type*} {key : α → κ} {l : List α}

/-- In a sorted list the elements under a bound are the first. -/
theorem getElem_le_iff (ordered : l.Pairwise fun a b => key a ≤ key b) {bound : κ} {r : ℕ}
    (inside : r < l.length) :
    key l[r] ≤ bound ↔ r < l.countP fun a => key a ≤ bound := by
  induction l generalizing r with
  | nil => cases inside
  | cons a l ih =>
      obtain ⟨first, rest⟩ := List.pairwise_cons.mp ordered
      rw [List.countP_cons]
      by_cases low : key a ≤ bound
      · cases r with
        | zero => simp [low]
        | succ r =>
            rw [List.getElem_cons_succ, ih rest (Nat.lt_of_succ_lt_succ inside)]
            simp [low]
      · have none : l.countP (fun a => key a ≤ bound) = 0 := by
          refine List.countP_eq_zero.mpr fun b isIn under => low ?_
          exact (first b isIn).trans (of_decide_eq_true under)
        have high : ¬ key (a :: l)[r] ≤ bound := by
          intro under
          rcases List.mem_cons.mp (List.getElem_mem inside) with eq | isIn
          · exact low (eq ▸ under)
          · exact low ((first _ isIn).trans under)
        simp [low, none, high]

end Ranks

end StepUp
