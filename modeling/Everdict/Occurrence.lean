import Mathlib.Data.List.Infix
import Mathlib.Tactic.Common

/-!
# Where one list stands in another

`indexOf` and `lastIndexOf` search as the methods of a string do.  A unit that is no part of
what is searched for stops it: what is found stands on one side (`infix_append_stop`,
`occurrence_behind`).  A text of lines that each end is split into the lines, and an empty rest
(`splitOn_lines`).
-/

namespace Occurrence

variable {α : Type} {m a b t : List α} {u : α}

/-! ## Stops -/

theorem prefix_of_not_mem (some' : m ≠ []) (other : u ∉ m) : ¬ m <+: u :: t := by
  obtain ⟨u', m', rfl⟩ := List.exists_cons_of_ne_nil some'
  intro begins
  rw [(List.cons_prefix_cons.mp begins).1] at other
  exact other List.mem_cons_self

theorem infix_of_not_mem (some' : m ≠ []) (other : u ∉ m) : m <:+: u :: t ↔ m <:+: t := by
  rw [List.infix_cons_iff]
  exact or_iff_right (prefix_of_not_mem some' other)

theorem not_infix_nil (some' : m ≠ []) : ¬ m <:+: [] := fun inside =>
  some' (List.infix_nil.mp inside)

theorem prefix_append_stop (a : List α) (other : u ∉ m) : m <+: a ++ u :: t ↔ m <+: a := by
  induction a generalizing m with
  | nil =>
      by_cases none : m = []
      · subst none
        exact iff_of_true List.nil_prefix List.nil_prefix
      · exact iff_of_false (prefix_of_not_mem none other) fun begins =>
          none (List.prefix_nil.mp begins)
  | cons u' a ih =>
      cases m with
      | nil => exact iff_of_true List.nil_prefix List.nil_prefix
      | cons u'' m =>
          rw [List.cons_append, List.cons_prefix_cons, List.cons_prefix_cons,
            ih fun inside => other (List.mem_cons_of_mem _ inside)]

/-- Over a unit that is no part of it, nothing stands. -/
theorem infix_append_stop (some' : m ≠ []) (a : List α) (other : u ∉ m) :
    m <:+: a ++ u :: t ↔ m <:+: a ∨ m <:+: t := by
  induction a with
  | nil =>
      rw [List.nil_append, infix_of_not_mem some' other]
      exact (or_iff_right (not_infix_nil some')).symm
  | cons u' a ih =>
      have begins := @prefix_append_stop α m t u (u' :: a) other
      rw [List.cons_append] at begins
      rw [List.cons_append, List.infix_cons_iff, List.infix_cons_iff, ih, begins, or_assoc]

/-- What does not stand before the stop begins behind it. -/
theorem occurrence_behind {p : List α} (some' : m ≠ []) (other : u ∉ m) (before : ¬ m <:+: p)
    (eq : p ++ u :: t = a ++ (m ++ b)) : ∃ a', a = p ++ u :: a' ∧ t = a' ++ (m ++ b) := by
  induction p generalizing a with
  | nil =>
      cases a with
      | nil =>
          have begins : m <+: u :: t := ⟨b, eq.symm⟩
          exact (prefix_of_not_mem some' other begins).elim
      | cons u' a =>
          obtain ⟨rfl, rest⟩ := List.cons.inj eq
          exact ⟨a, rfl, rest⟩
  | cons u' p ih =>
      cases a with
      | nil =>
          have begins : m <+: (u' :: p) ++ u :: t := ⟨b, eq.symm⟩
          exact (before ((prefix_append_stop (u' :: p) other).mp begins).isInfix).elim
      | cons u'' a =>
          obtain ⟨rfl, rest⟩ := List.cons.inj eq
          obtain ⟨a', rfl, there⟩ := ih (fun inside => before (List.infix_cons inside)) rest
          exact ⟨a', rfl, there⟩

/-! ## Searching -/

section Search

variable [DecidableEq α]

/-- `text.indexOf(m)` -/
def indexOf (m : List α) : List α → Option Nat
  | [] => if m = [] then some 0 else none
  | u :: t => if m <+: u :: t then some 0 else (indexOf m t).map (· + 1)

/-- `text.lastIndexOf(m)` -/
def lastIndexOf (m : List α) : List α → Option Nat
  | [] => if m = [] then some 0 else none
  | u :: t =>
      match lastIndexOf m t with
      | some i => some (i + 1)
      | none => if m <+: u :: t then some 0 else none

theorem indexOf_none_iff (some' : m ≠ []) : indexOf m t = none ↔ ¬ m <:+: t := by
  induction t with
  | nil =>
      rw [indexOf, if_neg some']
      exact iff_of_true rfl (not_infix_nil some')
  | cons u t ih =>
      rw [indexOf, List.infix_cons_iff]
      split
      · next begins => exact iff_of_false (fun eq => by cases eq) fun none => none (Or.inl begins)
      · next begins =>
          rw [Option.map_eq_none_iff, ih]
          exact not_congr (or_iff_right begins).symm

/-- What is found stands where it is found. -/
theorem indexOf_some {i : Nat} (found : indexOf m t = some i) :
    t = t.take i ++ (m ++ t.drop (i + m.length)) := by
  induction t generalizing i with
  | nil =>
      unfold indexOf at found
      split at found
      · next none =>
          subst none
          obtain rfl := Option.some_inj.mp found
          rfl
      · cases found
  | cons u t ih =>
      unfold indexOf at found
      split at found
      · next begins =>
          obtain rfl := Option.some_inj.mp found
          rw [List.take_zero, List.nil_append, Nat.zero_add]
          exact (List.prefix_append_drop begins)
      · obtain ⟨i, there, rfl⟩ := Option.map_eq_some_iff.mp found
        rw [List.take_succ_cons, Nat.succ_add_eq_add_succ, List.cons_append]
        exact congrArg (u :: ·) (ih there)

theorem indexOf_append (m t : List α) : indexOf m (m ++ t) = some 0 := by
  cases m with
  | nil => cases t with
    | nil => rfl
    | cons => exact if_pos List.nil_prefix
  | cons u m => exact if_pos (List.prefix_append _ _)

theorem lastIndexOf_none_iff (some' : m ≠ []) : lastIndexOf m t = none ↔ ¬ m <:+: t := by
  induction t with
  | nil =>
      rw [lastIndexOf, if_neg some']
      exact iff_of_true rfl (not_infix_nil some')
  | cons u t ih =>
      rw [lastIndexOf, List.infix_cons_iff]
      cases later : lastIndexOf m t with
      | some i =>
          refine iff_of_false (fun eq => by cases eq) fun none => none (Or.inr ?_)
          by_contra absent
          rw [ih.mpr absent] at later
          cases later
      | none =>
          have absent := ih.mp later
          simp only [ite_eq_right_iff, reduceCtorEq, imp_false]
          exact not_congr (or_iff_left absent).symm

theorem lastIndexOf_some {i : Nat} (found : lastIndexOf m t = some i) :
    t = t.take i ++ (m ++ t.drop (i + m.length)) := by
  induction t generalizing i with
  | nil =>
      unfold lastIndexOf at found
      split at found
      · next none =>
          subst none
          obtain rfl := Option.some_inj.mp found
          rfl
      · cases found
  | cons u t ih =>
      unfold lastIndexOf at found
      split at found
      · next i there =>
          obtain rfl := Option.some_inj.mp found
          rw [List.take_succ_cons, Nat.succ_add_eq_add_succ, List.cons_append]
          exact congrArg (u :: ·) (ih there)
      · split at found
        · next begins =>
            obtain rfl := Option.some_inj.mp found
            rw [List.take_zero, List.nil_append, Nat.zero_add]
            exact (List.prefix_append_drop begins)
        · cases found

theorem lastIndexOf_append_right {i : Nat} (a : List α) (found : lastIndexOf m b = some i) :
    lastIndexOf m (a ++ b) = some (a.length + i) := by
  induction a with
  | nil => rw [List.nil_append, List.length_nil, Nat.zero_add, found]
  | cons u a ih =>
      rw [List.cons_append, lastIndexOf, ih, List.length_cons, Nat.add_right_comm]

theorem lastIndexOf_append_stop (some' : m ≠ []) (a : List α) (other : u ∉ m)
    (behind : ¬ m <:+: t) : lastIndexOf m (a ++ u :: t) = lastIndexOf m a := by
  induction a with
  | nil =>
      rw [List.nil_append, lastIndexOf, if_neg some']
      exact (lastIndexOf_none_iff some').mpr fun inside =>
        behind ((infix_of_not_mem some' other).mp inside)
  | cons u' a ih =>
      have begins := @prefix_append_stop α m t u (u' :: a) other
      rw [List.cons_append] at begins
      rw [List.cons_append, lastIndexOf, lastIndexOf, ih]
      simp only [begins]

/-- Where nothing stands behind its first unit, it is found at the front. -/
theorem lastIndexOf_front (some' : m ≠ []) (other : u ∉ m) (behind : ¬ m <:+: t) :
    lastIndexOf m (m ++ u :: t) = some 0 := by
  obtain ⟨u', m', rfl⟩ := List.exists_cons_of_ne_nil some'
  rw [lastIndexOf_append_stop some' _ other behind, lastIndexOf]
  have shorter : ¬ (u' :: m') <:+: m' := by
    intro inside
    have le := inside.length_le
    rw [List.length_cons] at le
    omega
  rw [(lastIndexOf_none_iff some').mpr shorter]
  exact if_pos List.prefix_rfl

end Search

/-! ## Lines -/

section Lines

/-- Lines that each end. -/
def lines (ending : α) (ls : List (List α)) : List α := ls.flatMap (· ++ [ending])

theorem lines_cons (ending : α) (l : List α) (ls : List (List α)) :
    lines ending (l :: ls) = l ++ ending :: lines ending ls := by
  rw [lines, List.flatMap_cons, List.append_assoc, List.singleton_append, ← lines]

theorem splitOn_lines_append [DecidableEq α] {ending : α} {ls : List (List α)} (whole : ∀ l ∈ ls, ending ∉ l)
    (rest : List α) : (lines ending ls ++ rest).splitOn ending = ls ++ rest.splitOn ending := by
  induction ls with
  | nil => rfl
  | cons l ls ih =>
      rw [lines_cons, List.append_assoc, List.cons_append,
        List.splitOn_append_cons_self_of_not_mem (whole l List.mem_cons_self),
        ih fun l inside => whole l (List.mem_cons_of_mem _ inside), List.cons_append]

theorem splitOn_lines [DecidableEq α] {ending : α} {ls : List (List α)} (whole : ∀ l ∈ ls, ending ∉ l) :
    (lines ending ls).splitOn ending = ls ++ [[]] := by
  have split := splitOn_lines_append whole []
  rw [List.append_nil] at split
  exact split

/-- Joining the lines and an empty rest gives the lines back. -/
theorem intercalate_lines (ending : α) (ls : List (List α)) :
    [ending].intercalate (ls ++ [[]]) = lines ending ls := by
  induction ls with
  | nil => rfl
  | cons l ls ih =>
      rw [lines_cons, ← ih]
      obtain ⟨l', rest, eq⟩ := List.exists_cons_of_ne_nil (List.append_ne_nil_of_right_ne_nil ls
        (List.cons_ne_nil ([] : List α) []))
      rw [List.cons_append, eq, List.intercalate_cons_cons, List.append_assoc,
        List.singleton_append]

theorem infix_lines (some' : m ≠ []) {ending : α} (other : ending ∉ m) (ls : List (List α)) :
    m <:+: lines ending ls ↔ ∃ l ∈ ls, m <:+: l := by
  induction ls with
  | nil =>
      refine iff_of_false (not_infix_nil some') ?_
      rintro ⟨l, inside, -⟩
      cases inside
  | cons l ls ih =>
      rw [lines_cons, infix_append_stop some' l other, ih, List.exists_mem_cons_iff]

end Lines

end Occurrence
