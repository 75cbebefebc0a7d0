import Mathlib.Data.List.Pairwise
import Mathlib.Order.Lattice
import Mathlib.Tactic.Common

/-!
# Arbitration by rank

Entries arrive one after another; under each key the entry of the highest rank so far
holds, and an entry takes its key over when no holder outranks it.  What holds at the
end and who took over when do not depend on how the holders are kept: `Holds` says
what they are after the entries so far, `arbitrate_eq` which entries took over.

`insertRows` is a multi-row upsert with the same condition, which a database refuses
when it would affect one row twice; `insertRows_iff` says when it arbitrates.
-/

namespace Arbitration

variable {κ α τ : Type*} [DecidableEq κ] [LinearOrder τ] {key : α → κ} {rank : α → τ}

/-- Would the entry take its key over? -/
def takes (key : α → κ) (rank : α → τ) (held : κ → Option α) (e : α) : Bool :=
  (held (key e)).all fun holder => rank holder ≤ rank e

def holder (key : α → κ) (held : κ → Option α) (e : α) : κ → Option α :=
  Function.update held (key e) (some e)

/-- Offer the entries in order: the ones that take over, and the holders after them. -/
def arbitrate (key : α → κ) (rank : α → τ) (held : κ → Option α) :
    List α → List α × (κ → Option α)
  | [] => ([], held)
  | e :: es =>
      if takes key rank held e then
        (e :: (arbitrate key rank (holder key held e) es).1,
          (arbitrate key rank (holder key held e) es).2)
      else arbitrate key rank held es

/-- Does no entry of its key before it outrank the entry? -/
def current (key : α → κ) (rank : α → τ) (earlier : List α) (e : α) : Bool :=
  earlier.all fun other => key other = key e → rank other ≤ rank e

/-- The entries that no earlier one outranks. -/
def accepts (key : α → κ) (rank : α → τ) (earlier : List α) : List α → List α
  | [] => []
  | e :: es =>
      if current key rank earlier e then e :: accepts key rank (earlier ++ [e]) es
      else accepts key rank (earlier ++ [e]) es

/-- The holders after some entries: each is one of them, and none of its key outranks it. -/
structure Holds (key : α → κ) (rank : α → τ) (held : κ → Option α) (earlier : List α) :
    Prop where
  source : ∀ k e, held k = some e → e ∈ earlier ∧ key e = k
  highest : ∀ e ∈ earlier, ∃ top, held (key e) = some top ∧ rank e ≤ rank top

section Holders

variable {held : κ → Option α} {earlier es : List α} {e : α}

omit [DecidableEq κ] in
theorem holds_nil : Holds key rank (fun _ => none) [] where
  source := fun _ _ found => nomatch found
  highest := fun _ mem => nomatch mem

theorem Holds.takes_eq (holds : Holds key rank held earlier) (e : α) :
    takes key rank held e = current key rank earlier e := by
  have same : takes key rank held e = true ↔ current key rank earlier e = true := by
    unfold takes current
    rw [List.all_eq_true]
    constructor
    · intro won other mem
      rw [decide_eq_true_eq]
      intro own
      obtain ⟨top, found, below⟩ := holds.highest other mem
      rw [own] at found
      rw [found, Option.all_some, decide_eq_true_eq] at won
      exact le_trans below won
    · intro won
      rcases found : held (key e) with _ | top
      · rfl
      · obtain ⟨mem, own⟩ := holds.source _ _ found
        have := won top mem
        rw [decide_eq_true_eq] at this
        simpa using this own
  exact Bool.eq_iff_iff.mpr same

theorem Holds.snoc_taken (holds : Holds key rank held earlier)
    (won : takes key rank held e = true) :
    Holds key rank (holder key held e) (earlier ++ [e]) where
  source := fun k top found => by
    unfold holder at found
    by_cases own : k = key e
    · subst own
      rw [Function.update_self] at found
      cases found
      exact ⟨by simp, rfl⟩
    · rw [Function.update_of_ne own] at found
      obtain ⟨mem, is_key⟩ := holds.source k top found
      exact ⟨List.mem_append_left _ mem, is_key⟩
  highest := fun other mem => by
    unfold holder
    rcases List.mem_append.mp mem with old | new
    · obtain ⟨top, found, below⟩ := holds.highest other old
      by_cases own : key other = key e
      · rw [own] at found ⊢
        rw [Function.update_self]
        unfold takes at won
        rw [found, Option.all_some, decide_eq_true_eq] at won
        exact ⟨e, rfl, le_trans below won⟩
      · rw [Function.update_of_ne own]
        exact ⟨top, found, below⟩
    · rw [List.mem_singleton.mp new, Function.update_self]
      exact ⟨e, rfl, le_refl _⟩

omit [DecidableEq κ] in
theorem Holds.snoc_refused (holds : Holds key rank held earlier)
    (refused : takes key rank held e = false) : Holds key rank held (earlier ++ [e]) where
  source := fun k top found => by
    obtain ⟨mem, own⟩ := holds.source k top found
    exact ⟨List.mem_append_left _ mem, own⟩
  highest := fun other mem => by
    rcases List.mem_append.mp mem with old | new
    · exact holds.highest other old
    · rw [List.mem_singleton.mp new]
      rcases found : held (key e) with _ | top
      · simp [takes, found] at refused
      · simp only [takes, found, Option.all_some, decide_eq_false_iff_not, not_le] at refused
        exact ⟨top, rfl, le_of_lt refused⟩

/-- Arbitrating keeps the highest of each key and lets the entries through that no
earlier one outranks. -/
theorem arbitrate_eq (holds : Holds key rank held earlier) (es : List α) :
    (arbitrate key rank held es).1 = accepts key rank earlier es ∧
      Holds key rank (arbitrate key rank held es).2 (earlier ++ es) := by
  induction es generalizing held earlier with
  | nil =>
      rw [List.append_nil]
      exact ⟨rfl, holds⟩
  | cons e es ih =>
      have split : earlier ++ e :: es = earlier ++ [e] ++ es := by simp
      unfold arbitrate accepts
      rw [← holds.takes_eq, split]
      split
      · next won =>
          obtain ⟨through, after⟩ := ih (holds.snoc_taken won)
          rw [through]
          exact ⟨rfl, after⟩
      · next refused => exact ih (holds.snoc_refused (by simpa using refused))

theorem arbitrate_of_not_mem {k : κ} (absent : ∀ e ∈ es, key e ≠ k) :
    (arbitrate key rank held es).2 k = held k := by
  induction es generalizing held with
  | nil => rfl
  | cons e es ih =>
      have rest : ∀ e ∈ es, key e ≠ k := fun e mem => absent e (List.mem_cons_of_mem _ mem)
      unfold arbitrate
      split
      · dsimp only
        rw [ih rest, holder, Function.update_of_ne (Ne.symm (absent e List.mem_cons_self))]
      · exact ih rest

end Holders

/-! ## One statement for many rows -/

/-- Upsert the entries in one statement: the holders and the keys it wrote. A key that
was written is not written again: the whole statement fails. -/
def insertRows (key : α → κ) (rank : α → τ) (held : κ → Option α) (touched : List κ) :
    List α → Option ((κ → Option α) × List κ)
  | [] => some (held, touched)
  | e :: es =>
      if key e ∈ touched then none
      else if takes key rank held e then
        insertRows key rank (holder key held e) (key e :: touched) es
      else insertRows key rank held touched es

/-- Is the entry's key one of those that were written? -/
def named (key : α → κ) (wrote : List κ) (e : α) : Bool := key e ∈ wrote

/-- Entries of one key come together only where a holder outranks them all. -/
def Settled (key : α → κ) (rank : α → τ) (held : κ → Option α) (es : List α) : Prop :=
  es.Pairwise fun e e' =>
    key e = key e' → takes key rank held e = false ∧ takes key rank held e' = false

section InsertRows

variable {held : κ → Option α} {touched : List κ} {es : List α} {e e' : α}

theorem takes_holder_of_ne (ne : key e' ≠ key e) :
    takes key rank (holder key held e) e' = takes key rank held e' := by
  unfold takes holder
  rw [Function.update_of_ne ne]

theorem Settled.tail_taken (settled : Settled key rank held (e :: es))
    (won : takes key rank held e = true) :
    (∀ e' ∈ es, key e' ≠ key e) ∧ Settled key rank (holder key held e) es := by
  obtain ⟨head, tail⟩ := List.pairwise_cons.mp settled
  have apart : ∀ e' ∈ es, key e' ≠ key e := by
    intro e' mem same
    have refused := (head e' mem same.symm).1
    rw [won] at refused
    cases refused
  refine ⟨apart, List.Pairwise.imp_of_mem ?_ tail⟩
  intro a b ina inb pair same
  rw [takes_holder_of_ne (apart a ina), takes_holder_of_ne (apart b inb)]
  exact pair same

omit [DecidableEq κ] in
theorem Settled.symmetric (settled : Settled key rank held es) (ina : e ∈ es) (inb : e' ∈ es) :
    e = e' ∨ (key e = key e' →
      takes key rank held e = false ∧ takes key rank held e' = false) := by
  have : Std.Symm fun a b : α => key a = key b →
      takes key rank held a = false ∧ takes key rank held b = false :=
    ⟨fun _ _ pair same => (pair same.symm).symm⟩
  by_cases same : e = e'
  · exact Or.inl same
  · exact Or.inr (List.Pairwise.forall settled ina inb same)

/-- Under `Settled` the entries that take over are those that would have from the start. -/
theorem Settled.arbitrate (settled : Settled key rank held es) :
    (arbitrate key rank held es).1 = es.filter (takes key rank held) := by
  induction es generalizing held with
  | nil => rfl
  | cons e es ih =>
      unfold Arbitration.arbitrate
      split
      · next won =>
          obtain ⟨apart, rest⟩ := settled.tail_taken won
          rw [List.filter_cons_of_pos won]
          dsimp only
          rw [ih rest]
          congr 1
          apply List.filter_congr
          intro e' mem
          exact takes_holder_of_ne (apart e' mem)
      · next refused =>
          rw [List.filter_cons_of_neg refused]
          exact ih (List.pairwise_cons.mp settled).2

theorem Settled.insertRows (settled : Settled key rank held es)
    (fresh : ∀ e ∈ es, key e ∉ touched) :
    ∃ wrote, Arbitration.insertRows key rank held touched es =
        some ((Arbitration.arbitrate key rank held es).2, wrote) ∧
      ∀ k, k ∈ wrote ↔ k ∈ touched ∨ ∃ e ∈ es, takes key rank held e = true ∧ key e = k := by
  induction es generalizing held touched with
  | nil => exact ⟨touched, rfl, by simp⟩
  | cons e es ih =>
      unfold Arbitration.insertRows Arbitration.arbitrate
      rw [if_neg (fresh e List.mem_cons_self)]
      split
      · next won =>
          obtain ⟨apart, rest⟩ := settled.tail_taken won
          have fresh' : ∀ e' ∈ es, key e' ∉ key e :: touched := by
            intro e' mem
            rw [List.mem_cons, not_or]
            exact ⟨apart e' mem, fresh e' (List.mem_cons_of_mem _ mem)⟩
          obtain ⟨wrote, eq, keys⟩ := ih rest fresh'
          refine ⟨wrote, eq, fun k => ?_⟩
          rw [keys k, List.mem_cons]
          constructor
          · intro found
            rcases found with (rfl | old) | ⟨e', mem, won', own⟩
            · exact Or.inr ⟨e, List.mem_cons_self, won, rfl⟩
            · exact Or.inl old
            · rw [takes_holder_of_ne (apart e' mem)] at won'
              exact Or.inr ⟨e', List.mem_cons_of_mem _ mem, won', own⟩
          · intro found
            rcases found with old | ⟨e', mem, won', own⟩
            · exact Or.inl (Or.inr old)
            · rcases List.mem_cons.mp mem with rfl | mem
              · exact Or.inl (Or.inl own.symm)
              · refine Or.inr ⟨e', mem, ?_, own⟩
                rw [takes_holder_of_ne (apart e' mem)]
                exact won'
      · next refused =>
          obtain ⟨wrote, eq, keys⟩ := ih (List.pairwise_cons.mp settled).2
            fun e' mem => fresh e' (List.mem_cons_of_mem _ mem)
          refine ⟨wrote, eq, fun k => ?_⟩
          rw [keys k]
          simp [refused]

theorem arbitrate_sublist (held : κ → Option α) (es : List α) :
    (arbitrate key rank held es).1.Sublist es := by
  induction es generalizing held with
  | nil => exact List.Sublist.refl _
  | cons e es ih =>
      unfold arbitrate
      split
      · exact (ih _).cons_cons e
      · exact (ih held).cons e

/-- What one statement writes covers what it has written and what takes over. -/
theorem wrote_of_insertRows {after : κ → Option α} {wrote : List κ}
    (eq : insertRows key rank held touched es = some (after, wrote)) :
    touched ⊆ wrote ∧ ∀ e ∈ (arbitrate key rank held es).1, key e ∈ wrote := by
  induction es generalizing held touched with
  | nil =>
      cases eq
      exact ⟨List.Subset.refl _, by simp [arbitrate]⟩
  | cons e es ih =>
      unfold insertRows at eq
      unfold arbitrate
      split at eq
      · cases eq
      split at eq
      · next won =>
          rw [if_pos won]
          obtain ⟨grown, through⟩ := ih eq
          refine ⟨fun k mem => grown (List.mem_cons_of_mem _ mem), fun e' mem => ?_⟩
          rcases List.mem_cons.mp mem with rfl | mem
          · exact grown List.mem_cons_self
          · exact through e' mem
      · next refused =>
          rw [if_neg refused]
          exact ih eq

/-- A statement that succeeds and whose written keys name the entries that take over met
none of its keys twice, except behind a holder. -/
theorem settled_of_insertRows {after : κ → Option α} {wrote : List κ}
    (eq : insertRows key rank held touched es = some (after, wrote))
    (names : es.filter (named key wrote) = (arbitrate key rank held es).1) :
    Settled key rank held es ∧ ∀ e ∈ es, key e ∉ touched := by
  induction es generalizing held touched with
  | nil => exact ⟨List.Pairwise.nil, by simp⟩
  | cons e es ih =>
      have covered := wrote_of_insertRows eq
      unfold insertRows at eq
      unfold arbitrate at names covered
      split at eq
      · cases eq
      next untouched =>
      split at eq
      · next won =>
          rw [if_pos won] at names covered
          have wrote_e : named key wrote e = true :=
            decide_eq_true (covered.2 e List.mem_cons_self)
          rw [List.filter_cons_of_pos wrote_e, List.cons.injEq] at names
          obtain ⟨rest, fresh⟩ := ih eq names.2
          have apart : ∀ e' ∈ es, key e' ≠ key e := fun e' mem same =>
            fresh e' mem (same ▸ List.mem_cons_self)
          refine ⟨List.pairwise_cons.mpr ⟨?_, ?_⟩, ?_⟩
          · intro e' mem same
            exact absurd same.symm (apart e' mem)
          · refine List.Pairwise.imp_of_mem ?_ rest
            intro a b ina inb pair same
            rw [takes_holder_of_ne (apart a ina), takes_holder_of_ne (apart b inb)] at pair
            exact pair same
          · intro e' mem
            rcases List.mem_cons.mp mem with rfl | mem
            · exact untouched
            · exact fun old => fresh e' mem (List.mem_cons_of_mem _ old)
      · next refused =>
          rw [if_neg refused] at names covered
          -- an entry that is refused and whose key was written is named all the same
          have unwritten : key e ∉ wrote := by
            intro wrote_e
            rw [List.filter_cons_of_pos (p := named key wrote) (decide_eq_true wrote_e)] at names
            have through : (arbitrate key rank held es).1.filter (named key wrote) =
                (arbitrate key rank held es).1 := by
              rw [List.filter_eq_self]
              intro e' mem
              exact decide_eq_true (covered.2 e' mem)
            have sub : (arbitrate key rank held es).1.Sublist es := arbitrate_sublist held es
            have shorter := (sub.filter (named key wrote)).length_le
            rw [through, ← names, List.length_cons] at shorter
            exact absurd shorter (Nat.not_succ_le_self _)
          rw [List.filter_cons_of_neg (by simpa [named] using unwritten)] at names
          obtain ⟨rest, fresh⟩ := ih eq names
          refine ⟨List.pairwise_cons.mpr ⟨?_, rest⟩, ?_⟩
          · intro e' mem same
            refine ⟨by simpa using refused, ?_⟩
            by_contra won'
            have through : e' ∈ (arbitrate key rank held es).1 := by
              rw [rest.arbitrate, List.mem_filter]
              exact ⟨mem, by simpa using won'⟩
            rw [same] at unwritten
            exact unwritten (covered.2 e' through)
          · intro e' mem
            rcases List.mem_cons.mp mem with rfl | mem
            · exact untouched
            · exact fresh e' mem

/-- One statement arbitrates, and names the entries that took over by their keys, exactly
when its entries are settled. -/
theorem insertRows_iff :
    (∃ wrote, insertRows key rank held [] es = some ((arbitrate key rank held es).2, wrote) ∧
      es.filter (named key wrote) = (arbitrate key rank held es).1) ↔
      Settled key rank held es := by
  constructor
  · intro found
    obtain ⟨wrote, eq, names⟩ := found
    exact (settled_of_insertRows eq names).1
  · intro settled
    obtain ⟨wrote, eq, keys⟩ := settled.insertRows fun _ _ => List.not_mem_nil
    refine ⟨wrote, eq, ?_⟩
    rw [settled.arbitrate]
    apply List.filter_congr
    intro e mem
    rw [Bool.eq_iff_iff, named, decide_eq_true_eq, keys]
    constructor
    · intro found
      rcases found with none | ⟨e', mem', won, same⟩
      · cases none
      · rcases settled.symmetric mem' mem with rfl | pair
        · exact won
        · rw [(pair same).1] at won
          cases won
    · intro won
      exact Or.inr ⟨e, mem, won, rfl⟩

end InsertRows

end Arbitration
