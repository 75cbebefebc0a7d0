import Mathlib.Algebra.GroupWithZero.Nat
import Mathlib.Data.List.Induction
import Mathlib.Data.List.Nodup
import Mathlib.Data.List.Perm.Basic
import Mathlib.Tactic.Common

/-!
# Keyed rows in insertion order

A `Table` holds at most one row for a key and keeps its rows in the order in
which their keys were first set, so it reads as a JavaScript `Map` and as an SQL
table with a primary key.  Its operations are determined by what `get` answers
afterwards (`get_update`, `get_modify`, `get_set`); the order of the rows shows
only in `values`.
-/

/-- Rows under pairwise distinct keys, in insertion order. -/
structure Table (κ ρ : Type*) where
  entries : List (κ × ρ)
  nodup : (entries.map Prod.fst).Nodup

namespace Table

variable {κ ρ : Type*}

def empty : Table κ ρ := ⟨[], List.nodup_nil⟩

theorem ext_entries {t t' : Table κ ρ} (eq : t.entries = t'.entries) : t = t' := by
  cases t
  cases t'
  simpa using eq

/-- The rows, in insertion order. -/
def values (t : Table κ ρ) : List ρ := t.entries.map Prod.snd

/-- Rewrite every row in place. -/
def update (t : Table κ ρ) (f : κ → ρ → ρ) : Table κ ρ where
  entries := t.entries.map fun e => (e.1, f e.1 e.2)
  nodup := by
    rw [List.map_map]
    exact t.nodup

/-- Keep the rows that pass a test. -/
def filter (t : Table κ ρ) (keep : κ → ρ → Bool) : Table κ ρ where
  entries := t.entries.filter fun e => keep e.1 e.2
  nodup := t.nodup.sublist (List.filter_sublist.map Prod.fst)

variable (t : Table κ ρ)

theorem update_update (f g : κ → ρ → ρ) :
    (t.update f).update g = t.update fun k r => g k (f k r) := by
  refine ext_entries ?_
  simp [update, Function.comp_def]

theorem keys_update (f : κ → ρ → ρ) :
    (t.update f).entries.map Prod.fst = t.entries.map Prod.fst := by
  simp [update, Function.comp_def]

theorem values_update (f : ρ → ρ) :
    (t.update fun _ r => f r).values = t.values.map f := by
  simp [update, values, Function.comp_def]

variable {t : Table κ ρ}

theorem filter_update {f : κ → ρ → ρ} {keep : κ → ρ → Bool}
    (same : ∀ k r, keep k (f k r) = keep k r) :
    (t.update f).filter keep = (t.filter keep).update f := by
  refine ext_entries ?_
  simp only [filter, update, List.filter_map, Function.comp_def, same]

section Keyed

variable [DecidableEq κ]

def get (t : Table κ ρ) (k : κ) : Option ρ :=
  (t.entries.find? fun e => e.1 = k).map Prod.snd

/-- Rewrite the row of one key, if it is there. -/
def modify (t : Table κ ρ) (k : κ) (f : ρ → ρ) : Table κ ρ :=
  t.update fun k' r => if k' = k then f r else r

/-- Drop the row of one key. -/
def erase (t : Table κ ρ) (k : κ) : Table κ ρ := t.filter fun k' _ => k' ≠ k

/-- Replace the row of a key in place, or add it at the end. -/
def set (t : Table κ ρ) (k : κ) (r : ρ) : Table κ ρ :=
  if absent : k ∈ t.entries.map Prod.fst then t.modify k fun _ => r
  else
    { entries := t.entries ++ [(k, r)]
      nodup := by
        rw [List.map_append]
        exact t.nodup.append (List.nodup_singleton k) (by simpa using absent) }

@[simp]
theorem get_empty (k : κ) : (empty : Table κ ρ).get k = none := rfl

variable {k : κ}

theorem get_eq_some {r : ρ} :
    t.get k = some r ↔ (k, r) ∈ t.entries := by
  obtain ⟨entries, nodup⟩ := t
  simp only [get]
  induction entries with
  | nil => simp
  | cons e es ih =>
      obtain ⟨k', r'⟩ := e
      simp only [List.map_cons, List.nodup_cons] at nodup
      by_cases hit : k' = k
      · subst hit
        have only : (k', r) ∉ es := fun mem => nodup.1 (List.mem_map.mpr ⟨_, mem, rfl⟩)
        simp [only, eq_comm]
      · simp only [List.find?_cons, hit, decide_false, List.mem_cons, Prod.mk.injEq,
          Ne.symm hit, false_and, false_or]
        exact ih nodup.2

theorem get_eq_none :
    t.get k = none ↔ k ∉ t.entries.map Prod.fst := by
  rw [Option.eq_none_iff_forall_not_mem]
  simp [get_eq_some]

theorem mem_values {r : ρ} : r ∈ t.values ↔ ∃ k, t.get k = some r := by
  simp [values, get_eq_some]

@[simp]
theorem get_update (f : κ → ρ → ρ) (k : κ) :
    (t.update f).get k = (t.get k).map (f k) := by
  obtain ⟨entries, nodup⟩ := t
  simp only [get, update]
  clear nodup
  induction entries with
  | nil => rfl
  | cons e es ih =>
      by_cases hit : e.1 = k
      · simp [hit]
      · simpa [hit] using ih

theorem get_filter (keep : κ → ρ → Bool) (k : κ) :
    (t.filter keep).get k = (t.get k).filter (keep k) := by
  apply Option.ext
  intro r
  rw [Option.filter_eq_some_iff, get_eq_some, get_eq_some, filter, List.mem_filter]

theorem get_erase (k k' : κ) :
    (t.erase k).get k' = if k' = k then none else t.get k' := by
  rw [erase, get_filter]
  by_cases hit : k' = k <;> cases t.get k' <;> simp [hit]

theorem update_eq_self {f : κ → ρ → ρ} (same : ∀ k r, t.get k = some r → f k r = r) :
    t.update f = t := by
  have entries : (t.update f).entries = t.entries := by
    conv_rhs => rw [← List.map_id t.entries]
    refine List.map_congr_left fun e mem => ?_
    rw [same e.1 e.2 (get_eq_some.mpr mem)]
    rfl
  cases t
  simpa [update] using entries

theorem modify_eq_self {f : ρ → ρ} (same : ∀ r, t.get k = some r → f r = r) :
    t.modify k f = t := by
  refine update_eq_self fun k' r found => ?_
  split
  · next hit => exact same r (hit ▸ found)
  · rfl

@[simp]
theorem get_modify_self (k : κ) (f : ρ → ρ) :
    (t.modify k f).get k = (t.get k).map f := by
  simp [modify]

theorem get_modify_of_ne {k k' : κ} (f : ρ → ρ) (ne : k' ≠ k) :
    (t.modify k f).get k' = t.get k' := by
  simp [modify, ne]

theorem get_set (k k' : κ) (r : ρ) :
    (t.set k r).get k' = if k' = k then some r else t.get k' := by
  unfold set
  split
  · next present =>
      by_cases hit : k' = k
      · subst hit
        obtain ⟨old, eq⟩ := Option.ne_none_iff_exists'.mp fun none =>
          get_eq_none.mp none present
        simp [eq]
      · simp [get_modify_of_ne _ hit, hit]
  · next absent =>
      have miss : t.entries.find? (fun e => e.1 = k) = none := by
        simpa [get] using get_eq_none.mpr absent
      by_cases hit : k' = k
      · subst hit
        simp [get, List.find?_append, miss]
      · simp only [get, List.find?_append, hit, if_false]
        cases t.entries.find? fun e => e.1 = k' <;> simp [Ne.symm hit]

theorem mem_keys :
    k ∈ t.entries.map Prod.fst ↔ ∃ r, t.get k = some r := by
  simp [get_eq_some]

theorem update_set (f : κ → ρ → ρ) (k : κ) (r : ρ) :
    (t.set k r).update f = (t.update f).set k (f k r) := by
  unfold set
  by_cases present : k ∈ t.entries.map Prod.fst
  · rw [dif_pos present, dif_pos (by rwa [keys_update])]
    unfold modify
    rw [update_update, update_update]
    refine ext_entries (List.map_congr_left fun e _ => ?_)
    by_cases hit : e.1 = k
    · simp [hit]
    · simp [hit]
  · rw [dif_neg present, dif_neg (by rwa [keys_update])]
    refine ext_entries ?_
    simp [update]

theorem update_erase (f : κ → ρ → ρ) (k : κ) :
    (t.erase k).update f = (t.update f).erase k := by
  refine Eq.symm ?_
  unfold erase
  apply filter_update
  exact fun _ _ => rfl

theorem filter_set {keep : κ → ρ → Bool} (stays : ∀ r, keep k r = true) (r : ρ) :
    (t.set k r).filter keep = (t.filter keep).set k r := by
  have keys : k ∈ (t.filter keep).entries.map Prod.fst ↔ k ∈ t.entries.map Prod.fst := by
    rw [mem_keys, mem_keys, get_filter]
    constructor
    · rintro ⟨old, found⟩
      exact ⟨old, (Option.filter_eq_some_iff.mp found).1⟩
    · rintro ⟨old, found⟩
      exact ⟨old, Option.filter_eq_some_iff.mpr ⟨found, stays old⟩⟩
  unfold set
  by_cases present : k ∈ t.entries.map Prod.fst
  · rw [dif_pos present, dif_pos (keys.mpr present)]
    refine filter_update fun k' r' => ?_
    by_cases hit : k' = k
    · simp [hit, stays]
    · simp [hit]
  · rw [dif_neg present, dif_neg fun here => present (keys.mp here)]
    refine ext_entries ?_
    simp [filter, List.filter_append, stays]

theorem filter_key {r : ρ} (found : t.get k = some r) :
    (t.entries.filter fun e => e.1 = k) = [(k, r)] := by
  have member : (k, r) ∈ t.entries := get_eq_some.mp found
  have distinct := t.nodup
  generalize t.entries = entries at member distinct
  induction entries with
  | nil => cases member
  | cons e entries ih =>
      simp only [List.map_cons, List.nodup_cons] at distinct
      rcases List.mem_cons.mp member with rfl | member
      · have others : (entries.filter fun e => e.1 = k) = [] := by
          rw [List.filter_eq_nil_iff]
          intro e mem hit
          exact distinct.1 (List.mem_map.mpr ⟨e, mem, by simpa using hit⟩)
        rw [List.filter_cons_of_pos (by simp), others]
      · have other : ¬ e.1 = k := fun eq =>
          distinct.1 (List.mem_map.mpr ⟨(k, r), member, eq.symm⟩)
        rw [List.filter_cons_of_neg (by simpa using other)]
        exact ih member distinct.2

theorem filter_key_of_none (absent : t.get k = none) :
    (t.entries.filter fun e => e.1 = k) = [] := by
  rw [List.filter_eq_nil_iff]
  intro e mem hit
  exact get_eq_none.mp absent (List.mem_map.mpr ⟨e, mem, by simpa using hit⟩)

theorem filter_eq_self {keep : κ → ρ → Bool} (all : ∀ k r, t.get k = some r → keep k r = true) :
    t.filter keep = t := by
  have kept : (t.filter keep).entries = t.entries := by
    apply List.filter_eq_self.mpr
    intro e mem
    exact all e.1 e.2 (get_eq_some.mpr mem)
  cases t
  simpa [filter] using kept

theorem erase_of_none (absent : t.get k = none) : t.erase k = t := by
  apply filter_eq_self
  intro k' r found
  have other : k' ≠ k := by
    intro hit
    rw [hit, absent] at found
    cases found
  simpa using other

theorem entries_set_of_none (fresh : t.get k = none) (r : ρ) :
    (t.set k r).entries = t.entries ++ [(k, r)] := by
  have absent := get_eq_none.mp fresh
  unfold set
  rw [dif_neg absent]

theorem values_set_of_none (fresh : t.get k = none) (r : ρ) :
    (t.set k r).values = t.values ++ [r] := by
  unfold values
  rw [entries_set_of_none fresh]
  simp

/-- A row set over one that reads the same under `g` leaves the readings as they are. -/
theorem map_values_set {α : Type*} (g : ρ → α) {old new : ρ} (found : t.get k = some old)
    (same : g new = g old) :
    (t.set k new).values.map g = t.values.map g := by
  have present : k ∈ t.entries.map Prod.fst := mem_keys.mpr ⟨old, found⟩
  unfold set values
  rw [dif_pos present]
  simp only [modify, update, List.map_map]
  apply List.map_congr_left
  intro e mem
  by_cases hit : e.1 = k
  · have there : t.get e.1 = some e.2 := get_eq_some.mpr mem
    rw [hit, found, Option.some.injEq] at there
    simp [hit, same, there]
  · simp [hit]

/-- A sum over the rows changes by the new row minus the one it replaces. -/
theorem sum_set (g : ρ → Nat) (t : Table κ ρ) (k : κ) (new : ρ) :
    ((t.set k new).values.map g).sum + ((t.get k).map g).getD 0 =
      (t.values.map g).sum + g new := by
  rcases found : t.get k with _ | old
  · simp [values_set_of_none found]
  have present : k ∈ t.entries.map Prod.fst := mem_keys.mpr ⟨old, found⟩
  have member : (k, old) ∈ t.entries := get_eq_some.mp found
  unfold set values
  rw [dif_pos present]
  simp only [modify, update, List.map_map, Option.map_some, Option.getD_some]
  have distinct := t.nodup
  generalize t.entries = entries at member distinct
  induction entries with
  | nil => cases member
  | cons e entries ih =>
      simp only [List.map_cons, List.nodup_cons] at distinct
      rcases List.mem_cons.mp member with rfl | member
      · have rest : entries.map (g ∘ Prod.snd ∘ fun e => (e.1, if e.1 = k then new else e.2)) =
            entries.map (g ∘ Prod.snd) := by
          apply List.map_congr_left
          intro e mem
          have other : e.1 ≠ k := fun eq => distinct.1 (List.mem_map.mpr ⟨e, mem, eq⟩)
          simp [other]
        simp only [List.map_cons, List.sum_cons, rest]
        simp
        omega
      · have other : e.1 ≠ k := fun eq =>
          distinct.1 (List.mem_map.mpr ⟨(k, old), member, eq.symm⟩)
        have := ih member distinct.2
        simp only [List.map_cons, List.sum_cons]
        simp [other] at this ⊢
        omega

/-- A sum over the rows loses the row that goes. -/
theorem sum_erase (g : ρ → Nat) (t : Table κ ρ) (k : κ) :
    ((t.erase k).values.map g).sum + ((t.get k).map g).getD 0 = (t.values.map g).sum := by
  rcases found : t.get k with _ | row
  · simp [erase_of_none found]
  have member : (k, row) ∈ t.entries := get_eq_some.mp found
  unfold erase filter values
  simp only [List.map_map, Option.map_some, Option.getD_some]
  have distinct := t.nodup
  generalize t.entries = entries at member distinct
  induction entries with
  | nil => cases member
  | cons e entries ih =>
      simp only [List.map_cons, List.nodup_cons] at distinct
      rcases List.mem_cons.mp member with rfl | member
      · have rest : entries.filter (fun e => decide (e.1 ≠ k)) = entries := by
          rw [List.filter_eq_self]
          intro e mem
          have other : e.1 ≠ k := fun eq => distinct.1 (List.mem_map.mpr ⟨e, mem, eq⟩)
          simpa using other
        rw [List.filter_cons_of_neg (by simp), rest]
        simp only [List.map_cons, List.sum_cons, Function.comp_apply]
        omega
      · have other : e.1 ≠ k := fun eq =>
          distinct.1 (List.mem_map.mpr ⟨(k, row), member, eq.symm⟩)
        have := ih member distinct.2
        rw [List.filter_cons_of_pos (by simpa using other)]
        simp only [List.map_cons, List.sum_cons]
        omega

/-! ### Tables from entries -/

/-- `new Map(entries)`: of two entries under one key the later row stays. -/
def ofEntries (entries : List (κ × ρ)) : Table κ ρ :=
  entries.foldl (fun t e => t.set e.1 e.2) empty

theorem mem_of_get_ofEntries {entries : List (κ × ρ)} {r : ρ}
    (found : (ofEntries entries).get k = some r) : (k, r) ∈ entries := by
  unfold ofEntries at found
  induction entries using List.reverseRecOn with
  | nil => cases found
  | append_singleton entries e ih =>
      rw [List.foldl_append] at found
      simp only [List.foldl_cons, List.foldl_nil, get_set] at found
      split at found
      · next hit =>
          obtain rfl := Option.some.inj found
          rw [hit]
          simp
      · exact List.mem_append_left _ (ih found)

theorem entries_ofEntries {entries : List (κ × ρ)} (distinct : (entries.map Prod.fst).Nodup) :
    (ofEntries entries).entries = entries := by
  unfold ofEntries
  induction entries using List.reverseRecOn with
  | nil => rfl
  | append_singleton entries e ih =>
      rw [List.map_append, List.nodup_append] at distinct
      obtain ⟨earlier, -, apart⟩ := distinct
      have kept := ih earlier
      rw [List.foldl_append, List.foldl_cons, List.foldl_nil, entries_set_of_none, kept]
      rw [get_eq_none, kept]
      intro mem
      exact apart e.1 mem e.1 (by simp) rfl

/-! ### Grouping -/

section Group

variable {α : Type*}

/-- Fold the elements of a list into one row for each key. -/
def group (key : α → κ) (add : Option ρ → α → ρ) (xs : List α) : Table κ ρ :=
  xs.foldl (fun t x => t.set (key x) (add (t.get (key x)) x)) empty

theorem group_concat (key : α → κ) (add : Option ρ → α → ρ) (xs : List α) (x : α) :
    group key add (xs ++ [x]) =
      (group key add xs).set (key x) (add ((group key add xs).get (key x)) x) :=
  List.foldl_concat ..

/-- A group is what its own elements add up to. -/
theorem get_group (key : α → κ) (add : Option ρ → α → ρ) (xs : List α) (k : κ) :
    (group key add xs).get k =
      (xs.filter fun x => key x = k).foldl (fun r x => some (add r x)) none := by
  unfold group
  induction xs using List.reverseRecOn with
  | nil => rfl
  | append_singleton xs x ih =>
      rw [List.foldl_append, List.filter_append, List.foldl_append, ← ih]
      simp only [List.foldl_cons, List.foldl_nil, get_set]
      by_cases hit : key x = k
      · subst hit
        simp
      · simp [hit, Ne.symm hit]

theorem get_group_eq_none {key : α → κ} {add : Option ρ → α → ρ} {xs : List α} :
    (group key add xs).get k = none ↔ ∀ x ∈ xs, key x ≠ k := by
  rw [get_group]
  induction xs using List.reverseRecOn with
  | nil => simp
  | append_singleton xs x ih =>
      rw [List.filter_append, List.foldl_append]
      by_cases hit : key x = k
      · simp [hit]
      · simpa [hit, or_imp, forall_and] using ih

end Group

/-- Counting by key is counting. -/
theorem count_group (xs : List κ) (k : κ) :
    ((group id (fun n _ => n.getD 0 + 1) xs).get k).getD 0 = xs.count k := by
  rw [get_group]
  induction xs using List.reverseRecOn with
  | nil => rfl
  | append_singleton xs x ih =>
      rw [List.filter_append, List.foldl_append, List.count_append, ← ih]
      by_cases hit : x = k
      · subst hit
        simp
      · simp [hit]

/-- A list read as a JavaScript `Set` has each element once. -/
theorem nodup_eraseDups (xs : List κ) : xs.eraseDups.Nodup := by
  induction length : xs.length using Nat.strongRecOn generalizing xs with
  | _ n ih =>
      cases xs with
      | nil => exact List.nodup_nil
      | cons x xs =>
          rw [List.eraseDups_cons, List.nodup_cons]
          have shorter := List.length_filter_le (fun y => !y == x) xs
          refine ⟨by simp, ih _ ?_ _ rfl⟩
          simp only [List.length_cons] at length
          omega

end Keyed

end Table
