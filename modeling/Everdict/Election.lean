import Mathlib.Data.List.Infix
import Mathlib.Data.List.MinMax
import Mathlib.Data.List.Perm.Basic
import Mathlib.Tactic.Common

/-!
# Keyed rows that elect the keys of least rank

Rows of one key stand together: the first of them gives the key its rank.  The keys of
least rank lead, at the level of that rank.  `Settled` says when the leaders do not
depend on the order of the rows (`settled_iff`), and `Inserted.leads_iff` that further
rows of other keys and of a greater rank change no leader.
-/

namespace Election

variable {α κ ρ γ : Type*}

/-! ## Leading -/

section leading

variable [DecidableEq κ] [LinearOrder ρ] (key : α → κ) (rank : α → ρ) (level : ρ → γ)

/-- The row that stands for a key. -/
def first (rows : List α) (k : κ) : Option α := rows.find? fun x => key x = k

/-- Do all rows of a key vote for it? -/
def unanimous (vote : α → Bool) (rows : List α) (k : κ) : Bool :=
  (rows.filter fun x => key x = k).all vote

/-- A key leads at a level when no key stands before it. -/
def Leads (rows : List α) (k : κ) (l : γ) : Prop :=
  ∃ x, first key rows k = some x ∧ level (rank x) = l
    ∧ ∀ k' y, first key rows k' = some y → rank x ≤ rank y

def Best (rows : List α) (x : α) : Prop := x ∈ rows ∧ ∀ w ∈ rows, rank x ≤ rank w

/-- Which keys lead is settled, whichever row of a key comes first. -/
structure Settled (rows : List α) : Prop where
  level : ∀ x y, Best rank rows x → y ∈ rows → key y = key x → level (rank y) = level (rank x)
  keys : ∀ x y z, Best rank rows x → y ∈ rows → key y = key x → z ∈ rows → key z ≠ key x →
    rank y ≤ rank z ∧ (rank y = rank z → ∃ w, Best rank rows w ∧ key w = key z)

end leading

section first

variable [DecidableEq κ] {key : α → κ} {rows : List α} {k : κ} {x y : α}

theorem mem_of_first (found : first key rows k = some x) : x ∈ rows ∧ key x = k :=
  ⟨List.mem_of_find?_eq_some found, by simpa using List.find?_some found⟩

variable (key) in
theorem exists_first (mem : x ∈ rows) : ∃ y, first key rows (key x) = some y := by
  rcases found : first key rows (key x) with _ | y
  · have none := List.find?_eq_none.mp found x mem
    simp at none
  · exact ⟨y, rfl⟩

@[simp]
theorem first_cons_self (x : α) (rows : List α) : first key (x :: rows) (key x) = some x := by
  simp [first]

theorem first_cons_of_ne (rows : List α) (other : key x ≠ k) :
    first key (x :: rows) k = first key rows k := by
  simp [first, other]

theorem first_append_singleton (rows : List α) (x : α) (k : κ) :
    first key (rows ++ [x]) k = (first key rows k).or (if key x = k then some x else none) := by
  rw [first, List.find?_append, first]
  by_cases same : key x = k <;> simp [same]

theorem first_eq_none : first key rows k = none ↔ ∀ x ∈ rows, key x ≠ k := by
  simp [first, List.find?_eq_none]

theorem unanimous_append_singleton (vote : α → Bool) (rows : List α) (x : α) (k : κ) :
    unanimous key vote (rows ++ [x]) k =
      (unanimous key vote rows k && (key x ≠ k || vote x)) := by
  rw [unanimous, List.filter_append, List.all_append, unanimous]
  by_cases same : key x = k <;> simp [same]

/-- A row stands for its key where it comes first. -/
theorem exists_perm_cons (mem : x ∈ rows) : ∃ rest, (x :: rest).Perm rows := by
  obtain ⟨before, after, rfl⟩ := List.append_of_mem mem
  exact ⟨before ++ after, List.perm_middle.symm⟩

theorem exists_perm_cons_cons (inX : x ∈ rows) (inY : y ∈ rows) (other : y ≠ x) :
    ∃ rest, (x :: y :: rest).Perm rows := by
  obtain ⟨rest, perm⟩ := exists_perm_cons inX
  have inRest : y ∈ rest := by
    rcases List.mem_cons.mp (perm.mem_iff.mpr inY) with same | inRest
    · exact absurd same other
    · exact inRest
  obtain ⟨rest', perm'⟩ := exists_perm_cons inRest
  exact ⟨rest', (perm'.cons x).trans perm⟩

end first

/-! ## Settled leaders -/

section settled

variable [DecidableEq κ] [LinearOrder ρ] {key : α → κ} {rank : α → ρ} {level : ρ → γ}
  {rows rows' : List α} {k : κ} {l : γ} {x y z : α}

variable (rank) in
theorem exists_best (mem : x ∈ rows) : ∃ y, Best rank rows y := by
  rcases least : rows.argmin rank with _ | y
  · rw [List.argmin_eq_none] at least
    rw [least] at mem
    cases mem
  · exact ⟨y, List.argmin_mem least, fun w inW => List.le_of_mem_argmin inW least⟩

theorem Best.of_perm (perm : rows'.Perm rows) (best : Best rank rows x) : Best rank rows' x :=
  ⟨perm.mem_iff.mpr best.1, fun w mem => best.2 w (perm.mem_iff.mp mem)⟩

variable (key level) in
/-- The key of a best row that comes first leads. -/
theorem Best.leads (best : Best rank rows x) (isFirst : first key rows (key x) = some x) :
    Leads key rank level rows (key x) (level (rank x)) :=
  ⟨x, isFirst, rfl, fun _ y found => best.2 y (mem_of_first found).1⟩

/-- The leaders of settled rows are the keys that have a best row. -/
theorem Settled.leads_iff (settled : Settled key rank level rows) (perm : rows'.Perm rows) :
    Leads key rank level rows' k l ↔
      ∃ x, Best rank rows x ∧ key x = k ∧ level (rank x) = l := by
  constructor
  · rintro ⟨y, isFirst, isLevel, least⟩
    obtain ⟨inRows', isKey⟩ := mem_of_first isFirst
    have inRows := perm.mem_iff.mp inRows'
    obtain ⟨x, best⟩ := exists_best rank inRows
    by_cases same : key y = key x
    · exact ⟨x, best, by rw [← same, isKey], by rw [← settled.level x y best inRows same, isLevel]⟩
    · -- the best row's key is not ahead of a key that leads, so that key has a best row too
      obtain ⟨z, firstZ⟩ := exists_first key (perm.mem_iff.mpr best.1)
      obtain ⟨inZ, keyZ⟩ := mem_of_first firstZ
      obtain ⟨le, shared⟩ := settled.keys x z y best (perm.mem_iff.mp inZ) keyZ inRows same
      obtain ⟨w, bestW, keyW⟩ := shared (le_antisymm le (least _ z firstZ))
      refine ⟨w, bestW, by rw [keyW, isKey], ?_⟩
      rw [← settled.level w y bestW inRows keyW.symm, isLevel]
  · rintro ⟨x, best, rfl, rfl⟩
    obtain ⟨y, firstY⟩ := exists_first key (perm.mem_iff.mpr best.1)
    obtain ⟨inY, keyY⟩ := mem_of_first firstY
    have inRows := perm.mem_iff.mp inY
    refine ⟨y, firstY, settled.level x y best inRows keyY, ?_⟩
    intro k' z firstZ
    obtain ⟨inZ, keyZ⟩ := mem_of_first firstZ
    by_cases same : key z = key x
    · rw [← keyZ, same, firstY, Option.some.injEq] at firstZ
      rw [firstZ]
    · exact (settled.keys x y z best inRows keyY (perm.mem_iff.mp inZ) same).1

/-- Leaders that show on every order of the rows are settled. -/
theorem settled_of_leads (shown : γ → Prop)
    (worst : ∀ x ∈ rows, ¬shown (level (rank x)) → ∀ w ∈ rows, rank w ≤ rank x)
    (same : ∀ rows', rows'.Perm rows → ∀ k l, shown l →
      (Leads key rank level rows' k l ↔ Leads key rank level rows k l)) :
    Settled key rank level rows := by
  -- with the best row in front, and with another row of its key in front
  have leads : ∀ x, Best rank rows x → shown (level (rank x)) →
      ∀ rows', rows'.Perm rows → Leads key rank level rows' (key x) (level (rank x)) := by
    intro x best isShown rows' perm
    obtain ⟨rest, front⟩ := exists_perm_cons best.1
    rw [same _ perm _ _ isShown, ← same _ front _ _ isShown]
    exact (best.of_perm front).leads key level (first_cons_self x rest)
  have flat : ∀ x, Best rank rows x → ¬shown (level (rank x)) →
      ∀ y ∈ rows, rank y = rank x := by
    intro x best hidden y mem
    exact le_antisymm (worst x best.1 hidden y mem) (best.2 y mem)
  refine ⟨?_, ?_⟩
  · intro x y best inY sameKey
    by_cases isShown : shown (level (rank x))
    · obtain ⟨rest, front⟩ := exists_perm_cons inY
      obtain ⟨w, firstW, isLevel, -⟩ := leads x best isShown _ front
      rw [← sameKey, first_cons_self, Option.some.injEq] at firstW
      rw [firstW, isLevel]
    · rw [flat x best isShown y inY]
  · intro x y z best inY sameKey inZ otherKey
    by_cases isShown : shown (level (rank x))
    · have other : z ≠ y := by
        rintro rfl
        exact otherKey sameKey
      obtain ⟨rest, front⟩ := exists_perm_cons_cons inY inZ other
      obtain ⟨w, firstW, isLevel, least⟩ := leads x best isShown _ front
      rw [← sameKey, first_cons_self, Option.some.injEq] at firstW
      subst firstW
      have firstZ : first key (y :: z :: rest) (key z) = some z := by
        rw [first_cons_of_ne _ (by rw [sameKey]; exact Ne.symm otherKey), first_cons_self]
      refine ⟨least _ z firstZ, ?_⟩
      intro tied
      have leadsZ : Leads key rank level (y :: z :: rest) (key z) (level (rank x)) :=
        ⟨z, firstZ, by rw [← tied, isLevel], fun k' v firstV => tied ▸ least k' v firstV⟩
      obtain ⟨rest', front'⟩ := exists_perm_cons best.1
      rw [same _ front _ _ isShown, ← same _ front' _ _ isShown] at leadsZ
      obtain ⟨w, firstW, -, leastW⟩ := leadsZ
      obtain ⟨inW, keyW⟩ := mem_of_first firstW
      have le := leastW _ x (first_cons_self x rest')
      exact ⟨w, ⟨front'.mem_iff.mp inW, fun v inV => le_trans le (best.2 v inV)⟩, keyW⟩
    · have tied : ∀ w ∈ rows, rank w = rank x := flat x best isShown
      rw [tied y inY, tied z inZ]
      refine ⟨le_refl _, fun _ => ⟨z, ⟨inZ, fun w mem => ?_⟩, rfl⟩⟩
      rw [tied z inZ, tied w mem]

omit [DecidableEq κ] in
/-- Where the rows of a key all rank alike, the leaders are settled. -/
theorem Settled.of_rank (alike : ∀ x ∈ rows, ∀ y ∈ rows, key x = key y → rank x = rank y) :
    Settled key rank level rows := by
  refine ⟨?_, ?_⟩
  · intro x y best inY sameKey
    rw [alike y inY x best.1 sameKey]
  · intro x y z best inY sameKey inZ _
    have tied := alike y inY x best.1 sameKey
    rw [tied]
    refine ⟨best.2 z inZ, ?_⟩
    intro tie
    exact ⟨z, ⟨inZ, fun w inW => tie ▸ best.2 w inW⟩, rfl⟩

theorem unanimous_perm {vote : α → Bool} (perm : rows'.Perm rows) (k : κ) :
    unanimous key vote rows' k = unanimous key vote rows k :=
  (perm.filter _).all_eq

end settled

/-! ## Further rows -/

/-- `ys` is `xs` with further rows that meet `p`, at any positions. -/
inductive Inserted (p : α → Prop) : List α → List α → Prop
  | nil : Inserted p [] []
  | keep (x : α) {xs ys : List α} : Inserted p xs ys → Inserted p (x :: xs) (x :: ys)
  | insert {y : α} {xs ys : List α} : p y → Inserted p xs ys → Inserted p xs (y :: ys)

namespace Inserted

variable {p : α → Prop} {xs ys : List α}

theorem mem (inserted : Inserted p xs ys) {x : α} (mem : x ∈ xs) : x ∈ ys := by
  induction inserted with
  | nil => exact mem
  | keep x _ ih =>
      rcases List.mem_cons.mp mem with rfl | mem
      · exact List.mem_cons_self
      · exact List.mem_cons_of_mem x (ih mem)
  | insert _ _ ih => exact List.mem_cons_of_mem _ (ih mem)

theorem filterMap {β : Type*} {q : β → Prop} (f : α → Option β)
    (image : ∀ y z, p y → f y = some z → q z) (inserted : Inserted p xs ys) :
    Inserted q (xs.filterMap f) (ys.filterMap f) := by
  induction inserted with
  | nil => exact .nil
  | keep x _ ih =>
      rcases fx : f x with _ | z
      · simpa [fx] using ih
      · simpa [fx] using ih.keep z
  | @insert y _ _ holds _ ih =>
      rcases fy : f y with _ | z
      · simpa [fy] using ih
      · simpa [fy] using ih.insert (image y z holds fy)

theorem imp {q : α → Prop} (weaken : ∀ y, p y → q y) (inserted : Inserted p xs ys) :
    Inserted q xs ys := by
  induction inserted with
  | nil => exact .nil
  | keep x _ ih => exact ih.keep x
  | insert holds _ ih => exact ih.insert (weaken _ holds)

/-- The rows a test drops are further rows to those it keeps. -/
theorem of_filter (keep : α → Bool) (ys : List α) :
    Inserted (fun y => y ∈ ys ∧ keep y = false) (ys.filter keep) ys := by
  induction ys with
  | nil => exact .nil
  | cons y ys ih =>
      have wider : Inserted (fun z => z ∈ y :: ys ∧ keep z = false) (ys.filter keep) ys :=
        ih.imp fun z holds => ⟨List.mem_cons_of_mem y holds.1, holds.2⟩
      rcases kept : keep y with _ | _
      · simpa [kept] using
          Inserted.insert (p := fun z => z ∈ y :: ys ∧ keep z = false)
            ⟨List.mem_cons_self, kept⟩ wider
      · simpa [kept] using wider.keep y

theorem filter_eq (inserted : Inserted p xs ys) {q : α → Bool} (none : ∀ y, p y → q y = false) :
    ys.filter q = xs.filter q := by
  induction inserted with
  | nil => rfl
  | keep x _ ih => rw [List.filter_cons, List.filter_cons, ih]
  | insert holds _ ih => rw [List.filter_cons, none _ holds, ← ih]; rfl

section leads

variable [DecidableEq κ] {key : α → κ} {k : κ}

theorem unanimous_eq (inserted : Inserted p xs ys) (apart : ∀ y, p y → key y ≠ k)
    (vote : α → Bool) : unanimous key vote ys k = unanimous key vote xs k := by
  rw [unanimous, inserted.filter_eq, unanimous]
  intro y holds
  simpa using apart y holds

theorem first_eq (inserted : Inserted p xs ys) (apart : ∀ y, p y → key y ≠ k) :
    first key ys k = first key xs k := by
  rw [first, first, ← List.head?_filter, ← List.head?_filter, inserted.filter_eq]
  intro y holds
  simpa using apart y holds

/-- The row that stands for a key was there and stood for it, or was inserted. -/
theorem first_or (inserted : Inserted p xs ys) {y : α} (found : first key ys k = some y) :
    first key xs k = some y ∨ p y := by
  induction inserted with
  | nil => exact Or.inl found
  | keep x _ ih =>
      rw [first, List.find?_cons] at found ⊢
      by_cases same : key x = k
      · rw [decide_eq_true same] at found ⊢
        exact Or.inl found
      · rw [decide_eq_false same] at found ⊢
        exact ih found
  | @insert z _ _ holds _ ih =>
      rw [first, List.find?_cons] at found
      by_cases same : key z = k
      · rw [decide_eq_true same] at found
        cases found
        exact Or.inr holds
      · rw [decide_eq_false same] at found
        exact ih found

variable [LinearOrder ρ] {rank : α → ρ} {level : ρ → γ} {l l₀ : γ} {k₀ : κ}

/-- Rows behind the leading level, under keys that no row of that level has, change no
leader. -/
theorem leads_iff (inserted : Inserted p xs ys)
    (apart : ∀ y, p y → ∀ x ∈ xs, level (rank x) = l₀ → key y ≠ key x ∧ rank x < rank y)
    (leads : Leads key rank level xs k₀ l₀) :
    Leads key rank level ys k l ↔ Leads key rank level xs k l := by
  have sameFirst : ∀ x ∈ xs, level (rank x) = l₀ →
      first key ys (key x) = first key xs (key x) := by
    intro x mem atLevel
    exact inserted.first_eq fun y holds => (apart y holds x mem atLevel).1
  obtain ⟨x₀, first₀, isLevel₀, least₀⟩ := leads
  obtain ⟨inXs₀, rfl⟩ := mem_of_first first₀
  have stands₀ : first key ys (key x₀) = some x₀ := by
    rw [sameFirst x₀ inXs₀ isLevel₀, first₀]
  have before : ∀ k' y, first key ys k' = some y →
      rank x₀ ≤ rank y ∧ (rank y ≤ rank x₀ → first key xs k' = some y) := by
    intro k' y found
    rcases inserted.first_or found with old | new
    · exact ⟨least₀ k' y old, fun _ => old⟩
    · have less := (apart y new x₀ inXs₀ isLevel₀).2
      exact ⟨le_of_lt less, fun le => absurd less (not_lt_of_ge le)⟩
  constructor
  · intro leading
    obtain ⟨x, found, isLevel, least⟩ := leading
    refine ⟨x, (before k x found).2 (least _ x₀ stands₀), isLevel, ?_⟩
    intro k' y foundY
    exact le_trans (least _ x₀ stands₀) (least₀ k' y foundY)
  · intro leading
    obtain ⟨x, found, isLevel, least⟩ := leading
    obtain ⟨mem, rfl⟩ := mem_of_first found
    have tied : rank x = rank x₀ := le_antisymm (least _ x₀ first₀) (least₀ _ x found)
    refine ⟨x, by rw [sameFirst x mem (by rw [tied, isLevel₀]), found], isLevel, ?_⟩
    intro k' y foundY
    exact le_trans (least _ x₀ first₀) (before k' y foundY).1

end leads

end Inserted

end Election
