import Mathlib.Data.List.Basic
import Mathlib.Tactic.Common

/-!
# Forests grown by adding nodes

A forest is the list of its nodes in the order they were added, each with the parent it
names.  `walk` climbs to a root, `descendants` closes a root under the children; on a
forest whose every node named an earlier one, both compute the relation `RootOf`.
-/

namespace Everdict.Forest

variable {κ : Type*} [DecidableEq κ]

def keys (nodes : List (κ × Option κ)) : List κ := nodes.map Prod.fst

/-- The parent a node names; `none` is a key that is not there. -/
def parentOf (nodes : List (κ × Option κ)) (k : κ) : Option (Option κ) :=
  (nodes.find? fun n => n.1 = k).map Prod.snd

inductive WalkError where
  | cyclic
  | missing
  deriving DecidableEq

/-- Climb to the root.  A walk over more keys than there are nodes has met one twice. -/
def walk (nodes : List (κ × Option κ)) : Nat → List κ → κ → Except WalkError κ
  | 0, _, _ => .error .cyclic
  | fuel + 1, seen, k =>
      match parentOf nodes k with
      | none => .error .missing
      | some none => .ok k
      | some (some parent) =>
          if k ∈ seen then .error .cyclic else walk nodes fuel (k :: seen) parent

/-- The root of a key. -/
def rootOf (nodes : List (κ × Option κ)) (k : κ) : Except WalkError κ :=
  walk nodes (nodes.length + 1) [] k

/-- One node joins the set when its parent is in it. -/
def join (ids : List κ) (n : κ × Option κ) : List κ :=
  match n.2 with
  | none => ids
  | some parent => if parent ∈ ids ∧ n.1 ∉ ids then ids ++ [n.1] else ids

def pass (nodes : List (κ × Option κ)) (ids : List κ) : List κ := nodes.foldl join ids

/-- Pass over the nodes until nothing joins. -/
def grow (nodes : List (κ × Option κ)) : Nat → List κ → List κ
  | 0, ids => ids
  | fuel + 1, ids =>
      let next := pass nodes ids
      if next.length = ids.length then ids else grow nodes fuel next

def descendants (nodes : List (κ × Option κ)) (root : κ) : List κ :=
  grow nodes (nodes.length + 1) [root]

/-! ## The relation they compute -/

variable {nodes : List (κ × Option κ)} {k p r root x : κ} {parent : Option κ} {ids seen : List κ}
  {fuel : Nat}

/-- The nodes were added one at a time, each with a fresh key and a parent already
there. -/
inductive Grown : List (κ × Option κ) → Prop
  | nil : Grown []
  | add {nodes : List (κ × Option κ)} {k : κ} {parent : Option κ} (grown : Grown nodes)
      (fresh : k ∉ keys nodes) (before : ∀ p, parent = some p → p ∈ keys nodes) :
      Grown (nodes ++ [(k, parent)])

inductive RootOf (nodes : List (κ × Option κ)) : κ → κ → Prop
  | root {r : κ} (here : parentOf nodes r = some none) : RootOf nodes r r
  | step {k p r : κ} (named : parentOf nodes k = some (some p)) (above : RootOf nodes p r) :
      RootOf nodes k r

omit [DecidableEq κ] in
@[simp]
theorem keys_append (nodes more : List (κ × Option κ)) :
    keys (nodes ++ more) = keys nodes ++ keys more := by
  simp [keys]

theorem mem_keys_iff : k ∈ keys nodes ↔ ∃ parent, parentOf nodes k = some parent := by
  simp only [keys, parentOf, List.mem_map, Option.map_eq_some_iff]
  constructor
  · rintro ⟨n, mem, rfl⟩
    have found : (nodes.find? fun m => m.1 = n.1).isSome := by
      rw [List.find?_isSome]
      exact ⟨n, mem, by simp⟩
    obtain ⟨m, eq⟩ := Option.isSome_iff_exists.mp found
    exact ⟨m.2, m, eq, rfl⟩
  · rintro ⟨parent, n, found, rfl⟩
    exact ⟨n, List.mem_of_find?_eq_some found, by simpa using List.find?_some found⟩

theorem parentOf_append_of_mem (mem : k ∈ keys nodes) (more : List (κ × Option κ)) :
    parentOf (nodes ++ more) k = parentOf nodes k := by
  obtain ⟨parent, found⟩ := mem_keys_iff.mp mem
  simp only [parentOf, Option.map_eq_some_iff] at found ⊢
  obtain ⟨n, found, -⟩ := found
  simp [List.find?_append, found]

theorem parentOf_append_self (fresh : k ∉ keys nodes) :
    parentOf (nodes ++ [(k, parent)]) k = some parent := by
  have none : nodes.find? (fun n => n.1 = k) = none := by
    rw [List.find?_eq_none]
    intro n mem eq
    exact fresh (List.mem_map.mpr ⟨n, mem, by simpa using eq⟩)
  simp [parentOf, List.find?_append, none]

/-- A node of an extended forest is an old one, or the new one. -/
theorem parentOf_append_cases {newest : κ} {found : Option κ}
    (named : parentOf (nodes ++ [(newest, parent)]) k = some found) :
    k ∈ keys nodes ∧ parentOf nodes k = some found
      ∨ k ∉ keys nodes ∧ k = newest ∧ parent = found := by
  by_cases mem : k ∈ keys nodes
  · rw [parentOf_append_of_mem mem] at named
    exact Or.inl ⟨mem, named⟩
  · right
    have isNewest : k = newest := by
      have inKeys := mem_keys_iff.mpr ⟨_, named⟩
      rw [keys_append, List.mem_append] at inKeys
      rcases inKeys with old | new
      · exact absurd old mem
      · simpa [keys] using new
    subst isNewest
    rw [parentOf_append_self mem, Option.some.injEq] at named
    exact ⟨mem, rfl, named⟩

theorem RootOf.mem_keys (at_root : RootOf nodes k r) : k ∈ keys nodes := by
  cases at_root with
  | root here => exact mem_keys_iff.mpr ⟨_, here⟩
  | step named => exact mem_keys_iff.mpr ⟨_, named⟩

theorem RootOf.isRoot (at_root : RootOf nodes k r) : parentOf nodes r = some none := by
  induction at_root with
  | root here => exact here
  | step _ _ ih => exact ih

theorem RootOf.unique (at_root : RootOf nodes k r) (also : RootOf nodes k x) : r = x := by
  induction at_root with
  | root here =>
      cases also with
      | root => rfl
      | step named =>
          rw [here] at named
          cases named
  | step named _ ih =>
      cases also with
      | root here =>
          rw [here] at named
          cases named
      | step other above =>
          rw [named] at other
          cases other
          exact ih above

theorem RootOf.append (at_root : RootOf nodes k r) (more : List (κ × Option κ)) :
    RootOf (nodes ++ more) k r := by
  induction at_root with
  | root here =>
      apply RootOf.root
      rw [parentOf_append_of_mem (mem_keys_iff.mpr ⟨_, here⟩), here]
  | step named _ ih =>
      refine RootOf.step ?_ ih
      rw [parentOf_append_of_mem (mem_keys_iff.mpr ⟨_, named⟩), named]

/-! ## A grown forest -/

/-- Every parent was there before its child. -/
theorem Grown.parent_before (grown : Grown nodes) (named : parentOf nodes k = some (some p)) :
    p ∈ keys nodes ∧ (keys nodes).idxOf p < (keys nodes).idxOf k := by
  induction grown with
  | nil => cases named
  | @add nodes newest parent grown fresh before ih =>
      rcases parentOf_append_cases named with ⟨mem, named⟩ | ⟨absent, rfl, rfl⟩
      · obtain ⟨memParent, earlier⟩ := ih named
        rw [keys_append, List.idxOf_append_of_mem memParent, List.idxOf_append_of_mem mem]
        exact ⟨List.mem_append_left _ memParent, earlier⟩
      · have memParent := before p rfl
        rw [keys_append, List.idxOf_append_of_mem memParent, List.idxOf_append_of_notMem absent]
        refine ⟨List.mem_append_left _ memParent, ?_⟩
        have short := List.idxOf_lt_length_of_mem memParent
        omega

/-- A new node has the root of its parent, and changes no other root. -/
theorem Grown.rootOf_append (grown : Grown nodes) (fresh : k ∉ keys nodes)
    (before : ∀ p, parent = some p → p ∈ keys nodes) :
    RootOf (nodes ++ [(k, parent)]) x r ↔
      RootOf nodes x r ∨ x = k
        ∧ (parent = none ∧ r = k ∨ ∃ p, parent = some p ∧ RootOf nodes p r) := by
  constructor
  · intro at_root
    induction at_root with
    | root here =>
        rcases parentOf_append_cases here with ⟨-, here⟩ | ⟨-, rfl, rfl⟩
        · exact Or.inl (.root here)
        · exact Or.inr ⟨rfl, Or.inl ⟨rfl, rfl⟩⟩
    | @step x p r named above ih =>
        -- the parent is an old node, so its root is an old one
        have memParent : p ∈ keys nodes := by
          rcases parentOf_append_cases named with ⟨-, named⟩ | ⟨-, -, named⟩
          · exact (grown.parent_before named).1
          · exact before p named
        have old : RootOf nodes p r := by
          rcases ih with old | ⟨rfl, -⟩
          · exact old
          · exact absurd memParent fresh
        rcases parentOf_append_cases named with ⟨-, named⟩ | ⟨-, rfl, rfl⟩
        · exact Or.inl (.step named old)
        · exact Or.inr ⟨rfl, Or.inr ⟨p, rfl, old⟩⟩
  · rintro (at_root | ⟨rfl, ⟨rfl, rfl⟩ | ⟨p, rfl, above⟩⟩)
    · exact at_root.append _
    · exact .root (parentOf_append_self fresh)
    · exact .step (parentOf_append_self fresh) (above.append _)

theorem Grown.exists_rootOf (grown : Grown nodes) (mem : k ∈ keys nodes) :
    ∃ r, RootOf nodes k r := by
  induction grown generalizing k with
  | nil => cases mem
  | @add nodes newest parent grown fresh before ih =>
      rw [keys_append, List.mem_append] at mem
      rcases mem with old | new
      · obtain ⟨r, at_root⟩ := ih old
        exact ⟨r, at_root.append _⟩
      · obtain rfl : k = newest := by simpa [keys] using new
        rcases parent with _ | p
        · exact ⟨k, .root (parentOf_append_self fresh)⟩
        · obtain ⟨r, at_root⟩ := ih (before p rfl)
          exact ⟨r, .step (parentOf_append_self fresh) (at_root.append _)⟩

/-! ## The walk -/

theorem rootOf_of_walk (walked : walk nodes fuel seen k = .ok r) : RootOf nodes k r := by
  induction fuel generalizing seen k with
  | zero => cases walked
  | succ fuel ih =>
      rw [walk] at walked
      rcases named : parentOf nodes k with _ | _ | parent
      · simp [named] at walked
      · simp only [named, Except.ok.injEq] at walked
        subst walked
        exact .root named
      · simp only [named] at walked
        split at walked
        · cases walked
        · exact .step named (ih walked)

/-- The walk goes back in time, so it meets no key twice and ends within the fuel. -/
theorem Grown.walk_of_rootOf (grown : Grown nodes) (at_root : RootOf nodes k r)
    (later : ∀ s ∈ seen, (keys nodes).idxOf k < (keys nodes).idxOf s)
    (enough : (keys nodes).idxOf k < fuel) : walk nodes fuel seen k = .ok r := by
  induction at_root generalizing fuel seen with
  | root here =>
      obtain ⟨fuel, rfl⟩ : ∃ n, fuel = n + 1 := ⟨fuel - 1, by omega⟩
      simp [walk, here]
  | @step k p r named above ih =>
      obtain ⟨fuel, rfl⟩ : ∃ n, fuel = n + 1 := ⟨fuel - 1, by omega⟩
      have earlier := (grown.parent_before named).2
      have unseen : k ∉ seen := by
        intro mem
        have := later k mem
        omega
      simp only [walk, named, unseen, if_false]
      apply ih
      · intro s mem
        rcases List.mem_cons.mp mem with rfl | mem
        · exact earlier
        · have := later s mem
          omega
      · omega

/-- On a grown forest the walk computes the root. -/
theorem Grown.rootOf_eq_ok_iff (grown : Grown nodes) :
    rootOf nodes k = .ok r ↔ RootOf nodes k r := by
  constructor
  · exact rootOf_of_walk
  · intro at_root
    have short := List.idxOf_lt_length_of_mem at_root.mem_keys
    apply grown.walk_of_rootOf at_root
    · intro s mem
      cases mem
    · simp only [keys, List.length_map] at short ⊢
      omega

/-! ## The closure -/

theorem mem_join {n : κ × Option κ} :
    x ∈ join ids n ↔ x ∈ ids ∨ x = n.1 ∧ ∃ p, n.2 = some p ∧ p ∈ ids := by
  rcases n with ⟨k, _ | p⟩
  · simp [join]
  · simp only [join]
    split
    case isTrue joins =>
      simp [joins.1]
    case isFalse stays =>
      grind

theorem pass_append (nodes : List (κ × Option κ)) (n : κ × Option κ) (ids : List κ) :
    pass (nodes ++ [n]) ids = join (pass nodes ids) n := by
  simp [pass]

/-- One pass over a grown forest collects a root and all it is the root of. -/
theorem Grown.mem_pass (grown : Grown nodes)
    (parentless : ∀ p, parentOf nodes root ≠ some (some p)) :
    x ∈ pass nodes [root] ↔ x = root ∨ RootOf nodes x root := by
  induction grown generalizing x with
  | nil =>
      have none : ¬RootOf [] x root := fun at_root => by simpa [keys] using at_root.mem_keys
      simp [pass, none]
  | @add nodes newest parent grown fresh before ih =>
      have parentlessBefore : ∀ p, parentOf nodes root ≠ some (some p) := by
        intro p named
        apply parentless p
        rw [parentOf_append_of_mem (mem_keys_iff.mpr ⟨_, named⟩), named]
      have ih := fun x => ih (x := x) parentlessBefore
      rw [pass_append, mem_join, ih, grown.rootOf_append fresh before]
      rcases parent with _ | p
      · simp
        grind
      · have memParent := before p rfl
        have parentAt : p ∈ pass nodes [root] ↔ RootOf nodes p root := by
          rw [ih]
          constructor
          · rintro (rfl | above)
            · obtain ⟨_ | q, named⟩ := mem_keys_iff.mp memParent
              · exact .root named
              · exact absurd named (parentlessBefore q)
            · exact above
          · exact Or.inr
        simp [parentAt]
        grind

/-- A set closed under the children is not grown. -/
theorem pass_eq_self (closed : ∀ n ∈ nodes, ∀ p, n.2 = some p → p ∈ ids → n.1 ∈ ids) :
    pass nodes ids = ids := by
  unfold pass
  induction nodes with
  | nil => rfl
  | cons n nodes ih =>
      have stays : join ids n = ids := by
        rcases eq : n.2 with _ | p
        · simp [join, eq]
        · have inside := closed n List.mem_cons_self p eq
          simp only [join, eq]
          grind
      rw [List.foldl_cons, stays]
      exact ih fun m mem => closed m (List.mem_cons_of_mem _ mem)

theorem pass_prefix : ids <+: pass nodes ids := by
  unfold pass
  induction nodes generalizing ids with
  | nil => exact List.prefix_refl _
  | cons n nodes ih =>
      refine List.IsPrefix.trans ?_ ih
      rcases eq : n.2 with _ | p
      · simp [join, eq]
      · simp only [join, eq]
        split
        · exact List.prefix_append _ _
        · exact List.prefix_refl _

theorem Grown.parentOf_of_mem {n : κ × Option κ} (grown : Grown nodes) (mem : n ∈ nodes) :
    parentOf nodes n.1 = some n.2 := by
  induction grown with
  | nil => cases mem
  | @add nodes newest parent grown fresh before ih =>
      rcases List.mem_append.mp mem with old | new
      · rw [parentOf_append_of_mem (List.mem_map_of_mem old), ih old]
      · obtain rfl := List.mem_singleton.mp new
        exact parentOf_append_self fresh

/-- The second pass over a grown forest finds nothing to add. -/
theorem Grown.descendants_eq (grown : Grown nodes) (isRoot : parentOf nodes root = some none) :
    descendants nodes root = pass nodes [root] := by
  have parentless : ∀ p, parentOf nodes root ≠ some (some p) := by
    intro p named
    rw [isRoot] at named
    cases named
  have fixed : pass nodes (pass nodes [root]) = pass nodes [root] := by
    apply pass_eq_self
    intro n mem p named inside
    rw [grown.mem_pass parentless] at inside ⊢
    right
    have parentAt : parentOf nodes n.1 = some (some p) := by
      rw [grown.parentOf_of_mem mem, named]
    rcases inside with rfl | above
    · exact .step parentAt (.root isRoot)
    · exact .step parentAt above
  obtain ⟨fuel, eq⟩ : ∃ fuel, nodes.length = fuel + 1 := by
    have nonempty : nodes ≠ [] := by
      rintro rfl
      cases isRoot
    exact ⟨nodes.length - 1, by have := List.length_pos_iff.mpr nonempty; omega⟩
  have grows : grow nodes (nodes.length + 1) [root] = grow nodes (fuel + 1 + 1) [root] := by
    rw [eq]
  rw [descendants, grows, grow]
  split
  case isTrue same =>
    exact pass_prefix.eq_of_length (by simpa using same.symm)
  case isFalse =>
    rw [grow, fixed]
    simp

/-- On a grown forest the closure of a root is what it is the root of. -/
theorem Grown.mem_descendants (grown : Grown nodes) (isRoot : parentOf nodes root = some none) :
    x ∈ descendants nodes root ↔ RootOf nodes x root := by
  have parentless : ∀ p, parentOf nodes root ≠ some (some p) := by
    intro p named
    rw [isRoot] at named
    cases named
  rw [grown.descendants_eq isRoot, grown.mem_pass parentless]
  constructor
  · rintro (rfl | above)
    · exact .root isRoot
    · exact above
  · exact Or.inr

end Everdict.Forest
