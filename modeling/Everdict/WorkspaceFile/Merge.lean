import Mathlib.Data.List.Basic
import Mathlib.Tactic.Common

/-!
# Three-way merge of workspace files

Line-based: a longest common subsequence gives the hunks a side made over the
base, hunks of the two sides whose base ranges clash are decided as one group, and
a group both sides changed differently is a conflict.

`mergeLoop` and `grow` are the two loops of the source over the hunks that are
left; `grow_consumes` is why they end.
-/

namespace Everdict.WorkspaceFile

structure FsMergeConflict where
  line : Nat
  base : String
  ours : String
  theirs : String
  deriving DecidableEq

structure FsMergeResult where
  merged : String
  conflicts : List FsMergeConflict
  deriving DecidableEq

def CONFLICT_HEAD : String := "<<<<<<< yours"
def CONFLICT_SPLIT : String := "======="
def CONFLICT_TAIL : String := ">>>>>>> published"

def toLines (text : String) : List String := (text.toList.splitOn '\n').map String.ofList

def joinLines (lines : List String) : String := "\n".intercalate lines

/-- `Array.prototype.slice` at two positions. -/
def slice {α : Type} (l : List α) (start stop : Nat) : List α := (l.drop start).take (stop - start)

/-- One change of a side: `base[bStart, bEnd)` became `side[sStart, sEnd)`. -/
structure Hunk where
  bStart : Nat
  bEnd : Nat
  sStart : Nat
  sEnd : Nat
  deriving DecidableEq

section Lines

variable {α : Type} [DecidableEq α]

/-! ## The matching of two documents -/

/-- One row of the table from the row below it. -/
def lcsRow (line : α) : List α → List Nat → List Nat
  | other :: b, down :: next =>
      let row := lcsRow line b next
      (if line = other then next.headD 0 + 1 else max down (row.headD 0)) :: row
  | _, _ => [0]

/-- The lengths of the longest common subsequences of all pairs of suffixes. -/
def lcsTable (a b : List α) : List (List Nat) :=
  a.foldr (fun line table => lcsRow line b (table.headD []) :: table) [List.replicate (b.length + 1) 0]

def cell (table : List (List Nat)) (i j : Nat) : Nat := (table.getD i []).getD j 0

def lcsWalk (a b : List α) (table : List (List Nat)) (i j : Nat) : List (Nat × Nat) :=
  if i < a.length ∧ j < b.length then
    if a[i]? = b[j]? then (i, j) :: lcsWalk a b table (i + 1) (j + 1)
    else if cell table (i + 1) j ≥ cell table i (j + 1) then lcsWalk a b table (i + 1) j
    else lcsWalk a b table i (j + 1)
  else []
termination_by (a.length - i) + (b.length - j)

def lcsPairs (a b : List α) : List (Nat × Nat) := lcsWalk a b (lcsTable a b) 0 0

/-! ## Hunks -/

def hunksLoop (base side : List α) : List (Nat × Nat) → Nat → Nat → List Hunk
  | [], b, s =>
      if b < base.length ∨ s < side.length then [⟨b, base.length, s, side.length⟩] else []
  | (pb, ps) :: pairs, b, s =>
      let rest := hunksLoop base side pairs (pb + 1) (ps + 1)
      if pb > b ∨ ps > s then ⟨b, pb, s, ps⟩ :: rest else rest

def hunksOf (base side : List α) : List Hunk := hunksLoop base side (lcsPairs base side) 0 0

def clashes (a b : Hunk) : Bool :=
  (a.bStart < b.bEnd ∧ b.bStart < a.bEnd) ∨
    (a.bStart = b.bStart ∧ (a.bStart = a.bEnd ∨ b.bStart = b.bEnd))

def sideTextLoop (base side : List α) (start stop : Nat) : List Hunk → Nat → List α → List α
  | [], b, out => if b < stop then out ++ slice base b stop else out
  | h :: hunks, b, out =>
      if h.bEnd < start ∨ h.bStart > stop then sideTextLoop base side start stop hunks b out
      else
        sideTextLoop base side start stop hunks h.bEnd
          ((if h.bStart > b then out ++ slice base b h.bStart else out) ++
            slice side h.sStart h.sEnd)

def sideText (base side : List α) (hunks : List Hunk) (start stop : Nat) : List α :=
  sideTextLoop base side start stop hunks start []

end Lines

/-! ## Groups of clashing hunks -/

structure Group where
  start : Nat
  stop : Nat
  ours : List Hunk
  theirs : List Hunk

def Group.isEmpty (g : Group) : Bool := g.ours = [] ∧ g.theirs = []

def Group.at (start : Nat) : Group := ⟨start, start, [], []⟩

def Group.takeOurs (g : Group) (h : Hunk) : Group :=
  ⟨min g.start h.bStart, max g.stop h.bEnd, g.ours ++ [h], g.theirs⟩

def Group.takeTheirs (g : Group) (h : Hunk) : Group :=
  ⟨min g.start h.bStart, max g.stop h.bEnd, g.ours, g.theirs ++ [h]⟩

def Group.window (g : Group) : Hunk := ⟨g.start, g.stop, 0, 0⟩

/-- An inner loop: take hunks into the group for as long as they belong to it. -/
def absorb (belongs : Group → Hunk → Bool) (take : Group → Hunk → Group) (g : Group) :
    List Hunk → Group × List Hunk
  | [] => (g, [])
  | h :: rest => if belongs g h then absorb belongs take (take g h) rest else (g, h :: rest)

/-- Ours are held against the window their round began with. -/
def oursBelongs (window : Hunk) (g : Group) (h : Hunk) : Bool :=
  if g.isEmpty then h.bStart = g.start else clashes h window

/-- Theirs are held against a window whose end moves with the group. -/
def theirsBelongs (window : Hunk) (g : Group) (h : Hunk) : Bool :=
  if g.isEmpty then h.bStart = g.start else clashes h { window with bEnd := g.stop }

def absorbOurs (window : Hunk) : Group → List Hunk → Group × List Hunk :=
  absorb (oursBelongs window) Group.takeOurs

def absorbTheirs (window : Hunk) : Group → List Hunk → Group × List Hunk :=
  absorb (theirsBelongs window) Group.takeTheirs

/-- One round: the group and the hunks that are left. -/
def round (g : Group) (ours theirs : List Hunk) : Group × List Hunk × List Hunk :=
  let (g₁, ours') := absorbOurs g.window g ours
  let (g₂, theirs') := absorbTheirs g.window g₁ theirs
  (g₂, ours', theirs')

theorem absorb_length (belongs : Group → Hunk → Bool) (take : Group → Hunk → Group) (g : Group)
    (l : List Hunk) : (absorb belongs take g l).2.length ≤ l.length := by
  induction l generalizing g with
  | nil => simp [absorb]
  | cons h rest ih =>
      unfold absorb
      split
      · have := ih (take g h)
        simp only [List.length_cons]
        omega
      · simp

theorem absorb_takes {belongs : Group → Hunk → Bool} (take : Group → Hunk → Group) {g : Group}
    {h : Hunk} (rest : List Hunk) (fits : belongs g h = true) :
    (absorb belongs take g (h :: rest)).2.length ≤ rest.length := by
  rw [absorb, if_pos fits]
  exact absorb_length belongs take _ rest

theorem round_length (g : Group) (ours theirs : List Hunk) :
    (round g ours theirs).2.1.length + (round g ours theirs).2.2.length ≤
      ours.length + theirs.length := by
  have ours_le := absorb_length (oursBelongs g.window) Group.takeOurs g ours
  have theirs_le := absorb_length (theirsBelongs g.window) Group.takeTheirs
    (absorbOurs g.window g ours).1 theirs
  simp only [round, absorbOurs, absorbTheirs] at *
  omega

/-- Rounds until one takes nothing. -/
def grow (g : Group) (ours theirs : List Hunk) : Group × List Hunk × List Hunk :=
  let next := round g ours theirs
  if next.2.1.length + next.2.2.length < ours.length + theirs.length then
    grow next.1 next.2.1 next.2.2
  else next
termination_by ours.length + theirs.length

/-- Where the earliest change that is left starts. -/
def nextStart : List Hunk → List Hunk → Option Nat
  | [], [] => none
  | h :: _, [] => some h.bStart
  | [], h :: _ => some h.bStart
  | h :: _, h' :: _ => some (min h.bStart h'.bStart)

theorem at_belongs {h : Hunk} {start : Nat} (hit : h.bStart = start) (window : Hunk) :
    oursBelongs window (.at start) h = true ∧ theirsBelongs window (.at start) h = true := by
  simp [oursBelongs, theirsBelongs, Group.at, Group.isEmpty, hit]

/-- The first round takes the hunk the group starts at. -/
theorem round_consumes {ours theirs : List Hunk} {start : Nat}
    (next : nextStart ours theirs = some start) :
    (round (.at start) ours theirs).2.1.length + (round (.at start) ours theirs).2.2.length <
      ours.length + theirs.length := by
  have ours_le := absorb_length (oursBelongs (Group.at start).window) Group.takeOurs (.at start) ours
  have theirs_le := absorb_length (theirsBelongs (Group.at start).window) Group.takeTheirs
    (absorbOurs (Group.at start).window (.at start) ours).1 theirs
  have first : (∃ h rest, ours = h :: rest ∧ h.bStart = start) ∨
      ((∀ h rest, ours = h :: rest → h.bStart ≠ start) ∧
        ∃ h rest, theirs = h :: rest ∧ h.bStart = start) := by
    cases ours with
    | nil =>
        cases theirs with
        | nil => cases next
        | cons h rest => exact .inr ⟨by simp, h, rest, rfl, Option.some.inj next⟩
    | cons h rest =>
        by_cases hit : h.bStart = start
        · exact .inl ⟨h, rest, rfl, hit⟩
        · cases theirs with
          | nil => exact absurd (Option.some.inj next) hit
          | cons h' rest' =>
              have least : min h.bStart h'.bStart = start := Option.some.inj next
              refine .inr ⟨by simpa using hit, h', rest', rfl, ?_⟩
              omega
  rcases first with ⟨h, rest, rfl, hit⟩ | ⟨miss, h, rest, rfl, hit⟩
  · have taken := absorb_takes Group.takeOurs rest
      (at_belongs hit (Group.at start).window).1
    simp only [round, absorbOurs, absorbTheirs, List.length_cons] at *
    omega
  · have idle : absorbOurs (Group.at start).window (.at start) ours = (.at start, ours) := by
      cases ours with
      | nil => rfl
      | cons h' rest' =>
          rw [absorbOurs, absorb, if_neg]
          simp [oursBelongs, Group.at, Group.isEmpty, miss h' rest' rfl]
    have taken := absorb_takes Group.takeTheirs rest
      (at_belongs hit (Group.at start).window).2
    simp only [round, idle, absorbTheirs, List.length_cons] at *
    omega

theorem grow_length (g : Group) (ours theirs : List Hunk) :
    (grow g ours theirs).2.1.length + (grow g ours theirs).2.2.length ≤
      ours.length + theirs.length := by
  induction g, ours, theirs using grow.induct with
  | case1 g ours theirs next fewer ih =>
      unfold grow
      rw [if_pos fewer]
      exact Nat.le_trans ih (Nat.le_of_lt fewer)
  | case2 g ours theirs next same =>
      unfold grow
      rw [if_neg same]
      exact round_length g ours theirs

theorem grow_consumes {ours theirs : List Hunk} {start : Nat}
    (next : nextStart ours theirs = some start) :
    (grow (.at start) ours theirs).2.1.length + (grow (.at start) ours theirs).2.2.length <
      ours.length + theirs.length := by
  unfold grow
  rw [if_pos (round_consumes next)]
  exact Nat.lt_of_le_of_lt (grow_length _ _ _) (round_consumes next)

/-! ## The merge -/

/-- The local variables of the main loop: how far the base is emitted, and the output. -/
structure Emitted where
  b : Nat
  merged : List String
  conflicts : List FsMergeConflict

/-- The body of the main loop after its group has grown. -/
def Emitted.group (e : Emitted) (base ours theirs : List String) (g : Group) : Emitted :=
  let merged := e.merged ++ slice base e.b g.start
  let ourSlice := sideText base ours g.ours g.start g.stop
  let theirSlice := sideText base theirs g.theirs g.start g.stop
  if g.theirs = [] then ⟨g.stop, merged ++ ourSlice, e.conflicts⟩
  else if g.ours = [] then ⟨g.stop, merged ++ theirSlice, e.conflicts⟩
  else if ourSlice = theirSlice then ⟨g.stop, merged ++ ourSlice, e.conflicts⟩
  else
    ⟨g.stop,
      merged ++ [CONFLICT_HEAD] ++ ourSlice ++ [CONFLICT_SPLIT] ++ theirSlice ++ [CONFLICT_TAIL],
      e.conflicts ++ [⟨merged.length, joinLines (slice base g.start g.stop), joinLines ourSlice,
        joinLines theirSlice⟩]⟩

def mergeLoop (base ours theirs : List String) (ourHunks theirHunks : List Hunk) (e : Emitted) :
    Emitted :=
  match _ : nextStart ourHunks theirHunks with
  | none => e
  | some start =>
      let grown := grow (.at start) ourHunks theirHunks
      mergeLoop base ours theirs grown.2.1 grown.2.2 (e.group base ours theirs grown.1)
termination_by ourHunks.length + theirHunks.length
decreasing_by exact grow_consumes ‹_›

/-- The general path of `mergeThreeWay`. -/
def mergeLines (base ours theirs : List String) : FsMergeResult :=
  let e := mergeLoop base ours theirs (hunksOf base ours) (hunksOf base theirs) ⟨0, [], []⟩
  ⟨joinLines (e.merged ++ slice base e.b base.length), e.conflicts⟩

def mergeThreeWay (base ours theirs : String) : FsMergeResult :=
  if ours = theirs then ⟨ours, []⟩
  else if base = ours then ⟨theirs, []⟩
  else if base = theirs then ⟨ours, []⟩
  else mergeLines (toLines base) (toLines ours) (toLines theirs)

end Everdict.WorkspaceFile
