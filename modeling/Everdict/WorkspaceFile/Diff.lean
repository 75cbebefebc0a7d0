import Everdict.WorkspaceFile.Merge

/-!
# The difference of two revisions

The lines of two texts against the matching that the merge uses: every gap between matched lines
is a run of removals and then a run of additions, and the changes are shown with the lines around
them.
-/

namespace Everdict.WorkspaceFile

inductive DiffOp
  | context
  | add
  | remove
  deriving DecidableEq

structure FsTextDiffLine where
  op : DiffOp
  text : String
  beforeLine : Option Nat
  afterLine : Option Nat
  deriving DecidableEq

structure FsTextDiffHunk where
  beforeStart : Nat
  afterStart : Nat
  lines : List FsTextDiffLine
  deriving DecidableEq

structure FsTextDiff where
  hunks : List FsTextDiffHunk
  added : Nat
  removed : Nat
  truncated : Bool
  deriving DecidableEq

def CONTEXT_LINES : Nat := 3
def MAX_DIFF_LINES : Nat := 20000

/-- `emitGap` -/
def emitGap (a b : List String) (ai bi aEnd bEnd : Nat) : List FsTextDiffLine :=
  ((slice a ai aEnd).mapIdx fun i text => ⟨.remove, text, some (ai + i + 1), none⟩)
    ++ (slice b bi bEnd).mapIdx fun i text => ⟨.add, text, none, some (bi + i + 1)⟩

/-- The lines of both sides, from two positions on and for the pairs that are left. -/
def diffLines (a b : List String) : List (Nat × Nat) → Nat → Nat → List FsTextDiffLine
  | [], ai, bi => emitGap a b ai bi a.length b.length
  | (pa, pb) :: pairs, ai, bi =>
      emitGap a b ai bi pa pb
        ++ ⟨.context, a.getD pa "", some (pa + 1), some (pb + 1)⟩
        :: diffLines a b pairs (pa + 1) (pb + 1)

/-- Is there a change within the context of line `j`? -/
def keepsLine (lines : List FsTextDiffLine) (j : Nat) : Bool :=
  lines.zipIdx.any fun line =>
    line.1.op ≠ .context ∧ line.2 - CONTEXT_LINES ≤ j ∧ j ≤ line.2 + CONTEXT_LINES

def flushHunk (current : List FsTextDiffLine) : List FsTextDiffHunk :=
  if current = [] then []
  else [{ beforeStart := (current.findSome? FsTextDiffLine.beforeLine).getD 0
          afterStart := (current.findSome? FsTextDiffLine.afterLine).getD 0
          lines := current }]

/-- The lines that are left, each with whether it is kept, and the hunk that is open. -/
def hunkLoop : List (FsTextDiffLine × Bool) → List FsTextDiffLine → List FsTextDiffHunk
  | [], current => flushHunk current
  | (line, true) :: lines, current => hunkLoop lines (current ++ [line])
  | (_, false) :: lines, current => flushHunk current ++ hunkLoop lines []

def toHunks (lines : List FsTextDiffLine) : List FsTextDiffHunk :=
  hunkLoop (lines.zipIdx.map fun line => (line.1, keepsLine lines line.2)) []

def diffFileText (before after : String) : FsTextDiff :=
  if before = after then ⟨[], 0, 0, false⟩
  else
    let a := toLines before
    let b := toLines after
    if MAX_DIFF_LINES < a.length ∨ MAX_DIFF_LINES < b.length then ⟨[], 0, 0, true⟩
    else
      let lines := diffLines a b (lcsPairs a b) 0 0
      { hunks := toHunks lines
        added := lines.countP fun line => line.op = .add
        removed := lines.countP fun line => line.op = .remove
        truncated := false }

end Everdict.WorkspaceFile
