import Everdict.Transition
import Everdict.WorkspaceFs.Revisioned

/-!
# Reads and writes of one path, await by await

`RevisionedWorkspaceFs.write` and `.read` cut at their awaits: a call waits for one operation on
the tree or the ledger, an event lets the operation of one call return (or throw), and the call
runs on to its next await.  The operations are those of `InMemoryWorkspaceFs` and
`InMemoryFsRevisionStore`.
-/

namespace Everdict.WorkspaceFs

open Transition RevisionedWorkspaceFs

/-- How a call ended; one that threw may have claimed a revision before. -/
inductive Result
  | wrote (entry : FsEntry)
  | read (file : Option FsFile)
  | threw (claimed : Option Nat) (error : AppError)
  deriving DecidableEq

/-- The operation a call waits for, with what it holds; `left` counts the attempts after this
one. -/
inductive Await
  | head (input : Publish) (left : Nat)
  | append (input : Publish) (left : Nat) (record : FsRevision)
  | blob (input : Publish) (record : FsRevision)
  | file (input : Publish) (record : FsRevision)
  | innerRead
  | readHead (file : FsFile)
  | readBlob (file : FsFile) (head : FsRevision)
  | repair (published : FsFile) (head : FsRevision)
  | done (result : Result)
  deriving DecidableEq

structure System where
  volume : Volume
  calls : List Await

inductive Event
  | write (input : Publish)
  | read
  | returns (call : Nat)
  | fails (call : Nat) (error : AppError)
  deriving DecidableEq

inductive Outcome
  | waits
  | published (input : Publish) (record : FsRevision)
  | returned (result : Result)
  deriving DecidableEq

section Machine

variable (deps : Deps) (path : String)

/-- The first step of a write, up to its first await. -/
def beginWrite (input : Publish) : Await × Outcome :=
  match assertNoSecretsInMemory deps path input.data with
  | .ok () => (.head input (attempts - 1), .waits)
  | .error e => (.done (.threw none e), .returned (.threw none e))

def ended (result : Result) : Await × Outcome := (.done result, .returned result)

/-- The `catch` around the append. -/
def appendThrew (input : Publish) (left : Nat) (record : FsRevision) (e : AppError) :
    Await × Outcome :=
  if e.code ≠ .CONFLICT then ended (.threw none e)
  else match input.opts.baseRevision, left with
    | some base, _ => ended (.threw none (movedOn path base record.revision))
    | none, 0 => ended (.threw none (tooFast path))
    | none, left + 1 => (.head input left, .waits)

/-- The awaited operation returns, and the call runs on. -/
def resume (v : Volume) : Await → Option (Volume × Await × Outcome)
  | .head input left =>
      let current := current v.rows path
      if input.opts.baseRevision.any (· ≠ current) then
        some (v, ended (.threw none (movedOn path (input.opts.baseRevision.getD 0) current)))
      else some (v, .append input left (input.record deps path (current + 1)), .waits)
  | .append input left record =>
      match InMemoryFsRevisionStore.append v.rows record with
      | .ok rows => some ({ v with rows }, .blob input record, .published input record)
      | .error e => some (v, appendThrew path input left record e)
  | .blob input record =>
      match v.tree.writeRevisionBlob path record.revision input.data record.contentType with
      | .ok tree => some ({ v with tree }, .file input record, .waits)
      | .error e => some (v, ended (.threw (some record.revision) e))
  | .file input record =>
      match v.tree.write deps.toRegistry path input.data (some record.contentType) with
      | .ok (tree, entry) =>
          some ({ v with tree }, ended (.wrote { entry with revision := some record.revision }))
      | .error e => some (v, ended (.threw (some record.revision) e))
  | .innerRead =>
      match v.tree.read path with
      | .ok (some file) => some (v, .readHead file, .waits)
      | .ok none => some (v, ended (.read none))
      | .error e => some (v, ended (.threw none e))
  | .readHead file =>
      match head v.rows path with
      | none => some (v, ended (.read (some file)))
      | some head =>
          if head.size = file.data.length then
            some (v, ended (.read (some (labelled file head.revision))))
          else some (v, .readBlob file head, .waits)
  | .readBlob file head =>
      match v.tree.readRevisionBlob path head.revision with
      | .ok (some published) => some (v, .repair published head, .waits)
      | .ok none => some (v, ended (.read (some (labelled file head.revision))))
      | .error e => some (v, ended (.threw none e))
  | .repair published head =>
      let answer := ended (.read (some (labelled published head.revision)))
      match v.tree.write deps.toRegistry path published.data (some head.contentType) with
      | .ok (tree, _) => some ({ v with tree }, answer)
      | .error _ => some (v, answer)
  | .done _ => none

/-- The awaited operation throws. -/
def interrupt (e : AppError) : Await → Option (Await × Outcome)
  | .head _ _ | .innerRead | .readHead _ | .readBlob _ _ => some (ended (.threw none e))
  | .append input left record => some (appendThrew path input left record e)
  | .blob _ record | .file _ record => some (ended (.threw (some record.revision) e))
  | .repair published head => some (ended (.read (some (labelled published head.revision))))
  | .done _ => none

def machine : Machine System Event Outcome
  | s, .write input =>
      let begun := beginWrite deps path input
      some ({ s with calls := s.calls ++ [begun.1] }, begun.2)
  | s, .read => some ({ s with calls := s.calls ++ [.innerRead] }, .waits)
  | s, .returns i =>
      match s.calls[i]? with
      | none => none
      | some await => (resume deps path s.volume await).map fun r =>
          (⟨r.1, s.calls.set i r.2.1⟩, r.2.2)
  | s, .fails i e =>
      match s.calls[i]? with
      | none => none
      | some await => (interrupt path e await).map fun r =>
          ({ s with calls := s.calls.set i r.1 }, r.2)

end Machine

end Everdict.WorkspaceFs
