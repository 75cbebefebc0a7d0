import Everdict.WorkspaceFs.Revisioned

/-!
# One member's view

A port of the filesystem is the operations a service calls (`WorkspaceFs`); the versioned
filesystem is one (`revisioned`).  `memberScoped` lets through what lies outside
`memory/members/` and what lies in the viewer's own area.  It reads the owner off the path as it
is spelled.
-/

namespace Everdict.WorkspaceFs

open Text Everdict.WorkspaceFs.Action

/-! ## Areas -/

def MEMBER_MEMORY_ROOT : String := MEMORY_ROOT ++ "/members"

/-- `path.replace(/^\/+/, "").replace(/\/+$/, "")` -/
def stripSlashes (path : String) : String :=
  String.ofList
    ((path.toList.dropWhile (· = '/')).reverse.dropWhile (· = '/')).reverse

/-- The member whose area a path lies in. -/
def memberMemoryOwnerOf (path : String) : Option String :=
  let normalized := stripSlashes path
  if ¬ below MEMBER_MEMORY_ROOT normalized then none
  else
    let slug := TenantTree.firstName (sliceAfter normalized (MEMBER_MEMORY_ROOT ++ "/"))
    if slug = "" then none else some slug

/-- The member root, what is above it, and the root. -/
def coversMemberAreas (path : String) : Bool :=
  let normalized := stripSlashes path
  normalized = "" || below normalized (MEMBER_MEMORY_ROOT ++ "/")

/-- No area, or the viewer's. -/
def mine (viewer : Option String) (path : String) : Bool :=
  match memberMemoryOwnerOf path with
  | none => true
  | some owner => viewer = some owner

def doesNotExist (path : String) : AppError :=
  NotFoundError [("path", path)] s!"'{path}' does not exist"

/-! ## Ports -/

/-- One tenant's filesystem, as a service sees it. -/
structure WorkspaceFs where
  list : String → Action (List FsEntry)
  stat : String → Action (Option FsEntry)
  read : String → Action (Option FsFile)
  write : String → Publish → Action FsEntry
  mkdir : String → Action FsEntry
  remove : String → Bool → Action Nat
  move : String → String → Action FsEntry
  readRevisionBlob : String → Nat → Action (Option FsFile)

/-- The versioned filesystem over the tree in memory and a ledger. -/
def revisioned (deps : Deps) (store : FsRevisionStore) : WorkspaceFs where
  list := RevisionedWorkspaceFs.list deps
  stat := RevisionedWorkspaceFs.stat
  read := RevisionedWorkspaceFs.read deps
  write := RevisionedWorkspaceFs.write deps store
  mkdir := RevisionedWorkspaceFs.mkdir
  remove := RevisionedWorkspaceFs.remove
  move := RevisionedWorkspaceFs.move deps store
  readRevisionBlob := RevisionedWorkspaceFs.readRevisionBlob

namespace MemberScopedWorkspaceFs

variable (inner : WorkspaceFs) (viewer : Option String)

/-- `require` -/
def requireMine (path : String) : Action Unit :=
  if mine viewer path then pure () else throw (doesNotExist path)

def list (dir : String) : Action (List FsEntry) := do
  let entries ← inner.list dir
  return entries.filter fun e => mine viewer e.path

def stat (path : String) : Action (Option FsEntry) :=
  if mine viewer path then inner.stat path else pure none

def read (path : String) : Action (Option FsFile) :=
  if mine viewer path then inner.read path else pure none

def write (path : String) (input : Publish) : Action FsEntry := do
  requireMine viewer path
  inner.write path input

def mkdir (path : String) : Action FsEntry := do
  requireMine viewer path
  inner.mkdir path

def remove (path : String) (recursive : Bool) : Action Nat := do
  requireMine viewer path
  if recursive && coversMemberAreas path then throw (doesNotExist path)
  else inner.remove path recursive

def move (from' to' : String) : Action FsEntry := do
  requireMine viewer from'
  requireMine viewer to'
  inner.move from' to'

def readRevisionBlob (path : String) (revision : Nat) : Action (Option FsFile) :=
  if mine viewer path then inner.readRevisionBlob path revision else pure none

end MemberScopedWorkspaceFs

def memberScoped (inner : WorkspaceFs) (viewer : Option String) : WorkspaceFs where
  list := MemberScopedWorkspaceFs.list inner viewer
  stat := MemberScopedWorkspaceFs.stat inner viewer
  read := MemberScopedWorkspaceFs.read inner viewer
  write := MemberScopedWorkspaceFs.write inner viewer
  mkdir := MemberScopedWorkspaceFs.mkdir inner viewer
  remove := MemberScopedWorkspaceFs.remove inner viewer
  move := MemberScopedWorkspaceFs.move inner viewer
  readRevisionBlob := MemberScopedWorkspaceFs.readRevisionBlob inner viewer

end Everdict.WorkspaceFs
