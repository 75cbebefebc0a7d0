import Everdict.WorkspaceFs.Ledger

/-!
# The versioned filesystem

`RevisionedWorkspaceFs` over the tree and a ledger, one call after another: a write claims the
next revision in the ledger, stores the immutable copy of it and then the visible file, and a read
repairs a visible file that is not the published revision.  The state after a call that throws is
the state it threw in.
-/

namespace Everdict.WorkspaceFs

/-- What the decorator takes from elsewhere: the registry, SHA-256 in hex, and the credential scan
(what it finds in bytes that are text). -/
structure Deps extends Registry where
  sha256 : Bytes → String
  findSecretLikeToken : Bytes → Option String

/-- Names in the order of their characters, one type of file and nothing that looks like a token. -/
def plainDeps : Deps where
  localeCompare := fun a b => a ≤ b
  guessFsContentType := fun _ => "text/markdown; charset=utf-8"
  sha256 := fun _ => ""
  findSecretLikeToken := fun _ => none

def FS_SYSTEM_ACTOR : String := "\x7b\"kind\":\"system\",\"subject\":\"\"\x7d"

def MEMORY_ROOT : String := "memory"

/-- A path that is not canonicalizable is scanned, too. -/
def isMemoryPath (path : String) : Bool :=
  match normalizeFsPath path with
  | .error _ => true
  | .ok normalized => normalized = MEMORY_ROOT || below MEMORY_ROOT normalized

def assertNoSecretsInMemory (deps : Deps) (path : String) (data : Bytes) : Except AppError Unit :=
  if ¬ isMemoryPath path then .ok ()
  else match deps.findSecretLikeToken data with
    | none => .ok ()
    | some leak => .error (BadRequestError [("path", path), ("match", leak)]
        ("memory files are shared with the whole workspace and replayed into future conversations "
          ++ "— never store credentials in them (found a " ++ leak
          ++ "). Reference the secret by NAME (Settings › Secrets) instead."))

structure FsWriteOptions where
  actor : Option String
  baseRevision : Option Nat
  message : Option String
  restoredFrom : Option Nat
  deriving DecidableEq

/-- The arguments of a write. -/
structure Publish where
  data : Bytes
  contentType : Option String
  opts : FsWriteOptions
  deriving DecidableEq

def Publish.type (deps : Deps) (path : String) (input : Publish) : String :=
  input.contentType.getD (deps.guessFsContentType path)

/-- The row a write appends for a revision. -/
def Publish.record (deps : Deps) (path : String) (input : Publish) (revision : Nat) :
    FsRevision where
  path := path
  revision := revision
  size := input.data.length
  contentType := input.type deps path
  hash := deps.sha256 input.data
  actor := input.opts.actor.getD FS_SYSTEM_ACTOR
  message := input.opts.message
  restoredFrom := input.opts.restoredFrom

/-- `head?.revision ?? 0` -/
def current (rows : Rows) (path : String) : Nat := ((head rows path).map FsRevision.revision).getD 0

def movedOn (path : String) (base headRevision : Nat) : AppError :=
  ConflictError
    [("path", path), ("baseRevision", toString base), ("headRevision", toString headRevision)]
    ("'" ++ path ++ "' moved on to revision " ++ toString headRevision
      ++ " while you were editing revision " ++ toString base)

def tooFast (path : String) : AppError :=
  ConflictError [("path", path)]
    ("'" ++ path ++ "' is being written too fast to publish a revision")

/-- The times a write tries to claim a number. -/
def attempts : Nat := 5

/-! ## One call after another -/

/-- One tenant's tree and ledger. -/
structure Volume where
  tree : TenantTree
  rows : Rows

/-- What a call does to the volume and answers, or throws. -/
def Action (α : Type) : Type := Volume → Except AppError α × Volume

namespace Action

variable {α β : Type}

instance : Monad Action where
  pure a := fun v => (.ok a, v)
  bind x f := fun v => match x v with
    | (.ok a, v') => f a v'
    | (.error e, v') => (.error e, v')

/-- A handler runs on the volume the error left. -/
instance : MonadExceptOf AppError Action where
  throw e := fun v => (.error e, v)
  tryCatch x handle := fun v => match x v with
    | (.ok a, v') => (.ok a, v')
    | (.error e, v') => handle e v'

theorem pure_apply (a : α) (v : Volume) : (pure a : Action α) v = (.ok a, v) := rfl

theorem bind_apply (x : Action α) (f : α → Action β) (v : Volume) :
    (x >>= f) v = match x v with
      | (.ok a, v') => f a v'
      | (.error e, v') => (.error e, v') := rfl

theorem tryCatch_apply (x : Action α) (handle : AppError → Action α) (v : Volume) :
    (tryCatch x handle) v = match x v with
      | (.ok a, v') => (.ok a, v')
      | (.error e, v') => handle e v' := rfl

/-- A check that reads nothing. -/
def checks (r : Except AppError α) : Action α := fun v => (r, v)

/-- A read of the tree. -/
def reads (op : TenantTree → Except AppError α) : Action α := fun v => (op v.tree, v)

/-- An operation on the tree; one that throws leaves it as it was. -/
def writes (op : TenantTree → Except AppError (TenantTree × α)) : Action α := fun v =>
  match op v.tree with
  | .ok (tree, answer) => (.ok answer, { v with tree })
  | .error e => (.error e, v)

/-- A read of the ledger. -/
def queries (op : Rows → α) : Action α := fun v => (.ok (op v.rows), v)

/-- An operation on the ledger; one that throws leaves it as it was. -/
def records (op : Rows → Except AppError Rows) : Action Unit := fun v =>
  match op v.rows with
  | .ok rows => (.ok (), { v with rows })
  | .error e => (.error e, v)

end Action

open Everdict.WorkspaceFs.Action

def blobWriter (path : String) (revision : Nat) (data : Bytes) (contentType : String) :
    Action Unit :=
  writes fun tree => (tree.writeRevisionBlob path revision data contentType).map (·, ())

namespace RevisionedWorkspaceFs

variable (deps : Deps) (store : FsRevisionStore)

def list (dir : String) : Action (List FsEntry) := reads fun tree => tree.list deps.toRegistry dir

def stat (path : String) : Action (Option FsEntry) := do
  match ← reads fun tree => tree.stat path with
  | none => return none
  | some entry =>
      if entry.kind ≠ .file then return some entry
      else
        match ← queries fun rows => head rows entry.path with
        | some head => return some { entry with revision := some head.revision }
        | none => return some entry

/-- A file under the number of a revision. -/
def labelled (file : FsFile) (revision : Nat) : FsFile :=
  { file with entry := { file.entry with revision := some revision } }

def read (path : String) : Action (Option FsFile) := do
  match ← reads fun tree => tree.read path with
  | none => return none
  | some file =>
      match ← queries fun rows => head rows path with
      | none => return some file
      | some head =>
          if head.size = file.data.length then return some (labelled file head.revision)
          else
            match ← reads fun tree => tree.readRevisionBlob path head.revision with
            | none => return some (labelled file head.revision)
            | some published =>
                let repair : Action FsEntry := writes fun tree =>
                  tree.write deps.toRegistry path published.data (some head.contentType)
                tryCatch (repair >>= fun _ => pure ()) fun _ => pure ()
                return some (labelled published head.revision)

/-- The loop of `write`, with the attempts it has left. -/
def publish (path : String) (input : Publish) : Nat → Action FsEntry
  | 0 => throw (tooFast path)
  | left + 1 => do
      let current ← queries fun rows => current rows path
      if input.opts.baseRevision.any (· ≠ current) then
        throw (movedOn path (input.opts.baseRevision.getD 0) current)
      else do
        let record := input.record deps path (current + 1)
        let lost : Option AppError ← tryCatch
          (records (fun rows => store.append rows record) >>= fun _ => pure none)
          fun e => pure (some e)
        match lost with
        | none => do
            blobWriter path record.revision input.data record.contentType
            let entry ← writes fun tree =>
              tree.write deps.toRegistry path input.data (some record.contentType)
            return { entry with revision := some record.revision }
        | some e =>
            if e.code ≠ .CONFLICT then throw e
            else
              match input.opts.baseRevision with
              | some base => throw (movedOn path base record.revision)
              | none => publish path input left

def write (path : String) (input : Publish) : Action FsEntry := do
  checks (assertNoSecretsInMemory deps path input.data)
  publish deps store path input attempts

def mkdir (path : String) : Action FsEntry := writes fun tree => tree.mkdir path

def remove (path : String) (recursive : Bool) : Action Nat :=
  writes fun tree => tree.remove path recursive

/-- What a move into the memory area checks. -/
def guardMove (from' to' : String) : Action Unit := do
  if isMemoryPath to' && !isMemoryPath from' then
    match ← reads fun tree => tree.read from' with
    | some file => checks (assertNoSecretsInMemory deps to' file.data)
    | none => pure ()
  else pure ()

def move (from' to' : String) : Action FsEntry := do
  guardMove deps from' to'
  let entry ← writes fun tree => tree.move from' to'
  records fun rows => store.rename rows from' to'
  return entry

def readRevisionBlob (path : String) (revision : Nat) : Action (Option FsFile) :=
  reads fun tree => tree.readRevisionBlob path revision

end RevisionedWorkspaceFs

end Everdict.WorkspaceFs
