import Everdict.Sorting
import Everdict.WorkspaceFs.Tree

/-!
# The publication ledger

One row for each published revision of a file, in memory and in Postgres.  The reads are the same
query twice; the stores differ in what an append and a rename do to their rows.

The rows are one tenant's, like the tree.
-/

namespace Everdict.WorkspaceFs

open Sorting Text

/-- A published revision; the actor is carried as the text of its JSON. -/
structure FsRevision where
  path : String
  revision : Nat
  size : Nat
  contentType : String
  hash : String
  actor : String
  message : Option String
  restoredFrom : Option Nat
  deriving DecidableEq

abbrev Rows := List FsRevision

def DEFAULT_LIMIT : Nat := 50

/-- The rows of a path, newest first. -/
def forPath (rows : Rows) (path : String) : Rows :=
  sortBy (fun r => -(r.revision : Int)) (rows.filter fun r => r.path = path)

def head (rows : Rows) (path : String) : Option FsRevision := (forPath rows path).head?

def listRevisions (rows : Rows) (path : String) (limit before : Option Nat) : Rows :=
  ((forPath rows path).filter fun r => before.all (r.revision < ·)).take (limit.getD DEFAULT_LIMIT)

/-- The row of a revision is there already. -/
def published (rows : Rows) (path : String) (revision : Nat) : Bool :=
  rows.any fun r => r.path = path ∧ r.revision = revision

def alreadyPublished (record : FsRevision) : AppError :=
  ConflictError [("path", record.path), ("revision", toString record.revision)]
    ("revision " ++ toString record.revision ++ " of '" ++ record.path ++ "' was already published")

structure FsRevisionStore where
  append : Rows → FsRevision → Except AppError Rows
  rename : Rows → String → String → Except AppError Rows

namespace InMemoryFsRevisionStore

def append (rows : Rows) (record : FsRevision) : Except AppError Rows :=
  if published rows record.path record.revision then .error (alreadyPublished record)
  else .ok (rows ++ [record])

/-- `` `${to}/${row.path.slice(from.length + 1)}` `` -/
def renamed (from' to' : String) (row : FsRevision) : FsRevision :=
  if row.path = from' then { row with path := to' }
  else if below from' row.path then { row with path := TenantTree.rebase from' to' row.path }
  else row

def rename (rows : Rows) (from' to' : String) : Except AppError Rows :=
  .ok (rows.map (renamed from' to'))

end InMemoryFsRevisionStore

namespace PgFsRevisionStore

/-- The range of `integer` above 0. -/
def isInt (n : Nat) : Bool := n ≤ 2147483647

/-- `path LIKE pattern` -/
def like : List Char → List Char → Bool
  | [], text => text.isEmpty
  | '%' :: pattern, text => text.tails.any (like pattern)
  | '_' :: pattern, text => match text with
      | _ :: text => like pattern text
      | [] => false
  | ['\\'], _ => false
  | '\\' :: c :: pattern, text => match text with
      | c' :: text => c = c' && like pattern text
      | [] => false
  | c :: pattern, text => match text with
      | c' :: text => c = c' && like pattern text
      | [] => false

/-- `ON CONFLICT (tenant, path, revision) DO NOTHING RETURNING revision` -/
def append (rows : Rows) (record : FsRevision) : Except AppError Rows :=
  if ¬ isInt record.revision then .error ⟨.driver, [], "integer out of range"⟩
  else if published rows record.path record.revision then .error (alreadyPublished record)
  else .ok (rows ++ [record])

/-- `WHERE path = $2 OR path LIKE $2 || '/%'` -/
def selects (from' path : String) : Bool :=
  path = from' || like (from' ++ "/%").toList path.toList

/-- `CASE WHEN path = $2 THEN $3 ELSE $3 || substring(path from char_length($2) + 1) END` -/
def rewritten (from' to' : String) (row : FsRevision) : FsRevision :=
  { row with path :=
      if row.path = from' then to'
      else to' ++ String.ofList (row.path.toList.drop from'.toList.length) }

/-- Each selected row is rewritten in turn, and the primary key is checked at each. -/
def update (from' to' : String) (done : Rows) : Rows → Except AppError Rows
  | [] => .ok done
  | row :: rest =>
      if ¬ selects from' row.path then update from' to' (done ++ [row]) rest
      else
        let row' := rewritten from' to' row
        if published (done ++ rest) row'.path row'.revision then
          .error ⟨.driver, [], "duplicate key value violates unique constraint"⟩
        else update from' to' (done ++ [row']) rest

def rename (rows : Rows) (from' to' : String) : Except AppError Rows := update from' to' [] rows

end PgFsRevisionStore

def inMemory : FsRevisionStore where
  append := InMemoryFsRevisionStore.append
  rename := InMemoryFsRevisionStore.rename

def postgres : FsRevisionStore where
  append := PgFsRevisionStore.append
  rename := PgFsRevisionStore.rename

end Everdict.WorkspaceFs
