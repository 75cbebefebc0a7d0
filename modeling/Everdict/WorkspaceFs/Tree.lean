import Everdict.Table
import Everdict.Text

/-!
# The workspace filesystem in memory

A tenant has its files under canonical paths, the directories that were made explicitly, and the
copies published under a revision number, which no listing shows.  Every operation makes a path
canonical first (`normalizeFsPath`).

All of this is one tenant's: each operation reads and writes the tree of the tenant it is given
and no other.  Clocks are left out.
-/

namespace Everdict.WorkspaceFs

open Text

/-! ## Errors -/

/-- The codes of application errors, and what a driver throws. -/
inductive ErrorCode
  | BAD_REQUEST
  | NOT_FOUND
  | CONFLICT
  | driver
  deriving DecidableEq

structure AppError where
  code : ErrorCode
  extra : List (String × String)
  message : String
  deriving DecidableEq

def BadRequestError := AppError.mk .BAD_REQUEST
def NotFoundError := AppError.mk .NOT_FOUND
def ConflictError := AppError.mk .CONFLICT

/-! ## Paths -/

abbrev Bytes := List UInt8

def FS_FILE_MAX_BYTES : Nat := 5 * 1024 * 1024
def FS_PATH_MAX_CHARS : Nat := 512
def FS_PATH_MAX_DEPTH : Nat := 24

/-- `path.split("/")` -/
def split (path : String) : List String := (path.toList.splitOn '/').map String.ofList

def isSegmentChar (c : Char) : Bool :=
  'A' ≤ c ∧ c ≤ 'Z' ∨ 'a' ≤ c ∧ c ≤ 'z' ∨ '0' ≤ c ∧ c ≤ '9' ∨ c ∈ ['.', '_', '-']

/-- `FS_SEGMENT_RE` -/
def isSegment (segment : String) : Bool := segment ≠ "" ∧ segment.toList.all isSegmentChar

def normalizeFsPath (input : String) : Except AppError String :=
  let segments := (split (trim input)).filter fun s => s ≠ "" ∧ s ≠ "."
  if ".." ∈ segments then
    .error (BadRequestError [("path", input)] "path must not contain '..' segments")
  else match segments.find? fun s => ¬ isSegment s with
    | some segment =>
        .error (BadRequestError [("path", input), ("segment", segment)]
          "path segments allow letters, digits, '.', '_' and '-' only")
    | none =>
        let path := "/".intercalate segments
        if FS_PATH_MAX_CHARS < path.length then
          .error (BadRequestError [("path", input)] s!"path exceeds {FS_PATH_MAX_CHARS} characters")
        else if FS_PATH_MAX_DEPTH < segments.length then
          .error (BadRequestError [("path", input)] s!"path exceeds {FS_PATH_MAX_DEPTH} segments")
        else .ok path

/-- Does a path lie below a directory? -/
def below (dir path : String) : Bool := startsWith path (dir ++ "/")

def fsEntryName (path : String) : String := (split path).getLast?.getD path

/-- The directories above a path. -/
def fsAncestors (path : String) : List String :=
  (List.range (split path).length).tail.map fun i => "/".intercalate ((split path).take i)

/-! ## Trees -/

inductive FsEntryKind
  | file
  | dir
  deriving DecidableEq

structure FsEntry where
  path : String
  name : String
  kind : FsEntryKind
  size : Option Nat
  contentType : Option String
  revision : Option Nat
  deriving DecidableEq

structure FsFile where
  entry : FsEntry
  data : Bytes
  deriving DecidableEq

structure StoredFile where
  data : Bytes
  contentType : String
  deriving DecidableEq

/-- The key of a revision is the path and the number around an `@`, which is in no path. -/
structure TenantTree where
  files : Table String StoredFile
  dirs : List String
  revisions : Table (String × Nat) StoredFile

/-- What the filesystem takes from elsewhere: the order of names and the registry of types. -/
structure Registry where
  /-- `a.localeCompare(b) <= 0` -/
  localeCompare : String → String → Bool
  guessFsContentType : String → String

def FS_ROOT_ENTRY : FsEntry := ⟨"", "", .dir, none, none, none⟩

def dirEntry (path name : String) : FsEntry := ⟨path, name, .dir, none, none, none⟩

def fileEntry (path : String) (file : StoredFile) : FsEntry :=
  ⟨path, fsEntryName path, .file, some file.data.length, some file.contentType, none⟩

/-- Directories first, then files, each by name. -/
def sortFsEntries (registry : Registry) (entries : List FsEntry) : List FsEntry :=
  entries.insertionSort fun a b =>
    if a.kind = b.kind then registry.localeCompare a.name b.name else a.kind = .dir

namespace TenantTree

def empty : TenantTree := ⟨Table.empty, [], Table.empty⟩

/-- `tree.files.has(path)` -/
def hasFile (tree : TenantTree) (path : String) : Bool := (tree.files.get path).isSome

def keys (tree : TenantTree) : List String := tree.files.entries.map Prod.fst

def isDir (tree : TenantTree) (path : String) : Bool :=
  path = "" || path ∈ tree.dirs || tree.keys.any (below path) || tree.dirs.any (below path)

def assertAncestorsAreNotFiles (tree : TenantTree) (path : String) : Except AppError Unit :=
  match (fsAncestors path).find? tree.hasFile with
  | some ancestor =>
      .error (ConflictError [("path", path), ("ancestor", ancestor)]
        s!"'{ancestor}' is a file, not a directory")
  | none => .ok ()

/-- `rest.indexOf("/")` splits off a name. -/
def firstName (rest : String) : String := String.ofList (rest.toList.takeWhile (· ≠ '/'))

def listFile (stem : String) (children : Table String FsEntry) (path : String) (file : StoredFile) :
    Table String FsEntry :=
  if ¬ startsWith path stem then children
  else
    let rest := sliceAfter path stem
    if ¬ rest.contains '/' then children.set rest (fileEntry path file)
    else
      let name := firstName rest
      if (children.get name).isSome then children
      else children.set name (dirEntry (stem ++ name) name)

def listDir (stem dir : String) (children : Table String FsEntry) (path : String) :
    Table String FsEntry :=
  if ¬ startsWith path stem ∨ path = dir then children
  else
    let name := firstName (sliceAfter path stem)
    if (children.get name).isSome then children
    else children.set name (dirEntry (stem ++ name) name)

def list (registry : Registry) (tree : TenantTree) (dir : String) :
    Except AppError (List FsEntry) := do
  let d ← normalizeFsPath dir
  if d ≠ "" ∧ ¬ tree.isDir d then
    if tree.hasFile d then
      .error (BadRequestError [("path", d)] s!"'{d}' is a file, not a directory")
    else .ok []
  else
    let stem := if d = "" then "" else d ++ "/"
    let children := tree.files.entries.foldl (fun c e => listFile stem c e.1 e.2) Table.empty
    .ok (sortFsEntries registry (tree.dirs.foldl (listDir stem d) children).values)

def stat (tree : TenantTree) (path : String) : Except AppError (Option FsEntry) := do
  let p ← normalizeFsPath path
  if p = "" then .ok (some FS_ROOT_ENTRY)
  else match tree.files.get p with
    | some file => .ok (some (fileEntry p file))
    | none => .ok (if tree.isDir p then some (dirEntry p (fsEntryName p)) else none)

def read (tree : TenantTree) (path : String) : Except AppError (Option FsFile) := do
  let p ← normalizeFsPath path
  match tree.files.get p with
  | some file => .ok (some ⟨fileEntry p file, file.data⟩)
  | none =>
      if tree.isDir p then
        .error (BadRequestError [("path", p)] s!"'{p}' is a directory, not a file")
      else .ok none

def write (registry : Registry) (tree : TenantTree) (path : String) (data : Bytes)
    (contentType : Option String) : Except AppError (TenantTree × FsEntry) := do
  let p ← normalizeFsPath path
  if p = "" then .error (BadRequestError [] "cannot write to the filesystem root")
  else if FS_FILE_MAX_BYTES < data.length then
    .error (BadRequestError [("path", p), ("size", toString data.length)]
      "file exceeds the size limit")
  else if ¬ tree.hasFile p ∧ tree.isDir p then
    .error (ConflictError [("path", p)] s!"'{p}' is a directory")
  else do
    tree.assertAncestorsAreNotFiles p
    let file : StoredFile := ⟨data, contentType.getD (registry.guessFsContentType p)⟩
    .ok ({ tree with files := tree.files.set p file }, fileEntry p file)

/-- `set.add(d)` -/
def add (dirs : List String) (d : String) : List String := if d ∈ dirs then dirs else dirs ++ [d]

def mkdir (tree : TenantTree) (path : String) : Except AppError (TenantTree × FsEntry) := do
  let p ← normalizeFsPath path
  if p = "" then .error (BadRequestError [] "the filesystem root already exists")
  else if tree.hasFile p then .error (ConflictError [("path", p)] s!"'{p}' is a file")
  else do
    tree.assertAncestorsAreNotFiles p
    .ok ({ tree with dirs := add tree.dirs p }, dirEntry p (fsEntryName p))

def remove (tree : TenantTree) (path : String) (recursive : Bool) :
    Except AppError (TenantTree × Nat) := do
  let p ← normalizeFsPath path
  if p = "" then .error (BadRequestError [] "cannot remove the filesystem root")
  else if tree.hasFile p then .ok ({ tree with files := tree.files.erase p }, 1)
  else if ¬ tree.isDir p then .ok (tree, 0)
  else
    let childFiles := tree.keys.filter (below p)
    let childDirs := tree.dirs.filter (below p)
    if ¬ recursive ∧ (0 < childFiles.length ∨ 0 < childDirs.length) then
      .error (ConflictError [("path", p)] s!"'{p}' is not empty (pass recursive to remove)")
    else
      let left : TenantTree := { tree with
        files := tree.files.filter fun f _ => ¬ below p f
        dirs := tree.dirs.filter fun d => ¬ below p d ∧ d ≠ p }
      .ok (left, childFiles.length + childDirs.length + if p ∈ tree.dirs then 1 else 0)

/-- Where a path below one directory comes to lie below another. -/
def rebase (src dst path : String) : String := dst ++ "/" ++ sliceAfter path (src ++ "/")

/-- One file of a subtree that moves. -/
def moveFile (src dst : String) (files : Table String StoredFile) (path : String)
    (file : StoredFile) : Table String StoredFile :=
  if below src path then (files.erase path).set (rebase src dst path) file else files

/-- One directory of a subtree that moves. -/
def moveDir (src dst : String) (dirs : List String) (d : String) : List String :=
  if d = src then add (dirs.erase d) dst
  else if below src d then add (dirs.erase d) (rebase src dst d)
  else dirs

/-- What is left when a subtree has moved; an empty explicit directory stays one. -/
def moveSubtree (tree : TenantTree) (src dst : String) : TenantTree :=
  let moved : TenantTree := { tree with
    files := tree.files.entries.foldl (fun files e => moveFile src dst files e.1 e.2) tree.files
    dirs := tree.dirs.foldl (moveDir src dst) tree.dirs }
  if moved.isDir dst then moved else { moved with dirs := add moved.dirs dst }

def move (tree : TenantTree) (from' to' : String) : Except AppError (TenantTree × FsEntry) := do
  let src ← normalizeFsPath from'
  let dst ← normalizeFsPath to'
  if src = "" ∨ dst = "" then .error (BadRequestError [] "cannot move the filesystem root")
  else if src = dst then
    .error (BadRequestError [("from", src)] "source and target are the same path")
  else if ¬ tree.hasFile src ∧ ¬ tree.isDir src then
    .error (NotFoundError [("path", src)] s!"'{src}' does not exist")
  else if ¬ tree.hasFile src ∧ below src dst then
    .error (BadRequestError [("from", src), ("to", dst)] "cannot move a directory into itself")
  else if tree.hasFile dst ∨ tree.isDir dst then
    .error (ConflictError [("path", dst)] s!"'{dst}' already exists")
  else do
    tree.assertAncestorsAreNotFiles dst
    match tree.files.get src with
    | some file =>
        .ok ({ tree with files := (tree.files.erase src).set dst file }, fileEntry dst file)
    | none => .ok (tree.moveSubtree src dst, dirEntry dst (fsEntryName dst))

def writeRevisionBlob (tree : TenantTree) (path : String) (revision : Nat) (data : Bytes)
    (contentType : String) : Except AppError TenantTree := do
  let p ← normalizeFsPath path
  .ok { tree with revisions := tree.revisions.set (p, revision) ⟨data, contentType⟩ }

def readRevisionBlob (tree : TenantTree) (path : String) (revision : Nat) :
    Except AppError (Option FsFile) := do
  let p ← normalizeFsPath path
  .ok ((tree.revisions.get (p, revision)).map fun hit =>
    ⟨{ fileEntry p hit with revision := some revision }, hit.data⟩)

/-! ## What the operations leave -/

variable {tree tree' : TenantTree} {path : String} {data : Bytes} {entry : FsEntry}

theorem write_eq_ok {registry : Registry} {contentType : Option String}
    (eq : tree.write registry path data contentType = .ok (tree', entry)) :
    ∃ p file, normalizeFsPath path = .ok p ∧ file.data = data ∧ entry = fileEntry p file ∧
      tree' = { tree with files := tree.files.set p file } := by
  unfold write at eq
  rcases canonical : normalizeFsPath path with e | p
  · rw [canonical] at eq
    cases eq
  · rw [canonical] at eq
    simp only [bind, Except.bind] at eq
    split at eq
    · cases eq
    split at eq
    · cases eq
    split at eq
    · cases eq
    split at eq
    · cases eq
    · obtain ⟨rfl, rfl⟩ := Prod.mk.inj (Except.ok.inj eq)
      exact ⟨p, _, rfl, rfl, rfl, rfl⟩

theorem writeRevisionBlob_eq_ok {revision : Nat} {contentType : String}
    (eq : tree.writeRevisionBlob path revision data contentType = .ok tree') :
    ∃ p, normalizeFsPath path = .ok p ∧
      tree' = { tree with
        revisions := tree.revisions.set (p, revision) ⟨data, contentType⟩ } := by
  unfold writeRevisionBlob at eq
  rcases canonical : normalizeFsPath path with e | p
  · rw [canonical] at eq
    cases eq
  · rw [canonical] at eq
    exact ⟨p, rfl, (Except.ok.inj eq).symm⟩

theorem read_eq_some {file : FsFile} (eq : tree.read path = .ok (some file)) :
    ∃ p stored, normalizeFsPath path = .ok p ∧ tree.files.get p = some stored ∧
      file = ⟨fileEntry p stored, stored.data⟩ := by
  unfold read at eq
  rcases canonical : normalizeFsPath path with e | p
  · rw [canonical] at eq
    cases eq
  · rw [canonical] at eq
    simp only [bind, Except.bind] at eq
    split at eq
    · next stored found => exact ⟨p, stored, rfl, found, (Option.some.inj (Except.ok.inj eq)).symm⟩
    · split at eq <;> cases eq

theorem readRevisionBlob_eq_some {revision : Nat} {blob : FsFile}
    (eq : tree.readRevisionBlob path revision = .ok (some blob)) :
    ∃ p hit, normalizeFsPath path = .ok p ∧ tree.revisions.get (p, revision) = some hit ∧
      blob = ⟨{ fileEntry p hit with revision := some revision }, hit.data⟩ := by
  unfold readRevisionBlob at eq
  rcases canonical : normalizeFsPath path with e | p
  · rw [canonical] at eq
    cases eq
  · rw [canonical] at eq
    obtain ⟨hit, found, same⟩ := Option.map_eq_some_iff.mp (Except.ok.inj eq)
    exact ⟨p, hit, rfl, found, same.symm⟩

/-- A file that is written is read. -/
theorem read_of_write {registry : Registry} {contentType : Option String}
    (eq : tree.write registry path data contentType = .ok (tree', entry)) :
    tree'.read path = .ok (some ⟨entry, data⟩) := by
  obtain ⟨p, file, canonical, rfl, rfl, rfl⟩ := write_eq_ok eq
  unfold read
  rw [canonical]
  simp only [bind, Except.bind, Table.get_set, if_true]

theorem readRevisionBlob_of_write {registry : Registry} {contentType : Option String}
    (eq : tree.write registry path data contentType = .ok (tree', entry)) (other : String)
    (revision : Nat) :
    tree'.readRevisionBlob other revision = tree.readRevisionBlob other revision := by
  obtain ⟨p, file, -, -, -, rfl⟩ := write_eq_ok eq
  rfl

theorem read_of_writeRevisionBlob {revision : Nat} {contentType : String}
    (eq : tree.writeRevisionBlob path revision data contentType = .ok tree') (other : String) :
    tree'.read other = tree.read other := by
  obtain ⟨p, -, rfl⟩ := writeRevisionBlob_eq_ok eq
  rfl

/-- A blob is read under its own number and leaves those of the others. -/
theorem readRevisionBlob_of_writeRevisionBlob {revision : Nat} {contentType : String}
    (eq : tree.writeRevisionBlob path revision data contentType = .ok tree') (other : Nat) :
    if other = revision then
      ∃ blob, tree'.readRevisionBlob path other = .ok (some blob) ∧ blob.data = data
    else tree'.readRevisionBlob path other = tree.readRevisionBlob path other := by
  obtain ⟨p, canonical, rfl⟩ := writeRevisionBlob_eq_ok eq
  unfold readRevisionBlob
  rw [canonical]
  simp only [bind, Except.bind, Table.get_set, Prod.mk.injEq, true_and]
  by_cases same : other = revision
  · rw [if_pos same, if_pos same]
    exact ⟨_, rfl, rfl⟩
  · rw [if_neg same, if_neg same]

/-! Only `writeRevisionBlob` writes blobs. -/

theorem move_revisions {from' to' : String} (eq : tree.move from' to' = .ok (tree', entry)) :
    tree'.revisions = tree.revisions := by
  unfold move at eq
  rcases src : normalizeFsPath from' with e | src'
  · rw [src] at eq
    cases eq
  rcases dst : normalizeFsPath to' with e | dst'
  · rw [src, dst] at eq
    cases eq
  rw [src, dst] at eq
  simp only [bind, Except.bind] at eq
  split at eq
  · cases eq
  split at eq
  · cases eq
  split at eq
  · cases eq
  split at eq
  · cases eq
  split at eq
  · cases eq
  split at eq
  · cases eq
  split at eq
  · obtain ⟨rfl, -⟩ := Prod.mk.inj (Except.ok.inj eq)
    rfl
  · obtain ⟨rfl, -⟩ := Prod.mk.inj (Except.ok.inj eq)
    unfold moveSubtree
    simp only
    split <;> rfl

theorem mkdir_revisions (eq : tree.mkdir path = .ok (tree', entry)) :
    tree'.revisions = tree.revisions := by
  unfold mkdir at eq
  rcases canonical : normalizeFsPath path with e | p
  · rw [canonical] at eq
    cases eq
  rw [canonical] at eq
  simp only [bind, Except.bind] at eq
  split at eq
  · cases eq
  split at eq
  · cases eq
  split at eq
  · cases eq
  · obtain ⟨rfl, -⟩ := Prod.mk.inj (Except.ok.inj eq)
    rfl

theorem remove_revisions {recursive : Bool} {removed : Nat}
    (eq : tree.remove path recursive = .ok (tree', removed)) :
    tree'.revisions = tree.revisions := by
  unfold remove at eq
  rcases canonical : normalizeFsPath path with e | p
  · rw [canonical] at eq
    cases eq
  rw [canonical] at eq
  simp only [bind, Except.bind] at eq
  split at eq
  · cases eq
  split at eq
  · obtain ⟨rfl, -⟩ := Prod.mk.inj (Except.ok.inj eq)
    rfl
  split at eq
  · obtain ⟨rfl, -⟩ := Prod.mk.inj (Except.ok.inj eq)
    rfl
  split at eq
  · cases eq
  · obtain ⟨rfl, -⟩ := Prod.mk.inj (Except.ok.inj eq)
    rfl

end TenantTree

end Everdict.WorkspaceFs
