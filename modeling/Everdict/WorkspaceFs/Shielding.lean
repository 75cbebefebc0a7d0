import Everdict.WorkspaceFs.Paths
import Everdict.WorkspaceFs.MemberAreas

/-!
# Files an action does not see

`hidden` names files of a tree.  `Volume.blank` is the volume in which those files are empty and
have no history; an action is blind to them where it answers the same there and leaves the same
(`Shielded.blind`), and it spares them where their bytes, their blobs and their rows stay.

The operations of the tree come first, each with what it must not name; `Shielded` is then closed
under the ways actions are put together.
-/

namespace Everdict.WorkspaceFs

open Text TenantTree

/-! ## Blank volumes -/

section Blank

variable (hidden : String → Bool)

def blankFile (path : String) (file : StoredFile) : StoredFile :=
  if hidden path then ⟨[], ""⟩ else file

def TenantTree.blank (tree : TenantTree) : TenantTree where
  files := tree.files.update (blankFile hidden)
  dirs := tree.dirs
  revisions := tree.revisions.filter fun key _ => !hidden key.1

/-- The row of a hidden file, under any spelling. -/
def isHidden (row : FsRevision) : Bool := hidden (canonicalOf row.path)

def unhidden (rows : Rows) : Rows := rows.filter fun row => !isHidden hidden row

def Volume.blank (v : Volume) : Volume := ⟨v.tree.blank hidden, unhidden hidden v.rows⟩

/-- Files are under canonical paths, and the hidden ones are there. -/
structure Intact (tree : TenantTree) : Prop where
  clean : ∀ path ∈ tree.keys, IsCanonical path
  present : ∀ path, hidden path = true → tree.hasFile path = true

/-- The hidden files and their blobs are as they were. -/
structure Same (tree tree' : TenantTree) : Prop where
  files : ∀ path, hidden path = true → tree'.files.get path = tree.files.get path
  blobs : ∀ path revision, hidden path = true →
    tree'.revisions.get (path, revision) = tree.revisions.get (path, revision)

/-- The hidden files and their history are as they were. -/
structure Spares (v v' : Volume) : Prop where
  same : Same hidden v.tree v'.tree
  rows : v'.rows.filter (isHidden hidden) = v.rows.filter (isHidden hidden)

end Blank

variable {hidden : String → Bool} {tree tree' : TenantTree} {path : String}

theorem Same.refl (tree : TenantTree) : Same hidden tree tree := ⟨fun _ _ => rfl, fun _ _ _ => rfl⟩

theorem Same.trans {tree'' : TenantTree} (first : Same hidden tree tree')
    (second : Same hidden tree' tree'') : Same hidden tree tree'' where
  files path secret := (second.files path secret).trans (first.files path secret)
  blobs path revision secret :=
    (second.blobs path revision secret).trans (first.blobs path revision secret)

theorem Spares.refl (v : Volume) : Spares hidden v v := ⟨.refl _, rfl⟩

theorem Spares.trans {v v' v'' : Volume} (first : Spares hidden v v')
    (second : Spares hidden v' v'') : Spares hidden v v'' :=
  ⟨first.same.trans second.same, second.rows.trans first.rows⟩

theorem mem_keys_iff : path ∈ tree.keys ↔ tree.hasFile path = true := by
  unfold keys hasFile
  rw [Table.mem_keys, Option.isSome_iff_exists]

theorem Intact.clean_hidden (intact : Intact hidden tree) (secret : hidden path = true) :
    IsCanonical path := intact.clean path (mem_keys_iff.mpr (intact.present path secret))

/-- Keys stay canonical and hidden files stay. -/
theorem Intact.of_same (intact : Intact hidden tree) (same : Same hidden tree tree')
    (clean : ∀ path ∈ tree'.keys, IsCanonical path) : Intact hidden tree' where
  clean := clean
  present path secret := by
    unfold hasFile
    rw [same.files path secret]
    exact intact.present path secret

/-! ## What a blank tree shows -/

theorem keys_blank : (tree.blank hidden).keys = tree.keys := Table.keys_update _ _

theorem dirs_blank : (tree.blank hidden).dirs = tree.dirs := rfl

theorem hasFile_blank (path : String) : (tree.blank hidden).hasFile path = tree.hasFile path := by
  unfold hasFile TenantTree.blank
  rw [Table.get_update, Option.isSome_map]

theorem isDir_blank (path : String) : (tree.blank hidden).isDir path = tree.isDir path := by
  unfold isDir
  rw [keys_blank]
  rfl

theorem assertAncestorsAreNotFiles_blank (path : String) :
    (tree.blank hidden).assertAncestorsAreNotFiles path = tree.assertAncestorsAreNotFiles path := by
  have same : (tree.blank hidden).hasFile = tree.hasFile := by
    funext path
    exact hasFile_blank path
  unfold assertAncestorsAreNotFiles
  rw [same]

theorem get_blank (plain : hidden path = false) :
    (tree.blank hidden).files.get path = tree.files.get path := by
  unfold TenantTree.blank
  rw [Table.get_update]
  cases tree.files.get path <;> simp [blankFile, plain]

theorem plain_of_normalizeFsPath {p : String} (canonical : normalizeFsPath path = .ok p)
    (plain : hidden (canonicalOf path) = false) : hidden p = false := by
  rw [(normalizeFsPath_eq_ok canonical).1]
  exact plain

theorem stat_blank (plain : hidden (canonicalOf path) = false) :
    (tree.blank hidden).stat path = tree.stat path := by
  unfold stat
  rcases canonical : normalizeFsPath path with e | p
  · rfl
  · simp only [bind, Except.bind]
    rw [get_blank (plain_of_normalizeFsPath canonical plain), isDir_blank]

theorem read_blank (plain : hidden (canonicalOf path) = false) :
    (tree.blank hidden).read path = tree.read path := by
  unfold TenantTree.read
  rcases canonical : normalizeFsPath path with e | p
  · rfl
  · simp only [bind, Except.bind]
    rw [get_blank (plain_of_normalizeFsPath canonical plain), isDir_blank]

theorem readRevisionBlob_blank (plain : hidden (canonicalOf path) = false) (revision : Nat) :
    (tree.blank hidden).readRevisionBlob path revision = tree.readRevisionBlob path revision := by
  unfold readRevisionBlob
  rcases canonical : normalizeFsPath path with e | p
  · rfl
  · have shown : ((tree.blank hidden).revisions.get (p, revision)) =
        tree.revisions.get (p, revision) := by
      unfold TenantTree.blank
      rw [Table.get_filter]
      cases tree.revisions.get (p, revision) <;>
        simp [Option.filter, plain_of_normalizeFsPath canonical plain]
    simp only [bind, Except.bind]
    rw [shown]

/-! ### Listings -/

/-- The entry of a hidden file as the blank tree has it. -/
def blankEntry (hidden : String → Bool) (entry : FsEntry) : FsEntry :=
  if entry.kind = .file ∧ hidden entry.path then
    { entry with size := some 0, contentType := some "" }
  else entry

section Listing

variable {stem dir name : String} {file : StoredFile} {children : Table String FsEntry}

theorem blankEntry_fileEntry :
    blankEntry hidden (fileEntry path file) = fileEntry path (blankFile hidden path file) := by
  unfold blankEntry blankFile
  by_cases secret : hidden path = true
  · simp [fileEntry, secret]
  · simp [fileEntry, secret]

theorem blankEntry_dirEntry : blankEntry hidden (dirEntry path name) = dirEntry path name := rfl

theorem blankEntry_path (entry : FsEntry) : (blankEntry hidden entry).path = entry.path := by
  unfold blankEntry
  split <;> rfl

theorem blankEntry_kind (entry : FsEntry) : (blankEntry hidden entry).kind = entry.kind := by
  unfold blankEntry
  split <;> rfl

theorem blankEntry_name (entry : FsEntry) : (blankEntry hidden entry).name = entry.name := by
  unfold blankEntry
  split <;> rfl

theorem isSome_get_blank :
    ((children.update fun _ e => blankEntry hidden e).get name).isSome =
      (children.get name).isSome := by
  rw [Table.get_update, Option.isSome_map]

theorem listFile_blank :
    listFile stem (children.update fun _ e => blankEntry hidden e) path
        (blankFile hidden path file) =
      (listFile stem children path file).update fun _ e => blankEntry hidden e := by
  unfold listFile
  split
  · rfl
  · simp only [isSome_get_blank]
    split
    · rw [Table.update_set, blankEntry_fileEntry]
    · split
      · rfl
      · rw [Table.update_set, blankEntry_dirEntry]

theorem listDir_blank :
    listDir stem dir (children.update fun _ e => blankEntry hidden e) path =
      (listDir stem dir children path).update fun _ e => blankEntry hidden e := by
  unfold listDir
  split
  · rfl
  · simp only [isSome_get_blank]
    split
    · rfl
    · rw [Table.update_set, blankEntry_dirEntry]

theorem listFiles_blank (children : Table String FsEntry)
    (entries : List (String × StoredFile)) :
    (entries.map fun e => (e.1, blankFile hidden e.1 e.2)).foldl
        (fun c e => listFile stem c e.1 e.2) (children.update fun _ e => blankEntry hidden e) =
      (entries.foldl (fun c e => listFile stem c e.1 e.2) children).update
        fun _ e => blankEntry hidden e := by
  induction entries generalizing children with
  | nil => rfl
  | cons e entries ih =>
      rw [List.map_cons, List.foldl_cons, List.foldl_cons]
      dsimp only
      rw [listFile_blank]
      exact ih _

theorem listDirs_blank (dirs : List String) :
    dirs.foldl (listDir stem dir) (children.update fun _ e => blankEntry hidden e) =
      (dirs.foldl (listDir stem dir) children).update fun _ e => blankEntry hidden e := by
  induction dirs generalizing children with
  | nil => rfl
  | cons d dirs ih =>
      rw [List.foldl_cons, List.foldl_cons, listDir_blank]
      exact ih

theorem sortFsEntries_blank (registry : Registry) (entries : List FsEntry) :
    sortFsEntries registry (entries.map (blankEntry hidden)) =
      (sortFsEntries registry entries).map (blankEntry hidden) := by
  refine (List.map_insertionSort _ _ _ _ fun a _ b _ => ?_).symm
  simp only [blankEntry_kind, blankEntry_name]

theorem values_blank (stem dir : String) :
    (tree.dirs.foldl (listDir stem dir) ((tree.blank hidden).files.entries.foldl
        (fun c e => listFile stem c e.1 e.2) Table.empty)).values =
      (tree.dirs.foldl (listDir stem dir) (tree.files.entries.foldl
        (fun c e => listFile stem c e.1 e.2) Table.empty)).values.map (blankEntry hidden) := by
  have first : (tree.blank hidden).files.entries.foldl
        (fun c e => listFile stem c e.1 e.2) Table.empty =
      (tree.files.entries.foldl (fun c e => listFile stem c e.1 e.2) Table.empty).update
        fun _ e => blankEntry hidden e := listFiles_blank Table.empty tree.files.entries
  rw [first, listDirs_blank, Table.values_update]

/-- A listing whose entries at hidden paths are left out is the same. -/
theorem list_blank (registry : Registry) {keep : String → Bool}
    (unkept : ∀ path, hidden path = true → keep path = false) :
    ((tree.blank hidden).list registry dir).map (List.filter fun e => keep e.path) =
      (tree.list registry dir).map (List.filter fun e => keep e.path) := by
  have shown : ∀ entries : List FsEntry,
      (entries.map (blankEntry hidden)).filter (fun e => keep e.path) =
        entries.filter fun e => keep e.path := by
    intro entries
    induction entries with
    | nil => rfl
    | cons e entries ih =>
        rcases kept : keep e.path with _ | _
        · rw [List.map_cons, List.filter_cons_of_neg (by simp [blankEntry_path, kept]),
            List.filter_cons_of_neg (by simp [kept]), ih]
        · have same : blankEntry hidden e = e := by
            refine if_neg fun secret => ?_
            rw [unkept e.path secret.2] at kept
            cases kept
          rw [List.map_cons, same, List.filter_cons_of_pos (by simpa using kept),
            List.filter_cons_of_pos (by simpa using kept), ih]
  unfold list
  rcases normalizeFsPath dir with e | d
  · rfl
  · simp only [bind, Except.bind]
    rw [isDir_blank, hasFile_blank, dirs_blank]
    split
    · rfl
    · simp only [Except.map]
      rw [values_blank, sortFsEntries_blank, shown]

/-- The files among the entries are files of the tree. -/
def Filed (tree : TenantTree) (children : Table String FsEntry) : Prop :=
  ∀ name e, children.get name = some e → e.kind = .file → e.path ∈ tree.keys

theorem Filed.set {entry : FsEntry} (filed : Filed tree children)
    (here : entry.kind = .file → entry.path ∈ tree.keys) :
    Filed tree (children.set name entry) := by
  intro name' e found kind
  rw [Table.get_set] at found
  split at found
  · obtain rfl := Option.some.inj found
    exact here kind
  · exact filed name' e found kind

theorem Filed.listFile (filed : Filed tree children) (key : path ∈ tree.keys) :
    Filed tree (listFile stem children path file) := by
  unfold TenantTree.listFile
  split
  · exact filed
  · dsimp only
    split
    · exact filed.set fun _ => key
    · split
      · exact filed
      · exact filed.set fun kind => (by cases kind)

theorem Filed.listDir (filed : Filed tree children) :
    Filed tree (listDir stem dir children path) := by
  unfold TenantTree.listDir
  split
  · exact filed
  · dsimp only
    split
    · exact filed
    · exact filed.set fun kind => (by cases kind)

theorem Filed.listFiles {entries : List (String × StoredFile)} (filed : Filed tree children)
    (keys : ∀ e ∈ entries, e.1 ∈ tree.keys) :
    Filed tree (entries.foldl (fun c e => TenantTree.listFile stem c e.1 e.2) children) := by
  induction entries generalizing children with
  | nil => exact filed
  | cons e entries ih =>
      obtain ⟨first, rest⟩ := List.forall_mem_cons.mp keys
      exact ih (filed.listFile first) rest

theorem Filed.listDirs {dirs : List String} (filed : Filed tree children) :
    Filed tree (dirs.foldl (TenantTree.listDir stem dir) children) := by
  induction dirs generalizing children with
  | nil => exact filed
  | cons d dirs ih => exact ih filed.listDir

/-- The files of a listing are files of the tree. -/
theorem list_files {registry : Registry} {entries : List FsEntry}
    (eq : tree.list registry dir = .ok entries) :
    ∀ e ∈ entries, e.kind = .file → e.path ∈ tree.keys := by
  unfold list at eq
  rcases canonical : normalizeFsPath dir with e | d
  · rw [canonical] at eq
    cases eq
  rw [canonical] at eq
  simp only [bind, Except.bind] at eq
  split at eq
  · split at eq
    · cases eq
    · obtain rfl := Except.ok.inj eq
      intro e member
      cases member
  · obtain rfl := Except.ok.inj eq
    have empty : Filed tree Table.empty := fun _ _ found => (by cases found)
    intro e member kind
    rw [sortFsEntries, List.mem_insertionSort, Table.mem_values] at member
    obtain ⟨name, found⟩ := member
    refine (empty.listFiles fun row inside => ?_).listDirs name e found kind
    exact List.mem_map.mpr ⟨row, inside, rfl⟩

end Listing

/-! ## What an operation on the tree does -/

/-- An operation that answers the same on the blank tree, spares the hidden files and keeps the
tree intact. -/
structure Guarded {α : Type} (hidden : String → Bool) (Q : α → Prop) (tree : TenantTree)
    (op : TenantTree → Except AppError (TenantTree × α)) : Prop where
  blind : op (tree.blank hidden) = (op tree).map fun done => (done.1.blank hidden, done.2)
  spares : ∀ tree' answer, op tree = .ok (tree', answer) →
    Same hidden tree tree' ∧ Intact hidden tree' ∧ Q answer

theorem blank_set (plain : hidden path = false) (file : StoredFile) :
    ({ tree with files := tree.files.set path file } : TenantTree).blank hidden =
      { tree.blank hidden with files := (tree.blank hidden).files.set path file } := by
  unfold TenantTree.blank
  simp only [Table.update_set, blankFile, plain, Bool.false_eq_true, if_false]

theorem same_set (plain : hidden path = false) (file : StoredFile) :
    Same hidden tree { tree with files := tree.files.set path file } where
  files other secret := by
    have ne : other ≠ path := by
      rintro rfl
      rw [plain] at secret
      cases secret
    rw [Table.get_set, if_neg ne]
  blobs _ _ _ := rfl

theorem keys_set {p : String} {file : StoredFile}
    (member : p ∈ ({ tree with files := tree.files.set path file } : TenantTree).keys) :
    p = path ∨ p ∈ tree.keys := by
  rw [mem_keys_iff] at member ⊢
  unfold hasFile at member ⊢
  rw [Table.get_set] at member
  split at member
  · next hit => exact .inl hit
  · exact .inr member

theorem write_guarded {registry : Registry} {data : Bytes} {contentType : Option String}
    (intact : Intact hidden tree) (plain : hidden (canonicalOf path) = false) :
    Guarded hidden (fun entry => hidden entry.path = false) tree
      fun tree => tree.write registry path data contentType := by
  constructor
  · unfold write
    rcases canonical : normalizeFsPath path with e | p
    · rfl
    · simp only [bind, Except.bind]
      rw [hasFile_blank, isDir_blank, assertAncestorsAreNotFiles_blank]
      split
      · rfl
      split
      · rfl
      split
      · rfl
      split
      · rfl
      · rw [Except.map, blank_set (plain_of_normalizeFsPath canonical plain)]
  · intro tree' entry eq
    have root : ∀ p, normalizeFsPath path = .ok p → p ≠ "" := by
      intro p canonical
      rintro rfl
      unfold write at eq
      rw [canonical] at eq
      cases eq
    obtain ⟨p, file, canonical, -, rfl, rfl⟩ := write_eq_ok eq
    have plain' := plain_of_normalizeFsPath canonical plain
    have same : Same hidden tree { tree with files := tree.files.set p file } :=
      same_set plain' file
    refine ⟨same, intact.of_same same fun key member => ?_, plain'⟩
    rcases keys_set member with rfl | old
    · exact isCanonical_of_normalizeFsPath canonical (root _ canonical)
    · exact intact.clean key old

theorem writeRevisionBlob_guarded {revision : Nat} {data : Bytes} {contentType : String}
    (intact : Intact hidden tree) (plain : hidden (canonicalOf path) = false) :
    Guarded hidden (fun _ : Unit => True) tree
      fun tree => (tree.writeRevisionBlob path revision data contentType).map (·, ()) := by
  constructor
  · unfold writeRevisionBlob
    rcases canonical : normalizeFsPath path with e | p
    · rfl
    · have plain' := plain_of_normalizeFsPath canonical plain
      have set : (tree.revisions.set (p, revision) ⟨data, contentType⟩).filter
            (fun key _ => !hidden key.1) =
          (tree.revisions.filter fun key _ => !hidden key.1).set (p, revision)
            ⟨data, contentType⟩ := Table.filter_set (by simp [plain']) _
      simp only [bind, Except.bind, Except.map, TenantTree.blank, set]
  · intro tree' _ eq
    rcases done : tree.writeRevisionBlob path revision data contentType with e | after
    · rw [done] at eq
      cases eq
    rw [done] at eq
    obtain ⟨rfl, -⟩ := Prod.mk.inj (Except.ok.inj eq)
    obtain ⟨p, canonical, rfl⟩ := writeRevisionBlob_eq_ok done
    have plain' := plain_of_normalizeFsPath canonical plain
    have same : Same hidden tree { tree with
        revisions := tree.revisions.set (p, revision) ⟨data, contentType⟩ } := by
      refine ⟨fun _ _ => rfl, fun other n secret => ?_⟩
      have ne : ¬ (other, n) = (p, revision) := by
        intro hit
        rw [(Prod.mk.inj hit).1, plain'] at secret
        cases secret
      rw [Table.get_set, if_neg ne]
    exact ⟨same, intact.of_same same intact.clean, trivial⟩

theorem mkdir_guarded (intact : Intact hidden tree) :
    Guarded hidden (fun entry : FsEntry => hidden entry.path = false) tree
      fun tree => tree.mkdir path := by
  constructor
  · unfold mkdir
    rcases canonical : normalizeFsPath path with e | p
    · rfl
    · simp only [bind, Except.bind]
      rw [hasFile_blank, assertAncestorsAreNotFiles_blank]
      split
      · rfl
      split
      · rfl
      split
      · rfl
      · rfl
  · intro tree' entry eq
    unfold mkdir at eq
    rcases canonical : normalizeFsPath path with e | p
    · rw [canonical] at eq
      cases eq
    rw [canonical] at eq
    simp only [bind, Except.bind] at eq
    split at eq
    · cases eq
    split at eq
    · cases eq
    next free =>
      split at eq
      · cases eq
      · obtain ⟨rfl, rfl⟩ := Prod.mk.inj (Except.ok.inj eq)
        refine ⟨⟨fun _ _ => rfl, fun _ _ _ => rfl⟩, ⟨intact.clean, intact.present⟩, ?_⟩
        rcases secret : hidden p with _ | _
        · exact secret
        · exact absurd (intact.present p secret) free

theorem mem_keys_filter {keep : String → StoredFile → Bool} {dirs : List String} {p : String}
    (member : p ∈ ({ tree with files := tree.files.filter keep, dirs } : TenantTree).keys) :
    p ∈ tree.keys := by
  obtain ⟨e, inside, rfl⟩ := List.mem_map.mp member
  exact List.mem_map.mpr ⟨e, (List.mem_filter.mp inside).1, rfl⟩

/-- Files go that are not hidden, and directories. -/
theorem same_filter {keep : String → StoredFile → Bool} {dirs : List String}
    (stays : ∀ key file, hidden key = true → keep key file = true) :
    Same hidden tree { tree with files := tree.files.filter keep, dirs } where
  files other secret := by
    rw [Table.get_filter]
    cases tree.files.get other <;> simp [stays other _ secret]
  blobs _ _ _ := rfl

theorem remove_guarded {recursive : Bool} (intact : Intact hidden tree)
    (plain : hidden (canonicalOf path) = false)
    (clear : recursive = true → ∀ key, hidden key = true → below (canonicalOf path) key = false) :
    Guarded hidden (fun _ : Nat => True) tree fun tree => tree.remove path recursive := by
  constructor
  · unfold remove
    rcases canonical : normalizeFsPath path with e | p
    · rfl
    · simp only [bind, Except.bind]
      rw [hasFile_blank, isDir_blank, keys_blank, dirs_blank]
      split
      · rfl
      split
      · rw [Except.map]
        simp only [TenantTree.blank, Table.update_erase]
      split
      · rfl
      split
      · rfl
      · have kept : (tree.files.update (blankFile hidden)).filter (fun f _ => ¬ below p f) =
            (tree.files.filter fun f _ => ¬ below p f).update (blankFile hidden) := by
          apply Table.filter_update
          exact fun _ _ => rfl
        simp only [Except.map, TenantTree.blank, kept]
  · intro tree' removed eq
    unfold remove at eq
    rcases canonical : normalizeFsPath path with e | p
    · rw [canonical] at eq
      cases eq
    have plain' := plain_of_normalizeFsPath canonical plain
    rw [canonical] at eq
    simp only [bind, Except.bind] at eq
    split at eq
    · cases eq
    split at eq
    · obtain ⟨rfl, -⟩ := Prod.mk.inj (Except.ok.inj eq)
      have same : Same hidden tree { tree with files := tree.files.erase p } := by
        refine same_filter fun key _ secret => decide_eq_true ?_
        rintro rfl
        rw [plain'] at secret
        cases secret
      exact ⟨same, intact.of_same same fun key member => intact.clean key (mem_keys_filter member),
        trivial⟩
    split at eq
    · obtain ⟨rfl, -⟩ := Prod.mk.inj (Except.ok.inj eq)
      exact ⟨.refl _, intact, trivial⟩
    split at eq
    · cases eq
    · next empty =>
        obtain ⟨rfl, -⟩ := Prod.mk.inj (Except.ok.inj eq)
        have stays : ∀ key, hidden key = true → below p key = false := by
          intro key secret
          rcases recursive with _ | _
          · by_contra inside
            refine empty ⟨Bool.false_ne_true, .inl (List.length_pos_of_mem (List.mem_filter.mpr
              ⟨mem_keys_iff.mpr (intact.present key secret), ?_⟩))⟩
            simpa using inside
          · rw [(normalizeFsPath_eq_ok canonical).1]
            exact clear rfl key secret
        have same : Same hidden tree { tree with
            files := tree.files.filter fun f _ => ¬ below p f
            dirs := tree.dirs.filter fun d => ¬ below p d ∧ d ≠ p } :=
          same_filter fun key _ secret => by simp [stays key secret]
        refine ⟨same, intact.of_same same fun key member => ?_, trivial⟩
        exact intact.clean key (mem_keys_filter member)

/-! ### Moves -/

/-- The paths of a move that is not refused. -/
structure Targets (tree : TenantTree) (from' to' src dst : String) : Prop where
  source : normalizeFsPath from' = .ok src
  target : normalizeFsPath to' = .ok dst
  rootless : src ≠ "" ∧ dst ≠ ""
  free : tree.hasFile dst = false ∧ tree.isDir dst = false

/-- What a move that is not refused answers and leaves. -/
def relocated (tree : TenantTree) (src dst : String) : TenantTree × FsEntry :=
  match tree.files.get src with
  | some file =>
      ({ tree with files := (tree.files.erase src).set dst file }, fileEntry dst file)
  | none => (tree.moveSubtree src dst, dirEntry dst (fsEntryName dst))

/-- A move is refused alike on the blank tree, or it goes to a free place on both. -/
theorem move_cases (hidden : String → Bool) (tree : TenantTree) (from' to' : String) :
    (∃ e, tree.move from' to' = .error e ∧ (tree.blank hidden).move from' to' = .error e) ∨
      ∃ src dst, Targets tree from' to' src dst ∧
        tree.move from' to' = .ok (relocated tree src dst) ∧
        (tree.blank hidden).move from' to' = .ok (relocated (tree.blank hidden) src dst) := by
  unfold move
  rcases source : normalizeFsPath from' with e | src
  · exact .inl ⟨e, rfl, rfl⟩
  rcases target : normalizeFsPath to' with e | dst
  · exact .inl ⟨e, rfl, rfl⟩
  simp only [bind, Except.bind]
  rw [hasFile_blank, hasFile_blank, isDir_blank, isDir_blank, assertAncestorsAreNotFiles_blank]
  split
  · exact .inl ⟨_, rfl, rfl⟩
  next rootless =>
    split
    · exact .inl ⟨_, rfl, rfl⟩
    split
    · exact .inl ⟨_, rfl, rfl⟩
    split
    · exact .inl ⟨_, rfl, rfl⟩
    split
    · exact .inl ⟨_, rfl, rfl⟩
    next taken =>
      split
      · exact .inl ⟨_, rfl, rfl⟩
      · simp only [not_or, Bool.not_eq_true] at rootless taken
        refine .inr ⟨src, dst, ⟨source, target, rootless, taken⟩, ?_, ?_⟩
        · unfold relocated
          cases tree.files.get src <;> rfl
        · unfold relocated
          cases (tree.blank hidden).files.get src <;> rfl

/-- No file is hidden at a free place or below it. -/
theorem Targets.unseen {from' to' src dst : String} (targets : Targets tree from' to' src dst)
    (intact : Intact hidden tree) : ∀ key, hidden key = true → within dst key = false := by
  intro key secret
  have there := intact.present key secret
  obtain ⟨file, dir⟩ := targets.free
  simp only [isDir, Bool.or_eq_false_iff] at dir
  unfold within
  rw [Bool.or_eq_false_iff]
  constructor
  · refine decide_eq_false ?_
    rintro rfl
    rw [there] at file
    cases file
  · by_contra inside
    exact List.any_eq_false.mp dir.1.2 key (mem_keys_iff.mpr there) (by simpa using inside)

section Subtree

variable {src dst : String} {entries : List (String × StoredFile)}
  {files : Table String StoredFile}

/-- None of the files that move is hidden, before or after. -/
def Moves (hidden : String → Bool) (src dst : String) (entries : List (String × StoredFile)) :
    Prop :=
  ∀ e ∈ entries, below src e.1 = true →
    hidden e.1 = false ∧ hidden (rebase src dst e.1) = false

theorem moveFile_blank {file : StoredFile}
    (plain : below src path = true → hidden path = false ∧ hidden (rebase src dst path) = false) :
    moveFile src dst (files.update (blankFile hidden)) path (blankFile hidden path file) =
      (moveFile src dst files path file).update (blankFile hidden) := by
  unfold moveFile
  split
  · next moved =>
      obtain ⟨before, after⟩ := plain moved
      rw [Table.update_set, Table.update_erase]
      simp [blankFile, before, after]
  · rfl

theorem moveFiles_blank (plain : Moves hidden src dst entries) :
    (entries.map fun e => (e.1, blankFile hidden e.1 e.2)).foldl
        (fun files e => moveFile src dst files e.1 e.2) (files.update (blankFile hidden)) =
      (entries.foldl (fun files e => moveFile src dst files e.1 e.2) files).update
        (blankFile hidden) := by
  induction entries generalizing files with
  | nil => rfl
  | cons e entries ih =>
      obtain ⟨first, rest⟩ := List.forall_mem_cons.mp plain
      rw [List.map_cons, List.foldl_cons, List.foldl_cons]
      dsimp only
      rw [moveFile_blank first]
      exact ih rest

theorem get_moveFiles (plain : Moves hidden src dst entries) (secret : hidden path = true) :
    (entries.foldl (fun files e => moveFile src dst files e.1 e.2) files).get path =
      files.get path := by
  induction entries generalizing files with
  | nil => rfl
  | cons e entries ih =>
      obtain ⟨first, rest⟩ := List.forall_mem_cons.mp plain
      rw [List.foldl_cons, ih rest]
      unfold moveFile
      split
      · next moved =>
          obtain ⟨before, after⟩ := first moved
          have ne : path ≠ rebase src dst e.1 := by
            intro hit
            rw [hit, after] at secret
            cases secret
          have ne' : path ≠ e.1 := by
            intro hit
            rw [hit, before] at secret
            cases secret
          rw [Table.get_set, if_neg ne, Table.get_erase, if_neg ne']
      · rfl

theorem keys_moveFiles {key : String}
    (member : ((entries.foldl (fun files e => moveFile src dst files e.1 e.2) files).get
      key).isSome = true) :
    (files.get key).isSome = true ∨
      ∃ e ∈ entries, below src e.1 = true ∧ key = rebase src dst e.1 := by
  induction entries generalizing files with
  | nil => exact .inl member
  | cons e entries ih =>
      rw [List.foldl_cons] at member
      rcases ih member with old | ⟨other, inside, moved⟩
      · unfold moveFile at old
        split at old
        · next moved =>
            rw [Table.get_set] at old
            split at old
            · next hit => exact .inr ⟨e, List.mem_cons_self, moved, hit⟩
            · rw [Table.get_erase] at old
              split at old
              · cases old
              · exact .inl old
        · exact .inl old
      · exact .inr ⟨other, List.mem_cons_of_mem _ inside, moved⟩

theorem moveSubtree_blank (plain : Moves hidden src dst tree.files.entries) :
    (tree.blank hidden).moveSubtree src dst = (tree.moveSubtree src dst).blank hidden := by
  have moved : (tree.blank hidden).files.entries.foldl
        (fun files e => moveFile src dst files e.1 e.2) (tree.blank hidden).files =
      (tree.files.entries.foldl (fun files e => moveFile src dst files e.1 e.2) tree.files).update
        (blankFile hidden) := moveFiles_blank plain
  unfold moveSubtree
  simp only [moved, dirs_blank]
  generalize tree.files.entries.foldl (fun files e => moveFile src dst files e.1 e.2) tree.files = t
  have after : ({ tree.blank hidden with
        files := t.update (blankFile hidden)
        dirs := tree.dirs.foldl (moveDir src dst) tree.dirs } : TenantTree) =
      ({ tree with
        files := t
        dirs := tree.dirs.foldl (moveDir src dst) tree.dirs } : TenantTree).blank hidden := rfl
  rw [after, isDir_blank]
  split <;> rfl

theorem moveSubtree_files :
    (tree.moveSubtree src dst).files =
      tree.files.entries.foldl (fun files e => moveFile src dst files e.1 e.2) tree.files ∧
    (tree.moveSubtree src dst).revisions = tree.revisions := by
  unfold moveSubtree
  simp only
  split <;> exact ⟨rfl, rfl⟩

theorem moveSubtree_clean (intact : Intact hidden tree) (clean : IsCanonical dst) :
    ∀ key ∈ (tree.moveSubtree src dst).keys, IsCanonical key := by
  intro key member
  rw [mem_keys_iff, hasFile, moveSubtree_files.1] at member
  rcases keys_moveFiles member with old | ⟨e, inside, moved, rfl⟩
  · exact intact.clean key (mem_keys_iff.mpr old)
  · obtain ⟨rest, eq⟩ := below_iff.mp moved
    have before := intact.clean e.1 (List.mem_map.mpr ⟨e, inside, rfl⟩)
    rw [eq] at before ⊢
    rw [rebase_append]
    exact clean.append before.right

end Subtree

theorem move_guarded {from' to' : String} (intact : Intact hidden tree)
    (plain : hidden (canonicalOf from') = false)
    (clear : ∀ moved, tree.move from' to' = .ok moved →
      ∀ key, hidden key = true → below (canonicalOf from') key = false) :
    Guarded hidden (fun entry : FsEntry => hidden entry.path = false) tree
      fun tree => tree.move from' to' := by
  rcases move_cases hidden tree from' to' with ⟨e, refused, refused'⟩ |
    ⟨src, dst, targets, moved, moved'⟩
  · constructor
    · simp only [refused, refused']
      rfl
    · intro tree' entry eq
      rw [refused] at eq
      cases eq
  have unseen := targets.unseen intact
  have plain' := plain_of_normalizeFsPath targets.source plain
  have apart : ∀ key, hidden key = true → below src key = false := by
    rw [(normalizeFsPath_eq_ok targets.source).1]
    exact clear _ moved
  have outside : Moves hidden src dst tree.files.entries := by
    intro e _ inside
    constructor
    · by_contra secret
      rw [apart e.1 (by simpa using secret)] at inside
      cases inside
    · obtain ⟨rest, eq⟩ := below_iff.mp inside
      by_contra secret
      have within' := unseen (rebase src dst e.1) (by simpa using secret)
      rw [eq, rebase_append, within, below_iff.mpr ⟨_, rfl⟩, Bool.or_true] at within'
      cases within'
  have target : hidden dst = false := by
    by_contra secret
    have within' := unseen dst (by simpa using secret)
    simp [within] at within'
  have clean := isCanonical_of_normalizeFsPath targets.target targets.rootless.2
  constructor
  · simp only [moved, moved', Except.map]
    unfold relocated
    rw [get_blank plain', moveSubtree_blank outside]
    split
    · simp only [TenantTree.blank, Table.update_set, Table.update_erase, blankFile, target,
        Bool.false_eq_true, if_false]
    · rfl
  · intro tree' entry eq
    rw [moved] at eq
    have eq := Except.ok.inj eq
    unfold relocated at eq
    split at eq
    · next file found =>
        obtain ⟨rfl, rfl⟩ := Prod.mk.inj eq
        have same : Same hidden tree
            { tree with files := (tree.files.erase src).set dst file } := by
          refine ⟨fun key secret => ?_, fun _ _ _ => rfl⟩
          have ne : key ≠ dst := by
            rintro rfl
            rw [target] at secret
            cases secret
          have ne' : key ≠ src := by
            rintro rfl
            rw [plain'] at secret
            cases secret
          rw [Table.get_set, if_neg ne, Table.get_erase, if_neg ne']
        refine ⟨same, intact.of_same same fun key member => ?_, target⟩
        rw [mem_keys_iff, hasFile, Table.get_set] at member
        split at member
        · next hit => exact hit ▸ clean
        · rw [Table.get_erase] at member
          split at member
          · cases member
          · exact intact.clean key (mem_keys_iff.mpr member)
    · obtain ⟨rfl, rfl⟩ := Prod.mk.inj eq
      have same : Same hidden tree (tree.moveSubtree src dst) := by
        refine ⟨fun key secret => ?_, fun key revision _ => ?_⟩
        · rw [moveSubtree_files.1]
          exact get_moveFiles outside secret
        · rw [moveSubtree_files.2]
      exact ⟨same, intact.of_same same (moveSubtree_clean intact clean), target⟩

end Everdict.WorkspaceFs
