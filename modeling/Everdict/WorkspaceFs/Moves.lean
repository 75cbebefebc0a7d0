import Mathlib.Data.List.Infix
import Everdict.Transition
import Everdict.WorkspaceFs.Paths
import Everdict.WorkspaceFs.Revisioned

/-!
# History and moves

The calls of the versioned filesystem, one after another, over the ledger in memory and over the
one in Postgres (`machine`).  A move renames the rows of the ledger and leaves the blobs, which lie
under the path they were published at, where they are.

`carry` is what a rename makes of a path at or below the one that moves.  Where a move takes rows
of its own subtree alone to free numbers (`Placed`) both ledgers do that and nothing else
(`rename_inMemory`, `rename_postgres`); a history stays readable where the blobs lie at the new
place already (`Readable`).
-/

namespace Everdict.WorkspaceFs

open Text TenantTree Transition.Machine

variable {from' to' path : String} {row : FsRevision} {rows : Rows}

/-! ## Paths that move -/

/-- A path of a subtree after the move. -/
def carry (from' to' path : String) : String :=
  to' ++ String.ofList (path.toList.drop from'.toList.length)

/-- A row of a subtree after the move. -/
def carryRow (from' to' : String) (row : FsRevision) : FsRevision :=
  if within from' row.path then { row with path := carry from' to' row.path } else row

theorem carry_inj {path' : String} (here : within from' path = true)
    (there : within from' path' = true) (same : carry from' to' path = carry from' to' path') :
    path = path' := by
  obtain ⟨rest, eq, -⟩ := within_iff.mp here
  obtain ⟨rest', eq', -⟩ := within_iff.mp there
  have chars := congrArg String.toList same
  simp only [carry, String.toList_append, String.toList_ofList, eq, eq', List.drop_left] at chars
  refine String.toList_inj.mp ?_
  rw [eq, eq', List.append_cancel_left chars]

/-! ## What a rename does to the rows -/

theorem renamed_eq : InMemoryFsRevisionStore.renamed from' to' row = carryRow from' to' row := by
  unfold InMemoryFsRevisionStore.renamed carryRow within
  by_cases same : row.path = from'
  · simp [same, carry]
  · by_cases inside : below from' row.path = true
    · have moved : carry from' to' row.path = rebase from' to' row.path := by
        obtain ⟨more, eq⟩ := List.isPrefixOf_iff_prefix.mp inside
        refine String.toList_inj.mp ?_
        simp [carry, rebase, sliceAfter, ← eq]
      simp [same, inside, moved]
    · simp [same, inside]

theorem rewritten_eq (moved : within from' row.path = true) :
    PgFsRevisionStore.rewritten from' to' row = carryRow from' to' row := by
  unfold PgFsRevisionStore.rewritten carryRow
  rw [if_pos moved]
  congr 1
  split
  · next same => simp [carry, same]
  · rfl

/-- A pattern of plain characters and wildcards for one character matches itself. -/
theorem like_self {pattern : List Char} (plain : ∀ c ∈ pattern, c ≠ '%' ∧ c ≠ '\\')
    (rest more : List Char) (matches' : PgFsRevisionStore.like rest more = true) :
    PgFsRevisionStore.like (pattern ++ rest) (pattern ++ more) = true := by
  induction pattern with
  | nil => exact matches'
  | cons c pattern ih =>
      obtain ⟨⟨percent, escape⟩, plain⟩ := List.forall_mem_cons.mp plain
      have tail := ih plain
      by_cases one : c = '_'
      · subst one
        simpa [PgFsRevisionStore.like] using tail
      · simp [PgFsRevisionStore.like, escape, tail]

/-- The characters of a canonical path. -/
theorem canonical_chars {input : String} (canonical : normalizeFsPath input = .ok path) :
    ∀ c ∈ path.toList, c = '/' ∨ isSegmentChar c = true := by
  unfold normalizeFsPath at canonical
  simp only at canonical
  split at canonical
  · cases canonical
  split at canonical
  · cases canonical
  · next legal =>
      split at canonical
      · cases canonical
      split at canonical
      · cases canonical
      · obtain rfl := Except.ok.inj canonical
        intro c member
        rcases mem_intercalate member with mark | ⟨s, inside, here⟩
        · exact .inl mark
        · have segment : isSegment s = true := by
            simpa using List.find?_eq_none.mp legal s inside
          exact .inr (List.all_eq_true.mp (of_decide_eq_true segment).2 c here)

/-- What moves is selected. -/
theorem selects_of_within (canonical : normalizeFsPath from' = .ok from')
    (moved : within from' path = true) : PgFsRevisionStore.selects from' path = true := by
  obtain ⟨rest, eq, rfl | ⟨more, rfl⟩⟩ := within_iff.mp moved
  · have same : path = from' := String.toList_inj.mp (by simpa using eq)
    simp [PgFsRevisionStore.selects, same]
  · have plain : ∀ c ∈ from'.toList, c ≠ '%' ∧ c ≠ '\\' := by
      intro c member
      rcases canonical_chars canonical c member with rfl | segment
      · decide
      · constructor <;> (intro mark; rw [mark] at segment; revert segment; decide)
    have tail : PgFsRevisionStore.like ['/', '%'] ('/' :: more) = true := by
      simp [PgFsRevisionStore.like, List.mem_tails]
    unfold PgFsRevisionStore.selects
    rw [String.toList_append, eq, Bool.or_eq_true]
    exact .inr (like_self plain _ _ tail)

/-! ## A rename in both ledgers -/

/-- Rows of one path have different numbers. -/
def Distinct (rows : Rows) : Prop :=
  rows.Pairwise fun a b => ¬ (a.path = b.path ∧ a.revision = b.revision)

/-- A rename takes rows of the subtree alone, and to numbers that are free. -/
structure Placed (from' to' : String) (rows : Rows) : Prop where
  own : ∀ row ∈ rows, PgFsRevisionStore.selects from' row.path = true →
    within from' row.path = true
  free : ∀ row ∈ rows, within from' row.path = true → ∀ other ∈ rows,
    ¬ (other.path = carry from' to' row.path ∧ other.revision = row.revision)

theorem carryRow_path : (carryRow from' to' row).path =
    if within from' row.path then carry from' to' row.path else row.path := by
  unfold carryRow
  split <;> rfl

theorem carryRow_revision : (carryRow from' to' row).revision = row.revision := by
  unfold carryRow
  split <;> rfl

theorem Placed.distinct (placed : Placed from' to' rows) (distinct : Distinct rows) :
    Distinct (rows.map (carryRow from' to')) := by
  refine List.pairwise_map.mpr (distinct.imp_of_mem fun {a b} inA inB apart same => ?_)
  rw [carryRow_path, carryRow_path, carryRow_revision, carryRow_revision] at same
  obtain ⟨paths, numbers⟩ := same
  split at paths
  · next movedA =>
      split at paths
      · next movedB => exact apart ⟨carry_inj movedA movedB paths, numbers⟩
      · exact placed.free a inA movedA b inB ⟨paths.symm, numbers.symm⟩
  · split at paths
    · next movedB => exact placed.free b inB movedB a inA ⟨paths, numbers⟩
    · exact apart ⟨paths, numbers⟩

theorem rename_inMemory : inMemory.rename rows from' to' = .ok (rows.map (carryRow from' to')) := by
  have same : InMemoryFsRevisionStore.renamed from' to' = carryRow from' to' := by
    funext row
    exact renamed_eq
  simp [inMemory, InMemoryFsRevisionStore.rename, same]

/-- The loop of the update: each row it comes to finds its new number free. -/
theorem update_eq (canonical : normalizeFsPath from' = .ok from') (placed : Placed from' to' rows)
    (distinct : Distinct rows) {done rest : Rows} (split : rows = done ++ rest) :
    PgFsRevisionStore.update from' to' (done.map (carryRow from' to')) rest =
      .ok (rows.map (carryRow from' to')) := by
  induction rest generalizing done with
  | nil => simp [PgFsRevisionStore.update, split]
  | cons row rest ih =>
      have next : rows = (done ++ [row]) ++ rest := by simp [split]
      have inRows : row ∈ rows := by simp [split]
      have tail := ih next
      rw [List.map_append, List.map_singleton] at tail
      unfold PgFsRevisionStore.update
      by_cases moved : within from' row.path = true
      · rw [if_neg (by simp [selects_of_within canonical moved])]
        simp only [rewritten_eq moved]
        have free : published (done.map (carryRow from' to') ++ rest)
            (carryRow from' to' row).path (carryRow from' to' row).revision = false := by
          refine List.any_eq_false.mpr fun other member same => ?_
          have same := of_decide_eq_true same
          rcases List.mem_append.mp member with earlier | later
          · obtain ⟨old, inDone, rfl⟩ := List.mem_map.mp earlier
            have pairs := placed.distinct distinct
            rw [split, List.map_append, List.map_cons] at pairs
            exact (List.pairwise_append.mp pairs).2.2 _ earlier _ List.mem_cons_self same
          · rw [carryRow_path, if_pos moved, carryRow_revision] at same
            exact placed.free row inRows moved other (by simp [split, later]) same
        rw [free, if_neg Bool.false_ne_true]
        exact tail
      · have stays : ¬ PgFsRevisionStore.selects from' row.path = true := fun selected =>
          moved (placed.own row inRows selected)
        have same : carryRow from' to' row = row := if_neg moved
        rw [if_pos stays]
        rw [same] at tail
        exact tail

theorem rename_postgres (canonical : normalizeFsPath from' = .ok from')
    (placed : Placed from' to' rows) (distinct : Distinct rows) :
    postgres.rename rows from' to' = .ok (rows.map (carryRow from' to')) :=
  update_eq canonical placed distinct (List.nil_append rows).symm

/-! ## Calls on both ledgers -/

inductive Call
  | write (path : String) (input : Publish)
  | mkdir (path : String)
  | remove (path : String) (recursive : Bool)
  | move (from' to' : String)
  deriving DecidableEq

def perform (deps : Deps) (store : FsRevisionStore) : Call → Action Unit
  | .write path input => do
      let _ ← RevisionedWorkspaceFs.write deps store path input
  | .mkdir path => do
      let _ ← RevisionedWorkspaceFs.mkdir path
  | .remove path recursive => do
      let _ ← RevisionedWorkspaceFs.remove path recursive
  | .move from' to' => do
      let _ ← RevisionedWorkspaceFs.move deps store from' to'

/-- The filesystem over the ledger in memory and over the one in Postgres. -/
structure Pair where
  memory : Volume
  postgres : Volume

structure Answers where
  memory : Except AppError Unit
  postgres : Except AppError Unit

def filesystems (deps : Deps) : Transition.Machine Pair Call Answers := fun s call =>
  let fromMemory := perform deps inMemory call s.memory
  let fromPostgres := perform deps postgres call s.postgres
  some (⟨fromMemory.2, fromPostgres.2⟩, ⟨fromMemory.1, fromPostgres.1⟩)

variable {deps : Deps} {v : Volume} {s t : Pair} {call : Call} {input : Publish}

/-- A revision is read at a path, with the size and the hash of its row. -/
structure Serves (deps : Deps) (tree : TenantTree) (path : String) (row : FsRevision) : Prop where
  canonical : normalizeFsPath path = .ok path
  blob : ∃ blob, tree.readRevisionBlob path row.revision = .ok (some blob) ∧
    blob.data.length = row.size ∧ deps.sha256 blob.data = row.hash

/-- A move that neither the guard nor the tree refuses. -/
def Goes (deps : Deps) (v : Volume) (from' to' : String) : Prop :=
  (RevisionedWorkspaceFs.guardMove deps from' to' v).1 = .ok () ∧
    ∃ moved, v.tree.move from' to' = .ok moved

/-- The paths a move takes: a file alone, or a directory with all that is below it. -/
def Moved (tree : TenantTree) (from' path : String) : Bool :=
  path = from' || !tree.hasFile from' && below from' path

/-- A call on canonical paths.  A write has a number within `integer` left; a move takes rows of
what it moves alone, to numbers that are free. -/
def Located (deps : Deps) (v : Volume) : Call → Prop
  | .write path _ => normalizeFsPath path = .ok path ∧
      PgFsRevisionStore.isInt (current v.rows path + 1) = true
  | .mkdir path | .remove path _ => normalizeFsPath path = .ok path
  | .move from' to' => normalizeFsPath from' = .ok from' ∧ normalizeFsPath to' = .ok to' ∧
      (Goes deps v from' to' → Placed from' to' v.rows ∧
        ∀ row ∈ v.rows, within from' row.path = true → Moved v.tree from' row.path = true)

/-- What a move takes is served at the new place already. -/
def Prepared (deps : Deps) (v : Volume) : Call → Prop
  | .move from' to' => Goes deps v from' to' → ∀ row ∈ v.rows, within from' row.path = true →
      Serves deps v.tree (carry from' to' row.path) row
  | _ => True

def Preserving (deps : Deps) (s : Pair) (call : Call) : Prop :=
  Located deps s.memory call ∧ Prepared deps s.memory call

/-! ## What a call does -/

theorem le_current (rows : Rows) (member : row ∈ rows) (here : row.path = path) :
    row.revision ≤ current rows path := by
  have inside : row ∈ forPath rows path :=
    Sorting.mem_sortBy.mpr (List.mem_filter.mpr ⟨member, decide_eq_true here⟩)
  have sorted : (forPath rows path).Pairwise fun a b => -(a.revision : Int) ≤ -(b.revision : Int) :=
    Sorting.sortBy_pairwise _ _
  unfold current head
  cases newest : forPath rows path with
  | nil =>
      rw [newest] at inside
      exact absurd inside List.not_mem_nil
  | cons first rest =>
      rw [newest] at inside sorted
      change row.revision ≤ first.revision
      rcases List.mem_cons.mp inside with rfl | later
      · exact Nat.le_refl _
      · have := (List.pairwise_cons.mp sorted).1 row later
        omega

/-- The number after the newest is free. -/
theorem unpublished (rows : Rows) (path : String) :
    published rows path (current rows path + 1) = false := by
  refine List.any_eq_false.mpr fun row member same => ?_
  have same := of_decide_eq_true same
  have le := le_current rows member same.1
  omega

/-- The volume after a write has claimed the next number and stored its blob. -/
def stocked (deps : Deps) (path : String) (input : Publish) (v : Volume) : Volume where
  tree := { v.tree with
    revisions := v.tree.revisions.set (path, current v.rows path + 1)
      ⟨input.data, input.type deps path⟩ }
  rows := v.rows ++ [input.record deps path (current v.rows path + 1)]

/-- What a write answers and leaves. -/
def publishes (deps : Deps) (path : String) (input : Publish) (v : Volume) :
    Except AppError FsEntry × Volume :=
  match assertNoSecretsInMemory deps path input.data with
  | .error e => (.error e, v)
  | .ok () =>
      if input.opts.baseRevision.any (· ≠ current v.rows path) then
        (.error (movedOn path (input.opts.baseRevision.getD 0) (current v.rows path)), v)
      else
        let stocked := stocked deps path input v
        match stocked.tree.write deps.toRegistry path input.data (some (input.type deps path)) with
        | .ok (tree, entry) =>
            (.ok { entry with revision := some (current v.rows path + 1) }, { stocked with tree })
        | .error e => (.error e, stocked)

theorem blobWriter_eq {revision : Nat} {data : Bytes} {contentType : String}
    (canonical : normalizeFsPath path = .ok path) (v : Volume) :
    blobWriter path revision data contentType v =
      (.ok (), { v with tree := { v.tree with
        revisions := v.tree.revisions.set (path, revision) ⟨data, contentType⟩ } }) := by
  unfold blobWriter Action.writes writeRevisionBlob
  rw [canonical]
  rfl

theorem write_eq {store : FsRevisionStore} (canonical : normalizeFsPath path = .ok path)
    (appends : store.append v.rows (input.record deps path (current v.rows path + 1)) =
      .ok (v.rows ++ [input.record deps path (current v.rows path + 1)])) :
    RevisionedWorkspaceFs.write deps store path input v = publishes deps path input v := by
  have records : Action.records (fun rows =>
      store.append rows (input.record deps path (current v.rows path + 1))) v =
        (.ok (), { v with
          rows := v.rows ++ [input.record deps path (current v.rows path + 1)] }) := by
    simp only [Action.records, appends]
  unfold RevisionedWorkspaceFs.write publishes
  rw [Action.bind_apply, Action.checks]
  rcases assertNoSecretsInMemory deps path input.data with e | ⟨⟩
  · rfl
  · simp only
    rw [show attempts = 4 + 1 from rfl, RevisionedWorkspaceFs.publish, Action.bind_apply,
      Action.queries]
    simp only
    split
    · rfl
    · rw [Action.bind_apply, Action.tryCatch_apply, Action.bind_apply, records]
      simp only [Action.pure_apply]
      rw [Action.bind_apply, blobWriter_eq canonical]
      simp only
      rw [Action.bind_apply, Action.writes]
      simp only [Publish.record, stocked]
      generalize TenantTree.write _ _ path input.data _ = written
      rcases written with e | ⟨tree, entry⟩
      · rfl
      · rfl

theorem guardMove_volume (deps : Deps) (from' to' : String) (v : Volume) :
    (RevisionedWorkspaceFs.guardMove deps from' to' v).2 = v := by
  unfold RevisionedWorkspaceFs.guardMove
  split
  · rw [Action.bind_apply, Action.reads]
    rcases v.tree.read from' with e | _ | file <;> rfl
  · rfl

/-- What a move answers and leaves. -/
def relocates (deps : Deps) (from' to' : String) (v : Volume) : Except AppError FsEntry × Volume :=
  match (RevisionedWorkspaceFs.guardMove deps from' to' v).1, v.tree.move from' to' with
  | .error e, _ => (.error e, v)
  | .ok (), .error e => (.error e, v)
  | .ok (), .ok (tree, entry) => (.ok entry, ⟨tree, v.rows.map (carryRow from' to')⟩)

theorem move_eq {store : FsRevisionStore}
    (renames : Goes deps v from' to' →
      store.rename v.rows from' to' = .ok (v.rows.map (carryRow from' to'))) :
    RevisionedWorkspaceFs.move deps store from' to' v = relocates deps from' to' v := by
  have still := guardMove_volume deps from' to' v
  unfold RevisionedWorkspaceFs.move relocates
  rw [Action.bind_apply]
  rcases guard : RevisionedWorkspaceFs.guardMove deps from' to' v with ⟨e | ⟨⟩, v'⟩
  · rw [guard] at still
    obtain rfl : v' = v := still
    rfl
  · rw [guard] at still
    obtain rfl : v' = v := still
    simp only
    rw [Action.bind_apply, Action.writes]
    rcases moved : v'.tree.move from' to' with e | ⟨tree, entry⟩
    · rfl
    · have renamed := renames ⟨by rw [guard], _, moved⟩
      simp only
      rw [Action.bind_apply, Action.records]
      simp only [renamed]
      rfl

/-- The blobs and the rows are as they were. -/
structure Keeps (v v' : Volume) : Prop where
  rows : v'.rows = v.rows
  revisions : v'.tree.revisions = v.tree.revisions

theorem writes_keeps {α : Type} {op : TenantTree → Except AppError (TenantTree × α)}
    (keeps : ∀ tree answer, op v.tree = .ok (tree, answer) → tree.revisions = v.tree.revisions) :
    Keeps v (Action.writes op v).2 := by
  unfold Action.writes
  rcases done : op v.tree with e | ⟨tree, answer⟩
  · exact ⟨rfl, rfl⟩
  · exact ⟨rfl, keeps tree answer done⟩

theorem discard_apply {α : Type} (x : Action α) (v : Volume) :
    (do let _ ← x; pure () : Action Unit) v = ((x v).1.map fun _ => (), (x v).2) := by
  rw [Action.bind_apply]
  rcases x v with ⟨e | a, v'⟩ <;> rfl

/-- What a call leaves. -/
inductive Effect (deps : Deps) (v : Volume) : Call → Volume → Prop
  | keeps {call : Call} {v' : Volume} (same : Keeps v v') : Effect deps v call v'
  | publishes {path : String} {input : Publish} {v' : Volume}
      (canonical : normalizeFsPath path = .ok path)
      (same : Keeps (stocked deps path input v) v') : Effect deps v (.write path input) v'
  | moves {from' to' : String} {v' : Volume} (goes : Goes deps v from' to')
      (same : Keeps { v with rows := v.rows.map (carryRow from' to') } v') :
      Effect deps v (.move from' to') v'

theorem publishes_effect (canonical : normalizeFsPath path = .ok path) :
    Effect deps v (.write path input) (publishes deps path input v).2 := by
  unfold publishes
  split
  · exact .keeps ⟨rfl, rfl⟩
  · split
    · exact .keeps ⟨rfl, rfl⟩
    · simp only
      split
      · next written =>
          obtain ⟨p, file, -, -, -, rfl⟩ := write_eq_ok written
          exact .publishes canonical ⟨rfl, rfl⟩
      · exact .publishes canonical ⟨rfl, rfl⟩

theorem relocates_effect : Effect deps v (.move from' to') (relocates deps from' to' v).2 := by
  unfold relocates
  split
  · exact .keeps ⟨rfl, rfl⟩
  · exact .keeps ⟨rfl, rfl⟩
  · next guard moved =>
      exact .moves ⟨guard, _, moved⟩ ⟨rfl, move_revisions moved⟩

theorem write_inMemory (canonical : normalizeFsPath path = .ok path) :
    RevisionedWorkspaceFs.write deps inMemory path input v = publishes deps path input v := by
  refine write_eq canonical ?_
  simp [inMemory, InMemoryFsRevisionStore.append, Publish.record, unpublished]

theorem write_postgres (canonical : normalizeFsPath path = .ok path)
    (isInt : PgFsRevisionStore.isInt (current v.rows path + 1) = true) :
    RevisionedWorkspaceFs.write deps postgres path input v = publishes deps path input v := by
  refine write_eq canonical ?_
  simp [postgres, PgFsRevisionStore.append, Publish.record, unpublished, isInt]

theorem move_inMemory :
    RevisionedWorkspaceFs.move deps inMemory from' to' v = relocates deps from' to' v :=
  move_eq fun _ => rename_inMemory

theorem move_postgres (located : Located deps v (.move from' to')) (distinct : Distinct v.rows) :
    RevisionedWorkspaceFs.move deps postgres from' to' v = relocates deps from' to' v :=
  move_eq fun goes => rename_postgres located.1 (located.2.2 goes).1 distinct

/-- A call does the same over both ledgers. -/
theorem perform_alike (located : Located deps v call) (distinct : Distinct v.rows) :
    perform deps inMemory call v = perform deps postgres call v := by
  cases call with
  | write path input =>
      simp only [perform]
      rw [discard_apply, discard_apply, write_inMemory located.1,
        write_postgres located.1 located.2]
  | mkdir path => rfl
  | remove path recursive => rfl
  | move from' to' =>
      simp only [perform]
      rw [discard_apply, discard_apply, move_inMemory, move_postgres located distinct]

theorem perform_effect (located : Located deps v call) :
    Effect deps v call (perform deps inMemory call v).2 := by
  cases call with
  | write path input =>
      simp only [perform]
      rw [discard_apply, write_inMemory located.1]
      dsimp only
      exact publishes_effect located.1
  | mkdir path =>
      simp only [perform]
      rw [discard_apply]
      refine .keeps ?_
      dsimp only
      unfold RevisionedWorkspaceFs.mkdir
      exact writes_keeps fun tree entry done => mkdir_revisions done
  | remove path recursive =>
      simp only [perform]
      rw [discard_apply]
      refine .keeps ?_
      dsimp only
      unfold RevisionedWorkspaceFs.remove
      exact writes_keeps fun tree removed done => remove_revisions done
  | move from' to' =>
      simp only [perform]
      rw [discard_apply, move_inMemory]
      dsimp only
      exact relocates_effect

/-! ## What the effects keep -/

theorem Effect.distinct {v' : Volume} (effect : Effect deps v call v')
    (located : Located deps v call) (distinct : Distinct v.rows) : Distinct v'.rows := by
  cases effect with
  | keeps same =>
      rw [same.rows]
      exact distinct
  | publishes canonical same =>
      rw [same.rows]
      refine List.pairwise_append.mpr ⟨distinct, List.pairwise_singleton _ _, ?_⟩
      intro row member new here both
      rw [List.mem_singleton.mp here] at both
      exact List.any_eq_false.mp (unpublished v.rows _) row member (decide_eq_true both)
  | moves goes same =>
      rw [same.rows]
      exact (located.2.2 goes).1.distinct distinct

theorem Serves.of_revisions {tree tree' : TenantTree} (serves : Serves deps tree path row)
    (same : tree'.revisions = tree.revisions) : Serves deps tree' path row := by
  obtain ⟨canonical, blob, found, both⟩ := serves
  refine ⟨canonical, blob, ?_, both⟩
  rw [← found]
  unfold readRevisionBlob
  rw [same]

/-- Every revision that is listed is served. -/
def Readable (deps : Deps) (v : Volume) : Prop := ∀ row ∈ v.rows, Serves deps v.tree row.path row

theorem readRevisionBlob_eq {tree : TenantTree} {revision : Nat}
    (canonical : normalizeFsPath path = .ok path) :
    tree.readRevisionBlob path revision = .ok ((tree.revisions.get (path, revision)).map fun hit =>
      ⟨{ fileEntry path hit with revision := some revision }, hit.data⟩) := by
  unfold readRevisionBlob
  rw [canonical]
  rfl

theorem stocked_readable (canonical : normalizeFsPath path = .ok path)
    (readable : Readable deps v) :
    Readable deps (stocked deps path input v) := by
  intro row member
  rcases List.mem_append.mp member with old | new
  · obtain ⟨clean, blob, found, both⟩ := readable row old
    refine ⟨clean, blob, ?_, both⟩
    have other : ¬ (row.path, row.revision) = (path, current v.rows path + 1) := fun same =>
      List.any_eq_false.mp (unpublished v.rows path) row old
        (decide_eq_true (Prod.mk.inj same))
    rw [readRevisionBlob_eq clean] at found ⊢
    simp only [stocked, Table.get_set]
    rw [if_neg other]
    exact found
  · rw [List.mem_singleton.mp new]
    let hit : StoredFile := ⟨input.data, input.type deps path⟩
    refine ⟨canonical, ⟨{ fileEntry path hit with
      revision := some (current v.rows path + 1) }, hit.data⟩, ?_, rfl, rfl⟩
    rw [Publish.record, readRevisionBlob_eq canonical]
    simp only [stocked, Table.get_set, if_true, Option.map_some]
    rfl

theorem Effect.readable {v' : Volume} (effect : Effect deps v call v')
    (prepared : Prepared deps v call) (readable : Readable deps v) : Readable deps v' := by
  cases effect with
  | keeps same =>
      intro row member
      rw [same.rows] at member
      exact (readable row member).of_revisions same.revisions
  | publishes canonical same =>
      intro row member
      rw [same.rows] at member
      exact (stocked_readable canonical readable row member).of_revisions same.revisions
  | moves goes same =>
      intro row member
      rw [same.rows] at member
      obtain ⟨old, inside, rfl⟩ := List.mem_map.mp member
      refine Serves.of_revisions ?_ same.revisions
      unfold carryRow
      split
      · next moved =>
          obtain ⟨canonical, blob⟩ := prepared goes old inside moved
          exact ⟨canonical, blob⟩
      · exact readable old inside

/-! ## Runs -/

variable {log : List (Call × Answers)} {start : Volume}

/-- A row after a move that takes it along. -/
def moveRow (tree : TenantTree) (from' to' : String) (row : FsRevision) : FsRevision :=
  if Moved tree from' row.path then { row with path := carry from' to' row.path } else row

/-- A move that is done carries the rows of what it moves and no others; one that is refused
leaves the ledger as it is. -/
def Carries (deps : Deps) (s : Pair) : Prop :=
  ∀ from' to' t o, Located deps s.memory (.move from' to') →
    filesystems deps s (.move from' to') = some (t, o) →
      (∀ done, o.memory = .ok done →
        t.memory.rows = s.memory.rows.map (moveRow s.memory.tree from' to')) ∧
      ∀ e, o.memory = .error e → t.memory.rows = s.memory.rows

theorem within_of_moved {tree : TenantTree} (moved : Moved tree from' path = true) :
    within from' path = true := by
  simp only [Moved, within, Bool.or_eq_true, Bool.and_eq_true] at moved ⊢
  exact moved.imp_right And.right

theorem relocates_rows (located : Located deps v (.move from' to')) :
    (∀ entry, (relocates deps from' to' v).1 = .ok entry →
      (relocates deps from' to' v).2.rows = v.rows.map (moveRow v.tree from' to')) ∧
    ∀ e, (relocates deps from' to' v).1 = .error e →
      (relocates deps from' to' v).2.rows = v.rows := by
  unfold relocates
  split
  · constructor
    · intro entry answered
      cases answered
    · intro _ _
      rfl
  · constructor
    · intro entry answered
      cases answered
    · intro _ _
      rfl
  · next guard moved =>
      constructor
      · intro _ _
        refine List.map_congr_left fun row member => ?_
        unfold carryRow moveRow
        by_cases inside : within from' row.path = true
        · rw [if_pos inside, if_pos ((located.2.2 ⟨guard, _, moved⟩).2 row member inside)]
        · rw [if_neg inside, if_neg fun takes => inside (within_of_moved takes)]
      · intro e answered
        cases answered

theorem carries (deps : Deps) (s : Pair) : Carries deps s := by
  intro from' to' t o located eq
  obtain ⟨rfl, rfl⟩ := Prod.mk.inj (Option.some.inj eq)
  obtain ⟨done', refused⟩ := relocates_rows located
  simp only [perform]
  rw [discard_apply, move_inMemory]
  dsimp only
  generalize relocates deps from' to' s.memory = r at done' refused
  obtain ⟨answer, after⟩ := r
  cases answer with
  | error e => exact ⟨fun done answered => (by cases answered), fun _ _ => refused e rfl⟩
  | ok entry => exact ⟨fun _ _ => done' entry rfl, fun e answered => (by cases answered)⟩

/-- The two volumes are one and the same. -/
theorem located_run (distinct : Distinct start.rows)
    (run : Runs (filesystems deps) (fun s call => Located deps s.memory call) ⟨start, start⟩ log
      s) :
    s.postgres = s.memory ∧ Distinct s.memory.rows := by
  refine run.state_invariant (I := fun s => s.postgres = s.memory ∧ Distinct s.memory.rows)
    ⟨rfl, distinct⟩ ?_
  intro s call t o before located eq
  obtain ⟨rfl, rfl⟩ := Prod.mk.inj (Option.some.inj eq)
  refine ⟨?_, (perform_effect located).distinct located before.2⟩
  change (perform deps postgres call s.postgres).2 = (perform deps inMemory call s.memory).2
  rw [before.1, perform_alike located before.2]

/-- What is true of the history of the files. -/
structure Survives (deps : Deps) (s : Pair) : Prop where
  same : s.postgres = s.memory
  distinct : Distinct s.memory.rows
  carries : Carries deps s

/-- History survives a run whose moves take along no rows but their own, to numbers that are
free; the revisions stay readable when the blobs lie in the new places already. -/
theorem history_survives_moves (distinct : Distinct start.rows) :
    (∀ log s, Runs (filesystems deps) (fun s call => Located deps s.memory call) ⟨start, start⟩
      log s → Survives deps s) ∧
    (Readable deps start → ∀ log s, Runs (filesystems deps) (Preserving deps) ⟨start, start⟩
      log s → Readable deps s.memory) := by
  constructor
  · intro log s run
    obtain ⟨same, distinct'⟩ := located_run distinct run
    exact ⟨same, distinct', carries deps s⟩
  · intro readable log s run
    refine run.state_invariant (I := fun s => Readable deps s.memory) readable ?_
    intro s call t o before ok eq
    obtain ⟨rfl, rfl⟩ := Prod.mk.inj (Option.some.inj eq)
    exact (perform_effect ok.1).readable ok.2 before

/-! ## A move with and without its blobs -/

def plainWrite (data : Bytes) : Publish := ⟨data, none, ⟨none, none, none, none⟩⟩

/-- A file with one revision, whose bytes are stored under the name it is about to get, too. -/
def preparedVolume : Volume where
  tree := {
    files := Table.empty.set "a.md" ⟨[97], "text/markdown; charset=utf-8"⟩
    dirs := []
    revisions := (Table.empty.set ("a.md", 1) ⟨[97], "text/markdown; charset=utf-8"⟩).set
      ("b.md", 1) ⟨[97], "text/markdown; charset=utf-8"⟩ }
  rows := [(plainWrite [97]).record plainDeps "a.md" 1]

theorem history_survives_moves_prepared :
    ∃ log s, Runs (filesystems plainDeps) (Preserving plainDeps) ⟨preparedVolume, preparedVolume⟩
      log s ∧ s.memory.rows = [(plainWrite [97]).record plainDeps "b.md" 1] ∧
        Survives plainDeps s ∧ Readable plainDeps s.memory := by
  have readable : Readable plainDeps preparedVolume := by
    intro row member
    rw [List.mem_singleton.mp member]
    exact ⟨rfl, _, rfl, rfl, rfl⟩
  have prepared : Preserving plainDeps ⟨preparedVolume, preparedVolume⟩ (.move "a.md" "b.md") := by
    refine ⟨⟨rfl, rfl, fun _ => ⟨⟨?_, ?_⟩, ?_⟩⟩, fun _ => ?_⟩
    · intro row member _
      rw [List.mem_singleton.mp member]
      rfl
    · intro row member _ other inside same
      rw [List.mem_singleton.mp member, List.mem_singleton.mp inside] at same
      exact absurd same.1 (by decide +kernel)
    · intro row member _
      rw [List.mem_singleton.mp member]
      rfl
    · intro row member _
      rw [List.mem_singleton.mp member]
      exact ⟨rfl, _, rfl, rfl, rfl⟩
  have r : Runs (filesystems plainDeps) (Preserving plainDeps) ⟨preparedVolume, preparedVolume⟩
      ([] ++ [(.move "a.md" "b.md", _)]) _ := .tail .refl prepared rfl
  have distinct : Distinct preparedVolume.rows := List.pairwise_singleton _ _
  obtain ⟨survives, stays⟩ := history_survives_moves distinct
  exact ⟨_, _, r, rfl, survives _ _ (r.mono fun _ _ ok => ok.1), stays readable _ _ r⟩

/-- The calls name canonical paths. -/
def CanonicalPaths (_ : Pair) : Call → Prop
  | .write path _ | .mkdir path | .remove path _ => normalizeFsPath path = .ok path
  | .move from' to' => normalizeFsPath from' = .ok from' ∧ normalizeFsPath to' = .ok to'

/-- A file is written and moved: its revision is listed at the new place and served at the old
one. -/
theorem moved_revision_not_served :
    ∃ log s, Runs (filesystems plainDeps) CanonicalPaths ⟨⟨TenantTree.empty, []⟩,
        ⟨TenantTree.empty, []⟩⟩ log s ∧
      ∃ row ∈ s.memory.rows, row.path = "b.md" ∧ row.revision = 1 ∧
        s.memory.tree.readRevisionBlob "b.md" 1 = .ok none := by
  have r1 : Runs (filesystems plainDeps) CanonicalPaths ⟨⟨TenantTree.empty, []⟩,
      ⟨TenantTree.empty, []⟩⟩ ([] ++ [(.write "a.md" (plainWrite [97]), _)]) _ :=
    .tail .refl rfl rfl
  have r2 : Runs (filesystems plainDeps) CanonicalPaths ⟨⟨TenantTree.empty, []⟩,
      ⟨TenantTree.empty, []⟩⟩ (_ ++ [(.move "a.md" "b.md", _)]) _ := .tail r1 ⟨rfl, rfl⟩ rfl
  exact ⟨_, _, r2, (plainWrite [97]).record plainDeps "b.md" 1, List.mem_singleton.mpr rfl, rfl,
    rfl, rfl⟩

end Everdict.WorkspaceFs
