import Everdict.WorkspaceFs.Interleavings

/-!
# A read labelled with a revision is that revision

`publications` collects what a run published of the path.  `Kept` ties the rows of the ledger, the
visible file, the blobs and the calls under way to it; with sizes that differ, a file of the size
of a row has the bytes of its revision (`Kept.same_size`).

The exception is a read whose blob is not stored yet: a write appends its row before the blob, and
a read that falls between answers the old bytes under the new number.
-/

namespace Everdict.WorkspaceFs

open Sorting Transition.Machine RevisionedWorkspaceFs

variable {deps : Deps} {path : String} {s t : System} {log : List (Event × Outcome)}
  {v v' : Volume} {c c' : Await} {o : Outcome} {input : Publish} {record : FsRevision} {r : Nat}

/-! ## What a run published -/

/-- The revision and the bytes of a publication. -/
def Outcome.publication : Outcome → List (Nat × Bytes)
  | .published input record => [(record.revision, input.data)]
  | _ => []

def publications (log : List (Event × Outcome)) : List (Nat × Bytes) :=
  log.flatMap fun e => e.2.publication

/-- The rows of the path, in the order in which they were appended. -/
def rowsOf (rows : Rows) (path : String) : Rows := rows.filter fun r => r.path = path

/-- The newest row of a path whose revisions rise is the one appended last. -/
theorem head_eq_getLast? {rows : Rows}
    (rising : (rowsOf rows path).Pairwise fun a b => a.revision < b.revision) :
    head rows path = (rowsOf rows path).getLast? := by
  have distinct : ((rowsOf rows path).map fun r => -(r.revision : Int)).Nodup := by
    refine List.pairwise_map.mpr (rising.imp fun less => ?_)
    omega
  have sorted : (rowsOf rows path).reverse = forPath rows path := by
    refine eq_sortBy distinct (List.reverse_perm _) ?_
    rw [List.pairwise_reverse]
    refine rising.imp fun less => ?_
    omega
  unfold head
  rw [← sorted, List.head?_reverse]

/-! ## What a call does when its operation ends -/

/-- A claimed revision that a call has not written through to the visible file. -/
def Unseen : Await → Prop
  | .blob _ _ | .file _ _ | .done (.threw (some _) _) => True
  | _ => False

/-- A claimed revision whose blob a call has not stored. -/
def Owes (r : Nat) : Await → Prop
  | .blob _ record => record.revision = r
  | .done (.threw (some claimed) _) => claimed = r
  | _ => False

/-- What a call does when its operation returns or throws. -/
inductive Move (deps : Deps) (path : String) (v : Volume) :
    Await → Volume → Await → Outcome → Prop
  | refused {c : Await} {e : AppError} (unclaimed : ¬ Unseen c) :
      Move deps path v c v (.done (.threw none e)) (.returned (.threw none e))
  | head {input : Publish} {left : Nat}
      (base : ∀ b, input.opts.baseRevision = some b → b = current v.rows path) :
      Move deps path v (.head input left) v
        (.append input left (input.record deps path (current v.rows path + 1))) .waits
  | lost {input : Publish} {left left' : Nat} {record : FsRevision} :
      Move deps path v (.append input left record) v (.head input left') .waits
  | claimed {input : Publish} {left : Nat} {record : FsRevision}
      (fresh : published v.rows record.path record.revision = false) :
      Move deps path v (.append input left record) { v with rows := v.rows ++ [record] }
        (.blob input record) (.published input record)
  | stored {input : Publish} {record : FsRevision} {tree : TenantTree}
      (eq : v.tree.writeRevisionBlob path record.revision input.data record.contentType =
        .ok tree) :
      Move deps path v (.blob input record) { v with tree } (.file input record) .waits
  | blobThrew {input : Publish} {record : FsRevision} {e : AppError} :
      Move deps path v (.blob input record) v (.done (.threw (some record.revision) e))
        (.returned (.threw (some record.revision) e))
  | wrote {input : Publish} {record : FsRevision} {tree : TenantTree} {entry : FsEntry}
      (eq : v.tree.write deps.toRegistry path input.data (some record.contentType) =
        .ok (tree, entry)) {answer : FsEntry} :
      Move deps path v (.file input record) { v with tree } (.done (.wrote answer))
        (.returned (.wrote answer))
  | fileThrew {input : Publish} {record : FsRevision} {e : AppError} :
      Move deps path v (.file input record) v (.done (.threw (some record.revision) e))
        (.returned (.threw (some record.revision) e))
  | readFile {file : FsFile} (eq : v.tree.read path = .ok (some file)) :
      Move deps path v .innerRead v (.readHead file) .waits
  | absent (eq : v.tree.read path = .ok none) :
      Move deps path v .innerRead v (.done (.read none)) (.returned (.read none))
  | unlabelled {file : FsFile} (eq : WorkspaceFs.head v.rows path = none) :
      Move deps path v (.readHead file) v (.done (.read (some file)))
        (.returned (.read (some file)))
  | sameSize {file : FsFile} {newest : FsRevision}
      (eq : WorkspaceFs.head v.rows path = some newest)
      (size : newest.size = file.data.length) :
      Move deps path v (.readHead file) v (.done (.read (some (labelled file newest.revision))))
        (.returned (.read (some (labelled file newest.revision))))
  | differs {file : FsFile} {newest : FsRevision}
      (eq : WorkspaceFs.head v.rows path = some newest) :
      Move deps path v (.readHead file) v (.readBlob file newest) .waits
  | blobRead {file published : FsFile} {newest : FsRevision}
      (eq : v.tree.readRevisionBlob path newest.revision = .ok (some published)) :
      Move deps path v (.readBlob file newest) v (.repair published newest) .waits
  | blobMissing {file : FsFile} {newest : FsRevision}
      (eq : v.tree.readRevisionBlob path newest.revision = .ok none) :
      Move deps path v (.readBlob file newest) v
        (.done (.read (some (labelled file newest.revision))))
        (.returned (.read (some (labelled file newest.revision))))
  | repaired {published : FsFile} {newest : FsRevision} {tree : TenantTree} {entry : FsEntry}
      (eq : v.tree.write deps.toRegistry path published.data (some newest.contentType) =
        .ok (tree, entry)) :
      Move deps path v (.repair published newest) { v with tree }
        (.done (.read (some (labelled published newest.revision))))
        (.returned (.read (some (labelled published newest.revision))))
  | unrepaired {published : FsFile} {newest : FsRevision} :
      Move deps path v (.repair published newest) v
        (.done (.read (some (labelled published newest.revision))))
        (.returned (.read (some (labelled published newest.revision))))

/-- An append that throws starts another attempt or ends the call. -/
theorem appendThrew_cases {left : Nat} {e : AppError}
    (eq : appendThrew path input left record e = (c', o)) :
    (∃ left', c' = .head input left' ∧ o = .waits) ∨
      ∃ e', c' = .done (.threw none e') ∧ o = .returned (.threw none e') := by
  unfold appendThrew at eq
  split at eq
  · cases eq
    exact .inr ⟨_, rfl, rfl⟩
  · split at eq
    · cases eq
      exact .inr ⟨_, rfl, rfl⟩
    · cases eq
      exact .inr ⟨_, rfl, rfl⟩
    · cases eq
      exact .inl ⟨_, rfl, rfl⟩

theorem appendThrew_move {left : Nat} {e : AppError}
    (eq : appendThrew path input left record e = (c', o)) :
    Move deps path v (.append input left record) v c' o := by
  rcases appendThrew_cases eq with ⟨left', rfl, rfl⟩ | ⟨e', rfl, rfl⟩
  · exact .lost
  · exact .refused id

theorem resume_move (eq : resume deps path v c = some (v', c', o)) :
    Move deps path v c v' c' o := by
  cases c with
  | head input left =>
      simp only [resume] at eq
      split at eq
      · cases eq
        exact .refused id
      · next same =>
          cases eq
          refine .head fun b based => ?_
          rw [based] at same
          simpa using same
  | append input left record =>
      simp only [resume, InMemoryFsRevisionStore.append] at eq
      split at eq
      · next rows appended =>
          cases eq
          split at appended
          · cases appended
          · next fresh =>
              cases appended
              exact .claimed (by simpa using fresh)
      · obtain ⟨rfl, thrown⟩ := Prod.mk.inj (Option.some.inj eq)
        exact appendThrew_move thrown
  | blob input record =>
      simp only [resume] at eq
      split at eq
      · next tree stored =>
          cases eq
          exact .stored stored
      · cases eq
        exact .blobThrew
  | file input record =>
      simp only [resume] at eq
      split at eq
      · next tree entry written =>
          cases eq
          exact .wrote written
      · cases eq
        exact .fileThrew
  | innerRead =>
      simp only [resume] at eq
      split at eq
      · next file found =>
          cases eq
          exact .readFile found
      · next found =>
          cases eq
          exact .absent found
      · cases eq
        exact .refused id
  | readHead file =>
      simp only [resume] at eq
      split at eq
      · next none' =>
          cases eq
          exact .unlabelled none'
      · next newest found =>
          split at eq
          · next size =>
              cases eq
              exact .sameSize found size
          · cases eq
            exact .differs found
  | readBlob file newest =>
      simp only [resume] at eq
      split at eq
      · next published found =>
          cases eq
          exact .blobRead found
      · next missing =>
          cases eq
          exact .blobMissing missing
      · cases eq
        exact .refused id
  | repair published newest =>
      simp only [resume] at eq
      split at eq
      · next tree entry written =>
          cases eq
          exact .repaired written
      · cases eq
        exact .unrepaired
  | done result => cases eq

theorem interrupt_move {e : AppError} (eq : interrupt path e c = some (c', o)) :
    Move deps path v c v c' o := by
  cases c with
  | head | innerRead | readHead | readBlob =>
      cases eq
      exact .refused id
  | append input left record =>
      exact appendThrew_move (Option.some.inj eq)
  | blob =>
      cases eq
      exact .blobThrew
  | file =>
      cases eq
      exact .fileThrew
  | repair =>
      cases eq
      exact .unrepaired
  | done => cases eq

/-! ## What holds at every await -/

variable {pubs : List (Nat × Bytes)} {calls : List Await} {i : Nat}

def Stored (v : Volume) (path : String) (r : Nat) : Prop :=
  ∃ blob, v.tree.readRevisionBlob path r = .ok (some blob)

instance (v : Volume) (path : String) (r : Nat) : Decidable (Stored v path r) :=
  match found : v.tree.readRevisionBlob path r with
  | .ok (some blob) => isTrue ⟨blob, found⟩
  | .ok none => isFalse fun stored => by
      obtain ⟨blob, there⟩ := stored
      rw [found] at there
      cases there
  | .error e => isFalse fun stored => by
      obtain ⟨blob, there⟩ := stored
      rw [found] at there
      cases there

/-- What is true of the values a call holds. -/
def Holds (deps : Deps) (path : String) (pubs : List (Nat × Bytes)) (v : Volume) : Await → Prop
  | .append input _ record => ∃ n, n ≤ pubs.length ∧ record = input.record deps path (n + 1) ∧
      ∀ b, input.opts.baseRevision = some b → b = n
  | .blob input record => (record.revision, input.data) ∈ pubs
  | .file input record => (record.revision, input.data) ∈ pubs ∧ Stored v path record.revision
  | .readHead file => ∃ r, (r, file.data) ∈ pubs
  | .repair published newest => (newest.revision, published.data) ∈ pubs
  | _ => True

theorem Holds.mono (more : List (Nat × Bytes))
    (blobs : ∀ r, Stored v path r → Stored v' path r) (holds : Holds deps path pubs v c) :
    Holds deps path (pubs ++ more) v' c := by
  cases c with
  | append input left record =>
      obtain ⟨n, le, eq, base⟩ := holds
      refine ⟨n, ?_, eq, base⟩
      rw [List.length_append]
      omega
  | blob input record => exact List.mem_append_left _ holds
  | file input record => exact ⟨List.mem_append_left _ holds.1, blobs _ holds.2⟩
  | readHead file =>
      obtain ⟨r, member⟩ := holds
      exact ⟨r, List.mem_append_left _ member⟩
  | repair published newest => exact List.mem_append_left _ holds
  | head | innerRead | readBlob | done => trivial

/-- The ledger, the files and the calls tell of what was published and of nothing else. -/
structure Kept (deps : Deps) (path : String) (pubs : List (Nat × Bytes)) (v : Volume)
    (calls : List Await) : Prop where
  rows : (rowsOf v.rows path).map (fun r => (r.revision, r.size)) =
    pubs.map fun p => (p.1, p.2.length)
  numbers : pubs.map Prod.fst = List.range' 1 pubs.length
  sizes : (pubs.map fun p => p.2.length).Nodup
  file : ∀ file, v.tree.read path = .ok (some file) → ∃ r, (r, file.data) ∈ pubs
  blobs : ∀ r blob, v.tree.readRevisionBlob path r = .ok (some blob) → (r, blob.data) ∈ pubs
  holds : ∀ c ∈ calls, Holds deps path pubs v c
  stored : ∀ p ∈ pubs, Stored v path p.1 ∨ ∃ c ∈ calls, Owes p.1 c
  visible : pubs ≠ [] → (∃ file, v.tree.read path = .ok (some file)) ∨ ∃ c ∈ calls, Unseen c

namespace Kept

variable (kept : Kept deps path pubs v calls)

include kept

theorem revisions : (rowsOf v.rows path).map FsRevision.revision = List.range' 1 pubs.length := by
  have firsts := congrArg (List.map Prod.fst) kept.rows
  rw [List.map_map, List.map_map] at firsts
  exact firsts.trans kept.numbers

theorem head_eq : head v.rows path = (rowsOf v.rows path).getLast? := by
  apply head_eq_getLast?
  have rising : ((rowsOf v.rows path).map FsRevision.revision).Pairwise (· < ·) := by
    rw [kept.revisions]
    exact List.pairwise_lt_range'
  exact List.pairwise_map.mp rising

/-- The current revision is the number of publications. -/
theorem current_eq : current v.rows path = pubs.length := by
  unfold current
  rw [kept.head_eq, ← List.getLast?_map, kept.revisions]
  cases pubs.length with
  | zero => rfl
  | succ n => simp [List.range'_1_concat, Nat.add_comm]

theorem same_size {r r' : Nat} {d d' : Bytes} (here : (r, d) ∈ pubs) (there : (r', d') ∈ pubs)
    (size : d.length = d'.length) : r = r' ∧ d = d' :=
  Prod.mk.inj (List.inj_on_of_nodup_map kept.sizes here there size)

/-- The newest row is that of a publication. -/
theorem head_published {newest : FsRevision} (found : head v.rows path = some newest) :
    newest.revision = pubs.length ∧
      ∃ d, (newest.revision, d) ∈ pubs ∧ d.length = newest.size := by
  have last : newest.revision = pubs.length := by
    have top := kept.current_eq
    unfold current at top
    rw [found] at top
    exact top
  refine ⟨last, ?_⟩
  rw [kept.head_eq] at found
  have member := List.mem_map_of_mem (f := fun r => (r.revision, r.size))
    (List.mem_of_getLast? found)
  rw [kept.rows] at member
  obtain ⟨p, there, eq⟩ := List.mem_map.mp member
  obtain ⟨number, size⟩ := Prod.mk.inj eq
  exact ⟨p.2, number ▸ there, size⟩

theorem head_none (none' : head v.rows path = none) : pubs = [] := by
  have top := kept.current_eq
  unfold current at top
  rw [none'] at top
  exact List.length_eq_zero_iff.mp top.symm

end Kept

/-! ## What a move keeps -/

theorem exists_set {P : Await → Prop} (there : calls[i]? = some c) (passes : P c → P c')
    (any : ∃ x ∈ calls, P x) : ∃ x ∈ calls.set i c', P x := by
  obtain ⟨x, member, holds⟩ := any
  obtain ⟨j, at'⟩ := List.mem_iff_getElem?.mp member
  by_cases same : j = i
  · subst same
    rw [there] at at'
    obtain rfl := Option.some.inj at'
    exact ⟨c', List.mem_set (List.getElem?_eq_some_iff.mp there).1 c', passes holds⟩
  · refine ⟨x, List.mem_iff_getElem?.mpr ⟨j, ?_⟩, holds⟩
    rw [List.getElem?_set_ne (Ne.symm same)]
    exact at'

theorem forall_set {P : Await → Prop} (all : ∀ x ∈ calls, P x) (new : P c') :
    ∀ x ∈ calls.set i c', P x := by
  intro x member
  rcases List.mem_or_eq_of_mem_set member with old | rfl
  · exact all x old
  · exact new

namespace Kept

/-- A move that leaves the volume as it is. -/
theorem call (kept : Kept deps path pubs v calls) (there : calls[i]? = some c)
    (holds : Holds deps path pubs v c') (owes : ∀ r, Owes r c → Owes r c')
    (unseen : Unseen c → Unseen c') : Kept deps path pubs v (calls.set i c') :=
  { kept with
    holds := forall_set kept.holds holds
    stored := fun p member => (kept.stored p member).imp_right (exists_set there (owes p.1))
    visible := fun some' => (kept.visible some').imp_right (exists_set there unseen) }

/-- A move that writes published bytes over the visible file. -/
theorem write {data : Bytes} {tree : TenantTree} {entry : FsEntry} {contentType : Option String}
    {result : Result} (kept : Kept deps path pubs v calls) (there : calls[i]? = some c)
    (eq : v.tree.write deps.toRegistry path data contentType = .ok (tree, entry))
    (member : (r, data) ∈ pubs) (owes : ∀ r, ¬ Owes r c) :
    Kept deps path pubs { v with tree } (calls.set i (.done result)) where
  rows := kept.rows
  numbers := kept.numbers
  sizes := kept.sizes
  file := by
    intro file found
    rw [TenantTree.read_of_write eq] at found
    obtain rfl := Option.some.inj (Except.ok.inj found)
    exact ⟨r, member⟩
  blobs := by
    intro r' blob found
    rw [TenantTree.readRevisionBlob_of_write eq] at found
    exact kept.blobs r' blob found
  holds := by
    have blobs : ∀ r, Stored v path r → Stored { v with tree } path r := by
      intro r' stored
      unfold Stored
      rw [TenantTree.readRevisionBlob_of_write eq]
      exact stored
    refine forall_set (fun x old => ?_) trivial
    have same := (kept.holds x old).mono [] blobs
    rwa [List.append_nil] at same
  stored := by
    intro p published
    unfold Stored
    rw [TenantTree.readRevisionBlob_of_write eq]
    exact (kept.stored p published).imp_right (exists_set there fun owed => absurd owed (owes p.1))
  visible := fun _ => .inl ⟨_, TenantTree.read_of_write eq⟩

/-- A move that stores the blob of a revision. -/
theorem storeBlob {tree : TenantTree} (kept : Kept deps path pubs v calls)
    (there : calls[i]? = some (.blob input record))
    (eq : v.tree.writeRevisionBlob path record.revision input.data record.contentType = .ok tree) :
    Kept deps path pubs { v with tree } (calls.set i (.file input record)) := by
  have member : (record.revision, input.data) ∈ pubs :=
    kept.holds _ (List.mem_of_getElem? there)
  have reads := TenantTree.readRevisionBlob_of_writeRevisionBlob eq
  have own : Stored { v with tree } path record.revision := by
    have here := reads record.revision
    rw [if_pos rfl] at here
    obtain ⟨blob, found, -⟩ := here
    exact ⟨blob, found⟩
  have blobs : ∀ r, Stored v path r → Stored { v with tree } path r := by
    intro r stored
    by_cases same : r = record.revision
    · exact same ▸ own
    · have here := reads r
      rw [if_neg same] at here
      unfold Stored
      rw [here]
      exact stored
  refine ⟨kept.rows, kept.numbers, kept.sizes, ?_, ?_, ?_, ?_, ?_⟩
  · intro file found
    rw [TenantTree.read_of_writeRevisionBlob eq] at found
    exact kept.file file found
  · intro r blob found
    have here := reads r
    split at here
    · next same =>
        obtain ⟨blob', found', data⟩ := here
        rw [found] at found'
        obtain rfl := Option.some.inj (Except.ok.inj found')
        rw [same, data]
        exact member
    · rw [here] at found
      exact kept.blobs r blob found
  · refine forall_set (fun x old => ?_) ⟨member, own⟩
    have same := (kept.holds x old).mono [] blobs
    rwa [List.append_nil] at same
  · intro p published
    by_cases same : p.1 = record.revision
    · exact .inl (same ▸ own)
    · refine (kept.stored p published).imp (blobs p.1) (exists_set there fun owed => ?_)
      exact absurd owed.symm same
  · intro some'
    rw [TenantTree.read_of_writeRevisionBlob eq]
    exact (kept.visible some').imp_right (exists_set there fun _ => trivial)

/-- A move that claims a revision. -/
theorem claim {left : Nat} (kept : Kept deps path pubs v calls)
    (there : calls[i]? = some (.append input left record))
    (fresh : published v.rows record.path record.revision = false)
    (differ : ∀ row ∈ v.rows, row.path = path → row.revision ≠ record.revision →
      row.size ≠ record.size) :
    Kept deps path (pubs ++ [(record.revision, input.data)])
      { v with rows := v.rows ++ [record] } (calls.set i (.blob input record)) := by
  obtain ⟨n, le, rfl, -⟩ := kept.holds _ (List.mem_of_getElem? there)
  have unpublished : ∀ row ∈ rowsOf v.rows path, row.revision ≠ n + 1 := by
    intro row member same
    obtain ⟨inside, here⟩ := List.mem_filter.mp member
    exact List.any_eq_false.mp fresh row inside (decide_eq_true ⟨of_decide_eq_true here, same⟩)
  have next : n = pubs.length := by
    have none' : n + 1 ∉ (rowsOf v.rows path).map FsRevision.revision := by
      intro member
      obtain ⟨row, inside, same⟩ := List.mem_map.mp member
      exact unpublished row inside same
    rw [kept.revisions, List.mem_range'_1] at none'
    omega
  have rows' : rowsOf (v.rows ++ [input.record deps path (n + 1)]) path =
      rowsOf v.rows path ++ [input.record deps path (n + 1)] := by
    simp [rowsOf, Publish.record]
  have sizes : input.data.length ∉ pubs.map fun p => p.2.length := by
    intro member
    obtain ⟨p, published, same⟩ := List.mem_map.mp member
    have pair : (p.1, p.2.length) ∈ pubs.map fun p => (p.1, p.2.length) :=
      List.mem_map.mpr ⟨p, published, rfl⟩
    rw [← kept.rows] at pair
    obtain ⟨row, inside, eq⟩ := List.mem_map.mp pair
    obtain ⟨inRows, here⟩ := List.mem_filter.mp inside
    refine differ row inRows (by simpa using here) (unpublished row inside) ?_
    exact (Prod.mk.inj eq).2.trans same
  refine ⟨?_, ?_, ?_, ?_, ?_, ?_, ?_, ?_⟩
  · simp only [rows', List.map_append, kept.rows]
    rfl
  · rw [List.map_append, kept.numbers, List.length_append, List.length_singleton,
      List.range'_1_concat, next]
    simp [Publish.record, Nat.add_comm]
  · rw [List.map_append, List.nodup_append]
    refine ⟨kept.sizes, List.nodup_singleton _, ?_⟩
    intro a old b new same
    rw [List.map_singleton, List.mem_singleton] at new
    exact sizes (new ▸ same ▸ old)
  · intro file found
    obtain ⟨r, member⟩ := kept.file file found
    exact ⟨r, List.mem_append_left _ member⟩
  · intro r blob found
    exact List.mem_append_left _ (kept.blobs r blob found)
  · refine forall_set (fun x old => (kept.holds x old).mono _ fun _ stored => stored) ?_
    exact List.mem_append_right _ (List.mem_singleton_self _)
  · intro p member
    rcases List.mem_append.mp member with old | new
    · exact (kept.stored p old).imp_right (exists_set there False.elim)
    · obtain rfl := List.mem_singleton.mp new
      exact .inr ⟨_, List.mem_set (List.getElem?_eq_some_iff.mp there).1 _, rfl⟩
  · intro _
    exact .inr ⟨_, List.mem_set (List.getElem?_eq_some_iff.mp there).1 _, trivial⟩

end Kept

/-! ## One step -/

/-- The row an operation that returns may append. -/
def appending (s : System) : Event → Option FsRevision
  | .returns i => match s.calls[i]? with
      | some (.append _ _ record) => some record
      | _ => none
  | _ => none

/-- The revision whose blob an operation that returns reads. -/
def asking (s : System) : Event → Option Nat
  | .returns i => match s.calls[i]? with
      | some (.readBlob _ newest) => some newest.revision
      | _ => none
  | _ => none

/-- Two different revisions of the path never have the same byte size. -/
def SizesDiffer (path : String) (s : System) (e : Event) : Prop :=
  ∀ record ∈ appending s e, ∀ row ∈ s.volume.rows, row.path = path →
    row.revision ≠ record.revision → row.size ≠ record.size

/-- The blob a read asks for is stored. -/
def BlobThere (path : String) (s : System) (e : Event) : Prop :=
  ∀ r ∈ asking s e, Stored s.volume path r

def Sound (path : String) (s : System) (e : Event) : Prop :=
  SizesDiffer path s e ∧ BlobThere path s e

instance (path : String) (s : System) (e : Event) : Decidable (SizesDiffer path s e) :=
  inferInstanceAs (Decidable (∀ record ∈ appending s e, _))

instance (path : String) (s : System) (e : Event) : Decidable (BlobThere path s e) :=
  inferInstanceAs (Decidable (∀ r ∈ asking s e, _))

instance (path : String) (s : System) (e : Event) : Decidable (Sound path s e) :=
  inferInstanceAs (Decidable (_ ∧ _))

theorem Kept.move (kept : Kept deps path pubs v calls) (there : calls[i]? = some c)
    (move : Move deps path v c v' c' o)
    (differ : ∀ input left record, c = .append input left record →
      ∀ row ∈ v.rows, row.path = path → row.revision ≠ record.revision → row.size ≠ record.size) :
    Kept deps path (pubs ++ o.publication) v' (calls.set i c') := by
  have here : Holds deps path pubs v c := kept.holds c (List.mem_of_getElem? there)
  cases move with
  | claimed fresh => exact kept.claim there fresh (differ _ _ _ rfl)
  | stored eq => simpa [Outcome.publication] using kept.storeBlob there eq
  | wrote eq => simpa [Outcome.publication] using kept.write there eq here.1 fun _ => id
  | repaired eq => simpa [Outcome.publication] using kept.write there eq here fun _ => id
  | refused unclaimed =>
      simp only [Outcome.publication, List.append_nil]
      refine kept.call there trivial (fun r owed => ?_) fun unseen => absurd unseen unclaimed
      cases c with
      | blob => exact absurd trivial unclaimed
      | done result =>
          cases result with
          | threw claimed e =>
              cases claimed with
              | none => exact owed
              | some claimed => exact absurd trivial unclaimed
          | wrote | read => exact owed
      | head | append | file | innerRead | readHead | readBlob | repair => exact owed
  | head base =>
      simp only [Outcome.publication, List.append_nil]
      refine kept.call there ⟨pubs.length, le_rfl, ?_, ?_⟩ (fun _ => id) id
      · rw [kept.current_eq]
      · rw [← kept.current_eq]
        exact base
  | lost | absent | differs =>
      simp only [Outcome.publication, List.append_nil]
      exact kept.call there trivial (fun _ => id) id
  | blobThrew =>
      simp only [Outcome.publication, List.append_nil]
      exact kept.call there trivial (fun _ => id) id
  | fileThrew =>
      simp only [Outcome.publication, List.append_nil]
      exact kept.call there trivial (fun _ owed => owed.elim) id
  | readFile eq =>
      simp only [Outcome.publication, List.append_nil]
      exact kept.call there (kept.file _ eq) (fun _ => id) id
  | blobRead eq =>
      simp only [Outcome.publication, List.append_nil]
      exact kept.call there (kept.blobs _ _ eq) (fun _ => id) id
  | unlabelled | sameSize | blobMissing | unrepaired =>
      simp only [Outcome.publication, List.append_nil]
      exact kept.call there trivial (fun _ => id) id

/-- How a call begins. -/
inductive Begun : Event → Await → Outcome → Prop
  | write {input : Publish} {left : Nat} : Begun (.write input) (.head input left) .waits
  | refused {input : Publish} {e : AppError} :
      Begun (.write input) (.done (.threw none e)) (.returned (.threw none e))
  | read : Begun .read .innerRead .waits

theorem beginWrite_begun (deps : Deps) (path : String) (input : Publish) :
    Begun (.write input) (beginWrite deps path input).1 (beginWrite deps path input).2 := by
  unfold beginWrite
  split
  · exact .write
  · exact .refused

/-- A call begins, or the operation of one returns or throws. -/
theorem machine_cases {e : Event} (eq : machine deps path s e = some (t, o)) :
    (∃ c, Begun e c o ∧ t = ⟨s.volume, s.calls ++ [c]⟩) ∨
    (∃ i c c' v, e = .returns i ∧ s.calls[i]? = some c ∧ Move deps path s.volume c v c' o ∧
      t = ⟨v, s.calls.set i c'⟩) ∨
    (∃ i error c c', e = .fails i error ∧ s.calls[i]? = some c ∧
      interrupt path error c = some (c', o) ∧ t = ⟨s.volume, s.calls.set i c'⟩) := by
  cases e with
  | write input =>
      obtain ⟨rfl, rfl⟩ := Prod.mk.inj (Option.some.inj eq)
      exact .inl ⟨_, beginWrite_begun deps path input, rfl⟩
  | read =>
      obtain ⟨rfl, rfl⟩ := Prod.mk.inj (Option.some.inj eq)
      exact .inl ⟨_, .read, rfl⟩
  | returns i =>
      simp only [machine] at eq
      split at eq
      · cases eq
      · next c there =>
          obtain ⟨⟨v, c', o'⟩, resumed, same⟩ := Option.map_eq_some_iff.mp eq
          obtain ⟨rfl, rfl⟩ := Prod.mk.inj same
          exact .inr (.inl ⟨i, c, c', v, rfl, there, resume_move resumed, rfl⟩)
  | fails i error =>
      simp only [machine] at eq
      split at eq
      · cases eq
      · next c there =>
          obtain ⟨⟨c', o'⟩, interrupted, same⟩ := Option.map_eq_some_iff.mp eq
          obtain ⟨rfl, rfl⟩ := Prod.mk.inj same
          exact .inr (.inr ⟨i, error, c, c', rfl, there, interrupted, rfl⟩)

theorem Begun.publication {e : Event} (begun : Begun e c o) : o.publication = [] := by
  cases begun <;> rfl

theorem Kept.begin (kept : Kept deps path pubs v calls) {e : Event} (begun : Begun e c o) :
    Kept deps path (pubs ++ o.publication) v (calls ++ [c]) := by
  have more : ∀ {P : Await → Prop}, (∃ x ∈ calls, P x) → ∃ x ∈ calls ++ [c], P x := by
    intro P any
    obtain ⟨x, member, holds⟩ := any
    exact ⟨x, List.mem_append_left _ member, holds⟩
  rw [begun.publication, List.append_nil]
  exact { kept with
    holds := by
      intro x member
      rcases List.mem_append.mp member with old | new
      · exact kept.holds x old
      · rw [List.mem_singleton.mp new]
        cases begun <;> trivial
    stored := fun p member => (kept.stored p member).imp_right more
    visible := fun some' => (kept.visible some').imp_right more }

theorem publications_append (log : List (Event × Outcome)) (e : Event) (o : Outcome) :
    publications (log ++ [(e, o)]) = publications log ++ o.publication := by
  simp [publications]

theorem Kept.step {e : Event} (kept : Kept deps path (publications log) s.volume s.calls)
    (differ : SizesDiffer path s e) (eq : machine deps path s e = some (t, o)) :
    Kept deps path (publications (log ++ [(e, o)])) t.volume t.calls := by
  rw [publications_append]
  rcases machine_cases eq with ⟨c, begun, rfl⟩ | ⟨i, c, c', v, rfl, there, move, rfl⟩ |
    ⟨i, error, c, c', rfl, there, interrupted, rfl⟩
  · exact kept.begin begun
  · refine kept.move there move fun input left record append => ?_
    exact differ record (by simp [appending, there, append])
  · have move : Move deps path s.volume c s.volume c' o := interrupt_move interrupted
    cases c with
    | append input left record =>
        -- an append that throws claims nothing
        rcases appendThrew_cases (Option.some.inj interrupted) with
          ⟨left', rfl, rfl⟩ | ⟨e', rfl, rfl⟩
        · simp only [Outcome.publication, List.append_nil]
          exact kept.call there trivial (fun _ => id) id
        · simp only [Outcome.publication, List.append_nil]
          exact kept.call there trivial (fun _ => id) id
    | head | blob | file | innerRead | readHead | readBlob | repair | done =>
        exact kept.move there move fun _ _ _ append => by cases append

/-! ## What a read answers -/

theorem Kept.answer {file : FsFile} (kept : Kept deps path pubs v calls)
    (there : calls[i]? = some c) (move : Move deps path v c v' c' (.returned (.read (some file))))
    (blobs : ∀ file newest, c = .readBlob file newest → Stored v path newest.revision)
    (label : file.entry.revision = some r) : (r, file.data) ∈ pubs := by
  have here : Holds deps path pubs v c := kept.holds c (List.mem_of_getElem? there)
  cases move with
  | unlabelled eq =>
      obtain ⟨r', member⟩ := here
      rw [kept.head_none eq] at member
      exact absurd member List.not_mem_nil
  | sameSize eq size =>
      obtain ⟨r', member⟩ := here
      obtain ⟨-, d, published, length⟩ := kept.head_published eq
      obtain ⟨number, -⟩ := kept.same_size member published (size.symm.trans length.symm)
      obtain rfl := Option.some.inj label
      exact number ▸ member
  | blobMissing eq =>
      obtain ⟨blob, stored⟩ := blobs _ _ rfl
      rw [eq] at stored
      cases stored
  | repaired eq =>
      obtain rfl := Option.some.inj label
      exact here
  | unrepaired =>
      obtain rfl := Option.some.inj label
      exact here

theorem Kept.step_answer {e : Event} {file : FsFile}
    (kept : Kept deps path pubs s.volume s.calls) (blobs : BlobThere path s e)
    (eq : machine deps path s e = some (t, .returned (.read (some file))))
    (label : file.entry.revision = some r) : (r, file.data) ∈ pubs := by
  rcases machine_cases eq with ⟨c, begun, rfl⟩ | ⟨i, c, c', v, rfl, there, move, rfl⟩ |
    ⟨i, error, c, c', rfl, there, interrupted, rfl⟩
  · cases begun
  · refine kept.answer there move (fun file newest asked => ?_) label
    exact blobs newest.revision (by simp [asking, there, asked])
  · refine kept.answer there (interrupt_move interrupted) (fun file newest asked => ?_) label
    subst asked
    cases interrupted

/-- A write claims the number after its base. -/
theorem Kept.step_base {e : Event} {b : Nat} (kept : Kept deps path pubs s.volume s.calls)
    (eq : machine deps path s e = some (t, .published input record))
    (based : input.opts.baseRevision = some b) : record.revision = b + 1 := by
  have all : ∀ {c c' v}, c ∈ s.calls → Move deps path s.volume c v c' (.published input record) →
      record.revision = b + 1 := by
    intro c c' v member move
    have here : Holds deps path pubs s.volume c := kept.holds c member
    cases move with
    | claimed fresh =>
        obtain ⟨n, -, rfl, base⟩ := here
        rw [base b based]
        rfl
  rcases machine_cases eq with ⟨c, begun, rfl⟩ | ⟨i, c, c', v, rfl, there, move, rfl⟩ |
    ⟨i, error, c, c', rfl, there, interrupted, rfl⟩
  · cases begun
  · exact all (List.mem_of_getElem? there) move
  · exact all (List.mem_of_getElem? there) (interrupt_move interrupted)

/-! ## Reads after all calls have returned -/

/-- A call of a read, with the newest row if it holds one. -/
def Latest (n : Nat) : Await → Prop
  | .readBlob _ newest | .repair _ newest => newest.revision = n
  | .head _ _ | .append _ _ _ | .blob _ _ | .file _ _ => False
  | .innerRead | .readHead _ | .done _ => True

/-- All is published that is claimed, and only reads are under way. -/
structure Reading (deps : Deps) (path : String) (pubs : List (Nat × Bytes)) (v : Volume)
    (calls : List Await) : Prop where
  kept : Kept deps path pubs v calls
  stored : ∀ p ∈ pubs, Stored v path p.1
  visible : pubs ≠ [] → ∃ file, v.tree.read path = .ok (some file)
  latest : ∀ c ∈ calls, Latest pubs.length c

def ReadsOnly : System → Event → Prop
  | _, .write _ => False
  | _, _ => True

/-- What a read answers of the newest publication. -/
def AnswersNewest (pubs : List (Nat × Bytes)) (file? : Option FsFile) : Prop :=
  pubs ≠ [] → ∃ file, file? = some file ∧ file.entry.revision = some pubs.length ∧
    (pubs.length, file.data) ∈ pubs

theorem Reading.set (reading : Reading deps path pubs v calls)
    (kept : Kept deps path pubs v (calls.set i c')) (latest : Latest pubs.length c') :
    Reading deps path pubs v (calls.set i c') :=
  ⟨kept, reading.stored, reading.visible, forall_set reading.latest latest⟩

theorem Reading.move (reading : Reading deps path pubs v calls) (there : calls[i]? = some c)
    (move : Move deps path v c v' c' o) :
    o.publication = [] ∧ Reading deps path pubs v' (calls.set i c') ∧
      ∀ file?, o = .returned (.read file?) → AnswersNewest pubs file? := by
  have member := List.mem_of_getElem? there
  have latest : Latest pubs.length c := reading.latest c member
  have here : Holds deps path pubs v c := reading.kept.holds c member
  have kept : o.publication = [] → Kept deps path pubs v' (calls.set i c') := by
    intro none'
    have moved := reading.kept.move there move fun input left record append => by
      rw [append] at latest
      exact latest.elim
    rwa [none', List.append_nil] at moved
  cases move with
  | head | lost | claimed | stored | blobThrew | wrote | fileThrew => exact latest.elim
  | refused unclaimed =>
      refine ⟨rfl, reading.set (kept rfl) trivial, ?_⟩
      intro file? answered
      cases answered
  | readFile eq =>
      refine ⟨rfl, reading.set (kept rfl) trivial, ?_⟩
      intro file? answered
      cases answered
  | absent eq =>
      refine ⟨rfl, reading.set (kept rfl) trivial, ?_⟩
      intro file? _ some'
      obtain ⟨file, found⟩ := reading.visible some'
      rw [eq] at found
      cases found
  | unlabelled eq =>
      refine ⟨rfl, reading.set (kept rfl) trivial, ?_⟩
      intro file? _ some'
      exact absurd (reading.kept.head_none eq) some'
  | @sameSize file newest eq size =>
      refine ⟨rfl, reading.set (kept rfl) trivial, ?_⟩
      intro file? answered _
      cases answered
      obtain ⟨last, d, published, length⟩ := reading.kept.head_published eq
      obtain ⟨r', inside⟩ := here
      obtain ⟨number, -⟩ := reading.kept.same_size inside published (size.symm.trans length.symm)
      exact ⟨_, rfl, by rw [← last]; rfl, by rw [← last, ← number]; exact inside⟩
  | differs eq =>
      refine ⟨rfl, reading.set (kept rfl) ?_, ?_⟩
      · exact (reading.kept.head_published eq).1
      · intro file? answered
        cases answered
  | blobRead eq =>
      refine ⟨rfl, reading.set (kept rfl) latest, ?_⟩
      intro file? answered
      cases answered
  | @blobMissing file newest eq =>
      refine ⟨rfl, reading.set (kept rfl) trivial, ?_⟩
      intro file? _ some'
      -- the newest publication has its blob
      have top : pubs.length ∈ pubs.map Prod.fst := by
        rw [reading.kept.numbers, List.mem_range'_1]
        have pos := List.length_pos_iff.mpr some'
        omega
      obtain ⟨p, published, number⟩ := List.mem_map.mp top
      obtain ⟨blob, found⟩ := reading.stored p published
      rw [number, ← show newest.revision = pubs.length from latest, eq] at found
      cases found
  | @repaired published newest tree entry eq =>
      refine ⟨rfl, ⟨kept rfl, fun p member => ?_, fun _ => ⟨_, TenantTree.read_of_write eq⟩,
        forall_set reading.latest trivial⟩, ?_⟩
      · unfold Stored
        rw [TenantTree.readRevisionBlob_of_write eq]
        exact reading.stored p member
      · intro file? answered _
        cases answered
        have last : newest.revision = pubs.length := latest
        exact ⟨_, rfl, by rw [← last]; rfl, by rw [← last]; exact here⟩
  | @unrepaired published newest =>
      refine ⟨rfl, reading.set (kept rfl) trivial, ?_⟩
      intro file? answered _
      cases answered
      have last : newest.revision = pubs.length := latest
      exact ⟨_, rfl, by rw [← last]; rfl, by rw [← last]; exact here⟩

theorem Reading.step {e : Event} (reading : Reading deps path pubs s.volume s.calls)
    (only : ReadsOnly s e) (eq : machine deps path s e = some (t, o)) :
    Reading deps path pubs t.volume t.calls ∧
      ∀ file?, o = .returned (.read file?) → AnswersNewest pubs file? := by
  rcases machine_cases eq with ⟨c, begun, rfl⟩ | ⟨i, c, c', v, rfl, there, move, rfl⟩ |
    ⟨i, error, c, c', rfl, there, interrupted, rfl⟩
  · have kept := reading.kept.begin begun
    rw [begun.publication, List.append_nil] at kept
    cases begun with
    | write | refused => exact only.elim
    | read =>
        refine ⟨⟨kept, reading.stored, reading.visible, fun x member => ?_⟩, ?_⟩
        · rcases List.mem_append.mp member with old | new
          · exact reading.latest x old
          · rw [List.mem_singleton.mp new]
            trivial
        · intro file? answered
          cases answered
  · exact (reading.move there move).2
  · exact (reading.move there (interrupt_move interrupted)).2

/-- A call has ended, and it did not throw once it had claimed a revision. -/
def Await.returned : Await → Bool
  | .done (.threw (some _) _) => false
  | .done _ => true
  | _ => false

def Settled (s : System) : Prop := ∀ c ∈ s.calls, c.returned = true

instance (s : System) : Decidable (Settled s) := List.decidableBAll _ s.calls

theorem Kept.settled (kept : Kept deps path pubs s.volume s.calls) (settled : Settled s) :
    Reading deps path pubs s.volume s.calls := by
  have none' : ∀ c ∈ s.calls, ¬ Unseen c ∧ (∀ r, ¬ Owes r c) ∧ Latest pubs.length c := by
    intro c member
    have returned := settled c member
    cases c with
    | done result =>
        cases result with
        | wrote | read => exact ⟨id, fun _ => id, trivial⟩
        | threw claimed e =>
            cases claimed with
            | none => exact ⟨id, fun _ => id, trivial⟩
            | some r => cases returned
    | head | append | blob | file | innerRead | readHead | readBlob | repair => cases returned
  refine ⟨kept, fun p published => ?_, fun some' => ?_, fun c member => (none' c member).2.2⟩
  · rcases kept.stored p published with stored | ⟨c, member, owed⟩
    · exact stored
    · exact absurd owed ((none' c member).2.1 p.1)
  · rcases kept.visible some' with visible | ⟨c, member, unseen⟩
    · exact visible
    · exact absurd unseen (none' c member).1

/-! ## Runs -/

/-- Nothing was written to the path yet. -/
structure Fresh (path : String) (v : Volume) : Prop where
  rows : rowsOf v.rows path = []
  file : ∀ file, v.tree.read path ≠ .ok (some file)
  blobs : ∀ r blob, v.tree.readRevisionBlob path r ≠ .ok (some blob)

theorem Fresh.kept (fresh : Fresh path v) : Kept deps path (publications []) v [] where
  rows := by rw [fresh.rows]; rfl
  numbers := rfl
  sizes := List.nodup_nil
  file file found := absurd found (fresh.file file)
  blobs r blob found := absurd found (fresh.blobs r blob)
  holds _ member := absurd member List.not_mem_nil
  stored _ member := absurd member List.not_mem_nil
  visible some' := absurd rfl some'

/-- What a run says of its reads and writes: a read labelled with a revision has the bytes
published under it, the revisions are published in the order of their numbers, a write with a base
publishes the number after it, and once all calls have returned every read answers the newest
revision. -/
structure Labelled (deps : Deps) (path : String) (log : List (Event × Outcome)) (s : System) :
    Prop where
  bytes : ∀ e ∈ log, ∀ file r, e.2 = .returned (.read (some file)) →
    file.entry.revision = some r → (r, file.data) ∈ publications log
  numbers : (publications log).map Prod.fst = List.range' 1 (publications log).length
  based : ∀ e ∈ log, ∀ input record b, e.2 = .published input record →
    input.opts.baseRevision = some b → record.revision = b + 1
  newest : Settled s → ∀ rest t, Runs (machine deps path) ReadsOnly s rest t → ∀ e ∈ rest,
    ∀ file?, e.2 = .returned (.read file?) → AnswersNewest (publications log) file?

theorem Reading.run (reading : Reading deps path pubs s.volume s.calls)
    (run : Runs (machine deps path) ReadsOnly s log t) :
    ∀ e ∈ log, ∀ file?, e.2 = .returned (.read file?) → AnswersNewest pubs file? := by
  have all := run.invariant
    (I := fun log t => Reading deps path pubs t.volume t.calls ∧
      ∀ e ∈ log, ∀ file?, e.2 = .returned (.read file?) → AnswersNewest pubs file?)
    ⟨reading, fun _ member => absurd member List.not_mem_nil⟩ ?_
  · exact all.2
  · intro log s e t o before only eq
    obtain ⟨next, answers⟩ := before.1.step only eq
    refine ⟨next, fun x member => ?_⟩
    rcases List.mem_append.mp member with old | new
    · exact before.2 x old
    · rw [List.mem_singleton.mp new]
      exact answers

/-- In a run whose reads find the blobs they ask for, a read labelled with a revision is that
revision. -/
theorem labelled_reads {start : Volume} (fresh : Fresh path start)
    (run : Runs (machine deps path) (Sound path) ⟨start, []⟩ log s) :
    Labelled deps path log s := by
  have all := run.invariant
    (I := fun log s => Kept deps path (publications log) s.volume s.calls ∧
      (∀ e ∈ log, ∀ file r, e.2 = .returned (.read (some file)) →
        file.entry.revision = some r → (r, file.data) ∈ publications log) ∧
      ∀ e ∈ log, ∀ input record b, e.2 = .published input record →
        input.opts.baseRevision = some b → record.revision = b + 1)
    ⟨fresh.kept, fun _ member => absurd member List.not_mem_nil,
      fun _ member => absurd member List.not_mem_nil⟩ ?_
  · obtain ⟨kept, bytes, based⟩ := all
    exact ⟨bytes, kept.numbers, based, fun settled rest t after =>
      (kept.settled settled).run after⟩
  · intro log s e t o before sound eq
    obtain ⟨kept, bytes, based⟩ := before
    have more : ∀ p ∈ publications log, p ∈ publications (log ++ [(e, o)]) := by
      intro p member
      rw [publications_append]
      exact List.mem_append_left _ member
    refine ⟨kept.step sound.1 eq, fun x member file r answered label => ?_,
      fun x member input record b published base => ?_⟩
    · rcases List.mem_append.mp member with old | new
      · exact more _ (bytes x old file r answered label)
      · rw [List.mem_singleton.mp new] at answered
        obtain rfl : o = .returned (.read (some file)) := answered
        exact more _ (kept.step_answer sound.2 eq label)
    · rcases List.mem_append.mp member with old | new
      · exact based x old input record b published base
      · rw [List.mem_singleton.mp new] at published
        obtain rfl : o = .published input record := published
        exact kept.step_base eq base

/-! ## Two runs -/

def emptyVolume : Volume := ⟨TenantTree.empty, []⟩

theorem fresh_empty (path : String) : Fresh path emptyVolume where
  rows := rfl
  file file found := by
    obtain ⟨p, stored, -, there, -⟩ := TenantTree.read_eq_some found
    cases there
  blobs r blob found := by
    obtain ⟨p, hit, -, there, -⟩ := TenantTree.readRevisionBlob_eq_some found
    cases there

def sampleWrite (data : Bytes) (baseRevision : Option Nat) : Event :=
  .write ⟨data, none, ⟨none, baseRevision, none, none⟩⟩

/-- Two writes, the second on the first, and a read that falls before the second visible write: it
finds the blob and repairs the file. -/
theorem labelled_reads_two_writes :
    ∃ log s, Runs (machine plainDeps "notes.md") (Sound "notes.md") ⟨emptyVolume, []⟩ log s ∧
      Settled s ∧ Labelled plainDeps "notes.md" log s := by
  have r : Runs (machine plainDeps "notes.md") (Sound "notes.md") ⟨emptyVolume, []⟩ _ _ :=
    runs_of_exec _ _ _
      [sampleWrite [97] none, .returns 0, .returns 0, .returns 0, .returns 0,
        sampleWrite [98, 99] (some 1), .returns 1, .returns 1, .read, .returns 2, .returns 2,
        .returns 1, .returns 2, .returns 2, .returns 1] rfl
  exact ⟨_, _, r, by decide +kernel, labelled_reads (fresh_empty "notes.md") r⟩

/-- A read falls between the row of the second revision and its blob: it answers the bytes of the
first under the number of the second. -/
theorem row_before_blob :
    ∃ log s, Runs (machine plainDeps "notes.md") (SizesDiffer "notes.md") ⟨emptyVolume, []⟩ log s ∧
      ∃ e ∈ log, ∃ file r, e.2 = .returned (.read (some file)) ∧ file.entry.revision = some r ∧
        (r, file.data) ∉ publications log := by
  have r : Runs (machine plainDeps "notes.md") (SizesDiffer "notes.md") ⟨emptyVolume, []⟩ _ _ :=
    runs_of_exec _ _ _
      [sampleWrite [97] none, .returns 0, .returns 0, .returns 0, .returns 0,
        sampleWrite [98, 99] none, .returns 1, .returns 1, .read, .returns 2, .returns 2,
        .returns 2] rfl
  refine ⟨_, _, r, _, List.mem_of_getLast? rfl, _, _, rfl, rfl, ?_⟩
  decide +kernel

end Everdict.WorkspaceFs
