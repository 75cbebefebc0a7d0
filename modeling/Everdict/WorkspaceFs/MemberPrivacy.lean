import Everdict.WorkspaceFs.Blindness
import Everdict.WorkspaceFs.Service

/-!
# What a scoped service does not see

Every method of the versioned filesystem is shielded from the files of a predicate where it names
none of them.  Under the scoped port, which lets a path through by the owner it is spelled with,
that leaves the paths that name a hidden file in another spelling (`Named`), the subtrees of a
remove and a move (`Unremoved`, `Unmoved`), and nothing else: `Shields` is what the service needs
of its port, and each of its methods is shielded by it.
-/

namespace Everdict.WorkspaceFs

open Text TenantTree Everdict.WorkspaceFs.Action

variable {hidden : String → Bool} {v : Volume} {path from' to' : String} {deps : Deps}
  {ledger : Ledger}

/-! ## The versioned filesystem -/

/-- An entry that is no hidden file. -/
def Shows (hidden : String → Bool) (entry : FsEntry) : Prop := hidden entry.path = false

theorem stat_eq_some {tree : TenantTree} {entry : FsEntry}
    (eq : tree.stat path = .ok (some entry)) :
    normalizeFsPath path = .ok entry.path ∧ (entry.kind = .file → entry.path ≠ "") := by
  unfold TenantTree.stat at eq
  rcases canonical : normalizeFsPath path with e | p
  · rw [canonical] at eq
    cases eq
  rw [canonical] at eq
  simp only [bind, Except.bind] at eq
  split at eq
  · next root =>
      obtain rfl := Option.some.inj (Except.ok.inj eq)
      exact ⟨congrArg Except.ok root, fun kind => (by cases kind)⟩
  next proper =>
    split at eq
    · obtain rfl := Option.some.inj (Except.ok.inj eq)
      exact ⟨rfl, fun _ => proper⟩
    · have eq := Except.ok.inj eq
      split at eq
      · obtain rfl := Option.some.inj eq
        exact ⟨rfl, fun kind => (by cases kind)⟩
      · cases eq

theorem head_unhidden {rows : Rows} (plain : hidden (canonicalOf path) = false) :
    head (unhidden hidden rows) path = head rows path := by
  unfold head
  rw [forPath_unhidden plain]

theorem stat_shielded (intact : Intact hidden v.tree) (plain : hidden (canonicalOf path) = false) :
    Shielded hidden (fun o => ∀ e, o = some e → Shows hidden e) v
      (RevisionedWorkspaceFs.stat path) := by
  unfold RevisionedWorkspaceFs.stat
  refine Shielded.bind (.reads intact (stat_blank plain) fun _ eq => eq) ?_
  intro o _ eq intact
  cases o with
  | none => exact .pure intact fun _ none => (by cases none)
  | some entry =>
      obtain ⟨canonical, proper⟩ := stat_eq_some eq
      have shows : Shows hidden entry := plain_of_normalizeFsPath canonical plain
      dsimp only
      split
      · exact .pure intact fun e same => Option.some.inj same ▸ shows
      · next file =>
          have file : entry.kind = .file := not_not.mp file
          have clean := isCanonical_of_normalizeFsPath canonical (proper file)
          have plain' : hidden (canonicalOf entry.path) = false := by
            rw [clean.canonicalOf_eq]
            exact shows
          refine Shielded.bind (Q := fun _ => True)
            (.queries intact (head_unhidden plain') trivial) ?_
          intro row _ _ intact
          cases row with
          | none => exact .pure intact fun e same => Option.some.inj same ▸ shows
          | some row => exact .pure intact fun e same => Option.some.inj same ▸ shows

theorem read_shielded (intact : Intact hidden v.tree) (plain : hidden (canonicalOf path) = false) :
    Shielded hidden (fun o => ∀ file : FsFile, o = some file → Shows hidden file.entry) v
      (RevisionedWorkspaceFs.read deps path) := by
  unfold RevisionedWorkspaceFs.read
  refine Shielded.bind (.reads intact (read_blank plain) fun _ eq => eq) ?_
  intro o _ eq intact
  cases o with
  | none => exact .pure intact fun _ none => (by cases none)
  | some file =>
      obtain ⟨p, stored, canonical, -, rfl⟩ := read_eq_some eq
      have shows : Shows hidden (fileEntry p stored) := plain_of_normalizeFsPath canonical plain
      refine Shielded.bind (Q := fun _ => True) (.queries intact (head_unhidden plain) trivial) ?_
      intro row _ _ intact
      cases row with
      | none => exact .pure intact fun e same => Option.some.inj same ▸ shows
      | some row =>
          dsimp only
          split
          · exact .pure intact fun e same => Option.some.inj same ▸ shows
          · refine Shielded.bind (.reads intact (readRevisionBlob_blank plain row.revision)
              fun _ eq => eq) ?_
            intro blob _ found intact
            cases blob with
            | none => exact .pure intact fun e same => Option.some.inj same ▸ shows
            | some blob =>
                obtain ⟨p', hit, canonical', -, rfl⟩ := readRevisionBlob_eq_some found
                have shows' : Shows hidden (fileEntry p' hit) :=
                  plain_of_normalizeFsPath canonical' plain
                refine Shielded.bind (Q := fun _ => True) (.tryCatch ?_ ?_) ?_
                · refine Shielded.bind (.writes intact (write_guarded intact plain)) ?_
                  intro _ _ _ intact
                  exact .pure intact trivial
                · intro _ intact
                  exact .pure intact trivial
                · intro _ _ _ intact
                  exact .pure intact fun e same => Option.some.inj same ▸ shows'

theorem readRevisionBlob_shielded (intact : Intact hidden v.tree)
    (plain : hidden (canonicalOf path) = false) (revision : Nat) :
    Shielded hidden (fun o => ∀ blob : FsFile, o = some blob → Shows hidden blob.entry) v
      (RevisionedWorkspaceFs.readRevisionBlob path revision) := by
  refine .reads intact (readRevisionBlob_blank plain revision) ?_
  rintro o eq blob rfl
  obtain ⟨p, hit, canonical, -, rfl⟩ := readRevisionBlob_eq_some eq
  exact plain_of_normalizeFsPath canonical plain

/-- A number that is claimed is claimed by a row of the path; every attempt is shielded. -/
theorem publish_shielded (plain : hidden (canonicalOf path) = false) (input : Publish)
    (left : Nat) (intact : Intact hidden v.tree) :
    Shielded hidden (Shows hidden) v
      (RevisionedWorkspaceFs.publish deps ledger.store path input left) := by
  induction left generalizing v with
  | zero => exact .throw intact
  | succ left ih =>
      unfold RevisionedWorkspaceFs.publish
      have same : current (unhidden hidden v.rows) path = current v.rows path := by
        unfold current
        rw [head_unhidden plain]
      refine Shielded.bind (Q := fun _ => True) (.queries intact same trivial) ?_
      intro current _ _ intact
      split
      · exact .throw intact
      · have mine : isHidden hidden (input.record deps path (current + 1)) = false := plain
        refine Shielded.bind (Q := fun _ => True) (.tryCatch ?_ ?_) ?_
        · refine Shielded.bind (.records intact (append_keeping ledger mine)) ?_
          intro _ _ _ intact
          exact .pure intact trivial
        · intro e intact
          exact .pure intact trivial
        · intro lost _ _ intact
          cases lost with
          | none =>
              refine Shielded.bind (.writes intact (writeRevisionBlob_guarded intact plain)) ?_
              intro _ _ _ intact
              refine Shielded.bind (.writes intact (write_guarded intact plain)) ?_
              intro entry _ shows intact
              exact .pure intact shows
          | some e =>
              dsimp only
              split
              · exact .throw intact
              · split
                · exact .throw intact
                · exact ih intact

theorem write_shielded (intact : Intact hidden v.tree) (plain : hidden (canonicalOf path) = false)
    (input : Publish) :
    Shielded hidden (Shows hidden) v
      (RevisionedWorkspaceFs.write deps ledger.store path input) := by
  unfold RevisionedWorkspaceFs.write
  refine Shielded.bind (.checks intact fun _ _ => trivial) ?_
  intro _ _ _ intact
  exact publish_shielded plain input attempts intact

/-- The subtree of a move that the tree accepts holds no hidden file, and the rename takes no row
of one. -/
def Unmoved (hidden : String → Bool) (ledger : Ledger) (v : Volume) (from' to' : String) : Prop :=
  ∀ moved, v.tree.move from' to' = .ok moved →
    (∀ key, hidden key = true → below (canonicalOf from') key = false) ∧
      ∀ row ∈ v.rows, isHidden hidden row = true → ledger.selects from' row.path = false

theorem guardMove_shielded (intact : Intact hidden v.tree)
    (plain : hidden (canonicalOf from') = false) :
    Shielded hidden (fun _ => True) v (RevisionedWorkspaceFs.guardMove deps from' to') := by
  unfold RevisionedWorkspaceFs.guardMove
  split
  · refine Shielded.bind (.reads intact (read_blank plain) fun _ _ => trivial) ?_
    intro file _ _ intact
    cases file with
    | none => exact .pure intact trivial
    | some file => exact .checks intact fun _ _ => trivial
  · exact .pure intact trivial

theorem guardMove_same (v : Volume) :
    (RevisionedWorkspaceFs.guardMove deps from' to' v).2 = v := by
  unfold RevisionedWorkspaceFs.guardMove
  split
  · rcases read : v.tree.read from' with e | o
    · have refused : Action.reads (fun tree => tree.read from') v = (.error e, v) :=
        congrArg (·, v) read
      rw [bind_apply, refused]
    · have answered : Action.reads (fun tree => tree.read from') v = (.ok o, v) :=
        congrArg (·, v) read
      rw [bind_apply, answered]
      cases o <;> rfl
  · rfl

theorem move_shielded (intact : Intact hidden v.tree)
    (plain : hidden (canonicalOf from') = false) (unmoved : Unmoved hidden ledger v from' to') :
    Shielded hidden (Shows hidden) v
      (RevisionedWorkspaceFs.move deps ledger.store from' to') := by
  unfold RevisionedWorkspaceFs.move
  refine Shielded.bind (guardMove_shielded intact plain) ?_
  intro _ _ _ _
  rw [guardMove_same]
  have guarded := move_guarded intact plain fun moved eq => (unmoved moved eq).1
  rcases move_cases hidden v.tree from' to' with ⟨e, refused, -⟩ | ⟨src, dst, targets, moved, -⟩
  · refine Shielded.bind (.writes intact guarded) ?_
    intro entry answered
    unfold Action.writes at answered
    dsimp only at answered
    rw [refused] at answered
    cases answered
  · refine Shielded.bind (.writes intact guarded) ?_
    intro entry _ shows intact'
    have rows : (Action.writes (fun tree => tree.move from' to') v).2.rows = v.rows := by
      unfold Action.writes
      dsimp only
      rw [moved]
    have keeping := rename_keeping ledger targets intact (unmoved _ moved).2
    rw [← rows] at keeping
    refine Shielded.bind (.records intact' keeping) ?_
    intro _ _ _ intact
    exact .pure intact shows

theorem reads_bind_pure {α β : Type} (op : TenantTree → Except AppError α) (f : α → β) :
    (Action.reads op >>= fun a => pure (f a)) = Action.reads fun tree => (op tree).map f := by
  funext w
  rw [bind_apply]
  unfold Action.reads
  dsimp only
  generalize op w.tree = r
  cases r <;> rfl

theorem list_shielded (intact : Intact hidden v.tree) {keep : String → Bool} {dir : String}
    (unkept : ∀ path, hidden path = true → keep path = false) :
    Shielded hidden
      (fun entries => ∀ e ∈ entries, Shows hidden e ∧ (e.kind = .file → IsCanonical e.path)) v
      (RevisionedWorkspaceFs.list deps dir >>= fun entries =>
        pure (entries.filter fun e => keep e.path)) := by
  unfold RevisionedWorkspaceFs.list
  rw [reads_bind_pure]
  refine .reads intact (list_blank deps.toRegistry unkept) ?_
  intro kept eq e member
  rcases listed : v.tree.list deps.toRegistry dir with _ | entries
  · rw [listed] at eq
    cases eq
  rw [listed] at eq
  obtain rfl := Except.ok.inj eq
  obtain ⟨inside, kept⟩ := List.mem_filter.mp member
  refine ⟨?_, fun file => intact.clean e.path (list_files listed e inside file)⟩
  by_contra secret
  have out := unkept e.path (by simpa [Shows] using secret)
  rw [out] at kept
  cases kept

/-! ## The scoped port -/

section Scope

variable {viewer : Option String}

/-- A path that the scope lets through names no hidden file. -/
def Named (hidden : String → Bool) (viewer : Option String) (path : String) : Prop :=
  mine viewer path = true → hidden (canonicalOf path) = false

theorem Shielded.required {α : Type} {Q : α → Prop} {x : Action α} (intact : Intact hidden v.tree)
    (inner : mine viewer path = true → Shielded hidden Q v x) :
    Shielded hidden Q v (MemberScopedWorkspaceFs.requireMine viewer path >>= fun _ => x) := by
  unfold MemberScopedWorkspaceFs.requireMine
  split
  · next let' =>
      refine Shielded.bind (Q := fun _ => True) (.pure intact trivial) ?_
      intro _ _ _ _
      exact inner let'
  · refine Shielded.bind (Q := fun _ => True) (.throw intact) ?_
    intro _ answered
    cases answered

/-- What the service relies on: each operation of a port is shielded where its path is let through
only when it names no hidden file. -/
structure Shields (hidden : String → Bool) (viewer : Option String) (fs : WorkspaceFs) : Prop where
  list : ∀ dir v, Intact hidden v.tree → Shielded hidden
    (fun entries => ∀ e ∈ entries, Shows hidden e ∧ (e.kind = .file → IsCanonical e.path)) v
    (fs.list dir)
  stat : ∀ path v, Named hidden viewer path → Intact hidden v.tree →
    Shielded hidden (fun o => ∀ e, o = some e → Shows hidden e) v (fs.stat path)
  read : ∀ path v, Named hidden viewer path → Intact hidden v.tree →
    Shielded hidden (fun o => ∀ file : FsFile, o = some file → Shows hidden file.entry) v
      (fs.read path)
  readRevisionBlob : ∀ path revision v, Named hidden viewer path → Intact hidden v.tree →
    Shielded hidden (fun o => ∀ blob : FsFile, o = some blob → Shows hidden blob.entry) v
      (fs.readRevisionBlob path revision)
  write : ∀ path input v, Named hidden viewer path → Intact hidden v.tree →
    Shielded hidden (Shows hidden) v (fs.write path input)

theorem memberScoped_shields (others : ∀ path, hidden path = true → mine viewer path = false) :
    Shields hidden viewer (memberScoped (revisioned deps ledger.store) viewer) where
  list dir v intact := by
    simp only [memberScoped, MemberScopedWorkspaceFs.list, revisioned]
    exact list_shielded intact others
  stat path v named intact := by
    simp only [memberScoped, MemberScopedWorkspaceFs.stat, revisioned]
    split
    · next let' => exact stat_shielded intact (named let')
    · exact .pure intact fun _ none => (by cases none)
  read path v named intact := by
    simp only [memberScoped, MemberScopedWorkspaceFs.read, revisioned]
    split
    · next let' => exact read_shielded intact (named let')
    · exact .pure intact fun _ none => (by cases none)
  readRevisionBlob path revision v named intact := by
    simp only [memberScoped, MemberScopedWorkspaceFs.readRevisionBlob, revisioned]
    split
    · next let' => exact readRevisionBlob_shielded intact (named let') revision
    · exact .pure intact fun _ none => (by cases none)
  write path input v named intact := by
    simp only [memberScoped, MemberScopedWorkspaceFs.write, revisioned]
    refine .required intact fun let' => ?_
    exact write_shielded intact (named let') input

theorem mkdir_shielded (intact : Intact hidden v.tree) :
    Shielded hidden (Shows hidden) v
      (MemberScopedWorkspaceFs.mkdir (revisioned deps ledger.store) viewer path) := by
  simp only [MemberScopedWorkspaceFs.mkdir, revisioned, RevisionedWorkspaceFs.mkdir]
  refine .required intact fun _ => ?_
  exact .writes intact (mkdir_guarded intact)

/-- A recursive remove that is not refused has no hidden file below it. -/
def Unremoved (hidden : String → Bool) (viewer : Option String) (path : String) : Prop :=
  mine viewer path = true → coversMemberAreas path = false →
    ∀ key, hidden key = true → below (canonicalOf path) key = false

theorem remove_shielded {recursive : Bool} (intact : Intact hidden v.tree)
    (named : Named hidden viewer path)
    (unremoved : recursive = true → Unremoved hidden viewer path) :
    Shielded hidden (fun _ => True) v
      (MemberScopedWorkspaceFs.remove (revisioned deps ledger.store) viewer path recursive) := by
  simp only [MemberScopedWorkspaceFs.remove, revisioned, RevisionedWorkspaceFs.remove]
  refine .required intact fun let' => ?_
  split
  · exact .throw intact
  · next covers =>
      refine .writes intact (remove_guarded intact (named let') fun deep => ?_)
      exact unremoved deep let' (by simpa [deep] using covers)

theorem scopedMove_shielded (intact : Intact hidden v.tree) (named : Named hidden viewer from')
    (unmoved : mine viewer from' = true → mine viewer to' = true →
      Unmoved hidden ledger v from' to') :
    Shielded hidden (Shows hidden) v
      (MemberScopedWorkspaceFs.move (revisioned deps ledger.store) viewer from' to') := by
  simp only [MemberScopedWorkspaceFs.move, revisioned]
  refine .required intact fun source => ?_
  refine .required intact fun target => ?_
  exact move_shielded intact (named source) (unmoved source target)

end Scope

/-! ## The service -/

section Service

variable {viewer : Option String} {sdeps : ServiceDeps} {service : FsService}

theorem Shielded.visible {α : Type} {Q : α → Prop} {x : Action α} (intact : Intact hidden v.tree)
    (inner : mine service.viewer path = true → Shielded hidden Q v x) :
    Shielded hidden Q v (service.requireVisible path >>= fun _ => x) := by
  unfold FsService.requireVisible
  split
  · next let' =>
      refine Shielded.bind (Q := fun _ => True) (.pure intact trivial) ?_
      intro _ _ _ _
      exact inner let'
  · refine Shielded.bind (Q := fun _ => True) (.throw intact) ?_
    intro _ answered
    cases answered

theorem shapeContent_path (registry : Registry) (entry : FsEntry) (data : Bytes) :
    (shapeContent registry entry data).entry.path = entry.path := by
  have resolved : ∀ stored contentType, (resolveEntry entry stored contentType).path =
      entry.path := by
    intro stored contentType
    unfold resolveEntry
    split <;> rfl
  unfold shapeContent
  dsimp only
  generalize sniffText data = text
  cases text <;> (repeat' split) <;> exact resolved _ _

theorem readFile_shielded (shields : Shields hidden viewer service.fs)
    (intact : Intact hidden v.tree) (named : Named hidden viewer path) :
    Shielded hidden (fun content => Shows hidden content.entry) v
      (service.readFile sdeps path) := by
  unfold FsService.readFile
  refine Shielded.bind (shields.read path v named intact) ?_
  intro o _ shows intact
  cases o with
  | none => exact .throw intact
  | some file =>
      refine .pure intact ?_
      unfold Shows
      rw [shapeContent_path]
      exact shows file rfl

variable {input : WriteFsFileInput}

theorem mergeKit_shielded (shields : Shields hidden viewer service.fs)
    (intact : Intact hidden v.tree) (named : Named hidden viewer input.path)
    (live : FsFileContent) (kit : FsWriteConflict) :
    Shielded hidden (fun _ => True) v (service.mergeKit input live kit) := by
  unfold FsService.mergeKit
  split
  · exact .pure intact trivial
  · refine Shielded.bind (shields.readRevisionBlob _ _ v named intact) ?_
    intro o _ _ intact
    cases o with
    | none => exact .pure intact trivial
    | some ancestor =>
        dsimp only
        split
        · exact .pure intact trivial
        · exact .pure intact trivial

theorem resolutionKit_shielded (shields : Shields hidden viewer service.fs)
    (intact : Intact hidden v.tree) (named : Named hidden viewer input.path) :
    Shielded hidden (fun _ => True) v (service.resolutionKit sdeps input) := by
  unfold FsService.resolutionKit
  refine Shielded.bind (shields.stat _ v named intact) ?_
  intro head _ _ intact
  refine Shielded.bind (Q := fun _ => True) (.tryCatch ?_ ?_) ?_
  · refine Shielded.bind (readFile_shielded shields intact named) ?_
    intro _ _ _ intact
    exact .pure intact trivial
  · intro _ intact
    exact .pure intact trivial
  · intro live _ _ intact
    cases live with
    | none => exact .pure intact trivial
    | some live =>
        dsimp only
        split
        · exact .pure intact trivial
        · exact mergeKit_shielded shields intact named live _

/-- An entry that was published is no hidden file; a refusal is what the kit says. -/
def Written.Shows (hidden : String → Bool) : Written → Prop
  | .published entry => WorkspaceFs.Shows hidden entry
  | .conflict _ _ => True

theorem refuse_shielded (shields : Shields hidden viewer service.fs)
    (intact : Intact hidden v.tree) (named : Named hidden viewer input.path) (e : AppError) :
    Shielded hidden (Written.Shows hidden) v (service.refuse sdeps input e) := by
  unfold FsService.refuse
  split
  · exact .throw intact
  · refine Shielded.bind (resolutionKit_shielded shields intact named) ?_
    intro kit _ _ intact
    exact .pure intact trivial

theorem writeFile_shielded (shields : Shields hidden viewer service.fs)
    (intact : Intact hidden v.tree) {actor : Option String}
    (named : Named hidden viewer input.path) :
    Shielded hidden (Written.Shows hidden) v (service.writeFile sdeps input actor) := by
  unfold FsService.writeFile
  refine Shielded.bind (Q := fun _ => True) (.checks intact fun _ _ => trivial) ?_
  intro data _ _ intact
  refine .tryCatch ?_ ?_
  · refine Shielded.bind (shields.write _ _ _ named intact) ?_
    intro entry _ shows intact
    exact .pure intact shows
  · intro e intact
    exact refuse_shielded shields intact named e

/-- The listing of a ledger. -/
def listing (path : String) (limit before : Option Nat) : Action Rows :=
  queries fun rows => listRevisions rows path limit before

theorem history_shielded (intact : Intact hidden v.tree) (looking : service.viewer = viewer)
    (wired : service.revisions = some listing) (named : Named hidden viewer path)
    (limit before : Option Nat) :
    Shielded hidden (fun rows => ∀ row ∈ rows, isHidden hidden row = false) v
      (service.history path limit before) := by
  unfold FsService.history
  refine .visible intact fun let' => ?_
  rw [looking] at let'
  rw [wired]
  have plain := named let'
  refine .queries intact ?_ ?_
  · unfold listRevisions
    rw [forPath_unhidden plain]
  · intro row member
    have inside := (List.mem_filter.mp (List.mem_of_mem_take member)).1
    have here := (List.mem_filter.mp (Sorting.mem_sortBy.mp inside)).2
    have here : row.path = path := of_decide_eq_true here
    unfold isHidden
    rw [here]
    exact plain

theorem readRevision_shielded (shields : Shields hidden viewer service.fs)
    (intact : Intact hidden v.tree) (named : Named hidden viewer path) (revision : Nat) :
    Shielded hidden (fun content => Shows hidden content.entry) v
      (service.readRevision sdeps path revision) := by
  unfold FsService.readRevision
  refine .visible intact fun _ => ?_
  refine Shielded.bind (shields.readRevisionBlob _ _ v named intact) ?_
  intro o _ shows intact
  cases o with
  | none => exact .throw intact
  | some blob =>
      refine .pure intact ?_
      unfold Shows
      rw [shapeContent_path]
      exact shows blob rfl

theorem diffRevisions_shielded (shields : Shields hidden viewer service.fs)
    (intact : Intact hidden v.tree) (named : Named hidden viewer path) (from' : Nat)
    (to' : Option Nat) :
    Shielded hidden (fun _ => True) v (service.diffRevisions sdeps path from' to') := by
  unfold FsService.diffRevisions
  refine .visible intact fun _ => ?_
  refine Shielded.bind (readRevision_shielded shields intact named from') ?_
  intro before _ _ intact
  cases to' with
  | none =>
      refine Shielded.bind (readFile_shielded shields intact named) ?_
      intro after _ _ intact
      dsimp only
      split <;> exact .pure intact trivial
  | some to' =>
      refine Shielded.bind (readRevision_shielded shields intact named to') ?_
      intro after _ _ intact
      dsimp only
      split <;> exact .pure intact trivial

theorem restoreRevision_shielded (shields : Shields hidden viewer service.fs)
    (intact : Intact hidden v.tree) (named : Named hidden viewer path) (revision : Nat)
    (actor : Option String) :
    Shielded hidden (Shows hidden) v (service.restoreRevision path revision actor) := by
  unfold FsService.restoreRevision
  refine Shielded.bind (shields.readRevisionBlob _ _ v named intact) ?_
  intro o _ _ intact
  cases o with
  | none => exact .throw intact
  | some blob => exact shields.write _ _ _ named intact

/-! ### Search -/

/-- No match is a hidden file. -/
def Unfound (hidden : String → Bool) (found : List FsSearchMatch) : Prop :=
  ∀ m ∈ found, hidden m.path = false

theorem Unfound.append {found : List FsSearchMatch} (unfound : Unfound hidden found)
    (plain : hidden path = false) (line : Option Nat) (excerpt : Option String) :
    Unfound hidden (found ++ [⟨path, line, excerpt⟩]) := by
  intro m member
  rcases List.mem_append.mp member with old | new
  · exact unfound m old
  · rw [List.mem_singleton.mp new]
    exact plain

theorem grep_unfound {test : String → Bool} {limit : Nat} (plain : hidden path = false)
    (lines : List String) (number perFile : Nat) {found : List FsSearchMatch}
    (unfound : Unfound hidden found) :
    Unfound hidden (FsService.grep path test limit lines number perFile found) := by
  induction lines generalizing number perFile found with
  | nil => exact unfound
  | cons line lines ih =>
      unfold FsService.grep
      split
      · exact ih _ _ unfound
      · dsimp only
        split
        · exact unfound.append plain _ _
        · exact ih _ _ (unfound.append plain _ _)

theorem searchFile_shielded (shields : Shields hidden viewer service.fs)
    (intact : Intact hidden v.tree) {tests : FsService.SearchTests} {entry : FsEntry}
    {state : SearchState} (shows : Shows hidden entry) (clean : IsCanonical entry.path)
    (unfound : Unfound hidden state.found) :
    Shielded hidden (fun after => Unfound hidden after.1.found) v
      (service.searchFile tests entry state) := by
  have named : Named hidden viewer entry.path := by
    intro _
    rw [clean.canonicalOf_eq]
    exact shows
  unfold FsService.searchFile
  split
  · exact .pure intact unfound
  · dsimp only
    split
    · exact .pure intact (unfound.append shows _ _)
    · split
      · exact .pure intact unfound
      · split
        · exact .pure intact unfound
        · refine Shielded.bind (shields.read _ v named intact) ?_
          intro o _ _ intact
          cases o with
          | none => exact .pure intact unfound
          | some file =>
              dsimp only
              split
              · exact .pure intact unfound
              · exact .pure intact (grep_unfound shows _ _ _ unfound)

theorem searchEntries_shielded (shields : Shields hidden viewer service.fs)
    {tests : FsService.SearchTests} {descend : String → SearchState → Action SearchState}
    (descends : ∀ dir state v, Intact hidden v.tree → Unfound hidden state.found →
      Shielded hidden (fun after => Unfound hidden after.found) v (descend dir state))
    {entries : List FsEntry}
    (shown : ∀ e ∈ entries, Shows hidden e ∧ (e.kind = .file → IsCanonical e.path))
    {state : SearchState} (intact : Intact hidden v.tree) (unfound : Unfound hidden state.found) :
    Shielded hidden (fun after => Unfound hidden after.found) v
      (service.searchEntries tests descend entries state) := by
  induction entries generalizing v state with
  | nil => exact .pure intact unfound
  | cons entry entries ih =>
      obtain ⟨⟨shows, clean⟩, shown⟩ := List.forall_mem_cons.mp shown
      unfold FsService.searchEntries
      split
      · exact .pure intact unfound
      · dsimp only
        split
        · refine Shielded.bind (descends _ _ v intact unfound) ?_
          intro state _ unfound intact
          exact ih shown intact unfound
        · next file =>
            have file : entry.kind = .file := by
              cases kind : entry.kind with
              | file => rfl
              | dir => exact absurd kind file
            refine Shielded.bind
              (searchFile_shielded shields intact shows (clean file) unfound) ?_
            intro after _ unfound intact
            obtain ⟨after, _ | _⟩ := after
            · exact .pure intact unfound
            · exact ih shown intact unfound

theorem searchWalk_shielded (shields : Shields hidden viewer service.fs)
    {tests : FsService.SearchTests} (depth : Nat) (dir : String) (state : SearchState) (v : Volume)
    (intact : Intact hidden v.tree) (unfound : Unfound hidden state.found) :
    Shielded hidden (fun after => Unfound hidden after.found) v
      (service.searchWalk tests depth dir state) := by
  induction depth generalizing dir state v with
  | zero => exact .pure intact unfound
  | succ depth ih =>
      unfold FsService.searchWalk
      split
      · exact .pure intact unfound
      · refine Shielded.bind (shields.list dir v intact) ?_
        intro entries _ shown intact
        exact searchEntries_shielded shields ih shown intact unfound

theorem search_shielded (shields : Shields hidden viewer service.fs)
    (intact : Intact hidden v.tree) (input : FsSearchInput) :
    Shielded hidden (fun result => Unfound hidden result.found) v
      (service.search sdeps input) := by
  unfold FsService.search
  refine Shielded.bind (Q := fun _ => True) (.checks intact fun _ _ => trivial) ?_
  intro tests _ _ intact
  refine Shielded.bind (searchWalk_shielded shields _ _ _ _ intact ?_) ?_
  · intro m member
    cases member
  · intro state _ unfound intact
    exact .pure intact unfound

end Service

end Everdict.WorkspaceFs
