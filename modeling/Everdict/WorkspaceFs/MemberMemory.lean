import Everdict.Transition
import Everdict.WorkspaceFs.MemberPrivacy

/-!
# Member memory and the other members

The calls of `FsService.forMember`, one after another (`calls`), over either ledger.  What another
member has in the tree when the calls begin (`othersFile`) is hidden from the viewer.

The scope reads the owner off the path as it is spelled, and only of the path that is named:
`Scoped` leaves out the spellings that name a hidden file past it, the recursive removes and the
moves whose subtree holds one, and the moves whose `LIKE` takes a row of one.  All other calls
keep member memory private and safe.
-/

namespace Everdict.WorkspaceFs

open Text TenantTree Everdict.WorkspaceFs.Action Transition.Machine

/-! ## Trees that calls have built -/

/-- The trees of the filesystem in memory. -/
inductive Built (registry : Registry) : TenantTree → Prop
  | empty : Built registry .empty
  | write {tree tree' path data contentType entry} (before : Built registry tree)
      (eq : tree.write registry path data contentType = .ok (tree', entry)) :
      Built registry tree'
  | mkdir {tree tree' path entry} (before : Built registry tree)
      (eq : tree.mkdir path = .ok (tree', entry)) : Built registry tree'
  | remove {tree tree' path recursive removed} (before : Built registry tree)
      (eq : tree.remove path recursive = .ok (tree', removed)) : Built registry tree'
  | move {tree tree' from' to' entry} (before : Built registry tree)
      (eq : tree.move from' to' = .ok (tree', entry)) : Built registry tree'
  | writeRevisionBlob {tree tree' path revision data contentType}
      (before : Built registry tree)
      (eq : tree.writeRevisionBlob path revision data contentType = .ok tree') :
      Built registry tree'
  | removeRevisionBlobs {tree} (before : Built registry tree) :
      Built registry { tree with revisions := Table.empty }

/-- The operations keep the keys canonical, whatever they name. -/
theorem Built.intact {registry : Registry} {tree : TenantTree} (built : Built registry tree) :
    Intact (fun _ => false) tree := by
  induction built with
  | empty => exact ⟨fun _ member => (by cases member), fun _ secret => (by cases secret)⟩
  | write _ eq intact =>
      refine ((write_guarded intact ?_).spares _ _ eq).2.1
      rfl
  | mkdir _ eq intact => exact ((mkdir_guarded intact).spares _ _ eq).2.1
  | remove _ eq intact =>
      refine ((remove_guarded intact ?_ fun _ _ secret => ?_).spares _ _ eq).2.1
      · rfl
      · cases secret
  | move _ eq intact =>
      refine ((move_guarded intact ?_ fun _ _ _ secret => ?_).spares _ _ eq).2.1
      · rfl
      · cases secret
  | writeRevisionBlob _ eq intact =>
      obtain ⟨p, -, rfl⟩ := writeRevisionBlob_eq_ok eq
      exact ⟨intact.clean, fun _ secret => (by cases secret)⟩
  | removeRevisionBlobs _ intact => exact ⟨intact.clean, fun _ secret => (by cases secret)⟩

/-! ## The calls -/

inductive ServiceCall
  | list (path : Option String)
  | stat (path : String)
  | readFile (path : String)
  | search (input : FsSearchInput)
  | history (path : String) (limit before : Option Nat)
  | readRevision (path : String) (revision : Nat)
  | diffRevisions (path : String) (from' : Nat) (to' : Option Nat)
  | restoreRevision (path : String) (revision : Nat) (actor : Option String)
  | writeFile (input : WriteFsFileInput) (actor : Option String)
  | makeDirectory (path : String)
  | remove (path : String) (recursive : Bool)
  | move (from' to' : String)
  deriving DecidableEq

inductive ServiceAnswer
  | entries (entries : List FsEntry)
  | entry (entry : Option FsEntry)
  | content (content : FsFileContent)
  | found (result : FsSearchResult)
  | revisions (rows : Rows)
  | diff (diff : FsRevisionDiff)
  | written (written : Written)
  | removed (removed : Nat)
  deriving DecidableEq

def FsService.answer (deps : ServiceDeps) (service : FsService) :
    ServiceCall → Action ServiceAnswer
  | .list path => service.list path >>= fun a => pure (.entries a)
  | .stat path => service.stat path >>= fun a => pure (.entry a)
  | .readFile path => service.readFile deps path >>= fun a => pure (.content a)
  | .search input => service.search deps input >>= fun a => pure (.found a)
  | .history path limit before => service.history path limit before >>= fun a =>
      pure (.revisions a)
  | .readRevision path revision => service.readRevision deps path revision >>= fun a =>
      pure (.content a)
  | .diffRevisions path from' to' => service.diffRevisions deps path from' to' >>= fun a =>
      pure (.diff a)
  | .restoreRevision path revision actor => service.restoreRevision path revision actor >>=
      fun a => pure (.entry (some a))
  | .writeFile input actor => service.writeFile deps input actor >>= fun a => pure (.written a)
  | .makeDirectory path => service.makeDirectory path >>= fun a => pure (.entry (some a))
  | .remove path recursive => service.remove path recursive >>= fun a => pure (.removed a)
  | .move from' to' => service.move from' to' >>= fun a => pure (.entry (some a))

/-- The service over the versioned filesystem and its ledger. -/
def fsService (deps : ServiceDeps) (ledger : Ledger) : FsService where
  fs := revisioned deps.toDeps ledger.store
  revisions := some listing
  viewer := none

/-- The calls of one member's view. -/
def calls (deps : ServiceDeps) (ledger : Ledger) (viewer : Option String) :
    Transition.Machine Volume ServiceCall (Except AppError ServiceAnswer) := fun v call =>
  let done := ((fsService deps ledger).forMember viewer).answer deps call v
  some (done.2, done.1)

/-! ## What a member must not see -/

/-- A file in the area of another member. -/
def othersFile (viewer : Option String) (tree : TenantTree) (path : String) : Bool :=
  tree.hasFile path && !mine viewer path

/-- An answer with no entry, content or row of a hidden file. -/
def ServiceAnswer.Shows (hidden : String → Bool) : ServiceAnswer → Prop
  | .entries es => ∀ e ∈ es, WorkspaceFs.Shows hidden e
  | .entry o => ∀ e, o = some e → WorkspaceFs.Shows hidden e
  | .content c => WorkspaceFs.Shows hidden c.entry
  | .found result => Unfound hidden result.found
  | .revisions rows => ∀ row ∈ rows, isHidden hidden row = false
  | .diff _ => True
  | .written w => w.Shows hidden
  | .removed _ => True

/-- A call that does not reach a hidden file past the scope. -/
def Scoped (hidden : String → Bool) (viewer : Option String) (ledger : Ledger) (v : Volume) :
    ServiceCall → Prop
  | .list _ | .search _ | .makeDirectory _ => True
  | .stat path | .readFile path | .history path _ _ | .readRevision path _
  | .diffRevisions path _ _ | .restoreRevision path _ _ => Named hidden viewer path
  | .writeFile input _ => Named hidden viewer input.path
  | .remove path recursive =>
      Named hidden viewer path ∧ (recursive = true → Unremoved hidden viewer path)
  | .move from' to' => Named hidden viewer from' ∧
      (mine viewer from' = true → mine viewer to' = true → Unmoved hidden ledger v from' to')

/-- Member memory is private and safe: no answer shows a hidden file, every answer is the one a
volume gives in which the hidden files are empty and have no history, and the files are where they
were with the same bytes and history. -/
structure Private (deps : ServiceDeps) (ledger : Ledger) (viewer : Option String)
    (start : Volume) (log : List (ServiceCall × Except AppError ServiceAnswer)) (s : Volume) :
    Prop where
  unseen : ∀ call answer, (call, .ok answer) ∈ log →
    answer.Shows (othersFile viewer start.tree)
  blind : Runs (calls deps ledger viewer) (fun _ _ => True)
    (start.blank (othersFile viewer start.tree)) log (s.blank (othersFile viewer start.tree))
  spares : Spares (othersFile viewer start.tree) start s

variable {hidden : String → Bool} {deps : ServiceDeps} {ledger : Ledger} {viewer : Option String}
  {v : Volume} {call : ServiceCall}

theorem othersFile_mine (tree : TenantTree) :
    ∀ path, othersFile viewer tree path = true → mine viewer path = false := by
  intro path secret
  simpa using (Bool.and_eq_true_iff.mp secret).2

theorem Shielded.answers {α : Type} {Q : α → Prop} {x : Action α} {f : α → ServiceAnswer}
    (shielded : Shielded hidden Q v x) (shows : ∀ a, Q a → (f a).Shows hidden) :
    Shielded hidden (ServiceAnswer.Shows hidden) v (x >>= fun a => Pure.pure (f a)) := by
  refine shielded.bind ?_
  intro a _ q intact
  exact .pure intact (shows a q)

/-- One call. -/
theorem answer_shielded (others : ∀ path, hidden path = true → mine viewer path = false)
    (intact : Intact hidden v.tree) (inScope : Scoped hidden viewer ledger v call) :
    Shielded hidden (ServiceAnswer.Shows hidden) v
      (((fsService deps ledger).forMember viewer).answer deps call) := by
  have shields : Shields hidden viewer ((fsService deps ledger).forMember viewer).fs := by
    simp only [FsService.forMember, fsService]
    exact memberScoped_shields others
  cases call with
  | list path =>
      simp only [FsService.answer, FsService.list]
      refine Shielded.answers (shields.list _ v intact) ?_
      intro entries shown e member
      exact (shown e member).1
  | stat path =>
      simp only [FsService.answer, FsService.stat]
      exact (shields.stat path v inScope intact).answers fun _ q => q
  | readFile path => exact (readFile_shielded shields intact inScope).answers fun _ q => q
  | search input => exact (search_shielded shields intact input).answers fun _ q => q
  | history path limit before =>
      have looking : ((fsService deps ledger).forMember viewer).viewer = viewer := rfl
      have wired : ((fsService deps ledger).forMember viewer).revisions = some listing := rfl
      exact (history_shielded intact looking wired inScope limit before).answers fun _ q => q
  | readRevision path revision =>
      exact (readRevision_shielded shields intact inScope revision).answers fun _ q => q
  | diffRevisions path from' to' =>
      exact (diffRevisions_shielded shields intact inScope from' to').answers fun _ q => q
  | restoreRevision path revision actor =>
      refine (restoreRevision_shielded shields intact inScope revision actor).answers ?_
      intro a q e same
      exact Option.some.inj same ▸ q
  | writeFile input actor =>
      exact (writeFile_shielded shields intact inScope).answers fun _ q => q
  | makeDirectory path =>
      simp only [FsService.answer, FsService.makeDirectory, FsService.forMember, fsService,
        memberScoped]
      refine (mkdir_shielded intact).answers ?_
      intro a q e same
      exact Option.some.inj same ▸ q
  | remove path recursive =>
      simp only [FsService.answer, FsService.remove, FsService.forMember, fsService, memberScoped]
      refine Shielded.answers (Q := fun _ => True) ?_ fun _ _ => trivial
      refine (remove_shielded intact inScope.1 inScope.2).bind ?_
      intro removed _ _ intact
      split
      · exact .throw intact
      · exact .pure intact trivial
  | move from' to' =>
      simp only [FsService.answer, FsService.move, FsService.forMember, fsService, memberScoped]
      refine (scopedMove_shielded intact inScope.1 inScope.2).answers ?_
      intro a q e same
      exact Option.some.inj same ▸ q

/-! ## Runs -/

/-- Member memory stays private and safe over every run of calls that do not reach past the
scope. -/
theorem member_memory_private {start s : Volume}
    {log : List (ServiceCall × Except AppError ServiceAnswer)}
    (built : Built deps.toRegistry start.tree)
    (run : Runs (calls deps ledger viewer) (Scoped (othersFile viewer start.tree) viewer ledger)
      start log s) :
    Private deps ledger viewer start log s := by
  have others : ∀ path, othersFile viewer start.tree path = true → mine viewer path = false :=
    othersFile_mine start.tree
  have intact : Intact (othersFile viewer start.tree) start.tree :=
    ⟨built.intact.clean, fun path secret => (Bool.and_eq_true_iff.mp secret).1⟩
  have kept : (∀ call answer, (call, .ok answer) ∈ log →
        answer.Shows (othersFile viewer start.tree)) ∧
      Runs (calls deps ledger viewer) (fun _ _ => True)
        (start.blank (othersFile viewer start.tree)) log (s.blank (othersFile viewer start.tree)) ∧
      Spares (othersFile viewer start.tree) start s ∧
      Intact (othersFile viewer start.tree) s.tree := by
    refine run.invariant (I := fun log s => (∀ call answer, (call, .ok answer) ∈ log →
          answer.Shows (othersFile viewer start.tree)) ∧
        Runs (calls deps ledger viewer) (fun _ _ => True)
          (start.blank (othersFile viewer start.tree)) log
          (s.blank (othersFile viewer start.tree)) ∧
        Spares (othersFile viewer start.tree) start s ∧
        Intact (othersFile viewer start.tree) s.tree)
      ⟨fun _ _ member => (by cases member), .refl, .refl start, intact⟩ ?_
    intro log s call t o before inScope eq
    obtain ⟨unseen, blind, spares, intact⟩ := before
    have one : Shielded (othersFile viewer start.tree)
        (ServiceAnswer.Shows (othersFile viewer start.tree)) s
        (((fsService deps ledger).forMember viewer).answer deps call) :=
      answer_shielded others intact inScope
    obtain ⟨rfl, rfl⟩ := Prod.mk.inj (Option.some.inj eq)
    refine ⟨?_, ?_, spares.trans one.spares, one.intact⟩
    · intro call' answer member
      rcases List.mem_append.mp member with old | new
      · exact unseen call' answer old
      · obtain ⟨rfl, answered⟩ := Prod.mk.inj (List.mem_singleton.mp new)
        exact one.answer answer answered.symm
    · refine .tail blind trivial ?_
      unfold calls
      rw [one.blind]
  exact ⟨kept.1, kept.2.1, kept.2.2.1⟩

/-! ## A file of one member, and the calls of another -/

def plainServiceDeps : ServiceDeps := { plainDeps with regExp := fun _ _ => .ok fun _ => true }

def areaTree : TenantTree :=
  { TenantTree.empty with files := Table.empty.set "memory/members/u/x" ⟨[97], "text/markdown"⟩ }

theorem areaTree_built : Built plainServiceDeps.toRegistry areaTree := by
  have written : TenantTree.empty.write plainServiceDeps.toRegistry "memory/members/u/x" [97]
      (some "text/markdown") =
        .ok (areaTree, fileEntry "memory/members/u/x" ⟨[97], "text/markdown"⟩) := by
    rfl
  exact .write .empty written

theorem othersFile_areaTree {key : String} (secret : othersFile (some "v") areaTree key = true) :
    key = "memory/members/u/x" := by
  by_contra other
  simp [othersFile, TenantTree.hasFile, areaTree, Table.get_set, other, TenantTree.empty] at secret

/-- Member `v` asks for the file of `u`, writes one of its own, moves it and searches. -/
def vCalls : List ServiceCall :=
  [.stat "memory/members/u/x",
    .writeFile ⟨"memory/members/v/n", "b", none, none, none, none⟩ (some "v"),
    .move "memory/members/v/n" "memory/members/v/m", .search ⟨some "b", none, none, none⟩]

theorem member_memory_private_asked :
    ∃ log s, Runs (calls plainServiceDeps .memory (some "v"))
        (Scoped (othersFile (some "v") areaTree) (some "v") .memory) ⟨areaTree, []⟩ log s ∧
      log.map Prod.fst = vCalls ∧ (log.take 3).all (·.2.isOk) = true ∧
      Private plainServiceDeps .memory (some "v") ⟨areaTree, []⟩ log s := by
  have named : ∀ path, mine (some "v") path = false ∨ canonicalOf path ≠ "memory/members/u/x" →
      Named (othersFile (some "v") areaTree) (some "v") path := by
    intro path apart let'
    rw [let', Bool.true_eq_false, false_or] at apart
    exact Bool.eq_false_of_not_eq_true fun secret => apart (othersFile_areaTree secret)
  have unmoved : ∀ key, othersFile (some "v") areaTree key = true →
      below (canonicalOf "memory/members/v/n") key = false := by
    intro key secret
    rw [othersFile_areaTree secret]
    decide +kernel
  have r0 : Runs (calls plainServiceDeps .memory (some "v"))
      (Scoped (othersFile (some "v") areaTree) (some "v") .memory) ⟨areaTree, []⟩ [] _ := .refl
  have r1 := r0.tail (e := ServiceCall.stat "memory/members/u/x")
    (named _ (.inl (by decide +kernel))) rfl
  have r2 := r1.tail (e := ServiceCall.writeFile ⟨"memory/members/v/n", "b", none, none, none,
    none⟩ (some "v")) (named _ (.inr (by decide +kernel))) rfl
  have r3 := r2.tail (e := ServiceCall.move "memory/members/v/n" "memory/members/v/m")
    ⟨named _ (.inr (by decide +kernel)), fun _ _ _ _ => ⟨unmoved, by decide +kernel⟩⟩ rfl
  have r4 := r3.tail (e := ServiceCall.search ⟨some "b", none, none, none⟩) trivial rfl
  exact ⟨_, _, r4, rfl, by decide +kernel, member_memory_private areaTree_built r4⟩

/-- Another spelling of the path shows the file, and a move of the directory above takes it
away. -/
theorem others_memory_reached :
    (∃ log s, Runs (calls plainServiceDeps .memory (some "v")) (fun _ _ => True) ⟨areaTree, []⟩ log
        s ∧ log.map Prod.fst = [.stat "./memory/members/u/x"] ∧
      normalizeFsPath "./memory/members/u/x" = .ok "memory/members/u/x" ∧
      ¬ Private plainServiceDeps .memory (some "v") ⟨areaTree, []⟩ log s) ∧
    ∃ log s, Runs (calls plainServiceDeps .memory (some "v")) (fun _ _ => True) ⟨areaTree, []⟩ log
        s ∧ log.map Prod.fst = [.move "memory" "mine"] ∧
      s.tree.hasFile "memory/members/u/x" = false ∧
      ¬ Private plainServiceDeps .memory (some "v") ⟨areaTree, []⟩ log s := by
  have secret : othersFile (some "v") areaTree "memory/members/u/x" = true := by decide +kernel
  constructor
  · have r : Runs (calls plainServiceDeps .memory (some "v")) (fun _ _ => True) ⟨areaTree, []⟩
        ([] ++ [(.stat "./memory/members/u/x", _)]) _ := .tail .refl trivial rfl
    refine ⟨_, _, r, rfl, rfl, fun safe => ?_⟩
    have shown := safe.unseen _ _ (List.mem_singleton.mpr rfl) _ rfl
    unfold Shows at shown
    revert shown
    decide +kernel
  · have r : Runs (calls plainServiceDeps .memory (some "v")) (fun _ _ => True) ⟨areaTree, []⟩
        ([] ++ [(.move "memory" "mine", _)]) _ := .tail .refl trivial rfl
    refine ⟨_, _, r, rfl, rfl, fun safe => ?_⟩
    have kept := safe.spares.same.files _ secret
    revert kept
    decide +kernel

end Everdict.WorkspaceFs
