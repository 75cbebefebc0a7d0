import Everdict.Addresses
import Everdict.Tracker.Issue
import Everdict.Transition
import Mathlib.Data.List.Chain

/-!
# What every history of an issue keeps

An issue is born and moved; each legal move answers its patch and its facts, and the patch is
applied.  What a move may do to the record is said once (`Legal`), and everything a history
keeps is read off it (`issue_history`): the links made since the birth, whose own nothing checks,
stay apart and well formed, an issue that was closed says what closed it, the chain moves along
its own arrows, a commit linked under an acceptance was not authored before it, the facts tell
the path of the status, and the history is the tail of everything ever written there.
-/

namespace Everdict.Tracker

open Transition Machine

/-! ## Moves -/

inductive Change where
  | update (fields : IssueEditInput)
  | setStatus (to' : IssueStatus) (options : IssueStatusChangeOptions)
  | resolve (scorecardId note : Option String) (cause : IssueStatusCause)
  | reopen (input : IssueReopenInput)
  | accept (design : IssueDesign)
  | reject (reason : String)
  | ship
  | redraft
  | link (input : NewIssueLinkInput)
  | unlink (type : IssueLinkType) (id : String) (where' : UnlinkWhere)
  | setGithubSync (sync : IssueGithubSync)
  | attachGithub (github : IssueGithub)
  | detachGithub
  | applyGithubPull (remote : RemoteIssue)
  | recordGithubPush (outcome : PushOutcome)
  | recordGithubPullFailure (message : String)
  deriving DecidableEq

structure Move where
  change : Change
  by' : String
  now : String
  deriving DecidableEq

variable (rt : Runtime)

def transition (record : IssueRecord) (move : Move) : Except IssueError IssueTransition :=
  match move.change with
  | .update fields => update record fields move.by' move.now
  | .setStatus to' options => setStatus record to' move.by' move.now options
  | .resolve scorecardId note cause => resolve record scorecardId note move.by' move.now cause
  | .reopen input => reopen record input move.by' move.now
  | .accept design => accept record design move.by' move.now
  | .reject reason => reject record reason move.by' move.now
  | .ship => ship record move.by' move.now
  | .redraft => redraft record move.by' move.now
  | .link input => link rt record input move.by' move.now
  | .unlink type id where' => unlink rt record type id where' move.by' move.now
  | .setGithubSync sync => setGithubSync record sync move.now
  | .attachGithub github => attachGithub record github move.by' move.now
  | .detachGithub => detachGithub record move.by' move.now
  | .applyGithubPull remote => applyGithubPull record remote move.by' move.now
  | .recordGithubPush outcome => recordGithubPush record outcome move.by' move.now
  | .recordGithubPullFailure message => recordGithubPullFailure record message move.now

/-- A legal move applies its patch and answers its transition. -/
def machine : Machine IssueRecord Move IssueTransition := fun record move =>
  match transition rt record move with
  | .ok answer => some (answer.patch.apply record, answer)
  | .error _ => none

/-! ## What a history tells -/

/-- The entries the moves of a history wrote, in order. -/
def audit (log : List (Move × IssueTransition)) : List TrackerHistoryEntry :=
  log.filterMap fun x => x.2.patch.history.bind List.getLast?

/-- The chain states a history went through. -/
def chains (log : List (Move × IssueTransition)) : List IssueChain :=
  log.filterMap fun x => x.2.patch.chain

/-- The status moves a history announced. -/
def statusMoves (facts : List DomainFact) : List (IssueStatus × IssueStatus) :=
  facts.filterMap fun fact =>
    match fact.payload with
    | .statusChanged source target .. => some (source, target)
    | _ => none

/-- Steps that start at `a`, each where the one before it ended, and end at `b`. -/
def LeadsTo {α : Type} : α → List (α × α) → α → Prop
  | a, [], b => a = b
  | a, (source, target) :: steps, b => source = a ∧ LeadsTo target steps b

/-- The arrows of the work chain.  No arrow leaves a shipped request. -/
def CHAIN_ARROWS : List (Option IssueChainState × IssueChainState) :=
  [(none, .accepted), (none, .rejected), (some .draft, .accepted), (some .draft, .rejected),
    (some .accepted, .rejected), (some .accepted, .shipped), (some .accepted, .draft),
    (some .rejected, .draft)]

def ChainArrow (source : Option IssueChain) (target : IssueChain) : Prop :=
  (source.map IssueChain.state, target.state) ∈ CHAIN_ARROWS

/-- A commit may claim a request in this chain state: the request is outside the chain or
shipped, or it was accepted and the commit was not authored before that. -/
def MayClaim (committedAt : Option String) : Option IssueChain → Prop
  | none => True
  | some (.accepted acceptedAt _ _) =>
      ∃ authored ∈ committedAt, ∀ before ∈ rt.dateParse authored,
        ∀ decided ∈ rt.dateParse acceptedAt, decided ≤ before
  | some (.shipped ..) => committedAt.isSome
  | some .draft | some (.rejected ..) => False

/-- Links apart from each other, none with a defect, but for those of the birth. -/
structure LinksSound (born links : List IssueLink) : Prop where
  apart : links.Pairwise fun a b =>
    sameIssueLink rt (.ofLink a) (.ofLink b) = false ∨ a ∈ born ∧ b ∈ born
  sound : ∀ link ∈ links, issueLinkDefects rt (.ofLink link) = [] ∨ link ∈ born

/-- What a move may do to a record. -/
structure Legal (record : IssueRecord) (move : Move) (answer : IssueTransition) : Prop where
  history : answer.patch.history = none ∨
    ∃ entry, answer.patch.history = some (appendHistory record.history entry)
  chain : ∀ next ∈ answer.patch.chain, ChainArrow record.chain next
  status : answer.patch.status = none ∧ statusMoves answer.facts = [] ∨
    ∃ next, answer.patch.status = some next ∧ next ≠ record.status ∧
      statusMoves answer.facts = [(record.status, next)] ∧
      (next = .done → answer.patch.resolution.isSome) ∧
      (next = .regressed → record.status = .done)
  links : answer.patch.links = none ∨
    (∃ links, answer.patch.links = some links ∧ links.Sublist record.links) ∨
    ∃ input, move.change = .link input ∧
      answer.patch.links = some (record.links ++ [storedLink rt input move.by' move.now]) ∧
      issueLinkDefects rt (.ofLink (storedLink rt input move.by' move.now)) = [] ∧
      (∀ existing ∈ record.links, sameIssueLink rt (.ofLink existing)
        (.ofLink (storedLink rt input move.by' move.now)) = false) ∧
      (input.type = .commit → MayClaim rt input.committedAt record.chain)

variable {rt} {record : IssueRecord} {move : Move} {answer : IssueTransition} {by' now : String}

/-! ## Moves that leave status, chain and links alone -/

/-- A move that writes content and perhaps one entry. -/
theorem Legal.of_content (status : answer.patch.status = none) (chain : answer.patch.chain = none)
    (links : answer.patch.links = none) (facts : answer.facts = [])
    (history : answer.patch.history = none ∨
      ∃ entry, answer.patch.history = some (appendHistory record.history entry)) :
    Legal rt record move answer where
  history := history
  chain := by simp [chain]
  status := .inl ⟨status, by simp [facts, statusMoves]⟩
  links := .inl links

theorem legal_update {fields : IssueEditInput}
    (eq : update record fields by' now = .ok answer) : Legal rt record move answer := by
  unfold update at eq
  dsimp only at eq
  split at eq
  · cases eq
  · split at eq
    · cases eq
    · cases eq
      exact .of_content rfl rfl rfl rfl (.inr ⟨_, rfl⟩)

theorem bind_ok {ε α β : Type} {x : Except ε α} {f : α → Except ε β} {b : β}
    (eq : x >>= f = .ok b) : ∃ a, x = .ok a ∧ f a = .ok b := by
  cases x with
  | error e => cases eq
  | ok a => exact ⟨a, rfl, eq⟩

theorem legal_setGithubSync {sync : IssueGithubSync}
    (eq : setGithubSync record sync now = .ok answer) : Legal rt record move answer := by
  unfold setGithubSync at eq
  obtain ⟨github, -, eq⟩ := bind_ok eq
  cases eq
  exact .of_content rfl rfl rfl rfl (.inl rfl)

theorem legal_attachGithub {github : IssueGithub}
    (eq : attachGithub record github by' now = .ok answer) : Legal rt record move answer := by
  unfold attachGithub at eq
  split at eq
  · cases eq
  · cases eq
    exact .of_content rfl rfl rfl rfl (.inr ⟨_, rfl⟩)

theorem legal_detachGithub (eq : detachGithub record by' now = .ok answer) :
    Legal rt record move answer := by
  unfold detachGithub at eq
  obtain ⟨github, -, eq⟩ := bind_ok eq
  cases eq
  exact .of_content rfl rfl rfl rfl (.inr ⟨_, rfl⟩)

theorem legal_applyGithubPull {remote : RemoteIssue}
    (eq : applyGithubPull record remote by' now = .ok answer) : Legal rt record move answer := by
  unfold applyGithubPull at eq
  obtain ⟨github, -, eq⟩ := bind_ok eq
  cases eq
  exact .of_content rfl rfl rfl rfl (.inr ⟨_, rfl⟩)

theorem legal_recordGithubPush {outcome : PushOutcome}
    (eq : recordGithubPush record outcome by' now = .ok answer) : Legal rt record move answer := by
  unfold recordGithubPush at eq
  obtain ⟨github, -, eq⟩ := bind_ok eq
  cases outcome with
  | ok state =>
      cases eq
      exact .of_content rfl rfl rfl rfl (.inr ⟨_, rfl⟩)
  | failed message =>
      cases eq
      exact .of_content rfl rfl rfl rfl (.inr ⟨_, rfl⟩)

theorem legal_recordGithubPullFailure {message : String}
    (eq : recordGithubPullFailure record message now = .ok answer) : Legal rt record move answer := by
  unfold recordGithubPullFailure at eq
  obtain ⟨github, -, eq⟩ := bind_ok eq
  cases eq
  exact .of_content rfl rfl rfl rfl (.inl rfl)

/-! ## Moves of the chain -/

theorem Legal.of_chain {next : IssueChain} (arrow : ChainArrow record.chain next) :
    Legal rt record move (chainTransition record next by' now) where
  history := .inr ⟨_, rfl⟩
  chain := by
    rintro _ ⟨⟩
    exact arrow
  status := .inl ⟨rfl, rfl⟩
  links := .inl rfl

theorem legal_accept {design : IssueDesign} (eq : accept record design by' now = .ok answer) :
    Legal rt record move answer := by
  unfold accept at eq
  split at eq
  · cases eq
    next chain => exact .of_chain (by simp [chain, ChainArrow, IssueChain.state, CHAIN_ARROWS])
  · cases eq
    next chain => exact .of_chain (by simp [chain, ChainArrow, IssueChain.state, CHAIN_ARROWS])
  · cases eq
  · cases eq

theorem legal_reject {reason : String} (eq : reject record reason by' now = .ok answer) :
    Legal rt record move answer := by
  unfold reject at eq
  split at eq
  · cases eq
  · cases eq
  all_goals
    cases eq
    next chain => exact .of_chain (by simp [chain, ChainArrow, IssueChain.state, CHAIN_ARROWS])

theorem legal_ship (eq : ship record by' now = .ok answer) : Legal rt record move answer := by
  unfold ship at eq
  split at eq
  · cases eq
    next chain => exact .of_chain (by simp [chain, ChainArrow, IssueChain.state, CHAIN_ARROWS])
  · cases eq
  · cases eq

theorem legal_redraft (eq : redraft record by' now = .ok answer) : Legal rt record move answer := by
  unfold redraft at eq
  split at eq
  · cases eq
  · cases eq
  · cases eq
  all_goals
    cases eq
    next chain => exact .of_chain (by simp [chain, ChainArrow, IssueChain.state, CHAIN_ARROWS])

/-! ## Moves of the status -/

theorem Legal.of_status {next : IssueStatus} (status : answer.patch.status = some next)
    (told : statusMoves answer.facts = [(record.status, next)])
    (history : ∃ entry, answer.patch.history = some (appendHistory record.history entry))
    (chain : answer.patch.chain = none) (links : answer.patch.links = none)
    (moved : next ≠ record.status) (closed : next = .done → answer.patch.resolution.isSome)
    (fell : next = .regressed → record.status = .done) : Legal rt record move answer where
  history := .inr history
  chain := by simp [chain]
  status := .inr ⟨next, status, moved, told, closed, fell⟩
  links := .inl links

theorem legal_setStatus {to' : IssueStatus} {options : IssueStatusChangeOptions}
    (eq : setStatus record to' by' now options = .ok answer) : Legal rt record move answer := by
  unfold setStatus at eq
  split at eq
  · cases eq
  next notDone =>
  split at eq
  · cases eq
  next notRegressed =>
  split at eq
  · cases eq
  next moved =>
  split at eq
  · cases eq
  cases eq
  exact .of_status rfl rfl ⟨_, rfl⟩ rfl rfl moved (fun eq => absurd eq notDone) (fun eq => absurd eq notRegressed)

theorem legal_resolve {scorecardId note : Option String} {cause : IssueStatusCause}
    (eq : resolve record scorecardId note by' now cause = .ok answer) :
    Legal rt record move answer := by
  unfold resolve at eq
  split at eq
  · cases eq
  next isOpen =>
  cases eq
  refine .of_status rfl rfl ⟨_, rfl⟩ rfl rfl ?_ (fun _ => rfl) (fun eq => by cases eq)
  intro closed
  exact isOpen (by rw [← closed]; rfl)

theorem legal_reopen {input : IssueReopenInput} (eq : reopen record input by' now = .ok answer) :
    Legal rt record move answer := by
  unfold reopen at eq
  dsimp only at eq
  split at eq
  · cases eq
  next terminal =>
  split at eq
  · cases eq
  next opened =>
  split at eq
  · cases eq
  next resolved =>
  cases eq
  have isOpen : isOpenIssueStatus (input.to'.getD .todo) = true := by simpa using opened
  refine .of_status rfl rfl ⟨_, rfl⟩ rfl rfl ?_ ?_ ?_
  · intro same
    rw [same] at isOpen
    simp [isTerminal, isOpen] at terminal
  · intro done
    rw [done] at isOpen
    cases isOpen
  · intro regressed
    by_contra other
    exact resolved ⟨regressed, other⟩

/-! ## Moves of the links -/

/-- A hexadecimal digit in lower case is plain: neither white space nor an upper-case letter. -/
theorem plain_of_hex {c : Char} (hex : c.isDigit = true ∨ 'a' ≤ c ∧ c ≤ 'f') :
    c.toNat < 128 ∧ Text.isSpace c = false ∧ c.isUpper = false := by
  have place : 48 ≤ c.toNat ∧ c.toNat ≤ 57 ∨ 97 ≤ c.toNat ∧ c.toNat ≤ 102 := by
    rcases hex with digit | letter
    · have inside : c.val ≥ 48 ∧ c.val ≤ 57 := by simpa [Char.isDigit] using digit
      exact .inl ⟨UInt32.le_iff_toNat_le.mp inside.1, UInt32.le_iff_toNat_le.mp inside.2⟩
    · exact .inr ⟨UInt32.le_iff_toNat_le.mp letter.1, UInt32.le_iff_toNat_le.mp letter.2⟩
  refine ⟨by omega, ?_, ?_⟩
  · simp only [Text.isSpace, List.mem_cons, List.not_mem_nil, or_false, Bool.or_eq_false_iff,
      decide_eq_false_iff_not, Bool.and_eq_false_iff]
    omega
  · refine decide_eq_false fun upper => ?_
    have low := UInt32.le_iff_toNat_le.mp upper.1
    have high := UInt32.le_iff_toNat_le.mp upper.2
    have toNat : c.val.toNat = c.toNat := rfl
    simp at low high
    omega

theorem normalise_of_isCommitSha {id : String} (sha : isCommitSha id = true) :
    normaliseIssueLinkId rt .commit id = id := by
  have plain : ∀ c ∈ id.toList, c.toNat < 128 ∧ Text.isSpace c = false ∧ c.isUpper = false := by
    intro c inId
    have hex := List.all_eq_true.mp (Bool.and_eq_true_iff.mp sha).2 c inId
    exact plain_of_hex (by simpa using hex)
  unfold normaliseIssueLinkId
  rw [if_pos rfl, Text.trim_eq_self fun c inId => (plain c inId).2.1,
    rt.ascii id fun c inId => (plain c inId).1]
  refine String.toList_inj.mp ?_
  rw [String.toList_ofList]
  refine (List.map_congr_left fun c inId => ?_).trans (List.map_id _)
  exact Address.toLower_of_not_isUpper (plain c inId).2.2

theorem defectIf_eq_nil {condition : Bool} {message : String} :
    defectIf condition message = [] ↔ condition = false := by
  cases condition <;> simp [defectIf]

/-- A link with all the coordinates of its type and no other. -/
structure WellFormed (rt : Runtime) (link : NewIssueLinkInput) : Prop where
  case : link.type = .case → link.dataset ≠ none ∧ link.version ≠ none
  noCase : link.type ≠ .case → link.dataset = none
  commit : link.type = .commit → (∃ repository ∈ link.repository, isOwnerName repository = true) ∧
    isCommitSha (normaliseIssueLinkId rt .commit link.id) = true ∧ link.version = none ∧
    ∀ committedAt ∈ link.committedAt, rt.dateParse committedAt ≠ none
  noCommit : link.type ≠ .commit →
    link.repository = none ∧ link.host = none ∧ link.committedAt = none

theorem commitDefects_eq_nil {link : NewIssueLinkInput} :
    commitDefects rt link = [] ↔
      (∃ repository ∈ link.repository, isOwnerName repository = true) ∧
        isCommitSha (normaliseIssueLinkId rt .commit link.id) = true ∧ link.version = none ∧
        ∀ committedAt ∈ link.committedAt, rt.dateParse committedAt ≠ none := by
  unfold commitDefects
  rcases link with ⟨type, id, version, dataset, repository, host, committedAt, note⟩
  cases repository <;> cases committedAt <;>
    simp only [List.append_eq_nil_iff, defectIf_eq_nil, Bool.not_eq_false', Option.mem_def,
      Option.isSome_eq_false_iff, Option.isNone_iff_eq_none, reduceCtorEq, false_and, and_true,
      exists_false, false_implies, implies_true, Option.some.injEq, exists_eq_left',
      forall_eq', Option.isNone_eq_false_iff, Option.isSome_iff_ne_none, List.cons_ne_nil,
      and_assoc, ne_eq]

theorem issueLinkDefects_eq_nil {link : NewIssueLinkInput} :
    issueLinkDefects rt link = [] ↔ WellFormed rt link := by
  unfold issueLinkDefects
  rw [List.append_eq_nil_iff]
  constructor
  · intro clean
    constructor
    · intro case
      have := clean.1
      rw [if_pos case] at this
      simpa only [List.append_eq_nil_iff, defectIf_eq_nil, Option.isNone_eq_false_iff,
        Option.isSome_iff_ne_none] using this
    · intro other
      have := clean.1
      rw [if_neg other] at this
      simpa only [defectIf_eq_nil, Option.isSome_eq_false_iff,
        Option.isNone_iff_eq_none] using this
    · intro commit
      have := clean.2
      rw [if_pos commit] at this
      exact commitDefects_eq_nil.mp this
    · intro other
      have := clean.2
      rw [if_neg other] at this
      simpa only [List.append_eq_nil_iff, defectIf_eq_nil, Option.isSome_eq_false_iff,
        Option.isNone_iff_eq_none, and_assoc] using this
  · intro formed
    constructor
    · split
      · next case =>
          simpa only [List.append_eq_nil_iff, defectIf_eq_nil, Option.isNone_eq_false_iff,
            Option.isSome_iff_ne_none] using formed.case case
      · next other =>
          simpa only [defectIf_eq_nil, Option.isSome_eq_false_iff,
            Option.isNone_iff_eq_none] using formed.noCase other
    · split
      · next commit => exact commitDefects_eq_nil.mpr (formed.commit commit)
      · next other =>
          simpa only [List.append_eq_nil_iff, defectIf_eq_nil, Option.isSome_eq_false_iff,
            Option.isNone_iff_eq_none, and_assoc] using formed.noCommit other

theorem WellFormed.stored {input : NewIssueLinkInput} (formed : WellFormed rt input) :
    WellFormed rt { input with id := normaliseIssueLinkId rt input.type input.id } where
  case := formed.case
  noCase := formed.noCase
  commit := by
    intro commit
    have isCommit : input.type = .commit := commit
    obtain ⟨named, sha, rest⟩ := formed.commit isCommit
    have idem : normaliseIssueLinkId rt .commit (normaliseIssueLinkId rt input.type input.id) =
        normaliseIssueLinkId rt .commit input.id := by
      rw [isCommit]
      exact normalise_of_isCommitSha sha
    exact ⟨named, idem.symm ▸ sha, rest⟩
  noCommit := formed.noCommit

/-- What a link the order witness lets pass may claim. -/
theorem mayClaim_of_no_refusal {input : NewIssueLinkInput}
    (pass : witnessRefusal rt record input = none) (commit : input.type = .commit) :
    MayClaim rt input.committedAt record.chain := by
  unfold witnessRefusal at pass
  rw [if_neg (not_not.mpr commit)] at pass
  cases chain : record.chain with
  | none => trivial
  | some chain' =>
      rw [chain] at pass
      dsimp only at pass
      cases chain' with
      | draft =>
          rw [if_pos (.inl rfl)] at pass
          cases pass
      | rejected at' by' reason =>
          rw [if_pos (.inr rfl)] at pass
          cases pass
      | accepted acceptedAt by' design =>
          rw [if_neg (by simp [IssueChain.state])] at pass
          cases dated : input.committedAt with
          | none =>
              rw [dated] at pass
              cases pass
          | some authored =>
              refine ⟨authored, rfl, fun before parsed decided parsed' => ?_⟩
              by_contra earlier
              rw [dated] at pass
              dsimp only at pass
              rw [Option.mem_def.mp parsed, Option.mem_def.mp parsed'] at pass
              dsimp only at pass
              rw [if_pos (not_le.mp earlier)] at pass
              cases pass
      | shipped at' by' =>
          rw [if_neg (by simp [IssueChain.state])] at pass
          cases dated : input.committedAt with
          | none =>
              rw [dated] at pass
              cases pass
          | some authored => rfl

theorem legal_link {input : NewIssueLinkInput}
    (eq : link rt record input by' now = .ok answer) : Legal rt record ⟨.link input, by', now⟩ answer := by
  unfold link at eq
  dsimp only at eq
  split at eq
  · cases eq
  next clean =>
  split at eq
  · cases eq
  next pass =>
  split at eq
  · cases eq
  next fresh =>
  cases eq
  have formed : WellFormed rt input := issueLinkDefects_eq_nil.mp (not_not.mp clean)
  refine ⟨.inr ⟨_, rfl⟩, (by rintro _ ⟨⟩), .inl ⟨rfl, rfl⟩, .inr (.inr ⟨input, rfl, rfl, ?_, ?_, ?_⟩)⟩
  · exact issueLinkDefects_eq_nil.mpr formed.stored
  · intro existing inLinks
    by_contra same
    exact fresh (List.any_eq_true.mpr ⟨existing, inLinks, Bool.of_not_eq_false same⟩)
  · intro commit
    exact mayClaim_of_no_refusal pass commit

theorem legal_unlink {type : IssueLinkType} {id : String} {where' : UnlinkWhere}
    (eq : unlink rt record type id where' by' now = .ok answer) : Legal rt record move answer := by
  unfold unlink at eq
  dsimp only at eq
  split at eq
  · cases eq
  cases eq
  exact ⟨.inr ⟨_, rfl⟩, (by rintro _ ⟨⟩), .inl ⟨rfl, rfl⟩,
    .inr (.inl ⟨_, rfl, List.filter_sublist⟩)⟩

/-- Every legal move does what a move may do. -/
theorem legal_of_transition (eq : transition rt record move = .ok answer) :
    Legal rt record move answer := by
  obtain ⟨change, by', now⟩ := move
  cases change with
  | update fields => exact legal_update eq
  | setStatus to' options => exact legal_setStatus eq
  | resolve scorecardId note cause => exact legal_resolve eq
  | reopen input => exact legal_reopen eq
  | accept design => exact legal_accept eq
  | reject reason => exact legal_reject eq
  | ship => exact legal_ship eq
  | redraft => exact legal_redraft eq
  | link input => exact legal_link eq
  | unlink type id where' => exact legal_unlink eq
  | setGithubSync sync => exact legal_setGithubSync eq
  | attachGithub github => exact legal_attachGithub eq
  | detachGithub => exact legal_detachGithub eq
  | applyGithubPull remote => exact legal_applyGithubPull eq
  | recordGithubPush outcome => exact legal_recordGithubPush eq
  | recordGithubPullFailure message => exact legal_recordGithubPullFailure eq

/-! ## Histories -/

/-- The chain of an issue after some moves. -/
def chainAfter (birth : IssueRecord) (log : List (Move × IssueTransition)) : Option IssueChain :=
  (chains log).getLast?.or birth.chain

/-- A link was added by a move, and the order witness judged it there. -/
def Claimed (rt : Runtime) (birth : IssueRecord) (log : List (Move × IssueTransition))
    (link : IssueLink) : Prop :=
  ∃ before x after input, log = before ++ x :: after ∧ x.1.change = .link input ∧
    link = storedLink rt input x.1.by' x.1.now ∧
    MayClaim rt link.committedAt (chainAfter birth before)

/-- What every history keeps. -/
structure Kept (rt : Runtime) (birth : IssueRecord) (log : List (Move × IssueTransition))
    (record : IssueRecord) : Prop where
  links : LinksSound rt birth.links record.links
  allLinks : LinksSound rt [] birth.links → LinksSound rt [] record.links
  closed : record.status = .done → record.resolution.isSome ∨
    statusMoves (log.flatMap fun x => x.2.facts) = []
  told : LeadsTo birth.status (statusMoves (log.flatMap fun x => x.2.facts)) record.status
  moved : ∀ step ∈ statusMoves (log.flatMap fun x => x.2.facts),
    step.1 ≠ step.2 ∧ (step.2 = .regressed → step.1 = .done)
  chain : record.chain = chainAfter birth log
  arrows : (birth.chain :: (chains log).map some).IsChain fun a b => ∀ next ∈ b, ChainArrow a next
  claims : ∀ link ∈ record.links, link.type = .commit → link ∈ birth.links ∨
    Claimed rt birth log link
  history : record.history = (birth.history ++ audit log).rtake TRACKER_HISTORY_LIMIT

theorem rtake_rtake {α : Type} (l : List α) (m n : Nat) :
    (l.rtake m).rtake n = l.rtake (min n m) := by
  simp [List.rtake_eq_reverse_take_reverse, List.take_take]

theorem appendHistory_eq (history : List TrackerHistoryEntry) (entry : TrackerHistoryEntry) :
    appendHistory history entry = (history ++ [entry]).rtake TRACKER_HISTORY_LIMIT := by
  unfold appendHistory List.rtake
  dsimp only
  split
  · rfl
  · next short =>
      rw [Nat.sub_eq_zero_of_le (not_lt.mp short), List.drop_zero]

/-- Of a tail that is cut again, what is left is the tail of the whole. -/
theorem appendHistory_rtake (all : List TrackerHistoryEntry) (entry : TrackerHistoryEntry) :
    appendHistory (all.rtake TRACKER_HISTORY_LIMIT) entry =
      (all ++ [entry]).rtake TRACKER_HISTORY_LIMIT := by
  rw [appendHistory_eq]
  unfold TRACKER_HISTORY_LIMIT
  rw [List.rtake_concat_succ, List.rtake_concat_succ, rtake_rtake]
  rfl

theorem getLast?_appendHistory (history : List TrackerHistoryEntry)
    (entry : TrackerHistoryEntry) : (appendHistory history entry).getLast? = some entry := by
  rw [appendHistory_eq]
  unfold TRACKER_HISTORY_LIMIT
  rw [List.rtake_concat_succ, List.getLast?_concat]

theorem statusMoves_append (facts facts' : List DomainFact) :
    statusMoves (facts ++ facts') = statusMoves facts ++ statusMoves facts' :=
  List.filterMap_append

theorem LeadsTo.concat {α : Type} {a b c : α} {steps : List (α × α)} (path : LeadsTo a steps b) :
    LeadsTo a (steps ++ [(b, c)]) c := by
  induction steps generalizing a with
  | nil => exact ⟨path.symm, rfl⟩
  | cons step steps ih => exact ⟨path.1, ih path.2⟩

variable {input : NewIssueInput} {log : List (Move × IssueTransition)} {birth : IssueRecord}

theorem kept_birth (input : NewIssueInput) : Kept rt (newIssue input) [] (newIssue input) where
  links :=
    { apart := List.pairwise_of_forall_mem_list fun _ inA _ inB => .inr ⟨inA, inB⟩
      sound := fun _ inLinks => .inr inLinks }
  allLinks sound := sound
  closed _ := .inr rfl
  told := rfl
  moved := by simp [statusMoves]
  chain := rfl
  arrows := .singleton _
  claims _ inLinks _ := .inl inLinks
  history := by simp [newIssue, audit, List.rtake, TRACKER_HISTORY_LIMIT]

theorem Claimed.later {link : IssueLink} {x : Move × IssueTransition}
    (claimed : Claimed rt birth log link) : Claimed rt birth (log ++ [x]) link := by
  obtain ⟨before, y, after, input, eq, change, stored, may⟩ := claimed
  exact ⟨before, y, after ++ [x], input, by simp [eq], change, stored, may⟩

theorem chainAfter_concat (x : Move × IssueTransition) :
    chainAfter birth (log ++ [x]) = x.2.patch.chain.or (chainAfter birth log) := by
  unfold chainAfter chains
  cases next : x.2.patch.chain with
  | none => simp [next]
  | some chain => simp [next]

theorem getLast?_chains :
    (birth.chain :: (chains log).map some).getLast? = some (chainAfter birth log) := by
  unfold chainAfter
  rcases List.eq_nil_or_concat (chains log) with none' | ⟨front, last, eq⟩
  · simp [none']
  · rw [eq, List.concat_eq_append, List.map_append, List.map_singleton, ← List.cons_append,
      List.getLast?_concat, List.getLast?_concat]
    rfl

theorem Legal.links_sound {born : List IssueLink} (legal : Legal rt record move answer)
    (sound : LinksSound rt born record.links) :
    LinksSound rt born (answer.patch.apply record).links := by
  rw [IssuePatch.apply_links]
  rcases legal.links with same | ⟨links, eq, fewer⟩ | ⟨input, -, eq, clean, fresh, -⟩
  · rw [same]
    exact sound
  · rw [eq]
    exact ⟨sound.apart.sublist fewer, fun link inLinks => sound.sound link (fewer.subset inLinks)⟩
  · rw [eq]
    constructor
    · refine List.pairwise_append.mpr ⟨sound.apart, List.pairwise_singleton .., ?_⟩
      intro existing inLinks added inNew
      rw [List.mem_singleton.mp inNew]
      exact .inl (fresh existing inLinks)
    · intro link inLinks
      rcases List.mem_append.mp inLinks with old | new
      · exact sound.sound link old
      · rw [List.mem_singleton.mp new]
        exact .inl clean

/-- One legal move keeps everything. -/
theorem kept_step (kept : Kept rt birth log record) (legal : Legal rt record move answer) :
    Kept rt birth (log ++ [(move, answer)]) (answer.patch.apply record) where
  links := legal.links_sound kept.links
  allLinks sound := legal.links_sound (kept.allLinks sound)
  closed := by
    rw [IssuePatch.apply_status, IssuePatch.apply_resolution, Option.isSome_or,
      List.flatMap_append, List.flatMap_singleton, statusMoves_append]
    rcases legal.status with ⟨same, silent⟩ | ⟨next, eq, -, -, closed, -⟩
    · rw [same, silent, List.append_nil]
      exact fun done => (kept.closed done).imp_left fun resolved => Bool.or_eq_true_iff.mpr (.inr resolved)
    · rw [eq]
      exact fun done => .inl (Bool.or_eq_true_iff.mpr (.inl (closed done)))
  told := by
    rw [IssuePatch.apply_status, List.flatMap_append, List.flatMap_singleton, statusMoves_append]
    rcases legal.status with ⟨same, silent⟩ | ⟨next, eq, -, told, -, -⟩
    · rw [same, silent, List.append_nil]
      exact kept.told
    · rw [eq, told]
      exact kept.told.concat
  moved := by
    rw [List.flatMap_append, List.flatMap_singleton, statusMoves_append]
    intro step inSteps
    rcases List.mem_append.mp inSteps with old | new
    · exact kept.moved step old
    rcases legal.status with ⟨-, silent⟩ | ⟨next, -, moved, told, -, fell⟩
    · rw [silent] at new
      cases new
    · rw [told, List.mem_singleton] at new
      rw [new]
      exact ⟨moved.symm, fell⟩
  chain := by
    rw [chainAfter_concat, ← kept.chain, IssuePatch.apply_chain]
  arrows := by
    cases next : answer.patch.chain with
    | none => simpa [chains, next] using kept.arrows
    | some chain =>
        have grown : chains (log ++ [(move, answer)]) = chains log ++ [chain] := by
          simp [chains, next]
        rw [grown, List.map_append, List.map_singleton, ← List.cons_append]
        refine List.isChain_append.mpr ⟨kept.arrows, .singleton _, ?_⟩
        intro last isLast first isFirst chain' isNext
        rw [getLast?_chains, Option.mem_some_iff] at isLast
        obtain rfl := Option.some.inj isFirst
        obtain rfl := Option.some.inj isNext
        rw [← isLast, ← kept.chain]
        exact legal.chain chain next
  claims := by
    rw [IssuePatch.apply_links]
    intro link inLinks commit
    rcases legal.links with same | ⟨links, eq, fewer⟩ | ⟨input, change, eq, -, -, may⟩
    · rw [same] at inLinks
      exact (kept.claims link inLinks commit).imp_right Claimed.later
    · rw [eq] at inLinks
      exact (kept.claims link (fewer.subset inLinks) commit).imp_right Claimed.later
    · rw [eq] at inLinks
      rcases List.mem_append.mp inLinks with old | new
      · exact (kept.claims link old commit).imp_right Claimed.later
      · obtain rfl := List.mem_singleton.mp new
        exact .inr ⟨log, (move, answer), [], input, rfl, change, rfl, kept.chain ▸ may commit⟩
  history := by
    rw [IssuePatch.apply_history]
    rcases legal.history with same | ⟨entry, eq⟩
    · rw [same]
      simpa [audit, same] using kept.history
    · have grown : audit (log ++ [(move, answer)]) = audit log ++ [entry] := by
        simp [audit, eq, getLast?_appendHistory]
      rw [eq, grown, ← List.append_assoc, Option.getD_some, kept.history, appendHistory_rtake]

/-- Every history of an issue keeps all of it. -/
theorem issue_history {record : IssueRecord}
    (run : Runs (machine rt) Always (newIssue input) log record) :
    Kept rt (newIssue input) log record := by
  refine run.invariant (kept_birth input) ?_
  intro log s move t answer kept _ eq
  unfold machine at eq
  cases moved : transition rt s move with
  | error refusal => simp [moved] at eq
  | ok answer' =>
      simp only [moved, Option.some.injEq, Prod.mk.injEq] at eq
      obtain ⟨rfl, rfl⟩ := eq
      exact kept_step kept (legal_of_transition moved)

/-- The language on ASCII texts and on the dates of the history below. -/
def plainRuntime : Runtime where
  dateParse := fun date =>
    if date = "2026-09-01T10:00:00.000Z" then some 1788256800000
    else if date = "2026-09-02T10:00:00.000Z" then some 1788343200000
    else if date = "2026-09-01" then some 1788220800000
    else none
  toLowerCase := fun s => String.ofList (s.toList.map Char.toLower)
  ascii := fun _ _ => rfl

/-- Born with one link twice. -/
def filed : NewIssueInput :=
  { id := "7d1f", tenant := "acme", number := 12, identifier := "EVD-12", title := "Five cases fail"
    links := some [{ type := .harness, id := "agent" }, { type := .harness, id := "agent" }]
    createdBy := "ada", now := "2026-09-01T10:00:00.000Z" }

/-- Accepted, claimed by a commit, shipped, resolved, and fallen back. -/
def regression : List Move :=
  [⟨.accept (.declined "one line"), "ada", "2026-09-01T10:00:00.000Z"⟩,
    ⟨.link { type := .commit, id := " 3FA9C21 ", repository := some "acme/agent"
             committedAt := some "2026-09-02T10:00:00.000Z" }, "bob", "2026-09-02T10:00:00.000Z"⟩,
    ⟨.ship, "ada", "2026-09-02T10:00:00.000Z"⟩,
    ⟨.resolve (some "sc-9") none .manual, "ada", "2026-09-02T10:00:00.000Z"⟩,
    ⟨.reopen { to' := some .regressed, cause := .regression }, "watch",
      "2026-09-02T10:00:00.000Z"⟩]

theorem issue_history_regression :
    ∃ log record, Runs (machine plainRuntime) Always (newIssue filed) log record ∧
      record.status = .regressed ∧ Kept plainRuntime (newIssue filed) log record := by
  obtain ⟨log, record, run, status⟩ := exists_run_of_exec (machine plainRuntime) Always
    (newIssue filed) regression (fun record => record.status = .regressed) (by decide +kernel)
  exact ⟨log, record, run, of_decide_eq_true status, issue_history run⟩

end Everdict.Tracker
