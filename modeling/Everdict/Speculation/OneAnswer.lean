import Everdict.Speculation.Controller

/-!
# One answer for a speculated case

The handlers of a race keep the books of a first-success race (`CaseRace.book`), so the
answer, the losers and the failures handed over are those that `FirstSuccess.Accounts` says.
What the books do not see is which job a branch names: the duplicate names the job the
reattempt hook gave it, and where the hook rejects, the shell, which carries the attempt id
of the primary.
-/

namespace Everdict.Speculation

open FirstSuccess

variable {ρ ε : Type*}

/-! ## What a race has done -/

structure Dispatch where
  branch : Branch
  job : CaseJob
  opened : List String

namespace Call

def dispatch : Call ρ ε → Option Dispatch
  | .execute branch job opened => some ⟨branch, job, opened⟩
  | _ => none

/-- The runtime a duplicate is meant for, with the circuits open when it was picked. -/
def pick : Call ρ ε → Option (String × List String)
  | .onSpeculate _ _ target opened => some (target, opened)
  | _ => none

/-- How the returned promise was settled: with an answer, or with a rejection. -/
def settlement : Call ρ ε → Option (Option (SpilloverOutcome ρ))
  | .resolve v => some (some v)
  | .reject _ => some none
  | _ => none

def loser : Call ρ ε → Option (SpilloverOutcome ρ)
  | .onLoser v _ => some v
  | _ => none

def failure : Call ρ ε → Option CaseJob
  | .onLoserFailure job _ => some job
  | _ => none

end Call

namespace CaseRace

def dispatches (race : CaseRace ρ ε) : List Dispatch := race.calls.filterMap Call.dispatch

def duplicates (race : CaseRace ρ ε) : List Dispatch :=
  race.dispatches.filter fun d => d.branch = .duplicate

def picks (race : CaseRace ρ ε) : List (String × List String) := race.calls.filterMap Call.pick

def settlements (race : CaseRace ρ ε) : List (Option (SpilloverOutcome ρ)) :=
  race.calls.filterMap Call.settlement

def losers (race : CaseRace ρ ε) : List (SpilloverOutcome ρ) := race.calls.filterMap Call.loser

def failures (race : CaseRace ρ ε) : List CaseJob := race.calls.filterMap Call.failure

/-- The ending that answered the case. -/
def answered (race : CaseRace ρ ε) : Option (Ending Branch CaseJob (SpilloverOutcome ρ)) :=
  race.ended.find? fun x => x.value.isSome

end CaseRace

/-- What a race has done for the endings it has seen. -/
structure OneAnswer (opts : SpeculationOpts) (race : CaseRace ρ ε) : Prop where
  /-- Every branch that was dispatched is out or has ended, and no branch ends twice. -/
  tracked : ∀ d ∈ race.dispatches, d.branch ∈ race.inFlight ++ race.ended.map Ending.branch
  once : (race.inFlight ++ race.ended.map Ending.branch).Nodup
  one_duplicate : race.duplicates.length ≤ 1
  /-- A duplicate goes to a runtime that is not the assigned one, picked while its circuit was
  closed and dispatched while it is. -/
  elsewhere : ∀ d ∈ race.duplicates, ∃ target ∈ opts.targets,
    assignedTarget d.job = some target ∧ some target ≠ assignedTarget race.job ∧
      (∃ opened, (target, opened) ∈ race.picks ∧ circuit opts target ∉ opened) ∧
      circuit opts target ∉ d.opened
  settles_once : race.settlements.length ≤ 1
  first_answers : ∀ v rest, wins race.ended = v :: rest → race.settlements = [some v]
  rejects_last : none ∈ race.settlements → wins race.ended = [] ∧ race.inFlight = []
  rejects : wins race.ended = [] → race.inFlight = [] → race.settlements = [none]
  losers_handed : race.losers = (wins race.ended).tail
  failures_handed : wins race.ended ≠ [] →
    race.failures = (losses race.ended).map Prod.snd
  failures_of_failed : wins race.ended = [] → race.inFlight = [] →
    race.failures = ((losses race.ended).filter fun x => x.1 ≠ .primary).map Prod.snd
  failures_wait : wins race.ended = [] → race.inFlight ≠ [] → race.failures = []
  /-- No job handed over as a failed branch's carries the attempt id of the branch that
  answered. -/
  named : ∀ x, race.answered = some x → ∀ job ∈ race.failures, ∀ a,
    job.attemptId = some a → x.coords.attemptId ≠ some a

/-! ## The runs -/

/-- The hook answers with the shell's job under a fresh attempt id. -/
def Admissible (s : Controller ρ ε) : Event ρ ε → Prop
  | .turn i (.reattempted answer _) => ∀ race ∈ s.races[i]?, ∃ job ∈ answer,
      race.duplicate.map CaseJob.evalCase = some job.evalCase ∧
        ∀ a ∈ job.attemptId, race.job.attemptId ≠ some a
  | _ => True

instance (s : Controller ρ ε) : ∀ e, Decidable (Admissible s e)
  | .turn i (.reattempted answer _) => inferInstanceAs (Decidable (∀ race ∈ s.races[i]?,
      ∃ job ∈ answer, race.duplicate.map CaseJob.evalCase = some job.evalCase ∧
        ∀ a ∈ job.attemptId, race.job.attemptId ≠ some a))
  | .turn _ (.timer ..) | .turn _ (.reattemptRejected _) | .turn _ (.fulfilled ..)
  | .turn _ (.rejected ..) | .run .. => inferInstanceAs (Decidable True)

/-- The hook does not reject in a race that the primary answers under an attempt id, and the
circuit of the picked runtime does not open while the hook is out. -/
def Spared (opts : SpeculationOpts) (s : Controller ρ ε) : Event ρ ε → Prop
  | .turn i (.reattemptRejected _) => ∀ race ∈ s.races[i]?, race.job.attemptId ≠ none →
      ∀ x ∈ race.ended, x.branch = .primary → x.value = none
  | .turn i (.fulfilled branch _ _) => ∀ race ∈ s.races[i]?, race.job.attemptId ≠ none →
      branch = .primary → race.duplicateJob = none → ∀ x ∈ race.ended, x.branch ≠ .duplicate
  | .turn i (.reattempted _ opened) => ∀ race ∈ s.races[i]?, ∀ pick ∈ race.picks,
      circuit opts pick.1 ∉ opened
  | _ => True

instance (opts : SpeculationOpts) (s : Controller ρ ε) : ∀ e, Decidable (Spared opts s e)
  | .turn i (.reattemptRejected _) => inferInstanceAs (Decidable (∀ race ∈ s.races[i]?,
      race.job.attemptId ≠ none → ∀ x ∈ race.ended, x.branch = .primary → x.value = none))
  | .turn i (.fulfilled branch _ _) => inferInstanceAs (Decidable (∀ race ∈ s.races[i]?,
      race.job.attemptId ≠ none → branch = .primary → race.duplicateJob = none →
        ∀ x ∈ race.ended, x.branch ≠ .duplicate))
  | .turn i (.reattempted _ opened) => inferInstanceAs (Decidable (∀ race ∈ s.races[i]?,
      ∀ pick ∈ race.picks, circuit opts pick.1 ∉ opened))
  | .turn _ (.timer ..) | .turn _ (.rejected ..) | .run .. => inferInstanceAs (Decidable True)

/-! ## The books of a race -/

namespace CaseRace

def book (race : CaseRace ρ ε) : Race Branch CaseJob (SpilloverOutcome ρ) where
  running := race.inFlight
  ended := race.ended
  pending := race.pending
  settled := race.settled
  stashed := race.rejectedBranches
  settlements := race.settlements
  losers := race.losers
  failures := race.failures

section projections

variable (race : CaseRace ρ ε) (lost : List (Branch × CaseJob))

@[simp] theorem settlements_handOver :
    (race.handOver lost).filterMap Call.settlement = [] := by
  simp [handOver, Call.settlement, Function.comp_def]

@[simp] theorem losers_handOver : (race.handOver lost).filterMap Call.loser = [] := by
  simp [handOver, Call.loser, Function.comp_def]

@[simp] theorem dispatches_handOver : (race.handOver lost).filterMap Call.dispatch = [] := by
  simp [handOver, Call.dispatch, Function.comp_def]

@[simp] theorem picks_handOver : (race.handOver lost).filterMap Call.pick = [] := by
  simp [handOver, Call.pick, Function.comp_def]

@[simp] theorem failures_handOver :
    (race.handOver lost).filterMap Call.failure = lost.map Prod.snd := by
  simp [handOver, Call.failure, List.filterMap_map, Function.comp_def]

end projections

variable {race : CaseRace ρ ε} {branch : Branch}

theorem book_onFulfilled (race : CaseRace ρ ε) (branch : Branch) (v : SpilloverOutcome ρ)
    (now : ℚ) :
    (race.onFulfilled branch v now).1.book
      = race.book.fulfil branch (race.branchJobOf branch) v := by
  cases settled : race.settled <;> cases speculated : race.speculated <;>
    simp [onFulfilled, branchEnded, book, Race.fulfil, settled, speculated, finish, call,
      settlements, losers, failures, Call.settlement, Call.loser, Call.failure, List.filterMap_cons,
      -List.filterMap_eq_nil_iff]

theorem book_onRejected (race : CaseRace ρ ε) (branch : Branch) (e : Option ε) :
    (race.onRejected branch e).book
      = race.book.refuse .primary branch (race.branchJobOf branch) := by
  cases settled : race.settled <;> by_cases last : race.pending - 1 = 0 <;>
    simp [onRejected, branchEnded, book, Race.refuse, Race.giveUp, settled, last, finish, call,
      settlements, losers, failures, Call.settlement, Call.loser, Call.failure, List.filterMap_cons,
      -List.filterMap_eq_nil_iff]

theorem onTimer_cases (race : CaseRace ρ ε) (opts : SpeculationOpts) (s : Controller ρ ε) (now : ℚ)
    (opened : List String) :
    (∃ timer, race.onTimer opts s now opened = { race with timer := timer }) ∨
      ∃ target, race.settled = false ∧ race.speculated = false ∧
        duplicateTarget opts opened (assignedTarget race.job) = some target ∧
        race.onTimer opts s now opened = race.speculate target opened := by
  rw [onTimer]
  by_cases done : (race.settled || race.speculated) = true
  · exact Or.inl ⟨none, if_pos done⟩
  · rw [Bool.or_eq_true, not_or, Bool.not_eq_true, Bool.not_eq_true] at done
    simp only [done.1, done.2, Bool.or_self, Bool.false_eq_true, if_false]
    split
    · exact Or.inl ⟨_, rfl⟩
    · split
      · exact Or.inl ⟨_, rfl⟩
      · split
        · exact Or.inl ⟨none, rfl⟩
        · next target found =>
            refine Or.inr ⟨target, trivial, trivial, found, ?_⟩
            simp [speculate, call, join, done.1]

end CaseRace

/-- The runtime was a candidate when it was picked. -/
structure PickedFor (opts : SpeculationOpts) (job : CaseJob) (target : String)
    (opened : List String) : Prop where
  listed : target ∈ opts.targets
  elsewhere : some target ≠ assignedTarget job
  closed : circuit opts target ∉ opened

theorem pickedFor_of_duplicateTarget {opts : SpeculationOpts} {job : CaseJob} {target : String}
    {opened : List String}
    (found : duplicateTarget opts opened (assignedTarget job) = some target) :
    PickedFor opts job target opened := by
  rw [duplicateTarget] at found
  split at found
  · cases found
  · have holds := List.find?_some found
    rw [decide_eq_true_eq] at holds
    exact ⟨List.mem_of_find?_eq_some found, holds.1, holds.2⟩

/-! ## The invariant of a race -/

namespace CaseRace

/-- The branches that were started. -/
def branches (race : CaseRace ρ ε) : List Branch :=
  race.inFlight ++ race.ended.map Ending.branch

structure Kept (opts : SpeculationOpts) (race : CaseRace ρ ε) : Prop where
  sound : Sound .primary race.book
  dispatched : ∀ d ∈ race.dispatches, d.branch ∈ race.branches
  joined : .duplicate ∈ race.branches ↔ race.speculated = true
  unpicked : race.speculated = false →
    race.duplicate = none ∧ race.duplicateJob = none ∧ race.picks = []
  unsent : race.duplicateJob = none → race.duplicates = []
  picked : ∀ shell, race.duplicate = some shell → ∃ target opened,
    race.picks = [(target, opened)] ∧ PickedFor opts race.job target opened ∧
      shell = duplicateOf race.job target
  sent : ∀ job, race.duplicateJob = some job → ∃ shell opened,
    race.duplicate = some shell ∧ job.evalCase = shell.evalCase ∧
      race.duplicates = [⟨.duplicate, job, opened⟩] ∧
      (∀ pick ∈ race.picks, circuit opts pick.1 ∉ opened) ∧
      ∀ a, job.attemptId = some a → race.job.attemptId ≠ some a
  coords : ∀ x ∈ race.ended, x.coords = race.branchJobOf x.branch
  won : ∀ x ∈ race.ended, x.branch = .duplicate → x.value ≠ none → race.duplicateJob ≠ none
  spared : race.duplicateJob = none → .duplicate ∈ race.ended.map Ending.branch →
    race.job.attemptId ≠ none → ∀ x ∈ race.ended, x.branch = .primary → x.value = none

/-- What the end of a branch leaves as it is. -/
structure Same (race after : CaseRace ρ ε) : Prop where
  job : after.job = race.job
  speculated : after.speculated = race.speculated
  duplicate : after.duplicate = race.duplicate
  duplicateJob : after.duplicateJob = race.duplicateJob
  dispatches : after.dispatches = race.dispatches
  picks : after.picks = race.picks

theorem same_onFulfilled (race : CaseRace ρ ε) (branch : Branch) (v : SpilloverOutcome ρ)
    (now : ℚ) : Same race (race.onFulfilled branch v now).1 := by
  constructor <;> cases settled : race.settled <;> cases speculated : race.speculated <;>
    simp [onFulfilled, branchEnded, settled, speculated, finish, call, dispatches, picks,
      Call.dispatch, Call.pick, List.filterMap_cons, -List.filterMap_eq_nil_iff]

theorem same_onRejected (race : CaseRace ρ ε) (branch : Branch) (e : Option ε) :
    Same race (race.onRejected branch e) := by
  constructor <;> cases settled : race.settled <;> by_cases last : race.pending - 1 = 0 <;>
    simp [onRejected, branchEnded, settled, last, finish, call, dispatches, picks,
      Call.dispatch, Call.pick, List.filterMap_cons, -List.filterMap_eq_nil_iff]

theorem Same.branchJobOf {race after : CaseRace ρ ε} (same : Same race after) :
    after.branchJobOf = race.branchJobOf := by
  funext branch
  cases branch with
  | primary => exact same.job
  | duplicate => simp only [CaseRace.branchJobOf, same.job, same.duplicate, same.duplicateJob]

variable {opts : SpeculationOpts} {race after : CaseRace ρ ε} {branch : Branch}

/-- A branch ends: it moves to the ended ones with the job it names. -/
theorem Kept.ends (kept : Kept opts race) (runs : branch ∈ race.inFlight)
    (value : Option (SpilloverOutcome ρ)) (same : Same race after)
    (sound : Sound .primary after.book) (inFlight : after.inFlight = race.inFlight.erase branch)
    (ended : after.ended = race.ended ++ [.mk branch (race.branchJobOf branch) value])
    (sentFirst : branch = .duplicate → value ≠ none → race.duplicateJob ≠ none)
    (spared : race.duplicateJob = none → race.job.attemptId ≠ none →
      (branch = .duplicate → ∀ x ∈ race.ended, x.branch = .primary → x.value = none) ∧
      (branch = .primary → .duplicate ∈ race.ended.map Ending.branch → value = none)) :
    Kept opts after := by
  have moved : race.branches.Perm after.branches := by
    rw [branches, branches, inFlight, ended]
    exact @perm_ended _ _ _ _ _ race.book runs _ _
  have duplicates : after.duplicates = race.duplicates := by
    rw [CaseRace.duplicates, CaseRace.duplicates, same.dispatches]
  have cases_ended : ∀ {P : Ending Branch CaseJob (SpilloverOutcome ρ) → Prop},
      (∀ x ∈ race.ended, P x) → P (.mk branch (race.branchJobOf branch) value) →
      ∀ x ∈ after.ended, P x := by
    intro P old new x inside
    rw [ended, List.mem_append, List.mem_singleton] at inside
    rcases inside with inside | rfl
    · exact old x inside
    · exact new
  refine ⟨sound, ?_, ?_, ?_, ?_, ?_, ?_, ?_, ?_, ?_⟩
  · rw [same.dispatches]
    exact fun d inside => moved.mem_iff.mp (kept.dispatched d inside)
  · rw [same.speculated, ← kept.joined]
    exact moved.mem_iff.symm
  · rw [same.speculated, same.duplicate, same.duplicateJob, same.picks]
    exact kept.unpicked
  · rw [same.duplicateJob, duplicates]
    exact kept.unsent
  · rw [same.duplicate, same.picks, same.job]
    exact kept.picked
  · rw [same.duplicate, same.duplicateJob, same.picks, same.job, duplicates]
    exact kept.sent
  · rw [same.branchJobOf]
    exact cases_ended kept.coords rfl
  · rw [same.duplicateJob]
    exact cases_ended kept.won sentFirst
  · rw [same.duplicateJob, same.job]
    intro unsent lost named
    obtain ⟨ofDuplicate, ofPrimary⟩ := spared unsent named
    rw [ended, List.map_append, List.map_singleton, List.mem_append, List.mem_singleton] at lost
    refine cases_ended (fun x inside primary => ?_) fun primary => ?_
    · rcases lost with before | now
      · exact kept.spared unsent before named x inside primary
      · exact ofDuplicate now.symm x inside primary
    · rcases lost with before | now
      · exact ofPrimary primary before
      · rw [← now] at primary
        cases primary

theorem Kept.onFulfilled (kept : Kept opts race) (runs : race.Runs branch)
    (v : SpilloverOutcome ρ) (now : ℚ)
    (spared : branch = .primary → race.job.attemptId ≠ none → race.duplicateJob = none →
      .duplicate ∉ race.ended.map Ending.branch) :
    Kept opts (race.onFulfilled branch v now).1 := by
  have book := book_onFulfilled race branch v now
  have running : (race.book.fulfil branch (race.branchJobOf branch) v).running
      = race.inFlight.erase branch := by
    rw [Race.fulfil]
    split <;> rfl
  have ended : (race.book.fulfil branch (race.branchJobOf branch) v).ended
      = race.ended ++ [.mk branch (race.branchJobOf branch) (some v)] := by
    rw [Race.fulfil]
    split <;> rfl
  refine kept.ends runs.1 (some v) (same_onFulfilled race branch v now) ?_ ?_ ?_
    (fun isDuplicate _ => runs.2 isDuplicate) fun unsent named => ⟨?_, ?_⟩
  · rw [book]
    exact kept.sound.fulfil runs.1
  · exact (congrArg Race.running book).trans running
  · exact (congrArg Race.ended book).trans ended
  · exact fun isDuplicate => absurd unsent (runs.2 isDuplicate)
  · exact fun isPrimary lost => absurd lost (spared isPrimary named unsent)

theorem Kept.onRejected (kept : Kept opts race) (runs : branch ∈ race.inFlight) (e : Option ε)
    (spared : branch = .duplicate → race.duplicateJob = none → race.job.attemptId ≠ none →
      ∀ x ∈ race.ended, x.branch = .primary → x.value = none) :
    Kept opts (race.onRejected branch e) := by
  have book := book_onRejected race branch e
  have refused : (race.book.refuse .primary branch (race.branchJobOf branch)).running
        = race.inFlight.erase branch ∧
      (race.book.refuse .primary branch (race.branchJobOf branch)).ended
        = race.ended ++ [.mk branch (race.branchJobOf branch) none] := by
    cases settled : race.settled <;> by_cases last : race.pending - 1 = 0 <;>
      simp [Race.refuse, Race.giveUp, CaseRace.book, settled, last]
  refine kept.ends runs none (same_onRejected race branch e) ?_ ?_ ?_
    (fun _ won => absurd rfl won) fun unsent named => ⟨?_, fun _ _ => rfl⟩
  · rw [book]
    exact kept.sound.refuse runs
  · exact (congrArg Race.running book).trans refused.1
  · exact (congrArg Race.ended book).trans refused.2
  · exact fun isDuplicate => spared isDuplicate unsent named

/-- A timer that is set again, or has run out, changes nothing else. -/
theorem Kept.timed (kept : Kept opts race) (timer : Option ℚ) :
    Kept opts { race with timer := timer } :=
  ⟨kept.sound, kept.dispatched, kept.joined, kept.unpicked, kept.unsent, kept.picked, kept.sent,
    kept.coords, kept.won, kept.spared⟩

theorem Kept.speculate (kept : Kept opts race) (isOpen : race.settled = false)
    (alone : race.speculated = false) {target : String} {opened : List String}
    (found : duplicateTarget opts opened (assignedTarget race.job) = some target) :
    Kept opts (race.speculate target opened) := by
  have absent : Branch.duplicate ∉ race.branches := by
    rw [kept.joined, alone]
    exact Bool.false_ne_true
  have unsent := (kept.unpicked alone).2.1
  have dispatches : (race.speculate target opened).dispatches = race.dispatches := by
    simp [CaseRace.speculate, CaseRace.dispatches, call, join, Call.dispatch]
  have started : (race.speculate target opened).branches.Perm
      (Branch.duplicate :: race.branches) := by
    show ((race.inFlight ++ [Branch.duplicate]) ++ race.ended.map Ending.branch).Perm _
    rw [List.append_assoc]
    exact List.perm_middle
  rw [branches, List.mem_append, not_or] at absent
  refine ⟨?_, ?_, ?_, ?_, ?_, ?_, ?_, ?_, ?_, ?_⟩
  · have joined : (race.speculate target opened).book = race.book.join .duplicate := by
      simp [CaseRace.speculate, book, Race.join, call, join, settlements, losers, failures,
        Call.settlement, Call.loser, Call.failure, List.filterMap_cons,
        -List.filterMap_eq_nil_iff]
    rw [joined]
    exact kept.sound.join isOpen absent.1 absent.2
  · rw [dispatches]
    exact fun d inside =>
      started.mem_iff.mpr (List.mem_cons_of_mem _ (kept.dispatched d inside))
  · exact iff_of_true (started.mem_iff.mpr List.mem_cons_self) rfl
  · intro isFalse
    cases isFalse
  · intro _
    rw [duplicates, dispatches]
    exact kept.unsent unsent
  · rintro shell ⟨⟩
    refine ⟨target, opened, ?_, pickedFor_of_duplicateTarget found, rfl⟩
    have before := (kept.unpicked alone).2.2
    rw [picks] at before
    simp [CaseRace.speculate, picks, call, join, before, Call.pick]
  · intro job isSent
    cases unsent.symm.trans isSent
  · intro x inside
    rw [kept.coords x inside]
    rcases x with ⟨_ | _, coords, value⟩
    · rfl
    · exact absurd (List.mem_map_of_mem (f := Ending.branch) inside) absent.2
  · exact kept.won
  · exact fun _ lost => absurd lost absent.2

theorem Kept.onReattempted (kept : Kept opts race) (opening : race.Opening) {job : CaseJob}
    (opened : List String)
    (shaped : race.duplicate.map CaseJob.evalCase = some job.evalCase)
    (fresh : ∀ a, job.attemptId = some a → race.job.attemptId ≠ some a)
    (closed : ∀ pick ∈ race.picks, circuit opts pick.1 ∉ opened) :
    Kept opts (race.onReattempted (some job) opened) := by
  obtain ⟨shell, isShell, evalCase⟩ := Option.map_eq_some_iff.mp shaped
  have alone := kept.unsent opening.1
  have unended : Branch.duplicate ∉ race.ended.map Ending.branch := by
    have once := kept.sound.once
    rw [List.nodup_append] at once
    exact fun inside => once.2.2 Branch.duplicate opening.2 _ inside rfl
  have dispatches : (race.onReattempted (some job) opened).dispatches
      = race.dispatches ++ [⟨.duplicate, job, opened⟩] := by
    simp [CaseRace.onReattempted, CaseRace.dispatches, call, Call.dispatch]
  have picks : (race.onReattempted (some job) opened).picks = race.picks := by
    simp [CaseRace.onReattempted, CaseRace.picks, call, Call.pick]
  have branches : (race.onReattempted (some job) opened).branches = race.branches := rfl
  refine ⟨?_, ?_, kept.joined, ?_, ?_, ?_, ?_, ?_, ?_, ?_⟩
  · have same : (race.onReattempted (some job) opened).book = race.book := by
      simp [CaseRace.onReattempted, book, call, settlements, losers, failures,
        Call.settlement, Call.loser, Call.failure, List.filterMap_cons,
        -List.filterMap_eq_nil_iff]
    rw [same]
    exact kept.sound
  · rw [dispatches, branches]
    intro d inside
    rw [List.mem_append, List.mem_singleton] at inside
    rcases inside with inside | rfl
    · exact kept.dispatched d inside
    · exact List.mem_append_left _ opening.2
  · intro none_yet
    cases isShell.symm.trans (kept.unpicked none_yet).1
  · exact fun unsent => nomatch unsent
  · rw [picks]
    exact kept.picked
  · rintro _ ⟨⟩
    refine ⟨shell, opened, isShell, evalCase.symm, ?_, ?_, fresh⟩
    · rw [duplicates, dispatches, List.filter_append, ← duplicates, alone]
      rfl
    · rwa [picks]
  · intro x inside
    rw [kept.coords x inside]
    rcases x with ⟨_ | _, coords, value⟩
    · rfl
    · exact absurd (List.mem_map_of_mem (f := Ending.branch) inside) unended
  · exact fun _ _ _ _ unsent => nomatch unsent
  · exact fun unsent => nomatch unsent

theorem kept_begun (opts : SpeculationOpts) (durations : List ℚ) (job : CaseJob) (now : ℚ)
    (opened : List String) :
    Kept opts (begun opts durations job now opened : CaseRace ρ ε) := by
  have started : Kept opts ((({ job := job, startedAt := now } : CaseRace ρ ε).call
      [.execute .primary job opened]).join .primary) := by
    refine ⟨sound_opened Branch.primary, ?_, ?_, ?_, ?_, ?_, ?_, ?_, ?_, ?_⟩
    · intro d inside
      obtain rfl := List.mem_singleton.mp inside
      exact List.mem_cons_self
    · refine iff_of_false (fun inside => ?_) Bool.false_ne_true
      cases List.mem_singleton.mp inside
    · exact fun _ => ⟨rfl, rfl, rfl⟩
    · exact fun _ => rfl
    · exact fun _ none_yet => nomatch none_yet
    · exact fun _ none_yet => nomatch none_yet
    · exact fun _ none_yet => nomatch none_yet
    · exact fun _ none_yet => nomatch none_yet
    · exact fun _ none_yet => nomatch none_yet
  rw [begun]
  split
  · exact started.timed _
  · exact started

/-- A turn of a race keeps its invariant. -/
theorem Kept.turn (kept : Kept opts race) {s : Controller ρ ε} {i : Nat}
    (here : s.races[i]? = some race) {turn : Turn ρ ε} (admissible : Admissible s (.turn i turn))
    (spared : Spared opts s (.turn i turn)) {durations : List ℚ}
    (eq : race.turn opts s turn = some (after, durations)) : Kept opts after := by
  cases turn with
  | timer now opened =>
      simp only [CaseRace.turn, Option.ite_none_left_eq_some, Option.some.injEq,
        Prod.mk.injEq] at eq
      obtain ⟨-, rfl, -⟩ := eq
      rcases race.onTimer_cases opts s now opened with ⟨timer, same⟩ |
        ⟨target, isOpen, alone, found, same⟩
      · rw [same]
        exact kept.timed timer
      · rw [same]
        exact kept.speculate isOpen alone found
  | reattempted answer opened =>
      simp only [CaseRace.turn, Option.ite_none_right_eq_some, Option.some.injEq,
        Prod.mk.injEq] at eq
      obtain ⟨opening, rfl, -⟩ := eq
      obtain ⟨job, rfl, shaped, fresh⟩ := admissible race here
      exact kept.onReattempted opening opened shaped fresh (spared race here)
  | reattemptRejected e =>
      simp only [CaseRace.turn, Option.ite_none_right_eq_some, Option.some.injEq,
        Prod.mk.injEq] at eq
      obtain ⟨opening, rfl, -⟩ := eq
      exact kept.onRejected opening.2 e fun _ _ => spared race here
  | fulfilled branch v now =>
      simp only [CaseRace.turn, Option.ite_none_right_eq_some, Option.some.injEq] at eq
      obtain ⟨runs, eq⟩ := eq
      obtain rfl : (race.onFulfilled branch v now).1 = after := congrArg Prod.fst eq
      refine kept.onFulfilled runs v now fun isPrimary named unsent lost => ?_
      obtain ⟨x, inside, isDuplicate⟩ := List.mem_map.mp lost
      exact spared race here named isPrimary unsent x inside isDuplicate
  | rejected branch e =>
      simp only [CaseRace.turn, Option.ite_none_right_eq_some, Option.some.injEq,
        Prod.mk.injEq] at eq
      obtain ⟨runs, rfl, -⟩ := eq
      exact kept.onRejected runs.1 e fun isDuplicate unsent =>
        absurd unsent (runs.2 isDuplicate)

/-- The job of a branch that failed and that of one that succeeded bear different attempt ids. -/
theorem Kept.apart (kept : Kept opts race) {x y : Ending Branch CaseJob (SpilloverOutcome ρ)}
    (won : x ∈ race.ended) (isWin : x.value ≠ none) (lost : y ∈ race.ended)
    (isLoss : y.value = none) {a : String} (named : y.coords.attemptId = some a) :
    x.coords.attemptId ≠ some a := by
  have other : y.branch ≠ x.branch := by
    intro same
    have once := (List.nodup_append.mp kept.sound.once).2.1
    obtain rfl := List.inj_on_of_nodup_map once lost won same
    exact isWin isLoss
  rw [kept.coords x won]
  rw [kept.coords y lost] at named
  rcases x with ⟨_ | _, winner, value⟩ <;> rcases y with ⟨_ | _, loser, loss⟩
  · exact absurd rfl other
  · -- the primary answers, and the duplicate names its job or, if it has none, the shell
    replace named : ((race.duplicateJob.or race.duplicate).getD race.job).attemptId = some a := named
    show race.job.attemptId ≠ some a
    rcases isSent : race.duplicateJob with _ | job
    · intro same
      refine isWin (kept.spared isSent ?_ ?_ _ won rfl)
      · exact List.mem_map_of_mem (f := Ending.branch) lost
      · rw [same]
        exact Option.some_ne_none a
    · obtain ⟨_, _, _, _, _, _, fresh⟩ := kept.sent job isSent
      rw [isSent] at named
      exact fresh a named
  · -- the duplicate answers, which has been dispatched
    rcases isSent : race.duplicateJob with _ | job
    · exact absurd isSent (kept.won _ won rfl isWin)
    · obtain ⟨_, _, _, _, _, _, fresh⟩ := kept.sent job isSent
      show ((race.duplicateJob.or race.duplicate).getD race.job).attemptId ≠ some a
      rw [isSent]
      exact fun same => fresh a same named
  · exact absurd rfl other

theorem Kept.named (kept : Kept opts race) {x : Ending Branch CaseJob (SpilloverOutcome ρ)}
    (answers : race.answered = some x) {job : CaseJob} (handed : job ∈ race.failures)
    {a : String} (named : job.attemptId = some a) : x.coords.attemptId ≠ some a := by
  have won := List.mem_of_find?_eq_some answers
  have isSome : x.value.isSome = true := by
    have found := answers
    rw [CaseRace.answered] at found
    simpa using List.find?_some found
  have isWin := Option.isSome_iff_ne_none.mp isSome
  have noWin : wins race.ended ≠ [] := by
    intro none_won
    exact isWin (List.filterMap_eq_nil_iff.mp none_won x won)
  rcases kept.sound.accounts with ⟨-, none_won, -⟩ | ⟨-, -, -, -, -, -, paid⟩ | ⟨-, none_won, -⟩
  · exact absurd none_won noWin
  · rw [show race.failures = _ from paid, List.mem_map] at handed
    obtain ⟨⟨branch, lost⟩, inside, rfl⟩ := handed
    exact kept.apart won isWin (mem_losses.mp inside) rfl named
  · exact absurd none_won noWin

/-- What the invariant says about a race. -/
theorem Kept.oneAnswer (kept : Kept opts race) : OneAnswer opts race := by
  have duplicates : race.duplicates = [] ∨ ∃ job shell opened,
      race.duplicateJob = some job ∧ race.duplicate = some shell ∧
      job.evalCase = shell.evalCase ∧ race.duplicates = [⟨.duplicate, job, opened⟩] ∧
      ∀ pick ∈ race.picks, circuit opts pick.1 ∉ opened := by
    rcases isSent : race.duplicateJob with _ | job
    · exact Or.inl (kept.unsent isSent)
    · obtain ⟨shell, opened, isShell, shaped, one, closed, -⟩ := kept.sent job isSent
      exact Or.inr ⟨job, shell, opened, rfl, isShell, shaped, one, closed⟩
  have accounts := kept.sound.accounts
  refine ⟨kept.dispatched, kept.sound.once, ?_, ?_, ?_, ?_, ?_, ?_, ?_, ?_, ?_, ?_, ?_⟩
  · rcases duplicates with none_sent | ⟨job, shell, opened, -, -, -, one, -⟩
    · rw [none_sent]
      exact Nat.zero_le _
    · rw [one, List.length_singleton]
  · intro d inside
    rcases duplicates with none_sent | ⟨job, shell, opened, -, isShell, shaped, one, closed⟩
    · rw [none_sent] at inside
      cases inside
    · rw [one, List.mem_singleton] at inside
      subst inside
      obtain ⟨target, picked, picks, pickedFor, isDuplicate⟩ := kept.picked shell isShell
      have inPicks : (target, picked) ∈ race.picks := by rw [picks]; exact List.mem_singleton_self _
      refine ⟨target, pickedFor.listed, ?_, pickedFor.elsewhere,
        ⟨picked, inPicks, pickedFor.closed⟩, closed _ inPicks⟩
      rw [assignedTarget, shaped, isDuplicate]
      rfl
  · rcases accounts with ⟨-, -, -, answer, -⟩ | ⟨v, -, -, -, answer, -⟩ | ⟨-, -, -, answer, -⟩
    all_goals
      replace answer : race.settlements = _ := answer
      rw [answer]
      simp
  · intro v rest won
    rcases accounts with ⟨-, noWin, -⟩ | ⟨w, rest', -, won', answer, -⟩ | ⟨-, noWin, -⟩
    · cases won.symm.trans noWin
    · obtain rfl := (List.cons.inj (won'.symm.trans won)).1
      exact answer
    · cases won.symm.trans noWin
  · intro inside
    rcases accounts with ⟨-, -, -, answer, -⟩ | ⟨v, -, -, -, answer, -⟩ | ⟨-, noWin, all, -⟩
    · rw [show race.settlements = [] from answer] at inside
      cases inside
    · rw [show race.settlements = [some v] from answer] at inside
      cases List.mem_singleton.mp inside
    · exact ⟨noWin, all⟩
  · intro noWin none_out
    rcases accounts with ⟨-, -, -, -, -, -, some_runs⟩ | ⟨v, rest, -, won, -⟩ | ⟨-, -, -, answer, -⟩
    · exact absurd none_out some_runs
    · cases noWin.symm.trans won
    · exact answer
  · rcases accounts with ⟨-, noWin, -, -, late, -⟩ | ⟨v, rest, -, won, -, late, -⟩ |
      ⟨-, noWin, -, -, late, -⟩
    · exact late.trans (congrArg List.tail noWin).symm
    · exact late.trans (congrArg List.tail won).symm
    · exact late.trans (congrArg List.tail noWin).symm
  · intro someWin
    rcases accounts with ⟨-, noWin, -⟩ | ⟨-, -, -, -, -, -, paid⟩ | ⟨-, noWin, -⟩
    · exact absurd noWin someWin
    · exact paid
    · exact absurd noWin someWin
  · intro noWin none_out
    rcases accounts with ⟨-, -, -, -, -, -, some_runs⟩ | ⟨v, rest, -, won, -⟩ |
      ⟨-, -, -, -, -, paid⟩
    · exact absurd none_out some_runs
    · cases noWin.symm.trans won
    · exact paid
  · intro noWin some_out
    rcases accounts with ⟨-, -, -, -, -, noFailure, -⟩ | ⟨v, rest, -, won, -⟩ | ⟨-, -, none_out, -⟩
    · exact noFailure
    · cases noWin.symm.trans won
    · exact absurd none_out some_out
  · exact fun x answers job handed a => kept.named answers handed

end CaseRace

/-! ## The runs of a controller -/

/-- In a run whose steps are all spared, every race has one answer, and every branch the ending
that is owed to it. -/
theorem speculation_accounted (opts : SpeculationOpts) {log : List (Event ρ ε × Unit)}
    {s : Controller ρ ε}
    (run : Transition.Machine.Runs (step opts) (fun s e => Admissible s e ∧ Spared opts s e) {}
      log s) {race : CaseRace ρ ε} (inside : race ∈ s.races) : OneAnswer opts race := by
  have kept : ∀ race ∈ s.races, race.Kept opts := by
    refine run.state_invariant (I := fun s => ∀ race ∈ s.races, race.Kept opts)
      (fun race inside => nomatch inside) ?_
    rintro s e t o kept ⟨admissible, spared⟩ eq
    cases e with
    | run job now opened =>
        simp only [step, Option.some.injEq, Prod.mk.injEq, and_true] at eq
        subst eq
        intro race inside
        rcases List.mem_append.mp inside with old | new
        · exact kept race old
        · rw [List.mem_singleton.mp new]
          exact CaseRace.kept_begun opts s.durations job now opened
    | turn i turn =>
        simp only [step, Option.bind_eq_some_iff, Option.map_eq_some_iff, Prod.mk.injEq,
          and_true] at eq
        obtain ⟨race, here, ⟨after, durations⟩, turned, rfl⟩ := eq
        intro other inside
        rcases List.mem_or_eq_of_mem_set inside with old | rfl
        · exact kept other old
        · exact (kept race (List.mem_of_getElem? here)).turn here admissible spared turned
  exact (kept race inside).oneAnswer

/-- A batch of one case on two runtimes, whose attempt has an id. -/
def slowJob : CaseJob where
  evalCase := { id := "a", placement := some { target := some "slow" } }
  harness := { id := "h", version := "1" }
  attemptId := some "attempt-1"

def twoRuntimes : SpeculationOpts where
  targets := ["slow", "fast"]
  tenant := "t"
  totalCases := 1

/-- The timer fires, the hook rejects, and the primary answers. -/
def failedOpen : List (Event Unit Unit) :=
  [.run slowJob 0 [], .turn 0 (.timer (20000 : Nat) []), .turn 0 (.reattemptRejected (some ())),
    .turn 0 (.fulfilled .primary ⟨(), none, slowJob⟩ (30000 : Nat))]

def hookAnswers : Event ρ ε → Bool
  | .turn _ (.reattempted _ _) => true
  | _ => false

/-- The shell is handed over as the failed branch's job, under the winner's attempt id. -/
theorem failed_open_names_the_winner :
    ¬ ∀ (opts : SpeculationOpts) (log : List (Event Unit Unit × Unit)) (s : Controller Unit Unit),
      Transition.Machine.Runs (step opts) Admissible {} log s →
        ∀ race ∈ s.races, OneAnswer opts race := by
  intro all
  obtain ⟨log, s, run, wrong⟩ := Transition.Machine.exists_run_of_exec (step twoRuntimes)
    (fun _ e => hookAnswers e = false) {} failedOpen
    (fun s => s.races.any fun race => race.answered.any fun x => race.failures.any fun job =>
      job.attemptId = some "attempt-1" ∧ x.coords.attemptId = some "attempt-1")
    (by decide +kernel)
  have admissible : ∀ (s : Controller Unit Unit) e, hookAnswers e = false → Admissible s e := by
    intro s e silent
    cases e with
    | run => trivial
    | turn i turn => cases turn <;> trivial
  obtain ⟨race, inside, wrong⟩ := List.any_eq_true.mp wrong
  obtain ⟨x, answers, wrong⟩ := (Option.any_eq_true _ _).mp wrong
  obtain ⟨job, handed, wrong⟩ := List.any_eq_true.mp wrong
  obtain ⟨named, winner⟩ := of_decide_eq_true wrong
  exact (all _ _ _ (run.mono admissible) race inside).named x answers job handed _ named winner

/-- The same case where the hook gives the duplicate an attempt of its own, which then fails. -/
def failedDuplicate : List (Event Unit Unit) :=
  [.run slowJob 0 [], .turn 0 (.timer (20000 : Nat) []),
    .turn 0 (.reattempted (some { duplicateOf slowJob "fast" with attemptId := some "attempt-2" })
      []),
    .turn 0 (.rejected .duplicate (some ())),
    .turn 0 (.fulfilled .primary ⟨(), none, slowJob⟩ (30000 : Nat))]

theorem speculation_accounted_failedDuplicate :
    ∃ log s, ∃ race : CaseRace Unit Unit, Transition.Machine.Runs (step twoRuntimes)
      (fun s e => Admissible s e ∧ Spared twoRuntimes s e) {} log s ∧ race ∈ s.races ∧
      race.failures.map CaseJob.attemptId = [some "attempt-2"] ∧ OneAnswer twoRuntimes race := by
  obtain ⟨log, s, run, right⟩ := Transition.Machine.exists_run_of_exec (step twoRuntimes)
    (fun s e => Admissible s e ∧ Spared twoRuntimes s e) {} failedDuplicate
    (fun s => s.races.any fun race => race.failures.map CaseJob.attemptId = [some "attempt-2"])
    (by decide +kernel)
  obtain ⟨race, inside, handed⟩ := List.any_eq_true.mp right
  exact ⟨log, s, race, run, inside, of_decide_eq_true handed,
    speculation_accounted twoRuntimes run inside⟩

end Everdict.Speculation
