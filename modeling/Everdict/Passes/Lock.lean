import Everdict.Passes.Ownership
import Mathlib.Data.Fintype.EquivFin

/-!
# A pass marker is a lock

At most one identity passes the guards of a running owner, a write guarded by an identity
takes no effect once another pass claimed, the pass settled or it was marked failed, and a
running marker is not claimed before its lease expired.  That is so in every run of both
axes, whatever the interleaving and wherever a process crashes.

A dead owner does not hold the scoring marker for ever.  It does hold the execution marker:
`RetryCasesInPlace.run` refuses a running marker without looking at its lease, so a pass
whose process died is never taken over.  `marker_is_lock_iff` states that nothing else fails.
-/

namespace Everdict.Passes

open Fencing (Landed Owner Tokens)
open Retry (PassStatus)
open Transition.Machine

variable {store : Store} {host : Nat → Nat} {id : String} {w t : World} {c : Nat} {o : Effect}
  {passId : String} {record : ScorecardRecord}

theorem owningPass_eq_some {live : ScoringPass} (eq : owningPass record passId = some live) :
    live.passId = some passId ∧ live.status = .running := by
  have kept := (Option.filter_eq_some_iff.mp eq).2
  simpa using kept

/-- A claim of the scoring axis, landed or lost. -/
theorem stepped_claimScoring (sound : Sound host w) {read : ScorecardRecord}
    {selection : JudgeSelection} {submittedBy : Option String} (call : w.scores c = .sealing read)
    (eq : scoreStep store host w c (.sealing read) (.claim passId selection submittedBy) =
      some (t, o)) : Stepped host (some passId) w o t := by
  have modern : read.scoringPass = none → Modern w.record.scoringPass := by
    have carries := sound.scores c
    rwa [call] at carries
  have untracked : ∀ next : ScoreCall, (w.scores c).Tracked → next.Tracked := by
    intro next tracked
    rw [call] at tracked
    exact tracked.elim
  simp only [scoreStep, World.write] at eq
  split at eq
  · next lost =>
      split at lost
      · obtain ⟨rfl, rfl⟩ : _ = t ∧ _ = o := by simpa using eq
        cases lost
        exact (Stepped.quiet rfl rfl sound).setScore trivial (untracked _)
      · cases lost
  · next what landed =>
      split at landed
      · cases landed
      · next record hit =>
          obtain ⟨rfl, rfl⟩ : _ = t ∧ _ = o := by simpa using eq
          cases landed
          have stepped := stepped_claim sound (claimScoring_did modern hit)
          exact stepped.setScore ⟨rfl, rfl⟩ (untracked _)

/-- The pass goes on in the caller's process. -/
theorem Sound.track (sound : Sound host w) {pass : ScoringPass} {fresh : Option ScorecardRecord}
    (carries : pass.passId = some passId ∧ pass.status = .running) (free : ¬ (w.scores c).Tracked) :
    Sound host ({ w with inFlight := host c :: w.inFlight }.setScore c
      (.owning true passId pass fresh)) where
  scores := by
    intro k
    by_cases same : k = c
    · subst same
      simpa [World.setScore, ScoreCall.Carries] using carries
    · simpa [World.setScore, same] using sound.scores k
  retries := sound.retries
  spent := sound.spent
  inFlight := by
    intro p mem
    rcases List.mem_cons.mp mem with rfl | mem
    · exact ⟨c, rfl, by simp [World.setScore, ScoreCall.Tracked]⟩
    · obtain ⟨k, here, tracked⟩ := sound.inFlight p mem
      have other : k ≠ c := fun same => free (same ▸ tracked)
      exact ⟨k, here, by simpa [World.setScore, other] using tracked⟩

/-- Its process takes the scorecard out of flight when the pass is over. -/
theorem Sound.finish (sound : Sound host w) {pass : ScoringPass}
    (carries : pass.passId = some passId ∧ pass.status = .running) :
    Sound host ({ w with inFlight := w.inFlight.filter (· ≠ host c) }.setScore c
      (.lingering passId pass)) where
  scores := by
    intro k
    by_cases same : k = c
    · subst same
      simpa [World.setScore, ScoreCall.Carries] using carries
    · simpa [World.setScore, same] using sound.scores k
  retries := sound.retries
  spent := sound.spent
  inFlight := by
    intro p mem
    obtain ⟨mem, elsewhere⟩ := List.mem_filter.mp mem
    obtain ⟨k, rfl, tracked⟩ := sound.inFlight p mem
    have other : k ≠ c := by
      rintro rfl
      simp at elsewhere
    exact ⟨k, rfl, by simpa [World.setScore, other] using tracked⟩

theorem Sound.crash (sound : Sound host w) (process : Nat) : Sound host (crash host w process) where
  scores := by
    intro k
    simp only [Passes.crash]
    split
    · cases w.scores k <;> trivial
    · exact sound.scores k
  retries := by
    intro k
    simp only [Passes.crash]
    split
    · cases w.retries k <;> trivial
    · exact sound.retries k
  spent := sound.spent
  inFlight := by
    intro p mem
    obtain ⟨mem, elsewhere⟩ := List.mem_filter.mp mem
    obtain ⟨k, rfl, tracked⟩ := sound.inFlight p mem
    have alive : host k ≠ process := by simpa using elsewhere
    exact ⟨k, rfl, by simpa [Passes.crash, alive] using tracked⟩

theorem stepped_score (sound : Sound host w) {call : ScoreCall} {e : ScoreEvent}
    (held : w.scores c = call) (eq : scoreStep store host w c call e = some (t, o)) :
    Stepped host (Event.score c e).minted w o t := by
  have carries := sound.scores c
  rw [held] at carries
  have quiet (minted : Option String) : Stepped host minted w none w := .quiet rfl rfl sound
  have untracked (free : ¬ call.Tracked) (next : ScoreCall) :
      (w.scores c).Tracked → next.Tracked := fun tracked => (free (held ▸ tracked)).elim
  unfold scoreStep at eq
  split at eq
  -- `score` up to its claim
  · cases eq
    refine (quiet _).setScore (fun absent p here => ?_) (untracked (fun h => h) _)
    rw [absent] at here
    cases here
  · cases eq
    split
    · exact (quiet _).setScore trivial (untracked (fun h => h) _)
    · exact (quiet _).setScore carries (untracked (fun h => h) _)
  · cases eq
    split
    · exact (quiet _).setScore carries (untracked (fun h => h) _)
    · exact (quiet _).setScore trivial (untracked (fun h => h) _)
  · exact stepped_claimScoring sound held eq
  -- the start of its driver
  · cases eq
    exact (quiet _).setScore trivial (untracked (fun h => h) _)
  · next passId pass =>
      cases eq
      refine (stepped_write sound (by simp [Landed.fencedBy])
        (fun record hit => refuseScoring_did carries.1 hit) rfl).setScore trivial ?_
      intro tracked
      have same := write_scores store w (refuseScoring passId pass w.now)
        .scoring (.failed passId)
      exact untracked (fun h => h) .ended (same ▸ tracked)
  · cases eq
    exact .quiet rfl rfl (sound.track carries (held ▸ fun h => h))
  -- an activity, and the owner's re-read
  · cases eq
    refine (quiet _).setScore ?_ (untracked (fun h => h) _)
    split
    · trivial
    · next live owning => exact owningPass_eq_some owning
  · next tracked passId pass fresh =>
      cases eq
      refine (quiet _).setScore carries ?_
      rw [held]
      cases tracked
      · exact fun h => h
      · exact fun h => h
  -- the writes of the pass
  · split at eq
    · exact stepped_write sound (by simp [Landed.fencedBy])
        (fun record hit => renewScoring_did carries.1 carries.2 hit) (Option.some.inj eq)
    · cases eq
      exact quiet _
  · split at eq
    · exact stepped_write sound (by simp [Landed.fencedBy])
        (fun record hit => renewScoring_did carries.1 carries.2 hit) (Option.some.inj eq)
    · cases eq
      exact quiet _
  · exact stepped_write sound (by simp [Landed.fencedBy])
      (fun record hit => noteScoring_did hit) (Option.some.inj eq)
  · exact stepped_write sound (by simp [Landed.fencedBy])
      (fun record hit => settleScoring_did hit) (Option.some.inj eq)
  · split at eq
    · cases eq
      exact quiet _
    · split at eq
      · cases eq
        exact quiet _
      · next own =>
          exact stepped_write sound (by simp [Landed.fencedBy])
            (fun record hit => failScoring_did (not_not.mp own) hit) (Option.some.inj eq)
  -- its end
  · cases eq
    exact .quiet rfl rfl (sound.finish carries)
  · cases eq
    exact (quiet _).setScore trivial (untracked (fun h => h) _)
  · cases eq
    exact (quiet _).setScore trivial (untracked (fun h => h) _)
  · cases eq

theorem passId_of_minted {claimed : ExecutionPass} {authority : Retry.ExecutionPassAuthority}
    (eq : Retry.executionPassAuthority id (mintedFrom claimed) passId = some authority) :
    claimed.passId = some authority.passId := by
  rcases named : claimed.passId with _ | own
  · simp [mintedFrom, named, Retry.executionPassAuthority] at eq
  · simp only [mintedFrom, named, Option.map_some, Retry.executionPassAuthority] at eq
    split at eq
    · cases eq
    · next allowed =>
        cases eq
        rw [not_or, not_not] at allowed
        rw [allowed.1]

theorem stepped_claimExecution (sound : Sound host w) {read : ScorecardRecord}
    {selection : RetrySelection} {submittedBy : Option String}
    (call : w.retries c = .claiming read)
    (eq : retryStep store id w c (.claiming read) (.claim passId selection submittedBy) =
      some (t, o)) : Stepped host (some passId) w o t := by
  have modern : read.executionPass = none → Modern w.record.executionPass := by
    have carries := sound.retries c
    rwa [call] at carries
  simp only [retryStep, World.write] at eq
  split at eq
  · next lost =>
      split at lost
      · cases eq
        cases lost
        exact (Stepped.quiet rfl rfl sound).setRetry trivial
      · cases lost
  · next what landed =>
      split at landed
      · cases landed
      · next record hit =>
          cases landed
          have stepped := stepped_claim sound (claimExecution_did modern hit)
          split at eq
          · cases eq
            exact stepped.setRetry trivial
          · next claimed here =>
              split at eq
              · cases eq
                exact stepped.setRetry trivial
              · next authority minted =>
                  cases eq
                  exact stepped.setRetry (passId_of_minted minted)

theorem stepped_retry (sound : Sound host w) {call : RetryCall} {e : RetryEvent}
    (held : w.retries c = call) (eq : retryStep store id w c call e = some (t, o)) :
    Stepped host (Event.retry c e).minted w o t := by
  have carries := sound.retries c
  rw [held] at carries
  have quiet (minted : Option String) : Stepped host minted w none w := .quiet rfl rfl sound
  unfold retryStep at eq
  split at eq
  · cases eq
    refine (quiet _).setRetry ?_
    split
    · trivial
    · intro absent p here
      rw [absent] at here
      cases here
  · exact stepped_claimExecution sound held eq
  · split at eq
    · next lost =>
        cases eq
        exact (stepped_write sound (by simp [Landed.fencedBy])
          (fun record hit => settleExecution_did hit) lost).setRetry carries
    · next landed =>
        cases eq
        exact (stepped_write sound (by simp [Landed.fencedBy])
          (fun record hit => settleExecution_did hit) landed).setRetry trivial
  · cases eq
    exact (quiet _).setRetry carries
  · cases eq
    exact (stepped_write sound (by simp [Landed.fencedBy])
      (fun record hit => failExecution_did carries hit) rfl).setRetry trivial
  · cases eq

theorem Sound.tick (sound : Sound host w) (elapsed : Nat) :
    Sound host { w with now := w.now + elapsed } :=
  ⟨sound.scores, sound.retries, sound.spent, sound.inFlight⟩

theorem stepped {e : Event} (sound : Sound host w) (eq : step store host id w e = some (t, o)) :
    Stepped host e.minted w o t := by
  cases e with
  | score c e => exact stepped_score sound rfl eq
  | retry c e => exact stepped_retry sound rfl eq
  | crash process =>
      cases eq
      exact .quiet rfl rfl (sound.crash process)
  | tick elapsed =>
      cases eq
      exact .quiet rfl rfl (sound.tick elapsed)

/-! ## The fencing tokens of an axis -/

def ownerOn (record : ScorecardRecord) : Axis → Option (Owner String)
  | .scoring => ownerOf record.scoringPass
  | .execution => ownerOf record.executionPass

variable {now : Int} {axis : Axis}

theorem Did.keeps {before after : ScorecardRecord} (did : Did now before o after)
    (quiet : o.on axis = none) :
    ownerOn after axis = ownerOn before axis := by
  cases axis
  · have still := did.scoring
    rw [quiet] at still
    exact congrArg ownerOf still.eq_of_none
  · have still := did.execution
    rw [quiet] at still
    exact congrArg ownerOf still.eq_of_none

theorem Did.moves {before after : ScorecardRecord} {l : Landed String}
    (did : Did now before o after) (landed : o.on axis = some l) :
    Fencing.Moves (ownerOn before axis) l (ownerOn after axis) := by
  cases axis
  · have moved := did.scoring
    rw [landed] at moved
    exact moved.moves
  · have moved := did.execution
    rw [landed] at moved
    exact moved.moves

theorem tokens (store : Store) (host : Nat → Nat) (id : String) (axis : Axis) :
    Tokens (step store host id) Minted (Sound host) (fun w => ownerOn w.record axis)
      (Effect.on axis) (fun w i => i ∈ w.spent) where
  preserves sound _ eq := (stepped sound eq).sound
  keeps sound _ eq quiet := (stepped sound eq).did.keeps quiet
  moves sound _ eq landed := (stepped sound eq).did.moves landed
  fresh sound minted eq landed :=
    minted _ ((stepped sound eq).claims _ _ (Effect.eq_of_on landed))
  stays sound _ eq := (stepped sound eq).spent _

variable {log : List (Event × Effect)}

theorem sound_of_runs (run : Runs (step store host id) Minted (World.start record now) log w) :
    Sound host w :=
  run.state_invariant (sound_start host record now) fun _ _ _ _ sound _ eq =>
    (stepped sound eq).sound

/-! ## The guard of a running owner -/

def ownerGuard (passId : String) : Axis → ScorecardUpdateGuard
  | .scoring => { expectScoringPassId := some (some passId) }
  | .execution => { expectExecutionPassId := some (some passId) }

/-- A bare write that names the pass would take effect. -/
def PassesGuard (store : Store) (w : World) (axis : Axis) (passId : String) : Prop :=
  store.update w.record { updatedAt := some w.now } (ownerGuard passId axis) w.now ≠ none

theorem passes_iff :
    PassesGuard store w axis passId ↔ ownerOn w.record axis = some ⟨passId, true⟩ := by
  have sent : Sent { updatedAt := some w.now } (ownerGuard passId axis) := by
    cases axis <;> exact ⟨rfl, fun _ => rfl, fun _ => rfl⟩
  rw [PassesGuard, update_eq sent]
  cases axis
  · simp [InMemory.update, ownerGuard, countAllows, InMemory.reclaimAllows, ownerOn,
      ← ownerAllows_iff, InMemory.ownerAllows]
  · simp [InMemory.update, ownerGuard, countAllows, InMemory.reclaimAllows, ownerOn,
      ← ownerAllows_iff, InMemory.ownerAllows]

theorem spent_of_passes (sound : Sound host w) (passes : PassesGuard store w axis passId) :
    passId ∈ w.spent := by
  rw [passes_iff] at passes
  refine sound.spent passId ?_
  cases axis
  · left
    rw [ids_of_owner passes]
    exact List.mem_singleton_self _
  · right
    rw [ids_of_owner passes]
    exact List.mem_singleton_self _

/-! ## Free markers -/

/-- The marker is absent, failed, or its lease has expired. -/
def Free (record : ScorecardRecord) (now : Int) : Axis → Prop
  | .scoring => record.scoringPass.all (scoringPassReclaimable · now) = true
  | .execution => record.executionPass.all (scoringPassReclaimable · now) = true

theorem reclaimable_mono {σ : Type} {pass : PassMarker σ} {now later : Int} (le : now ≤ later)
    (free : scoringPassReclaimable pass now = true) : scoringPassReclaimable pass later = true := by
  by_cases failed : pass.status = .failed
  · simp [scoringPassReclaimable, failed]
  · rcases lease : pass.leaseUntil with _ | leaseUntil
    · simp only [scoringPassReclaimable, failed, lease, if_false, decide_eq_true_eq] at free ⊢
      omega
    · simp only [scoringPassReclaimable, failed, lease, if_false, decide_eq_true_eq] at free ⊢
      omega

theorem free_mono {σ : Type} {pass : Option (PassMarker σ)} {now later : Int} (le : now ≤ later)
    (free : pass.all (scoringPassReclaimable · now) = true) :
    pass.all (scoringPassReclaimable · later) = true := by
  rcases pass with _ | pass
  · rfl
  · exact reclaimable_mono le free

theorem Did.free {before after : ScorecardRecord} (did : Did now before o after)
    (claimed : o.on axis = some (.claimed passId)) :
    Free before now axis := by
  cases axis
  · have claim := did.scoring
    rw [claimed] at claim
    exact claim.free
  · have claim := did.execution
    rw [claimed] at claim
    exact claim.free

/-! ## Claim attempts -/

/-- The steps of one claim attempt of caller `c`, with the time its awaits take. -/
inductive Attempt (c : Nat) (passId : String) : Axis → List Event → Prop
  | score (reading pinning sealing : Nat) (selection : JudgeSelection)
      (submittedBy : Option String) :
      Attempt c passId .scoring
        [.score c .read, .tick reading, .score c .pin, .tick pinning, .score c .check,
          .tick sealing, .score c (.claim passId selection submittedBy)]
  | retry (reading : Nat) (selection : RetrySelection) (submittedBy : Option String) :
      Attempt c passId .execution
        [.retry c .read, .tick reading, .retry c (.claim passId selection submittedBy)]

/-- The call of the caller has not begun, and no pass is tracked in its process. -/
def Alone (host : Nat → Nat) (w : World) (c : Nat) : Axis → Prop
  | .scoring => w.scores c = .idle ∧ ∀ k, host k = host c → ¬ (w.scores k).Tracked
  | .execution => w.retries c = .idle

/-- The caller claimed the pass and goes on as its owner. -/
def Holding (t : World) (c : Nat) (passId : String) : Axis → Prop
  | .scoring => ∃ pass, t.scores c = .starting passId pass
  | .execution => ∃ record claimed authority,
      t.retries c = .dispatching record claimed authority ∧ authority.passId = passId

/-- What the attempt comes to when nothing else steps. -/
def Succeeds (store : Store) (host : Nat → Nat) (id : String) (w : World) (c : Nat)
    (passId : String) (axis : Axis) (events : List Event) : Prop :=
  ∃ os t, exec (step store host id) Minted w events = some (os, t) ∧
    os.getLast? = some (some (axis, .claimed passId)) ∧ Holding t c passId axis

theorem ownerAllows_read {σ : Type} (live : Option (PassMarker σ)) :
    InMemory.ownerAllows live (some (live.bind (·.passId))) live.isSome = true := by
  rcases live with _ | pass
  · rfl
  · simp [InMemory.ownerAllows]

theorem ownerAllows_none {σ : Type} (live : Option (PassMarker σ)) (reclaimable : Bool) :
    InMemory.ownerAllows live none reclaimable = true := rfl

/-- A claim of a free marker by a caller whose copy is current lands. -/
theorem claimScoring_lands (store : Store) (pass : ScoringPass)
    (free : record.scoringPass.all (scoringPassReclaimable · now) = true) :
    ∃ record', store.update record (claimScoring record pass now).1
      (claimScoring record pass now).2 now = some record' := by
  rw [update_eq ⟨rfl, by simp [claimScoring], fun _ => rfl⟩]
  simp [InMemory.update, claimScoring, countAllows, ownerAllows_read, ownerAllows_none,
    reclaimAllows_inMemory, free]

theorem claimExecution_lands (store : Store) (pass : ExecutionPass)
    (free : record.executionPass.all (scoringPassReclaimable · now) = true) :
    ∃ record', store.update record (claimExecution record pass now).1
        (claimExecution record pass now).2 now = some record' ∧
      record'.executionPass = stampLease (some RETRY_PASS_LEASE_SECONDS) now (some pass) := by
  rw [update_eq ⟨rfl, fun _ => rfl, by simp [claimExecution]⟩]
  simp [InMemory.update, claimExecution, countAllows, ownerAllows_read, ownerAllows_none,
    reclaimAllows_inMemory, free]

theorem not_inFlight (sound : Sound host w) {process : Nat}
    (untracked : ∀ k, host k = process → ¬ (w.scores k).Tracked) : process ∉ w.inFlight := by
  intro mem
  obtain ⟨k, here, tracked⟩ := sound.inFlight process mem
  exact untracked k here tracked

theorem minted_of_none {e : Event} (quiet : e.minted = none) : Minted w e := by
  intro passId mem
  rw [quiet] at mem
  cases mem

/-- The claim of a caller whose copy is current. -/
theorem score_claims (store : Store) (host : Nat → Nat) (id : String)
    (sealing : w.scores c = .sealing w.record) (free : Free w.record w.now .scoring) (passId : String) (selection : JudgeSelection) (submittedBy : Option String) :
    ∃ t, step store host id w (.score c (.claim passId selection submittedBy)) =
      some (t, some (.scoring, .claimed passId)) ∧ Holding t c passId .scoring := by
  let pass := newScoringPass w.record passId selection submittedBy w.now
  obtain ⟨record', landed⟩ := claimScoring_lands store pass free
  refine ⟨{ w with record := record', spent := passId :: w.spent }.setScore c
    (.starting passId pass), ?_, pass, by simp [World.setScore]⟩
  simp [step, sealing, scoreStep, World.write, landed, pass]

theorem retry_claims (store : Store) (host : Nat → Nat) (id : String)
    (claiming : w.retries c = .claiming w.record)
    (free : Free w.record w.now .execution) (passId : String) (selection : RetrySelection)
    (submittedBy : Option String) :
    ∃ t, step store host id w (.retry c (.claim passId selection submittedBy)) =
      some (t, some (.execution, .claimed passId)) ∧ Holding t c passId .execution := by
  let pass := newExecutionPass w.record passId selection submittedBy w.now
  obtain ⟨record', landed, marked⟩ := claimExecution_lands store pass free
  let claimed : ExecutionPass :=
    { pass with leaseUntil := some (w.now + RETRY_PASS_LEASE_SECONDS * 1000) }
  have authorized : Retry.executionPassAuthority id (mintedFrom claimed) passId =
      some ⟨id, passId, pass.targetRevision⟩ := by
    simp [Retry.executionPassAuthority, mintedFrom, claimed, pass, newExecutionPass]
  have stamped : record'.executionPass = some claimed := marked
  refine ⟨{ w with record := record', spent := passId :: w.spent }.setRetry c
    (.dispatching w.record claimed ⟨id, passId, pass.targetRevision⟩), ?_,
    w.record, claimed, ⟨id, passId, pass.targetRevision⟩, by simp [World.setRetry], rfl⟩
  simp [step, claiming, retryStep, World.write, landed, pass, stamped, authorized]

/-- A lone caller takes a free scoring marker. -/
theorem score_succeeds (sound : Sound host w) {events : List Event}
    (free : Free w.record w.now .scoring) (alone : Alone host w c .scoring)
    (unspent : passId ∉ w.spent) (attempt : Attempt c passId .scoring events) :
    Succeeds store host id w c passId .scoring events := by
  obtain ⟨idle, untracked⟩ := alone
  have clear := not_inFlight sound untracked
  cases attempt with
  | score reading pinning sealing selection submittedBy =>
      have checked : w.record.scoringPass.all
          (scoringPassReclaimable · (w.now + reading + pinning)) = true :=
        free_mono (by omega) free
      have read : step store host id w (.score c .read) =
          some (w.setScore c (.fetched w.record), none) := by
        simp [step, idle, scoreStep]
      have pin : step store host id { w.setScore c (.fetched w.record) with now := w.now + reading }
          (.score c .pin) = some ({ w.setScore c (.pinning w.record) with now := w.now + reading },
            none) := by
        simp [step, World.setScore, scoreStep, clear]
      have check : step store host id
          { w.setScore c (.pinning w.record) with now := w.now + reading + pinning }
          (.score c .check) = some ({ w.setScore c (.sealing w.record) with
            now := w.now + reading + pinning }, none) := by
        simp [step, World.setScore, scoreStep, checked]
      let ready : World :=
        { w.setScore c (.sealing w.record) with now := w.now + reading + pinning + sealing }
      have waiting : ready.scores c = .sealing ready.record := by
        simp [ready, World.setScore]
      have later : Free ready.record ready.now .scoring :=
        free_mono (show w.now ≤ w.now + reading + pinning + sealing by omega) free
      obtain ⟨t, claim, holding⟩ :=
        score_claims store host id waiting later passId selection submittedBy
      refine ⟨_, t, exec_cons (minted_of_none rfl) read (exec_cons (minted_of_none rfl) rfl
        (exec_cons (minted_of_none rfl) pin (exec_cons (minted_of_none rfl) rfl
          (exec_cons (minted_of_none rfl) check (exec_cons (minted_of_none rfl) rfl
            (exec_cons ?_ claim rfl)))))), rfl, holding⟩
      simpa [Minted, Event.minted, World.setScore] using unspent

/-- A lone caller takes an execution marker that is absent or failed. -/
theorem retry_succeeds {events : List Event} (free : Free w.record w.now .execution)
    (dead : w.record.executionPass.any (·.status = .running) = false) (idle : w.retries c = .idle)
    (unspent : passId ∉ w.spent) (attempt : Attempt c passId .execution events) :
    Succeeds store host id w c passId .execution events := by
  cases attempt with
  | retry reading selection submittedBy =>
      have read : step store host id w (.retry c .read) =
          some (w.setRetry c (.claiming w.record), none) := by
        simp [step, idle, retryStep, dead]
      let ready : World := { w.setRetry c (.claiming w.record) with now := w.now + reading }
      have waiting : ready.retries c = .claiming ready.record := by
        simp [ready, World.setRetry]
      have later : Free ready.record ready.now .execution :=
        free_mono (show w.now ≤ w.now + reading by omega) free
      obtain ⟨t, claim, holding⟩ :=
        retry_claims store host id waiting later passId selection submittedBy
      refine ⟨_, t, exec_cons (minted_of_none rfl) read (exec_cons (minted_of_none rfl) rfl
        (exec_cons ?_ claim rfl)), rfl, holding⟩
      simpa [Minted, Event.minted, World.setRetry] using unspent

/-! ## The lock -/

/-- What makes the two markers locks that a dead owner cannot hold for ever. -/
structure Lock (store : Store) (host : Nat → Nat) (id : String) (w : World) : Prop where
  /-- At most one pass passes the guards of a running owner. -/
  one_owner : ∀ axis i j, PassesGuard store w axis i → PassesGuard store w axis j → i = j
  /-- Whatever comes, a guarded write of an owner takes effect only while it is the owner. -/
  fenced : ∀ axis i, PassesGuard store w axis i → ∀ log t,
    Runs (step store host id) Minted w log t →
      log.Pairwise fun x y => ∀ l l', x.2.on axis = some l → y.2.on axis = some l' →
        l.Revokes i → l'.fencedBy ≠ some i
  /-- Only a free marker is claimed. -/
  untaken : ∀ axis e t o i, Minted w e → step store host id w e = some (t, o) →
    o.on axis = some (.claimed i) → Free w.record w.now axis
  /-- A free marker is taken by the next attempt that nothing else steps into. -/
  recovers : ∀ axis, Free w.record w.now axis → ∀ c passId events, Alone host w c axis →
    passId ∉ w.spent → Attempt c passId axis events →
      Succeeds store host id w c passId axis events

/-- The execution marker is a running one whose lease expired. -/
def Stuck (w : World) : Prop :=
  ∃ pass, w.record.executionPass = some pass ∧ pass.status = .running ∧
    scoringPassReclaimable pass w.now = true

theorem one_owner {i j : String} (left : PassesGuard store w axis i)
    (right : PassesGuard store w axis j) : i = j := by
  rw [passes_iff] at left right
  rw [left] at right
  simpa using right

theorem fenced (sound : Sound host w) {i : String} (passes : PassesGuard store w axis i)
    (run : Runs (step store host id) Minted w log t) :
    log.Pairwise fun x y => ∀ l l', x.2.on axis = some l → y.2.on axis = some l' →
      l.Revokes i → l'.fencedBy ≠ some i :=
  (tokens store host id axis).fenced run sound (spent_of_passes sound passes)

theorem lock_of_not_stuck (sound : Sound host w) (moving : ¬ Stuck w) :
    Lock store host id w where
  one_owner _ _ _ left right := one_owner left right
  fenced _ _ passes _ _ run := fenced sound passes run
  untaken _ _ _ _ _ _ eq claimed := (stepped sound eq).did.free claimed
  recovers axis free c passId events alone unspent attempt := by
    cases axis with
    | scoring => exact score_succeeds sound free alone unspent attempt
    | execution =>
        have dead : w.record.executionPass.any (·.status = .running) = false := by
          rcases marker : w.record.executionPass with _ | pass
          · rfl
          have expired : scoringPassReclaimable pass w.now = true := by
            simpa [Free, marker] using free
          have status : pass.status ≠ .running := fun running =>
            moving ⟨pass, marker, running, expired⟩
          simpa using status
        exact retry_succeeds free dead alone unspent attempt

theorem write_retries (sent : Patch × ScorecardUpdateGuard) (axis : Axis) (l : Landed String)
    {effect : Effect} (eq : w.write store sent axis l = (t, effect)) : t.retries = w.retries := by
  unfold World.write at eq
  split at eq <;> cases eq <;> rfl

theorem scoreStep_retries {call : ScoreCall} {e : ScoreEvent}
    (eq : scoreStep store host w c call e = some (t, o)) : t.retries = w.retries := by
  unfold scoreStep at eq
  split at eq
  case h_4 =>
    simp only at eq
    split at eq
    all_goals
      next wrote =>
        cases eq
        have still := write_retries _ _ _ wrote
        exact still
  case h_6 passId pass =>
    rcases wrote : w.write store (refuseScoring passId pass w.now) .scoring (.failed passId) with
      ⟨u, effect⟩
    rw [wrote] at eq
    cases eq
    have still := write_retries _ _ _ wrote
    exact still
  case h_10 | h_11 =>
    split at eq
    · exact write_retries _ _ _ (Option.some.inj eq)
    · cases eq
      rfl
  case h_12 | h_13 => exact write_retries _ _ _ (Option.some.inj eq)
  case h_14 =>
    split at eq
    · cases eq
      rfl
    · split at eq
      · cases eq
        rfl
      · exact write_retries _ _ _ (Option.some.inj eq)
  all_goals
    cases eq
    try rfl

theorem retryStep_other {call : RetryCall} {e : RetryEvent}
    (eq : retryStep store id w c call e = some (t, o)) (k : Nat) (ne : k ≠ c) :
    t.retries k = w.retries k := by
  have moved (w : World) (call : RetryCall) : (w.setRetry c call).retries k = w.retries k := by
    simp [World.setRetry, ne]
  unfold retryStep at eq
  split at eq
  case h_2 =>
    simp only at eq
    split at eq
    · next wrote =>
        cases eq
        rw [moved, write_retries _ _ _ wrote]
    · next wrote =>
        have still := congrFun (write_retries _ _ _ wrote) k
        split at eq
        · cases eq
          exact (moved _ _).trans still
        · split at eq <;> cases eq <;> exact (moved _ _).trans still
  case h_3 =>
    split at eq
    all_goals
      next wrote =>
        cases eq
        rw [moved, write_retries _ _ _ wrote]
  case h_5 claimed passId reason =>
    rcases wrote : w.write store (failExecution passId claimed reason w.now) .execution
      (.failed passId) with ⟨u, effect⟩
    rw [wrote] at eq
    cases eq
    rw [moved, write_retries _ _ _ wrote]
  all_goals
    cases eq
    try rw [moved]

/-- Only finitely many calls of the execution axis have begun. -/
theorem idle_retry (run : Runs (step store host id) Minted (World.start record now) log w) :
    ∃ n, ∀ c ≥ n, w.retries c = .idle := by
  refine run.state_invariant (I := fun w => ∃ n, ∀ c ≥ n, w.retries c = .idle)
    ⟨0, fun _ _ => rfl⟩ ?_
  rintro w e t o ⟨n, idle⟩ - eq
  cases e with
  | score c e => exact ⟨n, by rwa [scoreStep_retries eq]⟩
  | retry c e =>
      refine ⟨max n (c + 1), fun k le => ?_⟩
      rw [retryStep_other eq k (by omega)]
      exact idle k (by omega)
  | crash process =>
      cases eq
      refine ⟨n, fun k le => ?_⟩
      simp only [crash, idle k le, RetryCall.die, ite_self]
  | tick elapsed =>
      cases eq
      exact ⟨n, idle⟩

/-- An attempt on a running execution marker is refused, whatever its lease says. -/
theorem retry_refused {pass : ExecutionPass} (marker : w.record.executionPass = some pass)
    (running : pass.status = .running) (idle : w.retries c = .idle) {selection : RetrySelection}
    {submittedBy : Option String} :
    ¬ Succeeds store host id w c passId .execution
      [.retry c .read, .tick 0, .retry c (.claim passId selection submittedBy)] := by
  rintro ⟨os, t, ran, -⟩
  simp [exec, step, idle, retryStep, marker, running, World.setRetry] at ran

theorem exists_unspent (spent : List String) : ∃ passId, passId ∉ spent := by
  obtain ⟨passId, unspent⟩ := Infinite.exists_notMem_finset spent.toFinset
  exact ⟨passId, by simpa using unspent⟩

theorem not_lock_of_stuck (run : Runs (step store host id) Minted (World.start record now) log w)
    (stuck : Stuck w) :
    ¬ Lock store host id w := by
  intro lock
  obtain ⟨pass, marker, running, expired⟩ := stuck
  obtain ⟨n, idle⟩ := idle_retry run
  obtain ⟨passId, unspent⟩ := exists_unspent w.spent
  have free : Free w.record w.now .execution := by simpa [Free, marker] using expired
  exact retry_refused marker running (idle n le_rfl)
    (lock.recovers .execution free n passId _ (idle n le_rfl) unspent
      (.retry 0 ⟨[], none⟩ none))

/-- In every reachable state the markers are such locks, unless the execution marker is a
running one whose lease expired; then they are not. -/
theorem marker_is_lock_iff {record : ScorecardRecord} {now : Int} {log : List (Event × Effect)}
    (run : Runs (step store host id) Minted (World.start record now) log w) :
    Lock store host id w ↔ ¬ Stuck w :=
  ⟨fun lock stuck => not_lock_of_stuck run stuck lock, lock_of_not_stuck (sound_of_runs run)⟩

/-- The execution marker is running, and its lease has or has not expired. -/
def runningLease (expired : Bool) (w : World) : Bool :=
  w.record.executionPass.any fun pass =>
    decide (pass.status = .running) && (scoringPassReclaimable pass w.now == expired)

theorem stuck_iff : Stuck w ↔ runningLease true w = true := by
  rcases marker : w.record.executionPass with _ | pass <;>
    simp [Stuck, runningLease, marker]

/-- A pass is claimed, and its process dies some time later. -/
def crashedRetry (elapsed : Nat) : List Event :=
  [.retry 0 .read, .retry 0 (.claim "p1" { cases := [{ caseId := "c1" }] } none), .crash 0,
    .tick elapsed]

/-- A second before the lease of the dead pass ends, the markers are locks. -/
theorem marker_is_lock_leased : ∃ log w,
    Runs (step .postgres (fun _ => 0) "sc-1") Minted (World.start { updatedAt := 0 } 0) log w ∧
      runningLease false w = true ∧ Lock .postgres (fun _ => 0) "sc-1" w := by
  obtain ⟨log, w, run, leased⟩ := exists_run_of_exec (step .postgres (fun _ => 0) "sc-1") Minted
    (World.start { updatedAt := 0 } 0) (crashedRetry 899000) (runningLease false)
    (by decide +kernel)
  refine ⟨log, w, run, leased, (marker_is_lock_iff run).mpr fun stuck => ?_⟩
  rw [stuck_iff] at stuck
  revert leased stuck
  unfold runningLease
  rcases w.record.executionPass with _ | pass
  · simp
  · simp only [Option.any_some, Bool.and_eq_true, beq_iff_eq]
    rintro ⟨_, live⟩ ⟨_, expired⟩
    rw [live] at expired
    cases expired

/-- When the lease of a dead pass is over, its marker still refuses every retry. -/
theorem dead_retry_holds_marker : ∃ log w,
    Runs (step .postgres (fun _ => 0) "sc-1") Minted (World.start { updatedAt := 0 } 0) log w ∧
      ¬ Lock .postgres (fun _ => 0) "sc-1" w := by
  obtain ⟨log, w, run, expired⟩ := exists_run_of_exec (step .postgres (fun _ => 0) "sc-1") Minted
    (World.start { updatedAt := 0 } 0) (crashedRetry 900000) (runningLease true)
    (by decide +kernel)
  exact ⟨log, w, run, not_lock_of_stuck run (stuck_iff.mpr expired)⟩

end Everdict.Passes
