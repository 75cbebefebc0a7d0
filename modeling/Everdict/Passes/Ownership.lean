import Everdict.Passes.Callers

/-!
# Who owns a pass

What one step of any caller can do to the marker of an axis: nothing, a claim of a marker
that is free, a write of its running owner, the settle or the death of its running owner
(`MarkerStep`).  `step_markers` reads that off every step, under the invariant `Sound` of the
callers: the copies of the marker they carry name their own pass, and a caller that read no
marker does not meet one without an identity.

The two markers are then two instances of fencing tokens (`tokens`).
-/

namespace Everdict.Passes

open Fencing (Landed Moves Owner Tokens)
open Retry (PassStatus)
open Transition.Machine

variable {σ : Type}

/-! ## Markers -/

/-- The owner a marker names. -/
def ownerOf (pass : Option (PassMarker σ)) : Option (Owner String) :=
  pass.bind fun pass => pass.passId.map fun id => ⟨id, decide (pass.status = .running)⟩

/-- No marker, or one with an identity. -/
def Modern (pass : Option (PassMarker σ)) : Prop := ∀ p ∈ pass, p.passId ≠ none

/-- What a step does to the marker of one axis. -/
inductive MarkerStep (now : Int) : Option (PassMarker σ) → Option (Landed String) →
    Option (PassMarker σ) → Prop
  | same (pass : Option (PassMarker σ)) : MarkerStep now pass none pass
  | claimed {old : Option (PassMarker σ)} {new : PassMarker σ} {id : String}
      (free : old.all (scoringPassReclaimable · now) = true) (named : new.passId = some id)
      (running : new.status = .running) : MarkerStep now old (some (.claimed id)) (some new)
  | wrote {old new : Option (PassMarker σ)} {id : String} (owned : ownerOf old = some ⟨id, true⟩)
      (owns : ownerOf new = some ⟨id, true⟩) : MarkerStep now old (some (.wrote id)) new
  | settled {old : Option (PassMarker σ)} {id : String} (owned : ownerOf old = some ⟨id, true⟩) :
      MarkerStep now old (some (.settled id)) none
  | failed {old new : Option (PassMarker σ)} {id : String}
      (owned : ownerOf old = some ⟨id, true⟩) (owns : ownerOf new = some ⟨id, false⟩) :
      MarkerStep now old (some (.failed id)) new

theorem ownerOf_some {pass : PassMarker σ} {id : String} (named : pass.passId = some id) :
    ownerOf (some pass) = some ⟨id, decide (pass.status = .running)⟩ := by
  simp [ownerOf, named]

variable {pass : Option (PassMarker σ)}

theorem ownerOf_eq_some {owner : Owner String} :
    ownerOf pass = some owner ↔ ∃ p, pass = some p ∧ p.passId = some owner.id ∧
      decide (p.status = .running) = owner.live := by
  rcases pass with _ | p
  · simp [ownerOf]
  rcases named : p.passId with _ | id
  · simp [ownerOf, named]
  rcases owner with ⟨id', live⟩
  simp [ownerOf, named]

theorem modern_of_owner {owner : Owner String} (owned : ownerOf pass = some owner) :
    Modern pass := by
  obtain ⟨p, rfl, named, _⟩ := ownerOf_eq_some.mp owned
  intro q mem
  obtain rfl : p = q := by simpa using mem
  simp [named]

/-- The guard of a running owner. -/
theorem ownerAllows_iff {id : String} :
    InMemory.ownerAllows pass (some (some id)) false = true ↔ ownerOf pass = some ⟨id, true⟩ := by
  rw [ownerOf_eq_some]
  rcases pass with _ | p
  · simp [InMemory.ownerAllows]
  · simp [InMemory.ownerAllows]

theorem ids_of_owner {owner : Owner String} (owned : ownerOf pass = some owner) :
    PassMarker.ids pass = [owner.id] := by
  obtain ⟨p, rfl, named, _⟩ := ownerOf_eq_some.mp owned
  simp [PassMarker.ids, named]

namespace MarkerStep

variable {now : Int} {old new : Option (PassMarker σ)} {l : Option (Landed String)}

theorem modern (did : MarkerStep now old l new) (before : Modern old) : Modern new := by
  cases did with
  | same => exact before
  | claimed free named running => exact modern_of_owner (ownerOf_some named)
  | wrote owned owns => exact modern_of_owner owns
  | settled owned => exact fun p mem => by cases mem
  | failed owned owns => exact modern_of_owner owns

theorem ids (did : MarkerStep now old l new) {id : String} (mem : id ∈ PassMarker.ids new) :
    id ∈ PassMarker.ids old ∨ l = some (.claimed id) := by
  cases did with
  | same => exact .inl mem
  | claimed free named running =>
      rw [ids_of_owner (ownerOf_some named)] at mem
      obtain rfl := List.mem_singleton.mp mem
      exact .inr rfl
  | wrote owned owns =>
      rw [ids_of_owner owns] at mem
      exact .inl (by rwa [ids_of_owner owned])
  | settled owned => cases mem
  | failed owned owns =>
      rw [ids_of_owner owns] at mem
      exact .inl (by rwa [ids_of_owner owned])

theorem eq_of_none (did : MarkerStep now old none new) : new = old := by
  cases did
  rfl

/-- A claim meets a free marker. -/
theorem free {id : String} (did : MarkerStep now old (some (.claimed id)) new) :
    old.all (scoringPassReclaimable · now) = true := by
  cases did
  assumption

theorem moves {l : Landed String} (did : MarkerStep now old (some l) new) :
    Moves (ownerOf old) l (ownerOf new) := by
  cases did with
  | claimed free named running =>
      rw [ownerOf_some named, running]
      exact .claimed _ _
  | wrote owned owns =>
      rw [owned, owns]
      exact .wrote _
  | settled owned =>
      rw [owned]
      exact .settled _
  | failed owned owns =>
      rw [owned, owns]
      exact .failed _

end MarkerStep

/-! ## Writes -/

/-- What an effect is on one axis. -/
def Effect.on (axis : Axis) (effect : Effect) : Option (Landed String) :=
  match effect with
  | some (axis', l) => if axis' = axis then some l else none
  | none => none

@[simp] theorem Effect.on_self (axis : Axis) (l : Landed String) :
    Effect.on axis (some (axis, l)) = some l := by
  simp [Effect.on]

/-- What a write did to the two markers. -/
structure Did (now : Int) (before : ScorecardRecord) (effect : Effect)
    (after : ScorecardRecord) : Prop where
  scoring : MarkerStep now before.scoringPass (effect.on .scoring) after.scoringPass
  execution : MarkerStep now before.executionPass (effect.on .execution) after.executionPass

theorem Did.refl (now : Int) (record : ScorecardRecord) : Did now record none record :=
  ⟨.same _, .same _⟩

theorem update_eq_some {cur record : ScorecardRecord} {patch : Patch}
    {guard : ScorecardUpdateGuard} {now : Int}
    (eq : InMemory.update cur patch guard now = some record) :
    InMemory.ownerAllows cur.scoringPass guard.expectScoringPassId
        guard.expectScoringPassReclaimable = true ∧
      InMemory.reclaimAllows cur.scoringPass guard.expectScoringPassReclaimable now = true ∧
      InMemory.ownerAllows cur.executionPass guard.expectExecutionPassId
        guard.expectExecutionPassReclaimable = true ∧
      InMemory.reclaimAllows cur.executionPass guard.expectExecutionPassReclaimable now = true ∧
      record.scoringPass = stampLease guard.stampScoringLeaseSeconds now
        (patch.scoringPass.getD cur.scoringPass) ∧
      record.executionPass = stampLease guard.stampExecutionLeaseSeconds now
        (patch.executionPass.getD cur.executionPass) := by
  unfold InMemory.update at eq
  split at eq
  · next allowed =>
      simp only [Bool.and_eq_true] at allowed
      cases eq
      exact ⟨allowed.1.1.1.2, allowed.1.1.2, allowed.1.2, allowed.2, rfl, rfl⟩
  · cases eq

/-- A claim with the identity that was read, by a caller that says it takes over exactly when
it read a marker, meets a free marker. -/
theorem free_of_claim {read : Option (PassMarker σ)} {live : Option (PassMarker σ)} {now : Int}
    (owns : InMemory.ownerAllows live (some (read.bind (·.passId))) read.isSome = true)
    (free : InMemory.reclaimAllows live read.isSome now = true)
    (modern : read = none → Modern live) : live.all (scoringPassReclaimable · now) = true := by
  rcases read with _ | read
  · rcases live with _ | p
    · rfl
    · have named := modern rfl p rfl
      simp [InMemory.ownerAllows, named] at owns
  · simpa [reclaimAllows_inMemory] using free

variable {store : Store} {cur record : ScorecardRecord} {now : Int}

section Writes

variable {passId : String}

theorem claimScoring_did {read : ScorecardRecord} {selection : JudgeSelection}
    {submittedBy : Option String} (modern : read.scoringPass = none → Modern cur.scoringPass)
    (eq : store.update cur
      (claimScoring read (newScoringPass read passId selection submittedBy now) now).1
      (claimScoring read (newScoringPass read passId selection submittedBy now) now).2 now =
        some record) :
    Did now cur (some (.scoring, .claimed passId)) record := by
  rw [update_eq ⟨rfl, by simp [claimScoring], fun _ => rfl⟩] at eq
  obtain ⟨owns, free, -, -, scoring, execution⟩ := update_eq_some eq
  refine ⟨?_, ?_⟩
  · rw [Effect.on_self, scoring]
    exact .claimed (free_of_claim owns free modern) rfl rfl
  · rw [execution]
    exact .same _

/-- A write guarded by a running owner of the scoring pass. -/
theorem scoring_did {patch : Patch} {guard : ScorecardUpdateGuard} {l : Landed String}
    (sent : Sent patch guard) (expects : guard.expectScoringPassId = some (some passId))
    (keeps : guard.expectScoringPassReclaimable = false) (other : patch.executionPass = none)
    (does : ownerOf cur.scoringPass = some ⟨passId, true⟩ →
      MarkerStep now cur.scoringPass (some l) (stampLease guard.stampScoringLeaseSeconds now
        (patch.scoringPass.getD cur.scoringPass)))
    (eq : store.update cur patch guard now = some record) :
    Did now cur (some (.scoring, l)) record := by
  rw [update_eq sent] at eq
  obtain ⟨owns, -, -, -, scoring, execution⟩ := update_eq_some eq
  rw [expects, keeps, ownerAllows_iff] at owns
  refine ⟨?_, ?_⟩
  · rw [Effect.on_self, scoring]
    exact does owns
  · rw [execution, sent.execution other, other]
    exact .same _

theorem failedPass_owner {pass : PassMarker σ} (reason : String) (now : Int)
    (named : pass.passId = some passId) :
    ownerOf (some (failedPass pass reason now)) = some ⟨passId, false⟩ := by
  have dead : (failedPass pass reason now).passId = some passId := named
  rw [ownerOf_some dead]
  rfl

theorem renewScoring_did {pass : ScoringPass} (named : pass.passId = some passId)
    (running : pass.status = .running)
    (eq : store.update cur (renewScoring passId pass now).1 (renewScoring passId pass now).2 now =
      some record) :
    Did now cur (some (.scoring, .wrote passId)) record := by
  refine scoring_did ⟨rfl, by simp [renewScoring], fun _ => rfl⟩ rfl rfl rfl (fun owned => ?_) eq
  refine .wrote owned ?_
  simp [renewScoring, stampLease, ownerOf, named, running]

theorem noteScoring_did {passId message : String} {fresh : ScorecardRecord}
    (eq : store.update cur (noteScoring passId fresh message now).1
      (noteScoring passId fresh message now).2 now = some record) :
    Did now cur (some (.scoring, .wrote passId)) record := by
  refine scoring_did ⟨rfl, fun _ => rfl, fun _ => rfl⟩ rfl rfl rfl (fun owned => ?_) eq
  exact .wrote owned owned

theorem settleScoring_did {fresh : ScorecardRecord}
    (eq : store.update cur (settleScoring passId fresh now).1 (settleScoring passId fresh now).2
      now = some record) :
    Did now cur (some (.scoring, .settled passId)) record := by
  refine scoring_did ⟨rfl, by simp [settleScoring], fun _ => rfl⟩ rfl rfl rfl (fun owned => ?_) eq
  exact .settled owned

theorem refuseScoring_did {pass : ScoringPass} (named : pass.passId = some passId)
    (eq : store.update cur (refuseScoring passId pass now).1 (refuseScoring passId pass now).2
      now = some record) :
    Did now cur (some (.scoring, .failed passId)) record := by
  refine scoring_did ⟨rfl, by simp [refuseScoring], fun _ => rfl⟩ rfl rfl rfl (fun owned => ?_) eq
  exact .failed owned (failedPass_owner _ _ named)

theorem failScoring_did {passId reason : String} {fresh : ScorecardRecord} {live : ScoringPass}
    (named : live.passId = some passId)
    (eq : store.update cur (failScoring passId fresh live reason now).1
      (failScoring passId fresh live reason now).2 now = some record) :
    Did now cur (some (.scoring, .failed passId)) record := by
  refine scoring_did ⟨rfl, by simp [failScoring], fun _ => rfl⟩ rfl rfl rfl (fun owned => ?_) eq
  exact .failed owned (failedPass_owner _ _ named)

theorem claimExecution_did {read : ScorecardRecord} {selection : RetrySelection}
    {submittedBy : Option String} (modern : read.executionPass = none → Modern cur.executionPass)
    (eq : store.update cur
      (claimExecution read (newExecutionPass read passId selection submittedBy now) now).1
      (claimExecution read (newExecutionPass read passId selection submittedBy now) now).2 now =
        some record) :
    Did now cur (some (.execution, .claimed passId)) record := by
  rw [update_eq ⟨rfl, fun _ => rfl, by simp [claimExecution]⟩] at eq
  obtain ⟨-, -, owns, free, scoring, execution⟩ := update_eq_some eq
  refine ⟨?_, ?_⟩
  · rw [scoring]
    exact .same _
  · rw [Effect.on_self, execution]
    exact .claimed (free_of_claim owns free modern) rfl rfl

/-- A write guarded by a running owner of the execution pass. -/
theorem execution_did {patch : Patch} {guard : ScorecardUpdateGuard} {l : Landed String}
    (sent : Sent patch guard) (expects : guard.expectExecutionPassId = some (some passId))
    (keeps : guard.expectExecutionPassReclaimable = false) (other : patch.scoringPass = none)
    (does : ownerOf cur.executionPass = some ⟨passId, true⟩ →
      MarkerStep now cur.executionPass (some l) (stampLease guard.stampExecutionLeaseSeconds now
        (patch.executionPass.getD cur.executionPass)))
    (eq : store.update cur patch guard now = some record) :
    Did now cur (some (.execution, l)) record := by
  rw [update_eq sent] at eq
  obtain ⟨-, -, owns, -, scoring, execution⟩ := update_eq_some eq
  rw [expects, keeps, ownerAllows_iff] at owns
  refine ⟨?_, ?_⟩
  · rw [scoring, sent.scoring other, other]
    exact .same _
  · rw [Effect.on_self, execution]
    exact does owns

theorem settleExecution_did {read : ScorecardRecord} {authority : Retry.ExecutionPassAuthority}
    (eq : store.update cur (settleExecution read authority now).1
      (settleExecution read authority now).2 now = some record) :
    Did now cur (some (.execution, .settled authority.passId)) record := by
  refine execution_did ⟨rfl, fun _ => rfl, by simp [settleExecution]⟩ rfl rfl rfl
    (fun owned => ?_) eq
  exact .settled owned

theorem failExecution_did {passId reason : String} {claimed : ExecutionPass}
    (named : claimed.passId = some passId)
    (eq : store.update cur (failExecution passId claimed reason now).1
      (failExecution passId claimed reason now).2 now = some record) :
    Did now cur (some (.execution, .failed passId)) record := by
  refine execution_did ⟨rfl, fun _ => rfl, by simp [failExecution]⟩ rfl rfl rfl
    (fun owned => ?_) eq
  exact .failed owned (failedPass_owner _ _ named)

end Writes

/-! ## Callers -/

/-- What a caller of the scoring axis carries: its own pass's marker, or a copy of the record
that is not blind to a marker without an identity. -/
def ScoreCall.Carries (record : ScorecardRecord) : ScoreCall → Prop
  | .fetched read | .pinning read | .sealing read =>
      read.scoringPass = none → Modern record.scoringPass
  | .starting passId pass | .owning _ passId pass _ | .lingering passId pass =>
      pass.passId = some passId ∧ pass.status = .running
  | _ => True

def RetryCall.Carries (record : ScorecardRecord) : RetryCall → Prop
  | .claiming read => read.executionPass = none → Modern record.executionPass
  | .dispatching _ claimed authority => claimed.passId = some authority.passId
  | .failing claimed passId => claimed.passId = some passId
  | _ => True

def ScoreCall.Tracked : ScoreCall → Prop
  | .owning true _ _ _ => True
  | _ => False

theorem ScoreCall.Carries.after {record record' : ScorecardRecord} {call : ScoreCall}
    (carries : call.Carries record)
    (modern : Modern record.scoringPass → Modern record'.scoringPass) :
    call.Carries record' := by
  cases call
  case fetched | pinning | sealing => exact fun read => modern (carries read)
  all_goals exact carries

theorem RetryCall.Carries.after {record record' : ScorecardRecord} {call : RetryCall}
    (carries : call.Carries record)
    (modern : Modern record.executionPass → Modern record'.executionPass) :
    call.Carries record' := by
  cases call
  case claiming => exact fun read => modern (carries read)
  all_goals exact carries

/-- The invariant of the callers. -/
structure Sound (host : Nat → Nat) (w : World) : Prop where
  scores : ∀ c, (w.scores c).Carries w.record
  retries : ∀ c, (w.retries c).Carries w.record
  spent : ∀ id, id ∈ PassMarker.ids w.record.scoringPass ∨
    id ∈ PassMarker.ids w.record.executionPass → id ∈ w.spent
  /-- A process has the scorecard in flight only while it tracks a pass of it. -/
  inFlight : ∀ p ∈ w.inFlight, ∃ c, host c = p ∧ (w.scores c).Tracked

theorem sound_start (host : Nat → Nat) (record : ScorecardRecord) (now : Int) :
    Sound host (World.start record now) where
  scores _ := trivial
  retries _ := trivial
  spent _ mem := List.mem_append.mpr mem
  inFlight _ mem := by cases mem

section Steps

variable {host : Nat → Nat} {w : World} {c : Nat} {minted : Option String}

theorem Sound.setScore (sound : Sound host w) {call : ScoreCall} (carries : call.Carries w.record)
    (tracks : (w.scores c).Tracked → call.Tracked) : Sound host (w.setScore c call) where
  scores := by
    intro k
    by_cases same : k = c
    · subst same
      simpa [World.setScore] using carries
    · simpa [World.setScore, same] using sound.scores k
  retries := sound.retries
  spent := sound.spent
  inFlight := by
    intro p mem
    obtain ⟨k, here, tracked⟩ := sound.inFlight p mem
    refine ⟨k, here, ?_⟩
    by_cases same : k = c
    · subst same
      simpa [World.setScore] using tracks tracked
    · simpa [World.setScore, same] using tracked

theorem Sound.setRetry (sound : Sound host w) {call : RetryCall}
    (carries : call.Carries w.record) : Sound host (w.setRetry c call) where
  scores := sound.scores
  retries := by
    intro k
    by_cases same : k = c
    · subst same
      simpa [World.setRetry] using carries
    · simpa [World.setRetry, same] using sound.retries k
  spent := sound.spent
  inFlight := sound.inFlight

variable {effect : Effect}

theorem Effect.eq_of_on {axis : Axis} {l : Landed String} (on : effect.on axis = some l) :
    effect = some (axis, l) := by
  rcases effect with _ | ⟨axis', l'⟩
  · cases on
  · by_cases same : axis' = axis
    · subst same
      rw [Effect.on_self] at on
      rw [Option.some.inj on]
    · simp [Effect.on, same] at on

/-- The callers after a write, with the identities claimed so far. -/
theorem Sound.wrote (sound : Sound host w) {record : ScorecardRecord} {spent : List String}
    (did : Did w.now w.record effect record) (older : ∀ id ∈ w.spent, id ∈ spent)
    (claims : ∀ axis id, effect = some (axis, .claimed id) → id ∈ spent) :
    Sound host { w with record, spent } where
  scores k := (sound.scores k).after did.scoring.modern
  retries k := (sound.retries k).after did.execution.modern
  spent id mem := by
    rcases mem with mem | mem
    · rcases did.scoring.ids mem with old | new
      · exact older id (sound.spent id (.inl old))
      · exact claims _ id (Effect.eq_of_on new)
    · rcases did.execution.ids mem with old | new
      · exact older id (sound.spent id (.inr old))
      · exact claims _ id (Effect.eq_of_on new)
  inFlight := sound.inFlight

/-- What a step did, which identity it claimed, and that the callers stay sound. -/
structure Stepped (host : Nat → Nat) (minted : Option String) (w : World) (effect : Effect)
    (t : World) : Prop where
  did : Did w.now w.record effect t.record
  sound : Sound host t
  spent : ∀ id ∈ w.spent, id ∈ t.spent
  claims : ∀ axis id, effect = some (axis, .claimed id) → minted = some id

/-- A step that writes nothing. -/
theorem Stepped.quiet {t : World} (same : t.record = w.record) (spent : t.spent = w.spent)
    (sound : Sound host t) : Stepped host minted w none t where
  did := by
    rw [same]
    exact .refl _ _
  sound := sound
  spent := by
    rw [spent]
    exact fun _ mem => mem
  claims _ _ eq := by cases eq

/-- A guarded write that is no claim. -/
theorem stepped_write (sound : Sound host w) {sent : Patch × ScorecardUpdateGuard} {axis : Axis}
    {l : Landed String} {t : World} (guarded : l.fencedBy ≠ none)
    (did : ∀ record, store.update w.record sent.1 sent.2 w.now = some record →
      Did w.now w.record (some (axis, l)) record)
    (eq : w.write store sent axis l = (t, effect)) : Stepped host minted w effect t := by
  unfold World.write at eq
  split at eq
  · cases eq
    exact .quiet rfl rfl sound
  · next record hit =>
      cases eq
      have unclaimed : ∀ axis' id, (some (axis, l) : Effect) = some (axis', .claimed id) →
          id ∈ w.spent := by
        rintro axis' id ⟨⟩
        exact (guarded rfl).elim
      refine ⟨did record hit, sound.wrote (did record hit) (fun _ mem => mem) unclaimed,
        fun _ mem => mem, ?_⟩
      rintro axis' id ⟨⟩
      exact (guarded rfl).elim

/-- A claim that landed. -/
theorem stepped_claim (sound : Sound host w) {axis : Axis} {passId : String}
    {record : ScorecardRecord} (did : Did w.now w.record (some (axis, .claimed passId)) record) :
    Stepped host (some passId) w (some (axis, .claimed passId))
      { w with record, spent := passId :: w.spent } where
  did := did
  sound := by
    refine sound.wrote did (fun _ mem => List.mem_cons_of_mem _ mem) ?_
    rintro axis' id ⟨⟩
    exact List.mem_cons_self
  spent _ mem := List.mem_cons_of_mem _ mem
  claims := by
    rintro axis' id ⟨⟩
    rfl

theorem Stepped.setScore {t : World} (stepped : Stepped host minted w effect t) {call : ScoreCall}
    (carries : call.Carries t.record) (tracks : (t.scores c).Tracked → call.Tracked) :
    Stepped host minted w effect (t.setScore c call) :=
  ⟨stepped.did, stepped.sound.setScore carries tracks, stepped.spent, stepped.claims⟩

theorem Stepped.setRetry {t : World} (stepped : Stepped host minted w effect t) {call : RetryCall}
    (carries : call.Carries t.record) :
    Stepped host minted w effect (t.setRetry c call) :=
  ⟨stepped.did, stepped.sound.setRetry carries, stepped.spent, stepped.claims⟩

theorem write_scores (store : Store) (w : World) (sent : Patch × ScorecardUpdateGuard)
    (axis : Axis) (l : Landed String) : (w.write store sent axis l).1.scores = w.scores := by
  unfold World.write
  split <;> rfl

end Steps

end Everdict.Passes
