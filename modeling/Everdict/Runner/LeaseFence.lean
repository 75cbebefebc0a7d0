import Everdict.Runner.JobStore

/-!
# The lease fence of the runner queue

Epochs are what tells the physical attempts on one job apart.  A `Grant` is what
a claim handed out; `lease_fence` says that the grants of a job carry increasing
epochs and that a report takes effect only under the newest one, while its row
is leased and no cancel has revoked it.

Every step is described once (`step_rows`): it grants a lease on a row, or it is
`Quiet` on it.
-/

namespace Everdict.Runner

open Transition Machine

variable {ρ : Type} {e e' : Entry ρ} {jobs jobs' : Table String (Entry ρ)} {s t : Store ρ}
  {ev : Event ρ} {o : Answer ρ} {log : List (Event ρ × Answer ρ)} {input : ClaimInput}

/-! ## What a run hands out and what it ends -/

/-- A lease as a claim handed it out. -/
@[ext]
structure Grant where
  jobId : String
  runnerId : String
  leaseEpoch : Nat
  deriving DecidableEq

def grantOf : Event ρ × Answer ρ → Option Grant
  | (.claim input, .lease (some l)) => some ⟨l.jobId, input.runnerId, l.leaseEpoch⟩
  | (.claimAttempt input, .lease (some l)) => some ⟨l.jobId, input.runnerId, l.leaseEpoch⟩
  | _ => none

def grants (log : List (Event ρ × Answer ρ)) : List Grant := log.filterMap grantOf

def latestGrant (log : List (Event ρ × Answer ρ)) (jobId : String) : Option Grant :=
  ((grants log).filter fun g => g.jobId = jobId).getLast?

/-- The job that a `complete` or a `fail` ended. -/
def settledBy : Event ρ × Answer ρ → Option String
  | (.complete jobId .., .ok true) => some jobId
  | (.fail jobId .., .ok true) => some jobId
  | _ => none

/-- The lease a runner presents with a report. -/
def reportOf : Event ρ → Option Grant
  | .touch jobId runnerId leaseEpoch _ => some ⟨jobId, runnerId, leaseEpoch⟩
  | .restampJob jobId runnerId leaseEpoch _ => some ⟨jobId, runnerId, leaseEpoch⟩
  | .complete jobId _ ranBy leaseEpoch => some ⟨jobId, ranBy, leaseEpoch⟩
  | .fail jobId _ runnerId leaseEpoch => some ⟨jobId, runnerId, leaseEpoch⟩
  | _ => none

@[simp]
theorem grants_append (x : Event ρ × Answer ρ) :
    grants (log ++ [x]) = grants log ++ (grantOf x).toList := by
  cases eq : grantOf x <;> simp [grants, eq]

theorem grantOf_claim (input : ClaimInput) (lease : Option RunnerJobLease) :
    grantOf ((.claim input, .lease lease) : Event ρ × Answer ρ) =
      lease.map fun l => ⟨l.jobId, input.runnerId, l.leaseEpoch⟩ := by
  cases lease <;> rfl

theorem grantOf_claimAttempt (input : ClaimInput) (lease : Option RunnerJobLease) :
    grantOf ((.claimAttempt input, .lease lease) : Event ρ × Answer ρ) =
      lease.map fun l => ⟨l.jobId, input.runnerId, l.leaseEpoch⟩ := by
  cases lease <;> rfl

variable {x : Event ρ × Answer ρ}

theorem latestGrant_append_of_grant {g : Grant} (grant : grantOf x = some g) :
    latestGrant (log ++ [x]) g.jobId = some g := by
  simp [latestGrant, grant]

variable {id : String}

theorem latestGrant_append_of_ne (ne : ∀ g, grantOf x = some g → g.jobId ≠ id) :
    latestGrant (log ++ [x]) id = latestGrant log id := by
  unfold latestGrant
  cases eq : grantOf x with
  | none => simp [eq]
  | some g => simp [eq, ne g eq]

theorem jobId_of_latestGrant {g : Grant} (latest : latestGrant log id = some g) :
    g.jobId = id := by
  have mem := List.mem_of_getLast? latest
  simpa using (List.mem_filter.mp mem).2

/-! ## One row through one step -/

/-- What a step that grants no lease on a row leaves of it. -/
structure Quiet (e e' : Entry ρ) : Prop where
  jobId : e'.jobId = e.jobId
  leaseEpoch : e'.leaseEpoch = e.leaseEpoch
  cancelRequested : e.cancelRequested = true → e'.cancelRequested = true
  terminal : isTerminal e = true → isTerminal e' = true
  leased : e'.status = .leased → e.status = .leased ∧ e'.leasedBy = e.leasedBy

inductive RowStep (x : Event ρ × Answer ρ) (e e' : Entry ρ) : Prop where
  | quiet : (∀ g, grantOf x = some g → g.jobId ≠ e.jobId) → Quiet e e' → RowStep x e e'
  | granted (g : Grant) : grantOf x = some g → g.jobId = e.jobId →
      isTerminal e = false → e.cancelRequested = false → e'.jobId = e.jobId →
      g.leaseEpoch = e.leaseEpoch.getD 0 + 1 → e'.leaseEpoch = some g.leaseEpoch →
      e'.leasedBy = some g.runnerId → e'.status = .leased → RowStep x e e'

theorem Quiet.refl (e : Entry ρ) : Quiet e e := ⟨rfl, rfl, id, id, fun h => ⟨h, rfl⟩⟩

theorem holdsLease_iff {runnerId : String} {leaseEpoch : Nat} :
    holdsLease e runnerId leaseEpoch = true ↔ e.status = .leased ∧ e.leasedBy = some runnerId ∧
      leaseEpoch ≠ 0 ∧ e.leaseEpoch = some leaseEpoch := by
  simp [holdsLease]

theorem holdsWritableLease_iff {runnerId : String} {leaseEpoch : Nat} :
    holdsWritableLease e runnerId leaseEpoch = true ↔
      holdsLease e runnerId leaseEpoch = true ∧ e.cancelRequested = false := by
  simp [holdsWritableLease]

theorem isTerminal_iff : isTerminal e = true ↔
    e.status = .completed ∨ e.status = .failed ∨ e.status = .cancelled := by
  simp [isTerminal]

theorem not_terminal_of_leased (leased : e.status = .leased) : isTerminal e = false := by
  simp [isTerminal, leased]

/-- A step that ends a leased row is quiet. -/
theorem Quiet.of_ended (jobId : e'.jobId = e.jobId) (leaseEpoch : e'.leaseEpoch = e.leaseEpoch)
    (cancel : e'.cancelRequested = e.cancelRequested) (terminal : isTerminal e' = true) :
    Quiet e e' where
  jobId := jobId
  leaseEpoch := leaseEpoch
  cancelRequested := fun h => cancel ▸ h
  terminal := fun _ => terminal
  leased := fun leased => by simp [not_terminal_of_leased leased] at terminal

theorem quiet_requeueExpired (input : ClaimInput) (e : Entry ρ) :
    Quiet e (requeueExpired input e) := by
  unfold requeueExpired
  split
  · exact .refl e
  · next expired =>
      have leased : e.status = .leased := by
        by_contra other
        exact expired (.inr (.inl other))
      split
      · exact .of_ended rfl rfl rfl rfl
      · exact ⟨rfl, rfl, id, by simp [not_terminal_of_leased leased], by simp⟩

theorem quiet_restamped (minted : ClaimedAttempt) (e : Entry ρ) : Quiet e (restamped minted e) :=
  ⟨rfl, rfl, id, id, fun h => ⟨h, rfl⟩⟩

theorem quiet_unclaimed (leaseEpoch : Nat) (e : Entry ρ) : Quiet e (unclaimed leaseEpoch e) := by
  unfold unclaimed
  split
  · next holds => exact ⟨rfl, rfl, id, by simp [not_terminal_of_leased holds.1], by simp⟩
  · exact .refl e

theorem quiet_reportOr {ended : Entry ρ → Entry ρ} (quiet : ∀ e, Quiet e (ended e))
    (runnerId : String) (leaseEpoch : Nat) (e : Entry ρ) :
    Quiet e (reportOr ended runnerId leaseEpoch e) := by
  unfold reportOr ackCancelled
  split
  · exact quiet e
  · split
    · exact .of_ended rfl rfl rfl rfl
    · exact .refl e

theorem quiet_completed (result : ρ) (e : Entry ρ) : Quiet e (completed result e) :=
  .of_ended rfl rfl rfl rfl

theorem quiet_failed (message : String) (e : Entry ρ) : Quiet e (failed message e) :=
  .of_ended rfl rfl rfl rfl

theorem quiet_expired (e : Entry ρ) : Quiet e (expired e) := by
  unfold expired
  split
  · exact .refl e
  · exact quiet_failed _ e

theorem quiet_cancelled (matched : CaseJob → Bool) (e : Entry ρ) :
    Quiet e (cancelled matched e) := by
  unfold cancelled
  split
  · next hit =>
      have live : isTerminal e = false := by
        simp only [cancelMatches, Bool.decide_and, Bool.and_eq_true, decide_eq_true_eq] at hit
        simpa using hit.1
      refine ⟨rfl, rfl, fun _ => rfl, by simp [live], fun leased => ?_⟩
      by_cases queued : e.status = .queued
      · simp [queued] at leased
      · simpa [queued] using leased
  · exact .refl e

theorem quiet_touched (runnerId : String) (leaseEpoch : Nat) (now : Int) (e : Entry ρ) :
    Quiet e (touched runnerId leaseEpoch now e) := by
  unfold touched
  split
  · exact .refl e
  · split
    · exact ⟨rfl, rfl, id, id, fun h => ⟨h, rfl⟩⟩
    · exact .refl e

/-! ## What a step does to the rows -/

/-- A claim sweeps the rows of its owner and takes at most one claimable row. -/
theorem claim_eq (keyed : Keyed jobs) {lease : Option RunnerJobLease}
    (eq : claim jobs input = (jobs', lease)) :
    (lease = none ∧ jobs' = jobs.update fun _ => requeueExpired input) ∨
      ∃ id e, jobs.get id = some e ∧ claimable input (requeueExpired input e) = true ∧
        lease = some ⟨id, e.job, e.leaseEpoch.getD 0 + 1⟩ ∧
        jobs' = (jobs.update fun _ => requeueExpired input).modify id (leased input) := by
  unfold claim at eq
  dsimp only at eq
  split at eq
  · cases eq
    exact .inl ⟨rfl, rfl⟩
  · next e' first =>
      obtain ⟨values, able⟩ := mem_candidates.mp (List.mem_of_head? first)
      obtain ⟨id, found⟩ := Table.mem_values.mp values
      rw [Table.get_update, Option.map_eq_some_iff] at found
      obtain ⟨e, found, rfl⟩ := found
      have name : (requeueExpired input e).jobId = id :=
        (quiet_requeueExpired input e).jobId.trans (keyed id e found)
      have job : (requeueExpired input e).job = e.job := by
        unfold requeueExpired
        split
        · rfl
        · split <;> rfl
      rw [name, job, (quiet_requeueExpired input e).leaseEpoch] at eq
      cases eq
      exact .inr ⟨id, e, found, able, rfl, rfl⟩

theorem claimable_live (able : claimable input (requeueExpired input e) = true) :
    isTerminal e = false ∧ e.cancelRequested = false := by
  have quiet := quiet_requeueExpired input e
  have queued : (requeueExpired input e).status = .queued ∧
      (requeueExpired input e).cancelRequested = false := by
    simp only [claimable, Bool.decide_and, Bool.and_eq_true, decide_eq_true_eq] at able
    exact ⟨able.2.1, by simpa using able.2.2.1⟩
  constructor
  · by_contra ended
    have := quiet.terminal (by simpa using ended)
    simp [isTerminal, queued.1] at this
  · by_contra marked
    have := quiet.cancelRequested (by simpa using marked)
    simp [queued.2] at this

/-- The rows after a claim whose answer is `lease`. -/
theorem claim_rows (keyed : Keyed jobs) {lease : Option RunnerJobLease}
    (eq : claim jobs input = (jobs', lease))
    (grant : grantOf x = lease.map fun l => ⟨l.jobId, input.runnerId, l.leaseEpoch⟩)
    (found : jobs.get id = some e) : ∃ e', jobs'.get id = some e' ∧ RowStep x e e' := by
  have quiet := quiet_requeueExpired input e
  have name := keyed id e found
  rcases claim_eq keyed eq with ⟨rfl, rfl⟩ | ⟨id', e', found', able, rfl, rfl⟩
  · exact ⟨_, by simp [found], .quiet (by simp [grant]) quiet⟩
  · by_cases hit : id = id'
    · subst hit
      obtain rfl : e = e' := Option.some.inj (found.symm.trans found')
      obtain ⟨live, free⟩ := claimable_live able
      exact ⟨leased input (requeueExpired input e), by simp [found],
        .granted ⟨id, input.runnerId, e.leaseEpoch.getD 0 + 1⟩ grant name.symm live free
          quiet.jobId rfl (by simp [leased, quiet.leaseEpoch]) rfl rfl⟩
    · refine ⟨requeueExpired input e, by simp [Table.get_modify_of_ne _ hit, found],
        .quiet (fun g eq => ?_) quiet⟩
      rw [grant, Option.map_some, Option.some.injEq] at eq
      rw [← eq, name]
      exact Ne.symm hit

theorem claim_none {lease : Option RunnerJobLease} (keyed : Keyed jobs)
    (eq : claim jobs input = (jobs', lease)) (none : jobs.get id = none) :
    jobs'.get id = .none := by
  rcases claim_eq keyed eq with ⟨-, rfl⟩ | ⟨id', e', found, -, -, rfl⟩
  · simp [none]
  · have ne : id ≠ id' := fun eq => by simp [← eq, none] at found
    simp [Table.get_modify_of_ne _ ne, none]

/-- The rows after a step that rewrites the row of one job. -/
theorem modify_rows {f : Entry ρ → Entry ρ} (none : grantOf x = none) (quiet : ∀ e, Quiet e (f e))
    (target : String) (found : jobs.get id = some e) :
    ∃ e', (jobs.modify target f).get id = some e' ∧ RowStep x e e' := by
  by_cases hit : id = target
  · subst hit
    exact ⟨f e, by simp [found], .quiet (by simp [none]) (quiet e)⟩
  · exact ⟨e, by simp [Table.get_modify_of_ne _ hit, found], .quiet (by simp [none]) (.refl e)⟩

theorem update_rows {f : Entry ρ → Entry ρ} (none : grantOf x = none) (quiet : ∀ e, Quiet e (f e))
    (found : jobs.get id = some e) :
    ∃ e', (jobs.update fun _ => f).get id = some e' ∧ RowStep x e e' :=
  ⟨f e, by simp [found], .quiet (by simp [none]) (quiet e)⟩

/-- Every row that was there goes through one `RowStep`. -/
theorem step_rows (keyed : Keyed s.jobs) (fresh : FreshPark s ev) (eq : step s ev = some (t, o))
    (found : s.jobs.get id = some e) :
    ∃ e', t.jobs.get id = some e' ∧ RowStep (ev, o) e e' := by
  cases ev with
  | park input =>
      cases eq
      have ne : id ≠ input.jobId := fun eq => by
        simp only [FreshPark] at fresh
        simp [eq, fresh] at found
      exact ⟨e, by simp [park, Table.get_set, ne, found], .quiet (by simp [grantOf]) (.refl e)⟩
  | claim input =>
      cases eq
      exact claim_rows keyed rfl (grantOf_claim input _) found
  | claimAttempt input =>
      cases eq
      exact claim_rows keyed rfl (grantOf_claimAttempt input _) found
  | mintReturn jobId leaseEpoch minted =>
      simp only [step] at eq
      split at eq
      · cases eq
      · cases eq
        exact modify_rows rfl (quiet_restamped minted) jobId found
  | mintThrow jobId leaseEpoch =>
      simp only [step] at eq
      split at eq
      · cases eq
      · cases eq
        exact modify_rows rfl (quiet_unclaimed leaseEpoch) jobId found
  | restampJob jobId runnerId leaseEpoch job =>
      cases eq
      refine modify_rows rfl (fun e => ?_) jobId found
      split
      · exact ⟨rfl, rfl, fun h => h, fun h => h, fun h => ⟨h, rfl⟩⟩
      · exact .refl e
  | touchWaiting owner runnerId advertisedCaps now =>
      cases eq
      refine update_rows rfl (fun e => ?_) found
      split
      · exact ⟨rfl, rfl, fun h => h, fun h => h, fun h => ⟨h, rfl⟩⟩
      · exact .refl e
  | touch jobId runnerId leaseEpoch now =>
      cases eq
      exact modify_rows rfl (quiet_touched runnerId leaseEpoch now) jobId found
  | complete jobId result ranBy leaseEpoch =>
      cases eq
      refine modify_rows ?_ (quiet_reportOr (quiet_completed result) ranBy leaseEpoch) jobId found
      rfl
  | fail jobId message runnerId leaseEpoch =>
      cases eq
      refine modify_rows ?_ (quiet_reportOr (quiet_failed message) runnerId leaseEpoch) jobId found
      rfl
  | expire jobId =>
      cases eq
      exact modify_rows rfl quiet_expired jobId found
  | cancel matched =>
      cases eq
      exact update_rows rfl (quiet_cancelled matched) found
  | authorize | outcome | pending =>
      cases eq
      exact ⟨e, found, .quiet (by simp [grantOf]) (.refl e)⟩

/-- A row that was not there is the one just parked. -/
theorem step_new_row (keyed : Keyed s.jobs) (eq : step s ev = some (t, o))
    (none : s.jobs.get id = none) (found : t.jobs.get id = some e) :
    ∃ input, ev = .park input ∧ o = .done ∧ input.jobId = id ∧ e = parked input := by
  have absent : ∀ f : String → Entry ρ → Entry ρ, (s.jobs.update f).get id = .none := by
    simp [none]
  cases ev with
  | park input =>
      cases eq
      by_cases hit : id = input.jobId
      · refine ⟨input, rfl, rfl, hit.symm, ?_⟩
        simpa [park, Table.get_set, hit, eq_comm] using found
      · simp [park, Table.get_set, hit, none] at found
  | claim input =>
      cases eq
      simp [claim_none keyed rfl none] at found
  | claimAttempt input =>
      cases eq
      simp [claim_none keyed rfl none] at found
  | mintReturn | mintThrow =>
      simp only [step] at eq
      split at eq
      · cases eq
      · cases eq
        simp [Table.modify, absent] at found
  | authorize | outcome | pending =>
      cases eq
      simp [none] at found
  | _ =>
      cases eq
      simp [Table.modify, absent] at found

/-! ## Grants, settlements and reports -/

/-- A grant names a row that was there. -/
theorem granted_row (keyed : Keyed s.jobs) (eq : step s ev = some (t, o)) {g : Grant}
    (grant : grantOf (ev, o) = some g) : s.jobs.get g.jobId ≠ none := by
  have claimed : ∀ input : ClaimInput,
      ((claim s.jobs input).2.map fun l => ⟨l.jobId, input.runnerId, l.leaseEpoch⟩) = some g →
        s.jobs.get g.jobId ≠ none := by
    intro input given
    cases eq : claim s.jobs input with
    | mk jobs lease =>
        rw [eq] at given
        rcases claim_eq keyed eq with ⟨none, -⟩ | ⟨id, e, found, -, lease, -⟩
        · simp [none] at given
        · rw [lease, Option.map_some, Option.some.injEq] at given
          simp [← given, found]
  cases ev with
  | claim input =>
      cases eq
      exact claimed input ((grantOf_claim input _).symm.trans grant)
  | claimAttempt input =>
      cases eq
      exact claimed input ((grantOf_claimAttempt input _).symm.trans grant)
  | _ => simp [grantOf] at grant

/-- The report that ends a job comes from the holder of its row's writable lease. -/
theorem settled_row (eq : step s ev = some (t, o)) (settled : settledBy (ev, o) = some id) :
    ∃ e e' runnerId leaseEpoch, reportOf ev = some ⟨id, runnerId, leaseEpoch⟩ ∧
      s.jobs.get id = some e ∧ holdsWritableLease e runnerId leaseEpoch = true ∧
      t.jobs.get id = some e' ∧ isTerminal e' = true := by
  have ended : ∀ {f : Entry ρ → Entry ρ} {runnerId : String} {leaseEpoch : Nat},
      (∀ e, isTerminal (f e) = true) → s.holds id runnerId leaseEpoch = true →
      ∃ e e', s.jobs.get id = some e ∧ holdsWritableLease e runnerId leaseEpoch = true ∧
        (s.jobs.modify id (reportOr f runnerId leaseEpoch)).get id = some e' ∧
        isTerminal e' = true := by
    intro f runnerId leaseEpoch terminal holds
    rw [Store.holds, Option.any_eq_true] at holds
    obtain ⟨e, found, holds⟩ := holds
    exact ⟨e, f e, by simp [found], holds, by simp [found, reportOr, holds], terminal e⟩
  cases ev with
  | complete jobId result ranBy leaseEpoch =>
      cases eq
      cases holds : s.holds jobId ranBy leaseEpoch with
      | false => simp [settledBy, holds] at settled
      | true =>
          obtain rfl : jobId = id := by simpa [settledBy, holds] using settled
          obtain ⟨e, e', found, writable, found', terminal⟩ :=
            ended (fun e => (isTerminal_iff (e := completed result e)).mpr (.inl rfl)) holds
          exact ⟨e, e', ranBy, leaseEpoch, rfl, found, writable, found', terminal⟩
  | fail jobId message runnerId leaseEpoch =>
      cases eq
      cases holds : s.holds jobId runnerId leaseEpoch with
      | false => simp [settledBy, holds] at settled
      | true =>
          obtain rfl : jobId = id := by simpa [settledBy, holds] using settled
          obtain ⟨e, e', found, writable, found', terminal⟩ :=
            ended (fun e => (isTerminal_iff (e := failed message e)).mpr (.inr (.inl rfl))) holds
          exact ⟨e, e', runnerId, leaseEpoch, rfl, found, writable, found', terminal⟩
  | _ => simp [settledBy] at settled

/-- A report from a lease that its row no longer carries changes no row. -/
theorem stale_report (eq : step s ev = some (t, o)) {g : Grant} (report : reportOf ev = some g)
    (stale : ∀ e, s.jobs.get g.jobId = some e → holdsLease e g.runnerId g.leaseEpoch = false) :
    t.jobs = s.jobs := by
  have refused : ∀ {f : Entry ρ → Entry ρ} e, s.jobs.get g.jobId = some e →
      reportOr f g.runnerId g.leaseEpoch e = e := by
    intro f e found
    simp [reportOr, ackCancelled, holdsWritableLease, stale e found]
  cases ev with
  | touch jobId runnerId leaseEpoch now =>
      cases eq
      cases report
      dsimp only
      apply Table.modify_eq_self
      intro e found
      simp [touched, holdsWritableLease, stale e found]
  | restampJob jobId runnerId leaseEpoch job =>
      cases eq
      cases report
      dsimp only
      apply Table.modify_eq_self
      intro e found
      simp [holdsWritableLease, stale e found]
  | complete jobId result ranBy leaseEpoch =>
      cases eq
      cases report
      exact Table.modify_eq_self refused
  | fail jobId message runnerId leaseEpoch =>
      cases eq
      cases report
      exact Table.modify_eq_self refused
  | _ => simp [reportOf] at report

/-! ## Whole runs -/

/-- Where a row comes from: through a `RowStep`, or just parked. -/
theorem row_origin (keyed : Keyed s.jobs) (fresh : FreshPark s ev) (eq : step s ev = some (t, o))
    (found : t.jobs.get id = some e') :
    (∃ e, s.jobs.get id = some e ∧ RowStep (ev, o) e e') ∨
      (s.jobs.get id = none ∧ grantOf (ev, o) = none ∧
        ∃ input, input.jobId = id ∧ e' = parked input) := by
  cases old : s.jobs.get id with
  | none =>
      obtain ⟨input, rfl, -, name, row⟩ := step_new_row keyed eq old found
      exact .inr ⟨rfl, rfl, input, name, row⟩
  | some e =>
      obtain ⟨e'', found'', row⟩ := step_rows keyed fresh eq old
      obtain rfl : e' = e'' := Option.some.inj (found.symm.trans found'')
      exact .inl ⟨e, rfl, row⟩

theorem Keyed.step (keyed : Keyed s.jobs) (fresh : FreshPark s ev)
    (eq : step s ev = some (t, o)) : Keyed t.jobs := by
  intro id e' found
  rcases row_origin keyed fresh eq found with ⟨e, old, row⟩ | ⟨-, -, input, name, rfl⟩
  · have name := keyed id e old
    cases row with
    | quiet _ quiet => exact quiet.jobId.trans name
    | granted g _ _ _ _ jobId => exact jobId.trans name
  · exact name

/-- What the grants of a run say about the rows it comes to. -/
structure Fenced (log : List (Event ρ × Answer ρ)) (s : Store ρ) : Prop where
  keyed : Keyed s.jobs
  known : ∀ g ∈ grants log, s.jobs.get g.jobId ≠ none
  epoch : ∀ id e, s.jobs.get id = some e →
    e.leaseEpoch = (latestGrant log id).map Grant.leaseEpoch
  holder : ∀ id e, s.jobs.get id = some e → e.status = .leased →
    e.leasedBy = (latestGrant log id).map Grant.runnerId
  bounded : ∀ g ∈ grants log, ∀ e, s.jobs.get g.jobId = some e →
    g.leaseEpoch ≤ e.leaseEpoch.getD 0
  increasing : (grants log).Pairwise fun g h => g.jobId = h.jobId → g.leaseEpoch < h.leaseEpoch

theorem Fenced.empty : Fenced [] (Store.empty (ρ := ρ)) where
  keyed := by simp [Keyed, Store.empty]
  known := by simp [grants]
  epoch := by simp [Store.empty]
  holder := by simp [Store.empty]
  bounded := by simp [grants]
  increasing := .nil

/-- A row without a grant has none in the log either. -/
theorem Fenced.latestGrant_eq_none (fenced : Fenced log s) (none : s.jobs.get id = none) :
    latestGrant log id = .none := by
  cases latest : latestGrant log id with
  | none => rfl
  | some g =>
      have mem : g ∈ grants log := (List.mem_filter.mp (List.mem_of_getLast? latest)).1
      exact absurd (jobId_of_latestGrant latest ▸ none) (fenced.known g mem)

theorem Fenced.step (fenced : Fenced log s) (fresh : FreshPark s ev)
    (eq : step s ev = some (t, o)) : Fenced (log ++ [(ev, o)]) t where
  keyed := fenced.keyed.step fresh eq
  known := by
    have kept : ∀ id, s.jobs.get id ≠ none → t.jobs.get id ≠ none := by
      intro id there
      obtain ⟨e, found⟩ := Option.ne_none_iff_exists'.mp there
      obtain ⟨e', found', -⟩ := step_rows fenced.keyed fresh eq found
      simp [found']
    intro g mem
    rw [grants_append, List.mem_append, Option.mem_toList] at mem
    rcases mem with old | new
    · exact kept _ (fenced.known g old)
    · exact kept _ (granted_row fenced.keyed eq new)
  epoch := by
    intro id e' found
    rcases row_origin fenced.keyed fresh eq found with ⟨e, old, row⟩ | ⟨none, quiet, _, _, rfl⟩
    · have name := fenced.keyed id e old
      cases row with
      | quiet ne quiet =>
          rw [latestGrant_append_of_ne fun g given => name ▸ ne g given, quiet.leaseEpoch]
          exact fenced.epoch id e old
      | granted g grant jobId _ _ _ _ leaseEpoch =>
          rw [← name, ← jobId, latestGrant_append_of_grant grant, leaseEpoch]
          rfl
    · rw [latestGrant_append_of_ne (by simp [quiet]), fenced.latestGrant_eq_none none]
      rfl
  holder := by
    intro id e' found leased
    rcases row_origin fenced.keyed fresh eq found with ⟨e, old, row⟩ | ⟨_, _, _, _, rfl⟩
    · have name := fenced.keyed id e old
      cases row with
      | quiet ne quiet =>
          obtain ⟨before, leasedBy⟩ := quiet.leased leased
          rw [latestGrant_append_of_ne fun g given => name ▸ ne g given, leasedBy]
          exact fenced.holder id e old before
      | granted g grant jobId _ _ _ _ _ leasedBy =>
          rw [← name, ← jobId, latestGrant_append_of_grant grant, leasedBy]
          rfl
    · simp [parked] at leased
  bounded := by
    intro g mem e' found
    rw [grants_append, List.mem_append, Option.mem_toList] at mem
    rcases row_origin fenced.keyed fresh eq found with ⟨e, old, row⟩ | ⟨absent, quiet, _, _, rfl⟩
    · have name := fenced.keyed _ e old
      cases row with
      | quiet ne quiet =>
          rw [quiet.leaseEpoch]
          rcases mem with before | now
          · exact fenced.bounded g before e old
          · exact absurd name.symm (ne g now)
      | granted g' grant _ _ _ _ next leaseEpoch =>
          rw [leaseEpoch]
          rcases mem with before | now
          · have := fenced.bounded g before e old
            simp only [Option.getD_some]
            omega
          · rw [Option.some.inj (grant.symm.trans now)]
            exact le_refl _
    · rcases mem with before | now
      · exact absurd absent (fenced.known g before)
      · simp [quiet] at now
  increasing := by
    rw [grants_append]
    refine List.pairwise_append.mpr ⟨fenced.increasing, by cases grantOf (ev, o) <;> simp, ?_⟩
    intro g before h now same
    rw [Option.mem_toList] at now
    obtain ⟨e, old⟩ := Option.ne_none_iff_exists'.mp (granted_row fenced.keyed eq now)
    obtain ⟨e', -, row⟩ := step_rows fenced.keyed fresh eq old
    have name := fenced.keyed _ e old
    cases row with
    | quiet ne _ => exact absurd name.symm (ne h now)
    | granted g' grant _ _ _ _ next =>
        obtain rfl : g' = h := Option.some.inj (grant.symm.trans now)
        have := fenced.bounded g before e (same ▸ old)
        omega

theorem fenced_of_run (run : Runs step FreshPark Store.empty log s) : Fenced log s :=
  run.invariant .empty fun _ _ _ _ _ fenced fresh eq => fenced.step fresh eq

/-- The lease a row carries is the newest grant of its job. -/
theorem Fenced.latestGrant_of_holds (fenced : Fenced log s) {g : Grant}
    (found : s.jobs.get g.jobId = some e)
    (holds : holdsLease e g.runnerId g.leaseEpoch = true) :
    latestGrant log g.jobId = some g := by
  obtain ⟨leased, leasedBy, -, leaseEpoch⟩ := holdsLease_iff.mp holds
  have epoch := fenced.epoch _ e found
  have holder := fenced.holder _ e found leased
  rw [leaseEpoch, eq_comm, Option.map_eq_some_iff] at epoch
  obtain ⟨latest, eq, same⟩ := epoch
  rw [leasedBy, eq, Option.map_some, Option.some.injEq] at holder
  have jobId := jobId_of_latestGrant eq
  rw [eq, Grant.ext jobId holder.symm same]

/-- No report of an epoch below a granted one finds its lease. -/
theorem Fenced.superseded (fenced : Fenced log s) {g r : Grant} (mem : g ∈ grants log)
    (same : g.jobId = r.jobId) (older : r.leaseEpoch < g.leaseEpoch)
    (found : s.jobs.get r.jobId = some e) : holdsLease e r.runnerId r.leaseEpoch = false := by
  by_contra holds
  obtain ⟨-, -, -, leaseEpoch⟩ := holdsLease_iff.mp (by simpa using holds)
  have := fenced.bounded g mem e (same ▸ found)
  simp only [leaseEpoch, Option.getD_some] at this
  omega

/-- A job that is over, or on its way out. -/
def Ended (e : Entry ρ) : Prop := isTerminal e = true ∨ e.cancelRequested = true

theorem Ended.step (ended : Ended e) {x : Event ρ × Answer ρ} (row : RowStep x e e') :
    Ended e' ∧ ∀ g, grantOf x = some g → g.jobId ≠ e.jobId := by
  cases row with
  | quiet ne quiet => exact ⟨ended.imp quiet.terminal quiet.cancelRequested, ne⟩
  | granted g _ _ live free =>
      rcases ended with terminal | marked
      · simp [live] at terminal
      · simp [free] at marked

/-- An ended job is neither leased nor ended again, whatever happens next. -/
theorem ended_of_runs (keyed : Keyed s.jobs) (found : s.jobs.get id = some e) (ended : Ended e)
    (run : Runs step FreshPark s log t) :
    ∀ x ∈ log, settledBy x ≠ some id ∧ ∀ g, grantOf x = some g → g.jobId ≠ id := by
  have all := run.invariant
    (I := fun log t => Keyed t.jobs ∧ (∃ e, t.jobs.get id = some e ∧ Ended e) ∧
      ∀ x ∈ log, settledBy x ≠ some id ∧ ∀ g, grantOf x = some g → g.jobId ≠ id)
    ⟨keyed, ⟨e, found, ended⟩, by simp⟩ ?_
  · exact all.2.2
  · rintro log s ev t o ⟨keyed, ⟨e, found, ended⟩, before⟩ fresh eq
    obtain ⟨e', found', row⟩ := step_rows keyed fresh eq found
    obtain ⟨ended', ungranted⟩ := ended.step row
    refine ⟨keyed.step fresh eq, ⟨e', found', ended'⟩, fun x mem => ?_⟩
    rcases List.mem_append.mp mem with old | new
    · exact before x old
    · rw [List.mem_singleton.mp new]
      refine ⟨fun settled => ?_, keyed id e found ▸ ungranted⟩
      obtain ⟨e'', -, runnerId, leaseEpoch, -, found'', writable, -, -⟩ := settled_row eq settled
      obtain rfl : e = e'' := Option.some.inj (found.symm.trans found'')
      obtain ⟨holds, free⟩ := holdsWritableLease_iff.mp writable
      rcases ended with terminal | marked
      · simp [not_terminal_of_leased (holdsLease_iff.mp holds).1] at terminal
      · simp [free] at marked

theorem settled_once (run : Runs step FreshPark Store.empty log s) :
    log.Pairwise fun x y => ∀ id, settledBy x = some id → settledBy y ≠ some id := by
  refine run.pairwise (I := fun s => Keyed s.jobs)
    (F := fun x s => ∀ id, settledBy x = some id →
      ∃ e, s.jobs.get id = some e ∧ isTerminal e = true) Fenced.empty.keyed
    (fun _ _ _ _ keyed fresh eq => keyed.step fresh eq) ?_ ?_ ?_
  · intro s ev t o _ _ eq id settled
    obtain ⟨-, e', _, _, -, -, -, found', terminal⟩ := settled_row eq settled
    exact ⟨e', found', terminal⟩
  · intro x s ev t o keyed mark fresh eq id settled
    obtain ⟨e, found, terminal⟩ := mark id settled
    obtain ⟨e', found', row⟩ := step_rows keyed fresh eq found
    cases row with
    | quiet _ quiet => exact ⟨e', found', quiet.terminal terminal⟩
    | granted _ _ _ live => simp [live] at terminal
  · intro x s ev t o _ mark _ eq id settled again
    obtain ⟨e, found, terminal⟩ := mark id settled
    obtain ⟨e', -, _, _, -, found', writable, -, -⟩ := settled_row eq again
    obtain rfl : e = e' := Option.some.inj (found.symm.trans found')
    have leased := (holdsLease_iff.mp (holdsWritableLease_iff.mp writable).1).1
    simp [not_terminal_of_leased leased] at terminal

/-- The lease fence, over every run of the store.  The epochs granted on a job
increase; a `complete` or `fail` that takes effect is presented under the newest
grant of a job that is still leased, and no second one takes effect; a job that
is terminal or cancelled is never granted nor ended again, and a cancel that
counts a job makes it one; and a report whose epoch was superseded, or whose
lease its row no longer carries, changes no row. -/
theorem lease_fence (run : Runs step FreshPark Store.empty log s) :
    ((grants log).Pairwise fun g h => g.jobId = h.jobId → g.leaseEpoch < h.leaseEpoch) ∧
    (log.Pairwise fun x y => ∀ id, settledBy x = some id → settledBy y ≠ some id) ∧
    (∀ ev t o id, step s ev = some (t, o) → settledBy (ev, o) = some id →
      ∃ e g, s.jobs.get id = some e ∧ e.status = .leased ∧ e.cancelRequested = false ∧
        latestGrant log id = some g ∧ reportOf ev = some g) ∧
    (∀ id e, s.jobs.get id = some e → Ended e → ∀ log' t, Runs step FreshPark s log' t →
      ∀ x ∈ log', settledBy x ≠ some id ∧ ∀ g, grantOf x = some g → g.jobId ≠ id) ∧
    (∀ matched t o id e, step s (.cancel matched) = some (t, o) → s.jobs.get id = some e →
      cancelMatches matched e = true → ∃ e', t.jobs.get id = some e' ∧ Ended e') ∧
    (∀ ev t o r, step s ev = some (t, o) → reportOf ev = some r →
      ((∃ g ∈ grants log, g.jobId = r.jobId ∧ r.leaseEpoch < g.leaseEpoch) ∨
        ∀ e, s.jobs.get r.jobId = some e → holdsLease e r.runnerId r.leaseEpoch = false) →
      t.jobs = s.jobs) := by
  have fenced := fenced_of_run run
  refine ⟨fenced.increasing, settled_once run, ?_, ?_, ?_, ?_⟩
  · intro ev t o id eq settled
    obtain ⟨e, -, runnerId, leaseEpoch, report, found, writable, -, -⟩ := settled_row eq settled
    obtain ⟨holds, free⟩ := holdsWritableLease_iff.mp writable
    have newest := fenced.latestGrant_of_holds (g := ⟨id, runnerId, leaseEpoch⟩) found holds
    exact ⟨e, _, found, (holdsLease_iff.mp holds).1, free, newest, report⟩
  · intro id e found ended log' t rest
    exact ended_of_runs fenced.keyed found ended rest
  · intro matched t o id e eq found hit
    cases eq
    exact ⟨cancelled matched e, by simp [found], .inr (by simp [cancelled, hit])⟩
  · intro ev t o r eq report stale
    refine stale_report eq report fun e found => ?_
    rcases stale with ⟨g, mem, same, older⟩ | stale
    · exact fenced.superseded mem same older found
    · exact stale e found

/-- One job, requeued from a silent runner to a second one. -/
def requeuedJob : List (Event Unit) :=
  let job : CaseJob := { evalCase := ⟨"case", none⟩, harness := ⟨"h", "1"⟩ }
  [.park { jobId := "j", owner := "o", runnerId := POOL_RUNNER, job, now := 0 },
    .claim { owner := "o", runnerId := "r1", leaseTtlMs := 10, now := 0 },
    .claim { owner := "o", runnerId := "r2", leaseTtlMs := 10, now := 20 },
    .complete "j" () "r1" 1,
    .complete "j" () "r2" 2]

theorem lease_fence_requeuedJob : ∃ os s,
    exec step FreshPark Store.empty requeuedJob = some (os, s) ∧
    grants (requeuedJob.zip os) = [⟨"j", "r1", 1⟩, ⟨"j", "r2", 2⟩] ∧
    (requeuedJob.zip os).map settledBy = [none, none, none, none, some "j"] ∧
    ((grants (requeuedJob.zip os)).Pairwise fun g h =>
      g.jobId = h.jobId → g.leaseEpoch < h.leaseEpoch) ∧
    ((requeuedJob.zip os).Pairwise fun x y => ∀ id, settledBy x = some id → settledBy y ≠ some id) := by
  refine ⟨_, _, rfl, rfl, rfl, ?_⟩
  have fence := lease_fence (runs_of_exec step FreshPark .empty requeuedJob rfl)
  exact ⟨fence.1, fence.2.1⟩

end Everdict.Runner
