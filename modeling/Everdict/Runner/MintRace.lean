import Everdict.Runner.LeaseFence

/-!
# The write-back of a slow mint

`claimAttempt` claims a row, awaits the mint of its attempt, and writes the
minted job and attempt id to the row.  The row is not locked over the await and
the write is not conditioned on the lease, so a mint that outlives its lease
writes over its successor (`stale_mint_overwrites`); the SQL store has the row
lock, and the hub without a store looks at the lease again.

`mint_belongs` is the property under the missing condition, `MintLands`: in a run
whose mints that carry something return while their lease stands, a leased row
carries what was minted for its epoch.
-/

namespace Everdict.Runner

open Transition Machine

variable {ρ : Type} {e e' : Entry ρ} {s t : Store ρ} {ev : Event ρ} {o : Answer ρ}
  {log : List (Event ρ × Answer ρ)} {id : String}

/-- What a mint put on its row: the job it returned, or the one it was given, and
the attempt it named, or the predecessor. -/
structure Mint where
  jobId : String
  leaseEpoch : Nat
  job : CaseJob
  attemptId : Option String

def mintOf : Event ρ × Answer ρ → Option Mint
  | (.mintReturn jobId leaseEpoch minted, .minted ticket lease) =>
      some ⟨jobId, leaseEpoch, lease.job, minted.attemptId <|> ticket.prior⟩
  | _ => none

/-- A leased row carries the job and the attempt minted for its epoch, and, while
that mint is in flight, what the claim handed to it. -/
structure MintBelongs (log : List (Event ρ × Answer ρ)) (s : Store ρ) : Prop where
  returned : ∀ id e, s.jobs.get id = some e → e.status = .leased →
    ∀ x ∈ log, ∀ m, mintOf x = some m → m.jobId = id → e.leaseEpoch = some m.leaseEpoch →
      e.job = m.job ∧ e.currentAttemptId = m.attemptId
  inFlight : ∀ id e, s.jobs.get id = some e → e.status = .leased →
    ∀ k ∈ s.minting, k.lease.jobId = id → e.leaseEpoch = some k.lease.leaseEpoch →
      e.job = k.lease.job ∧ e.currentAttemptId = k.prior

/-- The lease of this epoch was superseded (requeued, or leased again) or
cancelled. -/
def LeaseLost (leaseEpoch : Nat) (e : Entry ρ) : Prop :=
  e.leaseEpoch ≠ some leaseEpoch ∨ e.status = .queued ∨ e.cancelRequested = true

instance (leaseEpoch : Nat) (e : Entry ρ) : Decidable (LeaseLost leaseEpoch e) := by
  unfold LeaseLost
  infer_instance

/-- A mint that carries a job or an attempt id returns before its lease is lost. -/
def MintLands (s : Store ρ) : Event ρ → Bool
  | .mintReturn jobId leaseEpoch minted =>
      minted = ⟨none, none⟩ ∨ (s.jobs.get jobId).all fun e => ¬ LeaseLost leaseEpoch e
  | _ => true

theorem mintLands_iff {jobId : String} {leaseEpoch : Nat} {minted : ClaimedAttempt} :
    MintLands s (.mintReturn jobId leaseEpoch minted) ↔
      minted = ⟨none, none⟩ ∨ ∀ e, s.jobs.get jobId = some e → ¬ LeaseLost leaseEpoch e := by
  simp [MintLands, Option.all_eq_true]

def isRestamp : Event ρ → Bool
  | .restampJob .. => true
  | _ => false

/-- The steps the lease of a row is taken through: claims, mints, sweeps, cancels
and reports, but no `restampJob`, which is the holder's own write. -/
def LeaseStep (s : Store ρ) (ev : Event ρ) : Prop :=
  isRestamp ev = false ∧ FreshPark s ev

instance (s : Store ρ) (ev : Event ρ) : Decidable (LeaseStep s ev) :=
  inferInstanceAs (Decidable (_ ∧ _))

/-- The lease whose mint returns in this step. -/
def returnOf : Event ρ → Option (String × Nat)
  | .mintReturn jobId leaseEpoch _ => some (jobId, leaseEpoch)
  | _ => none

/-- The two fields a mint writes. -/
def payload (e : Entry ρ) : CaseJob × Option String := (e.job, e.currentAttemptId)

/-- A mint that returns after its lease was lost changes neither field. -/
def LateMintInert (s : Store ρ) (ev : Event ρ) : Prop :=
  ∀ jobId leaseEpoch minted, ev = .mintReturn jobId leaseEpoch minted →
    ∀ t o, step s ev = some (t, o) → ∀ e, s.jobs.get jobId = some e → LeaseLost leaseEpoch e →
      (t.jobs.get jobId).map payload = some (payload e)

/-! ## What a step does to the payload of a row -/

theorem payload_requeueExpired (input : ClaimInput) (e : Entry ρ) :
    payload (requeueExpired input e) = payload e := by
  unfold requeueExpired
  split
  · rfl
  · split <;> rfl

theorem payload_reportOr (ended : Entry ρ → Entry ρ)
    (kept : ∀ e, payload (ended e) = payload e) (runnerId : String) (leaseEpoch : Nat) (e : Entry ρ) :
    payload (reportOr ended runnerId leaseEpoch e) = payload e := by
  unfold reportOr ackCancelled
  split
  · exact kept e
  · split <;> rfl

theorem payload_claim {jobs jobs' : Table String (Entry ρ)} {input : ClaimInput}
    {lease : Option RunnerJobLease} (keyed : Keyed jobs)
    (eq : claim jobs input = (jobs', lease)) (found : jobs.get id = some e)
    (found' : jobs'.get id = some e') : payload e' = payload e := by
  have swept := payload_requeueExpired input e
  rcases claim_eq keyed eq with ⟨-, rfl⟩ | ⟨id', _, -, -, -, rfl⟩
  · obtain rfl : requeueExpired input e = e' := by simpa [found] using found'
    exact swept
  · by_cases hit : id = id'
    · subst hit
      obtain rfl : leased input (requeueExpired input e) = e' := by simpa [found] using found'
      exact swept
    · obtain rfl : requeueExpired input e = e' := by
        simpa [Table.get_modify_of_ne _ hit, found] using found'
      exact swept

theorem payload_modify {jobs : Table String (Entry ρ)} {f : Entry ρ → Entry ρ}
    (kept : ∀ e, payload (f e) = payload e) (target : String) (found : jobs.get id = some e)
    (found' : (jobs.modify target f).get id = some e') : payload e' = payload e := by
  by_cases hit : id = target
  · subst hit
    obtain rfl : f e = e' := by simpa [found] using found'
    exact kept e
  · obtain rfl : e = e' := by simpa [Table.get_modify_of_ne _ hit, found] using found'
    rfl

/-- Only a mint's return writes the payload of a row that was there. -/
theorem step_payload (keyed : Keyed s.jobs) (cond : LeaseStep s ev)
    (eq : step s ev = some (t, o)) (found : s.jobs.get id = some e)
    (found' : t.jobs.get id = some e') :
    payload e' = payload e ∨
      ∃ leaseEpoch minted, ev = .mintReturn id leaseEpoch minted ∧ e' = restamped minted e := by
  cases ev with
  | park input =>
      cases eq
      have ne : id ≠ input.jobId := fun same => by
        have fresh : s.jobs.get input.jobId = none := cond.2
        simp [same, fresh] at found
      obtain rfl : e = e' := by simpa [park, Table.get_set, ne, found] using found'
      exact .inl rfl
  | claim input =>
      cases eq
      exact .inl (payload_claim keyed rfl found found')
  | claimAttempt input =>
      cases eq
      exact .inl (payload_claim keyed rfl found found')
  | mintReturn jobId leaseEpoch minted =>
      simp only [step] at eq
      split at eq
      · cases eq
      · cases eq
        by_cases hit : id = jobId
        · subst hit
          obtain rfl : restamped minted e = e' := by simpa [found] using found'
          exact .inr ⟨leaseEpoch, minted, rfl, rfl⟩
        · obtain rfl : e = e' := by simpa [Table.get_modify_of_ne _ hit, found] using found'
          exact .inl rfl
  | mintThrow jobId leaseEpoch =>
      simp only [step] at eq
      split at eq
      · cases eq
      · cases eq
        refine .inl (payload_modify (fun e => ?_) jobId found found')
        unfold unclaimed
        split <;> rfl
  | restampJob => exact absurd cond.1 (by simp [isRestamp])
  | touchWaiting owner runnerId advertisedCaps now =>
      cases eq
      simp only [Table.get_update, found, Option.map_some, Option.some.injEq] at found'
      rw [← found']
      split <;> exact .inl rfl
  | touch jobId runnerId leaseEpoch now =>
      cases eq
      refine .inl (payload_modify (fun e => ?_) jobId found found')
      unfold touched
      split
      · rfl
      · split <;> rfl
  | complete jobId result ranBy leaseEpoch =>
      cases eq
      have kept := payload_reportOr (completed result) (fun _ => rfl) ranBy leaseEpoch
      exact .inl (payload_modify kept jobId found found')
  | fail jobId message runnerId leaseEpoch =>
      cases eq
      have kept := payload_reportOr (failed (ρ := ρ) message) (fun _ => rfl) runnerId leaseEpoch
      exact .inl (payload_modify kept jobId found found')
  | expire jobId =>
      cases eq
      refine .inl (payload_modify (fun e => ?_) jobId found found')
      unfold expired
      split <;> rfl
  | cancel matched =>
      cases eq
      simp only [Table.get_update, found, Option.map_some, Option.some.injEq] at found'
      rw [← found']
      unfold cancelled
      split <;> exact .inl rfl
  | authorize | outcome | pending =>
      cases eq
      obtain rfl : e = e' := Option.some.inj (found.symm.trans found')
      exact .inl rfl

theorem mintReturn_eq {jobId : String} {leaseEpoch : Nat} {minted : ClaimedAttempt}
    (eq : step s (.mintReturn jobId leaseEpoch minted) = some (t, o)) :
    ∃ k ∈ s.minting, k.lease.jobId = jobId ∧ k.lease.leaseEpoch = leaseEpoch ∧
      t = ⟨s.jobs.modify jobId (restamped minted), s.closeTicket jobId leaseEpoch⟩ ∧
      o = .minted k { k.lease with job := minted.job.getD k.lease.job } := by
  simp only [step] at eq
  split at eq
  · cases eq
  · next k open_ =>
      cases eq
      have same := List.find?_some open_
      simp only [decide_eq_true_eq] at same
      exact ⟨k, List.mem_of_find?_eq_some open_, same.1, same.2, rfl, rfl⟩

/-- A mint in flight was so before, and does not return in this step, or its claim
is this step, and its ticket holds what the row carries. -/
theorem step_minting (keyed : Keyed s.jobs) (eq : step s ev = some (t, o)) {k : Ticket}
    (mem : k ∈ t.minting) :
    (k ∈ s.minting ∧ returnOf ev ≠ some (k.lease.jobId, k.lease.leaseEpoch)) ∨
      ∃ g, grantOf (ev, o) = some g ∧ g.jobId = k.lease.jobId ∧
        g.leaseEpoch = k.lease.leaseEpoch ∧ mintOf (ev, o) = none ∧
        ∀ e', t.jobs.get g.jobId = some e' → payload e' = (k.lease.job, k.prior) := by
  cases ev with
  | claimAttempt input =>
      cases claimed : claim s.jobs input with
      | mk jobs lease =>
          simp only [step, claimed] at eq
          cases eq
          rcases List.mem_append.mp mem with old | new
          · exact .inl ⟨old, by simp [returnOf]⟩
          · rcases claim_eq keyed claimed with ⟨rfl, -⟩ | ⟨id, e, found, -, rfl, -⟩
            · simp at new
            · simp only [Option.toList_some, List.map_cons, List.map_nil,
                List.mem_singleton] at new
              subst new
              refine .inr ⟨_, rfl, rfl, rfl, rfl, fun e' found' => ?_⟩
              have same := payload_claim keyed claimed found found'
              have job : e'.job = e.job := congrArg Prod.fst same
              have row : jobs.get id = some e' := found'
              simp [payload, job, row]
  | mintReturn jobId leaseEpoch minted =>
      obtain ⟨k', -, -, -, rfl, rfl⟩ := mintReturn_eq eq
      obtain ⟨old, other⟩ := List.mem_filter.mp mem
      refine .inl ⟨old, fun same => ?_⟩
      simp only [returnOf, Option.some.injEq, Prod.mk.injEq] at same
      simp [same] at other
  | mintThrow jobId leaseEpoch =>
      simp only [step] at eq
      split at eq
      · cases eq
      · cases eq
        exact .inl ⟨(List.mem_filter.mp mem).1, by simp [returnOf]⟩
  | _ =>
      cases eq
      exact .inl ⟨mem, by simp [returnOf]⟩

/-! ## Whole runs -/

/-- The invariant behind `MintBelongs`: it does not ask whether the row is leased,
and it says that no mint both is in flight and has returned. -/
structure MintedRun (log : List (Event ρ × Answer ρ)) (s : Store ρ) : Prop where
  fenced : Fenced log s
  returned : ∀ id e, s.jobs.get id = some e → ∀ x ∈ log, ∀ m, mintOf x = some m →
    m.jobId = id → e.leaseEpoch = some m.leaseEpoch → payload e = (m.job, m.attemptId)
  inFlight : ∀ id e, s.jobs.get id = some e → ∀ k ∈ s.minting, k.lease.jobId = id →
    e.leaseEpoch = some k.lease.leaseEpoch → payload e = (k.lease.job, k.prior)
  apart : ∀ k ∈ s.minting, ∀ x ∈ log, ∀ m, mintOf x = some m →
    ¬ (m.jobId = k.lease.jobId ∧ m.leaseEpoch = k.lease.leaseEpoch)
  opened : ∀ k ∈ s.minting, ∃ g ∈ grants log,
    g.jobId = k.lease.jobId ∧ g.leaseEpoch = k.lease.leaseEpoch
  granted : ∀ x ∈ log, ∀ m, mintOf x = some m → ∃ g ∈ grants log,
    g.jobId = m.jobId ∧ g.leaseEpoch = m.leaseEpoch

theorem MintedRun.empty : MintedRun [] (Store.empty (ρ := ρ)) where
  fenced := .empty
  returned := by simp
  inFlight := by simp [Store.empty]
  apart := by simp
  opened := by simp [Store.empty]
  granted := by simp

/-- A new grant is newer than every grant before it. -/
theorem Fenced.newer {x : Event ρ × Answer ρ} (fenced : Fenced (log ++ [x]) s) {g g' : Grant}
    (grant : grantOf x = some g) (before : g' ∈ grants log) (same : g'.jobId = g.jobId) :
    g'.leaseEpoch < g.leaseEpoch := by
  have pairs := fenced.increasing
  rw [grants_append, List.pairwise_append] at pairs
  exact pairs.2.2 g' before g (by simp [grant]) same

/-- The payload a row carries under an epoch granted before this step survives the
step, unless it is written by the return of that epoch's own mint. -/
theorem MintedRun.carried (minted : MintedRun log s) (cond : LeaseStep s ev)
    (lands : MintLands s ev) (eq : step s ev = some (t, o)) (found' : t.jobs.get id = some e')
    {leaseEpoch : Nat} (epoch : e'.leaseEpoch = some leaseEpoch) {g : Grant}
    (before : g ∈ grants log) (name : g.jobId = id) (same : g.leaseEpoch = leaseEpoch)
    (notOwn : returnOf ev ≠ some (id, leaseEpoch)) :
    ∃ e, s.jobs.get id = some e ∧ e.leaseEpoch = some leaseEpoch ∧ payload e' = payload e := by
  have fresh := cond.2
  rcases row_origin minted.fenced.keyed fresh eq found' with ⟨e, found, row⟩ | ⟨_, _, _, _, rfl⟩
  · have named := minted.fenced.keyed id e found
    cases row with
    | quiet _ quiet =>
        have before : e.leaseEpoch = some leaseEpoch := quiet.leaseEpoch.symm.trans epoch
        refine ⟨e, found, before, ?_⟩
        rcases step_payload minted.fenced.keyed cond eq found found' with
          kept | ⟨leaseEpoch', written, rfl, rfl⟩
        · exact kept
        · rcases mintLands_iff.mp lands with rfl | stands
          · rfl
          · -- a mint that carries something returns under the row's own epoch
            have own : e.leaseEpoch = some leaseEpoch' := by
              by_contra other
              exact absurd (.inl other) (stands e found)
            rw [before, Option.some.injEq] at own
            simp [returnOf, own] at notOwn
    | granted g' grant jobId _ _ _ _ epoch' =>
        have newer := (minted.fenced.step fresh eq).newer grant before
          (name.trans (named.symm.trans jobId.symm))
        rw [epoch', Option.some.injEq] at epoch
        omega
  · simp [parked] at epoch

theorem MintedRun.step (minted : MintedRun log s) (cond : LeaseStep s ev)
    (lands : MintLands s ev) (eq : step s ev = some (t, o)) :
    MintedRun (log ++ [(ev, o)]) t := by
  have fresh := cond.2
  have fenced := minted.fenced.step fresh eq
  have own : ∀ m, mintOf (ev, o) = some m → ∃ k ∈ s.minting, ∃ written,
      ev = .mintReturn m.jobId m.leaseEpoch written ∧ k.lease.jobId = m.jobId ∧
      k.lease.leaseEpoch = m.leaseEpoch ∧ m.job = written.job.getD k.lease.job ∧
      m.attemptId = (written.attemptId <|> k.prior) ∧
      t.jobs = s.jobs.modify m.jobId (restamped written) := by
    intro m eq'
    cases ev with
    | mintReturn jobId leaseEpoch written =>
        obtain ⟨k, mem, name, epoch, rfl, rfl⟩ := mintReturn_eq eq
        cases eq'
        exact ⟨k, mem, written, rfl, name, epoch, rfl, rfl, rfl⟩
    | _ => simp [mintOf] at eq'
  refine ⟨fenced, ?_, ?_, ?_, ?_, ?_⟩
  · intro id e' found' x mem m mint name epoch
    rcases List.mem_append.mp mem with old | new
    · obtain ⟨g, before, named, same⟩ := minted.granted x old m mint
      have notOwn : returnOf ev ≠ some (id, m.leaseEpoch) := by
        intro same
        cases ev with
        | mintReturn jobId leaseEpoch written =>
            cases same
            obtain ⟨k, flying, kname, kepoch, -, -⟩ := mintReturn_eq eq
            exact minted.apart k flying x old m mint ⟨name.trans kname.symm, kepoch.symm⟩
        | _ => simp [returnOf] at same
      obtain ⟨e, found, epoch, kept⟩ := minted.carried cond lands eq found' epoch before
        (named.trans name) same notOwn
      exact kept.trans (minted.returned id e found x old m mint name epoch)
    · obtain rfl := List.mem_singleton.mp new
      obtain ⟨k, flying, written, rfl, kname, kepoch, job, attempt, rows⟩ := own m mint
      rw [rows, name, Table.get_modify_self, Option.map_eq_some_iff] at found'
      obtain ⟨e, found, rfl⟩ := found'
      have given := minted.inFlight id e found k flying (kname.trans name) (kepoch ▸ epoch)
      have jobs : e.job = k.lease.job := congrArg Prod.fst given
      have attempts : e.currentAttemptId = k.prior := congrArg Prod.snd given
      simp [payload, restamped, job, attempt, jobs, attempts]
  · intro id e' found' k mem name epoch
    rcases step_minting minted.fenced.keyed eq mem with ⟨old, notOwn⟩ | ⟨g, _, gname, -, -, given⟩
    · obtain ⟨g, before, named, same⟩ := minted.opened k old
      obtain ⟨e, found, epoch, kept⟩ := minted.carried cond lands eq found' epoch before
        (named.trans name) same (name ▸ notOwn)
      exact kept.trans (minted.inFlight id e found k old name epoch)
    · exact given e' (by rw [gname, name]; exact found')
  · rintro k mem x memx m mint ⟨name, epoch⟩
    rcases step_minting minted.fenced.keyed eq mem with
      ⟨old, notOwn⟩ | ⟨g, grant, gname, gepoch, none, -⟩
    · rcases List.mem_append.mp memx with oldx | newx
      · exact minted.apart k old x oldx m mint ⟨name, epoch⟩
      · obtain rfl := List.mem_singleton.mp newx
        obtain ⟨-, -, written, rfl, -⟩ := own m mint
        simp [returnOf, name, epoch] at notOwn
    · rcases List.mem_append.mp memx with oldx | newx
      · obtain ⟨g', before, named, same⟩ := minted.granted x oldx m mint
        have := fenced.newer grant before (named.trans (name.trans gname.symm))
        omega
      · obtain rfl := List.mem_singleton.mp newx
        simp [none] at mint
  · intro k mem
    rcases step_minting minted.fenced.keyed eq mem with ⟨old, -⟩ | ⟨g, grant, name, epoch, -, -⟩
    · obtain ⟨g, before, same⟩ := minted.opened k old
      exact ⟨g, by simp [before], same⟩
    · exact ⟨g, by simp [grant], name, epoch⟩
  · intro x mem m mint
    rcases List.mem_append.mp mem with old | new
    · obtain ⟨g, before, same⟩ := minted.granted x old m mint
      exact ⟨g, by simp [before], same⟩
    · obtain rfl := List.mem_singleton.mp new
      obtain ⟨k, flying, written, -, name, epoch, -⟩ := own m mint
      obtain ⟨g, before, gname, gepoch⟩ := minted.opened k flying
      exact ⟨g, by simp [before], gname.trans name, gepoch.trans epoch⟩

/-- A job leased under three epochs, whose second mint returns last. -/
def slowMint : List (Event Unit) :=
  let job : CaseJob :=
    { evalCase := ⟨"case", none⟩, harness := ⟨"h", "1"⟩, attemptId := some "run#g1" }
  let claim (runnerId : String) (now : Int) : ClaimInput :=
    { owner := "o", runnerId, leaseTtlMs := 10, now }
  [.park { jobId := "j", owner := "o", runnerId := POOL_RUNNER, job, now := 0,
           attemptId := some "run#g1" },
    .claim (claim "r1" 0),
    .claimAttempt (claim "r2" 20),
    .claimAttempt (claim "r3" 40),
    .mintReturn "j" 3 ⟨some { job with attemptId := some "run#g3" }, some "run#g3"⟩,
    .mintReturn "j" 2 ⟨some { job with attemptId := some "run#g2" }, some "run#g2"⟩]

/-- The row is leased under epoch 3 and carries the attempt of epoch 2. -/
theorem stale_mint_overwrites : ¬ ∀ log (s : Store Unit),
    Runs step LeaseStep Store.empty log s → MintBelongs log s ∧ ∀ ev, LateMintInert s ev := by
  intro all
  have run := runs_of_exec step LeaseStep Store.empty slowMint rfl
  have belongs := (all _ _ run).1
  have wrong := belongs.returned "j" _ rfl rfl _ (List.mem_of_getElem? (i := 4) rfl) _ rfl rfl rfl
  exact absurd wrong (by decide)

/-- In every run whose mints land in their leases, a leased row carries the job and
the attempt minted for its epoch, and a late mint changes neither. -/
theorem mint_belongs
    (run : Runs step (fun s ev => LeaseStep s ev ∧ MintLands s ev) Store.empty log s) :
    MintBelongs log s ∧ ∀ ev, MintLands s ev → LateMintInert s ev := by
  have minted : MintedRun log s := run.invariant .empty
    fun _ _ _ _ _ minted cond eq => minted.step cond.1 cond.2 eq
  refine ⟨⟨?_, ?_⟩, ?_⟩
  · intro id e found _ x mem m mint name epoch
    exact Prod.mk.inj (minted.returned id e found x mem m mint name epoch)
  · intro id e found _ k mem name epoch
    exact Prod.mk.inj (minted.inFlight id e found k mem name epoch)
  · rintro _ lands jobId leaseEpoch written rfl t o eq e found lost
    obtain ⟨k, -, -, -, rfl, -⟩ := mintReturn_eq eq
    rcases mintLands_iff.mp lands with rfl | stands
    · simp [found, payload, restamped]
    · exact absurd lost (stands e found)

/-- The same job when each mint returns within its lease. -/
def timelyMint : List (Event Unit) :=
  let job : CaseJob :=
    { evalCase := ⟨"case", none⟩, harness := ⟨"h", "1"⟩, attemptId := some "run#g1" }
  let claim (runnerId : String) (now : Int) : ClaimInput :=
    { owner := "o", runnerId, leaseTtlMs := 10, now }
  [.park { jobId := "j", owner := "o", runnerId := POOL_RUNNER, job, now := 0,
           attemptId := some "run#g1" },
    .claim (claim "r1" 0),
    .claimAttempt (claim "r2" 20),
    .mintReturn "j" 2 ⟨some { job with attemptId := some "run#g2" }, some "run#g2"⟩,
    .claimAttempt (claim "r3" 40),
    .mintReturn "j" 3 ⟨some { job with attemptId := some "run#g3" }, some "run#g3"⟩]

theorem mint_belongs_timelyMint : ∃ os s,
    exec step (fun s ev => LeaseStep s ev ∧ MintLands s ev) Store.empty timelyMint = some (os, s) ∧
    (s.jobs.get "j").map payload = some
      ({ evalCase := ⟨"case", none⟩, harness := ⟨"h", "1"⟩, attemptId := some "run#g3" },
        some "run#g3") ∧
    MintBelongs (timelyMint.zip os) s := by
  refine ⟨_, _, rfl, rfl, ?_⟩
  have run := runs_of_exec step (fun s ev => LeaseStep s ev ∧ MintLands s ev) Store.empty
    timelyMint rfl
  exact (mint_belongs run).1

end Everdict.Runner
