import Everdict.Adoption.Steps
import Everdict.Evolution.CampaignEndings

/-!
# An adoption happens once and in order

In every run the facts of a campaign tell the life of its adoption: a close writes its one
operation, each mark is told by the write that took effect, the version registered is the one
the proof names, and a registry or a merge is asked before its mark is spent.  Operations only
move on, and from every state a re-run finishes them (`one_adoption`).
-/

namespace Everdict.Adoption

open Transition Machine Evolution

variable {deps : Deps} {log log' : List (Event × Report)}

/-! ## Re-runs -/

/-- A run leads to the call standing in the phase, over the store. -/
def Comes (deps : Deps) (s : State) (i : Nat) (call : Call) (store : CampaignStore)
    (phase : Phase) : Prop :=
  ∃ log t, Runs (machine deps) (Uncontested deps) s log t ∧ t.store = store ∧
    t.calls[i]? = some (call, phase)

variable {s : State} {store : CampaignStore} {i : Nat} {call : Call} {phase : Phase}

theorem comes_call (deps : Deps) (s : State) (call : Call) :
    Comes deps s s.calls.length call s.store call.begins := by
  have step : machine deps s (.call call) =
      some ({ s with calls := s.calls ++ [(call, call.begins)] }, {}) := rfl
  have ok : Uncontested deps s (.call call) := trivial
  refine ⟨_, _, Runs.tail .refl ok step, rfl, ?_⟩
  simp

theorem Comes.goes {next : Phase} {store' : CampaignStore}
    (comes : Comes deps s i call store phase) (answer : Answer) (report : Report)
    (ok : ∀ marking read then_, answer = .store → phase = .markWrite marking read then_ →
      forCampaign store marking.tenant marking.campaignId = some read)
    (eq : deps.advance store call phase answer = some (store', next, report)) :
    Comes deps s i call store' next := by
  obtain ⟨log, t, run, rfl, found⟩ := comes
  have fine : Uncontested deps t (.goes i answer) := by
    cases answer with
    | store =>
        simp only [Uncontested, found]
        cases phase with
        | markWrite marking read then_ => exact Or.inr (ok marking read then_ rfl rfl)
        | _ => trivial
    | spent | registry | merged | issue | due => trivial
  have step : machine deps t (.goes i answer) =
      some ({ store := store', calls := t.calls.set i (call, next) }, report) := by
    simp only [machine, found, eq]
  refine ⟨_, _, run.tail fine step, rfl, ?_⟩
  exact List.getElem?_set_self (List.getElem?_eq_some_iff.mp found).1

/-- A row that allows a mark is not refused at the read. -/
theorem answers_of_guards {backend : Backend} {op : AdoptionOperation} {mark : Mark}
    (allows : mark.guards op = true) : mark.answers backend op = none := by
  cases mark with
  | registered version =>
      have isDecided : op.state = .decided := by simpa [Mark.guards] using allows
      simp [Mark.answers, isDecided]
  | merged sha =>
      simp only [Mark.guards, decide_eq_true_eq, Option.any_eq_true] at allows
      obtain ⟨state, debt, owes, unpaid⟩ := allows
      have spent : op.state ≠ .decided := by
        rcases state with state | state <;> simp [state]
      simp only [Mark.answers, owes]
      rw [if_neg (by simpa using unpaid), if_neg spent]
  | completed =>
      have isRegistered : op.state = .registered := by simpa [Mark.guards] using allows
      simp [Mark.answers, isRegistered]

/-- A mark on its own is read, written and answered. -/
theorem Comes.marks {marking : Marking} {next : Then} (row : AdoptionOperation)
    (comes : Comes deps s i call store (.markRead marking next))
    (found : forCampaign store marking.tenant marking.campaignId = some row)
    (digest : deps.proofDigest row.proof = marking.proofDigest)
    (allows : marking.mark.guards row = true) :
    Comes deps s i call (marking.put store (marking.mark.apply row row))
      (deps.afterMark call marking .marked next) := by
  have checked : marking.check deps.proofDigest deps.store
      (forCampaign store marking.tenant marking.campaignId) = .ok row := by
    simp only [Marking.check, found]
    rw [if_neg (not_not_intro digest)]
    simp only [answers_of_guards allows]
  have read : Comes deps s i call store (.markWrite marking row next) := by
    refine comes.goes .store {} (fun _ _ _ _ other => by cases other) ?_
    simp only [Deps.advance, Deps.read, checked, Option.map_some]
  have written : marking.write deps.store store row =
      (marking.put store (marking.mark.apply row row), .marked) := by
    cases backend : deps.store with
    | inMemory => rfl
    | postgres => simp only [Marking.write, found, allows, if_true]
  refine read.goes .store { facts := marking.events } ?_ ?_
  · intro _ _ _ _ same
    cases same
    exact found
  · simp only [Deps.advance, written, if_true]

/-- The candidate of a proof, as an honest caller presents it and the registry holds it. -/
def presented (candidate : AdoptionCandidate) : RegistryCandidate where
  type := candidate.type
  id := candidate.id
  version := candidate.version
  specDigest := candidate.specDigest

theorem labelMismatch_presented (candidate : AdoptionCandidate) :
    labelMismatch candidate (presented candidate) = none := by
  simp [labelMismatch, presented]

theorem mismatchOf_presented (candidate : AdoptionCandidate) :
    mismatchOf candidate (presented candidate) = none := by
  rw [mismatchOf, labelMismatch_presented]
  cases digest : candidate.specDigest <;> simp [presented, digest]

theorem driftOf_presented (candidate : AdoptionCandidate) :
    driftOf candidate (presented candidate) = none := by
  rw [driftOf, labelMismatch_presented]
  cases digest : candidate.specDigest <;> simp [presented, digest]

def rerun (row : AdoptionOperation) : AdoptionRequest where
  tenant := row.tenant
  campaignId := row.proof.campaignId
  proof := row.proof
  candidate := presented row.proof.candidate
  spec := ""
  caller := ""
  via := ""

/-- The issue, closed on the adoption's own evidence. -/
def settledOn (proof : CampaignAdoptionProof) : IssueResolutionView :=
  settledOf "done" (some proof.provingScorecardId)

theorem issueSettled_settledOn (proof : CampaignAdoptionProof) :
    issueSettledThisAdoption (settledOn proof) proof = true := by
  simp [issueSettledThisAdoption, settledOn, settledOf]

variable {row : AdoptionOperation}

theorem forCampaign_of_get {tenant id : String} (found : store.adoptions.get id = some row)
    (own : row.tenant = tenant) :
    forCampaign store tenant id = some row := by
  rw [forCampaign, found, Option.filter_some, if_pos (by simpa using own)]

theorem get_put {marking : Marking} :
    (marking.put store row).adoptions.get marking.campaignId = some row := by
  rw [Marking.put, Table.get_set, if_pos rfl]

/-- A re-run of an adoption that is registered completes it. -/
theorem Comes.completes {op : AdoptionOperation} {joined : Joined}
    (comes : Comes deps s i call store (.issue op joined)) (own : op.tenant = call.tenant)
    (found : store.adoptions.get op.proof.campaignId = some op) (state : op.state = .registered) :
    ∃ store' next, Comes deps s i call store' next ∧
      store'.adoptions.get op.proof.campaignId = some { op with state := .completed } := by
  have settled : Comes deps s i call store
      (.markRead (deps.completes op call.tenant) (.joined op joined)) := by
    refine comes.goes (.issue (.found (settledOn op.proof))) {}
      (fun _ _ _ other => by cases other) ?_
    simp only [Deps.advance, Deps.afterIssue, issueSettled_settledOn, if_true]
  have marked := settled.marks op (forCampaign_of_get found own) rfl
    (by simpa [Deps.completes, Mark.guards] using state)
  exact ⟨_, _, marked, get_put⟩

/-- The mark of a re-run. -/
def Deps.registration (deps : Deps) (row : AdoptionOperation) : Marking where
  tenant := row.tenant
  campaignId := row.proof.campaignId
  proofDigest := deps.proofDigest row.proof
  mark := .registered row.proof.candidate.version
  events := [registeredFact row.proof.campaignId row.proof
    ⟨.alreadyExists, presented row.proof.candidate⟩]

/-- A re-run of an adoption that is only decided registers it, and goes on to the issue. -/
theorem Comes.registers (comes : Comes deps s i (.adopt (rerun row)) store .forCampaign)
    (found : store.adoptions.get row.proof.campaignId = some row) (state : row.state = .decided) :
    ∃ store', store'.adoptions.get row.proof.campaignId =
        some (Mark.apply row row (.registered row.proof.candidate.version)) ∧
      Comes deps s i (.adopt (rerun row)) store'
        (.issue (Mark.apply row row (.registered row.proof.candidate.version))
          (.spent (Mark.apply row row (.registered row.proof.candidate.version))
            row.proof.candidate.version)) := by
  have reads : forCampaign store (rerun row).tenant (rerun row).campaignId = some row :=
    forCampaign_of_get found rfl
  have asks : Comes deps s i (.adopt (rerun row)) store (.register (rerun row) row) := by
    refine comes.goes .store { effect := some (.register row.tenant "" "" row.proof "") }
      (fun _ _ _ _ other => by cases other) ?_
    have here : deps.adoptRead (rerun row) (some row) =
        (.register (rerun row) row, some (.register row.tenant "" "" row.proof "")) := by
      simp only [Deps.adoptRead, rerun, ne_eq, not_true_eq_false, if_false, mismatchOf_presented,
        state]
    simp only [Deps.advance, Deps.read, reads, here, Option.map_some]
  have landed : Comes deps s i (.adopt (rerun row)) store
      (.markRead (deps.registration row) (.spent row.proof.candidate.version)) := by
    refine asks.goes (.registry ⟨.alreadyExists, presented row.proof.candidate⟩) {}
      (fun _ _ _ other => by cases other) ?_
    simp only [Deps.advance, Deps.afterRegister, driftOf_presented]
    rfl
  have marked := landed.marks row reads rfl
    (by simpa [Deps.registration, Mark.guards] using state)
  have there : forCampaign ((deps.registration row).put store
      ((deps.registration row).mark.apply row row)) row.tenant row.proof.campaignId =
        some ((deps.registration row).mark.apply row row) :=
    forCampaign_of_get get_put rfl
  refine ⟨(deps.registration row).put store ((deps.registration row).mark.apply row row), get_put,
    marked.goes .store {} (fun _ _ _ _ other => by cases other) ?_⟩
  have waits : deps.afterMark (.adopt (rerun row)) (deps.registration row) .marked
      (.spent row.proof.candidate.version) =
        .spentRead row.proof.campaignId row.proof.candidate.version := rfl
  have tenant : (Call.adopt (rerun row)).tenant = row.tenant := rfl
  simp only [Deps.advance, waits, Deps.read, tenant, there, Option.map_some]
  rfl

def repay (row : AdoptionOperation) : MergeRequest where
  tenant := row.tenant
  campaignId := row.proof.campaignId
  proof := row.proof
  caller := ""

/-- A re-run of the merge pays a debt that is owed. -/
theorem Comes.pays {debt : AdoptionCodeDebt}
    (comes : Comes deps s i (.merge (repay row)) store .forCampaign)
    (found : store.adoptions.get row.proof.campaignId = some row) (state : row.state = .completed)
    (owes : row.code = some debt) (unpaid : debt.merged = false) :
    ∃ store' next, Comes deps s i (.merge (repay row)) store' next ∧
      store'.adoptions.get row.proof.campaignId = some (Mark.apply row row (.merged "")) := by
  have reads : forCampaign store (repay row).tenant (repay row).campaignId = some row :=
    forCampaign_of_get found rfl
  have here : deps.mergeRead (repay row) (some row) =
      (.merge (repay row) row debt,
        some (.merge row.tenant "" debt.repo debt.prNumber debt.sha)) := by
    simp [Deps.mergeRead, repay, owes, state, unpaid]
  have asks : Comes deps s i (.merge (repay row)) store (.merge (repay row) row debt) := by
    refine comes.goes .store
      { effect := some (.merge row.tenant "" debt.repo debt.prNumber debt.sha) }
      (fun _ _ _ _ other => by cases other) ?_
    simp only [Deps.advance, Deps.read, reads, here, Option.map_some]
  have landed : Comes deps s i (.merge (repay row)) store
      (deps.afterMerge (repay row) row debt "" false) :=
    asks.goes (.merged "" false) {} (fun _ _ _ other => by cases other) rfl
  have marked := landed.marks row reads rfl (by simp [Mark.guards, state, owes, unpaid])
  exact ⟨_, _, marked, get_put⟩

/-- The adoption is done and its debt, if it has one, is paid. -/
def Finished (s : CampaignStore) (id : String) : Prop :=
  ∃ done, s.adoptions.get id = some done ∧ done.state = .completed ∧
    (done.code.isSome → isMerged done = true)

theorem Comes.run {next : Phase} (comes : Comes deps s i call store next) :
    ∃ log t, Runs (machine deps) (Uncontested deps) s log t ∧ t.store = store := by
  obtain ⟨log, t, run, same, -⟩ := comes
  exact ⟨log, t, run, same⟩

/-- Once completed, a re-run of the merge finishes what is left. -/
theorem finishes_of_completed {row : AdoptionOperation}
    (found : s.store.adoptions.get row.proof.campaignId = some row)
    (state : row.state = .completed) :
    ∃ log t, Runs (machine deps) (Uncontested deps) s log t ∧
      Finished t.store row.proof.campaignId := by
  cases code : row.code with
  | none => exact ⟨[], s, .refl, row, found, state, by simp [code]⟩
  | some debt =>
      cases merged : debt.merged with
      | true =>
          refine ⟨[], s, .refl, row, found, state, fun _ => ?_⟩
          simp [isMerged, code, merged]
      | false =>
          obtain ⟨store, next, comes, there⟩ :=
            (comes_call deps s (.merge (repay row))).pays found state code merged
          obtain ⟨log, t, run, rfl⟩ := comes.run
          refine ⟨log, t, run, _, there, state, fun _ => ?_⟩
          simp [isMerged, Mark.apply, code, paid]

theorem finishes_of_registered {log : List (Event × Report)} {t : State} {op : AdoptionOperation}
    {joined : Joined} (run : Runs (machine deps) (Uncontested deps) s log t)
    (comes : Comes deps t i call store (.issue op joined)) (own : op.tenant = call.tenant)
    (found : store.adoptions.get op.proof.campaignId = some op) (state : op.state = .registered) :
    ∃ log u, Runs (machine deps) (Uncontested deps) s log u ∧
      Finished u.store op.proof.campaignId := by
  obtain ⟨store', next, comes', there⟩ := comes.completes own found state
  obtain ⟨log', u, more, rfl⟩ := comes'.run
  obtain ⟨log'', v, rest, finished⟩ := @finishes_of_completed deps u
    { op with state := .completed } there rfl
  exact ⟨_, v, (run.trans more).trans rest, finished⟩

/-- From every state a re-run finishes an adoption, whatever was left in between. -/
theorem finishes (found : s.store.adoptions.get row.proof.campaignId = some row) :
    ∃ log t, Runs (machine deps) (Uncontested deps) s log t ∧
      Finished t.store row.proof.campaignId := by
  have comes := comes_call deps s (.adopt (rerun row))
  cases state : row.state with
  | decided =>
      obtain ⟨store, there, registered⟩ := comes.registers found state
      obtain ⟨log, t, run, finished⟩ := finishes_of_registered .refl registered rfl there rfl
      exact ⟨log, t, run, finished⟩
  | registered =>
      have reads : forCampaign s.store (rerun row).tenant (rerun row).campaignId = some row :=
        forCampaign_of_get found rfl
      have here : deps.adoptRead (rerun row) (some row) =
          (.issue row (.retried row.registeredVersion), none) := by
        simp only [Deps.adoptRead, rerun, ne_eq, not_true_eq_false, if_false,
          mismatchOf_presented, state]
      have waits : Comes deps s s.calls.length (.adopt (rerun row)) s.store
          (.issue row (.retried row.registeredVersion)) := by
        refine comes.goes .store {} (fun _ _ _ _ other => by cases other) ?_
        simp only [Deps.advance, Call.begins, Deps.read, reads, here, Option.map_some]
      exact finishes_of_registered .refl waits rfl found state
  | completed => exact finishes_of_completed found state

/-! ## The theorem -/

structure AdoptedOnce (log : List (Event × Report)) (s : CampaignStore) : Prop where
  /-- The outbox holds the facts of the writes that took effect. -/
  emitted : s.events = log.flatMap (·.2.facts)
  told : ∀ id, Told id (factsOf id s) (s.adoptions.get id)
  tells : ∀ id op, s.adoptions.get id = some op → Tells id (factsOf id s) op
  authorized : ∀ id op, s.adoptions.get id = some op →
    ∃ record, s.byId.get id = some record ∧ Authorizes record op
  justified : ∀ before x after, log = before ++ x :: after → Justified s before x

theorem run_advances {s t : State}
    (run : Runs (machine deps) (Uncontested deps) start log s)
    (rest : Runs (machine deps) (Uncontested deps) s log' t) : Advances s.store t.store := by
  induction rest with
  | refl => exact .refl _
  | tail before ok eq ih =>
      have inv := run_inv (run.trans before)
      exact ih.trans ((step_grows inv ok eq).writes.advances inv.books)

/-- However the calls interleave, every adoption is authorized, told once by its facts, never goes
back, and can still be finished. -/
theorem one_adoption (deps : Deps) (run : Runs (machine deps) (Uncontested deps) start log s) :
    AdoptedOnce log s.store ∧
      (∀ log' t, Runs (machine deps) (Uncontested deps) s log' t → Advances s.store t.store) ∧
      ∀ id op, s.store.adoptions.get id = some op →
        ∃ log' t, Runs (machine deps) (Uncontested deps) s log' t ∧ Finished t.store id := by
  have inv := run_inv run
  have tells : ∀ id op, s.store.adoptions.get id = some op → Tells id (factsOf id s.store) op := by
    intro id op found
    have told := inv.books.told id
    rw [found] at told
    exact told.tells op rfl
  refine ⟨⟨inv.emitted, inv.books.told, tells, inv.books.authorized, inv.justified⟩,
    fun log' t rest => run_advances run rest, ?_⟩
  intro id op found
  have own := (tells id op found).campaign
  rw [← own] at found ⊢
  exact finishes found

/-! ## Two callers -/

/-- A campaign is created open. -/
def CreatesOpen (_ : State) : Event → Prop
  | .create record => record.state = .opened
  | _ => True

instance (s : State) : (e : Event) → Decidable (CreatesOpen s e)
  | .create record => inferInstanceAs (Decidable (record.state = .opened))
  | .reserveEvaluation _ | .appendRound .. | .call _ | .goes .. => isTrue trivial

/-- The SQL store contests no run: its marks are guarded statements. -/
theorem uncontested_of_postgres {deps : Deps} (postgres : deps.store = .postgres) (s : State)
    (e : Event) (createsOpen : CreatesOpen s e) : Uncontested deps s e := by
  cases e with
  | create record => exact createsOpen
  | goes i answer =>
      cases answer with
      | store =>
          simp only [Uncontested]
          split
          · exact Or.inl postgres
          · trivial
      | spent | registry | merged | issue | due => trivial
  | reserveEvaluation | appendRound | call => trivial

def wired (store : Backend) : Deps where
  store := store
  policyDigest := fun _ => ""
  answerDigest := fun _ => ""
  proofDigest := fun proof => proof.campaignId
  requestDigestOf := fun _ => ""

/-- A campaign whose last round won, built from a pull request. -/
def won : EvolutionCampaignRecord where
  id := "c-1"
  tenant := "acme"
  issueId := "i-1"
  frame := oneRoundFrame
  frameDigest := "sha256:frame"
  rounds := [{ improvedRound [] with
    verdict := { (improvedRound []).verdict with
      candidateSource := some {
        source := "pull_request", repo := some "acme/coder", sha := some "abc"
        prNumber := some 7 } } }]

def provenCandidate : RegistryCandidate where
  type := .harness
  id := "coder"
  version := "1.1.0"
  specDigest := some "sha256:00"

def provenProof : CampaignAdoptionProof where
  campaignId := "c-1"
  frameDigest := "sha256:frame"
  roundSeq := 1
  candidate := {
    identity := .exact, type := .harness, id := "coder", version := "1.1.0"
    specDigest := some "sha256:00" }
  provingScorecardId := "sc-2"
  candidateSource := some {
    source := "pull_request", repo := some "acme/coder", sha := some "abc", prNumber := some 7 }
  issueId := "i-1"
  gateDigest := ""

def adopts (caller : String) : Call := .adopt {
  tenant := "acme", campaignId := "c-1", proof := provenProof, candidate := provenCandidate
  spec := "{}", caller, via := "mcp" }

/-- Two members adopt at once, and both registrations land before either is spent; the issue
is then closed on the proving scorecard. -/
def bothAdopt : List Event :=
  [.create won, .call (.settle "acme" "c-1" "alice"), .goes 0 .store,
    .goes 0 (.spent { consumed := 1, outstanding := 0 }), .goes 0 .store,
    .call (adopts "alice"), .call (adopts "bob"), .goes 1 .store, .goes 2 .store,
    .goes 1 (.registry ⟨.created, provenCandidate⟩),
    .goes 2 (.registry ⟨.alreadyExists, provenCandidate⟩), .goes 1 .store, .goes 2 .store,
    .goes 1 .store, .goes 2 .store]

theorem one_adoption_bothAdopt :
    ∃ log s, Runs (machine (wired .postgres)) (Uncontested (wired .postgres)) start log s ∧
      (s.store.events.map kindOf = [.opened, .closed, .registered]) ∧
      AdoptedOnce log s.store ∧
      (∀ log' t, Runs (machine (wired .postgres)) (Uncontested (wired .postgres)) s log' t →
        Advances s.store t.store) ∧
      ∀ id op, s.store.adoptions.get id = some op →
        ∃ log' t, Runs (machine (wired .postgres)) (Uncontested (wired .postgres)) s log' t ∧
          Finished t.store id := by
  obtain ⟨log, s, run, facts⟩ := exists_run_of_exec (machine (wired .postgres)) CreatesOpen start
    bothAdopt (fun s => s.store.events.map kindOf = [.opened, .closed, .registered])
    (by decide +kernel)
  have postgres : (wired .postgres).store = .postgres := rfl
  have uncontested := run.mono (uncontested_of_postgres postgres)
  exact ⟨log, s, uncontested, by simpa using facts, one_adoption (wired .postgres) uncontested⟩

/-- In the in-process store the second mark writes the row it read before the first one wrote:
one adoption is told twice. -/
theorem both_adopt_told_twice :
    ∃ log s, Runs (machine (wired .inMemory)) Always start log s ∧
      ¬ Told "c-1" (factsOf "c-1" s.store) (s.store.adoptions.get "c-1") := by
  obtain ⟨log, s, run, facts⟩ := exists_run_of_exec (machine (wired .inMemory)) Always start
    bothAdopt (fun s => (factsOf "c-1" s.store).map kindOf =
      [.opened, .closed, .registered, .registered]) (by decide +kernel)
  refine ⟨log, s, run, fun told => ?_⟩
  have kinds : (factsOf "c-1" s.store).map kindOf =
      [.opened, .closed, .registered, .registered] := by simpa using facts
  cases row : s.store.adoptions.get "c-1" with
  | none =>
      have short := told.short row
      rw [← List.length_map kindOf, kinds] at short
      exact absurd short (by decide)
  | some op =>
      rw [row] at told
      have once := (told.tells op rfl).ordered.map kindOf fun f g both => both.1
      rw [kinds] at once
      revert once
      decide

end Everdict.Adoption
