import Everdict.Adoption.Books

/-!
# What a step of an adoption does

What every call has in hand between its awaits (`Holds`), what comes before an answer of the
log (`Justified`), and the one step lemma: a step of any call writes what `Writes` allows and
leaves every call with what it can account for (`step_grows`).  The SQL store needs no
condition; in the in-process store a mark writes the row it has read, and the row must not
have moved in between (`Uncontested`).
-/

namespace Everdict.Adoption

open Transition Machine Evolution

/-! ## Causes and conditions -/

/-- What comes before an answer of the log: the registry's answer before the registration, the
merge before the debt is paid, and before anything is asked the authority to ask it. -/
structure Justified (s : CampaignStore) (before : List (Event × Report)) (x : Event × Report) :
    Prop where
  registered : ∀ id candidate scorecard issue created,
    .adoptionRegistered id candidate scorecard issue created ∈ x.2.facts →
      ∃ i landed, x.1 = .goes i .store ∧ .goes i (.registry landed) ∈ before.map Prod.fst ∧
        landed.candidate.type = candidate.type ∧ landed.candidate.id = candidate.id ∧
        landed.candidate.version = candidate.version ∧ created = decide (landed.kind = .created) ∧
        ∃ op, s.adoptions.get id = some op ∧ driftOf op.proof.candidate landed.candidate = none
  merged : ∀ id candidate repo prNumber sha issue,
    .adoptionMerged id candidate repo prNumber sha issue ∈ x.2.facts →
      ∃ i already, x.1 = .goes i .store ∧ .goes i (.merged sha already) ∈ before.map Prod.fst
  asksRegistry : ∀ tenant caller via proof spec,
    x.2.effect = some (.register tenant caller via proof spec) →
      ∃ op, s.adoptions.get proof.campaignId = some op ∧ op.tenant = tenant ∧ op.proof = proof
  asksMerge : ∀ tenant caller repo prNumber sha,
    x.2.effect = some (.merge tenant caller repo prNumber sha) →
      ∃ id op, s.adoptions.get id = some op ∧ op.tenant = tenant ∧
        op.code.map coordinates = some (repo, prNumber, sha) ∧
        ∃ f ∈ before.flatMap (·.2.facts), campaignOf f = id ∧ kindOf f = .registered

/-- A campaign is created open, and in the in-process store a mark still finds the row it has
read. -/
def Uncontested (deps : Deps) (s : State) : Event → Prop
  | .create record => record.state = .opened
  | .goes i .store =>
      match s.calls[i]? with
      | some (_, .markWrite marking read _) =>
          deps.store = .postgres ∨
            forCampaign s.store marking.tenant marking.campaignId = some read
      | _ => True
  | _ => True

variable {deps : Deps} {s t : CampaignStore} {log log' : List (Event × Report)}

/-! ## What a call has in hand -/

/-- An operation that was the row of its campaign, and is an earlier state of it. -/
structure InHand (s : CampaignStore) (id : String) (op : AdoptionOperation) : Prop where
  told : ∃ facts, Told id facts (some op)
  row : ∃ row, s.adoptions.get id = some row ∧ Older op row

/-- The same, at the campaign its own proof names. -/
def Own (s : CampaignStore) (op : AdoptionOperation) : Prop := InHand s op.proof.campaignId op

variable {op : AdoptionOperation} {id : String}

theorem InHand.mono (inHand : InHand s id op) (advances : Advances s t) :
    InHand t id op := by
  obtain ⟨row, found, older⟩ := inHand.row
  obtain ⟨row', found', older'⟩ := advances.rows id row found
  exact ⟨inHand.told, row', found', older.trans older'⟩

theorem InHand.own (inHand : InHand s id op) :
    op.proof.campaignId = id := by
  obtain ⟨facts, told⟩ := inHand.told
  exact (told.tells op rfl).campaign

theorem Books.inHand (books : Books s) (found : s.adoptions.get id = some op) :
    InHand s id op := by
  have told := books.told id
  rw [found] at told
  exact ⟨⟨_, told⟩, op, found, .refl op⟩

theorem get_of_forCampaign {tenant id : String} (found : forCampaign s tenant id = some op) :
    s.adoptions.get id = some op ∧ op.tenant = tenant := by
  obtain ⟨there, own⟩ := Option.filter_eq_some_iff.mp found
  exact ⟨there, by simpa using own⟩

theorem Books.own_of_get (books : Books s) (found : s.adoptions.get id = some op) :
    Own s op := by
  have inHand := books.inHand found
  have own := inHand.own
  rwa [← own] at inHand

/-- What a mark was born from: the answer it carries, and the operation its fact is about. -/
inductive Bears (s : CampaignStore) (log : List (Event × Report)) (i : Nat) (marking : Marking) :
    Prop
  | registered {op : AdoptionOperation} {landed : RegistrationOutcome} :
      InHand s marking.campaignId op → driftOf op.proof.candidate landed.candidate = none →
      .goes i (.registry landed) ∈ log.map Prod.fst →
      marking.mark = .registered landed.candidate.version →
      marking.events = [registeredFact marking.campaignId op.proof landed] →
      Bears s log i marking
  | merged {op : AdoptionOperation} {debt : AdoptionCodeDebt} {sha : String} {already : Bool} :
      InHand s marking.campaignId op → op.code = some debt →
      .goes i (.merged sha already) ∈ log.map Prod.fst → marking.mark = .merged sha →
      marking.events = [mergedFact marking.campaignId op.proof debt sha] → Bears s log i marking
  | completed {op : AdoptionOperation} : InHand s marking.campaignId op →
      marking.mark = .completed → marking.events = [completionFact op] → Bears s log i marking

variable {i : Nat} {x : Event × Report} {marking : Marking}

theorem Bears.mono (bears : Bears s log i marking) (advances : Advances s t) :
    Bears t (log ++ [x]) i marking := by
  have later : ∀ e, e ∈ log.map Prod.fst → e ∈ (log ++ [x]).map Prod.fst := by
    intro e inside
    rw [List.map_append]
    exact List.mem_append_left _ inside
  cases bears with
  | registered inHand drift answered mark events =>
      exact .registered (inHand.mono advances) drift (later _ answered) mark events
  | merged inHand owes answered mark events =>
      exact .merged (inHand.mono advances) owes (later _ answered) mark events
  | completed inHand mark events => exact .completed (inHand.mono advances) mark events

/-- What holds of what a caller has in hand behind its mark. -/
def Then.Holds (s : CampaignStore) : Then → Prop
  | .handled rest | .swept _ rest _ => ∀ op ∈ rest, Own s op
  | .spent _ | .paid .. | .joined .. => True

/-- What holds of what a call has in hand. -/
def Holds (deps : Deps) (s : CampaignStore) (log : List (Event × Report)) (i : Nat)
    (call : Call) : Phase → Prop
  | .get .. | .forCampaign | .forIssue | .due | .spentRead .. | .paidRead .. | .joinedRead ..
  | .done _ => True
  | .spend record _ => record.tenant = call.tenant
  | .close record settlement => record.tenant = call.tenant ∧ ∃ spend closedBy,
      settle deps.policyDigest deps.answerDigest record spend closedBy = .ok settlement
  | .register input recorded => InHand s input.campaignId recorded
  | .merge input recorded debt => InHand s input.campaignId recorded ∧ recorded.code = some debt
  | .issue operation _ => Own s operation
  | .sweepIssue operation rest _ => ∀ op ∈ operation :: rest, Own s op
  | .markRead marking next => Bears s log i marking ∧ next.Holds s
  | .markWrite marking read next => Bears s log i marking ∧ next.Holds s ∧
      InHand s marking.campaignId read ∧ marking.mark.answers deps.store read = none
  | .defer _ rest _ => ∀ op ∈ rest, Own s op

theorem Then.Holds.mono {next : Then} (holds : next.Holds s) (advances : Advances s t) :
    next.Holds t := by
  cases next with
  | spent | paid | joined => trivial
  | handled | swept => exact fun op inside => (holds op inside).mono advances

variable {call : Call}

theorem Holds.mono {phase : Phase} (holds : Holds deps s log i call phase)
    (advances : Advances s t) :
    Holds deps t (log ++ [x]) i call phase := by
  cases phase with
  | get | forCampaign | forIssue | due | spentRead | paidRead | joinedRead | done => trivial
  | spend | close => exact holds
  | register => exact InHand.mono holds advances
  | merge => exact ⟨holds.1.mono advances, holds.2⟩
  | issue => exact InHand.mono holds advances
  | sweepIssue | defer => exact fun op inside => (holds op inside).mono advances
  | markRead => exact ⟨holds.1.mono advances, holds.2.mono advances⟩
  | markWrite =>
      obtain ⟨bears, next, inHand, answers⟩ := holds
      exact ⟨bears.mono advances, next.mono advances, inHand.mono advances, answers⟩

/-! ## What the calls compute -/

theorem handleNext_holds {tenant : String} {issue : IssueResolutionView}
    {rest : List AdoptionOperation} (own : ∀ op ∈ rest, Own s op) :
    Holds deps s log i call (deps.handleNext tenant issue rest) := by
  induction rest with
  | nil => trivial
  | cons op rest ih =>
      have behind : ∀ op ∈ rest, Own s op := fun op inside => own op (List.mem_cons_of_mem _ inside)
      unfold Deps.handleNext
      split
      · exact ⟨.completed (own op List.mem_cons_self) rfl rfl, behind⟩
      · exact ih behind

theorem sweepNext_holds {sweep : AdoptionCompletionSweep} {rest : List AdoptionOperation}
    (own : ∀ op ∈ rest, Own s op) :
    Holds deps s log i call (sweepNext sweep rest) := by
  cases rest with
  | nil => trivial
  | cons op rest => exact own

theorem afterMark_holds {next : Then} (outcome : MarkOutcome) (holds : next.Holds s) :
    Holds deps s log i call (deps.afterMark call marking outcome next) := by
  cases next with
  | spent version => cases outcome <;> trivial
  | paid sha already => cases outcome <;> trivial
  | joined operation joined => cases outcome <;> trivial
  | handled rest =>
      cases outcome with
      | proofMismatch | noSuchOperation => trivial
      | marked | already | noCodeDebt | notRegistered => exact handleNext_holds holds
  | swept operation rest sweep =>
      cases outcome with
      | marked | already => exact sweepNext_holds holds
      | noCodeDebt | notRegistered | noSuchOperation | proofMismatch => exact holds

theorem afterIssue_holds {tenant : String} {joined : Joined} (answer : IssueAnswer)
    (own : Own s op) :
    Holds deps s log i call (deps.afterIssue tenant op joined answer) := by
  cases answer with
  | found issue =>
      simp only [Deps.afterIssue]
      split
      · exact ⟨.completed own rfl rfl, trivial⟩
      · trivial
  | notFound | failed => trivial

theorem afterSweepIssue_holds {rest : List AdoptionOperation} {sweep : AdoptionCompletionSweep}
    (answer : IssueAnswer) (own : ∀ o ∈ op :: rest, Own s o) :
    Holds deps s log i call (deps.afterSweepIssue op rest sweep answer) := by
  have behind : ∀ o ∈ rest, Own s o := fun o inside => own o (List.mem_cons_of_mem _ inside)
  cases answer with
  | found issue =>
      simp only [Deps.afterSweepIssue]
      split
      · exact ⟨.completed (own op List.mem_cons_self) rfl rfl, behind⟩
      · exact behind
  | notFound | failed => exact behind

/-- The authority behind what a call asks for, in the store it has just read. -/
def Asks (s : CampaignStore) : Option Effect → Prop
  | none => True
  | some (.register tenant _ _ proof _) =>
      ∃ op, s.adoptions.get proof.campaignId = some op ∧ op.tenant = tenant ∧ op.proof = proof
  | some (.merge tenant _ repo prNumber sha) =>
      ∃ id op, s.adoptions.get id = some op ∧ op.tenant = tenant ∧
        op.code.map coordinates = some (repo, prNumber, sha) ∧ op.state ≠ .decided

theorem adoptRead_spec {i : Nat} {call : Call} (books : Books s) (input : AdoptionRequest) :
    Holds deps s log i call
        (deps.adoptRead input (forCampaign s input.tenant input.campaignId)).1 ∧
      Asks s (deps.adoptRead input (forCampaign s input.tenant input.campaignId)).2 := by
  cases found : forCampaign s input.tenant input.campaignId with
  | none => exact ⟨trivial, trivial⟩
  | some recorded =>
      obtain ⟨there, tenant⟩ := get_of_forCampaign found
      have inHand := books.inHand there
      unfold Deps.adoptRead
      simp only
      split
      · exact ⟨trivial, trivial⟩
      · split
        · exact ⟨trivial, trivial⟩
        · split
          · exact ⟨inHand, recorded, by rw [inHand.own, there], tenant, rfl⟩
          · exact ⟨books.own_of_get there, trivial⟩
          · exact ⟨trivial, trivial⟩

theorem mergeRead_spec {i : Nat} {call : Call} (books : Books s) (input : MergeRequest) :
    Holds deps s log i call
        (deps.mergeRead input (forCampaign s input.tenant input.campaignId)).1 ∧
      Asks s (deps.mergeRead input (forCampaign s input.tenant input.campaignId)).2 := by
  cases found : forCampaign s input.tenant input.campaignId with
  | none => exact ⟨trivial, trivial⟩
  | some recorded =>
      obtain ⟨there, tenant⟩ := get_of_forCampaign found
      have inHand := books.inHand there
      unfold Deps.mergeRead
      simp only
      split
      · exact ⟨trivial, trivial⟩
      · split
        · exact ⟨trivial, trivial⟩
        · next debt owes =>
            split
            · exact ⟨trivial, trivial⟩
            · next spent =>
                split
                · exact ⟨trivial, trivial⟩
                · refine ⟨⟨inHand, owes⟩, input.campaignId, recorded, there, tenant, ?_, spent⟩
                  rw [owes]
                  rfl

theorem afterRegister_holds {input : AdoptionRequest} {recorded : AdoptionOperation}
    {landed : RegistrationOutcome} (inHand : InHand s input.campaignId recorded)
    (answered : .goes i (.registry landed) ∈ log.map Prod.fst) :
    Holds deps s log i call (deps.afterRegister input recorded landed) := by
  unfold Deps.afterRegister
  split
  · trivial
  · next agreed => exact ⟨.registered inHand agreed answered rfl rfl, trivial⟩

/-- A mark that goes on holds the row it read, and has not been refused by it. -/
theorem check_eq_ok {digest : CampaignAdoptionProof → String} {backend : Backend}
    {found : Option AdoptionOperation} {read : AdoptionOperation}
    (checked : marking.check digest backend found = .ok read) :
    found = some read ∧ marking.mark.answers backend read = none := by
  unfold Marking.check at checked
  split at checked
  · cases checked
  · split at checked
    · cases checked
    · split at checked
      · cases checked
      · next goesOn =>
          cases checked
          exact ⟨rfl, goesOn⟩

/-- A read leaves a call with what it can account for, and asks with authority. -/
theorem read_spec {phase next : Phase} {effect : Option Effect} (books : Books s)
    (holds : Holds deps s log i call phase) (eq : deps.read s call phase = some (next, effect)) :
    Holds deps s log i call next ∧ Asks s effect := by
  cases phase with
  | get id closedBy =>
      simp only [Deps.read] at eq
      split at eq
      · cases eq
        exact ⟨trivial, trivial⟩
      · next record found =>
          have own := (Option.filter_eq_some_iff.mp found).2
          split at eq
          · cases eq
            exact ⟨trivial, trivial⟩
          · cases eq
            exact ⟨by simpa [Holds] using own, trivial⟩
  | forCampaign =>
      cases call with
      | adopt input =>
          have spec := @adoptRead_spec deps s log i (.adopt input) books input
          obtain eq := Option.some.inj eq
          rw [eq] at spec
          exact spec
      | merge input =>
          have spec := @mergeRead_spec deps s log i (.merge input) books input
          obtain eq := Option.some.inj eq
          rw [eq] at spec
          exact spec
      | settle | handle | sweep => cases eq
  | forIssue =>
      cases call with
      | handle tenant issueId status scorecardId =>
          cases eq
          refine ⟨handleNext_holds ?_, trivial⟩
          intro op inside
          obtain ⟨id, found⟩ := Table.mem_values.mp (List.mem_filter.mp inside).1
          exact books.own_of_get found
      | settle | adopt | merge | sweep => cases eq
  | markRead marking then_ =>
      obtain ⟨bears, thenHolds⟩ := holds
      simp only [Deps.read] at eq
      split at eq
      · next outcome _ =>
          cases eq
          exact ⟨afterMark_holds outcome thenHolds, trivial⟩
      · next read checked =>
          cases eq
          obtain ⟨found, goesOn⟩ := check_eq_ok checked
          have inHand := books.inHand (get_of_forCampaign found).1
          exact ⟨⟨bears, thenHolds, inHand, goesOn⟩, trivial⟩
  | spentRead campaignId version =>
      simp only [Deps.read] at eq
      split at eq
      · cases eq
        exact ⟨trivial, trivial⟩
      · next op found =>
          cases eq
          exact ⟨books.own_of_get (get_of_forCampaign found).1, trivial⟩
  | paidRead campaignId now sha =>
      simp only [Deps.read] at eq
      split at eq <;> cases eq <;> exact ⟨trivial, trivial⟩
  | joinedRead campaignId joined =>
      cases eq
      exact ⟨trivial, trivial⟩
  | defer operation rest sweep =>
      cases eq
      exact ⟨sweepNext_holds holds, trivial⟩
  | spend | close | register | merge | due | issue | sweepIssue | markWrite | done => cases eq

/-! ## The close -/

/-- An accepted settlement: a halt owes nothing, an adoption owes the operation its close
names. -/
inductive Settles (record : EvolutionCampaignRecord) (settlement : Settlement) : Prop
  | halted {reason : HaltedState} : settlement.state = .halted reason →
      settlement.adoption = none → Settles record settlement
  | adopted {op : AdoptionOperation} {waived : List String} : settlement.state = .adopted →
      settlement.adoption = some op → Decided record.id op → op.tenant = record.tenant →
      settlement.close.outcome = .adopted op.proof.candidate.version op.proof.provingScorecardId
        op.proof.candidate.specDigest op.proof.candidateSource waived →
      op.code.map coordinates = (codeDebtOf op.proof).map coordinates → Settles record settlement

theorem unmerged_codeDebtOf (proof : CampaignAdoptionProof) :
    (codeDebtOf proof).any (·.merged) = false := by
  unfold codeDebtOf
  rcases proof.candidateSource with _ | source
  · rfl
  · rcases source with ⟨_, _ | repo, _, _ | prNumber⟩ <;> rfl

theorem settles_of_settlementOf {answerDigest : CampaignGateAnswer → String}
    {record : EvolutionCampaignRecord} {closedBy : String} {answer : CampaignGateAnswer}
    {settlement : Settlement}
    (eq : settlementOf answerDigest record closedBy answer = .ok settlement) :
    Settles record settlement := by
  cases answer with
  | «continue» => cases eq
  | adopt version scorecard waived digest source summary =>
      simp only [settlementOf, adoptionProofOf] at eq
      cases latest : record.rounds.getLast? with
      | none =>
          rw [latest] at eq
          cases eq
      | some round =>
          rw [latest] at eq
          cases eq
          exact .adopted rfl rfl ⟨rfl, rfl, rfl, unmerged_codeDebtOf _⟩ rfl rfl rfl
  | halt reason detail summary =>
      simp only [settlementOf] at eq
      split at eq
      · cases eq
      · cases eq
        exact .halted rfl rfl

theorem settles_of_settle {record : EvolutionCampaignRecord} {spend : CampaignSpend}
    {closedBy : String} {settlement : Settlement}
    (eq : settle deps.policyDigest deps.answerDigest record spend closedBy = .ok settlement) :
    Settles record settlement := by
  simp only [settle] at eq
  split at eq
  · cases eq
  · split at eq
    · cases eq
    · exact settles_of_settlementOf eq

/-- A close that is not refused, on the record as the store then holds it. -/
theorem close_accepted {tenant id : String} {state : ClosedState} {closing : CampaignClose}
    {rounds : Nat} {facts : List CampaignFact} {adoption : Option AdoptionOperation} :
    (close s tenant id state closing rounds facts adoption).2 ≠ .closed ∧
        (close s tenant id state closing rounds facts adoption).1 = s ∨
      ∃ record, s.byId.get id = some record ∧ record.tenant = tenant ∧ record.state = .opened ∧
        close s tenant id state closing rounds facts adoption =
          ({ s with
              byId := s.byId.set id { record with state := .closed state, close := some closing }
              adoptions := adoption.elim s.adoptions fun op =>
                if (s.adoptions.get op.proof.campaignId).isSome then s.adoptions
                else s.adoptions.set op.proof.campaignId op
              events := s.events ++ facts }, .closed) := by
  unfold close
  rcases found : s.get tenant id with _ | record
  · exact Or.inl ⟨by simp, rfl⟩
  simp only
  split
  · exact Or.inl ⟨by simp, rfl⟩
  next isOpen =>
  split
  · exact Or.inl ⟨by simp, rfl⟩
  right
  obtain ⟨there, own⟩ := Option.filter_eq_some_iff.mp found
  exact ⟨record, there, by simpa using own, by simpa using isOpen, by cases adoption <;> rfl⟩

/-- A settlement's close, refused or written. -/
theorem close_writes {tenant : String} {record : EvolutionCampaignRecord} {settlement : Settlement}
    (books : Books s) (own : record.tenant = tenant) (settles : Settles record settlement)
    {closing : CampaignStore × CampaignCloseOutcome}
    (eq : closing = close s tenant record.id settlement.state settlement.close record.rounds.length
      [closedFact record settlement] settlement.adoption) :
    Writes s closing.1 (if closing.2 = .closed then [closedFact record settlement] else []) := by
  rcases @close_accepted s tenant record.id settlement.state settlement.close
    record.rounds.length [closedFact record settlement] settlement.adoption with
    ⟨refused, same⟩ | ⟨current, found, tenancy, isOpen, written⟩
  · rw [← eq] at refused same
    rw [if_neg refused, same]
    exact .quiet rfl rfl fun _ => rfl
  · rw [written] at eq
    subst eq
    rw [if_pos rfl]
    have none := books.none_of_opened found isOpen
    cases settles with
    | @halted reason state owes =>
        rw [closedFact, state]
        refine @Writes.halted s _ record.id current
          { current with state := .closed (.halted reason), close := some settlement.close }
          reason found isOpen rfl rfl ?_ rfl
        rw [owes]
        rfl
    | @adopted op waived state owes decided tenant' names code =>
        rw [closedFact, state]
        refine .adopted found isOpen decided ?_ rfl ?_ rfl
        · exact ⟨tenancy.trans (own.symm.trans tenant'.symm), rfl,
            ⟨settlement.close, waived, rfl, names⟩, code⟩
        · simp only [owes, Option.elim_some]
          rw [decided.campaign, none]
          rfl

/-! ## The marks -/

theorem labels_of_agreed {want : AdoptionCandidate} {given : RegistryCandidate}
    (agreed : driftOf want given = none) :
    given.type = want.type ∧ given.id = want.id ∧ given.version = want.version := by
  have labels := (Option.or_eq_none_iff.mp agreed).1
  simp only [labelMismatch] at labels
  split at labels
  · cases labels
  · next type =>
      split at labels
      · cases labels
      · next id =>
          split at labels
          · cases labels
          · next version =>
              exact ⟨(not_not.mp type).symm, (not_not.mp id).symm, (not_not.mp version).symm⟩

theorem registeredFact_eq {landed : RegistrationOutcome}
    (agreed : driftOf op.proof.candidate landed.candidate = none) :
    registeredFact id op.proof landed =
      .adoptionRegistered id { op.proof.candidate with specDigest := none }
        op.proof.provingScorecardId op.proof.issueId (landed.kind = .created) := by
  obtain ⟨type, named, version⟩ := labels_of_agreed agreed
  rw [registeredFact, type, named, version]

theorem paid_of_coordinates {sha : String} {debt debt' : AdoptionCodeDebt}
    (same : coordinates debt = coordinates debt') : paid sha debt = paid sha debt' := by
  simp only [coordinates, Prod.mk.injEq] at same
  rw [paid, paid, same.1, same.2.1, same.2.2]

theorem mergedFact_of_coordinates {proof : CampaignAdoptionProof} {sha : String}
    {debt debt' : AdoptionCodeDebt} (same : coordinates debt = coordinates debt') :
    mergedFact id proof debt sha = mergedFact id proof debt' sha := by
  simp only [coordinates, Prod.mk.injEq] at same
  rw [mergedFact, mergedFact, same.1, same.2.1]

/-- A code document read earlier makes the row the current one would. -/
theorem apply_read {read row : AdoptionOperation} {mark : Mark} (older : Older read row) :
    mark.apply read row = mark.apply row row := by
  cases mark with
  | registered | completed => rfl
  | merged sha =>
      have owes := older.owes
      have code : read.code.map (paid sha) = row.code.map (paid sha) := by
        cases mine : read.code with
        | none =>
            rw [mine, Option.map_none, Option.map_eq_none_iff] at owes
            rw [owes]
        | some debt =>
            rw [mine, Option.map_some] at owes
            obtain ⟨debt', current, same⟩ := Option.map_eq_some_iff.mp owes
            rw [current, Option.map_some, Option.map_some, paid_of_coordinates same]
      simp only [Mark.apply, code]

theorem guards_of_answers {mark : Mark} (goesOn : mark.answers .inMemory op = none) :
    mark.guards op = true := by
  cases mark with
  | registered version => simpa [Mark.answers, Mark.guards] using goesOn
  | merged sha =>
      cases code : op.code with
      | none => simp [Mark.answers, code] at goesOn
      | some debt =>
          simp only [Mark.answers, code] at goesOn
          cases merged : debt.merged <;> cases state : op.state <;> simp_all [Mark.guards]
  | completed => cases state : op.state <;> simp_all [Mark.answers, Mark.guards]

/-- A mark whose row allows it tells the fact of the row. -/
theorem Bears.spends {row : AdoptionOperation} (books : Books s) (bears : Bears s log i marking)
    (found : s.adoptions.get marking.campaignId = some row)
    (allows : marking.mark.guards row = true) :
    ∃ fact, marking.events = [fact] ∧ Spends row marking.mark fact := by
  have rowTold := books.told marking.campaignId
  rw [found] at rowTold
  have rowTells := rowTold.tells row rfl
  cases bears with
  | @registered op landed inHand agreed _ mark events =>
      obtain ⟨row', found', older⟩ := inHand.row
      obtain rfl := Option.some.inj (found.symm.trans found')
      rw [mark] at allows ⊢
      rw [events, registeredFact_eq agreed, ← older.proof, ← rowTells.campaign,
        (labels_of_agreed agreed).2.2, ← older.proof]
      exact ⟨_, rfl, .registered _ (by simpa [Mark.guards] using allows)⟩
  | @merged op debt sha already inHand owes _ mark events =>
      obtain ⟨row', found', older⟩ := inHand.row
      obtain rfl := Option.some.inj (found.symm.trans found')
      rw [mark] at allows ⊢
      simp only [Mark.guards, decide_eq_true_eq, Option.any_eq_true] at allows
      obtain ⟨state, debt', owes', unpaid⟩ := allows
      have same := older.owes
      rw [owes, owes', Option.map_some, Option.map_some, Option.some.injEq] at same
      rw [events, ← older.proof, ← rowTells.campaign, ← mergedFact_of_coordinates same]
      refine ⟨_, rfl, .merged sha ?_ owes' (by simpa using unpaid)⟩
      intro isDecided
      rw [isDecided] at state
      simp at state
  | @completed op inHand mark events =>
      obtain ⟨row', found', older⟩ := inHand.row
      obtain rfl := Option.some.inj (found.symm.trans found')
      obtain ⟨facts, told⟩ := inHand.told
      have opTells := told.tells op rfl
      rw [mark] at allows ⊢
      have isRegistered : row.state = .registered := by simpa [Mark.guards] using allows
      have same : completionFact op = completionFact row := by
        have version := rowTells.version
        have version' := opTells.version
        rw [if_neg (by simp [isRegistered])] at version
        rw [completionFact, completionFact, version, older.proof]
        split at version'
        · rw [version', Option.getD_none, Option.getD_some]
        · rw [version', Option.getD_some]
      exact ⟨_, events, same ▸ .completed isRegistered⟩

/-- The write of a mark: the row moved on and its fact told, or nothing. -/
theorem mark_writes {read : AdoptionOperation} (books : Books s) (bears : Bears s log i marking)
    (inHand : InHand s marking.campaignId read)
    (goesOn : marking.mark.answers deps.store read = none)
    (uncontested : deps.store = .postgres ∨
      forCampaign s marking.tenant marking.campaignId = some read)
    {written : CampaignStore × MarkOutcome} (eq : written = marking.write deps.store s read) :
    Writes s written.1 (if written.2 = .marked then marking.events else []) := by
  have lands : ∀ row, s.adoptions.get marking.campaignId = some row →
      marking.mark.guards row = true → Older read row →
      Writes s (marking.put s (marking.mark.apply read row)) marking.events := by
    intro row found allows older
    obtain ⟨fact, events, spends⟩ := bears.spends books found allows
    rw [events, apply_read older]
    exact .marked found spends rfl rfl (by rw [Marking.put, events])
  have refused : written = (s, .already) →
      Writes s written.1 (if written.2 = .marked then marking.events else []) := by
    rintro rfl
    exact .quiet rfl rfl fun _ => rfl
  obtain ⟨current, found, older⟩ := inHand.row
  cases store : deps.store with
  | inMemory =>
      rw [store] at eq goesOn uncontested
      have reads : forCampaign s marking.tenant marking.campaignId = some read := by
        simpa using uncontested
      subst eq
      exact lands read (get_of_forCampaign reads).1 (guards_of_answers goesOn) (.refl read)
  | postgres =>
      rw [store, Marking.write] at eq
      cases row : forCampaign s marking.tenant marking.campaignId with
      | none =>
          rw [row] at eq
          exact refused eq
      | some op =>
          obtain rfl := Option.some.inj (found.symm.trans (get_of_forCampaign row).1)
          rw [row] at eq
          simp only at eq
          split at eq
          · next allows =>
              subst eq
              exact lands current found allows older
          · exact refused eq

/-! ## What comes before an answer -/

theorem Justified.mono {before : List (Event × Report)} (justified : Justified s before x)
    (advances : Advances s t) : Justified t before x where
  registered := by
    intro id candidate scorecard issue created told
    obtain ⟨i, landed, step, answered, type, named, version, birth, op, found, agreed⟩ :=
      justified.registered id candidate scorecard issue created told
    obtain ⟨row, found', older⟩ := advances.rows id op found
    exact ⟨i, landed, step, answered, type, named, version, birth, row, found',
      older.proof ▸ agreed⟩
  merged := justified.merged
  asksRegistry := by
    intro tenant caller via proof spec asked
    obtain ⟨op, found, tenancy, same⟩ := justified.asksRegistry tenant caller via proof spec asked
    obtain ⟨row, found', older⟩ := advances.rows _ op found
    exact ⟨row, found', older.tenant.trans tenancy, older.proof.trans same⟩
  asksMerge := by
    intro tenant caller repo prNumber sha asked
    obtain ⟨id, op, found, tenancy, owes, registered⟩ :=
      justified.asksMerge tenant caller repo prNumber sha asked
    obtain ⟨row, found', older⟩ := advances.rows id op found
    exact ⟨id, row, found', older.tenant.trans tenancy, older.owes.trans owes, registered⟩

/-- A step that tells no mark and asks for nothing. -/
theorem justified_quiet (facts : ∀ f ∈ x.2.facts, kindOf f ≠ .registered ∧ kindOf f ≠ .merged)
    (effect : x.2.effect = none) : Justified s log x where
  registered := fun _ _ _ _ _ told => absurd rfl (facts _ told).1
  merged := fun _ _ _ _ _ _ told => absurd rfl (facts _ told).2
  asksRegistry := by
    intro tenant caller via proof spec asked
    rw [effect] at asked
    cases asked
  asksMerge := by
    intro tenant caller repo prNumber sha asked
    rw [effect] at asked
    cases asked

/-- A step that only asks, with the authority it has just read. -/
theorem justified_asks (books : Books s) (emitted : s.events = log.flatMap (·.2.facts))
    (facts : x.2.facts = []) (asks : Asks s x.2.effect) : Justified s log x where
  registered := by
    intro id candidate scorecard issue created told
    rw [facts] at told
    cases told
  merged := by
    intro id candidate repo prNumber sha issue told
    rw [facts] at told
    cases told
  asksRegistry := by
    intro tenant caller via proof spec asked
    rw [asked] at asks
    exact asks
  asksMerge := by
    intro tenant caller repo prNumber sha asked
    rw [asked] at asks
    obtain ⟨id, op, found, tenancy, owes, spent⟩ := asks
    have told := books.told id
    rw [found] at told
    obtain ⟨f, inside, kind⟩ := List.mem_map.mp ((told.tells op rfl).registered.mpr spent)
    obtain ⟨there, own⟩ := List.mem_filter.mp inside
    exact ⟨id, op, found, tenancy, owes, f, emitted ▸ there, by simpa using own, kind⟩

variable {report : Report}

theorem Bears.justified (bears : Bears s log i marking)
    (facts : ∀ f ∈ report.facts, f ∈ marking.events) (effect : report.effect = none) :
    Justified s log (.goes i .store, report) := by
  cases bears with
  | @registered op landed inHand agreed answered mark events =>
      refine ⟨?_, ?_, ?_, ?_⟩
      · intro id candidate scorecard issue created told
        have same := facts _ told
        rw [events, List.mem_singleton, registeredFact_eq agreed] at same
        cases same
        obtain ⟨row, found, older⟩ := inHand.row
        obtain ⟨type, named, version⟩ := labels_of_agreed agreed
        exact ⟨i, landed, rfl, answered, type, named, version, rfl, row, found,
          older.proof ▸ agreed⟩
      · intro id candidate repo prNumber sha issue told
        have same := facts _ told
        rw [events, List.mem_singleton] at same
        cases same
      · intro tenant caller via proof spec asked
        rw [effect] at asked
        cases asked
      · intro tenant caller repo prNumber sha asked
        rw [effect] at asked
        cases asked
  | @merged op debt sha already inHand owes answered mark events =>
      refine ⟨?_, ?_, ?_, ?_⟩
      · intro id candidate scorecard issue created told
        have same := facts _ told
        rw [events, List.mem_singleton] at same
        cases same
      · intro id candidate repo prNumber sha' issue told
        have same := facts _ told
        rw [events, List.mem_singleton] at same
        cases same
        exact ⟨i, already, rfl, answered⟩
      · intro tenant caller via proof spec asked
        rw [effect] at asked
        cases asked
      · intro tenant caller repo prNumber sha asked
        rw [effect] at asked
        cases asked
  | completed inHand mark events =>
      refine justified_quiet ?_ effect
      intro f told
      have same := facts f told
      rw [events, List.mem_singleton] at same
      rw [same]
      exact ⟨by simp [kindOf, completionFact], by simp [kindOf, completionFact]⟩

/-! ## Steps -/

/-- A step: what it writes, what the call then has in hand, and what came before. -/
structure Stepped (deps : Deps) (s t : CampaignStore) (log : List (Event × Report)) (i : Nat)
    (call : Call) (next : Phase) (x : Event × Report) : Prop where
  writes : Writes s t x.2.facts
  holds : Holds deps t (log ++ [x]) i call next
  justified : Justified t log x

/-- A step that leaves the store alone. -/
theorem stepped_quiet {next : Phase} (facts : x.2.facts = [])
    (holds : Holds deps s (log ++ [x]) i call next) (justified : Justified s log x) :
    Stepped deps s s log i call next x where
  writes := by
    rw [facts]
    exact .quiet rfl rfl fun _ => rfl
  holds := holds
  justified := justified

theorem store_step {phase next : Phase} (books : Books s)
    (emitted : s.events = log.flatMap (·.2.facts)) (holds : Holds deps s log i call phase)
    (uncontested : ∀ marking read next, phase = .markWrite marking read next →
      deps.store = .postgres ∨ forCampaign s marking.tenant marking.campaignId = some read)
    (eq : deps.advance s call phase .store = some (t, next, report)) :
    Stepped deps s t log i call next (.goes i .store, report) := by
  have reads : (deps.read s call phase).map (fun moved =>
      (s, moved.1, ({ effect := moved.2 } : Report))) = some (t, next, report) →
      Stepped deps s t log i call next (.goes i .store, report) := by
    intro read
    obtain ⟨⟨after, effect⟩, readEq, same⟩ := Option.map_eq_some_iff.mp read
    cases same
    obtain ⟨afterHolds, asks⟩ := read_spec books holds readEq
    exact stepped_quiet rfl (afterHolds.mono (.refl s)) (justified_asks books emitted rfl asks)
  cases phase with
  | close record settlement =>
      obtain ⟨own, spend, closedBy, settled⟩ := holds
      cases eq
      have writes := close_writes books own (settles_of_settle settled) rfl
      refine ⟨writes, trivial, justified_quiet ?_ rfl⟩
      intro f told
      split at told
      · rw [List.mem_singleton.mp told]
        exact ⟨by simp [closedFact, kindOf], by simp [closedFact, kindOf]⟩
      · cases told
  | markWrite marking read then_ =>
      obtain ⟨bears, thenHolds, inHand, goesOn⟩ := holds
      cases eq
      have writes := mark_writes books bears inHand goesOn (uncontested marking read then_ rfl) rfl
      have advances := writes.advances books
      refine ⟨writes, (afterMark_holds _ thenHolds).mono advances, ?_⟩
      refine (bears.justified ?_ rfl).mono advances
      intro f told
      split at told
      · exact told
      · cases told
  | get | spend | forCampaign | register | merge | forIssue | due | issue | sweepIssue
  | markRead | spentRead | paidRead | joinedRead | defer | done => exact reads eq

/-- An answer from outside changes no row; the call goes on with what the log now holds. -/
theorem answer_step {phase next : Phase} {answer : Answer} (books : Books s)
    (holds : Holds deps s log i call phase) (outside : answer ≠ .store)
    (eq : deps.advance s call phase answer = some (t, next, report)) :
    Stepped deps s t log i call next (.goes i answer, report) := by
  have now : ∀ x : Event × Report, x.1 ∈ (log ++ [x]).map Prod.fst := by
    intro x
    simp
  have quiet : ∀ next', (∀ x : Event × Report, x.1 = .goes i answer →
      Holds deps s (log ++ [x]) i call next') → (t, next, report) = (s, next', ({} : Report)) →
      Stepped deps s t log i call next (.goes i answer, report) := by
    intro next' after same
    cases same
    exact stepped_quiet rfl (after _ rfl) (justified_quiet (by simp) rfl)
  cases answer with
  | store => exact absurd rfl outside
  | spent spend =>
      cases phase with
      | spend record closedBy =>
          simp only [Deps.advance] at eq
          split at eq
          · refine quiet _ ?_ (Option.some.inj eq).symm
            exact fun _ _ => trivial
          · next settlement settled =>
              refine quiet _ ?_ (Option.some.inj eq).symm
              exact fun _ _ => ⟨holds, spend, closedBy, settled⟩
      | _ => cases eq
  | registry landed =>
      cases phase with
      | register input recorded =>
          refine quiet _ (fun x same => ?_) (Option.some.inj eq).symm
          exact afterRegister_holds holds (same ▸ now x)
      | _ => cases eq
  | merged sha already =>
      cases phase with
      | merge input recorded debt =>
          refine quiet _ (fun x same => ?_) (Option.some.inj eq).symm
          obtain ⟨inHand, owes⟩ := holds
          exact ⟨.merged inHand owes (same ▸ now x) rfl rfl, trivial⟩
      | _ => cases eq
  | issue answer =>
      cases phase with
      | issue operation joined =>
          exact quiet _ (fun _ _ => afterIssue_holds answer holds) (Option.some.inj eq).symm
      | sweepIssue operation rest sweep =>
          exact quiet _ (fun _ _ => afterSweepIssue_holds answer holds) (Option.some.inj eq).symm
      | _ => cases eq
  | due ids =>
      cases phase with
      | due =>
          refine quiet _ (fun _ _ => sweepNext_holds ?_) (Option.some.inj eq).symm
          intro op inside
          obtain ⟨id, -, found⟩ := List.mem_filterMap.mp (List.mem_filter.mp inside).1
          exact books.own_of_get found
      | _ => cases eq

/-- A round leaves what a close decides alone. -/
theorem appendRound_writes (tenant id : String) (round : CampaignRound) (expectedRounds : Nat) :
    Writes s (appendRound s tenant id round expectedRounds []).1 [] := by
  unfold appendRound
  rcases found : s.get tenant id with _ | record
  · exact .quiet rfl rfl fun _ => rfl
  simp only
  split
  · exact .quiet rfl rfl fun _ => rfl
  split
  · exact .quiet rfl rfl fun _ => rfl
  split
  · exact .quiet rfl rfl fun _ => rfl
  refine .quiet rfl (List.append_nil _) ?_
  intro other
  have there := (Option.filter_eq_some_iff.mp found).1
  rw [Table.get_set]
  split
  · next same => rw [same, there]; rfl
  · rfl

/-- The events that belong to no call write a campaign, or no row of an adoption. -/
theorem besides_writes {x : State} {e : Event} {report : Report}
    (sound : Uncontested deps x e) (eq : deps.besides s e = some (t, report)) :
    Writes s t report.facts ∧ Justified t log (e, report) := by
  cases e with
  | create record =>
      simp only [Deps.besides] at eq
      split at eq
      · cases eq
        exact ⟨.quiet rfl rfl fun _ => rfl, justified_quiet (by simp) rfl⟩
      · next created =>
          cases eq
          unfold create at created
          split at created
          · cases created
          · next absent =>
              split at created
              · cases created
              · cases created
                exact ⟨.created (by simpa using absent) sound rfl rfl rfl,
                  justified_quiet (by simp [kindOf]) rfl⟩
  | reserveEvaluation input =>
      simp only [Deps.besides] at eq
      split at eq
      · cases eq
        exact ⟨.quiet rfl rfl fun _ => rfl, justified_quiet (by simp) rfl⟩
      · next reserved =>
          cases eq
          obtain ⟨_, _, _, _, _, rfl, _⟩ := reserve_cases reserved
          exact ⟨.quiet rfl rfl fun _ => rfl, justified_quiet (by simp) rfl⟩
  | appendRound tenant id round expectedRounds =>
      cases eq
      exact ⟨appendRound_writes tenant id round expectedRounds, justified_quiet (by simp) rfl⟩
  | call | goes => cases eq

/-! ## Runs -/

/-- What a run preserves. -/
structure Inv (deps : Deps) (log : List (Event × Report)) (s : State) : Prop where
  books : Books s.store
  emitted : s.store.events = log.flatMap (·.2.facts)
  justified : ∀ before x after, log = before ++ x :: after → Justified s.store before x
  calls : ∀ i call phase, s.calls[i]? = some (call, phase) →
    Holds deps s.store log i call phase

theorem inv_start : Inv deps [] start where
  books := by
    refine ⟨fun id => .unborn, ?_, fun id _ => rfl, ?_⟩
    · intro id op found
      cases found
    · intro id record found
      cases found
  emitted := rfl
  justified := by
    intro before x after split
    simp at split
  calls := by
    intro i call phase found
    simp [start] at found

/-- The log grows by an answer that comes after its own causes. -/
theorem justified_concat (advances : Advances s t)
    (earlier : ∀ before y after, log = before ++ y :: after → Justified s before y)
    (last : Justified t log x) (before : List (Event × Report)) (y : Event × Report)
    (after : List (Event × Report)) (split : log ++ [x] = before ++ y :: after) :
    Justified t before y := by
  rcases List.eq_nil_or_concat after with rfl | ⟨rest, z, rfl⟩
  · obtain ⟨rfl, same⟩ := List.append_inj' split rfl
    obtain rfl := List.singleton_inj.mp same
    exact last
  · rw [List.concat_eq_append, ← List.cons_append, ← List.append_assoc] at split
    obtain ⟨same, -⟩ := List.append_inj' split rfl
    exact (earlier before y rest same).mono advances

/-- A step of the machine: what it writes, what came before it, and what every call then has in
hand. -/
structure Grows (deps : Deps) (log : List (Event × Report)) (s t : State) (x : Event × Report) :
    Prop where
  writes : Writes s.store t.store x.2.facts
  justified : Justified t.store log x
  calls : ∀ i call phase, t.calls[i]? = some (call, phase) →
    Holds deps t.store (log ++ [x]) i call phase

theorem Grows.inv {s t : State} (grows : Grows deps log s t x) (inv : Inv deps log s) :
    Inv deps (log ++ [x]) t where
  books := grows.writes.books inv.books
  emitted := by
    rw [grows.writes.events_eq, inv.emitted, List.flatMap_append, List.flatMap_singleton]
  justified := justified_concat (grows.writes.advances inv.books) inv.justified grows.justified
  calls := grows.calls

/-- The calls that a step leaves alone keep what they have in hand. -/
theorem calls_kept {s t : State} {x : Event × Report} (inv : Inv deps log s)
    (writes : Writes s.store t.store x.2.facts) {i : Nat} {call : Call} {phase : Phase}
    (found : s.calls[i]? = some (call, phase)) :
    Holds deps t.store (log ++ [x]) i call phase :=
  (inv.calls i call phase found).mono (writes.advances inv.books)

theorem goes_stepped {s : State} {phase next : Phase} {answer : Answer} (inv : Inv deps log s)
    (ok : Uncontested deps s (.goes i answer)) (found : s.calls[i]? = some (call, phase))
    (eq : deps.advance s.store call phase answer = some (t, next, report)) :
    Stepped deps s.store t log i call next (.goes i answer, report) := by
  have holds := inv.calls i call phase found
  by_cases store : answer = .store
  · subst store
    refine store_step inv.books inv.emitted holds ?_ eq
    rintro marking read then_ rfl
    simpa only [Uncontested, found] using ok
  · exact answer_step inv.books holds store eq

theorem step_grows {s t : State} {e : Event} (inv : Inv deps log s) (ok : Uncontested deps s e)
    (eq : machine deps s e = some (t, report)) :
    Grows deps log s t (e, report) := by
  have besides : (deps.besides s.store e).map (fun done => (({ s with store := done.1 } : State),
      done.2)) = some (t, report) → Grows deps log s t (e, report) := by
    intro done
    obtain ⟨⟨store, report'⟩, written, same⟩ := Option.map_eq_some_iff.mp done
    cases same
    obtain ⟨writes, last⟩ := @besides_writes deps s.store store log s e report' ok written
    exact ⟨writes, last, fun i call phase found => calls_kept inv writes found⟩
  cases e with
  | create record => exact besides eq
  | reserveEvaluation input => exact besides eq
  | appendRound tenant id round expectedRounds => exact besides eq
  | call call =>
      cases eq
      have writes : Writes s.store s.store [] := .quiet rfl rfl fun _ => rfl
      refine ⟨writes, justified_quiet (by simp) rfl, ?_⟩
      intro i call' phase found
      rcases lt_or_ge i s.calls.length with old | new
      · rw [List.getElem?_append_left old] at found
        exact @calls_kept deps log s s (.call call, {}) inv writes i call' phase found
      · rw [List.getElem?_append_right new] at found
        obtain ⟨within, same⟩ := List.getElem?_eq_some_iff.mp found
        rw [List.getElem_singleton] at same
        obtain ⟨rfl, rfl⟩ := Prod.mk.inj same
        cases call with
        | handle tenant issueId status scorecardId =>
            simp only [Call.begins]
            split <;> trivial
        | settle | adopt | merge | sweep => trivial
  | goes i answer =>
      simp only [machine] at eq
      split at eq
      · cases eq
      · next call phase found =>
          split at eq
          · cases eq
          · next store next report' moved =>
              obtain ⟨rfl, rfl⟩ := Prod.mk.inj (Option.some.inj eq)
              have stepped := goes_stepped inv ok found moved
              refine ⟨stepped.writes, stepped.justified, ?_⟩
              intro j call' phase' there
              rcases eq_or_ne i j with rfl | ne
              · rw [List.getElem?_set_self (List.getElem?_eq_some_iff.mp found).1] at there
                obtain ⟨rfl, rfl⟩ := Prod.mk.inj (Option.some.inj there)
                exact stepped.holds
              · rw [List.getElem?_set_ne ne] at there
                exact (inv.calls j call' phase' there).mono (stepped.writes.advances inv.books)

theorem run_inv {s : State} (run : Runs (machine deps) (Uncontested deps) start log s) :
    Inv deps log s :=
  run.invariant inv_start fun _ _ _ _ _ inv ok eq => (step_grows inv ok eq).inv inv

end Everdict.Adoption
