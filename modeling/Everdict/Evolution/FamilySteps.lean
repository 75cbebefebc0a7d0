import Everdict.Transition
import Everdict.Evolution.CampaignStore

/-!
# What the campaign store's operations write

The store as a machine over the campaigns of one tenant, and, for each operation, what an
accepted call wrote and what it had checked.
-/

namespace Everdict.Evolution

open Transition

inductive StoreEvent where
  | create (record : EvolutionCampaignRecord) (events : List CampaignFact)
  | reserveEvaluation (input : ReserveCampaignEvaluation)
  | appendRound (id : String) (round : CampaignRound) (expectedRounds : Nat)
      (events : List CampaignFact)
  | close (id : String) (state : ClosedState) (close : CampaignClose) (expectedRounds : Nat)
      (events : List CampaignFact) (adoption : Option AdoptionOperation)

inductive StoreAnswer where
  | created (refused : Option CreateRefusal)
  | reserved (answer : Except FamilyRefusal Reservation)
  | appended (outcome : CampaignAppendOutcome)
  | closed (outcome : CampaignCloseOutcome)

section steps

variable (contentDigest : NonInferiorityPolicy → String) (requestDigestOf : List String → String)
  (tenant : String)

def storeStep : Machine CampaignStore StoreEvent StoreAnswer
  | s, .create record events =>
      match create s record events with
      | .error refusal => some (s, .created (some refusal))
      | .ok t => some (t, .created none)
  | s, .reserveEvaluation input =>
      match reserveEvaluation contentDigest requestDigestOf s input with
      | .error refusal => some (s, .reserved (.error refusal))
      | .ok (t, reservation) => some (t, .reserved (.ok reservation))
  | s, .appendRound id round expectedRounds events =>
      let (t, outcome) := appendRound s tenant id round expectedRounds events
      some (t, .appended outcome)
  | s, .close id state closed expectedRounds events adoption =>
      let (t, outcome) := close s tenant id state closed expectedRounds events adoption
      some (t, .closed outcome)

end steps

/-! ## Creating -/

variable {contentDigest : NonInferiorityPolicy → String} {requestDigestOf : List String → String}
  {tenant id : String} {s t : CampaignStore} {record : EvolutionCampaignRecord}
  {round : CampaignRound}

theorem create_cases {events : List CampaignFact} (created : create s record events = .ok t) :
    s.byId.get record.id = none ∧ t.byId = s.byId.set record.id record
      ∧ t.families = s.families ∧ t.evaluations = s.evaluations
      ∧ assertFamilyCapacity record (s.recordsOf record.tenant) (s.evaluationsOf record.tenant) =
        .ok () := by
  unfold create at created
  split at created
  · cases created
  · next absent =>
      split at created
      · cases created
      · next capacity =>
          cases created
          exact ⟨by simpa using absent, rfl, rfl, rfl, capacity⟩

/-- A continuation fits what its family has not reserved. -/
theorem capacity_cases {records : List EvolutionCampaignRecord}
    {attempts : List CampaignEvaluation} {predecessor : String}
    (continues : record.frame.continues = some predecessor)
    (fits : assertFamilyCapacity record records attempts = .ok ()) :
    ∃ rootId root limit, Forest.rootOf (lineage records) predecessor = .ok rootId
      ∧ findRecord records rootId = some root
      ∧ experimentFamilyLimit root.frame = .declared limit
      ∧ ((familyOf records rootId).map (charge attempts)).sum + record.frame.budget.maxRounds
        ≤ limit := by
  simp only [assertFamilyCapacity, continues] at fits
  rcases walked : Forest.rootOf (lineage records) predecessor with _ | rootId
  · simp [walked] at fits
  rcases found : findRecord records rootId with _ | root
  · simp [walked, found] at fits
  rcases declared : experimentFamilyLimit root.frame with limit | _
  · simp only [walked, found, Option.map_some, declared] at fits
    split at fits
    · cases fits
    · next room =>
        refine ⟨rootId, root, limit, rfl, found, declared, ?_⟩
        omega
  · simp [walked, found, declared] at fits

/-! ## Reserving -/

/-- What an accepted reservation is: the replay of an arm, the second arm of an
evaluation, or a fresh evaluation inside the family's and the campaign's budget. -/
inductive Reserves (s : CampaignStore) (input : ReserveCampaignEvaluation)
    (campaign : EvolutionCampaignRecord) (current : ExperimentFamily) (id : String) :
    Reservation → Prop
  | replay {old : CampaignEvaluation} {scorecardId : String}
      (found : old ∈ s.evaluationsOf input.tenant) (named : old.id = id) :
      Reserves s input campaign current id
        { family := current, evaluation := old, kind := .replay, scorecardId := scorecardId }
  | secondArm {old : CampaignEvaluation} {binding : ArmBinding}
      (found : old ∈ s.evaluationsOf input.tenant) (named : old.id = id)
      (unreported : old.reportedRound = none)
      (unbound : ∀ a ∈ s.evaluationsOf input.tenant, a.names binding.scorecardId = false) :
      Reserves s input campaign current id
        { family := current, evaluation := old.bindArm input.side binding, kind := .reserved
          scorecardId := binding.scorecardId }
  | fresh {familyId : String} {binding : ArmBinding}
      (absent : ∀ a ∈ s.evaluationsOf input.tenant, a.id ≠ id)
      (isOpen : campaign.state = .opened)
      (inFamily : current.consumed < current.limit)
      (inBudget : (ownSpend campaign (s.evaluationsOf input.tenant)).consumed
        < campaign.frame.budget.maxRounds)
      (unbound : ∀ a ∈ s.evaluationsOf input.tenant, a.names binding.scorecardId = false) :
      Reserves s input campaign current id
        { family := { current with consumed := current.consumed + 1 }
          evaluation := ({
            id := id, tenant := input.tenant, familyId := familyId, campaignId := campaign.id
            requestId := input.requestId
            candidateVersion := input.candidateVersion } : CampaignEvaluation).bindArm
              input.side binding
          kind := .reserved, scorecardId := binding.scorecardId }

theorem reserveArm_cases {input : ReserveCampaignEvaluation} {campaign : EvolutionCampaignRecord}
    {found : FamilyMembers} {current : ExperimentFamily} {old : Option CampaignEvaluation}
    {result : Reservation}
    (looked : (s.evaluationsOf input.tenant).find?
      (fun a => a.id = evaluationIdOf requestDigestOf input) = old)
    (reserved : reserveArm contentDigest requestDigestOf input campaign found current
      (s.evaluationsOf input.tenant) old = .ok result) :
    Reserves s input campaign current (evaluationIdOf requestDigestOf input) result := by
  simp only [reserveArm] at reserved
  split at reserved
  · cases reserved
  next unbound =>
  simp only [List.any_eq_true, not_exists, not_and, Bool.not_eq_true] at unbound
  split at reserved
  · cases reserved
  next unsettled =>
  simp only [not_or, not_not] at unsettled
  split at reserved
  · cases reserved
  split at reserved
  · cases reserved
  split at reserved
  · cases reserved
  next room =>
  cases reserved
  rcases old with _ | old
  · simp only [Option.isNone_none, true_and, not_or, not_le] at room
    refine .fresh ?_ unsettled.1 room.1 room.2 unbound
    simpa using List.find?_eq_none.mp looked
  · refine .secondArm (List.mem_of_find?_eq_some looked) ?_ ?_ unbound
    · simpa using List.find?_some looked
    · simpa using unsettled.2

/-- An accepted reservation writes the family's row and the evaluation's. -/
theorem reserve_cases {input : ReserveCampaignEvaluation} {result : Reservation}
    (reserved : reserveEvaluation contentDigest requestDigestOf s input = .ok (t, result)) :
    ∃ found campaign, familyMembers input.campaignId (s.recordsOf input.tenant) = .ok found
      ∧ campaign ∈ s.recordsOf input.tenant ∧ campaign.id = input.campaignId
      ∧ t = { s with
          families := s.families.set (familyKey input.tenant found.root.id) result.family
          evaluations := s.evaluations.set result.evaluation.id result.evaluation }
      ∧ Reserves s input campaign
          (currentFamily input (s.families.get (familyKey input.tenant found.root.id)) found)
          (evaluationIdOf requestDigestOf input) result := by
  simp only [reserveEvaluation] at reserved
  split at reserved
  · cases reserved
  next found members =>
  split at reserved
  · cases reserved
  next inFamily =>
  cases reserved
  simp only [reserveInFamily] at inFamily
  split at inFamily
  · cases inFamily
  next campaign isCampaign =>
  have named := List.find?_some isCampaign
  simp only [decide_eq_true_eq] at named
  rw [named.1, members] at inFamily
  refine ⟨found, campaign, members, List.mem_of_find?_eq_some isCampaign, named.1, rfl, ?_⟩
  simp only at inFamily
  split at inFamily
  · cases inFamily
  split at inFamily
  · next old binding looked _ =>
      simp only [replayed] at inFamily
      split at inFamily
      · cases inFamily
      · cases inFamily
        exact .replay (List.mem_of_find?_eq_some looked) (by simpa using List.find?_some looked)
  · exact reserveArm_cases rfl inFamily

/-! ## Appending and closing -/

/-- An appended round: to an open campaign below its budget, and either without a
reservation or over an evaluation of the campaign that no round reports yet. -/
theorem appendRound_cases (s : CampaignStore) (tenant id : String) (round : CampaignRound)
    (expectedRounds : Nat) (events : List CampaignFact) :
    (appendRound s tenant id round expectedRounds events).1 = s
      ∨ ∃ record, s.byId.get id = some record ∧ record.tenant = tenant
        ∧ record.state = .opened ∧ record.rounds.length < record.frame.budget.maxRounds
        ∧ (appendRound s tenant id round expectedRounds events).1.byId =
          s.byId.set id { record with rounds := record.rounds ++ [round] }
        ∧ (appendRound s tenant id round expectedRounds events).1.families = s.families
        ∧ (unclaimed round = true
            ∧ (appendRound s tenant id round expectedRounds events).1.evaluations = s.evaluations
          ∨ unclaimed round = false ∧ ∃ evaluationId evaluation,
              round.verdict.evaluationId = some evaluationId
                ∧ s.evaluations.get evaluationId = some evaluation
                ∧ evaluation.campaignId = id ∧ evaluation.reportedRound = none
                ∧ (appendRound s tenant id round expectedRounds events).1.evaluations =
                  s.evaluations.set evaluation.id
                    { evaluation with reportedRound := some round.seq }) := by
  unfold appendRound
  rcases found : s.get tenant id with _ | record
  · exact Or.inl rfl
  simp only
  split
  · exact Or.inl rfl
  next isOpen =>
  split
  · exact Or.inl rfl
  next room =>
  split
  · exact Or.inl rfl
  next owned =>
  right
  obtain ⟨there, own⟩ := Option.filter_eq_some_iff.mp found
  simp only [not_or, not_not, not_le, decide_eq_true_eq] at isOpen room own
  refine ⟨record, there, own, isOpen, room.2, rfl, rfl, ?_⟩
  rcases claims : unclaimed round with _ | _
  · right
    refine ⟨rfl, ?_⟩
    simp only [claims, reportedBy, Bool.not_false, Bool.true_and, Bool.false_eq_true, if_false,
      Bool.not_eq_true, Bool.not_eq_false'] at owned ⊢
    rcases names : round.verdict.evaluationId with _ | evaluationId
    · simp [unclaimed, names] at claims
    rcases evaluated : s.evaluations.get evaluationId with _ | evaluation
    · simp [names, evaluated, ownsEvaluation] at owned
    · simp only [names, evaluated, Option.bind_some, ownsEvaluation, Option.any_some,
        Bool.and_eq_true, decide_eq_true_eq, Option.isNone_iff_eq_none] at owned
      exact ⟨evaluationId, evaluation, rfl, evaluated, owned.1.1.1.2, owned.1.1.2,
        by simp [evaluated]⟩
  · left
    exact ⟨rfl, by simp [reportedBy, claims]⟩

theorem close_cases (s : CampaignStore) (tenant id : String) (state : ClosedState)
    (closed : CampaignClose) (expectedRounds : Nat) (events : List CampaignFact)
    (adoption : Option AdoptionOperation) :
    (close s tenant id state closed expectedRounds events adoption).1 = s
      ∨ ∃ record, s.byId.get id = some record ∧ record.tenant = tenant
        ∧ record.state = .opened
        ∧ (close s tenant id state closed expectedRounds events adoption).1.byId =
          s.byId.set id { record with state := .closed state, close := some closed }
        ∧ (close s tenant id state closed expectedRounds events adoption).1.families = s.families
        ∧ (close s tenant id state closed expectedRounds events adoption).1.evaluations =
          s.evaluations := by
  unfold close
  rcases found : s.get tenant id with _ | record
  · exact Or.inl rfl
  simp only
  split
  · exact Or.inl rfl
  next isOpen =>
  split
  · exact Or.inl rfl
  right
  obtain ⟨there, own⟩ := Option.filter_eq_some_iff.mp found
  exact ⟨record, there, by simpa using own, by simpa using isOpen, rfl, rfl, rfl⟩

end Everdict.Evolution
