import Mathlib.Data.List.Find
import Everdict.Evolution.CampaignEndings
import Everdict.Evolution.FamilyBudget

/-!
# A held-out family over whole runs

Over every run of the store, a family spends no more than its root pre-registered, no
scorecard is bound twice and no evaluation reported twice, and an open campaign below its
own budget can reserve, whatever the rest of its family did.
-/

namespace Everdict.Evolution

open Transition Machine

variable {contentDigest : NonInferiorityPolicy → String} {requestDigestOf : List String → String}
  {tenant id : String} {s t : CampaignStore} {record r root : EvolutionCampaignRecord}
  {round : CampaignRound}

/-! ## Bindings and reports -/

/-- A scorecard is bound to one evaluation, and a round reports an evaluation no other
round does. -/
structure Bindings (s : CampaignStore) : Prop where
  once : ∀ x y a b, s.evaluations.get x = some a → s.evaluations.get y = some b →
    ∀ scorecardId, a.names scorecardId = true → b.names scorecardId = true → x = y
  reported : ∀ x r, s.byId.get x = some r → ∀ round ∈ r.rounds, ∀ e,
    round.verdict.evaluationId = some e →
      ∃ a, s.evaluations.get e = some a ∧ a.reportedRound.isSome
  reportedOnce : ∀ e, reports s e ≤ 1

theorem Bindings.empty : Bindings CampaignStore.empty where
  once := by simp [CampaignStore.empty]
  reported := by simp [CampaignStore.empty]
  reportedOnce := by
    intro e
    exact Nat.zero_le 1

theorem names_bindArm {a : CampaignEvaluation} {side : ArmSide} {binding : ArmBinding}
    {scorecardId : String} (names : (a.bindArm side binding).names scorecardId = true) :
    a.names scorecardId = true ∨ scorecardId = binding.scorecardId := by
  cases side <;>
    simp only [CampaignEvaluation.bindArm, CampaignEvaluation.names, Bool.or_eq_true,
      Option.any_some, decide_eq_true_eq] at names ⊢ <;>
    rcases names with named | named <;> simp [named]

/-- A rewritten campaign changes the reports by those of its new rounds. -/
theorem reports_set {old new : EvolutionCampaignRecord} (found : s.byId.get id = some old)
    (byId : t.byId = s.byId.set id new) (e : String) :
    reports t e + old.rounds.countP (fun round => round.verdict.evaluationId = some e) =
      reports s e + new.rounds.countP fun round => round.verdict.evaluationId = some e := by
  have change := Table.sum_set
    (fun r : EvolutionCampaignRecord =>
      r.rounds.countP fun round => round.verdict.evaluationId = some e) s.byId id new
  rw [found] at change
  simpa [reports, byId] using change

/-- An evaluation that is not reported is named by no round. -/
theorem Bindings.reports_eq_zero (bindings : Bindings s) {e : String}
    (unreported : ∀ a, s.evaluations.get e = some a → a.reportedRound = none) :
    reports s e = 0 := by
  apply List.sum_eq_zero
  intro n mem
  obtain ⟨r, isRecord, rfl⟩ := List.mem_map.mp mem
  obtain ⟨x, found⟩ := Table.mem_values.mp isRecord
  apply List.countP_eq_zero.mpr
  intro round isRound names
  obtain ⟨a, there, isReported⟩ :=
    bindings.reported x r found round isRound e (by simpa using names)
  rw [unreported a there] at isReported
  cases isReported

/-- A written evaluation keeps the bindings apart if its scorecards were its own before
or nobody's. -/
theorem Bindings.once_set {x : String} {new : CampaignEvaluation} (bindings : Bindings s)
    (unbound : ∀ scorecardId, new.names scorecardId = true →
      (∃ old, s.evaluations.get x = some old ∧ old.names scorecardId = true)
        ∨ ∀ y b, s.evaluations.get y = some b → b.names scorecardId = false) :
    ∀ y z a b, (s.evaluations.set x new).get y = some a →
      (s.evaluations.set x new).get z = some b →
      ∀ scorecardId, a.names scorecardId = true → b.names scorecardId = true → y = z := by
  -- what the new row shares with a row that stays, the old row shared with it
  have stays : ∀ y b, y ≠ x → s.evaluations.get y = some b → ∀ scorecardId,
      new.names scorecardId = true → b.names scorecardId = true → y = x := by
    intro y b _ found scorecardId inNew inOther
    rcases unbound scorecardId inNew with ⟨old, there, inOld⟩ | nobody
    · exact bindings.once y x b old found there scorecardId inOther inOld
    · rw [nobody y b found] at inOther
      cases inOther
  intro y z a b atY atZ scorecardId inA inB
  rw [Table.get_set] at atY atZ
  split at atY
  · next isY =>
      cases atY
      split at atZ
      · next isZ => rw [isY, isZ]
      · next notZ =>
          rw [isY, stays z b notZ atZ scorecardId inA inB]
  · next notY =>
      split at atZ
      · next isZ =>
          cases atZ
          rw [isZ, stays y a notY atY scorecardId inB inA]
      · exact bindings.once y z a b atY atZ scorecardId inA inB

/-- A written evaluation stays reported if it was. -/
theorem isReported_set {x e : String} {new : CampaignEvaluation}
    (keeps : ∀ old, s.evaluations.get x = some old → old.reportedRound.isSome →
      new.reportedRound.isSome)
    (isReported : ∃ a, s.evaluations.get e = some a ∧ a.reportedRound.isSome) :
    ∃ a, (s.evaluations.set x new).get e = some a ∧ a.reportedRound.isSome := by
  obtain ⟨a, there, reported⟩ := isReported
  rw [Table.get_set]
  split
  · next same =>
      rw [same] at there
      exact ⟨new, rfl, keeps a there reported⟩
  · exact ⟨a, there, reported⟩

theorem Bindings.close {state : ClosedState} {closed : CampaignClose} {expectedRounds : Nat}
    {events : List CampaignFact} {adoption : Option AdoptionOperation} (bindings : Bindings s) :
    Bindings (close s tenant id state closed expectedRounds events adoption).1 := by
  rcases close_cases s tenant id state closed expectedRounds events adoption with same | wrote
  · rw [same]
    exact bindings
  obtain ⟨r, found, -, -, byId, -, evaluations⟩ := wrote
  generalize (Evolution.close s tenant id state closed expectedRounds events adoption).1 = t at *
  refine ⟨?_, ?_, ?_⟩
  · rw [evaluations]
    exact bindings.once
  · intro x other there
    rw [evaluations]
    rw [byId, Table.get_set] at there
    split at there
    · cases there
      exact bindings.reported id r found
    · exact bindings.reported x other there
  · intro e
    have change := reports_set found byId e
    have once := bindings.reportedOnce e
    simp only at change
    omega

theorem Bindings.create {events : List CampaignFact} (bindings : Bindings s)
    (new : Fresh tenant record) (created : create s record events = .ok t) : Bindings t := by
  obtain ⟨fresh, byId, -, evaluations, -⟩ := create_cases created
  refine ⟨?_, ?_, ?_⟩
  · rw [evaluations]
    exact bindings.once
  · intro x other there
    rw [evaluations]
    rw [byId, Table.get_set] at there
    split at there
    · cases there
      simp [new.noRounds]
    · exact bindings.reported x other there
  · intro e
    have once := bindings.reportedOnce e
    rw [reports, byId, Table.values_set_of_none fresh]
    simpa [new.noRounds, reports] using once

theorem Bindings.appendRound {expectedRounds : Nat} {events : List CampaignFact}
    (ledgered : Ledgered tenant s) (bindings : Bindings s)
    (named : round.verdict.evaluationId ≠ some "") :
    Bindings (appendRound s tenant id round expectedRounds events).1 := by
  rcases appendRound_cases s tenant id round expectedRounds events with same | wrote
  · rw [same]
    exact bindings
  obtain ⟨r, found, own, isOpen, -, byId, families, evaluations⟩ := wrote
  generalize (Evolution.appendRound s tenant id round expectedRounds events).1 = t at *
  have change := reports_set found byId
  simp only [List.countP_append, List.countP_singleton] at change
  rcases evaluations with ⟨unreserved, evaluations⟩ | ⟨-, reported⟩
  · have noClaim := (unclaimed_iff named).mp unreserved
    refine ⟨?_, ?_, ?_⟩
    · rw [evaluations]
      exact bindings.once
    · intro x other there
      rw [evaluations]
      rw [byId, Table.get_set] at there
      split at there
      · cases there
        intro appended mem e names
        rcases List.mem_append.mp mem with before | isRound
        · exact bindings.reported id r found appended before e names
        · rw [List.mem_singleton.mp isRound, noClaim] at names
          cases names
      · exact bindings.reported x other there
    · intro e
      have := change e
      have once := bindings.reportedOnce e
      simp [noClaim] at this
      omega
  · obtain ⟨evaluationId, evaluation, names, there, -, unreported, evaluations⟩ := reported
    have isKey := (ledgered.evaluated evaluationId evaluation there).1
    subst isKey
    refine ⟨?_, ?_, ?_⟩
    · rw [evaluations]
      apply bindings.once_set
      intro scorecardId named
      exact Or.inl ⟨evaluation, there, named⟩
    · have keeps : ∀ old, s.evaluations.get evaluation.id = some old →
          old.reportedRound.isSome → (some round.seq).isSome := fun _ _ _ => rfl
      intro x other found' appended mem e claims
      rw [evaluations]
      rw [byId, Table.get_set] at found'
      split at found'
      · cases found'
        rcases List.mem_append.mp mem with before | isRound
        · exact isReported_set keeps (bindings.reported id r found appended before e claims)
        · rw [List.mem_singleton.mp isRound, names, Option.some.injEq] at claims
          subst claims
          exact ⟨_, by rw [Table.get_set, if_pos rfl], rfl⟩
      · exact isReported_set keeps (bindings.reported x other found' appended mem e claims)
    · intro e
      have := change e
      by_cases isNew : evaluation.id = e
      · have zero := bindings.reports_eq_zero (e := e) (by
          intro a found
          rw [← isNew, there] at found
          cases found
          exact unreported)
        simp [names, isNew] at this
        omega
      · have once := bindings.reportedOnce e
        simp [names, isNew] at this
        omega

theorem Bindings.reserve {input : ReserveCampaignEvaluation} {result : Reservation}
    (ledgered : Ledgered tenant s) (bindings : Bindings s) (own : input.tenant = tenant)
    (reserved : reserveEvaluation contentDigest requestDigestOf s input = .ok (t, result)) :
    Bindings t := by
  subst own
  obtain ⟨family, campaign, -, -, -, rfl, reserves⟩ := reserve_cases reserved
  have evaluations := ledgered.toRooted.evaluationsOf_eq
  have inTable : ∀ a ∈ s.evaluationsOf input.tenant, s.evaluations.get a.id = some a := by
    intro a mem
    rw [evaluations] at mem
    obtain ⟨x, found⟩ := Table.mem_values.mp mem
    rwa [(ledgered.evaluated x a found).1]
  have nobody : ∀ scorecardId,
      (∀ a ∈ s.evaluationsOf input.tenant, a.names scorecardId = false) →
      ∀ y b, s.evaluations.get y = some b → b.names scorecardId = false := by
    intro scorecardId unbound y b found
    apply unbound
    rw [evaluations]
    exact Table.mem_values.mpr ⟨y, found⟩
  suffices kept : (∀ scorecardId, result.evaluation.names scorecardId = true →
      (∃ old, s.evaluations.get result.evaluation.id = some old
          ∧ old.names scorecardId = true)
        ∨ ∀ y b, s.evaluations.get y = some b → b.names scorecardId = false)
      ∧ ∀ old, s.evaluations.get result.evaluation.id = some old →
        old.reportedRound.isSome → result.evaluation.reportedRound.isSome by
    refine ⟨bindings.once_set kept.1, ?_, bindings.reportedOnce⟩
    intro x other found round mem e claims
    exact isReported_set kept.2 (bindings.reported x other found round mem e claims)
  generalize evaluationIdOf requestDigestOf input = evaluationId at reserves
  cases reserves with
  | @replay old _ found _ =>
      have there := inTable old found
      refine ⟨?_, ?_⟩
      · intro scorecardId named
        exact Or.inl ⟨old, there, named⟩
      · intro other isOther reported
        rw [there, Option.some.injEq] at isOther
        rwa [isOther]
  | @secondArm old binding found _ _ unbound =>
      have there := inTable old found
      simp only [bindArm_id]
      refine ⟨?_, ?_⟩
      · intro scorecardId named
        rcases names_bindArm named with before | rfl
        · exact Or.inl ⟨old, there, before⟩
        · exact Or.inr (nobody _ unbound)
      · intro other isOther reported
        rw [there, Option.some.injEq] at isOther
        rwa [bindArm_reportedRound, isOther]
  | @fresh familyId binding absent _ _ _ unbound =>
      simp only [bindArm_id]
      refine ⟨?_, ?_⟩
      · intro scorecardId named
        rcases names_bindArm named with before | rfl
        · cases before
        · exact Or.inr (nobody _ unbound)
      · intro other isOther _
        refine absurd (ledgered.evaluated _ other isOther).1 (absent other ?_)
        rw [evaluations]
        exact Table.mem_values.mpr ⟨_, isOther⟩

/-! ## What a family spent -/

/-- The evaluations a family's campaigns reserved. -/
def familyEvaluations (s : CampaignStore) (rootId : String) : Nat :=
  s.evaluations.values.countP fun a => inFamily s rootId a.campaignId

/-- Elements counted key by key, over keys that are all of theirs. -/
theorem countP_eq_sum_keys {α β : Type*} [DecidableEq β] (key : α → β) (p : β → Bool)
    {keys : List β} (distinct : keys.Nodup) (xs : List α) (covered : ∀ x ∈ xs, key x ∈ keys) :
    xs.countP (fun x => p (key x)) =
      (keys.map fun k => if p k then xs.countP (fun x => key x = k) else 0).sum := by
  have one : ∀ x, key x ∈ keys → (keys.map fun k =>
      if p k then (if key x = k then 1 else 0) else 0).sum = if p (key x) then 1 else 0 := by
    intro x mem
    rw [List.sum_map_eq_nsmul_single (key x), List.count_eq_one_of_mem distinct mem, one_nsmul]
    · simp
    · intro k other _
      simp [Ne.symm other]
  induction xs with
  | nil => simp
  | cons x xs ih =>
      have rest := ih fun y mem => covered y (List.mem_cons_of_mem x mem)
      have head := one x (covered x List.mem_cons_self)
      have split : (keys.map fun k =>
          if p k then (x :: xs).countP (fun x => key x = k) else 0) =
          keys.map fun k => (if p k then xs.countP (fun x => key x = k) else 0)
            + if p k then (if key x = k then 1 else 0) else 0 := by
        apply List.map_congr_left
        intro k _
        by_cases pk : p k <;> simp [pk, List.countP_cons]
      rw [split, List.sum_map_add, ← rest, head, List.countP_cons]

theorem Rooted.ids_nodup (rooted : Rooted tenant s) : (s.byId.values.map (·.id)).Nodup := by
  have keys : s.byId.values.map (·.id) = s.byId.entries.map Prod.fst := by
    rw [Table.values, List.map_map]
    apply List.map_congr_left
    intro e mem
    exact (rooted.named e.1 e.2 (Table.get_eq_some.mpr mem)).1
  rw [keys]
  exact s.byId.nodup

/-- The evaluations of a family are those of its members. -/
theorem Rooted.familyEvaluations_eq (rooted : Rooted tenant s) (rootId : String) :
    familyEvaluations s rootId = memberSum s rootId fun r => attempts s r.id := by
  have covered : ∀ a ∈ s.evaluations.values, a.campaignId ∈ s.byId.values.map (·.id) := by
    intro a mem
    obtain ⟨x, found⟩ := Table.mem_values.mp mem
    obtain ⟨-, -, r, there⟩ := rooted.evaluated x a found
    exact List.mem_map.mpr
      ⟨r, Table.mem_values.mpr ⟨_, there⟩, (rooted.named _ r there).1⟩
  rw [memberSum_eq, familyEvaluations,
    countP_eq_sum_keys CampaignEvaluation.campaignId (inFamily s rootId) rooted.ids_nodup _ covered,
    List.map_map]
  rfl

theorem Rooted.memberSum_spent (rooted : Rooted tenant s) (rootId : String) :
    memberSum s rootId (spent s) =
      familyEvaluations s rootId + memberSum s rootId unclaimedRounds := by
  rw [rooted.familyEvaluations_eq, memberSum, memberSum, memberSum, ← List.sum_map_add]
  congr 1
  apply List.map_congr_left
  intro r _
  exact Nat.add_comm _ _

/-! ## An open campaign can reserve -/

/-- What an open campaign's own rules ask of a first arm: a request and a scorecard not
seen before, the frozen exam, no ending of its own, and a budget it has not spent. -/
structure OwnRoom (contentDigest : NonInferiorityPolicy → String)
    (requestDigestOf : List String → String) (s : CampaignStore)
    (input : ReserveCampaignEvaluation) (r : EvolutionCampaignRecord) : Prop where
  found : s.byId.get input.campaignId = some r
  isOpen : r.state = .opened
  below : spent s r < r.frame.budget.maxRounds
  newRequest : s.evaluations.get (evaluationIdOf requestDigestOf input) = none
  unbound : ∀ x a, s.evaluations.get x = some a → a.names input.scorecardId = false
  exam : Text.sort input.caseIds = Text.sort (r.frame.scenarios.map (·.id))
    ∧ input.trials = r.frame.trialsPerCase
  unended : campaignRoundRefusal contentDigest r.frame r.rounds
    (ownSpend r s.evaluations.values) = none

/-- An open campaign below its budget holds room in its family. -/
theorem Ledgered.spent_lt_limit (ledgered : Ledgered tenant s) (isRoot : IsRoot s root)
    (member : r ∈ members s root.id) (isOpen : r.state = .opened)
    (below : spent s r < r.frame.budget.maxRounds) :
    memberSum s root.id (spent s) < familyLimit root.frame := by
  refine Nat.lt_of_lt_of_le (memberSum_lt root.id ?_ member ?_) (ledgered.capacity root isRoot)
  · intro other isMember
    exact ledgered.spent_le_charge ((ledgered.toRooted.mem_members isRoot).mp isMember).1
  · rw [charge_eq, if_pos isOpen]
    exact below

theorem Ledgered.can_reserve {input : ReserveCampaignEvaluation} (ledgered : Ledgered tenant s)
    (own : input.tenant = tenant) (room : OwnRoom contentDigest requestDigestOf s input r) :
    ∃ t result, reserveEvaluation contentDigest requestDigestOf s input = .ok (t, result)
      ∧ result.kind = .reserved ∧ result.evaluation.campaignId = input.campaignId := by
  subst own
  have named := (ledgered.named _ r room.found).1
  obtain ⟨root, isRoot, above, isFamily⟩ := ledgered.toRooted.familyMembers_eq room.found
  obtain ⟨limit, consumed⟩ := ledgered.currentFamily_le isRoot input
  have member : r ∈ members s root.id := by
    rw [ledgered.toRooted.mem_members isRoot, named]
    exact ⟨room.found, above⟩
  have inFamily := ledgered.spent_lt_limit isRoot member room.isOpen room.below
  have evaluations := ledgered.toRooted.evaluationsOf_eq
  have isCampaign : s.byId.values.find? (fun other =>
      other.id = input.campaignId ∧ other.tenant = input.tenant) = some r := by
    have first := ledgered.toRooted.findRecord_eq input.campaignId
    rw [room.found] at first
    rw [← first, findRecord]
    apply List.find?_congr
    intro other mem
    simp [(ledgered.named _ other (ledgered.toRooted.get_of_mem mem)).2]
  have fresh : s.evaluations.values.find?
      (fun a => a.id = evaluationIdOf requestDigestOf input) = none := by
    apply List.find?_eq_none.mpr
    intro a mem same
    obtain ⟨x, there⟩ := Table.mem_values.mp mem
    rw [← (ledgered.evaluated x a there).1, decide_eq_true_eq.mp same, room.newRequest] at there
    cases there
  have unbound : s.evaluations.values.any (fun a => a.names input.scorecardId) = false := by
    rw [List.any_eq_false]
    intro a mem
    obtain ⟨x, there⟩ := Table.mem_values.mp mem
    simp [room.unbound x a there]
  have below := ownSpend_eq ledgered room.found
  simp only [reserveEvaluation, ledgered.toRooted.recordsOf_eq, isFamily, reserveInFamily,
    isCampaign, named, evaluations, fresh, Option.any_none, Option.bind_none, reserveArm, unbound,
    room.unended]
  generalize currentFamily input _ _ = current at limit consumed
  have notFull : ¬(current.limit ≤ current.consumed
      ∨ r.frame.budget.maxRounds ≤ (ownSpend r s.evaluations.values).consumed) := by
    have := room.below
    omega
  simp [room.isOpen, room.exam, notFull]

/-! ## Over a run -/

/-- The family is spent within its root's limit, the bindings and the reports are single,
and an open campaign below its own budget can reserve. -/
structure FamilyBounded (contentDigest : NonInferiorityPolicy → String)
    (requestDigestOf : List String → String) (tenant : String) (s : CampaignStore) : Prop where
  within : ∀ root, IsRoot s root →
    familyEvaluations s root.id + memberSum s root.id unclaimedRounds ≤ familyLimit root.frame
  once : ∀ x y a b, s.evaluations.get x = some a → s.evaluations.get y = some b →
    ∀ scorecardId, a.names scorecardId = true → b.names scorecardId = true → x = y
  reportedOnce : ∀ e, reports s e ≤ 1
  reserves : ∀ input r, input.tenant = tenant →
    OwnRoom contentDigest requestDigestOf s input r →
    ∃ t result, reserveEvaluation contentDigest requestDigestOf s input = .ok (t, result)
      ∧ result.kind = .reserved ∧ result.evaluation.campaignId = input.campaignId

/-- Campaigns start open and empty, and a round without a reservation is logged only
while the campaign has budget left next to its reservations. -/
def Sound (tenant : String) (s : CampaignStore) : StoreEvent → Prop
  | .create record _ => Fresh tenant record
  | .reserveEvaluation input => input.tenant = tenant
  | .appendRound id round _ _ => round.verdict.evaluationId ≠ some ""
      ∧ (round.verdict.evaluationId = none →
        ∀ r ∈ s.get tenant id, spent s r < r.frame.budget.maxRounds)
  | .close .. => True

theorem Ledgered.step {e : StoreEvent} {o : StoreAnswer}
    (inv : Ledgered tenant s ∧ Bindings s) (sound : Sound tenant s e)
    (eq : storeStep contentDigest requestDigestOf tenant s e = some (t, o)) :
    Ledgered tenant t ∧ Bindings t := by
  obtain ⟨ledgered, bindings⟩ := inv
  cases e with
  | create record events =>
      simp only [storeStep] at eq
      split at eq
      · cases eq
        exact ⟨ledgered, bindings⟩
      · next created =>
          cases eq
          exact ⟨ledgered.create sound created, bindings.create sound created⟩
  | reserveEvaluation input =>
      simp only [storeStep] at eq
      split at eq
      · cases eq
        exact ⟨ledgered, bindings⟩
      · next reserved =>
          cases eq
          exact ⟨ledgered.reserve sound reserved, bindings.reserve ledgered sound reserved⟩
  | appendRound id round expectedRounds events =>
      cases eq
      exact ⟨ledgered.appendRound sound.1 sound.2, bindings.appendRound ledgered sound.1⟩
  | close id state closed expectedRounds events adoption =>
      cases eq
      exact ⟨ledgered.close, bindings.close⟩

/-- No family is over-spent in a run whose unreserved rounds fit their campaigns. -/
theorem family_never_overspent {log : List (StoreEvent × StoreAnswer)}
    (run : Runs (storeStep contentDigest requestDigestOf tenant) (Sound tenant)
      CampaignStore.empty log s) :
    FamilyBounded contentDigest requestDigestOf tenant s := by
  obtain ⟨ledgered, bindings⟩ : Ledgered tenant s ∧ Bindings s := by
    apply run.state_invariant (I := fun s => Ledgered tenant s ∧ Bindings s)
    · exact ⟨.empty, .empty⟩
    · intro s e t o
      exact Ledgered.step
  refine ⟨?_, bindings.once, bindings.reportedOnce, ?_⟩
  · intro root isRoot
    rw [← ledgered.toRooted.memberSum_spent]
    exact ledgered.spent_le_limit isRoot
  · intro input r own room
    exact ledgered.can_reserve own room

/-! ## Sample runs -/

instance (tenant : String) (record : EvolutionCampaignRecord) : Decidable (Fresh tenant record) :=
  decidable_of_iff (record.tenant = tenant ∧ record.rounds = [] ∧ record.state = .opened
      ∧ (record.frame.continues = none →
        record.frame.budget.maxRounds ≤ familyLimit record.frame))
    ⟨fun ⟨own, noRounds, isOpen, covers⟩ => ⟨own, noRounds, isOpen, covers⟩,
      fun ⟨own, noRounds, isOpen, covers⟩ => ⟨own, noRounds, isOpen, covers⟩⟩

instance (tenant : String) (s : CampaignStore) : (e : StoreEvent) → Decidable (Sound tenant s e)
  | .create record _ => inferInstanceAs (Decidable (Fresh tenant record))
  | .reserveEvaluation input => inferInstanceAs (Decidable (input.tenant = tenant))
  | .appendRound id round _ _ => inferInstanceAs (Decidable (round.verdict.evaluationId ≠ some ""
      ∧ (round.verdict.evaluationId = none →
        ∀ r ∈ s.get tenant id, spent s r < r.frame.budget.maxRounds)))
  | .close .. => inferInstanceAs (Decidable True)

/-- A root with one round to spend, of a family of one. -/
def singleRound : EvolutionCampaignRecord where
  id := "camp-1"
  tenant := "acme"
  issueId := "iss-1"
  frameDigest := ""
  frame := oneRoundFrame

def singleReservation : ReserveCampaignEvaluation where
  tenant := "acme"
  campaignId := "camp-1"
  requestId := "r-1"
  candidateVersion := "1.1.0"
  side := .candidate
  scorecardId := "sc-2"
  requestDigest := ""
  caseIds := ["a", "b"]
  trials := 5

/-- A round that names no reservation. -/
def unreservedRound : CampaignRound where
  seq := 1
  candidateVersion := "1.1.0"
  baselineScorecardId := "sc-1"
  candidateScorecardId := "sc-2"
  verdict := { comparable := true }

theorem family_never_overspent_singleRound :
    ∃ log s, Runs (storeStep (fun _ => "") String.join "acme") (Sound "acme")
        CampaignStore.empty log s
      ∧ familyEvaluations s "camp-1" = 1 ∧ FamilyBounded (fun _ => "") String.join "acme" s := by
  obtain ⟨log, s, run, reserved⟩ := exists_run_of_exec
    (storeStep (fun _ => "") String.join "acme") (Sound "acme") CampaignStore.empty
    [.create singleRound [], .reserveEvaluation singleReservation]
    (fun s => familyEvaluations s "camp-1" = 1) (by decide +kernel)
  exact ⟨log, s, run, by simpa using reserved, family_never_overspent run⟩

/-- One arm is reserved, and then a round is logged that names no reservation: two tests of
a family of one. -/
theorem unreserved_round_overspends :
    ∃ log s, Runs (storeStep (fun _ => "") String.join "acme") Always CampaignStore.empty log s
      ∧ ¬FamilyBounded (fun _ => "") String.join "acme" s := by
  obtain ⟨log, s, run, exceeds⟩ := exists_run_of_exec
    (storeStep (fun _ => "") String.join "acme") Always CampaignStore.empty
    [.create singleRound [], .reserveEvaluation singleReservation,
      .appendRound "camp-1" unreservedRound 0 []]
    (fun s => (s.byId.get "camp-1").any fun root =>
      root.id = "camp-1" && root.frame.continues.isNone
        && familyLimit root.frame
          < familyEvaluations s "camp-1" + memberSum s "camp-1" unclaimedRounds)
    (by decide +kernel)
  refine ⟨log, s, run, ?_⟩
  intro bounded
  rcases found : s.byId.get "camp-1" with _ | root
  · rw [found] at exceeds
    cases exceeds
  simp only [found, Option.any_some, Bool.and_eq_true, decide_eq_true_eq,
    Option.isNone_iff_eq_none] at exceeds
  obtain ⟨⟨isId, parentless⟩, exceeds⟩ := exceeds
  have within := bounded.within root ⟨by rw [isId, found], parentless⟩
  rw [isId] at within
  exact absurd within (Nat.not_le_of_lt exceeds)

end Everdict.Evolution
