import Mathlib.Algebra.Order.BigOperators.Group.List
import Mathlib.Algebra.Order.Group.Nat
import Everdict.Evolution.FamilySteps

/-!
# The held-out budget of a family

The evaluations a family reserved and the rounds it logged without a reservation stay
within what its root pre-registered.  The invariant is that of a capacity: an open member
holds its whole budget and a closed one what it spent, and together they fit the family.
-/

namespace Everdict.Evolution

open Transition

variable {contentDigest : NonInferiorityPolicy → String} {requestDigestOf : List String → String}
  {tenant id : String} {s t : CampaignStore} {record r root : EvolutionCampaignRecord}
  {round : CampaignRound}

/-! ## Families as forests -/

def IsRoot (s : CampaignStore) (root : EvolutionCampaignRecord) : Prop :=
  s.byId.get root.id = some root ∧ root.frame.continues = none

def members (s : CampaignStore) (rootId : String) : List EvolutionCampaignRecord :=
  familyOf s.byId.values rootId

/-- The evaluations a campaign reserved. -/
def attempts (s : CampaignStore) (id : String) : Nat :=
  s.evaluations.values.countP fun a => a.campaignId = id

/-- The reservations a campaign made, and the rounds it logged without one. -/
def spent (s : CampaignStore) (r : EvolutionCampaignRecord) : Nat :=
  unclaimedRounds r + attempts s r.id

/-- The rounds that report an evaluation, over all campaigns. -/
def reports (s : CampaignStore) (evaluationId : String) : Nat :=
  (s.byId.values.map fun r =>
    r.rounds.countP fun round => round.verdict.evaluationId = some evaluationId).sum

/-- The rows go by their ids and belong to the tenant, and every campaign continued an
earlier one. -/
structure Rooted (tenant : String) (s : CampaignStore) : Prop where
  named : ∀ id r, s.byId.get id = some r → r.id = id ∧ r.tenant = tenant
  grown : Forest.Grown (lineage s.byId.values)
  evaluated : ∀ id a, s.evaluations.get id = some a →
    a.id = id ∧ a.tenant = tenant ∧ ∃ r, s.byId.get a.campaignId = some r

theorem Rooted.get_of_mem (rooted : Rooted tenant s) (mem : r ∈ s.byId.values) :
    s.byId.get r.id = some r := by
  obtain ⟨id, found⟩ := Table.mem_values.mp mem
  rwa [(rooted.named id r found).1]

theorem Rooted.recordsOf_eq (rooted : Rooted tenant s) : s.recordsOf tenant = s.byId.values := by
  apply List.filter_eq_self.mpr
  intro r mem
  simpa using (rooted.named _ r (rooted.get_of_mem mem)).2

theorem Rooted.evaluationsOf_eq (rooted : Rooted tenant s) :
    s.evaluationsOf tenant = s.evaluations.values := by
  apply List.filter_eq_self.mpr
  intro a mem
  obtain ⟨id, found⟩ := Table.mem_values.mp mem
  simpa using (rooted.evaluated id a found).2.1

theorem Rooted.findRecord_eq (rooted : Rooted tenant s) (id : String) :
    findRecord s.byId.values id = s.byId.get id := by
  rcases found : s.byId.get id with _ | r
  · apply List.find?_eq_none.mpr
    intro r mem named
    have there := rooted.get_of_mem mem
    rw [decide_eq_true_eq.mp named, found] at there
    cases there
  · have mem : r ∈ s.byId.values := Table.mem_values.mpr ⟨id, found⟩
    rcases first : findRecord s.byId.values id with _ | other
    · have none := List.find?_eq_none.mp first r mem
      simp [(rooted.named id r found).1] at none
    · have named : other.id = id := by simpa using List.find?_some first
      have there := rooted.get_of_mem (List.mem_of_find?_eq_some first)
      rw [named, found] at there
      exact there.symm

theorem parentOf_lineage (records : List EvolutionCampaignRecord) (id : String) :
    Forest.parentOf (lineage records) id = (findRecord records id).map (·.frame.continues) := by
  simp only [Forest.parentOf, lineage, findRecord, List.find?_map, Option.map_map]
  rfl

theorem keys_lineage (records : List EvolutionCampaignRecord) :
    Forest.keys (lineage records) = records.map (·.id) := by
  simp [Forest.keys, lineage]

theorem Rooted.parentOf_root (rooted : Rooted tenant s) (isRoot : IsRoot s root) :
    Forest.parentOf (lineage s.byId.values) root.id = some none := by
  rw [parentOf_lineage, rooted.findRecord_eq, isRoot.1, Option.map_some, isRoot.2]

theorem Rooted.mem_members (rooted : Rooted tenant s) (isRoot : IsRoot s root) :
    r ∈ members s root.id ↔
      s.byId.get r.id = some r ∧ Forest.RootOf (lineage s.byId.values) r.id root.id := by
  simp only [members, familyOf, List.mem_filter, decide_eq_true_eq,
    rooted.grown.mem_descendants (rooted.parentOf_root isRoot)]
  constructor
  · intro isMember
    obtain ⟨mem, above⟩ := isMember
    exact ⟨rooted.get_of_mem mem, above⟩
  · intro isMember
    obtain ⟨found, above⟩ := isMember
    exact ⟨Table.mem_values.mpr ⟨_, found⟩, above⟩

/-- Every campaign has a root, and the store finds it and its family. -/
theorem Rooted.familyMembers_eq (rooted : Rooted tenant s) (found : s.byId.get id = some r) :
    ∃ root, IsRoot s root ∧ Forest.RootOf (lineage s.byId.values) id root.id
      ∧ familyMembers id s.byId.values = .ok { root := root, members := members s root.id } := by
  have inKeys : id ∈ Forest.keys (lineage s.byId.values) := by
    rw [keys_lineage]
    exact List.mem_map.mpr ⟨r, Table.mem_values.mpr ⟨id, found⟩, (rooted.named id r found).1⟩
  obtain ⟨rootId, above⟩ := rooted.grown.exists_rootOf inKeys
  have parentless := above.isRoot
  rw [parentOf_lineage, rooted.findRecord_eq, Option.map_eq_some_iff] at parentless
  obtain ⟨root, rootAt, parentless⟩ := parentless
  have named := (rooted.named rootId root rootAt).1
  subst named
  refine ⟨root, ⟨rootAt, parentless⟩, above, ?_⟩
  simp [familyMembers, rooted.findRecord_eq, found, rooted.grown.rootOf_eq_ok_iff.mpr above, rootAt,
    members]

/-! ## Sums over a family -/

def memberSum (s : CampaignStore) (rootId : String) (f : EvolutionCampaignRecord → Nat) : Nat :=
  ((members s rootId).map f).sum

def inFamily (s : CampaignStore) (rootId id : String) : Bool :=
  id ∈ Forest.descendants (lineage s.byId.values) rootId

theorem sum_filter_map {α : Type*} (p : α → Bool) (f : α → Nat) (xs : List α) :
    ((xs.filter p).map f).sum = (xs.map fun x => if p x then f x else 0).sum := by
  induction xs with
  | nil => rfl
  | cons x xs ih => by_cases px : p x <;> simp [px, ih]

theorem memberSum_eq (s : CampaignStore) (rootId : String) (f : EvolutionCampaignRecord → Nat) :
    memberSum s rootId f =
      (s.byId.values.map fun r => if inFamily s rootId r.id then f r else 0).sum :=
  sum_filter_map _ f _

theorem lineage_set {old new : EvolutionCampaignRecord} (found : s.byId.get id = some old)
    (sameId : new.id = old.id) (sameFrame : new.frame = old.frame) :
    lineage (s.byId.set id new).values = lineage s.byId.values := by
  apply Table.map_values_set _ found
  rw [sameId, sameFrame]

/-- A rewritten member changes a sum over a family by its own term. -/
theorem memberSum_set {old new : EvolutionCampaignRecord} (rootId : String)
    (f : EvolutionCampaignRecord → Nat) (found : s.byId.get id = some old)
    (sameId : new.id = old.id) (sameFrame : new.frame = old.frame)
    (byId : t.byId = s.byId.set id new) :
    memberSum t rootId f + (if inFamily s rootId old.id then f old else 0) =
      memberSum s rootId f + if inFamily s rootId old.id then f new else 0 := by
  have sameFamily : inFamily t rootId = inFamily s rootId := by
    unfold inFamily
    rw [byId, lineage_set found sameId sameFrame]
  have change := Table.sum_set (fun r => if inFamily s rootId r.id then f r else 0) s.byId id new
  rw [memberSum_eq, memberSum_eq, sameFamily, byId]
  simpa [found, sameId] using change

theorem memberSum_le {f g : EvolutionCampaignRecord → Nat} (rootId : String)
    (le : ∀ r ∈ members s rootId, f r ≤ g r) : memberSum s rootId f ≤ memberSum s rootId g :=
  List.sum_le_sum le

theorem memberSum_lt {f g : EvolutionCampaignRecord → Nat} (rootId : String)
    (le : ∀ r ∈ members s rootId, f r ≤ g r) (member : r ∈ members s rootId) (lt : f r < g r) :
    memberSum s rootId f < memberSum s rootId g :=
  List.sum_lt_sum f g le ⟨r, member, lt⟩

theorem attempts_set_of_same {evaluationId : String} {old : CampaignEvaluation}
    (new : CampaignEvaluation) (found : s.evaluations.get evaluationId = some old)
    (same : new.campaignId = old.campaignId)
    (evaluations : t.evaluations = s.evaluations.set evaluationId new) (id : String) :
    attempts t id = attempts s id := by
  have campaigns := Table.map_values_set CampaignEvaluation.campaignId found same
  have counted := congrArg (List.countP fun c => decide (c = id)) campaigns
  simp only [attempts, evaluations]
  simpa [List.countP_map, Function.comp_def] using counted

theorem attempts_set_of_none {evaluationId : String} {new : CampaignEvaluation}
    (fresh : s.evaluations.get evaluationId = none)
    (evaluations : t.evaluations = s.evaluations.set evaluationId new) (id : String) :
    attempts t id = attempts s id + if new.campaignId = id then 1 else 0 := by
  simp only [attempts, evaluations, Table.values_set_of_none fresh, List.countP_append]
  by_cases own : new.campaignId = id <;> simp [own]

/-! ## The capacity of a family -/

/-- An open member holds its budget and a closed one what it spent; together they fit
what the root pre-registered, and the family's row counts no more than was spent. -/
structure Ledgered (tenant : String) (s : CampaignStore) : Prop extends Rooted tenant s where
  claimed : ∀ id r, s.byId.get id = some r → ∀ round ∈ r.rounds,
    round.verdict.evaluationId ≠ some ""
  within : ∀ id r, s.byId.get id = some r → spent s r ≤ r.frame.budget.maxRounds
  capacity : ∀ root, IsRoot s root →
    memberSum s root.id (charge s.evaluations.values) ≤ familyLimit root.frame
  rows : ∀ key f, s.families.get key = some f → ∃ root, IsRoot s root
    ∧ key = familyKey tenant root.id ∧ f.limit = familyLimit root.frame
    ∧ f.consumed ≤ memberSum s root.id (spent s)

theorem charge_eq (s : CampaignStore) (r : EvolutionCampaignRecord) :
    charge s.evaluations.values r =
      if r.state = .opened then r.frame.budget.maxRounds else spent s r := rfl

theorem Ledgered.spent_le_charge (ledgered : Ledgered tenant s)
    (found : s.byId.get id = some r) : spent s r ≤ charge s.evaluations.values r := by
  have within := ledgered.within id r found
  rw [charge_eq]
  split <;> omega

/-- What a family spent fits what its root pre-registered. -/
theorem Ledgered.spent_le_limit (ledgered : Ledgered tenant s) (isRoot : IsRoot s root) :
    memberSum s root.id (spent s) ≤ familyLimit root.frame := by
  refine Nat.le_trans (memberSum_le root.id ?_) (ledgered.capacity root isRoot)
  intro r member
  have found := (ledgered.toRooted.mem_members isRoot).mp member
  exact ledgered.spent_le_charge found.1

theorem Ledgered.empty : Ledgered tenant CampaignStore.empty where
  named := by simp [CampaignStore.empty]
  grown := .nil
  evaluated := by simp [CampaignStore.empty]
  claimed := by simp [CampaignStore.empty]
  within := by simp [CampaignStore.empty]
  capacity := by
    rintro root ⟨found, -⟩
    cases found
  rows := by simp [CampaignStore.empty]

/-- A member rewritten in place, spending no less and charged no more than before. -/
theorem Ledgered.rewrite {old : EvolutionCampaignRecord} (new : EvolutionCampaignRecord)
    (ledgered : Ledgered tenant s)
    (found : s.byId.get id = some old) (sameId : new.id = old.id)
    (sameTenant : new.tenant = old.tenant) (sameFrame : new.frame = old.frame)
    (byId : t.byId = s.byId.set id new) (families : t.families = s.families)
    (sameAttempts : ∀ x, attempts t x = attempts s x)
    (evaluated : ∀ x a, t.evaluations.get x = some a → a.id = x ∧ a.tenant = tenant
      ∧ ∃ b, s.evaluations.get x = some b ∧ b.campaignId = a.campaignId)
    (claimed : ∀ round ∈ new.rounds, round.verdict.evaluationId ≠ some "")
    (grows : spent s old ≤ spent s new) (fits : spent s new ≤ new.frame.budget.maxRounds)
    (charged : charge s.evaluations.values new ≤ charge s.evaluations.values old) :
    Ledgered tenant t := by
  have sameSpent : spent t = spent s := by
    funext r
    simp [spent, sameAttempts]
  have sameCharge : charge t.evaluations.values = charge s.evaluations.values := by
    funext r
    rw [charge_eq, charge_eq, sameSpent]
  have get : ∀ x, t.byId.get x = if x = id then some new else s.byId.get x := by
    intro x
    rw [byId, Table.get_set]
  have named : new.id = id ∧ new.tenant = tenant := by
    rw [sameId, sameTenant]
    exact ledgered.named id old found
  have roots : ∀ root, IsRoot t root →
      ∃ before, IsRoot s before ∧ before.id = root.id ∧ before.frame = root.frame := by
    rintro root ⟨there, parentless⟩
    rw [get] at there
    split at there
    · next isId =>
        cases there
        refine ⟨old, ⟨?_, ?_⟩, sameId.symm, sameFrame.symm⟩
        · rw [(ledgered.named id old found).1, found]
        · rw [← sameFrame, parentless]
    · exact ⟨root, ⟨there, parentless⟩, rfl, rfl⟩
  refine { named := ?_, grown := ?_, evaluated := ?_, claimed := ?_, within := ?_, capacity := ?_,
           rows := ?_ }
  · intro x r there
    rw [get] at there
    split at there
    · next isId =>
        cases there
        rw [isId]
        exact named
    · exact ledgered.named x r there
  · rw [byId, lineage_set found sameId sameFrame]
    exact ledgered.grown
  · intro x a there
    obtain ⟨isId, own, b, before, sameCampaign⟩ := evaluated x a there
    obtain ⟨-, -, r, exists_⟩ := ledgered.evaluated x b before
    refine ⟨isId, own, ?_⟩
    rw [get, ← sameCampaign]
    split
    · exact ⟨new, rfl⟩
    · exact ⟨r, exists_⟩
  · intro x r there
    rw [get] at there
    split at there
    · cases there
      exact claimed
    · exact ledgered.claimed x r there
  · intro x r there
    rw [sameSpent]
    rw [get] at there
    split at there
    · cases there
      exact fits
    · exact ledgered.within x r there
  · intro root isRoot
    obtain ⟨before, wasRoot, idBefore, frameBefore⟩ := roots root isRoot
    have room := ledgered.capacity before wasRoot
    have change := memberSum_set root.id (charge s.evaluations.values) found sameId sameFrame byId
    rw [sameCharge]
    rw [idBefore, frameBefore] at room
    split at change <;> omega
  · intro key f there
    rw [families] at there
    obtain ⟨before, wasRoot, isKey, limit, consumed⟩ := ledgered.rows key f there
    have change := memberSum_set before.id (spent s) found sameId sameFrame byId
    have more : memberSum s before.id (spent s) ≤ memberSum t before.id (spent t) := by
      rw [sameSpent]
      split at change <;> omega
    by_cases isOld : before.id = id
    · obtain rfl : before = old := by
        have there := wasRoot.1
        rw [isOld, found] at there
        exact (Option.some.inj there).symm
      refine ⟨new, ⟨?_, ?_⟩, ?_, ?_, ?_⟩
      · rw [get, sameId, if_pos isOld]
      · rw [sameFrame, wasRoot.2]
      · rw [sameId, isKey]
      · rw [sameFrame, limit]
      · rw [sameId]
        omega
    · refine ⟨before, ⟨?_, wasRoot.2⟩, isKey, limit, ?_⟩
      · rw [get, if_neg isOld, wasRoot.1]
      · omega

/-! ## Appending and closing -/

theorem unclaimed_iff (named : round.verdict.evaluationId ≠ some "") :
    unclaimed round = true ↔ round.verdict.evaluationId = none := by
  unfold unclaimed
  rcases claims : round.verdict.evaluationId with _ | evaluationId
  · simp
  · have nonempty : evaluationId ≠ "" := by
      rintro rfl
      exact named claims
    simp [nonempty]

theorem spent_append (s : CampaignStore) (r : EvolutionCampaignRecord) (round : CampaignRound) :
    spent s { r with rounds := r.rounds ++ [round] } =
      spent s r + if unclaimed round then 1 else 0 := by
  simp only [spent, unclaimedRounds, List.countP_append, List.countP_singleton]
  split <;> omega

theorem Ledgered.appendRound {expectedRounds : Nat} {events : List CampaignFact}
    (ledgered : Ledgered tenant s) (named : round.verdict.evaluationId ≠ some "")
    (below : round.verdict.evaluationId = none → ∀ r, s.get tenant id = some r →
      spent s r < r.frame.budget.maxRounds) :
    Ledgered tenant (appendRound s tenant id round expectedRounds events).1 := by
  rcases appendRound_cases s tenant id round expectedRounds events with same | wrote
  · rw [same]
    exact ledgered
  obtain ⟨r, found, own, isOpen, -, byId, families, evaluations⟩ := wrote
  generalize (Evolution.appendRound s tenant id round expectedRounds events).1 = t at *
  have fits : spent s { r with rounds := r.rounds ++ [round] } ≤ r.frame.budget.maxRounds := by
    have within := ledgered.within id r found
    rw [spent_append]
    split
    · next unreserved =>
        have := below ((unclaimed_iff named).mp unreserved) r
          (by simp [CampaignStore.get, found, own])
        omega
    · omega
  have claimed : ∀ other ∈ r.rounds ++ [round], other.verdict.evaluationId ≠ some "" := by
    intro other mem
    rcases List.mem_append.mp mem with before | isRound
    · exact ledgered.claimed id r found other before
    · rw [List.mem_singleton.mp isRound]
      exact named
  have grows : spent s r ≤ spent s { r with rounds := r.rounds ++ [round] } := by
    rw [spent_append]
    omega
  have charged : charge s.evaluations.values { r with rounds := r.rounds ++ [round] } ≤
      charge s.evaluations.values r := by
    rw [charge_eq, charge_eq]
    simp [isOpen]
  rcases evaluations with ⟨-, evaluations⟩ | ⟨-, reported⟩
  · apply ledgered.rewrite { r with rounds := r.rounds ++ [round] } found rfl rfl rfl byId families
      ?_ ?_ claimed grows fits charged
    · intro x
      rw [attempts, evaluations, attempts]
    · intro x a there
      rw [evaluations] at there
      obtain ⟨isId, own, -⟩ := ledgered.evaluated x a there
      exact ⟨isId, own, a, there, rfl⟩
  · obtain ⟨evaluationId, evaluation, -, there, -, -, evaluations⟩ := reported
    have isKey := (ledgered.evaluated evaluationId evaluation there).1
    subst isKey
    apply ledgered.rewrite { r with rounds := r.rounds ++ [round] } found rfl rfl rfl byId families
      ?_ ?_ claimed grows fits charged
    · exact attempts_set_of_same { evaluation with reportedRound := some round.seq } there rfl
        evaluations
    · intro x a written
      rw [evaluations, Table.get_set] at written
      split at written
      · next isKey =>
          cases written
          rw [isKey]
          exact ⟨rfl, (ledgered.evaluated _ evaluation there).2.1, evaluation, there, rfl⟩
      · obtain ⟨isId, own, -⟩ := ledgered.evaluated x a written
        exact ⟨isId, own, a, written, rfl⟩

theorem Ledgered.close {state : ClosedState} {closed : CampaignClose} {expectedRounds : Nat}
    {events : List CampaignFact} {adoption : Option AdoptionOperation}
    (ledgered : Ledgered tenant s) :
    Ledgered tenant (close s tenant id state closed expectedRounds events adoption).1 := by
  rcases close_cases s tenant id state closed expectedRounds events adoption with same | wrote
  · rw [same]
    exact ledgered
  obtain ⟨r, found, own, isOpen, byId, families, evaluations⟩ := wrote
  generalize (Evolution.close s tenant id state closed expectedRounds events adoption).1 = t at *
  have within := ledgered.within id r found
  apply ledgered.rewrite { r with state := .closed state, close := some closed } found rfl rfl rfl
    byId families ?_ ?_ (ledgered.claimed id r found) (Nat.le_refl _) within ?_
  · intro x
    rw [attempts, evaluations, attempts]
  · intro x a there
    rw [evaluations] at there
    obtain ⟨isId, own, -⟩ := ledgered.evaluated x a there
    exact ⟨isId, own, a, there, rfl⟩
  · rw [charge_eq, charge_eq, if_neg (by simp), if_pos isOpen]
    exact within

/-! ## Reserving -/

theorem familyKey_inj {a b : String} (same : familyKey tenant a = familyKey tenant b) : a = b := by
  have lists := congrArg String.toList same
  simp only [familyKey, String.toList_append] at lists
  exact String.toList_injective (List.append_cancel_left lists)

/-- The store's row of a family, or the one a first reservation starts, has the limit of
the root and counts no more than was spent. -/
theorem Ledgered.currentFamily_le (ledgered : Ledgered tenant s) (isRoot : IsRoot s root)
    (input : ReserveCampaignEvaluation) :
    (currentFamily input (s.families.get (familyKey tenant root.id))
        { root := root, members := members s root.id }).limit = familyLimit root.frame
      ∧ (currentFamily input (s.families.get (familyKey tenant root.id))
        { root := root, members := members s root.id }).consumed
        ≤ memberSum s root.id (spent s) := by
  rcases row : s.families.get (familyKey tenant root.id) with _ | f
  · refine ⟨rfl, ?_⟩
    apply memberSum_le
    intro r _
    exact Nat.le_add_right _ _
  · obtain ⟨other, isOther, isKey, limit, consumed⟩ := ledgered.rows _ f row
    have sameId := familyKey_inj isKey
    obtain rfl : root = other := by
      have there := isOther.1
      rw [← sameId, isRoot.1] at there
      exact Option.some.inj there
    exact ⟨limit, consumed⟩

/-- A reservation that keeps every campaign within its budget, and the row of the one
family it touches below what that family spent. -/
theorem Ledgered.spend (ledgered : Ledgered tenant s) (isRoot : IsRoot s root)
    (row : ExperimentFamily) (byId : t.byId = s.byId)
    (families : t.families = s.families.set (familyKey tenant root.id) row)
    (evaluated : ∀ x a, t.evaluations.get x = some a →
      a.id = x ∧ a.tenant = tenant ∧ ∃ r, s.byId.get a.campaignId = some r)
    (grows : ∀ r, spent s r ≤ spent t r)
    (within : ∀ x r, s.byId.get x = some r → spent t r ≤ r.frame.budget.maxRounds)
    (closed : ∀ x r, s.byId.get x = some r → r.state ≠ .opened → spent t r = spent s r)
    (limit : row.limit = familyLimit root.frame)
    (consumed : row.consumed ≤ memberSum s root.id (spent t)) : Ledgered tenant t := by
  have sameSum : ∀ rootId f, memberSum t rootId f = memberSum s rootId f := by
    intro rootId f
    rw [memberSum, members, byId]
    rfl
  have sameRoot : ∀ root, IsRoot t root ↔ IsRoot s root := by
    intro root
    rw [IsRoot, byId]
    rfl
  refine { named := ?_, grown := ?_, evaluated := ?_, claimed := ?_, within := ?_, capacity := ?_,
           rows := ?_ }
  · rw [byId]
    exact ledgered.named
  · rw [byId]
    exact ledgered.grown
  · rw [byId]
    exact evaluated
  · rw [byId]
    exact ledgered.claimed
  · rw [byId]
    exact within
  · intro other isOther
    rw [sameRoot] at isOther
    rw [sameSum]
    refine Nat.le_trans (memberSum_le other.id ?_) (ledgered.capacity other isOther)
    intro r member
    have found := ((ledgered.toRooted.mem_members isOther).mp member).1
    rw [charge_eq, charge_eq]
    split
    · exact Nat.le_refl _
    · next isClosed => exact Nat.le_of_eq (closed _ r found isClosed)
  · intro key f there
    rw [families, Table.get_set] at there
    split at there
    · next isKey =>
        cases there
        refine ⟨root, (sameRoot root).mpr isRoot, isKey, limit, ?_⟩
        rw [sameSum]
        exact consumed
    · obtain ⟨other, isOther, isKey, limit, consumed⟩ := ledgered.rows key f there
      refine ⟨other, (sameRoot other).mpr isOther, isKey, limit, ?_⟩
      rw [sameSum]
      exact Nat.le_trans consumed (memberSum_le other.id fun r _ => grows r)

theorem ownSpend_eq (ledgered : Ledgered tenant s) (found : s.byId.get id = some r) :
    (ownSpend r s.evaluations.values).consumed = spent s r := by
  have unreserved : unreservedRounds r.rounds = unclaimedRounds r := by
    apply List.countP_congr
    intro round mem
    rw [unclaimed_iff (ledgered.claimed id r found round mem), Option.isNone_iff_eq_none]
  simp only [ownSpend, campaignSpendOf, spent, attempts, unreserved, List.countP_eq_length_filter]
  omega

@[simp]
theorem bindArm_id (a : CampaignEvaluation) (side : ArmSide) (binding : ArmBinding) :
    (a.bindArm side binding).id = a.id := by
  cases side <;> rfl

@[simp]
theorem bindArm_tenant (a : CampaignEvaluation) (side : ArmSide) (binding : ArmBinding) :
    (a.bindArm side binding).tenant = a.tenant := by
  cases side <;> rfl

@[simp]
theorem bindArm_campaignId (a : CampaignEvaluation) (side : ArmSide) (binding : ArmBinding) :
    (a.bindArm side binding).campaignId = a.campaignId := by
  cases side <;> rfl

@[simp]
theorem bindArm_reportedRound (a : CampaignEvaluation) (side : ArmSide) (binding : ArmBinding) :
    (a.bindArm side binding).reportedRound = a.reportedRound := by
  cases side <;> rfl

/-- Writing over an evaluation that is spent already, for the same campaign. -/
theorem Ledgered.rewriteEvaluation {old new : CampaignEvaluation} {row : ExperimentFamily}
    (ledgered : Ledgered tenant s) (isRoot : IsRoot s root)
    (found : s.evaluations.get old.id = some old) (sameId : new.id = old.id)
    (sameTenant : new.tenant = old.tenant) (sameCampaign : new.campaignId = old.campaignId)
    (limit : row.limit = familyLimit root.frame)
    (consumed : row.consumed ≤ memberSum s root.id (spent s)) :
    Ledgered tenant { s with
      families := s.families.set (familyKey tenant root.id) row
      evaluations := s.evaluations.set new.id new } := by
  have evaluations : (s.evaluations.set new.id new) = s.evaluations.set old.id new := by
    rw [sameId]
  rw [evaluations]
  generalize eq : ({ s with
    families := s.families.set (familyKey tenant root.id) row
    evaluations := s.evaluations.set old.id new } : CampaignStore) = t
  have sameSpent : spent t = spent s := by
    funext r
    rw [spent, attempts_set_of_same new found sameCampaign (by rw [← eq])]
    rfl
  apply ledgered.spend isRoot row (by rw [← eq]) (by rw [← eq]) ?_ ?_ ?_ ?_ limit
  · rw [sameSpent]
    exact consumed
  · intro x a written
    rw [← eq] at written
    simp only [Table.get_set] at written
    split at written
    · next isOld =>
        cases written
        obtain ⟨-, own, r, exists_⟩ := ledgered.evaluated _ old found
        exact ⟨by rw [sameId, isOld], by rw [sameTenant, own], r, by rw [sameCampaign, exists_]⟩
    · exact ledgered.evaluated x a written
  · intro r
    rw [sameSpent]
  · rw [sameSpent]
    exact ledgered.within
  · intro x r _ _
    rw [sameSpent]

/-- A fresh evaluation of an open campaign that is below its budget. -/
theorem Ledgered.addEvaluation {new : CampaignEvaluation} (row : ExperimentFamily)
    (ledgered : Ledgered tenant s) (isRoot : IsRoot s root) (isMember : r ∈ members s root.id)
    (fresh : s.evaluations.get new.id = none) (own : new.tenant = tenant)
    (newCampaign : new.campaignId = r.id) (isOpen : r.state = .opened)
    (below : spent s r < r.frame.budget.maxRounds) (limit : row.limit = familyLimit root.frame)
    (consumed : row.consumed ≤ memberSum s root.id (spent s) + 1) :
    Ledgered tenant { s with
      families := s.families.set (familyKey tenant root.id) row
      evaluations := s.evaluations.set new.id new } := by
  generalize eq : ({ s with
    families := s.families.set (familyKey tenant root.id) row
    evaluations := s.evaluations.set new.id new } : CampaignStore) = t
  have there := ((ledgered.toRooted.mem_members isRoot).mp isMember).1
  have spends : ∀ other, spent t other = spent s other + if r.id = other.id then 1 else 0 := by
    intro other
    rw [spent, attempts_set_of_none fresh (by rw [← eq]), newCampaign, spent]
    omega
  have sameRow : ∀ x other, s.byId.get x = some other → r.id = other.id → other = r := by
    intro x other found same
    rw [← (ledgered.named x other found).1, ← same, there] at found
    exact (Option.some.inj found).symm
  apply ledgered.spend isRoot row (by rw [← eq]) (by rw [← eq]) ?_ ?_ ?_ ?_ limit
  · have more : memberSum s root.id (spent s) < memberSum s root.id (spent t) := by
      apply memberSum_lt root.id ?_ isMember
      · rw [spends]
        simp
      · intro other _
        rw [spends]
        omega
    omega
  · intro x a written
    rw [← eq] at written
    simp only [Table.get_set] at written
    split at written
    · next isNew =>
        cases written
        exact ⟨isNew.symm, own, r, by rw [newCampaign, there]⟩
    · exact ledgered.evaluated x a written
  · intro other
    rw [spends]
    omega
  · intro x other found
    have within := ledgered.within x other found
    rw [spends]
    split
    · next same =>
        rw [sameRow x other found same]
        omega
    · exact within
  · intro x other found isClosed
    rw [spends]
    split
    · next same =>
        rw [sameRow x other found same] at isClosed
        exact absurd isOpen isClosed
    · rfl

theorem Ledgered.reserve {input : ReserveCampaignEvaluation} {result : Reservation}
    (ledgered : Ledgered tenant s) (own : input.tenant = tenant)
    (reserved : reserveEvaluation contentDigest requestDigestOf s input = .ok (t, result)) :
    Ledgered tenant t := by
  subst own
  obtain ⟨family, campaign, isFamily, isCampaign, named, rfl, reserves⟩ := reserve_cases reserved
  rw [ledgered.recordsOf_eq] at isFamily isCampaign
  have there := ledgered.get_of_mem isCampaign
  obtain ⟨root, isRoot, above, familyEq⟩ := ledgered.familyMembers_eq there
  rw [named, isFamily, Except.ok.injEq] at familyEq
  subst familyEq
  obtain ⟨limit, consumed⟩ := ledgered.currentFamily_le isRoot input
  simp only at reserves
  generalize currentFamily input _ _ = current at reserves limit consumed
  generalize evaluationIdOf requestDigestOf input = evaluationId at reserves
  have evaluations := ledgered.toRooted.evaluationsOf_eq
  have inTable : ∀ a ∈ s.evaluationsOf input.tenant, s.evaluations.get a.id = some a := by
    intro a mem
    rw [evaluations] at mem
    obtain ⟨x, found⟩ := Table.mem_values.mp mem
    rwa [(ledgered.evaluated x a found).1]
  cases reserves with
  | @replay old _ found _ =>
      exact ledgered.rewriteEvaluation isRoot (inTable old found) rfl rfl rfl limit consumed
  | @secondArm old binding found _ _ _ =>
      exact ledgered.rewriteEvaluation isRoot (inTable old found) (bindArm_id _ _ _)
        (bindArm_tenant _ _ _) (bindArm_campaignId _ _ _) limit consumed
  | @fresh familyId binding absent isOpen _ inBudget _ =>
      have missing : s.evaluations.get evaluationId = none := by
        rcases found : s.evaluations.get evaluationId with _ | a
        · rfl
        · have mem : a ∈ s.evaluationsOf input.tenant := by
            rw [evaluations]
            exact Table.mem_values.mpr ⟨_, found⟩
          exact absurd (ledgered.evaluated _ a found).1 (absent a mem)
      rw [evaluations, ownSpend_eq ledgered there] at inBudget
      apply ledgered.addEvaluation { current with consumed := current.consumed + 1 } isRoot
        ((ledgered.toRooted.mem_members isRoot).mpr ⟨there, above⟩) ?_ (bindArm_tenant _ _ _)
        (bindArm_campaignId _ _ _) isOpen inBudget limit (Nat.succ_le_succ consumed)
      rw [bindArm_id]
      exact missing

/-! ## Creating -/

theorem Rooted.inFamily_iff (rooted : Rooted tenant s) (isRoot : IsRoot s root) (id : String) :
    inFamily s root.id id = true ↔ Forest.RootOf (lineage s.byId.values) id root.id := by
  rw [inFamily, decide_eq_true_eq,
    rooted.grown.mem_descendants (rooted.parentOf_root isRoot)]

theorem Rooted.mem_keys (rooted : Rooted tenant s) (id : String) :
    id ∈ Forest.keys (lineage s.byId.values) ↔ ∃ r, s.byId.get id = some r := by
  rw [keys_lineage, List.mem_map]
  constructor
  · rintro ⟨r, mem, rfl⟩
    exact ⟨r, rooted.get_of_mem mem⟩
  · rintro ⟨r, found⟩
    exact ⟨r, Table.mem_values.mpr ⟨id, found⟩, (rooted.named id r found).1⟩

/-- A campaign with no evaluation of its own has spent nothing. -/
theorem Rooted.attempts_eq_zero (rooted : Rooted tenant s) (fresh : s.byId.get id = none) :
    attempts s id = 0 := by
  apply List.countP_eq_zero.mpr
  intro a mem own
  obtain ⟨x, found⟩ := Table.mem_values.mp mem
  obtain ⟨-, -, r, there⟩ := rooted.evaluated x a found
  rw [decide_eq_true_eq.mp own, fresh] at there
  cases there

/-- A campaign joins the forest under what it continues. -/
theorem Rooted.extend (rooted : Rooted tenant s) (own : record.tenant = tenant)
    (fresh : s.byId.get record.id = none)
    (before : ∀ p, record.frame.continues = some p → ∃ r, s.byId.get p = some r)
    (byId : t.byId = s.byId.set record.id record) (evaluations : t.evaluations = s.evaluations) :
    Rooted tenant t
      ∧ lineage t.byId.values = lineage s.byId.values ++ [(record.id, record.frame.continues)] := by
  have extended : lineage t.byId.values =
      lineage s.byId.values ++ [(record.id, record.frame.continues)] := by
    rw [byId, Table.values_set_of_none fresh]
    simp [lineage]
  refine ⟨{ named := ?_, grown := ?_, evaluated := ?_ }, extended⟩
  · intro x r found
    rw [byId, Table.get_set] at found
    split at found
    · next isNew =>
        cases found
        exact ⟨isNew.symm, own⟩
    · exact rooted.named x r found
  · rw [extended]
    apply Forest.Grown.add rooted.grown
    · rw [rooted.mem_keys]
      simp [fresh]
    · intro p continues
      exact (rooted.mem_keys p).mpr (before p continues)
  · intro x a found
    rw [evaluations] at found
    obtain ⟨isId, own, r, there⟩ := rooted.evaluated x a found
    refine ⟨isId, own, ?_⟩
    rw [byId, Table.get_set]
    split
    · exact ⟨record, rfl⟩
    · exact ⟨r, there⟩

/-- Where a continuation is accepted, its family has room for its whole budget. -/
theorem Ledgered.room (ledgered : Ledgered tenant s) {predecessor : String}
    (continues : record.frame.continues = some predecessor)
    (fits : assertFamilyCapacity record s.byId.values s.evaluations.values = .ok ()) :
    ∃ root, IsRoot s root ∧ Forest.RootOf (lineage s.byId.values) predecessor root.id
      ∧ memberSum s root.id (charge s.evaluations.values) + record.frame.budget.maxRounds
        ≤ familyLimit root.frame := by
  obtain ⟨rootId, root, limit, walked, found, declared, room⟩ := capacity_cases continues fits
  have above := ledgered.grown.rootOf_eq_ok_iff.mp walked
  rw [ledgered.toRooted.findRecord_eq] at found
  have named := (ledgered.named rootId root found).1
  subst named
  have parentless := above.isRoot
  rw [parentOf_lineage, ledgered.toRooted.findRecord_eq, found, Option.map_some,
    Option.some.injEq] at parentless
  refine ⟨root, ⟨found, parentless⟩, above, ?_⟩
  simp only [familyLimit, declared]
  exact room

/-- A campaign is created open and without rounds, and a root pre-registers at least its
own budget. -/
structure Fresh (tenant : String) (record : EvolutionCampaignRecord) : Prop where
  own : record.tenant = tenant
  noRounds : record.rounds = []
  isOpen : record.state = .opened
  covers : record.frame.continues = none →
    record.frame.budget.maxRounds ≤ familyLimit record.frame

/-- A sum over an old family gains the new member's term, if it joined that family. -/
theorem memberSum_extend (f : EvolutionCampaignRecord → Nat) (rootId : String)
    (values : t.byId.values = s.byId.values ++ [record])
    (same : ∀ r ∈ s.byId.values, inFamily t rootId r.id = inFamily s rootId r.id) :
    memberSum t rootId f =
      memberSum s rootId f + if inFamily t rootId record.id then f record else 0 := by
  rw [memberSum_eq, memberSum_eq, values, List.map_append, List.sum_append]
  have before : (s.byId.values.map fun r => if inFamily t rootId r.id then f r else 0) =
      s.byId.values.map fun r => if inFamily s rootId r.id then f r else 0 := by
    apply List.map_congr_left
    intro r mem
    rw [same r mem]
  simp [before]

theorem Ledgered.create {events : List CampaignFact} (ledgered : Ledgered tenant s)
    (new : Fresh tenant record) (created : create s record events = .ok t) :
    Ledgered tenant t := by
  obtain ⟨fresh, byId, families, evaluations, fits⟩ := create_cases created
  rw [new.own, ledgered.recordsOf_eq, ledgered.evaluationsOf_eq] at fits
  have before : ∀ p, record.frame.continues = some p → ∃ r, s.byId.get p = some r := by
    intro p continues
    obtain ⟨root, -, above, -⟩ := ledgered.room continues fits
    exact (ledgered.toRooted.mem_keys p).mp above.mem_keys
  obtain ⟨rooted, extended⟩ := ledgered.toRooted.extend new.own fresh before byId evaluations
  have freshKey : record.id ∉ Forest.keys (lineage s.byId.values) := by
    rw [ledgered.toRooted.mem_keys]
    simp [fresh]
  have beforeKey : ∀ p, record.frame.continues = some p →
      p ∈ Forest.keys (lineage s.byId.values) := fun p continues =>
    (ledgered.toRooted.mem_keys p).mpr (before p continues)
  have values : t.byId.values = s.byId.values ++ [record] := by
    rw [byId, Table.values_set_of_none fresh]
  have get : ∀ x, t.byId.get x = if x = record.id then some record else s.byId.get x := by
    intro x
    rw [byId, Table.get_set]
  have other : ∀ x r, s.byId.get x = some r → x ≠ record.id := by
    rintro x r found rfl
    rw [fresh] at found
    cases found
  have sameSpent : spent t = spent s := by
    funext r
    simp [spent, attempts, evaluations]
  have nothing : spent s record = 0 := by
    simp [spent, unclaimedRounds, new.noRounds, ledgered.toRooted.attempts_eq_zero fresh]
  have stays : ∀ root, IsRoot s root → IsRoot t root := by
    rintro root ⟨there, parentless⟩
    refine ⟨?_, parentless⟩
    rw [get, if_neg (other _ root there), there]
  have family : ∀ root x, IsRoot t root → (inFamily t root.id x = true ↔
      Forest.RootOf (lineage s.byId.values) x root.id ∨ x = record.id
        ∧ (record.frame.continues = none ∧ root.id = record.id ∨ ∃ p,
          record.frame.continues = some p ∧ Forest.RootOf (lineage s.byId.values) p root.id)) := by
    intro root x isRoot
    rw [rooted.inFamily_iff isRoot, extended, ledgered.grown.rootOf_append freshKey beforeKey]
  have joins : ∀ root f, IsRoot s root → memberSum t root.id f = memberSum s root.id f
      + if inFamily t root.id record.id then f record else 0 := by
    intro root f isRoot
    apply memberSum_extend f root.id values
    intro r mem
    have notNew := other r.id r (ledgered.toRooted.get_of_mem mem)
    rw [Bool.eq_iff_iff, family root r.id (stays root isRoot),
      ledgered.toRooted.inFamily_iff isRoot]
    simp [notNew]
  refine { toRooted := rooted, claimed := ?_, within := ?_, capacity := ?_, rows := ?_ }
  · intro x r found
    rw [get] at found
    split at found
    · cases found
      simp [new.noRounds]
    · exact ledgered.claimed x r found
  · intro x r found
    rw [sameSpent]
    rw [get] at found
    split at found
    · cases found
      omega
    · exact ledgered.within x r found
  · intro root isRoot
    rw [evaluations]
    by_cases isNew : root.id = record.id
    · -- the new root has no other member
      have there := isRoot.1
      rw [get, if_pos isNew, Option.some.injEq] at there
      subst there
      have alone : ∀ r ∈ s.byId.values,
          (if inFamily t record.id r.id then charge s.evaluations.values r else 0) = 0 := by
        intro r mem
        have notNew := other r.id r (ledgered.toRooted.get_of_mem mem)
        rw [if_neg]
        rw [family record r.id isRoot]
        rintro (above | ⟨same, -⟩)
        · exact freshKey (Forest.mem_keys_iff.mpr ⟨_, above.isRoot⟩)
        · exact notNew same
      have sum : memberSum t record.id (charge s.evaluations.values) ≤
          charge s.evaluations.values record := by
        rw [memberSum_eq, values, List.map_append, List.sum_append,
          List.map_congr_left alone]
        simp
        split <;> omega
      rw [charge_eq, if_pos new.isOpen] at sum
      exact Nat.le_trans sum (new.covers isRoot.2)
    · have wasRoot : IsRoot s root := by
        have there := isRoot.1
        rw [get, if_neg isNew] at there
        exact ⟨there, isRoot.2⟩
      have room := ledgered.capacity root wasRoot
      rw [joins root _ wasRoot]
      split
      · next joined =>
          rw [family root record.id isRoot] at joined
          rcases joined with above | ⟨-, ⟨-, same⟩ | ⟨p, continues, above⟩⟩
          · exact absurd above.mem_keys freshKey
          · exact absurd same isNew
          · obtain ⟨found, isFound, aboveFound, room⟩ := ledgered.room continues fits
            obtain rfl : root = found := by
              have there := wasRoot.1
              rw [above.unique aboveFound, isFound.1] at there
              exact (Option.some.inj there).symm
            rw [charge_eq, if_pos new.isOpen]
            exact room
      · exact room
  · intro key f found
    rw [families] at found
    obtain ⟨root, isRoot, isKey, limit, consumed⟩ := ledgered.rows key f found
    refine ⟨root, stays root isRoot, isKey, limit, ?_⟩
    rw [joins root _ isRoot, sameSpent]
    omega

end Everdict.Evolution
