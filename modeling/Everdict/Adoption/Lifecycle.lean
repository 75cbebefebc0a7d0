import Everdict.Adoption.Service

/-!
# The life of an adoption

What the facts of one campaign may tell, and the operation they leave: the campaign opens,
closes, and an adoption is then registered, and after that merged and completed, in either
order.  `Told` is the story, `Told.tells` reads an operation off it, and `Older` compares an
operation that a call has in hand with the row it came from.
-/

namespace Everdict.Adoption

open Evolution

inductive FactKind where
  | opened
  | closed
  | registered
  | merged
  | completed
  deriving DecidableEq

def kindOf : CampaignFact → FactKind
  | .opened .. => .opened
  | .closed .. => .closed
  | .adoptionRegistered .. => .registered
  | .adoptionMerged .. => .merged
  | .adoptionCompleted .. => .completed

def campaignOf : CampaignFact → String
  | .opened id | .closed id _ | .adoptionRegistered id .. | .adoptionMerged id ..
  | .adoptionCompleted id .. => id

/-- The merge and the completion follow the registration, in either order. -/
def FactKind.rank : FactKind → Nat
  | .opened => 0
  | .closed => 1
  | .registered => 2
  | .merged | .completed => 3

def stage : AdoptionOperationState → Nat
  | .decided => 0
  | .registered => 1
  | .completed => 2

/-- Has the code debt been paid? -/
def isMerged (op : AdoptionOperation) : Bool := op.code.any (·.merged)

/-- The mark an operation allows, and the fact it tells. -/
inductive Spends (op : AdoptionOperation) : Mark → CampaignFact → Prop
  | registered (created : Bool) : op.state = .decided →
      Spends op (.registered op.proof.candidate.version)
        (.adoptionRegistered op.proof.campaignId { op.proof.candidate with specDigest := none }
          op.proof.provingScorecardId op.proof.issueId created)
  | merged {debt : AdoptionCodeDebt} (sha : String) : op.state ≠ .decided →
      op.code = some debt → debt.merged = false →
      Spends op (.merged sha) (mergedFact op.proof.campaignId op.proof debt sha)
  | completed : op.state = .registered → Spends op .completed (completionFact op)

/-- An operation as a close writes it. -/
structure Decided (id : String) (op : AdoptionOperation) : Prop where
  campaign : op.proof.campaignId = id
  state : op.state = .decided
  version : op.registeredVersion = none
  owed : isMerged op = false

/-- The facts of a campaign and the operation they leave. -/
inductive Told (id : String) : List CampaignFact → Option AdoptionOperation → Prop
  | unborn : Told id [] none
  | opened : Told id [.opened id] none
  | halted (reason : HaltedState) : Told id [.opened id, .closed id (.halted reason)] none
  | adopted {op : AdoptionOperation} : Decided id op →
      Told id [.opened id, .closed id .adopted] (some op)
  | marked {facts : List CampaignFact} {op : AdoptionOperation} {mark : Mark}
      {fact : CampaignFact} : Told id facts (some op) → Spends op mark fact →
      Told id (facts ++ [fact]) (some (mark.apply op op))

/-! ## Reading the story -/

/-- What the facts say of the operation. -/
structure Tells (id : String) (facts : List CampaignFact) (op : AdoptionOperation) : Prop where
  campaign : op.proof.campaignId = id
  registered : FactKind.registered ∈ facts.map kindOf ↔ op.state ≠ .decided
  merged : FactKind.merged ∈ facts.map kindOf ↔ isMerged op = true
  completed : FactKind.completed ∈ facts.map kindOf ↔ op.state = .completed
  /-- The registered version is the proof's. -/
  version : op.registeredVersion =
    if op.state = .decided then none else some op.proof.candidate.version
  mergedLast : isMerged op = true → op.state ≠ .decided
  below : ∀ f ∈ facts, op.state = .decided → (kindOf f).rank ≤ 1
  /-- Each kind of fact at most once, in their order. -/
  ordered : facts.Pairwise fun f g => kindOf f ≠ kindOf g ∧ (kindOf f).rank ≤ (kindOf g).rank

variable {id : String} {facts : List CampaignFact} {op row : AdoptionOperation} {mark : Mark}
  {fact : CampaignFact}

theorem Decided.tells (decided : Decided id op) :
    Tells id [.opened id, .closed id .adopted] op where
  campaign := decided.campaign
  registered := by simp [kindOf, decided.state]
  merged := by simp [kindOf, decided.owed]
  completed := by simp [kindOf, decided.state]
  version := by rw [decided.version, if_pos decided.state]
  mergedLast := by simp [decided.owed]
  below := by simp [kindOf, FactKind.rank]
  ordered := by simp [kindOf, FactKind.rank]

theorem rank_le_three (kind : FactKind) : kind.rank ≤ 3 := by
  cases kind <;> decide

/-- A fact of a new kind that nothing outranks goes at the end. -/
theorem ordered_concat
    (ordered : facts.Pairwise fun f g =>
      kindOf f ≠ kindOf g ∧ (kindOf f).rank ≤ (kindOf g).rank)
    (fresh : kindOf fact ∉ facts.map kindOf)
    (last : ∀ f ∈ facts, (kindOf f).rank ≤ (kindOf fact).rank) :
    (facts ++ [fact]).Pairwise fun f g =>
      kindOf f ≠ kindOf g ∧ (kindOf f).rank ≤ (kindOf g).rank := by
  refine List.pairwise_append.mpr ⟨ordered, List.pairwise_singleton _ _, ?_⟩
  intro f inside g isLast
  obtain rfl := List.mem_singleton.mp isLast
  refine ⟨fun same => fresh ?_, last f inside⟩
  exact List.mem_map.mpr ⟨f, inside, same⟩

theorem Tells.marked (tells : Tells id facts op) (spends : Spends op mark fact) :
    Tells id (facts ++ [fact]) (mark.apply op op) := by
  have registered := tells.registered
  have merged := tells.merged
  have completed := tells.completed
  cases spends with
  | registered created isDecided =>
      have owed : isMerged op = false := by
        by_contra paid
        exact tells.mergedLast (by simpa using paid) isDecided
      have unmerged : isMerged (Mark.apply op op (.registered op.proof.candidate.version))
          = false := owed
      refine ⟨tells.campaign, ?_, ?_, ?_, ?_, ?_, ?_, ?_⟩
      · simp [kindOf, Mark.apply]
      · rw [unmerged, ← owed, ← merged]
        simp [kindOf]
      · simp [isDecided] at completed
        simpa [kindOf, Mark.apply] using completed
      · simp [Mark.apply]
      · simp [Mark.apply]
      · simp [Mark.apply]
      · refine ordered_concat tells.ordered ?_ ?_
        · rw [show kindOf _ = FactKind.registered from rfl, registered]
          exact not_not_intro isDecided
        · intro f inside
          exact (tells.below f inside isDecided).trans (Nat.le_succ 1)
  | @merged debt sha spent owes unpaid =>
      have owed : isMerged op = false := by simp [isMerged, owes, unpaid]
      have isPaid : isMerged (Mark.apply op op (.merged sha)) = true := by
        simp [isMerged, Mark.apply, owes, paid]
      refine ⟨tells.campaign, ?_, ?_, ?_, tells.version, fun _ => spent, ?_, ?_⟩
      · simpa [kindOf, mergedFact, Mark.apply] using registered
      · simp [kindOf, mergedFact, isPaid]
      · simpa [kindOf, mergedFact, Mark.apply] using completed
      · exact fun _ _ isDecided => absurd isDecided spent
      · refine ordered_concat tells.ordered ?_ fun f _ => rank_le_three _
        rw [show kindOf (mergedFact _ _ _ _) = FactKind.merged from rfl, merged, owed]
        exact Bool.false_ne_true
  | completed isRegistered =>
      refine ⟨tells.campaign, ?_, ?_, ?_, ?_, ?_, ?_, ?_⟩
      · simpa [kindOf, completionFact, Mark.apply, isRegistered] using registered
      · have same : isMerged (Mark.apply op op .completed) = isMerged op := rfl
        rw [same, ← merged]
        simp [kindOf, completionFact]
      · simp [kindOf, completionFact, Mark.apply]
      · have version := tells.version
        simpa [Mark.apply, isRegistered] using version
      · simp [Mark.apply]
      · simp [Mark.apply]
      · refine ordered_concat tells.ordered ?_ fun f _ => rank_le_three _
        rw [show kindOf (completionFact _) = FactKind.completed from rfl, completed, isRegistered]
        decide

theorem Told.tells {row : Option AdoptionOperation} (told : Told id facts row) :
    ∀ op, row = some op → Tells id facts op := by
  induction told with
  | unborn | opened | halted => exact fun op none => by cases none
  | adopted decided =>
      rintro op ⟨⟩
      exact decided.tells
  | marked _ spends ih =>
      rintro op ⟨⟩
      exact (ih _ rfl).marked spends

/-- Without an operation a campaign opens and closes, and no more. -/
theorem Told.short {row : Option AdoptionOperation} (told : Told id facts row)
    (none : row = none) : facts.length ≤ 2 := by
  cases told with
  | unborn | opened | halted => simp
  | adopted | marked => cases none

/-! ## An operation in hand -/

/-- What of a debt no mark changes. -/
def coordinates (debt : AdoptionCodeDebt) : String × Int × Option String :=
  (debt.repo, debt.prNumber, debt.sha)

/-- A row and an earlier state of it. -/
structure Older (op row : AdoptionOperation) : Prop where
  proof : row.proof = op.proof
  tenant : row.tenant = op.tenant
  state : stage op.state ≤ stage row.state
  version : ∀ v, op.registeredVersion = some v → row.registeredVersion = some v
  owes : row.code.map coordinates = op.code.map coordinates
  paid : isMerged op = true → row.code = op.code

theorem Older.refl (op : AdoptionOperation) : Older op op where
  proof := rfl
  tenant := rfl
  state := le_rfl
  version := fun _ eq => eq
  owes := rfl
  paid := fun _ => rfl

theorem Older.trans {later : AdoptionOperation} (first : Older op row) (second : Older row later) :
    Older op later where
  proof := second.proof.trans first.proof
  tenant := second.tenant.trans first.tenant
  state := first.state.trans second.state
  version := fun v eq => second.version v (first.version v eq)
  owes := second.owes.trans first.owes
  paid := by
    intro merged
    have same := first.paid merged
    exact (second.paid (by rw [isMerged, same]; exact merged)).trans same

theorem stage_le_two (state : AdoptionOperationState) : stage state ≤ 2 := by
  cases state <;> decide

theorem Spends.older (told : Told id facts (some op)) (spends : Spends op mark fact) :
    Older op (mark.apply op op) := by
  have version := (told.tells op rfl).version
  cases spends with
  | registered created isDecided =>
      refine ⟨rfl, rfl, ?_, ?_, rfl, fun _ => rfl⟩
      · rw [isDecided]
        exact Nat.zero_le _
      · simp [version, isDecided]
  | @merged debt sha spent owes unpaid =>
      refine ⟨rfl, rfl, le_rfl, fun _ eq => eq, ?_, ?_⟩
      · simp [Mark.apply, owes, paid, coordinates]
      · simp [isMerged, owes, unpaid]
  | completed isRegistered =>
      exact ⟨rfl, rfl, stage_le_two _, fun _ eq => eq, rfl, fun _ => rfl⟩

end Everdict.Adoption
