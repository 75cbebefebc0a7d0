import Everdict.Evolution.Settle
import Everdict.Evolution.WinningRounds

/-!
# A campaign's endings

Where the rounds end a campaign, they end every extension of it: the gate never adopts
past an ending.  A campaign that may log no further round can adopt or close, except when
its last budgeted round won without the identity its frame demands.
-/

namespace Everdict.Evolution

section scan

variable {contentDigest : NonInferiorityPolicy → String} {frame : CampaignFrame}
  {rounds later : List CampaignRound} {latest : CampaignRound} {stop : CampaignStop}
  {i streak : Nat}

/-! ## The scan of the rounds -/

/-- The streak of rejections after a round. -/
def streakAfter (contentDigest : NonInferiorityPolicy → String) (frame : CampaignFrame)
    (streak : Nat) (round : CampaignRound) : Nat :=
  if winning contentDigest round frame then 0 else streak + 1

theorem firstStop_cons {r : CampaignRound} :
    firstStop contentDigest frame i streak (r :: rounds) =
      (ruleAt frame i (streakAfter contentDigest frame streak r)
        (winning contentDigest r frame)).or
        (firstStop contentDigest frame (i + 1) (streakAfter contentDigest frame streak r)
          rounds) := by
  simp only [firstStop, streakAfter]
  split <;> simp_all

/-- A stop stands whatever is logged after it. -/
theorem firstStop_append (stopped : firstStop contentDigest frame i streak rounds = some stop) :
    firstStop contentDigest frame i streak (rounds ++ later) = some stop := by
  induction rounds generalizing i streak with
  | nil => cases stopped
  | cons r rounds ih =>
      rw [List.cons_append, firstStop_cons]
      rw [firstStop_cons] at stopped
      rcases Option.or_eq_some_iff.mp stopped with fired | ⟨quiet, stopped⟩
      · simp [fired]
      · simp [quiet, ih stopped]

/-- A scan that reaches the last budgeted round without stopping has seen it win. -/
theorem latest_won (live : firstStop contentDigest frame i streak (rounds ++ [latest]) = none)
    (full : frame.budget.maxRounds ≤ i + rounds.length + 1) :
    winning contentDigest latest frame = true := by
  induction rounds generalizing i streak with
  | nil =>
      rw [List.nil_append, firstStop_cons] at live
      have quiet := (Option.or_eq_none_iff.mp live).1
      simp only [List.length_nil, Nat.add_zero] at full
      by_contra lost
      rw [Bool.not_eq_true] at lost
      simp only [ruleAt, lost, full, Bool.not_false, and_self, if_true] at quiet
      split at quiet <;> cases quiet
  | cons r rounds ih =>
      rw [List.cons_append, firstStop_cons] at live
      apply ih (Option.or_eq_none_iff.mp live).2
      simp only [List.length_cons] at full
      omega

/-- A win never stops a scan. -/
theorem firstStop_append_win (live : firstStop contentDigest frame i streak rounds = none)
    (won : winning contentDigest latest frame = true) :
    firstStop contentDigest frame i streak (rounds ++ [latest]) = none := by
  induction rounds generalizing i streak with
  | nil =>
      have positive := frame.stopAfterSome
      have above : ¬frame.stopAfterRejectedRounds ≤ 0 := by omega
      simp [firstStop_cons, firstStop, ruleAt, streakAfter, won, above]
  | cons r rounds ih =>
      rw [firstStop_cons] at live
      rw [List.cons_append, firstStop_cons]
      have quiet := Option.or_eq_none_iff.mp live
      exact Option.or_eq_none_iff.mpr ⟨quiet.1, ih quiet.2⟩

/-! ## The ending -/

variable {spend : CampaignSpend}

theorem firstStop_of_live
    (live : campaignStoppedAt contentDigest frame rounds spend = none) :
    firstStop contentDigest frame 0 0 rounds = none := by
  unfold campaignStoppedAt at live
  split at live
  · cases live
  · assumption

theorem stopped_of_firstStop
    (stopped : firstStop contentDigest frame 0 0 rounds = some stop) :
    campaignStoppedAt contentDigest frame rounds spend = some stop := by
  simp [campaignStoppedAt, stopped]

/-- With a spend that counts rounds only, an ending is one the scan of the rounds finds. -/
theorem firstStop_of_roundsOnly
    (stopped : (campaignStoppedAt contentDigest frame rounds (roundsOnlySpend rounds)).isSome) :
    ∃ stop, firstStop contentDigest frame 0 0 rounds = some stop := by
  rcases scanned : firstStop contentDigest frame 0 0 rounds with _ | stop
  · rcases List.eq_nil_or_concat rounds with none | ⟨init, latest, eq⟩
    · subst none
      have positive := frame.budget.positive
      simp [campaignStoppedAt, scanned, roundsOnlySpend] at stopped
      omega
    · rw [List.concat_eq_append] at eq
      subst eq
      have full : frame.budget.maxRounds ≤ 0 + init.length + 1 := by
        by_contra short
        have short : ¬frame.budget.maxRounds ≤ init.length + 1 := by omega
        simp [campaignStoppedAt, scanned, roundsOnlySpend, short] at stopped
      have won := latest_won scanned full
      simp [campaignStoppedAt, scanned, won] at stopped
  · exact ⟨stop, rfl⟩

theorem live_of_won (scanned : firstStop contentDigest frame 0 0 rounds = none)
    (isLatest : rounds.getLast? = some latest)
    (won : winning contentDigest latest frame = true) :
    campaignStoppedAt contentDigest frame rounds spend = none := by
  simp [campaignStoppedAt, scanned, isLatest, won]

theorem refusal_eq_none_iff :
    campaignRoundRefusal contentDigest frame rounds spend = none ↔
      campaignStoppedAt contentDigest frame rounds spend = none
        ∧ rounds.length < frame.budget.maxRounds := by
  unfold campaignRoundRefusal
  rcases campaignStoppedAt contentDigest frame rounds spend with _ | stop
  · simp
  · simp

/-! ## The kinds of answers -/

inductive AnswerKind where
  | adopt
  | continue (roundsLeft : Nat)
  | halt (reason : HaltReason)
  deriving DecidableEq

def CampaignGateAnswer.kind : CampaignGateAnswer → AnswerKind
  | .adopt .. => .adopt
  | .continue roundsLeft _ _ => .continue roundsLeft
  | .halt reason _ _ => .halt reason

theorem kind_campaignAdoption :
    (campaignAdoption contentDigest frame rounds spend).kind =
      (decideAdoption contentDigest frame rounds spend).kind := by
  unfold campaignAdoption
  rcases neverSolvedAcross frame rounds with _ | never
  · rfl
  cases decideAdoption contentDigest frame rounds spend <;>
    by_cases unproven : frame.examProvenBy.isNone <;>
    simp [unproven, CampaignGateAnswer.explained, CampaignGateAnswer.withNeverSolved,
      CampaignGateAnswer.kind]

/-- The axes and the bytes of the winner are verified, or the frame waived them. -/
structure IdentityCleared (frame : CampaignFrame) (verdict : RoundVerdict) : Prop where
  axes : verdict.unverifiedAxes = [] ∨ frame.allowUnverifiedIdentity = true
  bytes : verdict.candidateSpecDigest.isSome = true ∨ frame.allowLabelOnlyAdoption = true

variable (frame rounds stop spend) in
/-- A stopped campaign is halted at an ending. -/
theorem kind_endedAnswer :
    ∃ reason ending, (endedAnswer frame rounds spend stop).kind = .halt reason
      ∧ endingOf reason = some ending := by
  unfold endedAnswer
  rcases examInertness rounds with _ | inert
  · rcases stop.reason with _ | _
    · exact ⟨.noImprovement, .noImprovement, rfl, rfl⟩
    · exact ⟨.budgetExhausted, .budgetExhausted, rfl, rfl⟩
  · exact ⟨.examInert, .examInert, rfl, rfl⟩

theorem identityCleared_iff {verdict : RoundVerdict} :
    IdentityCleared frame verdict ↔
      ¬(0 < verdict.unverifiedAxes.length ∧ (!frame.allowUnverifiedIdentity) = true)
        ∧ ¬(verdict.candidateSpecDigest.isNone = true
          ∧ (!frame.allowLabelOnlyAdoption) = true) := by
  have axes : verdict.unverifiedAxes = [] ↔ ¬0 < verdict.unverifiedAxes.length := by
    rw [List.length_pos_iff, not_not]
  have bytes : verdict.candidateSpecDigest.isSome = true
      ↔ ¬verdict.candidateSpecDigest.isNone = true := by
    cases verdict.candidateSpecDigest <;> simp
  constructor
  · rintro ⟨clearedAxes, clearedBytes⟩
    rw [axes] at clearedAxes
    rw [bytes] at clearedBytes
    simp only [Bool.not_eq_true']
    grind
  · intro ⟨clearedAxes, clearedBytes⟩
    refine ⟨?_, ?_⟩
    · rw [axes]
      grind
    · rw [bytes]
      grind

variable (frame latest) in
theorem kind_winnerAnswer :
    (winnerAnswer frame latest).kind = .adopt ∧ IdentityCleared frame latest.verdict
      ∨ (winnerAnswer frame latest).kind = .halt .identityUnverified
        ∧ ¬IdentityCleared frame latest.verdict := by
  rw [identityCleared_iff]
  unfold winnerAnswer
  by_cases unverified :
    0 < latest.verdict.unverifiedAxes.length ∧ (!frame.allowUnverifiedIdentity) = true
  · simp [unverified, CampaignGateAnswer.kind]
  by_cases unnamed : latest.verdict.candidateSpecDigest.isNone = true
      ∧ (!frame.allowLabelOnlyAdoption) = true
  · simp only [unverified, unnamed, if_true, if_false, and_self, CampaignGateAnswer.kind]
    simp
  · simp only [unverified, unnamed, if_false, CampaignGateAnswer.kind]
    simp

variable (contentDigest frame rounds spend) in
/-- Everything the gate can answer, by what the campaign's trace is. -/
theorem kind_cases :
    (∃ reason ending, (campaignStoppedAt contentDigest frame rounds spend).isSome
        ∧ (campaignAdoption contentDigest frame rounds spend).kind = .halt reason
        ∧ endingOf reason = some ending)
    ∨ campaignStoppedAt contentDigest frame rounds spend = none
      ∧ frame.budget.maxRounds < rounds.length
      ∧ (campaignAdoption contentDigest frame rounds spend).kind = .halt .budgetExhausted
    ∨ (∃ latest, campaignStoppedAt contentDigest frame rounds spend = none
        ∧ rounds.length ≤ frame.budget.maxRounds ∧ rounds.getLast? = some latest
        ∧ winning contentDigest latest frame = true
        ∧ (campaignAdoption contentDigest frame rounds spend).kind =
          (winnerAnswer frame latest).kind)
    ∨ campaignStoppedAt contentDigest frame rounds spend = none
      ∧ rounds.length ≤ frame.budget.maxRounds
      ∧ (∀ latest, rounds.getLast? = some latest → winning contentDigest latest frame = false)
      ∧ (campaignAdoption contentDigest frame rounds spend).kind =
        .continue (frame.budget.maxRounds - max spend.consumed rounds.length) := by
  rw [kind_campaignAdoption]
  unfold decideAdoption
  rcases ended : campaignStoppedAt contentDigest frame rounds spend with _ | stop
  · right
    by_cases exceeded : frame.budget.maxRounds < rounds.length
    · left
      simp [exceeded, CampaignGateAnswer.kind]
    · right
      have within : rounds.length ≤ frame.budget.maxRounds := by omega
      rcases won : rounds.getLast?.filter (fun latest => winning contentDigest latest frame)
        with _ | latest
      · right
        refine ⟨rfl, within, ?_, by simp [exceeded, CampaignGateAnswer.kind]⟩
        intro latest isLatest
        simpa using Option.filter_eq_none_iff.mp won latest isLatest
      · left
        obtain ⟨isLatest, won⟩ := Option.filter_eq_some_iff.mp won
        exact ⟨latest, rfl, within, isLatest, won, by simp [exceeded]⟩
  · left
    obtain ⟨reason, ending, kind, ends⟩ := kind_endedAnswer frame rounds stop spend
    exact ⟨reason, ending, rfl, kind, ends⟩

/-! ## No adoption past an ending -/

variable (later spend) in
theorem stopped_append
    (stopped : (campaignStoppedAt contentDigest frame rounds (roundsOnlySpend rounds)).isSome) :
    (campaignStoppedAt contentDigest frame (rounds ++ later) spend).isSome := by
  obtain ⟨stop, scanned⟩ := firstStop_of_roundsOnly stopped
  rw [stopped_of_firstStop (firstStop_append scanned)]
  rfl

theorem kind_of_stopped
    (stopped : (campaignStoppedAt contentDigest frame rounds spend).isSome) :
    ∃ reason ending, (campaignAdoption contentDigest frame rounds spend).kind = .halt reason
      ∧ endingOf reason = some ending := by
  rcases kind_cases contentDigest frame rounds spend with ended | ⟨live, -⟩ | ⟨_, live, -⟩ | ⟨live, -⟩
  · obtain ⟨reason, ending, -, kind, ends⟩ := ended
    exact ⟨reason, ending, kind, ends⟩
  all_goals
    rw [live] at stopped
    cases stopped

theorem cleared_of_adopt
    (adopts : (campaignAdoption contentDigest frame rounds spend).kind = .adopt) :
    rounds.length ≤ frame.budget.maxRounds
      ∧ ∃ latest, rounds.getLast? = some latest ∧ Wins contentDigest frame latest.verdict
        ∧ IdentityCleared frame latest.verdict := by
  rcases kind_cases contentDigest frame rounds spend with ⟨_, _, _, kind, _⟩ | ⟨_, _, kind⟩ | won | ⟨_, _, _, kind⟩
  · rw [adopts] at kind
    cases kind
  · rw [adopts] at kind
    cases kind
  · obtain ⟨latest, -, within, isLatest, won, kind⟩ := won
    rcases kind_winnerAnswer frame latest with ⟨-, cleared⟩ | ⟨halts, -⟩
    · exact ⟨within, latest, isLatest, winning_iff.mp won, cleared⟩
    · rw [adopts, halts] at kind
      cases kind
  · rw [adopts] at kind
    cases kind

theorem allowed_of_continue {roundsLeft : Nat}
    (continues : (campaignAdoption contentDigest frame rounds spend).kind = .continue roundsLeft)
    (left : 0 < roundsLeft) : campaignRoundRefusal contentDigest frame rounds spend = none := by
  rcases kind_cases contentDigest frame rounds spend with ⟨_, _, _, kind, _⟩ | ⟨_, _, kind⟩ | won | ⟨live, _, _, kind⟩
  · rw [continues] at kind
    cases kind
  · rw [continues] at kind
    cases kind
  · obtain ⟨latest, -, -, -, -, kind⟩ := won
    rcases kind_winnerAnswer frame latest with ⟨adopts, -⟩ | ⟨halts, -⟩
    · rw [continues, adopts] at kind
      cases kind
    · rw [continues, halts] at kind
      cases kind
  · rw [continues, AnswerKind.continue.injEq] at kind
    rw [refusal_eq_none_iff]
    exact ⟨live, by omega⟩

/-! ## A campaign that may log no further round -/

/-- The round lists each of whose appends was allowed at the time, whatever the spend
was then. -/
inductive Built (contentDigest : NonInferiorityPolicy → String) (frame : CampaignFrame) :
    List CampaignRound → Prop
  | nil : Built contentDigest frame []
  | append {rounds : List CampaignRound} (spend : CampaignSpend) (round : CampaignRound)
      (built : Built contentDigest frame rounds)
      (allowed : campaignRoundRefusal contentDigest frame rounds spend = none) :
      Built contentDigest frame (rounds ++ [round])

/-- An answer the campaign can end on: an adoption, or a halt that is an ending. -/
def Ends : AnswerKind → Prop
  | .adopt => True
  | .continue _ => False
  | .halt reason => (endingOf reason).isSome

/-- The answers a campaign can end on are those `settle` accepts. -/
theorem settles_iff_ends {answerDigest : CampaignGateAnswer → String}
    {record : EvolutionCampaignRecord} {closedBy : String} (isOpen : record.state = .opened)
    (eligible : campaignFrameDefects record.frame = []) :
    (∃ settlement,
        settle contentDigest answerDigest record spend closedBy = .ok settlement) ↔
      Ends (campaignAdoption contentDigest record.frame record.rounds spend).kind := by
  have settles : settle contentDigest answerDigest record spend closedBy =
      settlementOf answerDigest record closedBy
        (campaignAdoption contentDigest record.frame record.rounds spend) := by
    simp [settle, isOpen, eligible]
  rw [settles]
  rcases answer : campaignAdoption contentDigest record.frame record.rounds spend with
    ⟨version, scorecard, axes, digest, source, never⟩ | ⟨left, rejected, never⟩
      | ⟨reason, detail, never⟩
  · have adopts : (campaignAdoption contentDigest record.frame record.rounds spend).kind =
        .adopt := by
      rw [answer]
      rfl
    obtain ⟨-, latest, isLatest, -⟩ := cleared_of_adopt adopts
    simp [settlementOf, adoptionProofOf, isLatest, Ends, CampaignGateAnswer.kind]
  · simp [settlementOf, Ends, CampaignGateAnswer.kind]
  · rcases ends : endingOf reason with _ | ending <;>
      simp [settlementOf, Ends, CampaignGateAnswer.kind, ends]

/-- The last budgeted round won, and the frame waives neither the axes nor the bytes it
could not verify. -/
def Stranded (contentDigest : NonInferiorityPolicy → String) (frame : CampaignFrame)
    (rounds : List CampaignRound) : Prop :=
  rounds.length = frame.budget.maxRounds
    ∧ ∃ latest, rounds.getLast? = some latest ∧ winning contentDigest latest frame = true
      ∧ ¬IdentityCleared frame latest.verdict

theorem Built.length_le (built : Built contentDigest frame rounds) :
    rounds.length ≤ frame.budget.maxRounds := by
  cases built with
  | nil => exact Nat.zero_le _
  | append spend round built allowed =>
      have short := (refusal_eq_none_iff.mp allowed).2
      rw [List.length_append, List.length_singleton]
      omega

variable (spend) in
/-- A built list that won its last round was never stopped. -/
theorem Built.live_of_won (built : Built contentDigest frame rounds)
    (isLatest : rounds.getLast? = some latest)
    (won : winning contentDigest latest frame = true) :
    campaignStoppedAt contentDigest frame rounds spend = none := by
  cases built with
  | nil => cases isLatest
  | append spend round built allowed =>
      have scanned := firstStop_of_live (refusal_eq_none_iff.mp allowed).1
      have same : round = latest := by simpa using isLatest
      subst same
      exact Evolution.live_of_won (firstStop_append_win scanned won) isLatest won

/-- A built list at its budget that was not stopped won its last round. -/
theorem latest_of_full
    (live : campaignStoppedAt contentDigest frame rounds spend = none)
    (full : frame.budget.maxRounds ≤ rounds.length) :
    ∃ latest, rounds.getLast? = some latest ∧ winning contentDigest latest frame = true := by
  have scanned := firstStop_of_live live
  rcases List.eq_nil_or_concat rounds with none | ⟨init, latest, eq⟩
  · subst none
    have positive := frame.budget.positive
    rw [List.length_nil] at full
    omega
  · rw [List.concat_eq_append] at eq
    subst eq
    rw [List.length_append, List.length_singleton] at full
    exact ⟨latest, by simp, latest_won scanned (by omega)⟩

theorem kind_of_winner (live : campaignStoppedAt contentDigest frame rounds spend = none)
    (within : rounds.length ≤ frame.budget.maxRounds) (isLatest : rounds.getLast? = some latest)
    (won : winning contentDigest latest frame = true) :
    (campaignAdoption contentDigest frame rounds spend).kind =
      (winnerAnswer frame latest).kind := by
  rcases kind_cases contentDigest frame rounds spend with ⟨_, _, stopped, -⟩ | ⟨_, exceeded, -⟩ | found | ⟨_, _, lost, -⟩
  · rw [live] at stopped
    cases stopped
  · omega
  · obtain ⟨other, -, -, isOther, -, kind⟩ := found
    obtain rfl : other = latest := Option.some.inj (isOther.symm.trans isLatest)
    exact kind
  · rw [lost latest isLatest] at won
    cases won

end scan

/-! ## The gate and its endings -/

/-- A campaign of one round, of two held-out cases, that waives nothing. -/
def oneRoundFrame : CampaignFrame where
  subject := { type := .harness, id := "coder", baselineVersion := "1.0.0" }
  scenarios := [{ id := "a", heldOut := true }, { id := "b", heldOut := true }]
  trialsPerCase := 5
  budget := { maxRounds := 1, positive := by decide }
  stopAfterRejectedRounds := 3
  stopAfterSome := by decide
  significance := { fdrAlpha := some (1 / 20), heldOutFamilySize := some 1 }

/-- A round that improved a held-out case and regressed none, on the axes given. -/
def improvedRound (unverifiedAxes : List String) : CampaignRound where
  seq := 1
  candidateVersion := "1.1.0"
  baselineScorecardId := "sc-1"
  candidateScorecardId := "sc-2"
  verdict := {
    comparable := true
    heldOut := some { improvements := 1, regressions := 0 }
    candidateSpecDigest := some "sha256:00"
    unverifiedAxes := unverifiedAxes }

end Everdict.Evolution
