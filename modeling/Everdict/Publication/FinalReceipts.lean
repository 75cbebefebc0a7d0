import Everdict.Publication.Drains
import Mathlib.Logic.Relation

/-!
# Published is final, under one claim

A step of the machine is a chain of small moves (`Move`): one card, one row or one drain
changes.  Each keeps the invariant (`Invariant.move`), no move takes a closed row back and no
move lowers a receipt's revision (`Move.held`).

Two steps of the code are not such chains.  A release asks for the owner alone, so a drain
that outlived its lease takes back the row that another drain of the same publisher id has
closed.  And a drain whose claim was taken over goes on with its effects.  `guarded` is the
condition that neither happens.
-/

namespace Everdict.Publication

open Attempt (ScorecardStatus)
open Relation (ReflTransGen)
open Transition (Machine)

/-! ## What is asked -/

/-- Every later claim is of another operation. -/
def World.HoldsLatestClaim (w : World) (k : Nat) : Prop :=
  ∃ drain, w.drains[k]? = some drain ∧
    ∀ j later, k < j → w.drains[j]? = some later → later.operation.id ≠ drain.operation.id

/-- What a later state keeps of an earlier one. -/
structure Held (w w' : World) : Prop where
  closed : ∀ id row, w.operations.get id = some row → row.state.closed = true →
    ∃ row', w'.operations.get id = some row' ∧ row'.state = row.state
  receipt : ∀ id card, w.cards.get id = some card →
    ∃ card', w'.cards.get id = some card' ∧ card.exportRevision ≤ card'.exportRevision

theorem Held.refl (w : World) : Held w w :=
  ⟨fun _ row found _ => ⟨row, found, rfl⟩, fun _ card found => ⟨card, found, le_rfl⟩⟩

theorem Held.trans {w w' w'' : World} (first : Held w w') (second : Held w' w'') :
    Held w w'' := by
  constructor
  · intro id row found closed
    obtain ⟨row', found', same⟩ := first.closed id row found closed
    obtain ⟨row'', found'', same'⟩ := second.closed id row' found' (by rw [same, closed])
    exact ⟨row'', found'', same'.trans same⟩
  · intro id card found
    obtain ⟨card', found', le⟩ := first.receipt id card found
    obtain ⟨card'', found'', le'⟩ := second.receipt id card' found'
    exact ⟨card'', found'', le.trans le'⟩

/-- No claim is granted while an earlier drain of the operation has an effect to start, and
no release finds its owner's row closed. -/
def guarded (backend : Backend) (w : World) : Event → Bool
  | .claim id owner leaseSeconds now _ =>
      !((w.operations.get id).bind (backend.claim · owner leaseSeconds now)).isSome ||
        w.drains.all fun drain => drain.operation.id ≠ id || !drain.phase.mayStart
  | .release k _ =>
      w.drains[k]?.all fun drain =>
        (w.operations.get drain.operation.id).all fun row =>
          row.claimedBy ≠ some drain.owner || !row.state.closed
  | _ => true

/-! ## Small moves -/

/-- What one write makes of a card. -/
structure CardMove (card card' : Card) : Prop where
  status : card.status = .succeeded → card'.status = .succeeded
  grows : card.exportRevision ≤ card'.exportRevision
  decided : card'.exportRevision ≠ 0 → card'.status = .succeeded

def World.Decided (w : World) (scorecardId : String) : Prop :=
  ∃ card, w.cards.get scorecardId = some card ∧ card.status = .succeeded

inductive Move (w : World) : World → Prop
  | create {id : String} (fresh : w.cards.get id = none) :
      Move w { w with cards := w.cards.set id { status := .queued } }
  | card {id : String} {card card' : Card} (found : w.cards.get id = some card)
      (move : CardMove card card') : Move w { w with cards := w.cards.set id card' }
  | opened {operation : PublicationOperation} (fresh : w.operations.get operation.id = none)
      (decided : w.Decided operation.settlement.scorecardId) :
      Move w { w with operations := w.operations.set operation.id operation }
  | row {id : String} {row next : PublicationOperation} (found : w.operations.get id = some row)
      (same : SameDecision row next) (final : row.state.closed = true → next.state = row.state) :
      Move w { w with operations := w.operations.set id next }
  | claimed {drain : Drain}
      (found : w.operations.get drain.operation.id = some drain.operation)
      (sole : ∀ earlier ∈ w.drains, earlier.operation.id = drain.operation.id →
        earlier.phase.mayStart = false) :
      Move w { w with drains := w.drains ++ [drain] }
  | phase {k : Nat} {drain : Drain} {phase : Phase} (found : w.drains[k]? = some drain)
      (fewer : phase.mayStart = true → drain.phase.mayStart = true) :
      Move w (w.toPhase k drain phase)

theorem Move.held {w w' : World} (move : Move w w') : Held w w' := by
  cases move with
  | @create id' fresh =>
      refine ⟨(Held.refl w).closed, fun id card found => ⟨card, ?_, le_rfl⟩⟩
      have ne : id ≠ id' := by rintro rfl; rw [fresh] at found; cases found
      simp [Table.get_set, ne, found]
  | @card id' card₁ card₂ found₁ move =>
      refine ⟨(Held.refl w).closed, fun id card found => ?_⟩
      by_cases same : id = id'
      · subst same
        obtain rfl : card₁ = card := by simpa [found₁] using found
        exact ⟨card₂, by simp [Table.get_set], move.grows⟩
      · exact ⟨card, by simp [Table.get_set, same, found], le_rfl⟩
  | @opened operation fresh _ =>
      refine ⟨fun id row found closed => ⟨row, ?_, rfl⟩, (Held.refl w).receipt⟩
      have ne : id ≠ operation.id := by rintro rfl; rw [fresh] at found; cases found
      simp [Table.get_set, ne, found]
  | @row id' row₁ next found₁ _ final =>
      refine ⟨fun id row found closed => ?_, (Held.refl w).receipt⟩
      by_cases same : id = id'
      · subst same
        obtain rfl : row₁ = row := by simpa [found₁] using found
        exact ⟨next, by simp [Table.get_set], final closed⟩
      · exact ⟨row, by simp [Table.get_set, same, found], rfl⟩
  | claimed => exact ⟨(Held.refl w).closed, (Held.refl w).receipt⟩
  | phase => exact ⟨(Held.refl w).closed, (Held.refl w).receipt⟩

/-! ## The invariant -/

structure Invariant (w : World) : Prop where
  /-- A row stands under its id, and its scorecard has settled. -/
  rows : ∀ id row, w.operations.get id = some row →
    row.id = id ∧ w.Decided row.settlement.scorecardId
  drains : ∀ drain ∈ w.drains, w.Decided drain.operation.settlement.scorecardId
  receipts : ∀ id card, w.cards.get id = some card → card.exportRevision ≠ 0 →
    card.status = .succeeded
  /-- A drain with an effect to start holds its operation's latest claim. -/
  latest : ∀ k drain, w.drains[k]? = some drain → drain.phase.mayStart = true →
    w.HoldsLatestClaim k

theorem Invariant.empty : Invariant .empty where
  rows id row found := by simp [World.empty] at found
  drains drain isIn := by simp [World.empty] at isIn
  receipts id card found := by simp [World.empty] at found
  latest k drain found := by simp [World.empty] at found

/-- A change of the cards alone. -/
theorem Invariant.of_cards {w : World} (inv : Invariant w) {cards : Table String Card}
    (keeps : ∀ id, w.Decided id → World.Decided { w with cards } id)
    (receipts : ∀ id card, cards.get id = some card → card.exportRevision ≠ 0 →
      card.status = .succeeded) : Invariant { w with cards } where
  rows id row found := ⟨(inv.rows id row found).1, keeps _ (inv.rows id row found).2⟩
  drains drain isIn := keeps _ (inv.drains drain isIn)
  receipts := receipts
  latest := inv.latest

variable {drain : Drain}

/-- A drain whose operation the new claim is not of still holds the latest claim of it. -/
theorem latest_append {w : World}
    (latest : ∀ k earlier, w.drains[k]? = some earlier → earlier.phase.mayStart = true →
      w.HoldsLatestClaim k)
    (sole : ∀ earlier ∈ w.drains, earlier.operation.id = drain.operation.id →
      earlier.phase.mayStart = false) :
    ∀ k earlier, (w.drains ++ [drain])[k]? = some earlier → earlier.phase.mayStart = true →
      World.HoldsLatestClaim { w with drains := w.drains ++ [drain] } k := by
  have last : ∀ j later, w.drains.length ≤ j → (w.drains ++ [drain])[j]? = some later →
      j = w.drains.length ∧ later = drain := by
    intro j later ge at_j
    rw [List.getElem?_append_right ge] at at_j
    rcases gap : j - w.drains.length with _ | _ <;> simp [gap] at at_j
    exact ⟨by omega, at_j.symm⟩
  intro k earlier at_k may
  rcases Nat.lt_or_ge k w.drains.length with lt | ge
  · have was : w.drains[k]? = some earlier := by rwa [List.getElem?_append_left lt] at at_k
    obtain ⟨drain', at_k', only⟩ := latest k earlier was may
    obtain rfl : earlier = drain' := by simpa [was] using at_k'
    refine ⟨earlier, at_k, fun j later after at_j => ?_⟩
    rcases Nat.lt_or_ge j w.drains.length with lt' | ge'
    · exact only j later after (by simpa only [List.getElem?_append_left lt'] using at_j)
    · -- the new claim is of another operation, for this drain has an effect to start
      obtain ⟨-, rfl⟩ := last j later ge' at_j
      intro same
      have idle := sole earlier (List.mem_of_getElem? was) same.symm
      rw [may] at idle
      cases idle
  · obtain ⟨rfl, rfl⟩ := last k earlier ge at_k
    refine ⟨earlier, at_k, fun j later after at_j => ?_⟩
    obtain ⟨rfl, -⟩ := last j later (by omega) at_j
    exact absurd after (Nat.lt_irrefl _)

/-- What a drain was before one of the drains went on to another phase. -/
theorem was_of_toPhase {w : World} {k : Nat} {phase : Phase} (found : w.drains[k]? = some drain)
    (fewer : phase.mayStart = true → drain.phase.mayStart = true) {j : Nat} {now : Drain}
    (at_j : (w.toPhase k drain phase).drains[j]? = some now) :
    ∃ was, w.drains[j]? = some was ∧ was.operation = now.operation ∧
      (now.phase.mayStart = true → was.phase.mayStart = true) := by
  have bound : k < w.drains.length := (List.getElem?_eq_some_iff.mp found).1
  simp only [World.toPhase, List.getElem?_set] at at_j
  by_cases same : k = j
  · subst same
    obtain rfl : { drain with phase } = now := by simpa [bound] using at_j
    exact ⟨drain, found, rfl, fewer⟩
  · exact ⟨now, by simpa [same] using at_j, rfl, id⟩

theorem latest_toPhase {w : World} {k : Nat} {phase : Phase} (found : w.drains[k]? = some drain)
    (fewer : phase.mayStart = true → drain.phase.mayStart = true) {j : Nat}
    (latest : w.HoldsLatestClaim j) : (w.toPhase k drain phase).HoldsLatestClaim j := by
  obtain ⟨was, at_j, only⟩ := latest
  have bound : j < w.drains.length := (List.getElem?_eq_some_iff.mp at_j).1
  obtain ⟨now, at_now⟩ : ∃ now, (w.toPhase k drain phase).drains[j]? = some now :=
    ⟨_, List.getElem?_eq_getElem (by simpa [World.toPhase] using bound)⟩
  have sameAt : ∀ (i : Nat) {was now : Drain}, w.drains[i]? = some was →
      (w.toPhase k drain phase).drains[i]? = some now → was.operation = now.operation := by
    intro i was now at_was at_now
    obtain ⟨was', at_was', same, _⟩ := was_of_toPhase found fewer at_now
    obtain rfl : was = was' := by simpa [at_was] using at_was'
    exact same
  refine ⟨now, at_now, fun i later after at_i => ?_⟩
  obtain ⟨was', at_i', same, _⟩ := was_of_toPhase found fewer at_i
  rw [← same, ← sameAt j at_j at_now]
  exact only i was' after at_i'

theorem Invariant.move {w w' : World} (inv : Invariant w) (move : Move w w') :
    Invariant w' := by
  cases move with
  | @create id' fresh =>
      refine inv.of_cards ?_ ?_
      · rintro id ⟨card, found, succeeded⟩
        have ne : id ≠ id' := by rintro rfl; rw [fresh] at found; cases found
        exact ⟨card, by simp [Table.get_set, ne, found], succeeded⟩
      · intro id card found
        by_cases same : id = id'
        · obtain rfl : { status := .queued } = card := by simpa [Table.get_set, same] using found
          intro revision
          exact absurd rfl revision
        · exact inv.receipts id card (by simpa [Table.get_set, same] using found)
  | @card id' card₁ card₂ found₁ move =>
      refine inv.of_cards ?_ ?_
      · rintro id ⟨card, found, succeeded⟩
        by_cases same : id = id'
        · subst same
          obtain rfl : card₁ = card := by simpa [found₁] using found
          exact ⟨card₂, by simp [Table.get_set], move.status succeeded⟩
        · exact ⟨card, by simp [Table.get_set, same, found], succeeded⟩
      · intro id card found
        by_cases same : id = id'
        · obtain rfl : card₂ = card := by simpa [Table.get_set, same] using found
          exact move.decided
        · exact inv.receipts id card (by simpa [Table.get_set, same] using found)
  | @opened operation fresh decided =>
      refine ⟨fun id row found => ?_, inv.drains, inv.receipts, inv.latest⟩
      by_cases same : id = operation.id
      · obtain rfl : operation = row := by simpa [Table.get_set, same] using found
        exact ⟨same.symm, decided⟩
      · exact inv.rows id row (by simpa [Table.get_set, same] using found)
  | @row id' row₁ next found₁ sameDecision final =>
      refine ⟨fun id row found => ?_, inv.drains, inv.receipts, inv.latest⟩
      by_cases same : id = id'
      · obtain rfl : next = row := by simpa [Table.get_set, same] using found
        obtain ⟨sameId, sameSettlement, _⟩ := sameDecision
        obtain ⟨stands, decided⟩ := inv.rows id' row₁ found₁
        refine ⟨by rw [sameId, stands, same], ?_⟩
        rw [sameSettlement]
        exact decided
      · exact inv.rows id row (by simpa [Table.get_set, same] using found)
  | @claimed drain found sole =>
      refine ⟨inv.rows, ?_, inv.receipts, latest_append inv.latest sole⟩
      intro earlier isIn
      rcases List.mem_append.mp isIn with isIn | isNew
      · exact inv.drains earlier isIn
      · rw [List.mem_singleton.mp isNew]
        exact (inv.rows _ _ found).2
  | @phase k drain phase found fewer =>
      refine ⟨inv.rows, ?_, inv.receipts, ?_⟩
      · intro drain' isIn
        obtain ⟨j, at_j⟩ := List.mem_iff_getElem?.mp isIn
        obtain ⟨was, at_j', same, _⟩ := was_of_toPhase found fewer at_j
        rw [← same]
        exact inv.drains was (List.mem_of_getElem? at_j')
      · intro j drain' at_j may
        obtain ⟨was, at_j', _, back⟩ := was_of_toPhase found fewer at_j
        exact latest_toPhase found fewer (inv.latest j was at_j' (back may))

theorem Invariant.moves {w w' : World} (inv : Invariant w) (moves : ReflTransGen Move w w') :
    Invariant w' ∧ Held w w' := by
  induction moves with
  | refl => exact ⟨inv, .refl w⟩
  | tail _ move ih => exact ⟨ih.1.move move, ih.2.trans move.held⟩

/-! ## A step is a chain of moves -/

section Effects

variable {readExportPayload : String → Except String String} {deps : PublicationDeps}

theorem mayStart_proceed {effects : List PublicationEffect} {tally : Tally}
    (starts : (proceed readExportPayload deps effects tally).mayStart = true ∨
      (proceed readExportPayload deps effects tally).isExporting = true) : effects ≠ [] := by
  rintro rfl
  unfold proceed at starts
  rcases owed : tally.owed <;> simp [owed, Phase.mayStart, Phase.isExporting] at starts

theorem mayStart_afterExport {rest : List PublicationEffect} {tally : Tally}
    {effect : PublicationEffect} {exported : Except String (Option ExportAnswer)}
    (starts : (afterExport readExportPayload deps rest tally exported).mayStart = true ∨
      (afterExport readExportPayload deps rest tally exported).isExporting = true) :
    (Phase.exporting effect rest tally).mayStart = true := by
  have left : rest ≠ [] := by
    cases exported <;> exact mayStart_proceed starts
  simpa [Phase.mayStart] using left

end Effects

/-- A chain of moves; the drain that started an effect in it holds the latest claim. -/
structure Chain (w w' : World) (started : Started) : Prop where
  moves : ReflTransGen Move w w'
  latest : ∀ k, started = some k → w'.HoldsLatestClaim k

variable {backend : Backend} {readExportPayload : String → Except String String}
  {w w' : World} {event : Event} {started : Started}

theorem Chain.quiet (moves : ReflTransGen Move w w') : Chain w w' none :=
  ⟨moves, fun _ same => nomatch same⟩

theorem moves_settleStep {settlement : SettlementRef} {exports : List PublicationEffect}
    {now : Nat} (decided : w.Decided settlement.scorecardId) :
    ReflTransGen Move w (settleStep w settlement exports now) := by
  unfold settleStep planPublicationOperation
  split
  · exact .refl
  · simp only [World.openPublication, openOperation]
    split
    · exact .refl
    · next fresh =>
        let operation : PublicationOperation :=
          { id := publicationOperationId settlement, settlement, state := .pending,
            effects := exports, plannedAt := now }
        have absent : w.operations.get operation.id = none := by simpa using fresh
        exact .single (Move.opened absent decided)

theorem moves_updateOperation {id : String}
    {change : PublicationOperation → Option PublicationOperation}
    (keeps : ∀ row next, w.operations.get id = some row → change row = some next →
      SameDecision row next ∧ (row.state.closed = true → next.state = row.state)) :
    ReflTransGen Move w (w.updateOperation id change) := by
  unfold World.updateOperation
  split
  · exact .refl
  · next next changed =>
      obtain ⟨row, found, eq⟩ := Option.bind_eq_some_iff.mp changed
      obtain ⟨same, final⟩ := keeps row next found eq
      exact .single (.row found same final)

theorem moves_writeReceipt {settlement : SettlementRef} {exported : ExportAnswer}
    (decided : w.Decided settlement.scorecardId) :
    ReflTransGen Move w (w.writeReceipt settlement exported) := by
  obtain ⟨card, found, succeeded⟩ := decided
  simp only [World.writeReceipt, found]
  split
  · exact .refl
  · next below =>
      refine .single (.card found ⟨fun _ => succeeded, ?_, fun _ => succeeded⟩)
      simp only [Card.exportRevision, Option.bind_some, Option.getD_some] at below ⊢
      omega

theorem not_closed_of_claimed {row : PublicationOperation} (claimed : row.state = .claimed) :
    row.state.closed = false := by
  rw [claimed]
  rfl

theorem moves_claimStep {id owner : String} {leaseSeconds now : Nat} {deps : PublicationDeps}
    (inv : Invariant w) (ok : guarded backend w (.claim id owner leaseSeconds now deps) = true)
    (eq : claimStep backend readExportPayload w id owner leaseSeconds now deps = (w', started)) :
    Chain w w' started := by
  unfold claimStep at eq
  split at eq
  · next refused =>
      obtain ⟨rfl, rfl⟩ := Prod.mk.inj eq
      exact ⟨.refl, fun _ same => nomatch same⟩
  · next operation granted =>
      obtain ⟨rfl, rfl⟩ := Prod.mk.inj eq
      obtain ⟨row, found, claimed⟩ := Option.bind_eq_some_iff.mp granted
      obtain ⟨notClosed, -, -, same⟩ := claim_cases claimed
      have stands : operation.id = id := same.1.trans (inv.rows id row found).1
      have sole : ∀ earlier ∈ w.drains, earlier.operation.id = id →
          earlier.phase.mayStart = false := by
        simp only [guarded, granted, Option.isSome_some, Bool.not_true, Bool.false_or,
          List.all_eq_true, Bool.or_eq_true, decide_eq_true_eq, Bool.not_eq_true',
          ne_eq] at ok
        intro earlier isIn ofId
        exact (ok earlier isIn).resolve_left fun ne => ne ofId
      constructor
      · refine .tail (.single (.row found same ?_)) (.claimed ?_ ?_)
        · intro closed
          rw [notClosed] at closed
          cases closed
        · simp [Table.get_set, stands]
        · simpa [stands] using sole
      · intro k starts
        obtain rfl : k = w.drains.length := by
          split at starts <;> simp_all
        refine ⟨_, List.getElem?_concat_length, fun j later after at_j => ?_⟩
        rw [List.getElem?_eq_none (by simp; omega)] at at_j
        cases at_j

/-- A drain that has an effect to start goes on to its next await. -/
theorem moves_goOn {k : Nat} {phase : Phase} (inv : Invariant w)
    (found : w.drains[k]? = some drain)
    (starts : phase.mayStart = true ∨ phase.isExporting = true → drain.phase.mayStart = true)
    (eq : w.goOn k drain phase = (w', started)) :
    Chain w w' started := by
  obtain ⟨rfl, rfl⟩ := Prod.mk.inj eq
  have fewer : phase.mayStart = true → drain.phase.mayStart = true := fun may => starts (.inl may)
  refine ⟨.single (.phase found fewer), fun j same => ?_⟩
  split at same
  · next exporting =>
      obtain rfl := Option.some.inj same
      exact latest_toPhase found fewer (inv.latest k drain found (starts (.inr exporting)))
  · cases same

/-- A drain that goes where no effect is left to start. -/
theorem move_toIdle {k : Nat} (found : w.drains[k]? = some drain) (phase : Phase)
    (idle : phase.mayStart = false) : Move w (w.toPhase k drain phase) := by
  refine .phase found fun may => ?_
  rw [idle] at may
  cases may

theorem moves_completeStep {k : Nat} {exported : Option ExportAnswer} {now : Nat}
    (found : w.drains[k]? = some drain) :
    ReflTransGen Move w (completeStep backend w k drain exported now) := by
  unfold completeStep
  split
  · exact .single (move_toIdle found _ rfl)
  · next next completed =>
      obtain ⟨row, stored, eq⟩ := Option.bind_eq_some_iff.mp completed
      obtain ⟨claimed, -, same⟩ := complete_cases eq
      let u : World := { w with operations := w.operations.set drain.operation.id next }
      have first : Move w u := by
        refine .row stored same fun closed => ?_
        rw [not_closed_of_claimed claimed] at closed
        cases closed
      refine .head first ?_
      cases exported with
      | none => exact .single (move_toIdle (w := u) found .ended rfl)
      | some exported => exact .single (move_toIdle (w := u) found (.positioning exported) rfl)

/-- What a step keeps, and who starts an effect in it. -/
theorem moves_drainStep {k : Nat} (inv : Invariant w) (found : w.drains[k]? = some drain)
    (ofDrain : event.drain = some k) (ok : guarded backend w event = true)
    (eq : drainStep backend readExportPayload w k drain drain.phase event = some (w', started)) :
    Chain w w' started := by
  have decided := inv.drains drain (List.mem_of_getElem? found)
  unfold drainStep at eq
  split at eq
  · next key effect rest tally _ frozen phase =>
      exact moves_goOn inv found (fun _ => by rw [phase]; rfl) (Option.some.inj eq)
  · next effect rest tally _ exported phase =>
      refine moves_goOn inv found (fun starts => ?_) (Option.some.inj eq)
      rw [phase]
      exact mayStart_afterExport starts
  · obtain ⟨rfl, rfl⟩ := Prod.mk.inj (Option.some.inj eq)
    exact .quiet (moves_completeStep found)
  · obtain ⟨rfl, rfl⟩ := Prod.mk.inj (Option.some.inj eq)
    refine .quiet (.single (move_toIdle found _ ?_))
    split <;> rfl
  · next delivered _ =>
      obtain ⟨rfl, rfl⟩ := Prod.mk.inj (Option.some.inj eq)
      have first := ReflTransGen.single (move_toIdle found .ended rfl)
      cases delivered
      · exact .quiet first
      · exact .quiet (first.trans (moves_writeReceipt decided))
  · next reason owed j now _ =>
      obtain ⟨rfl, rfl⟩ := Prod.mk.inj (Option.some.inj eq)
      obtain rfl : j = k := Option.some.inj ofDrain
      refine .quiet (.tail (moves_updateOperation fun row next stored released => ?_)
        (move_toIdle ?_ _ rfl))
      · obtain ⟨held, -, same⟩ := release_cases released
        refine ⟨same, fun closed => ?_⟩
        -- the release that would take a closed row back is the one the guard excludes
        simp [guarded, found, stored, held, closed] at ok
      · unfold World.updateOperation
        split <;> exact found
  · obtain ⟨rfl, rfl⟩ := Prod.mk.inj (Option.some.inj eq)
    refine .quiet (moves_updateOperation fun row next stored renewed => ?_)
    obtain ⟨claimed, claimed', same⟩ := renew_cases renewed
    exact ⟨same, fun _ => claimed'.trans claimed.symm⟩
  · obtain ⟨rfl, rfl⟩ := Prod.mk.inj (Option.some.inj eq)
    exact .quiet (.single (move_toIdle found _ rfl))
  · cases eq

theorem moves_machine (inv : Invariant w) (ok : guarded backend w event = true)
    (eq : machine backend readExportPayload w event = some (w', started)) :
    Chain w w' started := by
  unfold machine at eq
  split at eq
  · next id =>
      split at eq
      · cases eq
      · next fresh =>
          obtain ⟨rfl, rfl⟩ := Prod.mk.inj (Option.some.inj eq)
          exact .quiet (.single (.create (by simpa using fresh)))
  · next id passId exports now =>
      obtain ⟨card, found, eq⟩ := Option.bind_eq_some_iff.mp eq
      split at eq
      · cases eq
      · obtain ⟨rfl, rfl⟩ := Prod.mk.inj (Option.some.inj eq)
        have succeeds : CardMove card { card with status := .succeeded } :=
          ⟨fun _ => rfl, le_rfl, fun _ => rfl⟩
        refine .quiet (.head (.card found succeeds) (moves_settleStep ?_))
        exact ⟨{ card with status := .succeeded }, by simp [Table.get_set], rfl⟩
  · next settlement exports now =>
      obtain ⟨card, found, eq⟩ := Option.bind_eq_some_iff.mp eq
      split at eq
      · next succeeded =>
          obtain ⟨rfl, rfl⟩ := Prod.mk.inj (Option.some.inj eq)
          exact .quiet (moves_settleStep ⟨card, found, succeeded⟩)
      · cases eq
  · next id =>
      obtain ⟨card, found, eq⟩ := Option.bind_eq_some_iff.mp eq
      split at eq
      · cases eq
      · next live =>
          obtain ⟨rfl, rfl⟩ := Prod.mk.inj (Option.some.inj eq)
          refine .quiet (.single (.card found ⟨fun succeeded => ?_, le_rfl, fun revision => ?_⟩))
          · simp [isSettledScorecardStatus, succeeded] at live
          · simp [isSettledScorecardStatus, inv.receipts id card found revision] at live
  · next id cancelled exported =>
      obtain ⟨card, found, eq⟩ := Option.bind_eq_some_iff.mp eq
      split at eq
      · next abortable =>
          obtain ⟨rfl, rfl⟩ := Prod.mk.inj (Option.some.inj eq)
          have open' : card.status ≠ .succeeded := by
            intro succeeded
            rw [succeeded] at abortable
            simp [ABORTABLE_SETTLE_STATUSES] at abortable
          have bare : card.exportRevision = 0 := by
            by_contra revision
            exact open' (inv.receipts id card found revision)
          refine .quiet (.single (.card found ⟨fun succeeded => absurd succeeded open', ?_, ?_⟩))
          · omega
          · cases exported with
            | none => exact fun revision => absurd bare revision
            | some exported => exact fun revision => absurd rfl revision
      · cases eq
  · obtain same := Option.some.inj eq
    exact moves_claimStep inv ok same
  · obtain ⟨k, ofDrain, eq⟩ := Option.bind_eq_some_iff.mp eq
    obtain ⟨drain, found, eq⟩ := Option.bind_eq_some_iff.mp eq
    exact moves_drainStep inv found ofDrain ok eq

/-! ## Runs -/

variable (backend : Backend) (readExportPayload : String → Except String String)

def guardedStep (w : World) (event : Event) : Prop := guarded backend w event = true

instance (w : World) (event : Event) : Decidable (guardedStep backend w event) :=
  inferInstanceAs (Decidable (_ = true))

/-- Over any stretch of a run, closed rows stay as they are and receipts move forward. -/
def ClosedStays (ok : World → Event → Prop) : Prop :=
  ∀ w w', Machine.Reachable (machine backend readExportPayload) ok .empty w →
    Machine.Reachable (machine backend readExportPayload) ok w w' → Held w w'

/-- Whenever an effect is started, the drain that starts it holds the latest claim. -/
def StartsUnderLatestClaim (ok : World → Event → Prop) : Prop :=
  ∀ w event w' k, Machine.Reachable (machine backend readExportPayload) ok .empty w →
    ok w event → machine backend readExportPayload w event = some (w', some k) →
    w'.HoldsLatestClaim k

/-- Where a claim is granted only while no earlier drain has an effect to start, and no release
finds its own row closed, a closed row keeps its state, a receipt moves forward, and an effect is
started under the latest claim. -/
theorem publication_under_one_claim :
    ClosedStays backend readExportPayload (guardedStep backend) ∧
      StartsUnderLatestClaim backend readExportPayload (guardedStep backend) := by
  have reach : ∀ {w}, Machine.Reachable (machine backend readExportPayload)
      (guardedStep backend) .empty w → Invariant w := by
    rintro w ⟨log, run⟩
    refine run.state_invariant .empty ?_
    intro _ _ _ _ inv ok eq
    exact (inv.moves (moves_machine inv ok eq).moves).1
  constructor
  · rintro w w' reached ⟨log, later⟩
    have both : Invariant w' ∧ Held w w' := by
      refine later.state_invariant (I := fun w' => Invariant w' ∧ Held w w')
        ⟨reach reached, .refl w⟩ ?_
      rintro s event t started ⟨before, held⟩ ok eq
      obtain ⟨after, held'⟩ := before.moves (moves_machine before ok eq).moves
      exact ⟨after, held.trans held'⟩
    exact both.2
  · intro w event w' k reached ok eq
    exact (moves_machine (reach reached) ok eq).latest k rfl

def frozenEffect : PublicationEffect :=
  { idempotencyKey := "batch:pass", payloadDigest := "digest", payload := .frozen "payload" }

def wiredDeps : PublicationDeps := ⟨true, true, "digest"⟩

/-- A drain renews its lease, publishes and writes its receipt while a sweep is turned away. -/
theorem publication_under_one_claim_drained :
    (∃ w w', Machine.Reachable (machine .postgres .error) (guardedStep .postgres) .empty w ∧
      machine .postgres .error w (.read 0 (.bytes "digest")) = some (w', some 0) ∧
      w'.HoldsLatestClaim 0) ∧
    ∃ w w', Machine.Reachable (machine .postgres .error) (guardedStep .postgres) .empty w ∧
      Machine.Reachable (machine .postgres .error) (guardedStep .postgres) w w' ∧
      (w.operations.get "batch#r1#pass").any (·.state = .published) = true ∧
      (w'.cards.get "batch").any (·.exportRevision = 1) = true ∧ Held w w' := by
  obtain ⟨stays, latest⟩ := publication_under_one_claim .postgres .error
  constructor
  · obtain ⟨w, os, w', reached, later, started⟩ := Machine.exists_runs_of_exec
      (machine .postgres .error) (guardedStep .postgres) .empty
      [.create "batch", .settle "batch" "pass" [frozenEffect] 0,
        .claim "batch#r1#pass" "publisher" 120 0 wiredDeps, .renew 0 60000]
      [.read 0 (.bytes "digest")] (fun _ os _ => os = [some 0]) (by decide +kernel)
    obtain rfl : os = [some 0] := of_decide_eq_true started
    obtain ⟨ok, step⟩ := later.of_singleton
    exact ⟨w, w', reached, step, latest w _ w' 0 reached ok step⟩
  · obtain ⟨w, os, w', reached, later, published⟩ := Machine.exists_runs_of_exec
      (machine .postgres .error) (guardedStep .postgres) .empty
      [.create "batch", .settle "batch" "pass" [frozenEffect] 0,
        .claim "batch#r1#pass" "publisher" 120 0 wiredDeps, .renew 0 60000,
        .read 0 (.bytes "digest"), .answer 0 (.ok (some ⟨"mlflow", .succeeded, none, none, 9⟩)),
        .complete 0 121000]
      [.claim "batch#r1#pass" "sweeper" 120 300000 wiredDeps, .position 0 true, .write 0 true]
      (fun w _ w' => (w.operations.get "batch#r1#pass").any (·.state = .published) ∧
        (w'.cards.get "batch").any (·.exportRevision = 1)) (by decide +kernel)
    obtain ⟨before, after⟩ := of_decide_eq_true published
    exact ⟨w, w', reached, ⟨_, later⟩, before, after, stays w w' reached ⟨_, later⟩⟩

/-! ## A drain that outlives its lease -/

/-- A publisher's first drain waits for its payload while its lease lapses, and a sweep under
the same publisher id claims the operation. -/
def lapsedClaim : List Event :=
  [.create "batch", .settle "batch" "pass" [frozenEffect] 0,
    .claim "batch#r1#pass" "publisher" 120 0 wiredDeps,
    .claim "batch#r1#pass" "publisher" 120 120000 wiredDeps]

def sweepCompletes : List Event :=
  [.read 1 (.bytes "digest"), .answer 1 (.ok none), .complete 1 121000]

def takenBack (w w' : World) : Bool :=
  (w.operations.get "batch#r1#pass").any (·.state = .published) &&
    (w'.operations.get "batch#r1#pass").any (·.state = .pending)

/-- The first drain fails and takes back what the sweep published, and where its payload
comes it starts the effect under a claim that is no longer the latest. -/
theorem outlived_of_backend (backend : Backend) :
    ¬ ClosedStays backend .error Machine.Always ∧
      ¬ StartsUnderLatestClaim backend .error Machine.Always := by
  constructor
  · intro stays
    obtain ⟨w, os, w', reached, later, back⟩ := Machine.exists_runs_of_exec
      (machine backend .error) Machine.Always .empty (lapsedClaim ++ sweepCompletes)
      [.read 0 (.failed "timed out"), .release 0 122000] (fun w _ w' => takenBack w w')
      (by cases backend <;> decide +kernel)
    simp only [takenBack, Bool.and_eq_true, Option.any_eq_true, decide_eq_true_eq] at back
    obtain ⟨⟨row, found, published⟩, row', found', pending⟩ := back
    obtain ⟨row'', found'', same⟩ :=
      (stays w w' reached ⟨_, later⟩).closed _ row found (by rw [published]; rfl)
    obtain rfl : row' = row'' := by simpa [found'] using found''
    rw [published, pending] at same
    cases same
  · intro latest
    obtain ⟨w, os, w', reached, later, outlived⟩ := Machine.exists_runs_of_exec
      (machine backend .error) Machine.Always .empty lapsedClaim [.read 0 (.bytes "digest")]
      (fun _ os w' => os = [some 0] &&
        w'.drains.map (·.operation.id) = ["batch#r1#pass", "batch#r1#pass"])
      (by cases backend <;> decide +kernel)
    simp only [Bool.and_eq_true, decide_eq_true_eq] at outlived
    obtain ⟨rfl, ids⟩ := outlived
    obtain ⟨drain, first, only⟩ := latest w _ w' 0 reached trivial later.of_singleton.2
    have two : w'.drains.length = 2 := by simpa using congrArg List.length ids
    have second := List.getElem?_eq_getElem (l := w'.drains) (i := 1) (by omega)
    refine only 1 _ Nat.zero_lt_one second ?_
    have at0 := congrArg (·[0]?) ids
    have at1 := congrArg (·[1]?) ids
    simp only [List.getElem?_map, first, second] at at0 at1
    simpa using at1.trans at0.symm

/-- In both stores a drain outlives its claim. -/
theorem release_takes_published_back :
    (¬ ClosedStays .memory .error Machine.Always ∧
      ¬ StartsUnderLatestClaim .memory .error Machine.Always) ∧
    (¬ ClosedStays .postgres .error Machine.Always ∧
      ¬ StartsUnderLatestClaim .postgres .error Machine.Always) :=
  ⟨outlived_of_backend .memory, outlived_of_backend .postgres⟩

end Everdict.Publication
