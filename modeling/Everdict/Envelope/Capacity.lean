import Everdict.Envelope.Stores

/-!
# The capacity of an envelope is conserved

`Written` lists what a step does to the two tables when every decision is about the
caller's own ask; the balance of the counters, their caps and the books of the rights
follow from it one constructor at a time.

A decision is sent under the request id alone, so between the claim of a call and its
decision another call may have had the row deleted and claimed anew for another ask; the
decision then grants that one, under the wrong cap.
-/

namespace Everdict.Envelope

open Function (update)
open Rights Transition.Machine

variable {terms : String → Terms} {db : Tables} {w t : World} {log : List (Event × Outcome)}
  {e : Event} {o : Outcome} {id requestId : String} {ask : Ask}

/-- What a granted row has its envelope count. -/
def weight (id : String) (row : Admission) : Nat :=
  if row.admitted ∧ row.ask.envelopeId = id then row.ask.runs else 0

/-- The runs over the granted request rows of an envelope. -/
def Tables.granted (db : Tables) (id : String) : Nat :=
  (db.admissions.values.map (weight id)).sum

/-- What a step does to the tables, and the right it charges or gives back. -/
inductive Written (terms : String → Terms) (db : Tables) : Option (Entry String Ask) → Tables → Prop
  | same : Written terms db none db
  | claimed {requestId : String} {ask : Ask} :
      db.admissions.get requestId = none →
      Written terms db none { db with admissions := db.admissions.set requestId ⟨ask, false⟩ }
  | refused {requestId : String} {ask : Ask} :
      db.admissions.get requestId = some ⟨ask, false⟩ →
      Written terms db none { db with admissions := db.admissions.erase requestId }
  | granted {requestId : String} {ask : Ask} {row : EnvelopeRow} :
      db.admissions.get requestId = some ⟨ask, false⟩ →
      row.admittedRuns = db.spend ask.envelopeId + ask.runs →
      row.admittedRuns ≤ (terms ask.envelopeId).capRuns →
      (row.tenant = (terms ask.envelopeId).tenant ∨
        ∃ old, db.envelopes.get ask.envelopeId = some old ∧ row.tenant = old.tenant) →
      Written terms db (some (.charged requestId ask))
        ⟨db.admissions.set requestId ⟨ask, true⟩, db.envelopes.set ask.envelopeId row⟩
  | released {requestId : String} {ask : Ask} {row : EnvelopeRow} :
      db.admissions.get requestId = some ⟨ask, true⟩ →
      db.envelopes.get ask.envelopeId = some row →
      Written terms db (some (.returned requestId ask))
        ⟨db.admissions.erase requestId, db.envelopes.set ask.envelopeId
          { row with admittedRuns := row.admittedRuns - ask.runs }⟩

/-! ## The statements -/

theorem claim_cases {db' : Tables} {row : Admission} {inserted : Bool}
    (claimed : db.claim requestId ask = some (db', row, inserted)) :
    (db.admissions.get requestId = none ∧ row = ⟨ask, false⟩ ∧ inserted = true ∧
        db' = { db with admissions := db.admissions.set requestId ⟨ask, false⟩ }) ∨
      (db.admissions.get requestId = some row ∧ inserted = false ∧ db' = db) := by
  unfold Tables.claim at claimed
  split at claimed
  · cases claimed
  · rcases found : db.admissions.get requestId with _ | old
    · simp only [found, Option.some.injEq, Prod.mk.injEq] at claimed
      obtain ⟨rfl, rfl, rfl⟩ := claimed
      exact .inl ⟨rfl, rfl, rfl, rfl⟩
    · simp only [found, Option.some.injEq, Prod.mk.injEq] at claimed
      obtain ⟨rfl, rfl, rfl⟩ := claimed
      exact .inr ⟨rfl, rfl, rfl⟩

theorem counted_cases {tenant : String} {capRuns : Nat} {row : EnvelopeRow}
    (counted : db.counted tenant capRuns ask = some (some row)) :
    row.admittedRuns = db.spend ask.envelopeId + ask.runs ∧ row.admittedRuns ≤ capRuns ∧
      (row.tenant = tenant ∨
        ∃ old, db.envelopes.get ask.envelopeId = some old ∧ row.tenant = old.tenant) := by
  unfold Tables.counted at counted
  split at counted
  · cases counted
  · next fits =>
      rcases found : db.envelopes.get ask.envelopeId with _ | old
      · simp only [found, Option.some.injEq] at counted
        subst counted
        refine ⟨by simp [Tables.spend, found], ?_, .inl rfl⟩
        simp only
        omega
      · simp only [found] at counted
        split at counted
        · cases counted
        · split at counted
          · next room =>
              simp only [Option.some.injEq] at counted
              subst counted
              exact ⟨by simp [Tables.spend, found], room, .inr ⟨old, rfl, rfl⟩⟩
          · cases counted

theorem decide_cases {tenant : String} {capRuns : Nat} {db' : Tables} {decision : Decision}
    (decided : db.decide requestId tenant capRuns = some (db', decision)) :
    (decision = .gone ∧ db' = db) ∨
      (decision = .refused ∧ db' = { db with admissions := db.admissions.erase requestId } ∧
        ∃ ask, db.admissions.get requestId = some ⟨ask, false⟩) ∨
      ∃ ask row, decision = .granted ask ∧
        db.admissions.get requestId = some ⟨ask, false⟩ ∧
        db.counted tenant capRuns ask = some (some row) ∧
        db' = ⟨db.admissions.set requestId ⟨ask, true⟩,
          db.envelopes.set ask.envelopeId row⟩ := by
  unfold Tables.decide at decided
  split at decided
  · cases decided
  · split at decided
    · next req found =>
        rcases counted : db.counted tenant capRuns req with _ | _ | row
        · simp [counted] at decided
        · simp only [counted, Option.some.injEq, Prod.mk.injEq] at decided
          obtain ⟨rfl, rfl⟩ := decided
          exact .inr (.inl ⟨rfl, rfl, req, found⟩)
        · simp only [counted, Option.some.injEq, Prod.mk.injEq] at decided
          obtain ⟨rfl, rfl⟩ := decided
          exact .inr (.inr ⟨req, row, rfl, found, counted, rfl⟩)
    · simp only [Option.some.injEq, Prod.mk.injEq] at decided
      obtain ⟨rfl, rfl⟩ := decided
      exact .inl ⟨rfl, rfl⟩

theorem releaseRuns_cases (db : Tables) (id tenant requestId : String) :
    (db.releaseRuns id tenant requestId = (db, none) ∧
        ∀ ask row, db.admissions.get requestId = some ⟨ask, true⟩ → ask.envelopeId = id →
          db.envelopes.get id = some row → row.tenant ≠ tenant) ∨
      ∃ ask row, db.admissions.get requestId = some ⟨ask, true⟩ ∧ ask.envelopeId = id ∧
        db.envelopes.get id = some row ∧
        db.releaseRuns id tenant requestId =
          (⟨db.admissions.erase requestId, db.envelopes.set id
            { row with admittedRuns := row.admittedRuns - ask.runs }⟩, some ask) := by
  unfold Tables.releaseRuns
  split
  · next ask row granted envelope =>
      by_cases own : ask.envelopeId = id ∧ row.tenant = tenant
      · rw [if_pos own]
        exact .inr ⟨ask, row, granted, own.1, envelope, rfl⟩
      · rw [if_neg own]
        refine .inl ⟨rfl, ?_⟩
        intro ask' row' granted' same envelope'
        simp only [granted, envelope, Option.some.injEq, Admission.mk.injEq] at granted' envelope'
        obtain ⟨rfl, -⟩ := granted'
        subst envelope'
        exact fun tenant => own ⟨same, tenant⟩
  · next neither =>
      exact .inl ⟨rfl, fun ask row granted _ envelope => absurd envelope (neither ask row granted)⟩

/-! ## One step -/

@[simp] theorem finish_db (w : World) (db : Tables) (q : Nat) : (w.finish db q).db = db := rfl

theorem held_of_granted (granted : db.admissions.get requestId = some ⟨ask, true⟩) :
    db.held requestId = some ask := by
  simp [Tables.held, granted]

theorem held_of_pending (pending : db.admissions.get requestId = some ⟨ask, false⟩) :
    db.held requestId = none := by
  simp [Tables.held, pending]

theorem granted_of_held (held : db.held requestId = some ask) :
    db.admissions.get requestId = some ⟨ask, true⟩ := by
  unfold Tables.held at held
  rcases found : db.admissions.get requestId with _ | ⟨ask', _ | _⟩
  · simp [found] at held
  · simp [found] at held
  · simpa [found] using held

/-- A claim that answers has found the granted row of its own ask. -/
theorem afterClaim_admitted {row : Admission} {inserted : Bool}
    (answered : afterClaim ask row inserted = some (.admitted true)) :
    inserted = false ∧ row = ⟨ask, true⟩ := by
  unfold afterClaim assertSameRequest at answered
  obtain ⟨held, admitted⟩ := row
  by_cases same : held = ask <;> cases inserted <;> cases admitted <;> simp_all

theorem World.claim_written (w : World) (terms : String → Terms) (q attempt : Nat) (call : Call) :
    Written terms w.db (w.claim q call attempt).2.effect (w.claim q call attempt).1.db ∧
      ((w.claim q call attempt).2.reply = some (.admitted true) →
        (w.claim q call attempt).1.db = w.db ∧ w.db.held call.requestId = some call.ask) := by
  unfold World.claim
  rcases claimed : w.db.claim call.requestId call.ask with _ | ⟨db, row, inserted⟩
  · exact ⟨.same, by simp⟩
  have written : Written terms w.db none db := by
    rcases claim_cases claimed with ⟨free, -, -, rfl⟩ | ⟨-, -, rfl⟩
    · exact .claimed free
    · exact .same
  rcases answer : afterClaim call.ask row inserted with _ | reply
  · simp only [answer]
    exact ⟨written, by simp⟩
  simp only [answer]
  refine ⟨written, ?_⟩
  simp only [Option.some.injEq, finish_db]
  rintro rfl
  obtain ⟨rfl, rfl⟩ := afterClaim_admitted answer
  rcases claim_cases claimed with ⟨-, -, inserted, -⟩ | ⟨found, -, rfl⟩
  · cases inserted
  · exact ⟨rfl, held_of_granted found⟩

theorem World.decide_written (w : World) (terms : String → Terms) (q attempt : Nat) (call : Call)
    (own : ∀ ask row, w.db.admissions.get call.requestId = some ⟨ask, false⟩ →
      w.db.counted (terms call.ask.envelopeId).tenant (terms call.ask.envelopeId).capRuns ask =
        some (some row) → ask = call.ask) :
    Written terms w.db (w.decide terms q call attempt).2.effect
        (w.decide terms q call attempt).1.db ∧
      ((w.decide terms q call attempt).2.reply = some (.admitted true) →
        (w.decide terms q call attempt).1.db.held call.requestId = some call.ask ∧
          w.db.held call.requestId = none) := by
  simp only [World.decide]
  rcases decided : w.db.decide call.requestId (terms call.ask.envelopeId).tenant
    (terms call.ask.envelopeId).capRuns with _ | ⟨db, decision⟩
  · exact ⟨.same, by simp⟩
  rcases decide_cases decided with
    ⟨rfl, rfl⟩ | ⟨rfl, rfl, ask, found⟩ | ⟨ask, row, rfl, found, counted, rfl⟩
  · simp only [afterDecide]
    split
    · exact ⟨.same, by simp⟩
    · exact ⟨.same, by simp⟩
  · exact ⟨.refused found, by simp [afterDecide]⟩
  · obtain rfl := own ask row found counted
    obtain ⟨sum, room, tenant⟩ := counted_cases counted
    refine ⟨.granted found sum room tenant, ?_⟩
    intro _
    refine ⟨held_of_granted (Table.get_set ..|>.trans (if_pos rfl)), held_of_pending found⟩

/-- What a step of a run says about the tables, and what the call it answers holds. -/
theorem step_written (own : OwnDecision terms w e) (eq : machine terms w e = some (t, o)) :
    Written terms w.db o.effect t.db ∧
      (o.reply = some (.admitted true) → ∃ q call, (e = .claim q ∨ e = .decide q) ∧
        w.calls q = some call ∧ t.db.held call.requestId = some call.ask ∧
        ∀ ask, w.db.held call.requestId = some ask → ask = call.ask) := by
  cases e with
  | begin q requestId ask =>
      simp only [machine] at eq
      split at eq
      · cases eq
      · obtain ⟨rfl, rfl⟩ := Prod.mk.inj (Option.some.inj eq)
        exact ⟨.same, by simp⟩
  | crash q =>
      simp only [machine] at eq
      obtain ⟨rfl, rfl⟩ := Prod.mk.inj (Option.some.inj eq)
      exact ⟨.same, by simp⟩
  | release id requestId =>
      simp only [machine] at eq
      obtain ⟨rfl, rfl⟩ := Prod.mk.inj (Option.some.inj eq)
      refine ⟨?_, by simp⟩
      rcases releaseRuns_cases w.db id (terms id).tenant requestId with
        ⟨same, -⟩ | ⟨ask, row, granted, rfl, envelope, gone⟩
      · rw [same]
        exact .same
      · rw [gone]
        exact .released granted envelope
  | claim q =>
      simp only [machine] at eq
      split at eq
      · next requestId ask attempt active =>
          obtain ⟨written, answered⟩ :=
            w.claim_written terms q attempt ⟨requestId, ask, .claiming attempt⟩
          rw [Option.some.inj eq] at written answered
          refine ⟨written, fun admitted => ?_⟩
          obtain ⟨same, held⟩ := answered admitted
          refine ⟨q, _, .inl rfl, active, by rw [same]; exact held, ?_⟩
          intro ask' held'
          rw [held] at held'
          exact (Option.some.inj held').symm
      · cases eq
  | decide q =>
      simp only [machine] at eq
      split at eq
      · next requestId ask attempt active =>
          obtain ⟨written, answered⟩ := w.decide_written terms q attempt
            ⟨requestId, ask, .deciding attempt⟩ fun ask' row => own _ ask' row active
          rw [Option.some.inj eq] at written answered
          refine ⟨written, fun admitted => ?_⟩
          obtain ⟨held, free⟩ := answered admitted
          refine ⟨q, _, .inr rfl, active, held, ?_⟩
          intro ask' held'
          rw [free] at held'
          cases held'
      · cases eq

/-! ## What a write keeps -/

/-- The counters agree with the granted rows and stay under the caps, and the envelope of a
granted row is there, under its own tenant. -/
structure Conserved (terms : String → Terms) (db : Tables) : Prop where
  balance : ∀ id, db.spend id = db.granted id
  capped : ∀ id, db.spend id ≤ (terms id).capRuns
  opened : ∀ id row, db.envelopes.get id = some row → row.tenant = (terms id).tenant
  backed : ∀ requestId ask, db.admissions.get requestId = some ⟨ask, true⟩ →
    (db.envelopes.get ask.envelopeId).isSome

section Writes

variable (admissions : Table String Admission) (envelopes : Table String EnvelopeRow)
  (requestId id other : String) (request : Admission) (row : EnvelopeRow)

theorem spend_set : Tables.spend ⟨admissions, envelopes.set id row⟩ other =
    if other = id then row.admittedRuns else Tables.spend ⟨admissions, envelopes⟩ other := by
  unfold Tables.spend
  rw [Table.get_set]
  split <;> rfl

theorem granted_set : Tables.granted ⟨admissions.set requestId request, envelopes⟩ id +
      ((admissions.get requestId).map (weight id)).getD 0 =
    Tables.granted ⟨admissions, envelopes⟩ id + weight id request :=
  Table.sum_set (weight id) admissions requestId request

theorem granted_erase : Tables.granted ⟨admissions.erase requestId, envelopes⟩ id +
      ((admissions.get requestId).map (weight id)).getD 0 =
    Tables.granted ⟨admissions, envelopes⟩ id :=
  Table.sum_erase (weight id) admissions requestId

theorem held_set : Tables.held ⟨admissions.set requestId request, envelopes⟩ =
    update (Tables.held ⟨admissions, envelopes⟩) requestId
      (if request.admitted then some request.ask else none) := by
  funext k
  unfold Tables.held
  by_cases here : k = requestId
  · subst here
    simp [Table.get_set]
  · simp [Table.get_set, here]

theorem held_erase : Tables.held ⟨admissions.erase requestId, envelopes⟩ =
    update (Tables.held ⟨admissions, envelopes⟩) requestId none := by
  funext k
  unfold Tables.held
  by_cases here : k = requestId
  · subst here
    simp [Table.get_erase]
  · simp [Table.get_erase, here]

end Writes

@[simp] theorem weight_pending : weight id ⟨ask, false⟩ = 0 := rfl

theorem weight_granted :
    weight id ⟨ask, true⟩ = if id = ask.envelopeId then ask.runs else 0 := by
  simp [weight, eq_comm]

theorem conserved_empty (terms : String → Terms) : Conserved terms Tables.empty where
  balance _ := rfl
  capped _ := Nat.zero_le _
  opened _ _ found := by cases found
  backed _ _ found := by cases found

theorem Conserved.written {effect : Option (Entry String Ask)} {db' : Tables}
    (conserved : Conserved terms db) (written : Written terms db effect db') :
    Conserved terms db' := by
  cases written with
  | same => exact conserved
  | @claimed requestId ask free =>
      refine ⟨fun id => ?_, conserved.capped, conserved.opened, ?_⟩
      · have sum := granted_set db.admissions db.envelopes requestId id ⟨ask, false⟩
        rw [free] at sum
        exact (conserved.balance id).trans sum.symm
      · intro k ask' found
        rw [Table.get_set] at found
        split at found
        · cases found
        · exact conserved.backed k ask' found
  | @refused requestId ask pending =>
      refine ⟨fun id => ?_, conserved.capped, conserved.opened, ?_⟩
      · have sum := granted_erase db.admissions db.envelopes requestId id
        rw [pending] at sum
        exact (conserved.balance id).trans sum.symm
      · intro k ask' found
        rw [Table.get_erase] at found
        split at found
        · cases found
        · exact conserved.backed k ask' found
  | @granted requestId ask row pending counted room tenant =>
      refine ⟨fun id => ?_, fun id => ?_, ?_, ?_⟩
      · have sum := granted_set db.admissions (db.envelopes.set ask.envelopeId row) requestId id
          ⟨ask, true⟩
        have before : Tables.granted ⟨db.admissions, db.envelopes.set ask.envelopeId row⟩ id =
            db.spend id := (conserved.balance id).symm
        rw [pending, weight_granted, before] at sum
        simp only [Option.map_some, weight_pending, Option.getD_some] at sum
        rw [spend_set]
        split
        · next here =>
            subst here
            rw [if_pos rfl] at sum
            omega
        · next away =>
            rw [if_neg away] at sum
            exact sum.symm
      · rw [spend_set]
        split
        · next here => exact here ▸ room
        · exact conserved.capped id
      · intro id row' found
        rw [Table.get_set] at found
        split at found
        · next here =>
            obtain rfl := Option.some.inj found
            subst here
            rcases tenant with own | ⟨old, found, same⟩
            · exact own
            · exact same.trans (conserved.opened _ _ found)
        · exact conserved.opened id row' found
      · intro k ask' found
        simp only [Table.get_set] at found ⊢
        split at found
        · obtain rfl : ask = ask' := by simpa using found
          simp
        · split
          · rfl
          · exact conserved.backed k ask' found
  | @released requestId ask row granted envelope =>
      refine ⟨fun id => ?_, fun id => ?_, ?_, ?_⟩
      · have sum := granted_erase db.admissions (db.envelopes.set ask.envelopeId
          { row with admittedRuns := row.admittedRuns - ask.runs }) requestId id
        have before : Tables.granted ⟨db.admissions, db.envelopes.set ask.envelopeId
            { row with admittedRuns := row.admittedRuns - ask.runs }⟩ id = db.spend id :=
          (conserved.balance id).symm
        rw [granted, before] at sum
        simp only [Option.map_some, Option.getD_some, weight_granted] at sum
        rw [spend_set]
        split
        · next here =>
            subst here
            have counted : db.spend ask.envelopeId = row.admittedRuns := by
              simp [Tables.spend, envelope]
            rw [if_pos rfl] at sum
            simp only
            omega
        · next away =>
            rw [if_neg away] at sum
            exact sum.symm
      · have cap := conserved.capped id
        rw [spend_set]
        split
        · next here =>
            subst here
            have counted : db.spend ask.envelopeId = row.admittedRuns := by
              simp [Tables.spend, envelope]
            simp only
            omega
        · exact cap
      · intro id row' found
        rw [Table.get_set] at found
        split at found
        · next here =>
            obtain rfl := Option.some.inj found
            subst here
            exact conserved.opened _ row envelope
        · exact conserved.opened id row' found
      · intro k ask' found
        simp only [Table.get_erase, Table.get_set] at found ⊢
        split at found
        · cases found
        · split
          · rfl
          · exact conserved.backed k ask' found

/-- The books stay in order. -/
theorem booked_written {effect : Option (Entry String Ask)} {db' : Tables}
    {book : List (Entry String Ask)} (booked : Booked book db.held)
    (written : Written terms db effect db') : Booked (book ++ effect.toList) db'.held := by
  cases written with
  | same => simpa using booked
  | @claimed requestId ask free =>
      have still : db.held requestId = none := by simp [Tables.held, free]
      simpa [held_set, ← still] using booked
  | @refused requestId ask pending =>
      simpa [held_erase, ← held_of_pending pending] using booked
  | @granted requestId ask row pending =>
      rw [held_set]
      exact .charge booked (held_of_pending pending)
  | @released requestId ask row granted =>
      rw [held_erase]
      exact .giveBack booked (held_of_granted granted)

/-- The charges and the returns of a run, in order. -/
def book (log : List (Event × Outcome)) : List (Entry String Ask) :=
  log.filterMap fun entry => entry.2.effect

theorem runs_conserved (run : Runs (machine terms) (OwnDecision terms) World.empty log w) :
    Conserved terms w.db ∧ Booked (book log) w.db.held := by
  have empty : Booked (book []) World.empty.db.held := Booked.nil
  refine run.invariant (I := fun log w => Conserved terms w.db ∧ Booked (book log) w.db.held)
    ⟨conserved_empty terms, empty⟩ ?_
  intro log w e t o ⟨conserved, booked⟩ own eq
  obtain ⟨written, -⟩ := step_written own eq
  refine ⟨conserved.written written, ?_⟩
  have last : book (log ++ [(e, o)]) = book log ++ o.effect.toList := by
    unfold book
    rw [List.filterMap_append]
    rcases effect : o.effect with _ | entry <;> simp [effect]
  rw [last]
  exact booked_written booked written

/-! ## Releases -/

/-- A right that is held is given back whole by a release of its envelope. -/
theorem release_held (conserved : Conserved terms w.db) (held : w.db.held requestId = some ask) :
    ∃ t, machine terms w (.release ask.envelopeId requestId) =
        some (t, ⟨none, some (.returned requestId ask)⟩) ∧
      t.db.held requestId = none ∧
      t.db.spend ask.envelopeId + ask.runs = w.db.spend ask.envelopeId ∧
      ∀ id, id ≠ ask.envelopeId → t.db.spend id = w.db.spend id := by
  have granted := granted_of_held held
  obtain ⟨row, envelope⟩ := Option.isSome_iff_exists.mp (conserved.backed _ _ granted)
  have counted : w.db.spend ask.envelopeId = row.admittedRuns := by
    simp [Tables.spend, envelope]
  have share := granted_erase w.db.admissions w.db.envelopes requestId ask.envelopeId
  have total := conserved.balance ask.envelopeId
  rw [granted] at share
  simp only [Option.map_some, Option.getD_some, weight_granted, if_true] at share
  rcases releaseRuns_cases w.db ask.envelopeId (terms ask.envelopeId).tenant requestId with
    ⟨-, foreign⟩ | ⟨ask', row', granted', -, envelope', gone⟩
  · exact absurd (conserved.opened _ _ envelope) (foreign ask row granted rfl envelope)
  obtain rfl : ask = ask' := by simpa [granted] using granted'
  obtain rfl : row = row' := by simpa [envelope] using envelope'
  refine ⟨_, by simp only [machine, gone]; rfl, ?_, ?_, ?_⟩
  · simp [held_erase]
  · simp only [spend_set, if_true]
    change Tables.granted ⟨_, w.db.envelopes⟩ _ + _ = w.db.granted _ at share
    omega
  · intro id away
    rw [spend_set, if_neg away]
    rfl

/-- A release of a right that is not held on the envelope changes nothing. -/
theorem release_not_held (id requestId : String)
    (free : ∀ ask, w.db.held requestId = some ask → ask.envelopeId ≠ id) :
    machine terms w (.release id requestId) = some (w, ⟨none, none⟩) := by
  rcases releaseRuns_cases w.db id (terms id).tenant requestId with
    ⟨same, -⟩ | ⟨ask, row, granted, here, -⟩
  · simp [machine, same]
  · exact absurd here (free ask (held_of_granted granted))

/-! ## The two stores -/

/-- The in-memory store holds the envelopes of the tables and their granted rows; no row is
pending between calls. -/
structure Twin (db : Tables) (m : Memory) : Prop where
  rows : ∀ id, m.rows.get id = db.envelopes.get id
  requests : ∀ requestId,
    db.admissions.get requestId = (m.requests.get requestId).map fun ask => ⟨ask, true⟩

variable {m : Memory}

theorem Twin.spend (twin : Twin db m) (id : String) : m.spend id = db.spend id := by
  rw [Memory.spend, Tables.spend, twin.rows]

theorem Twin.releaseRuns (twin : Twin db m) (id tenant requestId : String) :
    Twin (db.releaseRuns id tenant requestId).1 (m.releaseRuns id tenant requestId) := by
  unfold Tables.releaseRuns Memory.releaseRuns
  rw [twin.requests requestId, ← twin.rows id]
  rcases m.requests.get requestId with _ | ask
  · exact twin
  rcases m.rows.get id with _ | row
  · exact twin
  by_cases here : ask.envelopeId = id
  · by_cases own : row.tenant = tenant
    · simp only [Option.map_some, here, own, and_self, if_true, ne_eq, not_true, if_false]
      refine ⟨fun k => ?_, fun k => ?_⟩
      · simp only [Table.get_set, twin.rows k]
      · simp only [Table.get_erase]
        split
        · rfl
        · exact twin.requests k
    · simpa [here, own] using twin
  · simpa [here] using twin

variable {runs capRuns : Nat}

/-- A held id is answered from its claim. -/
theorem tryAdmitRuns_held {id tenant requestId : String} (fits : runs ≤ maxInt)
    (granted : db.admissions.get requestId = some ⟨ask, true⟩) :
    db.tryAdmitRuns id tenant requestId runs capRuns =
      (db, (assertSameRequest ask ⟨id, runs⟩).getD (.admitted true)) := by
  have claimed : db.claim requestId ⟨id, runs⟩ = some (db, ⟨ask, true⟩, false) := by
    simp [Tables.claim, granted, Nat.not_lt.mpr fits]
  simp only [Tables.tryAdmitRuns, attempts, Tables.tryAdmitLoop, claimed, afterClaim,
    Bool.false_eq_true, if_false]
  rcases assertSameRequest ask ⟨id, runs⟩ with _ | reply <;> rfl

/-- A free id is claimed and decided; the first attempt of a call that nothing interrupts
ends it. -/
theorem tryAdmitRuns_free {id tenant requestId : String} (fits : runs ≤ maxInt)
    (cap : capRuns ≤ maxInt) (free : db.admissions.get requestId = none) :
    db.tryAdmitRuns id tenant requestId runs capRuns =
      match db.counted tenant capRuns ⟨id, runs⟩ with
      | none => (⟨db.admissions.set requestId ⟨⟨id, runs⟩, false⟩, db.envelopes⟩, .failed)
      | some none =>
          (⟨(db.admissions.set requestId ⟨⟨id, runs⟩, false⟩).erase requestId, db.envelopes⟩,
            .admitted false)
      | some (some row) =>
          (⟨(db.admissions.set requestId ⟨⟨id, runs⟩, false⟩).set requestId ⟨⟨id, runs⟩, true⟩,
            db.envelopes.set id row⟩, .admitted true) := by
  have claimed : db.claim requestId ⟨id, runs⟩ =
      some (⟨db.admissions.set requestId ⟨⟨id, runs⟩, false⟩, db.envelopes⟩,
        ⟨⟨id, runs⟩, false⟩, true) := by
    simp [Tables.claim, free, Nat.not_lt.mpr fits]
  have pending : (db.admissions.set requestId ⟨⟨id, runs⟩, false⟩).get requestId =
      some ⟨⟨id, runs⟩, false⟩ := by
    rw [Table.get_set, if_pos rfl]
  have same : Tables.counted ⟨db.admissions.set requestId ⟨⟨id, runs⟩, false⟩, db.envelopes⟩
      tenant capRuns ⟨id, runs⟩ = db.counted tenant capRuns ⟨id, runs⟩ := rfl
  simp only [Tables.tryAdmitRuns, attempts, Tables.tryAdmitLoop, claimed, afterClaim, if_true,
    Tables.decide, Nat.not_lt.mpr cap, if_false, pending, same]
  rcases db.counted tenant capRuns ⟨id, runs⟩ with _ | _ | row <;> rfl

/-- Within the range of `integer` the decision is the check of the in-memory store. -/
theorem Twin.counted (twin : Twin db m) {id : String} (tenant : String)
    (sum : runs ≤ capRuns → ∀ row, db.envelopes.get id = some row →
      row.admittedRuns + runs ≤ maxInt) :
    db.counted tenant capRuns ⟨id, runs⟩ =
      some (if capRuns < (m.row id tenant).admittedRuns + runs then none
        else some { m.row id tenant with
          admittedRuns := (m.row id tenant).admittedRuns + runs }) := by
  unfold Tables.counted Memory.row
  rw [twin.rows id]
  simp only
  by_cases large : capRuns < runs
  · rw [if_pos large, if_pos (by omega)]
  rw [if_neg large]
  rcases found : db.envelopes.get id with _ | row
  · rw [if_neg (by simpa using large)]
    simp
  · have fits := sum (Nat.not_lt.mp large) row found
    simp only [Option.getD_some]
    rw [if_neg (Nat.not_lt.mpr fits)]
    by_cases room : row.admittedRuns + runs ≤ capRuns
    · rw [if_pos room, if_neg (Nat.not_lt.mpr room)]
    · rw [if_neg room, if_pos (Nat.not_le.mp room)]

theorem Twin.tryAdmitRuns (twin : Twin db m) {id tenant requestId : String}
    (range : db.inRange (.tryAdmitRuns id tenant requestId runs capRuns)) :
    Twin (db.tryAdmitRuns id tenant requestId runs capRuns).1
        (m.tryAdmitRuns id tenant requestId runs capRuns).1 ∧
      (db.tryAdmitRuns id tenant requestId runs capRuns).2 =
        (m.tryAdmitRuns id tenant requestId runs capRuns).2 := by
  obtain ⟨fits, deciding⟩ := range
  have request := twin.requests requestId
  unfold Memory.tryAdmitRuns
  rcases found : m.requests.get requestId with _ | held
  · rw [found] at request
    obtain ⟨cap, sum⟩ := deciding (by simp [Tables.held, request])
    have erased : ∀ k row, ((db.admissions.set requestId row).erase requestId).get k =
        db.admissions.get k := by
      intro k row
      rw [Table.get_erase, Table.get_set]
      split
      · next here => rw [here, request, Option.map_none]
      · rfl
    have written : ∀ k row row', ((db.admissions.set requestId row).set requestId row').get k =
        if k = requestId then some row' else db.admissions.get k := by
      intro k row row'
      simp only [Table.get_set]
      split <;> rfl
    rw [tryAdmitRuns_free fits cap request, twin.counted tenant sum]
    by_cases room : capRuns < (m.row id tenant).admittedRuns + runs
    · simp only [room, if_true, and_true]
      exact ⟨twin.rows, fun k => (erased k _).trans (twin.requests k)⟩
    · simp only [room, if_false, and_true]
      refine ⟨fun k => ?_, fun k => ?_⟩
      · simp only [Table.get_set, twin.rows k]
      · simp only [written, Table.get_set]
        split
        · rfl
        · exact twin.requests k
  · rw [found] at request
    rw [tryAdmitRuns_held fits request]
    exact ⟨twin, rfl⟩

theorem stores_agree {calls : List (Request × Response)}
    (run : Runs pgEnvelopeStore Tables.inRange Tables.empty calls db) :
    ∃ m, Runs inMemoryEnvelopeStore Always Memory.empty calls m := by
  have empty : Twin Tables.empty Memory.empty := ⟨fun _ => rfl, fun _ => rfl⟩
  have twins : ∃ m, Runs inMemoryEnvelopeStore Always Memory.empty calls m ∧ Twin db m := by
    induction run with
    | refl => exact ⟨_, .refl, empty⟩
    | @tail _ db _ request response _ range eq ih =>
        obtain ⟨m, run', twin⟩ := ih
        cases request with
        | tryAdmitRuns id tenant requestId runs capRuns =>
            simp only [pgEnvelopeStore, Option.some.injEq, Prod.mk.injEq] at eq
            obtain ⟨rfl, rfl⟩ := eq
            obtain ⟨twin', same⟩ := twin.tryAdmitRuns range
            refine ⟨_, .tail run' trivial ?_, twin'⟩
            rw [same]
            rfl
        | releaseRuns id tenant requestId =>
            obtain ⟨rfl, rfl⟩ := Prod.mk.inj (Option.some.inj eq)
            exact ⟨_, .tail run' trivial rfl, twin.releaseRuns id tenant requestId⟩
        | spend id =>
            obtain ⟨rfl, rfl⟩ := Prod.mk.inj (Option.some.inj eq)
            refine ⟨m, .tail run' trivial ?_, twin⟩
            simp only [inMemoryEnvelopeStore, twin.spend]
  obtain ⟨m, run', -⟩ := twins
  exact ⟨m, run'⟩

/-! ## The capacity -/

/-- What a run says about the envelopes: the counters are the sums of the granted rows and
stay under the caps, a request id is charged once until it is given back, an answer `true`
means that the caller's own ask is held, and a release gives back exactly what is held. -/
structure Accounts (terms : String → Terms) (log : List (Event × Outcome)) (w : World) :
    Prop where
  balance : ∀ id, w.db.spend id = w.db.granted id
  capped : ∀ id, w.db.spend id ≤ (terms id).capRuns
  booked : Booked (book log) w.db.held
  once : ∀ requestId, charges requestId (book log) =
    returns requestId (book log) + (if (w.db.held requestId).isSome then 1 else 0)
  answered : ∀ e t o, OwnDecision terms w e → machine terms w e = some (t, o) →
    o.reply = some (.admitted true) → ∃ q call, (e = .claim q ∨ e = .decide q) ∧
      w.calls q = some call ∧ t.db.held call.requestId = some call.ask ∧
      ∀ ask, w.db.held call.requestId = some ask → ask = call.ask
  givenBack : ∀ requestId ask, w.db.held requestId = some ask →
    ∃ t, machine terms w (.release ask.envelopeId requestId) =
        some (t, ⟨none, some (.returned requestId ask)⟩) ∧
      t.db.held requestId = none ∧
      t.db.spend ask.envelopeId + ask.runs = w.db.spend ask.envelopeId ∧
      ∀ id, id ≠ ask.envelopeId → t.db.spend id = w.db.spend id
  notHeld : ∀ id requestId, (∀ ask, w.db.held requestId = some ask → ask.envelopeId ≠ id) →
    machine terms w (.release id requestId) = some (w, ⟨none, none⟩)

/-- The capacity is conserved in every run whose decisions are about the caller's own ask,
and call by call the two stores answer alike while no statement leaves the range of
`integer`. -/
theorem capacity_conserved (run : Runs (machine terms) (OwnDecision terms) World.empty log w) :
    Accounts terms log w ∧
      ∀ calls db, Runs pgEnvelopeStore Tables.inRange Tables.empty calls db →
        ∃ m, Runs inMemoryEnvelopeStore Always Memory.empty calls m := by
  obtain ⟨conserved, booked⟩ := runs_conserved run
  refine ⟨?_, fun _ _ => stores_agree⟩
  exact {
    balance := conserved.balance
    capped := conserved.capped
    booked := booked
    once := booked.count
    answered := fun _ _ _ own eq => (step_written own eq).2
    givenBack := fun _ _ => release_held conserved
    notHeld := release_not_held }

/-- The terms of the runs below: five runs for each envelope, one for `delegate`. -/
def sampleTerms (id : String) : Terms :=
  if id = "delegate" then ⟨1, "beta"⟩ else ⟨5, "acme"⟩

/-- A call is admitted and its right is given back. -/
theorem capacity_conserved_release :
    ∃ log w, Runs (machine sampleTerms) (OwnDecision sampleTerms) World.empty log w ∧
      charges "adm:run:r1" (book log) = 1 ∧ Accounts sampleTerms log w := by
  have r1 : Runs (machine sampleTerms) (OwnDecision sampleTerms) World.empty
      ([] ++ [(.begin 0 "adm:run:r1" ⟨"env-1", 3⟩, _)]) _ := .tail .refl trivial rfl
  have r2 : Runs (machine sampleTerms) (OwnDecision sampleTerms) World.empty
      (_ ++ [(.claim 0, _)]) _ := .tail r1 trivial rfl
  have r3 : Runs (machine sampleTerms) (OwnDecision sampleTerms) World.empty
      (_ ++ [(.decide 0, _)]) _ := .tail r2 (by
    intro call ask row found pending _
    obtain rfl := Option.some.inj found
    exact (congrArg Admission.ask (Option.some.inj pending)).symm) rfl
  have r4 : Runs (machine sampleTerms) (OwnDecision sampleTerms) World.empty
      (_ ++ [(.release "env-1" "adm:run:r1", _)]) _ := .tail r3 trivial rfl
  exact ⟨_, _, r4, by decide +kernel, (capacity_conserved r4).1⟩

/-- A call whose row was granted to another, released and claimed anew for another ask still
decides under its request id, and grants that ask beyond the cap of its envelope. -/
theorem foreign_decision_exceeds_cap :
    ∃ log w, Runs (machine sampleTerms) Always World.empty log w ∧
      (sampleTerms "delegate").capRuns < w.db.spend "delegate" := by
  have r : Runs (machine sampleTerms) Always World.empty _ _ := runs_of_exec _ _ _
    [.begin 0 "r" ⟨"env-1", 2⟩, .claim 0, .begin 1 "r" ⟨"env-1", 2⟩, .claim 1, .decide 1,
      .release "env-1" "r", .begin 2 "r" ⟨"delegate", 2⟩, .claim 2, .decide 0] rfl
  exact ⟨_, _, r, by decide +kernel⟩

end Everdict.Envelope
