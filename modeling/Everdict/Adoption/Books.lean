import Everdict.Adoption.Lifecycle

/-!
# The books of the campaigns

For every campaign the facts in the outbox tell what its rows are (`Books`).  `Writes` lists
what one step can write: nothing, a campaign, a close with the operation it owes, or one mark
that the row allows; each keeps the books, and operations only move on.
-/

namespace Everdict.Adoption

open Evolution

def factsOf (id : String) (s : CampaignStore) : List CampaignFact :=
  s.events.filter fun f => campaignOf f = id

/-- The close of the record names what the operation's proof authorizes. -/
structure Authorizes (record : EvolutionCampaignRecord) (op : AdoptionOperation) : Prop where
  tenant : record.tenant = op.tenant
  state : record.state = .closed .adopted
  close : ∃ close waived, record.close = some close ∧
    close.outcome = .adopted op.proof.candidate.version op.proof.provingScorecardId
      op.proof.candidate.specDigest op.proof.candidateSource waived
  code : op.code.map coordinates = (codeDebtOf op.proof).map coordinates

/-- Operations only move on, and a closed campaign stays as it closed. -/
structure Advances (s t : CampaignStore) : Prop where
  rows : ∀ id op, s.adoptions.get id = some op →
    ∃ row, t.adoptions.get id = some row ∧ Older op row
  closed : ∀ id record, s.byId.get id = some record → record.state ≠ .opened →
    ∃ record', t.byId.get id = some record' ∧ record'.tenant = record.tenant ∧
      record'.state = record.state ∧ record'.close = record.close

variable {s t : CampaignStore}

theorem Advances.refl (s : CampaignStore) : Advances s s where
  rows := fun _ op found => ⟨op, found, .refl op⟩
  closed := fun _ record found _ => ⟨record, found, rfl, rfl, rfl⟩

theorem Advances.trans {u : CampaignStore} (first : Advances s t) (second : Advances t u) :
    Advances s u where
  rows := by
    intro id op found
    obtain ⟨row, there, older⟩ := first.rows id op found
    obtain ⟨row', there', older'⟩ := second.rows id row there
    exact ⟨row', there', older.trans older'⟩
  closed := by
    intro id record found closed
    obtain ⟨record', there, tenant, state, close⟩ := first.closed id record found closed
    obtain ⟨record'', there', tenant', state', close'⟩ :=
      second.closed id record' there (state ▸ closed)
    exact ⟨record'', there', tenant'.trans tenant, state'.trans state, close'.trans close⟩

/-! ## What a step writes -/

/-- What of a record its rounds leave alone. -/
def life (record : EvolutionCampaignRecord) : String × CampaignState × Option CampaignClose :=
  (record.tenant, record.state, record.close)

inductive Writes (s : CampaignStore) : CampaignStore → List CampaignFact → Prop
  | quiet {t : CampaignStore} : t.adoptions = s.adoptions → t.events = s.events →
      (∀ id, (t.byId.get id).map life = (s.byId.get id).map life) → Writes s t []
  | created {t : CampaignStore} {record : EvolutionCampaignRecord} :
      s.byId.get record.id = none → record.state = .opened →
      t.byId = s.byId.set record.id record → t.adoptions = s.adoptions →
      t.events = s.events ++ [.opened record.id] → Writes s t [.opened record.id]
  | halted {t : CampaignStore} {id : String} {record closed : EvolutionCampaignRecord}
      {reason : HaltedState} : s.byId.get id = some record → record.state = .opened →
      closed.state = .closed (.halted reason) → t.byId = s.byId.set id closed →
      t.adoptions = s.adoptions → t.events = s.events ++ [.closed id (.halted reason)] →
      Writes s t [.closed id (.halted reason)]
  | adopted {t : CampaignStore} {id : String} {record closed : EvolutionCampaignRecord}
      {op : AdoptionOperation} : s.byId.get id = some record → record.state = .opened →
      Decided id op → Authorizes closed op → t.byId = s.byId.set id closed →
      t.adoptions = s.adoptions.set id op → t.events = s.events ++ [.closed id .adopted] →
      Writes s t [.closed id .adopted]
  | marked {t : CampaignStore} {id : String} {row : AdoptionOperation} {mark : Mark}
      {fact : CampaignFact} : s.adoptions.get id = some row → Spends row mark fact →
      t.byId = s.byId → t.adoptions = s.adoptions.set id (mark.apply row row) →
      t.events = s.events ++ [fact] → Writes s t [fact]

/-- The rows and the facts of every campaign, in every state a run comes to. -/
structure Books (s : CampaignStore) : Prop where
  told : ∀ id, Told id (factsOf id s) (s.adoptions.get id)
  authorized : ∀ id op, s.adoptions.get id = some op →
    ∃ record, s.byId.get id = some record ∧ Authorizes record op
  absent : ∀ id, s.byId.get id = none → factsOf id s = []
  fresh : ∀ id record, s.byId.get id = some record → record.state = .opened →
    factsOf id s = [.opened id]

variable {id : String}

theorem Books.none_of_absent (books : Books s) (absent : s.byId.get id = none) :
    s.adoptions.get id = none := by
  cases row : s.adoptions.get id with
  | none => rfl
  | some op =>
      obtain ⟨record, found, -⟩ := books.authorized id op row
      rw [absent] at found
      cases found

variable {record : EvolutionCampaignRecord}

theorem Books.none_of_opened (books : Books s) (found : s.byId.get id = some record)
    (isOpen : record.state = .opened) :
    s.adoptions.get id = none := by
  cases row : s.adoptions.get id with
  | none => rfl
  | some op =>
      obtain ⟨record', found', authorizes⟩ := books.authorized id op row
      obtain rfl := Option.some.inj (found.symm.trans found')
      have closed := authorizes.state
      rw [isOpen] at closed
      cases closed

variable {facts : List CampaignFact}

theorem factsOf_append (id : String) (eq : t.events = s.events ++ facts) :
    factsOf id t = factsOf id s ++ facts.filter fun f => campaignOf f = id := by
  rw [factsOf, eq, List.filter_append]
  rfl

variable {fact : CampaignFact}

theorem factsOf_concat_self (eq : t.events = s.events ++ [fact]) (own : campaignOf fact = id) :
    factsOf id t = factsOf id s ++ [fact] := by
  rw [factsOf_append id eq, List.filter_cons_of_pos (by simpa using own), List.filter_nil]

theorem factsOf_concat_other (eq : t.events = s.events ++ [fact]) (other : campaignOf fact ≠ id) :
    factsOf id t = factsOf id s := by
  rw [factsOf_append id eq, List.filter_cons_of_neg (by simpa using other), List.filter_nil,
    List.append_nil]

theorem Spends.campaign {row : AdoptionOperation} {mark : Mark} (spends : Spends row mark fact) :
    campaignOf fact = row.proof.campaignId := by
  cases spends <;> rfl

theorem Authorizes.of_older {op row : AdoptionOperation} (authorizes : Authorizes record op)
    (older : Older op row) : Authorizes record row where
  tenant := authorizes.tenant.trans older.tenant.symm
  state := authorizes.state
  close := older.proof ▸ authorizes.close
  code := by rw [older.owes, older.proof, authorizes.code]

theorem Authorizes.of_life {record record' : EvolutionCampaignRecord} {op : AdoptionOperation}
    (authorizes : Authorizes record op) (same : life record' = life record) :
    Authorizes record' op := by
  obtain ⟨tenant, state, close⟩ : record'.tenant = record.tenant ∧
      record'.state = record.state ∧ record'.close = record.close := by
    simpa [life] using same
  exact ⟨tenant.trans authorizes.tenant, state.trans authorizes.state,
    close ▸ authorizes.close, authorizes.code⟩

theorem Writes.events_eq (writes : Writes s t facts) :
    t.events = s.events ++ facts := by
  cases writes with
  | quiet _ events _ => rw [events, List.append_nil]
  | created _ _ _ _ events | halted _ _ _ _ _ events | adopted _ _ _ _ _ _ events
  | marked _ _ _ _ events => exact events

theorem Writes.advances (books : Books s) (writes : Writes s t facts) : Advances s t := by
  cases writes with
  | quiet adoptions events records =>
      refine ⟨fun id op found => ⟨op, by rw [adoptions, found], .refl op⟩, ?_⟩
      intro id record found closed
      have same := records id
      rw [found, Option.map_some] at same
      obtain ⟨record', there, eq⟩ := Option.map_eq_some_iff.mp same
      simp only [life, Prod.mk.injEq] at eq
      exact ⟨record', there, eq⟩
  | @created record absent isOpen byId adoptions events =>
      refine ⟨fun id op found => ⟨op, by rw [adoptions, found], .refl op⟩, ?_⟩
      intro id old found closed
      refine ⟨old, ?_, rfl, rfl, rfl⟩
      rw [byId, Table.get_set, if_neg, found]
      rintro rfl
      rw [absent] at found
      cases found
  | @halted id record closed reason found isOpen state byId adoptions events =>
      refine ⟨fun id op found => ⟨op, by rw [adoptions, found], .refl op⟩, ?_⟩
      intro other old there shut
      refine ⟨old, ?_, rfl, rfl, rfl⟩
      rw [byId, Table.get_set, if_neg, there]
      rintro rfl
      obtain rfl := Option.some.inj (found.symm.trans there)
      exact shut isOpen
  | @adopted id record closed op found isOpen decided authorizes byId adoptions events =>
      have none := books.none_of_opened found isOpen
      refine ⟨?_, ?_⟩
      · intro other old there
        refine ⟨old, ?_, .refl old⟩
        rw [adoptions, Table.get_set, if_neg, there]
        rintro rfl
        rw [none] at there
        cases there
      · intro other old there shut
        refine ⟨old, ?_, rfl, rfl, rfl⟩
        rw [byId, Table.get_set, if_neg, there]
        rintro rfl
        obtain rfl := Option.some.inj (found.symm.trans there)
        exact shut isOpen
  | @marked id row mark fact found spends byId adoptions events =>
      refine ⟨?_, fun other record there _ => ⟨record, by rw [byId, there], rfl, rfl, rfl⟩⟩
      intro other old there
      by_cases same : other = id
      · subst same
        obtain rfl := Option.some.inj (found.symm.trans there)
        have told := books.told other
        rw [found] at told
        exact ⟨mark.apply row row, by rw [adoptions, Table.get_set, if_pos rfl],
          spends.older told⟩
      · exact ⟨old, by rw [adoptions, Table.get_set, if_neg same, there], .refl old⟩

/-- A fact of one campaign goes at the end of its story, and the rows of the others stay. -/
theorem told_step (books : Books s) (events : t.events = s.events ++ [fact])
    (named : campaignOf fact = id) (own : Told id (factsOf id s ++ [fact]) (t.adoptions.get id))
    (others : ∀ other, other ≠ id → t.adoptions.get other = s.adoptions.get other)
    (other : String) : Told other (factsOf other t) (t.adoptions.get other) := by
  by_cases same : other = id
  · subst same
    rw [factsOf_concat_self events named]
    exact own
  · rw [factsOf_concat_other events (named ▸ Ne.symm same), others other same]
    exact books.told other

theorem get_set_other {κ ρ : Type*} [DecidableEq κ] {table table' : Table κ ρ} {k : κ} {r : ρ}
    (eq : table' = table.set k r) (other : κ) (ne : other ≠ k) :
    table'.get other = table.get other := by
  rw [eq, Table.get_set, if_neg ne]

/-- A record that is not the one written reads as before. -/
theorem absent_step (books : Books s) (byId : t.byId = s.byId.set id record)
    (events : t.events = s.events ++ [fact]) (named : campaignOf fact = id) (other : String)
    (absent : t.byId.get other = none) :
    factsOf other t = [] := by
  by_cases same : other = id
  · rw [same, byId, Table.get_set, if_pos rfl] at absent
    cases absent
  · rw [factsOf_concat_other events (named ▸ Ne.symm same)]
    exact books.absent other (by rwa [get_set_other byId other same] at absent)

theorem fresh_step (books : Books s) (byId : t.byId = s.byId.set id record)
    (events : t.events = s.events ++ [fact]) (named : campaignOf fact = id)
    (own : record.state = .opened → factsOf id s ++ [fact] = [.opened id]) (other : String)
    (record' : EvolutionCampaignRecord) (found : t.byId.get other = some record')
    (isOpen : record'.state = .opened) : factsOf other t = [.opened other] := by
  by_cases same : other = id
  · subst same
    rw [byId, Table.get_set, if_pos rfl] at found
    obtain rfl := Option.some.inj found
    rw [factsOf_concat_self events named, own isOpen]
  · rw [factsOf_concat_other events (named ▸ Ne.symm same)]
    exact books.fresh other record' (by rwa [get_set_other byId other same] at found) isOpen

theorem authorized_step (books : Books s) (byId : t.byId = s.byId.set id record)
    (own : ∀ op, t.adoptions.get id = some op → Authorizes record op)
    (others : ∀ other, other ≠ id → t.adoptions.get other = s.adoptions.get other)
    (other : String) (op : AdoptionOperation) (row : t.adoptions.get other = some op) :
    ∃ record, t.byId.get other = some record ∧ Authorizes record op := by
  by_cases same : other = id
  · subst same
    exact ⟨record, by rw [byId, Table.get_set, if_pos rfl], own op row⟩
  · obtain ⟨record', found, authorizes⟩ :=
      books.authorized other op (by rwa [others other same] at row)
    exact ⟨record', by rwa [get_set_other byId other same], authorizes⟩

/-- One record is written and one fact told. -/
theorem Books.write (books : Books s) (byId : t.byId = s.byId.set id record)
    (events : t.events = s.events ++ [fact]) (named : campaignOf fact = id)
    (others : ∀ other, other ≠ id → t.adoptions.get other = s.adoptions.get other)
    (told : Told id (factsOf id s ++ [fact]) (t.adoptions.get id))
    (authorizes : ∀ op, t.adoptions.get id = some op → Authorizes record op)
    (fresh : record.state = .opened → factsOf id s ++ [fact] = [.opened id]) : Books t where
  told := told_step books events named told others
  authorized := authorized_step books byId authorizes others
  absent := absent_step books byId events named
  fresh := fresh_step books byId events named fresh

theorem Books.quiet (books : Books s) (adoptions : t.adoptions = s.adoptions)
    (events : t.events = s.events)
    (records : ∀ id, (t.byId.get id).map life = (s.byId.get id).map life) : Books t := by
  have same : ∀ id, factsOf id t = factsOf id s := fun id => by rw [factsOf, events]; rfl
  refine ⟨?_, ?_, ?_, ?_⟩
  · intro id
    rw [same, adoptions]
    exact books.told id
  · intro id op row
    rw [adoptions] at row
    obtain ⟨record, found, authorizes⟩ := books.authorized id op row
    have here := records id
    rw [found, Option.map_some] at here
    obtain ⟨record', there, eq⟩ := Option.map_eq_some_iff.mp here
    exact ⟨record', there, authorizes.of_life eq⟩
  · intro id absent
    have here := records id
    rw [absent, Option.map_none] at here
    rw [same]
    exact books.absent id (Option.map_eq_none_iff.mp here.symm)
  · intro id record found isOpen
    have here := records id
    rw [found, Option.map_some] at here
    obtain ⟨record', there, eq⟩ := Option.map_eq_some_iff.mp here.symm
    simp only [life, Prod.mk.injEq] at eq
    rw [same]
    exact books.fresh id record' there (eq.2.1.trans isOpen)

theorem Books.mark {row : AdoptionOperation} {mark : Mark} (books : Books s)
    (found : s.adoptions.get id = some row) (spends : Spends row mark fact)
    (byId : t.byId = s.byId) (adoptions : t.adoptions = s.adoptions.set id (mark.apply row row))
    (events : t.events = s.events ++ [fact]) : Books t := by
  have told := books.told id
  rw [found] at told
  have named := spends.campaign.trans (told.tells row rfl).campaign
  have here : t.adoptions.get id = some (mark.apply row row) := by
    rw [adoptions, Table.get_set, if_pos rfl]
  have others := get_set_other adoptions
  obtain ⟨record, there, authorizes⟩ := books.authorized id row found
  refine ⟨told_step books events named ?_ others, ?_, ?_, ?_⟩
  · rw [here]
    exact told.marked spends
  · intro other op isRow
    rw [byId]
    by_cases same : other = id
    · subst same
      obtain rfl := Option.some.inj (here.symm.trans isRow)
      exact ⟨record, there, authorizes.of_older (spends.older told)⟩
    · rw [others other same] at isRow
      exact books.authorized other op isRow
  · intro other absent
    rw [byId] at absent
    have ne : id ≠ other := by
      rintro rfl
      rw [there] at absent
      cases absent
    rw [factsOf_concat_other events (named ▸ ne)]
    exact books.absent other absent
  · intro other record' found' isOpen
    rw [byId] at found'
    have ne : id ≠ other := by
      rintro rfl
      obtain rfl := Option.some.inj (found'.symm.trans there)
      have closed := authorizes.state
      rw [isOpen] at closed
      cases closed
    rw [factsOf_concat_other events (named ▸ ne)]
    exact books.fresh other record' found' isOpen

theorem Writes.books (books : Books s) (writes : Writes s t facts) :
    Books t := by
  cases writes with
  | quiet adoptions events records => exact books.quiet adoptions events records
  | created absent isOpen byId adoptions events =>
      have none := books.none_of_absent absent
      have empty := books.absent _ absent
      refine books.write byId events rfl (fun _ _ => by rw [adoptions]) ?_ ?_ ?_
      · rw [empty, adoptions, none]
        exact .opened
      · intro op row
        rw [adoptions, none] at row
        cases row
      · exact fun _ => by rw [empty]; rfl
  | @halted id record closed reason found isOpen state byId adoptions events =>
      have none := books.none_of_opened found isOpen
      have opened := books.fresh id record found isOpen
      refine books.write byId events rfl (fun _ _ => by rw [adoptions]) ?_ ?_ ?_
      · rw [opened, adoptions, none]
        exact .halted reason
      · intro op row
        rw [adoptions, none] at row
        cases row
      · exact fun impossible => by rw [state] at impossible; cases impossible
  | @adopted id record closed op found isOpen decided authorizes byId adoptions events =>
      have opened := books.fresh id record found isOpen
      have here : t.adoptions.get id = some op := by rw [adoptions, Table.get_set, if_pos rfl]
      refine books.write byId events rfl (get_set_other adoptions) ?_ ?_ ?_
      · rw [opened, here]
        exact .adopted decided
      · intro op' row
        obtain rfl := Option.some.inj (here.symm.trans row)
        exact authorizes
      · exact fun impossible => by rw [authorizes.state] at impossible; cases impossible
  | marked found spends byId adoptions events =>
      exact books.mark found spends byId adoptions events

end Everdict.Adoption
