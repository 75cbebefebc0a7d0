import Everdict.SharedWorld.Ledgers

/-!
# Lives of a shared world

`Twin` is what the two ledgers have in common: the same rows, and for every shared key a
pointer to a row of it, which is the live one while there is one.  `Did` lists what a call
does to both, with the one answer they give, where a join writes `updatedAt` in both
(`Stamped`); either ledger of a run is that of a stamped one.

`releaseShared` of either ledger writes rows that are already released, and the two statements of
the Postgres ledger that select by key alone answer any row of it.
-/

namespace Everdict.SharedWorld

open Transition.Machine Sorting

variable {s t : Ledgers} {event : Event} {tenant sharedKey id : String} {row new x : World}

/-! ## Rows of a table -/

theorem mem_set {rows : Table String World} {k : String} (name : World → String)
    (own : ∀ k row, rows.get k = some row → k = name row) :
    x ∈ (rows.set k new).values ↔ x = new ∨ x ∈ rows.values ∧ name x ≠ k := by
  simp only [Table.mem_values, Table.get_set]
  constructor
  · rintro ⟨k', found⟩
    split at found
    · exact .inl (Option.some.inj found).symm
    · next other => exact .inr ⟨⟨k', found⟩, fun same => other ((own _ _ found).trans same)⟩
  · rintro (rfl | ⟨⟨k', found⟩, other⟩)
    · exact ⟨k, if_pos rfl⟩
    · refine ⟨k', ?_⟩
      rw [if_neg fun same => other ((own _ _ found).symm.trans same)]
      exact found

theorem nodup_values {rows : Table String World} (name : World → String)
    (own : ∀ k row, rows.get k = some row → k = name row) : rows.values.Nodup := by
  have keys : rows.values.map name = rows.entries.map Prod.fst := by
    unfold Table.values
    rw [List.map_map]
    refine List.map_congr_left fun e member => ?_
    exact (own e.1 e.2 (Table.get_eq_some.mpr member)).symm
  exact List.Nodup.of_map name (keys ▸ rows.nodup)

/-! ## What the ledgers have in common -/

structure Twin (s : Ledgers) : Prop where
  keyed : ∀ k row, s.memory.rows.get k = some row → k = InMemory.key row.tenant row.id
  own : ∀ id row, s.postgres.rows.get id = some row → id = row.id
  same : ∀ row, row ∈ s.memory.rows.values ↔ row ∈ s.postgres.rows.values
  named : ∀ row ∈ s.postgres.rows.values, Postgres.named row = true
  pointer : ∀ index id, s.memory.shared.get index = some id →
    ∃ row ∈ s.postgres.rows.values, ∃ k, row.sharedKey = some k ∧ row.id = id ∧
      InMemory.sharedIndex row.tenant k = index
  pointed : ∀ row ∈ s.postgres.rows.values, ∀ k, row.sharedKey = some k →
    ∃ row' ∈ s.postgres.rows.values, row'.tenant = row.tenant ∧ row'.sharedKey = some k ∧
      s.memory.shared.get (InMemory.sharedIndex row.tenant k) = some row'.id ∧
      (row.live = true → row' = row)

theorem twin_empty : Twin Ledgers.empty where
  keyed _ _ found := by cases found
  own _ _ found := by cases found
  same _ := Iff.rfl
  named _ member := by cases member
  pointer _ _ found := by cases found
  pointed _ member := by cases member

theorem isOf_iff : row.isOf tenant sharedKey = true ↔
    row.tenant = tenant ∧ row.sharedKey = some sharedKey := by
  simp [World.isOf]

theorem Twin.get_own (twin : Twin s) (member : row ∈ s.postgres.rows.values) :
    s.postgres.rows.get row.id = some row := by
  obtain ⟨id, found⟩ := Table.mem_values.mp member
  rwa [twin.own id row found] at found

theorem Twin.get_key (twin : Twin s) (member : row ∈ s.postgres.rows.values) :
    s.memory.rows.get (InMemory.key row.tenant row.id) = some row := by
  obtain ⟨k, found⟩ := Table.mem_values.mp ((twin.same row).mpr member)
  rwa [twin.keyed k row found] at found

theorem Twin.eq_of_id (twin : Twin s) (member : row ∈ s.postgres.rows.values)
    (member' : x ∈ s.postgres.rows.values) (same : x.id = row.id) : x = row := by
  have found := twin.get_own member'
  rw [same, twin.get_own member] at found
  exact (Option.some.inj found).symm

theorem Twin.eq_of_key (twin : Twin s) (member : row ∈ s.postgres.rows.values)
    (member' : x ∈ s.postgres.rows.values)
    (same : InMemory.key x.tenant x.id = InMemory.key row.tenant row.id) : x = row := by
  have found := twin.get_key member'
  rw [same, twin.get_key member] at found
  exact (Option.some.inj found).symm

/-- At most one row of a key is not released. -/
theorem Twin.one_live (twin : Twin s) (member : row ∈ s.postgres.rows.values)
    (member' : x ∈ s.postgres.rows.values) (mine : row.isOf tenant sharedKey = true)
    (mine' : x.isOf tenant sharedKey = true) (live : row.live = true) (live' : x.live = true) :
    x = row := by
  obtain ⟨rfl, key⟩ := isOf_iff.mp mine
  obtain ⟨same, key'⟩ := isOf_iff.mp mine'
  obtain ⟨y, inRows, -, -, at', eq⟩ := twin.pointed row member _ key
  obtain ⟨y', inRows', -, -, at'', eq'⟩ := twin.pointed x member' _ key'
  rw [same, at', Option.some.injEq] at at''
  rw [← eq live, ← eq' live']
  exact (twin.eq_of_id inRows' inRows at'').symm

/-- Both ledgers find the row of an id. -/
theorem Twin.get (twin : Twin s) (apart : Apart s tenant id) :
    s.memory.rows.get (InMemory.key tenant id) =
      (s.postgres.rows.get id).filter fun row => row.tenant = tenant := by
  apply Option.ext
  intro row
  rw [Option.filter_eq_some_iff, decide_eq_true_iff]
  constructor
  · intro found
    have member := (twin.same row).mp (Table.mem_values.mpr ⟨_, found⟩)
    obtain ⟨same, rfl⟩ := apart row member (twin.keyed _ _ found).symm
    exact ⟨twin.get_own member, same⟩
  · rintro ⟨found, rfl⟩
    have member := Table.mem_values.mpr ⟨_, found⟩
    obtain rfl := twin.own _ _ found
    exact twin.get_key member

/-- What the pointer of a key leads to: a row of the key, the live one while there is one. -/
theorem Twin.latest_some (twin : Twin s) (apart : ApartShared s tenant sharedKey)
    (found : s.memory.latest tenant sharedKey = some row) :
    row ∈ s.postgres.rows.values ∧ row.isOf tenant sharedKey = true ∧
      ∀ x ∈ s.postgres.rows.values, x.isOf tenant sharedKey = true → x.live = true → x = row := by
  obtain ⟨id, at', read⟩ := Option.bind_eq_some_iff.mp found
  obtain ⟨y, member, k, key, rfl, index⟩ := twin.pointer _ id at'
  obtain ⟨rfl, rfl⟩ := apart y member k key index
  obtain rfl : y = row := by simpa [twin.get_key member] using read
  refine ⟨member, isOf_iff.mpr ⟨rfl, key⟩, ?_⟩
  intro x inRows mine live
  obtain ⟨same, key'⟩ := isOf_iff.mp mine
  obtain ⟨z, inRows', -, -, at'', eq⟩ := twin.pointed x inRows _ key'
  rw [same, at', Option.some.injEq] at at''
  rw [← eq live]
  exact twin.eq_of_id member inRows' at''.symm

theorem Twin.latest_none (twin : Twin s)
    (missing : s.memory.latest tenant sharedKey = none) (member : x ∈ s.postgres.rows.values) :
    x.isOf tenant sharedKey ≠ true := by
  intro mine
  obtain ⟨rfl, key⟩ := isOf_iff.mp mine
  obtain ⟨row, inRows, same, -, at', -⟩ := twin.pointed x member _ key
  unfold InMemory.latest at missing
  rw [at', Option.bind_some, ← same, twin.get_key inRows] at missing
  cases missing

/-! ## Writes -/

/-- A row that is not released is written over, in both ledgers. -/
def Ledgers.put (s : Ledgers) (row new : World) : Ledgers :=
  ⟨{ s.memory with rows := s.memory.rows.set (InMemory.key row.tenant row.id) new },
    ⟨s.postgres.rows.set row.id new⟩⟩

/-- A row under a new id, in both ledgers. -/
def Ledgers.add (s : Ledgers) (new : World) (shared : Table String String) : Ledgers :=
  ⟨⟨s.memory.rows.set (InMemory.key new.tenant new.id) new, shared⟩,
    ⟨s.postgres.rows.set new.id new⟩⟩

theorem Twin.mem_put (twin : Twin s) :
    x ∈ (s.put row new).postgres.rows.values ↔
      x = new ∨ x ∈ s.postgres.rows.values ∧ x.id ≠ row.id :=
  mem_set World.id twin.own

theorem Twin.mem_add {shared : Table String String} (twin : Twin s) (fresh : Fresh s new.id) :
    x ∈ (s.add new shared).postgres.rows.values ↔ x = new ∨ x ∈ s.postgres.rows.values := by
  refine (mem_set World.id twin.own).trans (or_congr_right ?_)
  exact ⟨And.left, fun member => ⟨member, fresh x member⟩⟩

theorem set_keyed {rows : Table String World} {k : String} {name : World → String}
    (own : ∀ k row, rows.get k = some row → k = name row) (here : k = name new) :
    ∀ k' row, (rows.set k new).get k' = some row → k' = name row := by
  intro k' row found
  rw [Table.get_set] at found
  split at found
  · next same => rw [same, here, Option.some.inj found]
  · exact own k' row found

theorem Twin.put (twin : Twin s) (member : row ∈ s.postgres.rows.values)
    (id : new.id = row.id) (tenant : new.tenant = row.tenant)
    (key : new.sharedKey = row.sharedKey) (live : row.live = true)
    (named : Postgres.named new = true) : Twin (s.put row new) where
  keyed := set_keyed twin.keyed (by rw [id, tenant])
  own := set_keyed twin.own id.symm
  same x := by
    rw [twin.mem_put]
    refine (mem_set (fun r => InMemory.key r.tenant r.id) fun k r found =>
      twin.keyed k r found).trans (or_congr_right ?_)
    rw [twin.same x]
    refine and_congr_right fun inRows => not_congr ⟨fun same => ?_, fun same => ?_⟩
    · rw [twin.eq_of_key member inRows same]
    · rw [twin.eq_of_id member inRows same]
  named x inRows := by
    rcases twin.mem_put.mp inRows with rfl | ⟨inRows, -⟩
    · exact named
    · exact twin.named x inRows
  pointer index k at' := by
    obtain ⟨x, inRows, k', key', rfl, index'⟩ := twin.pointer index k at'
    by_cases same : x.id = row.id
    · obtain rfl := twin.eq_of_id member inRows same
      exact ⟨new, twin.mem_put.mpr (.inl rfl), k', key.trans key', id, by rw [tenant, index']⟩
    · exact ⟨x, twin.mem_put.mpr (.inr ⟨inRows, same⟩), k', key', rfl, index'⟩
  pointed x inRows k key' := by
    -- the row that is written over is the one its key points to, before and after
    obtain ⟨first, firstIn, firstTenant, firstKey, firstLive⟩ :
        ∃ y ∈ s.postgres.rows.values, y.tenant = x.tenant ∧ y.sharedKey = some k ∧
          (x.live = true → y.live = true ∧ (y = row → x = new) ∧ (y ≠ row → x = y)) := by
      rcases twin.mem_put.mp inRows with rfl | ⟨old, other⟩
      · exact ⟨row, member, tenant.symm, key ▸ key', fun _ => ⟨live, fun _ => rfl, by simp⟩⟩
      · refine ⟨x, old, rfl, key', fun live' => ⟨live', ?_, fun _ => rfl⟩⟩
        rintro rfl
        exact absurd rfl other
    obtain ⟨y, yIn, yTenant, yKey, at', eq⟩ := twin.pointed first firstIn k firstKey
    rw [firstTenant] at at' yTenant
    by_cases same : y = row
    · subst same
      refine ⟨new, twin.mem_put.mpr (.inl rfl), tenant.trans yTenant, key.trans yKey, ?_, ?_⟩
      · rw [id]
        exact at'
      · intro live'
        obtain ⟨firstLive, here, -⟩ := firstLive live'
        exact (here (eq firstLive).symm).symm
    · refine ⟨y, twin.mem_put.mpr (.inr ⟨yIn, fun h => same (twin.eq_of_id member yIn h)⟩),
        yTenant, yKey, at', ?_⟩
      intro live'
      obtain ⟨firstLive, -, away⟩ := firstLive live'
      obtain rfl := eq firstLive
      exact (away same).symm

/-- A row under a new id; a shared one takes its key over while no row of it is live. -/
theorem Twin.add {shared : Table String String} (twin : Twin s) (fresh : Fresh s new.id)
    (apart : Apart s new.tenant new.id) (named : Postgres.named new = true)
    (pointed : new.sharedKey = none ∧ shared = s.memory.shared ∨
      ∃ k, new.sharedKey = some k ∧
        shared = s.memory.shared.set (InMemory.sharedIndex new.tenant k) new.id ∧
        ApartShared s new.tenant k ∧
        ∀ x ∈ s.postgres.rows.values, x.isOf new.tenant k = true → x.live ≠ true) :
    Twin (s.add new shared) where
  keyed := set_keyed twin.keyed rfl
  own := set_keyed twin.own rfl
  same x := by
    rw [twin.mem_add fresh]
    refine (mem_set (fun r => InMemory.key r.tenant r.id) fun k r found =>
      twin.keyed k r found).trans (or_congr_right ?_)
    rw [twin.same x]
    exact ⟨And.left, fun inRows => ⟨inRows, fun same => fresh x inRows (apart x inRows same).2⟩⟩
  named x inRows := by
    rcases (twin.mem_add fresh).mp inRows with rfl | inRows
    · exact named
    · exact twin.named x inRows
  pointer index k at' := by
    have old : s.memory.shared.get index = some k →
        ∃ row ∈ (s.add new shared).postgres.rows.values, ∃ k', row.sharedKey = some k' ∧
          row.id = k ∧ InMemory.sharedIndex row.tenant k' = index := by
      intro at'
      obtain ⟨x, inRows, rest⟩ := twin.pointer index k at'
      exact ⟨x, (twin.mem_add fresh).mpr (.inr inRows), rest⟩
    rcases pointed with ⟨-, rfl⟩ | ⟨key, isKey, rfl, -, -⟩
    · exact old at'
    · simp only [Ledgers.add, Table.get_set] at at'
      split at at'
      · next here =>
          obtain rfl := Option.some.inj at'
          exact ⟨new, (twin.mem_add fresh).mpr (.inl rfl), key, isKey, rfl, here.symm⟩
      · exact old at'
  pointed x inRows k key' := by
    rcases pointed with ⟨unshared, rfl⟩ | ⟨key, isKey, rfl, apartShared, settled⟩
    · rcases (twin.mem_add fresh).mp inRows with rfl | inRows
      · rw [unshared] at key'
        cases key'
      · obtain ⟨y, yIn, rest⟩ := twin.pointed x inRows k key'
        exact ⟨y, (twin.mem_add fresh).mpr (.inr yIn), rest⟩
    · rcases (twin.mem_add fresh).mp inRows with rfl | inOld
      · obtain rfl : key = k := by simpa [isKey] using key'
        refine ⟨x, (twin.mem_add fresh).mpr (.inl rfl), rfl, isKey, ?_, fun _ => rfl⟩
        simp [Ledgers.add, Table.get_set]
      · by_cases here : InMemory.sharedIndex x.tenant k = InMemory.sharedIndex new.tenant key
        · obtain ⟨tenant, rfl⟩ := apartShared x inOld k key' here
          refine ⟨new, (twin.mem_add fresh).mpr (.inl rfl), tenant.symm, isKey, ?_, ?_⟩
          · simp [Ledgers.add, Table.get_set, here]
          · intro live
            exact absurd live (settled x inOld (isOf_iff.mpr ⟨tenant, key'⟩))
        · obtain ⟨y, yIn, tenant, yKey, at', eq⟩ := twin.pointed x inOld k key'
          refine ⟨y, (twin.mem_add fresh).mpr (.inr yIn), tenant, yKey, ?_, eq⟩
          simpa [Ledgers.add, Table.get_set, here] using at'

/-! ## Joins at any instant -/

/-- The in-memory ledger, if a join wrote `updatedAt` as the statement does. -/
def InMemory.stamps (m : InMemory) (now : Int) (call : Call) : InMemory × Answer :=
  match m.step now call with
  | (_, .acquired row false) =>
      let row := { row with updatedAt := now }
      ({ m with rows := m.rows.set (InMemory.key row.tenant row.id) row }, .acquired row false)
  | done => done

def stamped : Transition.Machine Ledgers Event Outcome := fun s event =>
  let (memory, fromMemory) := s.memory.stamps event.now event.call
  let (postgres, fromPostgres) := s.postgres.step event.now event.scan event.call
  some (⟨memory, postgres⟩, ⟨fromMemory, fromPostgres⟩)

/-- A join at the instant of the last update; what the in-memory ledger does is the same. -/
def retimed (m : InMemory) (event : Event) : Event :=
  match event.call with
  | .acquireShared input => { event with
      now := (((m.latest input.tenant input.sharedKey).filter World.live).map World.updatedAt).getD
        event.now }
  | _ => event

theorem stamps_retimed (m : InMemory) (event : Event) :
    m.stamps (retimed m event).now (retimed m event).call = m.step event.now event.call := by
  obtain ⟨call, now, scan⟩ := event
  cases call with
  | acquireShared input =>
      simp only [retimed, InMemory.stamps, InMemory.step, InMemory.acquireShared]
      rcases m.latest input.tenant input.sharedKey with _ | row
      · rfl
      · by_cases released : row.state = .released <;>
          simp [Option.filter, World.live, released]
  | transition tenant id state detail =>
      simp only [retimed, InMemory.stamps, InMemory.step, InMemory.transition]
      rcases m.rows.get (InMemory.key tenant id) with _ | row
      · rfl
      · by_cases released : row.state = .released <;> simp [released]
  | releaseShared tenant sharedKey =>
      simp only [retimed, InMemory.stamps, InMemory.step, InMemory.releaseShared]
      rcases m.latest tenant sharedKey with _ | row <;> rfl
  | _ => rfl

/-! ## One call -/

/-- What a call does to both ledgers, and what either answers. -/
inductive Did (s : Ledgers) (event : Event) : Ledgers → Answer → Prop
  | read {answer : Answer} : (∀ input, event.call ≠ .acquireShared input) →
      (∀ tenant sharedKey, event.call ≠ .releaseShared tenant sharedKey) → Did s event s answer
  | opened {record : OpenInput} {new : World} : event.call = .opened record →
      new.sharedKey = none → Twin (s.add new s.memory.shared) → Fresh s new.id →
      Did s event (s.add new s.memory.shared) (.opened new)
  | moved {tenant id : String} {state : CreatedWorldState} {detail : TransitionDetail}
      {row : World} : event.call = .transition tenant id state detail →
      row ∈ s.postgres.rows.values → row.live = true →
      Did s event (s.put row (row.moved state detail event.now)) (.moved true)
  | joined {input : AcquireInput} {row new : World} : event.call = .acquireShared input →
      row ∈ s.postgres.rows.values → row.isOf input.tenant input.sharedKey = true →
      row.live = true → new = { row with
        holders := row.holders + 1
        expiresAt := some input.expiresAt
        updatedAt := event.now } →
      Did s event (s.put row new) (.acquired new false)
  | created {input : AcquireInput} : event.call = .acquireShared input →
      (∀ x ∈ s.postgres.rows.values, x.isOf input.tenant input.sharedKey = true →
        x.live ≠ true) → Fresh s input.id →
      Did s event (s.add (input.row event.now)
        (s.memory.shared.set (InMemory.sharedIndex input.tenant input.sharedKey) input.id))
        (.acquired (input.row event.now) true)
  | left {tenant sharedKey : String} {row : World} :
      event.call = .releaseShared tenant sharedKey →
      row ∈ s.postgres.rows.values → row.isOf tenant sharedKey = true → row.live = true →
      Did s event (s.put row (row.left event.now))
        (.left (some (row.left event.now, row.holders - 1)))
  | notThere {tenant sharedKey : String} : event.call = .releaseShared tenant sharedKey →
      (∀ x ∈ s.postgres.rows.values, x.isOf tenant sharedKey ≠ true) →
      Did s event s (.left none)

theorem named_iff : Postgres.named row = true ↔
    row.id ≠ "" ∧ row.tenant ≠ "" ∧ row.runId ≠ "" ∧ row.environment ≠ "" := by
  simp [Postgres.named, and_assoc]

theorem answering_of_named {answer : World → Answer} (named : Postgres.named row = true) :
    Postgres.answering row answer = answer row := by
  simp [Postgres.answering, Postgres.parse, named]

theorem mapM_parse {rows : List World} (named : ∀ row ∈ rows, Postgres.named row = true) :
    rows.mapM Postgres.parse = some rows := by
  induction rows with
  | nil => rfl
  | cons row rows ih =>
      have first := named row List.mem_cons_self
      simp [Postgres.parse, first, ih fun x member => named x (List.mem_cons_of_mem _ member)]

/-- The first row of a scan over the one row that a statement selects. -/
theorem head_scan {rows : List World} (scan : Scan) (member : row ∈ rows)
    (only : ∀ x ∈ rows, x = row) : (scan.order rows).head? = some row := by
  have perm := scan.perm rows
  rcases order : scan.order rows with _ | ⟨first, rest⟩
  · have inOrder := perm.mem_iff.mpr member
    rw [order] at inOrder
    cases inOrder
  · have inRows : first ∈ rows := perm.mem_iff.mp (by rw [order]; exact List.mem_cons_self)
    rw [List.head?_cons, only first inRows]

theorem head_scan_none {rows : List World} (scan : Scan) (none' : ∀ x, x ∉ rows) :
    (scan.order rows).head? = none := by
  have perm := scan.perm rows
  rw [List.eq_nil_iff_forall_not_mem.mpr none'] at perm ⊢
  rw [perm.eq_nil]
  rfl

variable {answer : Answer}

theorem answers_alike (memory : s.memory.stamps event.now event.call = (t.memory, answer))
    (postgres : s.postgres.step event.now event.scan event.call = (t.postgres, answer)) :
    stamped s event = some (t, ⟨answer, answer⟩) := by
  simp [stamped, memory, postgres]

/-- The call does the same to both ledgers and is answered alike. -/
def Agrees (s : Ledgers) (event : Event) : Prop :=
  ∃ t answer, stamped s event = some (t, ⟨answer, answer⟩) ∧ Did s event t answer

theorem Fresh.get (fresh : Fresh s id) (twin : Twin s) : s.postgres.rows.get id = none := by
  rcases found : s.postgres.rows.get id with _ | row
  · rfl
  · exact absurd (twin.own id row found).symm (fresh row (Table.mem_values.mpr ⟨id, found⟩))

theorem Twin.opened (twin : Twin s) {now : Int} {scan : Scan} {record : OpenInput}
    (counting : Counting s (.opened record)) : Agrees s ⟨.opened record, now, scan⟩ := by
  obtain ⟨fresh, apart, detail, named⟩ := counting
  obtain ⟨id, tenant, runId, environment, services, target, detail', createdAt⟩ := record
  obtain rfl : detail' = none := detail
  let row : World := {
    id, tenant, runId, environment, services, target, createdAt
    state := .creating
    sharedKey := none
    endpoints := none
    holders := 0
    expiresAt := none
    attempts := 0
    detail := none
    updatedAt := createdAt }
  have isNamed : Postgres.named row = true := named_iff.mpr named
  have added : Twin (s.add row s.memory.shared) :=
    twin.add fresh apart isNamed (.inl ⟨rfl, rfl⟩)
  have free := Fresh.get fresh twin
  refine ⟨s.add row s.memory.shared, .opened row, answers_alike rfl ?_, .opened rfl rfl added fresh⟩
  have answer : Postgres.answering row .opened = .opened row := answering_of_named isNamed
  simp only [Postgres.step, Postgres.opened, free, Option.isSome_none, Bool.false_eq_true, if_false]
  rw [answer]
  rfl

variable {scan : Scan}

theorem Twin.transition (twin : Twin s) {now : Int} {tenant id : String}
    {state : CreatedWorldState} {detail : TransitionDetail} (apart : Apart s tenant id) :
    Agrees s ⟨.transition tenant id state detail, now, scan⟩ := by
  have found := twin.get apart
  rcases row' : (s.postgres.rows.get id).filter fun row => row.tenant = tenant with _ | row
  · refine ⟨s, .moved false, answers_alike ?_ ?_, .read (by simp) (by simp)⟩
    · simp [InMemory.stamps, InMemory.step, InMemory.transition, found, row']
    · simp [Postgres.step, Postgres.transition, row']
  obtain ⟨at', own⟩ := Option.filter_eq_some_iff.mp row'
  obtain rfl : row.tenant = tenant := by simpa using own
  have member : row ∈ s.postgres.rows.values := Table.mem_values.mpr ⟨id, at'⟩
  obtain rfl := twin.own id row at'
  by_cases released : row.state = .released
  · refine ⟨s, .moved false, answers_alike ?_ ?_, .read (by simp) (by simp)⟩
    · simp [InMemory.stamps, InMemory.step, InMemory.transition, found, row', released]
    · simp [Postgres.step, Postgres.transition, row', released]
  · refine ⟨_, _, answers_alike ?_ ?_, .moved rfl member (by simpa [World.live] using released)⟩
    · simp [InMemory.stamps, InMemory.step, InMemory.transition, found, row', released, Ledgers.put]
    · simp [Postgres.step, Postgres.transition, row', released, Ledgers.put]

theorem Twin.lookup (twin : Twin s) (apart : Apart s tenant id) :
    s.postgres.get tenant id = .found (s.memory.rows.get (InMemory.key tenant id)) := by
  rw [twin.get apart, Postgres.get]
  rcases row' : (s.postgres.rows.get id).filter fun row => row.tenant = tenant with _ | row
  · rw [row']
  · have member := Table.mem_values.mpr ⟨id, (Option.filter_eq_some_iff.mp row').1⟩
    simp [row', answering_of_named (twin.named row member)]

/-- The arbiter index finds the live row of a key. -/
theorem Twin.conflict_some (twin : Twin s) (member : row ∈ s.postgres.rows.values)
    (mine : row.isOf tenant sharedKey = true) (live : row.live = true) :
    s.postgres.conflict tenant sharedKey = some row := by
  rcases found : s.postgres.conflict tenant sharedKey with _ | old
  · have none' := List.find?_eq_none.mp found row member
    simp [mine, live] at none'
  · have there := List.mem_of_find?_eq_some found
    have both := List.find?_some found
    rw [Bool.and_eq_true] at both
    rw [twin.one_live member there mine both.1 live both.2]

theorem conflict_none
    (settled : ∀ x ∈ s.postgres.rows.values, x.isOf tenant sharedKey = true → x.live ≠ true) :
    s.postgres.conflict tenant sharedKey = none := by
  refine List.find?_eq_none.mpr fun x member both => ?_
  rw [Bool.and_eq_true] at both
  exact settled x member both.1 both.2

theorem Twin.acquireShared (twin : Twin s) {now : Int} {input : AcquireInput}
    (counting : Counting s (.acquireShared input)) :
    Agrees s ⟨.acquireShared input, now, scan⟩ := by
  obtain ⟨fresh, apart, apartShared, named⟩ := counting
  by_cases joined : ∃ row ∈ s.postgres.rows.values,
    row.isOf input.tenant input.sharedKey = true ∧ row.live = true
  · obtain ⟨row, member, mine, live⟩ := joined
    have latest : s.memory.latest input.tenant input.sharedKey = some row := by
      rcases found : s.memory.latest input.tenant input.sharedKey with _ | y
      · exact absurd mine (twin.latest_none found member)
      · rw [(twin.latest_some apartShared found).2.2 row member mine live]
    have notReleased : row.state ≠ .released := by simpa [World.live] using live
    refine ⟨_, _, answers_alike ?_ ?_, .joined rfl member mine live rfl⟩
    · simp [InMemory.stamps, InMemory.step, InMemory.acquireShared, latest, notReleased,
        Ledgers.put]
    · have isNamed : Postgres.named { row with
          holders := row.holders + 1
          expiresAt := some input.expiresAt
          updatedAt := now } = true := twin.named row member
      simp only [Postgres.step, Postgres.acquireShared, twin.conflict_some member mine live,
        answering_of_named isNamed]
      rfl
  · have settled : ∀ x ∈ s.postgres.rows.values,
        x.isOf input.tenant input.sharedKey = true → x.live ≠ true :=
      fun x member mine live => joined ⟨x, member, mine, live⟩
    have isNamed : Postgres.named (input.row now) = true := named_iff.mpr named
    refine ⟨_, _, answers_alike ?_ ?_, .created rfl settled fresh⟩
    · rcases found : s.memory.latest input.tenant input.sharedKey with _ | row
      · simp only [InMemory.stamps, InMemory.step, InMemory.acquireShared, found]
        rfl
      · obtain ⟨member, mine, -⟩ := twin.latest_some apartShared found
        have released : row.state = .released := by
          simpa [World.live] using settled row member mine
        simp only [InMemory.stamps, InMemory.step, InMemory.acquireShared, found, released, ne_eq,
          not_true, if_false]
        rfl
    · simp only [Postgres.step, Postgres.acquireShared, conflict_none settled,
        Fresh.get fresh twin, Option.isSome_none, Bool.false_eq_true, if_false,
        answering_of_named isNamed]
      rfl

/-- A write over the rows of a key that has one row is a write of that row. -/
theorem Twin.update_left (twin : Twin s) (now : Int) (member : row ∈ s.postgres.rows.values)
    (mine : row.isOf tenant sharedKey = true)
    (only : ∀ x ∈ s.postgres.rows.values, x.isOf tenant sharedKey = true → x = row) :
    (s.postgres.rows.update fun _ x => if x.isOf tenant sharedKey then x.left now else x) =
      s.postgres.rows.set row.id (row.left now) := by
  have present : row.id ∈ s.postgres.rows.entries.map Prod.fst :=
    Table.mem_keys.mpr ⟨row, twin.get_own member⟩
  apply Table.ext_entries
  rw [Table.set, dif_pos present]
  simp only [Table.modify, Table.update]
  refine List.map_congr_left fun e inEntries => ?_
  have found := Table.get_eq_some.mpr inEntries
  have inRows := Table.mem_values.mpr ⟨e.1, found⟩
  by_cases here : e.1 = row.id
  · have same : e.2 = row := twin.eq_of_id member inRows ((twin.own _ _ found).symm.trans here)
    rw [if_pos here, same, if_pos mine]
  · rw [if_neg here, if_neg]
    intro mine'
    exact here ((twin.own _ _ found).trans (congrArg World.id (only _ inRows mine')))

theorem Twin.releaseShared (twin : Twin s) {now : Int} {tenant sharedKey : String}
    (counting : Counting s (.releaseShared tenant sharedKey)) :
    Agrees s ⟨.releaseShared tenant sharedKey, now, scan⟩ := by
  obtain ⟨apart, allLive⟩ := counting
  rcases found : s.memory.latest tenant sharedKey with _ | row
  · have none' : ∀ x ∈ s.postgres.rows.values, x.isOf tenant sharedKey ≠ true :=
      fun x member => twin.latest_none found member
    have unchanged : (s.postgres.rows.update fun _ x =>
        if x.isOf tenant sharedKey then x.left now else x) = s.postgres.rows := by
      refine Table.update_eq_self fun k x at' => if_neg ?_
      exact none' x (Table.mem_values.mpr ⟨k, at'⟩)
    refine ⟨s, .left none, answers_alike ?_ ?_, .notThere rfl none'⟩
    · simp [InMemory.stamps, InMemory.step, InMemory.releaseShared, found]
    · have empty : ∀ x, x ∉ s.postgres.rows.values.filter (World.isOf tenant sharedKey) :=
        fun x inRows => none' x (List.mem_filter.mp inRows).1 (List.mem_filter.mp inRows).2
      simp only [Postgres.step, Postgres.releaseShared, unchanged, head_scan_none scan empty]
  · obtain ⟨member, mine, current⟩ := twin.latest_some apart found
    have live := allLive row member mine
    have only : ∀ x ∈ s.postgres.rows.values, x.isOf tenant sharedKey = true → x = row :=
      fun x inRows mine' => current x inRows mine' (allLive x inRows mine')
    have isNamed : Postgres.named (row.left now) = true := twin.named row member
    refine ⟨_, _, answers_alike ?_ ?_, .left rfl member mine live⟩
    · obtain ⟨rfl, -⟩ := isOf_iff.mp mine
      simp [InMemory.stamps, InMemory.step, InMemory.releaseShared, found, Ledgers.put, World.left]
    · have first : (scan.order ((s.postgres.rows.set row.id (row.left now)).values.filter
          (World.isOf tenant sharedKey))).head? = some (row.left now) := by
        have written : ∀ x, x ∈ (s.postgres.rows.set row.id (row.left now)).values ↔
            x = row.left now ∨ x ∈ s.postgres.rows.values ∧ x.id ≠ row.id :=
          fun x => mem_set World.id twin.own
        refine head_scan scan (List.mem_filter.mpr ⟨(written _).mpr (.inl rfl), mine⟩) ?_
        intro x inRows
        obtain ⟨inRows, mine'⟩ := List.mem_filter.mp inRows
        rcases (written x).mp inRows with rfl | ⟨old, other⟩
        · rfl
        · exact absurd (congrArg World.id (only x old mine')) other
      simp only [Postgres.step, Postgres.releaseShared, twin.update_left now member mine only,
        first, answering_of_named isNamed]
      rfl

theorem Twin.getShared (twin : Twin s) (apart : ApartShared s tenant sharedKey)
    (only : ∀ row ∈ s.postgres.rows.values, ∀ row' ∈ s.postgres.rows.values,
      row.isOf tenant sharedKey = true → row'.isOf tenant sharedKey = true → row = row') :
    s.postgres.getShared tenant sharedKey scan = .found (s.memory.latest tenant sharedKey) := by
  unfold Postgres.getShared
  rcases found : s.memory.latest tenant sharedKey with _ | row
  · have none' : ∀ x, x ∉ s.postgres.rows.values.filter (World.isOf tenant sharedKey) := by
      intro x inRows
      obtain ⟨inRows, mine⟩ := List.mem_filter.mp inRows
      exact twin.latest_none found inRows mine
    simp only [head_scan_none scan none']
  · obtain ⟨member, mine, -⟩ := twin.latest_some apart found
    have first := head_scan scan (List.mem_filter.mpr ⟨member, mine⟩) fun x inRows =>
      only x (List.mem_filter.mp inRows).1 row member (List.mem_filter.mp inRows).2 mine
    simp only [first, answering_of_named (twin.named row member)]
    rfl

theorem Twin.due (twin : Twin s) {now staleBeforeMs : Int}
    (few : (s.memory.rows.values.filter (World.owed now staleBeforeMs)).length ≤ 200)
    (rising : (s.memory.rows.values.filter (World.owed now staleBeforeMs)).Pairwise
      fun row row' => row.updatedAt < row'.updatedAt) :
    s.postgres.due now staleBeforeMs scan =
      .owed (s.memory.rows.values.filter (World.owed now staleBeforeMs)) := by
  have same : s.postgres.rows.values.Perm s.memory.rows.values :=
    (List.perm_ext_iff_of_nodup (nodup_values World.id twin.own)
      (nodup_values (fun r => InMemory.key r.tenant r.id) twin.keyed)).mpr
      fun row => (twin.same row).symm
  have distinct : ((s.memory.rows.values.filter
      (World.owed now staleBeforeMs)).map World.updatedAt).Nodup :=
    List.pairwise_map.mpr (rising.imp Int.ne_of_lt)
  have sorted : sortBy World.updatedAt
      (scan.order (s.postgres.rows.values.filter (World.owed now staleBeforeMs))) =
      s.memory.rows.values.filter (World.owed now staleBeforeMs) := by
    rw [sortBy_eq_of_perm distinct ((scan.perm _).trans (same.filter _))]
    exact (eq_sortBy distinct (.refl _) (rising.imp Int.le_of_lt)).symm
  have named : ∀ row ∈ s.memory.rows.values.filter (World.owed now staleBeforeMs),
      Postgres.named row = true :=
    fun row member => twin.named row ((twin.same row).mp (List.mem_filter.mp member).1)
  simp only [Postgres.due, sorted, List.take_of_length_le few, mapM_parse named]

/-! ## A whole run -/

def Call.writes : Call → Bool
  | .get .. | .getShared .. | .due _ => false
  | _ => true

theorem Twin.agrees (twin : Twin s) (counting : Counting s event.call)
    (writes : event.call.writes = true) : Agrees s event := by
  obtain ⟨call, now, scan⟩ := event
  cases call with
  | opened record => exact twin.opened counting
  | transition tenant id state detail => exact twin.transition counting
  | acquireShared input => exact twin.acquireShared counting
  | releaseShared tenant sharedKey => exact twin.releaseShared counting
  | get | getShared | due => cases writes

/-- The step of a run, read off `Did`. -/
theorem Twin.step_did (twin : Twin s) {o : Outcome} (counting : Counting s event.call)
    (eq : stamped s event = some (t, o)) : Did s event t o.memory ∧ Did s event t o.postgres := by
  rcases writes : event.call.writes with _ | _
  · obtain ⟨call, now, scan⟩ := event
    cases call with
    | get | getShared | due =>
        obtain ⟨rfl, rfl⟩ := Prod.mk.inj (Option.some.inj eq)
        exact ⟨.read (by simp) (by simp), .read (by simp) (by simp)⟩
    | _ => cases writes
  · obtain ⟨t', answer, eq', did⟩ := twin.agrees counting writes
    obtain ⟨rfl, rfl⟩ := Prod.mk.inj (Option.some.inj (eq'.symm.trans eq))
    exact ⟨did, did⟩

theorem Twin.did (twin : Twin s) (counting : Counting s event.call)
    (did : Did s event t answer) : Twin t := by
  cases did with
  | read => exact twin
  | notThere => exact twin
  | opened _ _ added => exact added
  | @moved tenant id state detail row _ member live =>
      exact twin.put member rfl rfl rfl live (twin.named row member)
  | @joined input row new call member mine live same =>
      subst same
      exact twin.put member rfl rfl rfl live (twin.named row member)
  | @left tenant sharedKey row _ member _ live =>
      exact twin.put member rfl rfl rfl live (twin.named row member)
  | @created input call settled fresh =>
      obtain ⟨call', now, scan⟩ := event
      obtain rfl : call' = .acquireShared input := call
      obtain ⟨-, apart, apartShared, named⟩ := counting
      exact twin.add fresh apart (named_iff.mpr named)
        (.inr ⟨input.sharedKey, rfl, rfl, apartShared, settled⟩)

/-- A released row stays as it is. -/
theorem Twin.released_stays (twin : Twin s) (did : Did s event t answer)
    (member : x ∈ s.postgres.rows.values) (released : x.live ≠ true) :
    x ∈ t.postgres.rows.values := by
  have kept : ∀ row new, row ∈ s.postgres.rows.values → row.live = true →
      x ∈ (s.put row new).postgres.rows.values := by
    intro row new inRows live
    refine twin.mem_put.mpr (.inr ⟨member, fun same => released ?_⟩)
    rw [twin.eq_of_id inRows member same]
    exact live
  cases did with
  | read => exact member
  | notThere => exact member
  | opened _ _ _ fresh => exact (twin.mem_add fresh).mpr (.inr member)
  | moved _ inRows live => exact kept _ _ inRows live
  | joined _ inRows _ live => exact kept _ _ inRows live
  | left _ inRows _ live => exact kept _ _ inRows live
  | @created input _ _ fresh =>
      have isNew : Fresh s (input.row event.now).id := fresh
      exact (twin.mem_add isNew).mpr (.inr member)

/-- What an answered call does to the holders of a row. -/
def bump (tenant sharedKey id : String) (n : Nat) : Call × Answer → Nat
  | (.acquireShared _, .acquired row _) => if row.id = id then n + 1 else n
  | (.releaseShared tenant' sharedKey', _) =>
      if tenant' = tenant ∧ sharedKey' = sharedKey then n - 1 else n
  | _ => n

/-- The acquires that answered a row less the releases of its key made since, not below zero. -/
def tally (tenant sharedKey id : String) (log : List (Call × Answer)) : Nat :=
  log.foldl (bump tenant sharedKey id) 0

theorem tally_append (tenant sharedKey id : String) (log : List (Call × Answer))
    (entry : Call × Answer) : tally tenant sharedKey id (log ++ [entry]) =
      bump tenant sharedKey id (tally tenant sharedKey id log) entry := by
  simp [tally]

theorem bump_other {n : Nat} {call : Call} (acquire : ∀ input, call ≠ .acquireShared input)
    (release : ∀ tenant sharedKey, call ≠ .releaseShared tenant sharedKey) :
    bump tenant sharedKey id n (call, answer) = n := by
  cases call with
  | acquireShared input => exact absurd rfl (acquire input)
  | releaseShared tenant sharedKey => exact absurd rfl (release tenant sharedKey)
  | _ => rfl

/-- The holders of a live row are tallied, and an id no row has yet has none. -/
structure Counted (s : Ledgers) (log : List (Call × Answer)) : Prop where
  holders : ∀ row ∈ s.postgres.rows.values, row.live = true → ∀ k, row.sharedKey = some k →
    row.holders = tally row.tenant k row.id log
  fresh : ∀ id, Fresh s id → ∀ tenant sharedKey, tally tenant sharedKey id log = 0

theorem counted_empty : Counted Ledgers.empty [] where
  holders _ member := by cases member
  fresh _ _ _ _ := rfl

/-- The ids that no row has after a write had none before it. -/
theorem Twin.fresh_put (twin : Twin s) (fresh : Fresh (s.put row new) id)
    (same : new.id = row.id) : Fresh s id ∧ id ≠ row.id := by
  have away : new.id ≠ id := fresh new (twin.mem_put.mpr (.inl rfl))
  refine ⟨fun x inRows => ?_, fun here => away (same.trans here.symm)⟩
  by_cases here : x.id = row.id
  · exact fun other => away (same.trans (here.symm.trans other))
  · exact fresh x (twin.mem_put.mpr (.inr ⟨inRows, here⟩))

theorem Twin.fresh_add {shared : Table String String} (twin : Twin s) (new' : Fresh s new.id)
    (fresh : Fresh (s.add new shared) id) : Fresh s id ∧ new.id ≠ id :=
  ⟨fun x inRows => fresh x ((twin.mem_add new').mpr (.inr inRows)),
    fresh new ((twin.mem_add new').mpr (.inl rfl))⟩

theorem Counted.did {log : List (Call × Answer)} (twin : Twin s) (counted : Counted s log)
    (did : Did s event t answer) :
    Counted t (log ++ [(event.call, answer)]) := by
  obtain ⟨holders, unused⟩ := counted
  cases did with
  | read acquire release =>
      refine ⟨fun row member live k key => ?_, fun id fresh tenant sharedKey => ?_⟩
      · rw [tally_append, bump_other acquire release]
        exact holders row member live k key
      · rw [tally_append, bump_other acquire release]
        exact unused id fresh tenant sharedKey
  | @notThere tenant sharedKey call none' =>
      refine ⟨fun row member live k key => ?_, fun id fresh tenant' key' => ?_⟩
      · have other : ¬ (tenant = row.tenant ∧ sharedKey = k) := by
          rintro ⟨rfl, rfl⟩
          exact none' row member (isOf_iff.mpr ⟨rfl, key⟩)
        rw [tally_append, call, bump, if_neg other]
        exact holders row member live k key
      · rw [tally_append, call, bump, unused id fresh]
        simp
  | @opened record new call unshared _ isNew =>
      have other : ∀ tenant sharedKey id n, bump tenant sharedKey id n
          (event.call, .opened new) = n :=
        fun tenant sharedKey id n => bump_other (by simp [call]) (by simp [call])
      refine ⟨fun row member live k key => ?_, fun id fresh tenant sharedKey => ?_⟩
      · rw [tally_append, other]
        rcases (twin.mem_add isNew).mp member with rfl | member
        · rw [unshared] at key
          cases key
        · exact holders row member live k key
      · rw [tally_append, other]
        exact unused id (twin.fresh_add isNew fresh).1 tenant sharedKey
  | @moved tenant id state detail row call member live =>
      have other : ∀ tenant sharedKey id n, bump tenant sharedKey id n
          (event.call, .moved true) = n :=
        fun tenant sharedKey id n => bump_other (by simp [call]) (by simp [call])
      refine ⟨fun x inRows live' k key => ?_, fun id fresh tenant sharedKey => ?_⟩
      · rw [tally_append, other]
        rcases twin.mem_put.mp inRows with rfl | ⟨inRows, -⟩
        · exact holders row member live k key
        · exact holders x inRows live' k key
      · rw [tally_append, other]
        exact unused id (twin.fresh_put fresh rfl).1 tenant sharedKey
  | @joined input row new call member mine live same =>
      subst same
      refine ⟨fun x inRows live' k key => ?_, fun id fresh tenant sharedKey => ?_⟩
      · rw [tally_append, call, bump]
        rcases twin.mem_put.mp inRows with rfl | ⟨inRows, away⟩
        · rw [if_pos rfl]
          exact congrArg (· + 1) (holders row member live k key)
        · rw [if_neg (Ne.symm away)]
          exact holders x inRows live' k key
      · obtain ⟨fresh, away⟩ := twin.fresh_put fresh rfl
        rw [tally_append, call, bump, if_neg (Ne.symm away)]
        exact unused id fresh tenant sharedKey
  | @created input call _ isNew =>
      have isNew : Fresh s (input.row event.now).id := isNew
      refine ⟨fun x inRows live k key => ?_, fun id fresh tenant sharedKey => ?_⟩
      · rw [tally_append, call, bump]
        rcases (twin.mem_add isNew).mp inRows with rfl | inRows
        · rw [if_pos rfl, unused _ isNew]
          rfl
        · rw [if_neg (Ne.symm (isNew x inRows))]
          exact holders x inRows live k key
      · obtain ⟨fresh, away⟩ := twin.fresh_add isNew fresh
        rw [tally_append, call, bump, if_neg away]
        exact unused id fresh tenant sharedKey
  | @left tenant sharedKey row call member mine live =>
      refine ⟨fun x inRows live' k key => ?_, fun id fresh tenant' key' => ?_⟩
      · rw [tally_append, call, bump]
        rcases twin.mem_put.mp inRows with rfl | ⟨inRows, away⟩
        · obtain ⟨own, key'⟩ := isOf_iff.mp mine
          have same : tenant = (row.left event.now).tenant ∧ sharedKey = k := by
            refine ⟨own.symm, Option.some.inj (key'.symm.trans key)⟩
          rw [if_pos same]
          exact congrArg (· - 1) (holders row member live k key)
        · rw [if_neg]
          · exact holders x inRows live' k key
          · rintro ⟨rfl, rfl⟩
            have same := twin.one_live member inRows mine (isOf_iff.mpr ⟨rfl, key⟩) live live'
            exact away (congrArg World.id same)
      · obtain ⟨fresh, -⟩ := twin.fresh_put fresh rfl
        rw [tally_append, call, bump, unused id fresh]
        simp

/-- The calls of a run with what one of the ledgers answered. -/
def answered (ledger : Outcome → Answer) (log : List (Event × Outcome)) : List (Call × Answer) :=
  log.map fun entry => (entry.1.call, ledger entry.2)

/-- What a run says about the shared worlds, in both ledgers: a released row never changes again;
at most one row of a key is live, and its holders are tallied. -/
structure LivesCounted (log : List (Event × Outcome)) (s : Ledgers) : Prop where
  finished : ∀ rest t, Runs machine Counts s rest t →
    (∀ k row, s.memory.rows.get k = some row → row.state = .released →
      t.memory.rows.get k = some row) ∧
    ∀ id row, s.postgres.rows.get id = some row → row.state = .released →
      t.postgres.rows.get id = some row
  one_live : ∀ rows, rows = s.memory.rows ∨ rows = s.postgres.rows →
    ∀ row ∈ rows.values, ∀ row' ∈ rows.values, ∀ tenant sharedKey,
      row.isOf tenant sharedKey = true → row'.isOf tenant sharedKey = true →
      row.live = true → row'.live = true → row = row'
  holders : ∀ rows ledger, rows = s.memory.rows ∧ ledger = Outcome.memory ∨
      rows = s.postgres.rows ∧ ledger = Outcome.postgres →
    ∀ row ∈ rows.values, row.live = true → ∀ k, row.sharedKey = some k →
      row.holders = tally row.tenant k row.id (answered ledger log)

/-- The ledgers answer alike, and a release and a read of a key speak of its live row. -/
structure Alike (log : List (Event × Outcome)) (s : Ledgers) : Prop where
  alike : ∀ entry ∈ log, entry.2.memory = entry.2.postgres
  speaks : ∀ rows ledger, rows = s.memory.rows ∧ ledger = Outcome.memory ∨
      rows = s.postgres.rows ∧ ledger = Outcome.postgres →
    ∀ row ∈ rows.values, row.live = true → ∀ tenant sharedKey, row.isOf tenant sharedKey = true →
      ∀ event t o, Sound s event → machine s event = some (t, o) →
        (event.call = .getShared tenant sharedKey → ledger o = .found (some row)) ∧
        (event.call = .releaseShared tenant sharedKey →
          ledger o = .left (some (row.left event.now, row.holders - 1)))

section Stamped

variable {start start' : Ledgers} {log : List (Event × Outcome)}

/-- The runs in which a join sets `updatedAt` in both ledgers. -/
def Stamped : Ledgers → List (Event × Outcome) → Ledgers → Prop :=
  Runs stamped fun s event => Counting s event.call

theorem Stamped.twin (run : Stamped start log s) (twin : Twin start) : Twin s :=
  run.state_invariant twin fun _ _ _ _ twin counting eq =>
    twin.did counting (twin.step_did counting eq).1

theorem Stamped.stays (run : Stamped start log s) (twin : Twin start)
    (member : row ∈ start.postgres.rows.values) (released : row.state = .released) :
    row ∈ s.postgres.rows.values := by
  have both : Twin s ∧ row ∈ s.postgres.rows.values := by
    refine run.state_invariant (I := fun t => Twin t ∧ row ∈ t.postgres.rows.values)
      ⟨twin, member⟩ ?_
    rintro s event t o ⟨twin, member⟩ counting eq
    have did := (twin.step_did counting eq).1
    exact ⟨twin.did counting did, twin.released_stays did member (by simp [World.live, released])⟩
  exact both.2

theorem Stamped.counted (run : Stamped Ledgers.empty log s) :
    Twin s ∧ Counted s (answered Outcome.memory log) ∧
      Counted s (answered Outcome.postgres log) := by
  refine run.invariant (I := fun log s => Twin s ∧ Counted s (answered Outcome.memory log) ∧
    Counted s (answered Outcome.postgres log)) ⟨twin_empty, counted_empty, counted_empty⟩ ?_
  rintro log s event t o ⟨twin, memory, postgres⟩ counting eq
  obtain ⟨did, did'⟩ := twin.step_did counting eq
  refine ⟨twin.did counting did, ?_, ?_⟩
  · simpa [answered] using memory.did twin did
  · simpa [answered] using postgres.did twin did'

theorem Counting.congr {call : Call} (counting : Counting s call)
    (same : ∀ row, row ∈ s.postgres.rows.values ↔ row ∈ t.postgres.rows.values) :
    Counting t call := by
  cases call <;> simp only [Counting, Fresh, Apart, ApartShared, same] at counting ⊢ <;>
    exact counting

theorem retimed_call (m : InMemory) (event : Event) : (retimed m event).call = event.call := by
  unfold retimed
  split <;> rfl

theorem machine_parts {o : Outcome} (eq : machine s event = some (t, o)) :
    s.memory.step event.now event.call = (t.memory, o.memory) ∧
      s.postgres.step event.now event.scan event.call = (t.postgres, o.postgres) := by
  obtain ⟨rfl, rfl⟩ := Prod.mk.inj (Option.some.inj eq)
  exact ⟨rfl, rfl⟩

theorem stamped_parts {o : Outcome} (eq : stamped s event = some (t, o)) :
    s.memory.stamps event.now event.call = (t.memory, o.memory) ∧
      s.postgres.step event.now event.scan event.call = (t.postgres, o.postgres) := by
  obtain ⟨rfl, rfl⟩ := Prod.mk.inj (Option.some.inj eq)
  exact ⟨rfl, rfl⟩

/-- The in-memory ledger of a run, with its answers, is that of a stamped one. -/
theorem stamped_memory (twin : Twin start') (same : start'.memory = start.memory)
    (run : Runs machine Counts start log s) : ∃ log' s', Stamped start' log' s' ∧
      s'.memory = s.memory ∧ answered Outcome.memory log' = answered Outcome.memory log := by
  induction run with
  | refl => exact ⟨[], _, .refl, same, rfl⟩
  | @tail log s t e o _ counts eq ih =>
      obtain ⟨log', s', run', same', answers⟩ := ih
      have counting : Counting s' (retimed s'.memory e).call := by
        rw [retimed_call]
        exact counts.2.congr (same' ▸ (Stamped.twin run' twin).same)
      obtain ⟨t', o', eq'⟩ : ∃ t' o', stamped s' (retimed s'.memory e) = some (t', o') :=
        ⟨_, _, rfl⟩
      have step := (stamped_parts eq').1
      rw [stamps_retimed, same', (machine_parts eq).1] at step
      obtain ⟨memory, answer⟩ := Prod.mk.inj step
      refine ⟨_, _, run'.tail counting eq', memory.symm, ?_⟩
      simp only [answered, List.map_append, List.map_cons, List.map_nil, retimed_call] at answers ⊢
      rw [answers, answer]

theorem stamped_postgres (same : start'.postgres = start.postgres)
    (run : Runs machine Counts start log s) : ∃ log' s', Stamped start' log' s' ∧
      s'.postgres = s.postgres ∧
      answered Outcome.postgres log' = answered Outcome.postgres log := by
  induction run with
  | refl => exact ⟨[], _, .refl, same, rfl⟩
  | @tail log s t e o _ counts eq ih =>
      obtain ⟨log', s', run', same', answers⟩ := ih
      obtain ⟨t', o', eq'⟩ : ∃ t' o', stamped s' e = some (t', o') := ⟨_, _, rfl⟩
      have step := (stamped_parts eq').2
      rw [same', (machine_parts eq).2] at step
      obtain ⟨postgres, answer⟩ := Prod.mk.inj step
      refine ⟨_, _, run'.tail (counts.1.congr fun row => by rw [same']) eq', postgres.symm, ?_⟩
      simp only [answered, List.map_append, List.map_cons, List.map_nil] at answers ⊢
      rw [answers, answer]

end Stamped

/-- A join at the instant of the last update is stamped already. -/
theorem Twin.stamped_eq (twin : Twin s) (sound : Sound s event) :
    stamped s event = machine s event := by
  have same : retimed s.memory event = event := by
    obtain ⟨call, now, scan⟩ := event
    cases call with
    | acquireShared input =>
        simp only [retimed]
        rcases found : s.memory.latest input.tenant input.sharedKey with _ | row
        · rfl
        · obtain ⟨member, mine, -⟩ := twin.latest_some sound.1.1.2.2.1 found
          by_cases live : row.live = true
          · simp [Option.filter, live, sound.2 row member mine live]
          · simp [Option.filter, live]
    | _ => rfl
  have stamps := stamps_retimed s.memory event
  rw [same] at stamps
  simp only [stamped, machine, stamps]

theorem Twin.alike (twin : Twin s) {o : Outcome} (sound : Sound s event)
    (eq : machine s event = some (t, o)) : o.memory = o.postgres := by
  rcases writes : event.call.writes with _ | _
  · obtain ⟨call, now, scan⟩ := event
    obtain ⟨rfl, rfl⟩ := Prod.mk.inj (Option.some.inj eq)
    cases call with
    | get => exact (twin.lookup sound.2).symm
    | getShared => exact (twin.getShared sound.2.1 sound.2.2).symm
    | due => exact (twin.due sound.2.1 sound.2.2).symm
    | _ => cases writes
  · obtain ⟨t', answer, eq', -⟩ := twin.agrees sound.1.1 writes
    rw [twin.stamped_eq sound] at eq'
    obtain ⟨-, rfl⟩ := Prod.mk.inj (Option.some.inj (eq'.symm.trans eq))
    rfl

/-- What the in-memory ledger answers to a read or a release of a live row's key. -/
theorem Twin.speaks (twin : Twin s) {o : Outcome} (sound : Sound s event)
    (eq : machine s event = some (t, o)) (stored : row ∈ s.postgres.rows.values)
    (live : row.live = true) (mine : row.isOf tenant sharedKey = true) :
    (event.call = .getShared tenant sharedKey → o.memory = .found (some row)) ∧
      (event.call = .releaseShared tenant sharedKey →
        o.memory = .left (some (row.left event.now, row.holders - 1))) := by
  have did := (twin.step_did sound.1.1 ((twin.stamped_eq sound).trans eq)).1
  refine ⟨fun call => ?_, fun call => ?_⟩
  · obtain ⟨_, now, scan⟩ := event
    obtain rfl := call
    obtain ⟨rfl, rfl⟩ := Prod.mk.inj (Option.some.inj eq)
    change Answer.found (s.memory.latest tenant sharedKey) = _
    rcases found : s.memory.latest tenant sharedKey with _ | y
    · exact absurd mine (twin.latest_none found stored)
    · rw [(twin.latest_some sound.2.1 found).2.2 row stored mine live]
  · generalize o.memory = said at did
    cases did with
    | read _ release => exact absurd call (release tenant sharedKey)
    | opened other | moved other | joined other | created other => cases call.symm.trans other
    | notThere other none' =>
        obtain ⟨rfl, rfl⟩ := Call.releaseShared.inj (call.symm.trans other)
        exact absurd mine (none' row stored)
    | left other inRows mine' live' =>
        obtain ⟨rfl, rfl⟩ := Call.releaseShared.inj (call.symm.trans other)
        rw [twin.one_live stored inRows mine mine' live live']

/-- The ledgers count their shared worlds right in every run whose writes are `Counts`, and agree
where its calls are `Sound`. -/
theorem shared_worlds_counted {log : List (Event × Outcome)}
    (run : Runs machine Counts Ledgers.empty log s) :
    LivesCounted log s ∧ (Runs machine Sound Ledgers.empty log s → Alike log s) := by
  constructor
  · obtain ⟨_, m, runM, sameM, answersM⟩ := stamped_memory twin_empty rfl run
    obtain ⟨_, p, runP, sameP, answersP⟩ := stamped_postgres (rfl : Ledgers.empty.postgres = _) run
    obtain ⟨twinM, countedM, -⟩ := runM.counted
    obtain ⟨twinP, -, countedP⟩ := runP.counted
    refine ⟨fun rest t after => ⟨fun k row found released => ?_, fun id row found released => ?_⟩,
      ?_, ?_⟩
    · obtain ⟨_, m', after', same, -⟩ := stamped_memory twinM sameM after
      rw [← sameM] at found
      have member := (twinM.same row).mp (Table.mem_values.mpr ⟨k, found⟩)
      rw [← same, twinM.keyed k row found]
      exact (after'.twin twinM).get_key (after'.stays twinM member released)
    · obtain ⟨_, p', after', same, -⟩ := stamped_postgres sameP after
      rw [← sameP] at found
      have member := Table.mem_values.mpr ⟨id, found⟩
      rw [← same, twinP.own id row found]
      exact (after'.twin twinP).get_own (after'.stays twinP member released)
    · rintro rows (rfl | rfl) row member row' member' tenant sharedKey mine mine' live live'
      · rw [← sameM, twinM.same] at member member'
        exact twinM.one_live member' member mine' mine live' live
      · rw [← sameP] at member member'
        exact twinP.one_live member' member mine' mine live' live
    · rintro rows ledger (⟨rfl, rfl⟩ | ⟨rfl, rfl⟩) row member live k key
      · rw [← answersM]
        rw [← sameM, twinM.same] at member
        exact countedM.holders row member live k key
      · rw [← answersP]
        rw [← sameP] at member
        exact countedP.holders row member live k key
  · intro run
    have all : Twin s ∧ ∀ entry ∈ log, entry.2.memory = entry.2.postgres := by
      refine run.invariant (I := fun log s => Twin s ∧ ∀ entry ∈ log,
        entry.2.memory = entry.2.postgres) ⟨twin_empty, by simp⟩ ?_
      rintro log s event t o ⟨twin, alike⟩ sound eq
      have did := (twin.step_did sound.1.1 ((twin.stamped_eq sound).trans eq)).1
      refine ⟨twin.did sound.1.1 did, fun entry member => ?_⟩
      rcases List.mem_append.mp member with old | last
      · exact alike entry old
      · rw [List.mem_singleton.mp last]
        exact twin.alike sound eq
    refine ⟨all.2, ?_⟩
    rintro rows ledger which row member live tenant sharedKey mine event t o sound eq
    have twin := all.1
    have stored : row ∈ s.postgres.rows.values := by
      rcases which with ⟨rfl, -⟩ | ⟨rfl, -⟩
      · exact (twin.same row).mp member
      · exact member
    have answer : ledger o = o.memory := by
      rcases which with ⟨-, rfl⟩ | ⟨-, rfl⟩
      · rfl
      · exact (twin.alike sound eq).symm
    rw [answer]
    exact twin.speaks sound eq stored live mine

/-! ## Two lives of one key -/

def scanAsIs : Scan := ⟨fun rows => rows, fun _ => .refl _⟩

/-- An acquire of the sample world by the row `id`. -/
def acquire (id : String) (now : Int) : Event :=
  ⟨.acquireShared ⟨id, "acme", "run-1", "shop@1.0.0", "batch-7", [], none, 1000⟩, now, scanAsIs⟩

/-- One life: the world is entered, joined, left, and released; `Sound` up to the join. -/
theorem shared_worlds_counted_one_life :
    (∃ log s, Runs machine Sound Ledgers.empty log s ∧ log.length = 2 ∧ Alike log s) ∧
      ∃ log s, Runs machine Counts Ledgers.empty log s ∧
        (s.postgres.rows.get "cw_1").map (fun row => (row.holders, row.state)) =
          some (1, .released) ∧ LivesCounted log s := by
  have r0 : Runs machine Sound Ledgers.empty [] _ := .refl
  have r1 := r0.tail (e := acquire "cw_1" 0) (by
    refine ⟨⟨⟨?_, ?_, ?_, by decide⟩, ?_, ?_, ?_, by decide⟩, ?_⟩ <;> intro row member <;>
      cases member) rfl
  have joins : ∀ now, Counts ((machine Ledgers.empty (acquire "cw_1" 0)).get rfl).1
      (acquire "cw_2" now) := by
    intro now
    refine ⟨⟨?_, ?_, ?_, by decide⟩, ?_, ?_, ?_, by decide⟩ <;> intro row member <;>
      obtain rfl := List.mem_singleton.mp member
    all_goals decide
  have r2 := r1.tail (e := acquire "cw_2" 0) ⟨joins 0, by
    intro row member _ _
    obtain rfl := List.mem_singleton.mp member
    rfl⟩ rfl
  have c2 := (r1.mono fun _ _ ok => ok.1).tail (joins 5) rfl
  have c3 := c2.tail (e := ⟨.releaseShared "acme" "batch-7", 6, scanAsIs⟩) (by
    constructor <;> constructor <;> intro row member <;> obtain rfl := List.mem_singleton.mp member
    all_goals decide) rfl
  have c4 := c3.tail (e := ⟨.transition "acme" "cw_1" .released ⟨none, false, none⟩, 7, scanAsIs⟩)
    (by
      constructor <;> intro row member <;> obtain rfl := List.mem_singleton.mp member <;>
        decide) rfl
  exact ⟨⟨_, _, r2, rfl, (shared_worlds_counted (r2.mono fun _ _ ok => ok.1)).2 r2⟩,
    _, _, c4, rfl, (shared_worlds_counted c4).1⟩

/-- In its second life a key is left: both ledgers find it, but Postgres writes over the row of the
first life, which was released, and answers that row. -/
theorem second_life_writes_the_first :
    ∃ log s t o, Runs machine Always Ledgers.empty log s ∧
      machine s ⟨.releaseShared "acme" "batch-7", 3, scanAsIs⟩ = some (t, o) ∧
      (∃ row, s.postgres.rows.get "cw_1" = some row ∧ row.state = .released ∧
        t.postgres.rows.get "cw_1" ≠ some row) ∧ o.memory ≠ o.postgres := by
  have r : Runs machine Always Ledgers.empty _ _ := runs_of_exec _ _ _
    [acquire "cw_1" 0, ⟨.transition "acme" "cw_1" .released ⟨none, false, none⟩, 1, scanAsIs⟩,
      acquire "cw_2" 2] rfl
  refine ⟨_, _, _, _, r, rfl, ⟨_, rfl, rfl, by decide +kernel⟩, by decide +kernel⟩

end Everdict.SharedWorld
