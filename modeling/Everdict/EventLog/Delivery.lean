import Everdict.EventLog.Runner

/-!
# No fact is skipped

`Moved` is the inversion of a step.  The numbers a runner has in hand rise from its cursor in
every run (`Ordered`), so what is handled lies beyond every cursor saved before.  In a run whose
commits land ahead the page in hand covers the log up to its last number (`Served`), and moving
the cursor over an event leaves nothing behind it.
-/

namespace Everdict.EventLog

open Function (update)
open NumberedLog Transition.Machine

variable {deps : Deps} {w t : World} {e : Event} {o : Outcome} {log : List (Event × Outcome)}

/-- What a step does. -/
inductive Moved (deps : Deps) (w : World) : Event → World → Outcome → Prop
  | append {id kind : String} :
      Moved deps w (.append id kind) { w with log := w.log.append id kind } .silent
  | settle {event : PlatformEvent} {commit : Bool} : event ∈ w.log.pending →
      Moved deps w (.settle event commit) { w with log := w.log.settle event commit } .silent
  | begin : w.drain = .idle →
      Moved deps w .drain { w with drain := .next deps.consumers } .silent
  | guarded : w.drain ≠ .idle → Moved deps w .drain w .silent
  | getCursor {consumer : Consumer} {later : List Consumer} :
      w.drain = .consuming consumer .getCursor later →
      Moved deps w .returns
        { w with drain := .consuming consumer (.listAll (w.cursors consumer.name)) later } .silent
  | listNone {consumer : Consumer} {cursor : Nat} {later : List Consumer} :
      w.drain = .consuming consumer (.listAll cursor) later →
      w.log.listAll cursor consumer.kinds deps.limit = [] →
      Moved deps w .returns { w with drain := .next later } .silent
  | listSome {consumer : Consumer} {cursor : Nat} {later : List Consumer}
      {event : PlatformEvent} {rest : List PlatformEvent} {full : Bool} :
      w.drain = .consuming consumer (.listAll cursor) later →
      w.log.listAll cursor consumer.kinds deps.limit = event :: rest →
      (full = false → (event :: rest).length < deps.limit) →
      Moved deps w .returns
        { w with drain := .consuming consumer (.handle 1 ⟨event, rest, full⟩) later } .silent
  | handled {consumer : Consumer} {attempt : Nat} {page : Page} {later : List Consumer}
      {ok : Bool} : w.drain = .consuming consumer (.handle attempt page) later →
      Moved deps w (.handled ok)
        { w with drain := .consuming consumer (.afterHandle deps attempt page ok) later }
        (.handled consumer.name page.event ok)
  | deadLettered {consumer : Consumer} {page : Page} {later : List Consumer} :
      w.drain = .consuming consumer (.recordDeadLetter page) later →
      Moved deps w .returns { w with drain := .consuming consumer (.setCursor page) later }
        (.deadLettered consumer.name page.event)
  | saved {consumer : Consumer} {page : Page} {later : List Consumer} :
      w.drain = .consuming consumer (.setCursor page) later →
      Moved deps w .returns
        ⟨w.log, update w.cursors consumer.name page.event.seq, .afterSave consumer page later⟩
        (.saved consumer.name page.event.seq)
  | lost {consumer : Consumer} {page : Page} {later : List Consumer} :
      w.drain = .consuming consumer (.recordDeadLetter page) later →
      Moved deps w .outage { w with drain := .consuming consumer (.setCursor page) later } .silent
  | outage {consumer : Consumer} {await : Await} {later : List Consumer} :
      w.drain = .consuming consumer await later →
      Moved deps w .outage { w with drain := .next later } .silent
  | crash : Moved deps w .crash { w with drain := .idle } .silent

theorem step_moved (eq : machine deps w e = some (t, o)) : Moved deps w e t o := by
  cases e with
  | append id kind =>
      obtain ⟨rfl, rfl⟩ := Prod.mk.inj (Option.some.inj eq)
      exact .append
  | settle event commit =>
      simp only [machine] at eq
      split at eq
      · next open' =>
          obtain ⟨rfl, rfl⟩ := Prod.mk.inj (Option.some.inj eq)
          exact .settle open'
      · cases eq
  | drain =>
      simp only [machine] at eq
      split at eq
      · next idle =>
          obtain ⟨rfl, rfl⟩ := Prod.mk.inj (Option.some.inj eq)
          exact .begin idle
      · next busy =>
          obtain ⟨rfl, rfl⟩ := Prod.mk.inj (Option.some.inj eq)
          exact .guarded (by simp [busy])
  | crash =>
      obtain ⟨rfl, rfl⟩ := Prod.mk.inj (Option.some.inj eq)
      exact .crash
  | handled ok =>
      simp only [machine] at eq
      split at eq
      · cases eq
      · next consumer await later busy =>
          cases await with
          | handle attempt page =>
              obtain ⟨rfl, rfl⟩ := Prod.mk.inj (Option.some.inj eq)
              exact .handled busy
          | _ => cases eq
  | outage =>
      simp only [machine] at eq
      split at eq
      · cases eq
      · next consumer await later busy =>
          cases await with
          | handle attempt page => cases eq
          | recordDeadLetter page =>
              obtain ⟨rfl, rfl⟩ := Prod.mk.inj (Option.some.inj eq)
              exact .lost busy
          | _ =>
              obtain ⟨rfl, rfl⟩ := Prod.mk.inj (Option.some.inj eq)
              exact .outage busy
  | returns =>
      simp only [machine] at eq
      split at eq
      · cases eq
      · next consumer await later busy =>
          cases await with
          | getCursor =>
              obtain ⟨rfl, rfl⟩ := Prod.mk.inj (Option.some.inj eq)
              exact .getCursor busy
          | listAll cursor =>
              simp only [World.returns] at eq
              split at eq
              · next none =>
                  obtain ⟨rfl, rfl⟩ := Prod.mk.inj (Option.some.inj eq)
                  exact .listNone busy none
              · next event rest found =>
                  obtain ⟨rfl, rfl⟩ := Prod.mk.inj (Option.some.inj eq)
                  exact .listSome busy found (by simp)
          | handle attempt page => cases eq
          | recordDeadLetter page =>
              obtain ⟨rfl, rfl⟩ := Prod.mk.inj (Option.some.inj eq)
              exact .deadLettered busy
          | setCursor page =>
              obtain ⟨rfl, rfl⟩ := Prod.mk.inj (Option.some.inj eq)
              exact .saved busy

/-! ## The numbers in hand -/

/-- Every number is handed out once. -/
structure Numbered (log : Log) : Prop where
  distinct : ((log.committed ++ log.pending).map PlatformEvent.seq).Nodup
  fresh : ∀ x ∈ log.committed ++ log.pending, x.seq < log.nextSeq

theorem Numbered.committed {log : Log} (numbered : Numbered log) :
    (log.committed.map PlatformEvent.seq).Nodup := by
  have all := numbered.distinct
  rw [List.map_append] at all
  exact all.of_append_left

theorem Numbered.append {log : Log} (numbered : Numbered log) (id kind : String) :
    Numbered (log.append id kind) := by
  constructor
  · have last : ∀ x ∈ log.committed ++ log.pending, x.seq ≠ log.nextSeq :=
      fun x member => Nat.ne_of_lt (numbered.fresh x member)
    simp only [Log.append, ← List.append_assoc]
    rw [List.map_append, List.nodup_append]
    refine ⟨numbered.distinct, by simp, ?_⟩
    intro n old m new
    obtain ⟨x, member, rfl⟩ := List.mem_map.mp old
    obtain rfl : m = log.nextSeq := by simpa using new
    exact last x member
  · intro x member
    simp only [Log.append, ← List.append_assoc] at member ⊢
    rcases List.mem_append.mp member with old | new
    · exact Nat.lt_succ_of_lt (numbered.fresh x old)
    · obtain rfl := List.mem_singleton.mp new
      exact Nat.lt_succ_self _

theorem Numbered.of_subperm {log log' : Log} (numbered : Numbered log)
    (sub : (log'.committed ++ log'.pending).Subperm (log.committed ++ log.pending))
    (next : log'.nextSeq = log.nextSeq) : Numbered log' where
  distinct := by
    obtain ⟨kept, same, part⟩ := sub
    exact (same.map PlatformEvent.seq).nodup_iff.mp
      (numbered.distinct.sublist (part.map PlatformEvent.seq))
  fresh x member := next ▸ numbered.fresh x (sub.subset member)

theorem Numbered.settle {log : Log} {event : PlatformEvent} (numbered : Numbered log)
    (open' : event ∈ log.pending) (commit : Bool) : Numbered (log.settle event commit) := by
  refine numbered.of_subperm ?_ rfl
  have moved := List.perm_cons_erase open'
  cases commit with
  | false => exact (List.Sublist.append_left List.erase_sublist _).subperm
  | true =>
      simp only [Log.settle, if_true, List.append_assoc, List.singleton_append]
      exact (moved.symm.append_left _).subperm

/-- What a runner reads and saves next: the consumers are the registered ones, the cursor it
polls from is the saved one, and the numbers it has in hand rise from there. -/
def Drain.Ordered (deps : Deps) (cursors : String → Nat) : Drain → Prop
  | .idle => True
  | .consuming consumer await later =>
      (∀ c ∈ consumer :: later, c ∈ deps.consumers) ∧
      (∀ cursor, await = .listAll cursor → cursor = cursors consumer.name) ∧
      (cursors consumer.name :: await.events.map PlatformEvent.seq).Pairwise (· < ·)

structure Ordered (deps : Deps) (w : World) : Prop where
  numbered : Numbered w.log
  drain : w.drain.Ordered deps w.cursors

theorem ordered_empty (deps : Deps) : Ordered deps World.empty where
  numbered := ⟨List.nodup_nil, by simp [World.empty, Log.empty]⟩
  drain := trivial

variable {later : List Consumer}

theorem Drain.ordered_next {cursors : String → Nat} (registered : ∀ c ∈ later, c ∈ deps.consumers) :
    (Drain.next later).Ordered deps cursors := by
  cases later with
  | nil => trivial
  | cons consumer later => exact ⟨registered, by simp, by simp⟩

theorem afterHandle_ne_listAll (deps : Deps) (attempt cursor : Nat) (page : Page) (ok : Bool) :
    Await.afterHandle deps attempt page ok ≠ .listAll cursor := by
  unfold Await.afterHandle
  split
  · simp
  · split <;> simp

/-- A page read from a cursor rises from it. -/
theorem listAll_rising {log : Log} (numbered : Numbered log) (cursor limit : Nat)
    (kinds : Option (List String)) :
    (cursor :: (log.listAll cursor kinds limit).map PlatformEvent.seq).Pairwise (· < ·) := by
  rw [List.pairwise_cons]
  constructor
  · intro n member
    obtain ⟨x, found, rfl⟩ := List.mem_map.mp member
    exact (mem_page found).2.1
  · exact List.pairwise_map.mpr (page_pairwise numbered.committed)

theorem Ordered.moved (ordered : Ordered deps w) (moved : Moved deps w e t o) :
    Ordered deps t := by
  obtain ⟨numbered, drain⟩ := ordered
  cases moved with
  | append => exact ⟨numbered.append _ _, drain⟩
  | settle open' => exact ⟨numbered.settle open' _, drain⟩
  | begin => exact ⟨numbered, Drain.ordered_next fun _ member => member⟩
  | guarded => exact ⟨numbered, drain⟩
  | crash => exact ⟨numbered, trivial⟩
  | getCursor busy =>
      rw [busy] at drain
      exact ⟨numbered, drain.1, fun _ same => (Await.listAll.inj same).symm, drain.2.2⟩
  | listNone busy =>
      rw [busy] at drain
      exact ⟨numbered, Drain.ordered_next fun c member => drain.1 c (List.mem_cons_of_mem _ member)⟩
  | listSome busy found =>
      rw [busy] at drain
      obtain ⟨registered, current, -⟩ := drain
      rw [current _ rfl] at found
      have rising := found ▸ listAll_rising numbered _ deps.limit _
      exact ⟨numbered, registered, by simp, rising⟩
  | handled busy =>
      rw [busy] at drain
      refine ⟨numbered, drain.1, fun _ same => (afterHandle_ne_listAll _ _ _ _ _ same).elim, ?_⟩
      rw [events_afterHandle]
      exact drain.2.2
  | deadLettered busy =>
      rw [busy] at drain
      exact ⟨numbered, drain.1, by simp, drain.2.2⟩
  | lost busy =>
      rw [busy] at drain
      exact ⟨numbered, drain.1, by simp, drain.2.2⟩
  | outage busy =>
      rw [busy] at drain
      exact ⟨numbered, Drain.ordered_next fun c member => drain.1 c (List.mem_cons_of_mem _ member)⟩
  | @saved consumer page later busy =>
      rw [busy] at drain
      obtain ⟨registered, -, rising⟩ := drain
      refine ⟨numbered, ?_⟩
      obtain ⟨event, rest, full⟩ := page
      cases rest with
      | cons next rest =>
          refine ⟨registered, by simp, ?_⟩
          simpa using (List.pairwise_cons.mp rising).2
      | nil =>
          cases full with
          | true => exact ⟨registered, by simp, by simp⟩
          | false =>
              exact Drain.ordered_next fun c member => registered c (List.mem_cons_of_mem _ member)

/-! ## Handled once -/

/-- A saved cursor stays below what is handled later: cursors only rise, and what a runner has
in hand lies beyond them. -/
theorem Ordered.cursor_le (ordered : Ordered deps w) (moved : Moved deps w e t o)
    (name : String) : w.cursors name ≤ t.cursors name := by
  cases moved with
  | @saved consumer page later busy =>
      have drain := ordered.drain
      rw [busy] at drain
      have beyond := (List.pairwise_cons.mp drain.2.2).1 page.event.seq
        (by simp)
      by_cases here : name = consumer.name
      · subst here
        simpa using Nat.le_of_lt beyond
      · simp [here]
  | _ => exact Nat.le_refl _

theorem saved_eq {name : String} {n : Nat} (moved : Moved deps w e t (.saved name n)) :
    t.cursors name = n := by
  cases moved with
  | saved busy => simp

theorem Ordered.handled_beyond {name : String} {event : PlatformEvent} {ok : Bool}
    (ordered : Ordered deps w) (moved : Moved deps w e t (.handled name event ok)) :
    w.cursors name < event.seq := by
  have drain := ordered.drain
  cases moved with
  | @handled consumer attempt page later ok busy =>
      rw [busy] at drain
      exact (List.pairwise_cons.mp drain.2.2).1 _ (by simp)

/-- No event is handled once a cursor at or beyond it was saved. -/
def HandledBefore (x y : Event × Outcome) : Prop :=
  ∀ name n event ok, x.2 = .saved name n → y.2 = .handled name event ok → n < event.seq

theorem handled_before {ok : World → Event → Prop}
    (run : Runs (machine deps) ok World.empty log w) : log.Pairwise HandledBefore := by
  refine run.pairwise (I := Ordered deps)
    (F := fun x s => ∀ name n, x.2 = .saved name n → n ≤ s.cursors name)
    (ordered_empty deps) ?_ ?_ ?_ ?_
  · intro s e t o ordered _ eq
    exact ordered.moved (step_moved eq)
  · rintro s e t o ordered _ eq name n rfl
    exact (saved_eq (step_moved eq)).ge
  · intro x s e t o ordered mark _ eq name n saved
    exact Nat.le_trans (mark name n saved) (ordered.cursor_le (step_moved eq) name)
  · rintro x s e t o ordered mark _ eq name n event ok saved rfl
    exact Nat.lt_of_le_of_lt (mark name n saved) (ordered.handled_beyond (step_moved eq))

/-! ## Nothing is skipped -/

/-- The event was handled without error or dead-lettered for the consumer. -/
def Done (log : List (Event × Outcome)) (name : String) (event : PlatformEvent) : Prop :=
  ∃ entry ∈ log, entry.2 = .handled name event true ∨ entry.2 = .deadLettered name event

instance (log : List (Event × Outcome)) (name : String) (event : PlatformEvent) :
    Decidable (Done log name event) :=
  inferInstanceAs (Decidable (∃ entry ∈ log, _ ∨ _))

theorem Done.append {name : String} {event : PlatformEvent} (done : Done log name event)
    (rest : List (Event × Outcome)) : Done (log ++ rest) name event := by
  obtain ⟨entry, member, what⟩ := done
  exact ⟨entry, List.mem_append_left _ member, what⟩

/-- Up to their last number the events in hand leave out nothing the consumer wants beyond the
cursor. -/
def Covers (log : Log) (cursor : Nat) (consumer : Consumer) (events : List PlatformEvent) : Prop :=
  ∀ event ∈ log.committed, consumer.wants event = true → cursor < event.seq →
    (∃ x ∈ events, event.seq ≤ x.seq) → event ∈ events

theorem covers_nil (log : Log) (cursor : Nat) (consumer : Consumer) :
    Covers log cursor consumer [] := by
  intro event _ _ _ above
  obtain ⟨x, member, -⟩ := above
  cases member

structure Served (deps : Deps) (log : List (Event × Outcome)) (w : World) : Prop where
  past : ∀ consumer ∈ deps.consumers, ∀ event ∈ w.log.committed, consumer.wants event = true →
    event.seq ≤ w.cursors consumer.name → Done log consumer.name event
  hand : ∀ consumer await later, w.drain = .consuming consumer await later →
    Covers w.log (w.cursors consumer.name) consumer await.events
  settled : ∀ consumer page later, w.drain = .consuming consumer (.setCursor page) later →
    Done log consumer.name page.event

theorem served_empty (deps : Deps) : Served deps [] World.empty where
  past _ _ _ member := by cases member
  hand _ _ _ busy := by cases busy
  settled _ _ _ busy := by cases busy

variable {consumer : Consumer}

theorem next_eq {later later' : List Consumer} {await : Await}
    (eq : Drain.next later = .consuming consumer await later') : await = .getCursor := by
  cases later with
  | nil => cases eq
  | cons => cases eq; rfl

/-- A drain that goes on with another consumer has nothing in hand. -/
theorem Served.next (served : Served deps log w) (later : List Consumer) (entry : Event × Outcome) :
    Served deps (log ++ [entry]) { w with drain := .next later } where
  past consumer registered event member wants low :=
    (served.past consumer registered event member wants low).append _
  hand consumer _ later' busy := by
    obtain rfl := next_eq busy
    exact covers_nil _ _ _
  settled consumer page later' busy := by cases next_eq busy

/-- A runner goes on at the same consumer with the events it had. -/
theorem Served.goOn {await' : Await} {entry : Event × Outcome} (served : Served deps log w)
    (covers : Covers w.log (w.cursors consumer.name) consumer await'.events)
    (settles : ∀ page, await' = .setCursor page →
      Done (log ++ [entry]) consumer.name page.event) :
    Served deps (log ++ [entry]) { w with drain := .consuming consumer await' later } where
  past consumer registered event member wants low :=
    (served.past consumer registered event member wants low).append _
  hand consumer await later busy := by
    obtain ⟨rfl, rfl, -⟩ := Drain.consuming.inj busy
    exact covers
  settled consumer page later busy := by
    obtain ⟨rfl, same, -⟩ := Drain.consuming.inj busy
    exact settles page same

/-- The cursor moves over the first event in hand. -/
theorem Served.save {page : Page} {entry : Event × Outcome} (ordered : Ordered deps w)
    (served : Served deps log w) (busy : w.drain = .consuming consumer (.setCursor page) later) :
    Served deps (log ++ [entry])
      ⟨w.log, update w.cursors consumer.name page.event.seq, .afterSave consumer page later⟩ := by
  have drain := ordered.drain
  rw [busy] at drain
  obtain ⟨registered, -, rising⟩ := drain
  have covers := served.hand _ _ _ busy
  have settled := served.settled _ _ _ busy
  obtain ⟨event, rest, full⟩ := page
  obtain ⟨beyond, rising⟩ := List.pairwise_cons.mp rising
  have after := (List.pairwise_cons.mp rising).1
  have low : w.cursors consumer.name < event.seq := beyond _ List.mem_cons_self
  have higher : ∀ x ∈ rest, event.seq < x.seq :=
    fun x member => after _ (List.mem_map_of_mem member)
  have tail : Covers w.log event.seq consumer rest := by
    intro x member wants above last
    obtain ⟨y, inRest, le⟩ := last
    have found := covers x member wants (Nat.lt_trans low above)
      ⟨y, List.mem_cons_of_mem _ inRest, le⟩
    rcases List.mem_cons.mp found with rfl | found
    · exact absurd above (Nat.lt_irrefl _)
    · exact found
  refine ⟨?_, ?_, ?_⟩
  · intro other mine x member wants le
    refine Done.append ?_ _
    by_cases same : other.name = consumer.name
    · obtain rfl : other = consumer := List.inj_on_of_nodup_map deps.distinct mine
        (registered consumer List.mem_cons_self) same
      simp only [Function.update_self] at le
      by_cases old : x.seq ≤ w.cursors other.name
      · exact served.past other mine x member wants old
      · have found := covers x member wants (Nat.not_le.mp old) ⟨event, List.mem_cons_self, le⟩
        rcases List.mem_cons.mp found with rfl | late
        · exact settled
        · exact absurd (higher x late) (Nat.not_lt.mpr le)
    · simp only [Function.update_of_ne same] at le
      exact served.past other mine x member wants le
  · intro other await later' busy'
    cases rest with
    | cons next rest =>
        obtain ⟨rfl, rfl, -⟩ := Drain.consuming.inj busy'
        simpa using tail
    | nil =>
        cases full with
        | true =>
            obtain ⟨rfl, rfl, -⟩ := Drain.consuming.inj busy'
            exact covers_nil _ _ _
        | false =>
            obtain rfl := next_eq busy'
            exact covers_nil _ _ _
  · intro other page later' busy'
    cases rest with
    | cons next rest => cases (Drain.consuming.inj busy').2.1
    | nil =>
        cases full with
        | true => cases (Drain.consuming.inj busy').2.1
        | false => cases next_eq busy'

/-- What becomes visible lies ahead of the consumers that want it. -/
theorem Served.settle {event : PlatformEvent} {commit : Bool} {entry : Event × Outcome}
    (ordered : Ordered deps w) (served : Served deps log w)
    (ahead : commit = true → LandsAhead deps w event) :
    Served deps (log ++ [entry]) { w with log := w.log.settle event commit } := by
  have visible : ∀ x ∈ (w.log.settle event commit).committed,
      x ∈ w.log.committed ∨ x = event ∧ commit = true := by
    intro x member
    unfold Log.settle at member
    cases commit with
    | false => exact .inl member
    | true => simpa using member
  refine ⟨?_, ?_, ?_⟩
  · intro consumer registered x member wants low
    rcases visible x member with old | ⟨rfl, committed⟩
    · exact (served.past consumer registered x old wants low).append _
    · exact absurd low (Nat.not_le.mpr (ahead committed consumer registered wants).1)
  · intro consumer await later busy x member wants beyond last
    rcases visible x member with old | ⟨rfl, committed⟩
    · exact served.hand consumer await later busy x old wants beyond last
    · have drain := ordered.drain
      simp only at busy
      rw [busy] at drain
      obtain ⟨y, inHand, le⟩ := last
      have above := (ahead committed consumer (drain.1 _ List.mem_cons_self) wants).2 y (by
        rw [busy]
        simpa [Drain.inHand] using inHand)
      exact absurd le (Nat.not_le.mpr above)
  · intro consumer page later busy
    exact (served.settled consumer page later busy).append _

theorem Served.moved (ordered : Ordered deps w) (served : Served deps log w)
    (sound : Sound deps w e) (moved : Moved deps w e t o) :
    Served deps (log ++ [(e, o)]) t := by
  cases moved with
  | append =>
      exact ⟨fun c registered x member wants low =>
          (served.past c registered x member wants low).append _,
        served.hand, fun c page later busy => (served.settled c page later busy).append _⟩
  | @settle event commit _ =>
      refine served.settle ordered ?_
      rintro rfl
      exact sound
  | begin => exact served.next _ _
  | guarded =>
      exact ⟨fun c registered x member wants low =>
          (served.past c registered x member wants low).append _,
        served.hand, fun c page later busy => (served.settled c page later busy).append _⟩
  | crash => exact served.next [] _
  | getCursor busy => exact served.goOn (covers_nil _ _ _) (by simp)
  | listNone => exact served.next _ _
  | @listSome consumer cursor later event rest full busy found =>
      refine served.goOn ?_ (by simp)
      have drain := ordered.drain
      rw [busy] at drain
      obtain rfl := drain.2.1 _ rfl
      intro x member wants beyond last
      obtain ⟨y, inPage, le⟩ := last
      change y ∈ event :: rest at inPage
      change x ∈ event :: rest
      rw [← found] at inPage ⊢
      exact page_covers ordered.numbered.committed member beyond wants inPage le
  | @handled consumer attempt page later ok busy =>
      refine served.goOn (by simpa using served.hand _ _ _ busy) ?_
      intro page' same
      unfold Await.afterHandle at same
      split at same
      · next well =>
          obtain rfl := Await.setCursor.inj same
          exact ⟨_, List.mem_append_right _ List.mem_cons_self, .inl (by rw [well])⟩
      · split at same <;> cases same
  | deadLettered busy =>
      have covers := served.hand _ _ _ busy
      refine served.goOn covers ?_
      intro page same
      obtain rfl := Await.setCursor.inj same
      exact ⟨_, List.mem_append_right _ List.mem_cons_self, .inr rfl⟩
  | lost busy => exact absurd busy (sound _ _ _)
  | outage => exact served.next _ _
  | saved busy => exact served.save ordered busy

/-! ## A drain that runs alone -/

/-- Nothing the consumer wants lies beyond its cursor. -/
def CaughtUp (w : World) (consumer : Consumer) : Prop :=
  ∀ event ∈ w.log.committed, consumer.wants event = true → event.seq ≤ w.cursors consumer.name

/-- How far a drain that runs alone has come: the consumers it is through with have caught up,
and a page that was not full holds all the current one has still to see. -/
def Progress (deps : Deps) (w : World) : Drain → Prop
  | .idle => ∀ c ∈ deps.consumers, CaughtUp w c
  | .consuming consumer await later =>
      (∀ c ∈ deps.consumers, c ∈ consumer :: later ∨ CaughtUp w c) ∧
      ∀ page, await.page = some page → page.full = false →
        ∀ event ∈ w.log.committed, consumer.wants event = true →
          w.cursors consumer.name < event.seq → event ∈ page.events

theorem progress_next (through : ∀ c ∈ deps.consumers, c ∈ later ∨ CaughtUp w c) :
    Progress deps w (.next later) := by
  cases later with
  | nil => exact fun c registered => (through c registered).resolve_left List.not_mem_nil
  | cons consumer later => exact ⟨through, by simp [Await.page]⟩

/-- The consumer at hand has caught up, so the drain is through with it. -/
theorem Progress.through (through : ∀ c ∈ deps.consumers, c ∈ consumer :: later ∨ CaughtUp w c)
    (caught : CaughtUp w consumer) : ∀ c ∈ deps.consumers, c ∈ later ∨ CaughtUp w c := by
  intro c registered
  rcases through c registered with still | done
  · rcases List.mem_cons.mp still with rfl | still
    · exact .inr caught
    · exact .inl still
  · exact .inr done

theorem CaughtUp.mono (caught : CaughtUp w consumer) (log : t.log = w.log)
    (cursors : ∀ name, w.cursors name ≤ t.cursors name) :
    CaughtUp t consumer := by
  intro event member wants
  rw [log] at member
  exact Nat.le_trans (caught event member wants) (cursors _)

/-- The cursor moves over the first event in hand. -/
theorem Progress.save {page : Page} (ordered : Ordered deps w)
    (busy : w.drain = .consuming consumer (.setCursor page) later)
    (progress : Progress deps w w.drain) :
    Progress deps
      ⟨w.log, update w.cursors consumer.name page.event.seq, .afterSave consumer page later⟩
      (.afterSave consumer page later) := by
  have rises := fun name => ordered.cursor_le (.saved busy) name
  have drain := ordered.drain
  rw [busy] at drain progress
  obtain ⟨through, remaining⟩ := progress
  obtain ⟨event, rest, full⟩ := page
  have low : w.cursors consumer.name < event.seq :=
    (List.pairwise_cons.mp drain.2.2).1 _ List.mem_cons_self
  have through' : ∀ c ∈ deps.consumers, c ∈ consumer :: later ∨
      CaughtUp ⟨w.log, update w.cursors consumer.name event.seq,
        .afterSave consumer ⟨event, rest, full⟩ later⟩ c :=
    fun c registered => (through c registered).imp_right fun caught => caught.mono rfl rises
  -- what is still to see lies beyond the event just saved
  have tail : full = false → ∀ x ∈ w.log.committed, consumer.wants x = true →
      event.seq < x.seq → x ∈ rest := by
    intro notFull x member wants beyond
    have found := remaining _ rfl notFull x member wants (Nat.lt_trans low beyond)
    rcases List.mem_cons.mp found with rfl | late
    · exact absurd beyond (Nat.lt_irrefl _)
    · exact late
  cases rest with
  | cons next rest =>
      refine ⟨through', ?_⟩
      intro page same notFull x member wants beyond
      obtain rfl := Option.some.inj same
      simp only [Function.update_self] at beyond
      exact tail notFull x member wants beyond
  | nil =>
      cases full with
      | true => exact ⟨through', by simp [Await.page]⟩
      | false =>
          refine progress_next (Progress.through through' ?_)
          intro x member wants
          simp only [Function.update_self]
          by_contra beyond
          cases tail rfl x member wants (Nat.not_le.mp beyond)

theorem Progress.moved (limit : 0 < deps.limit) (ordered : Ordered deps w)
    (progress : Progress deps w w.drain) (alone : Alone w e) (moved : Moved deps w e t o) :
    Progress deps t t.drain := by
  cases moved with
  | append | settle | lost | outage | crash => cases alone
  | begin => exact progress_next fun c registered => .inl registered
  | guarded => exact progress
  | getCursor busy =>
      rw [busy] at progress
      exact ⟨progress.1, by simp [Await.page]⟩
  | @listNone consumer cursor later busy found =>
      rw [busy] at progress
      have drain := ordered.drain
      rw [busy] at drain
      obtain rfl := drain.2.1 _ rfl
      refine progress_next (Progress.through progress.1 ?_)
      intro event member wants
      by_contra beyond
      have short : (w.log.listAll (w.cursors consumer.name) consumer.kinds deps.limit).length <
          deps.limit := by
        rw [found]
        exact limit
      have inPage : event ∈ w.log.listAll (w.cursors consumer.name) consumer.kinds deps.limit :=
        page_short short member (Nat.not_le.mp beyond) wants
      rw [found] at inPage
      cases inPage
  | @listSome consumer cursor later event rest full busy found short =>
      rw [busy] at progress
      have drain := ordered.drain
      rw [busy] at drain
      obtain rfl := drain.2.1 _ rfl
      refine ⟨progress.1, ?_⟩
      intro page same notFull x member wants beyond
      obtain rfl := Option.some.inj same
      change x ∈ event :: rest
      rw [← found]
      refine page_short ?_ member beyond wants
      change (w.log.listAll _ _ _).length < _
      rw [found]
      exact short notFull
  | @handled consumer attempt page later ok busy =>
      rw [busy] at progress
      refine ⟨progress.1, ?_⟩
      have same : (Await.afterHandle deps attempt page ok).page = some page := by
        unfold Await.afterHandle
        split
        · rfl
        · split <;> rfl
      rw [same]
      exact progress.2
  | deadLettered busy =>
      rw [busy] at progress
      exact progress
  | saved busy => exact progress.save ordered busy

/-- A drain that runs alone, to its end, leaves nothing beyond a cursor. -/
theorem drained (limit : 0 < deps.limit) (ordered : Ordered deps w) (idle : w.drain = .idle)
    (run : Runs (machine deps) Alone w log t) (some' : log ≠ []) (ended : t.drain = .idle) :
    ∀ c ∈ deps.consumers, CaughtUp t c := by
  have all : Ordered deps t ∧ (log = [] ∧ t = w ∨ Progress deps t t.drain) := by
    refine run.invariant
      (I := fun log t => Ordered deps t ∧ (log = [] ∧ t = w ∨ Progress deps t t.drain))
      ⟨ordered, .inl ⟨rfl, rfl⟩⟩ ?_
    rintro log s e t o ⟨ordered, before⟩ alone eq
    have moved := step_moved eq
    refine ⟨ordered.moved moved, .inr ?_⟩
    rcases before with ⟨-, rfl⟩ | progress
    · -- the first step starts the drain
      cases moved with
      | append | settle | lost | outage | crash => cases alone
      | begin => exact progress_next fun c registered => .inl registered
      | guarded busy => exact absurd idle busy
      | getCursor busy | listNone busy | listSome busy | handled busy | deadLettered busy
      | saved busy => cases idle.symm.trans busy
    · exact progress.moved limit ordered alone moved
  rcases all.2 with ⟨empty, -⟩ | progress
  · exact absurd empty some'
  · rw [ended] at progress
    exact progress

/-! ## The deliveries of a run -/

/-- What a run says about the deliveries: what a saved cursor has passed was handled or
dead-lettered, a drain that runs alone catches up, and no event is handled behind a saved
cursor. -/
structure Delivered (deps : Deps) (log : List (Event × Outcome)) (w : World) : Prop where
  past : ∀ consumer ∈ deps.consumers, ∀ event ∈ w.log.committed, consumer.wants event = true →
    event.seq ≤ w.cursors consumer.name → Done log consumer.name event
  drained : 0 < deps.limit → w.drain = .idle → ∀ rest t, Runs (machine deps) Alone w rest t →
    rest ≠ [] → t.drain = .idle → ∀ consumer ∈ deps.consumers, CaughtUp t consumer
  once : log.Pairwise HandledBefore

/-- No fact is skipped in a run whose commits land ahead of the consumers that want them and
whose dead letters are stored. -/
theorem no_fact_skipped (run : Runs (machine deps) (Sound deps) World.empty log w) :
    Delivered deps log w := by
  have all : Ordered deps w ∧ Served deps log w := by
    refine run.invariant (I := fun log w => Ordered deps w ∧ Served deps log w)
      ⟨ordered_empty deps, served_empty deps⟩ ?_
    rintro log w e t o ⟨ordered, served⟩ sound eq
    exact ⟨ordered.moved (step_moved eq), served.moved ordered sound (step_moved eq)⟩
  exact {
    past := all.2.past
    drained := fun limit idle _ _ alone => drained limit all.1 idle alone
    once := handled_before run }

/-- One consumer of one kind, with the options left at their defaults. -/
def sampleDeps : Deps where
  consumers := [⟨"feed:runs", some ["run.completed"]⟩]
  batch := none
  maxAttempts := none
  distinct := by simp

instance (w : World) : (e : Event) → Decidable (Alone w e)
  | .drain | .returns | .handled _ => isTrue trivial
  | .append .. | .settle .. | .outage | .crash => isFalse id

/-- Of two events the first is handled at the second attempt, and the second one is
dead-lettered. -/
theorem no_fact_skipped_dead_letter :
    ∃ log w, Runs (machine sampleDeps) (Sound sampleDeps) World.empty log w ∧
      w.cursors "feed:runs" = 2 ∧
      (.returns, .deadLettered "feed:runs" ⟨2, "e2", "run.completed"⟩) ∈ log ∧
      Delivered sampleDeps log w := by
  have r0 : Runs (machine sampleDeps) (Sound sampleDeps) World.empty [] _ := .refl
  have r1 := r0.tail (e := Event.append "e1" "run.completed") trivial rfl
  have r2 := r1.tail (e := Event.append "e2" "run.completed") trivial rfl
  have r3 := r2.tail (e := Event.settle ⟨1, "e1", "run.completed"⟩ true)
    (fun _ _ _ => ⟨Nat.zero_lt_one, fun x member => absurd member List.not_mem_nil⟩) rfl
  have r4 := r3.tail (e := Event.settle ⟨2, "e2", "run.completed"⟩ true)
    (fun _ _ _ => ⟨Nat.zero_lt_two, fun x member => absurd member List.not_mem_nil⟩) rfl
  have sound : ∀ w e, Alone w e → Sound sampleDeps w e := by
    intro w e alone
    cases e with
    | drain | returns | handled => trivial
    | _ => cases alone
  have r := r4.trans (Runs.mono sound (runs_of_exec (machine sampleDeps) Alone _
    [.drain, .returns, .returns, .handled false, .handled true, .returns, .handled false,
      .handled false, .handled false, .returns, .returns] rfl))
  exact ⟨_, _, r, rfl, by decide +kernel, no_fact_skipped r⟩

/-- Two appends commit in the other order, and a poll falls between: the consumer saves the
higher number and the lower one is behind its cursor, never handled. -/
theorem late_commit_skipped :
    ∃ log w, Runs (machine sampleDeps) Always World.empty log w ∧
      ∃ event ∈ w.log.committed, event.kind = "run.completed" ∧
        event.seq ≤ w.cursors "feed:runs" ∧ ¬ Done log "feed:runs" event := by
  have r : Runs (machine sampleDeps) Always World.empty _ _ := runs_of_exec _ _ _
    [.append "e1" "run.completed", .append "e2" "run.completed",
      .settle ⟨2, "e2", "run.completed"⟩ true, .drain, .returns, .returns, .handled true,
      .returns, .settle ⟨1, "e1", "run.completed"⟩ true] rfl
  exact ⟨_, _, r, ⟨1, "e1", "run.completed"⟩, by decide +kernel, rfl, by decide +kernel,
    by decide +kernel⟩

end Everdict.EventLog
