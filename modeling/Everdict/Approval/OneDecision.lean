import Everdict.Approval.Service

/-!
# One decision for an ask

While every write finds its ask still pending, a run accepts one write for an ask, the row
keeps what it wrote, and every effect is of the call whose write was accepted
(`one_decision`).  A write that comes late shows what is missing: the in-process store
accepts it too, and behind the SQL store's refusal the loser has already pushed its fact.
-/

namespace Everdict.Approval

open Transition Machine

variable {deps : Deps} {s t : State} {log log' : List (Event × Report)}

/-- A row keeps the decision of another. -/
structure SameDecision (r r' : ApprovalRecord) : Prop where
  status : r'.status = r.status
  decidedBy : r'.decidedBy = r.decidedBy
  decidedAt : r'.decidedAt = r.decidedAt

theorem SameDecision.refl (r : ApprovalRecord) : SameDecision r r := ⟨rfl, rfl, rfl⟩

theorem SameDecision.trans {r r' r'' : ApprovalRecord} (first : SameDecision r r')
    (second : SameDecision r' r'') : SameDecision r r'' :=
  ⟨second.status.trans first.status, second.decidedBy.trans first.decidedBy,
    second.decidedAt.trans first.decidedAt⟩

/-- What the ask's agent is told of a status. -/
def told : ApprovalStatus → Decision
  | .approved => .approve
  | .pending | .denied | .expired => .deny

/-- An effect speaks for the record an accepted write left under an id. -/
def Effect.carries (id : String) (record : ApprovalRecord) : Effect → Prop
  | .push event | .outbox event =>
      event.fact.subject = id ∧ event.fact.payload.decision = record.status
  | .signalDecided id => id = record.id
  | .deliver delivered decision => delivered = record ∧ decision = told record.status
  | .resume resumed decision _ => resumed = record ∧ decision = told record.status

instance (id : String) (record : ApprovalRecord) (effect : Effect) :
    Decidable (effect.carries id record) := by
  cases effect <;> unfold Effect.carries <;> infer_instance

/-- The accepted write of a call. -/
def Accepted (log : List (Event × Report)) (i : Nat) (id : String) (record : ApprovalRecord) :
    Prop :=
  ∃ x ∈ log, x.1.index = some i ∧ x.2.accepted = some (id, record)

/-- One accepted write for an ask, and every effect carries the accepted write of its call. -/
structure DecidedOnce (log : List (Event × Report)) : Prop where
  once : log.Pairwise fun x y => ∀ a ∈ x.2.accepted, ∀ b ∈ y.2.accepted, a.1 ≠ b.1
  speaks : ∀ x ∈ log, ∀ effect ∈ x.2.effects, ∃ y ∈ log, y.1.index = x.1.index ∧
    ∃ a ∈ y.2.accepted, effect.carries a.1 a.2

/-- A settled row keeps its decision. -/
def Kept (s t : State) : Prop :=
  ∀ id r, s.ledger.get id = some r → r.status ≠ .pending →
    ∃ r', t.ledger.get id = some r' ∧ SameDecision r r'

/-- The write of a call finds its ask still pending; one that the SQL store refuses is silent
where no live bus is wired. -/
def Uncontested (deps : Deps) (s : State) (e : Event) : Prop :=
  match e with
  | .update i =>
      match s.calls[i]? with
      | some (_, .update id _ _) =>
          (∃ r ∈ s.ledger.get id, r.status = .pending) ∨
            deps.store = .postgres ∧ deps.events = false
      | _ => True
  | _ => True

/-! ## Steps -/

/-- The status a call writes. -/
def Entry.status : Entry → ApprovalStatus
  | .decide decision _ | .settleFromAgent decision => statusOf decision
  | .expire => .expired

theorem Entry.status_ne_pending (entry : Entry) : entry.status ≠ .pending := by
  cases entry with
  | decide decision decidedBy => cases decision <;> simp [Entry.status, statusOf]
  | settleFromAgent decision => cases decision <;> simp [Entry.status, statusOf]
  | expire => simp [Entry.status]

theorem told_statusOf (decision : Decision) : told (statusOf decision) = decision := by
  cases decision <;> rfl

/-- What a step does: a call begins, or one call goes on. -/
inductive Moved (deps : Deps) (s : State) : Event → State → Report → Prop
  | call (call : Call) :
      Moved deps s (.call call) { s with calls := s.calls ++ [(call, .get)] } {}
  | goes {e : Event} {i : Nat} {call : Call} {phase next : Phase} {ledger : Ledger}
      {report : Report} : e.index = some i → s.calls[i]? = some (call, phase) →
      advance deps s.ledger call phase e = some (ledger, next, report) →
      Moved deps s e { ledger, calls := s.calls.set i (call, next) } report

variable {i : Nat} {e : Event}

theorem step_goes {o : Report} (index : e.index = some i) (eq : machine deps s e = some (t, o)) :
    Moved deps s e t o := by
  cases e with
  | call call => cases index
  | get j stamp | update j | updated j | answered j ok =>
      simp only [machine, Event.index] at eq
      split at eq
      · cases eq
      · next call phase found =>
          split at eq
          · cases eq
          · next ledger next report moved =>
              obtain ⟨rfl, rfl⟩ := Prod.mk.inj (Option.some.inj eq)
              exact .goes rfl found moved

theorem step_moved {o : Report} (eq : machine deps s e = some (t, o)) :
    Moved deps s e t o := by
  cases index : e.index with
  | some i => exact step_goes index eq
  | none =>
      cases e with
      | call call =>
          obtain ⟨rfl, rfl⟩ := Prod.mk.inj (Option.some.inj eq)
          exact .call call
      | _ => cases index

variable {id : String}

/-- The write of a step that is not contested: it lands on a pending row, or it is refused
where nothing pushes. -/
theorem write_cases {call : Call} {patch : ApprovalPatch} {stamped : List OutboxEvent}
    (update : e = .update i) (found : s.calls[i]? = some (call, .update id patch stamped))
    (ok : Uncontested deps s e) :
    (∃ current, s.ledger.get id = some current ∧ current.status = .pending ∧
      deps.write s.ledger id patch stamped =
        (s.ledger.set id (patch.apply current),
          .updated id stamped (some (patch.apply current)),
          { accepted := some (id, patch.apply current),
            effects := deps.appendEvents stamped })) ∨
    deps.events = false ∧
      deps.write s.ledger id patch stamped = (s.ledger, .updated id stamped none, {}) := by
  subst update
  simp only [Uncontested, found] at ok
  rcases ok with ⟨current, row, pending⟩ | ⟨store, silent⟩
  · refine Or.inl ⟨current, row, pending, ?_⟩
    simp only [Deps.write, update_of_pending row pending]
  · rcases @postgres_update_cases s.ledger id patch with ⟨current, row, pending⟩ | refused
    · refine Or.inl ⟨current, row, pending, ?_⟩
      simp only [Deps.write, update_of_pending row pending]
    · refine Or.inr ⟨silent, ?_⟩
      simp only [Deps.write, store, Backend.update, refused]

/-! ## What a call has in hand -/

variable {record : ApprovalRecord}

theorem Accepted.append (accepted : Accepted log i id record) :
    Accepted (log ++ log') i id record := by
  obtain ⟨x, isIn, rest⟩ := accepted
  exact ⟨x, List.mem_append_left log' isIn, rest⟩

/-- The call has an accepted write, of its own status. -/
def Landed (log : List (Event × Report)) (i : Nat) (entry : Entry) (id : String)
    (record : ApprovalRecord) : Prop :=
  Accepted log i id record ∧ record.status = entry.status

variable {entry : Entry}

theorem Landed.append (landed : Landed log i entry id record) :
    Landed (log ++ log') i entry id record :=
  ⟨landed.1.append, landed.2⟩

/-- The stamped facts announce the status the call writes, of the ask it writes. -/
def Announces (entry : Entry) (id : String) (stamped : List OutboxEvent) : Prop :=
  ∀ event ∈ stamped, event.fact.subject = id ∧ event.fact.payload.decision = entry.status

/-- What holds of what a call has in hand. -/
def Holds (deps : Deps) (log : List (Event × Report)) (i : Nat) (entry : Entry) : Phase → Prop
  | .get | .done _ => True
  | .update id patch stamped => patch.status = entry.status ∧ Announces entry id stamped
  | .updated id stamped none => Announces entry id stamped ∧ deps.events = false
  | .updated id stamped (some record) =>
      Announces entry id stamped ∧ Landed log i entry id record
  | .deliver record | .resume record => ∃ id, Landed log i entry id record

theorem Holds.append {phase : Phase} (holds : Holds deps log i entry phase) :
    Holds deps (log ++ log') i entry phase := by
  cases phase with
  | get => trivial
  | done => trivial
  | update id patch stamped => exact holds
  | updated id stamped updated =>
      cases updated with
      | none => exact holds
      | some record => exact ⟨holds.1, holds.2.append⟩
  | deliver record => exact holds.imp fun _ landed => landed.append
  | resume record => exact holds.imp fun _ landed => landed.append

theorem decide_cases {decision : Decision} {actor : Option String} {now : String}
    {transition : ApprovalTransition} (eq : decide record decision actor now = .ok transition) :
    transition.patch.status = statusOf decision ∧
      ∀ fact ∈ transition.facts,
        fact.subject = record.id ∧ fact.payload.decision = statusOf decision := by
  unfold decide assertPending at eq
  split at eq
  · cases eq
    exact ⟨rfl, by simp⟩
  · cases eq

theorem expire_cases {now : String} {transition : ApprovalTransition}
    (eq : expire record now = .ok transition) :
    transition.patch.status = .expired ∧
      ∀ fact ∈ transition.facts, fact.subject = record.id ∧ fact.payload.decision = .expired := by
  unfold expire assertPending at eq
  split at eq
  · cases eq
    exact ⟨rfl, by simp⟩
  · cases eq

theorem transition_status {now : String} {transition : ApprovalTransition}
    (eq : entry.transition record now = .ok transition) :
    transition.patch.status = entry.status ∧
      ∀ fact ∈ transition.facts,
        fact.subject = record.id ∧ fact.payload.decision = entry.status := by
  cases entry with
  | decide decision decidedBy => exact decide_cases eq
  | settleFromAgent decision => exact decide_cases eq
  | expire => exact expire_cases eq

theorem afterGet_holds (call : Call) (found : Option ApprovalRecord) (stamp : Stamp) (i : Nat) :
    Holds deps log i call.entry (call.afterGet found stamp) := by
  unfold Call.afterGet
  split
  · trivial
  · next record =>
      split
      · trivial
      · split
        · trivial
        · split
          · trivial
          · next transition eq =>
              obtain ⟨status, facts⟩ := transition_status eq
              refine ⟨status, ?_⟩
              intro event isIn
              obtain ⟨fact, mem, rfl⟩ := List.mem_map.mp isIn
              exact facts fact mem

/-- Every effect carries a record the call has landed. -/
def Spoken (log : List (Event × Report)) (i : Nat) (entry : Entry) (effects : List Effect) : Prop :=
  ∀ effect ∈ effects, ∃ id record, Landed log i entry id record ∧ effect.carries id record

theorem spoken_nil : Spoken log i entry [] := by
  intro effect isIn
  cases isIn

theorem Spoken.of_append {effects effects' : List Effect} (first : Spoken log i entry effects)
    (second : Spoken log i entry effects') :
    Spoken log i entry (effects ++ effects') := by
  intro effect isIn
  rcases List.mem_append.mp isIn with isIn | isIn
  · exact first effect isIn
  · exact second effect isIn

theorem spoken_if {effect : Effect} (wired : Bool) (landed : Landed log i entry id record)
    (carries : effect.carries id record) :
    Spoken log i entry (if wired then [effect] else []) := by
  split
  · intro effect' isIn
    rw [List.mem_singleton.mp isIn]
    exact ⟨id, record, landed, carries⟩
  · exact spoken_nil

theorem pushPersisted_spoken {i : Nat} {entry : Entry} {id : String} {record : ApprovalRecord}
    {stamped : List OutboxEvent} (announces : Announces entry id stamped)
    (landed : Landed log i entry id record) : Spoken log i entry (deps.pushPersisted stamped) := by
  unfold Deps.pushPersisted
  split
  · intro effect isIn
    obtain ⟨event, mem, rfl⟩ := List.mem_map.mp isIn
    obtain ⟨subject, decision⟩ := announces event mem
    exact ⟨id, record, landed, subject, decision.trans landed.2.symm⟩
  · exact spoken_nil

theorem pushPersisted_silent {i : Nat} {entry : Entry} {stamped : List OutboxEvent}
    (silent : deps.events = false) : Spoken log i entry (deps.pushPersisted stamped) := by
  rw [Deps.pushPersisted, if_neg (by simp [silent])]
  exact spoken_nil

theorem afterUpdate_spec {call : Call} {stamped : List OutboxEvent}
    {updated : Option ApprovalRecord}
    (holds : Holds deps log i call.entry (.updated id stamped updated)) :
    Holds deps log i call.entry (call.afterUpdate deps id stamped updated).1 ∧
      Spoken log i call.entry (call.afterUpdate deps id stamped updated).2 := by
  unfold Call.afterUpdate
  cases updated with
  | none =>
      have silent := @pushPersisted_silent deps log i call.entry stamped holds.2
      cases entry : call.entry <;> rw [entry] at silent <;> exact ⟨trivial, silent⟩
  | some record =>
      obtain ⟨announces, landed⟩ := holds
      have pushed := @pushPersisted_spoken deps log i call.entry id record stamped announces landed
      have status := landed.2
      cases entry : call.entry with
      | decide decision decidedBy =>
          rw [entry] at landed pushed status
          refine ⟨⟨id, landed⟩, (pushed.of_append ?_).of_append ?_⟩
          · exact spoken_if deps.workflow landed rfl
          · refine spoken_if deps.deliver landed ⟨rfl, ?_⟩
            rw [status]
            exact (told_statusOf decision).symm
      | settleFromAgent decision =>
          rw [entry] at pushed
          exact ⟨trivial, pushed⟩
      | expire =>
          rw [entry] at landed pushed status
          refine ⟨⟨id, landed⟩, pushed.of_append (spoken_if deps.deliver landed ⟨rfl, ?_⟩)⟩
          rw [status]
          rfl

theorem afterDeliver_spec (deps : Deps) {call : Call} (delivered : Bool)
    (landed : ∃ id, Landed log i call.entry id record) :
    Holds deps log i call.entry (call.afterDeliver deps record delivered).1 ∧
      Spoken log i call.entry (call.afterDeliver deps record delivered).2 := by
  obtain ⟨id, landed⟩ := landed
  have status := landed.2
  unfold Call.afterDeliver
  cases entry : call.entry with
  | decide decision decidedBy =>
      rw [entry] at landed status
      cases delivered with
      | true => exact ⟨trivial, spoken_nil⟩
      | false =>
          refine ⟨⟨id, landed⟩, spoken_if deps.resume landed ⟨rfl, ?_⟩⟩
          rw [status]
          exact (told_statusOf decision).symm
  | settleFromAgent decision => exact ⟨trivial, spoken_nil⟩
  | expire => exact ⟨trivial, spoken_nil⟩

/-- A step of a call leaves the ledger alone and speaks of what has landed, or it lands a write
on a pending row. -/
inductive Effected (deps : Deps) (log : List (Event × Report)) (s : State) (i : Nat) (call : Call) :
    Ledger → Phase → Report → Prop
  | speaks {next : Phase} {effects : List Effect} : Holds deps log i call.entry next →
      Spoken log i call.entry effects → Effected deps log s i call s.ledger next { effects }
  | lands {id : String} {current : ApprovalRecord} {patch : ApprovalPatch}
      {stamped : List OutboxEvent} : s.ledger.get id = some current →
      current.status = .pending → patch.status = call.entry.status →
      Announces call.entry id stamped →
      Effected deps log s i call (s.ledger.set id (patch.apply current))
        (.updated id stamped (some (patch.apply current)))
        { accepted := some (id, patch.apply current), effects := deps.appendEvents stamped }

theorem advance_effected {call : Call} {phase next : Phase} {ledger : Ledger} {report : Report}
    (index : e.index = some i) (found : s.calls[i]? = some (call, phase))
    (holds : Holds deps log i call.entry phase) (ok : Uncontested deps s e)
    (eq : advance deps s.ledger call phase e = some (ledger, next, report)) :
    Effected deps log s i call ledger next report := by
  cases e with
  | call => cases index
  | get j stamp =>
      cases phase with
      | get =>
          cases eq
          exact .speaks (afterGet_holds call _ stamp i) spoken_nil
      | _ => cases eq
  | update j =>
      cases index
      cases phase with
      | update id patch stamped =>
          have written : deps.write s.ledger id patch stamped = (ledger, next, report) :=
            Option.some.inj eq
          rcases write_cases rfl found ok with ⟨current, row, pending, lands⟩ | ⟨silent, refused⟩
          · rw [lands] at written
            cases written
            exact .lands row pending holds.1 holds.2
          · rw [refused] at written
            cases written
            exact .speaks ⟨holds.2, silent⟩ spoken_nil
      | _ => cases eq
  | updated j =>
      cases phase with
      | updated id stamped updated =>
          cases eq
          obtain ⟨inHand, spoken⟩ := afterUpdate_spec holds
          exact .speaks inHand spoken
      | _ => cases eq
  | answered j answer =>
      cases phase with
      | deliver record =>
          simp only [advance] at eq
          split at eq
          · cases eq
          · cases eq
            obtain ⟨inHand, spoken⟩ := afterDeliver_spec deps answer holds
            exact .speaks inHand spoken
      | resume record =>
          simp only [advance] at eq
          split at eq
          · cases eq
          · cases eq
            exact .speaks trivial spoken_nil
      | _ => cases eq

/-! ## Runs -/

/-- What a run preserves. -/
structure Inv (deps : Deps) (log : List (Event × Report)) (s : State) : Prop where
  decided : DecidedOnce log
  settled : ∀ x ∈ log, ∀ a ∈ x.2.accepted, ∃ r, s.ledger.get a.1 = some r ∧ r.status ≠ .pending
  calls : ∀ i call phase, s.calls[i]? = some (call, phase) → Holds deps log i call.entry phase

theorem DecidedOnce.append {o : Report} (decided : DecidedOnce log)
    (fresh : ∀ x ∈ log, ∀ a ∈ x.2.accepted, ∀ b ∈ o.accepted, a.1 ≠ b.1)
    (speaks : ∀ effect ∈ o.effects, ∃ y ∈ log ++ [(e, o)], y.1.index = e.index ∧
      ∃ a ∈ y.2.accepted, effect.carries a.1 a.2) : DecidedOnce (log ++ [(e, o)]) where
  once := by
    refine List.pairwise_append.mpr ⟨decided.once, List.pairwise_singleton _ _, ?_⟩
    intro x isIn y last
    rw [List.mem_singleton.mp last]
    exact fresh x isIn
  speaks := by
    intro x isIn effect mem
    rcases List.mem_append.mp isIn with old | new
    · obtain ⟨y, before, rest⟩ := decided.speaks x old effect mem
      exact ⟨y, List.mem_append_left _ before, rest⟩
    · obtain rfl := List.mem_singleton.mp new
      exact speaks effect mem

/-- A step that is not contested settles only a pending row. -/
theorem kept_step {o : Report} (inv : Inv deps log s) (ok : Uncontested deps s e)
    (eq : machine deps s e = some (t, o)) : Kept s t := by
  intro id r row settled
  cases step_moved eq with
  | call call => exact ⟨r, row, .refl r⟩
  | goes index found moved =>
      cases advance_effected index found (inv.calls _ _ _ found) ok moved with
      | speaks => exact ⟨r, row, .refl r⟩
      | @lands id' current patch stamped before pending =>
          have other : id' ≠ id := by
            rintro rfl
            rw [row] at before
            cases before
            exact settled pending
          refine ⟨r, ?_, .refl r⟩
          rw [Table.get_set, if_neg (Ne.symm other)]
          exact row

theorem forall_mem_snoc {P : Event × Report → Prop} {x : Event × Report}
    (old : ∀ y ∈ log, P y) (new : P x) : ∀ y ∈ log ++ [x], P y := by
  intro y isIn
  rcases List.mem_append.mp isIn with isIn | isIn
  · exact old y isIn
  · exact List.mem_singleton.mp isIn ▸ new

theorem Kept.settled (kept : Kept s t)
    (before : ∃ r, s.ledger.get id = some r ∧ r.status ≠ .pending) :
    ∃ r, t.ledger.get id = some r ∧ r.status ≠ .pending := by
  obtain ⟨r, row, settled⟩ := before
  obtain ⟨r', row', same⟩ := kept id r row settled
  exact ⟨r', row', same.status ▸ settled⟩

theorem inv_step {o : Report} (inv : Inv deps log s) (ok : Uncontested deps s e)
    (eq : machine deps s e = some (t, o)) : Inv deps (log ++ [(e, o)]) t := by
  have kept := kept_step inv ok eq
  have older : ∀ x ∈ log, ∀ a ∈ x.2.accepted,
      ∃ r, t.ledger.get a.1 = some r ∧ r.status ≠ .pending :=
    fun x isIn a mem => kept.settled (inv.settled x isIn a mem)
  cases step_moved eq with
  | call call =>
      refine ⟨inv.decided.append (by simp) (by simp), ?_, ?_⟩
      · exact forall_mem_snoc older (by simp)
      · intro i call' phase found
        rw [List.getElem?_append] at found
        split at found
        · exact (inv.calls i call' phase found).append
        · obtain ⟨-, rfl, rfl⟩ : i - s.calls.length = 0 ∧ call = call' ∧ Phase.get = phase := by
            simpa [List.getElem?_singleton] using found
          trivial
  | @goes _ i call phase next ledger _ index found moved =>
      have effected := advance_effected index found (inv.calls i call phase found) ok moved
      have calls : Holds deps (log ++ [(e, o)]) i call.entry next →
          ∀ j call' phase', (s.calls.set i (call, next))[j]? = some (call', phase') →
            Holds deps (log ++ [(e, o)]) j call'.entry phase' := by
        intro holds j call' phase' there
        rw [List.getElem?_set] at there
        split at there
        · next same =>
            subst same
            split at there
            · cases there
              exact holds
            · cases there
        · exact (inv.calls j call' phase' there).append
      cases effected with
      | @speaks _ effects inHand spoken =>
          refine ⟨inv.decided.append (by simp) ?_, ?_, calls inHand.append⟩
          · intro effect mem
            obtain ⟨id, record, ⟨⟨y, before, same, accepted⟩, -⟩, carries⟩ := spoken effect mem
            exact ⟨y, List.mem_append_left _ before, same.trans index.symm, (id, record), accepted,
              carries⟩
          · exact forall_mem_snoc older (by simp)
      | @lands id current patch stamped row pending status announces =>
          have settles : (patch.apply current).status ≠ .pending := by
            rw [ApprovalPatch.apply_status, status]
            exact call.entry.status_ne_pending
          refine ⟨inv.decided.append ?_ ?_, ?_, calls ⟨announces, ?_⟩⟩
          · intro x isIn a mem b new same
            cases new
            obtain ⟨r, before, settled⟩ := inv.settled x isIn a mem
            rw [same, row] at before
            cases before
            exact settled pending
          · intro effect mem
            refine ⟨_, List.mem_append_right _ List.mem_cons_self, rfl, _, rfl, ?_⟩
            unfold Deps.appendEvents at mem
            split at mem
            · obtain ⟨event, there, rfl⟩ := List.mem_map.mp mem
              obtain ⟨subject, decision⟩ := announces event there
              exact ⟨subject, decision.trans status.symm⟩
            · cases mem
          · refine forall_mem_snoc older ?_
            · intro a new
              cases new
              refine ⟨patch.apply current, ?_, settles⟩
              rw [Table.get_set, if_pos rfl]
          · exact ⟨⟨_, List.mem_append_right _ List.mem_cons_self, index, rfl⟩, status⟩

/-- A deployment's store with no call begun. -/
def start (ledger : Ledger) : State := { ledger }

theorem run_inv {ledger : Ledger}
    (run : Runs (machine deps) (Uncontested deps) (start ledger) log s) : Inv deps log s := by
  refine run.invariant (I := Inv deps) ⟨⟨.nil, by simp⟩, by simp, ?_⟩ ?_
  · intro i call phase found
    simp [start] at found
  · intro log s e t o inv ok eq
    exact inv_step inv ok eq

theorem Kept.trans {u : State} (first : Kept s t) (second : Kept t u) : Kept s u := by
  intro id r row settled
  obtain ⟨r', row', same⟩ := first id r row settled
  obtain ⟨r'', row'', same'⟩ := second id r' row' (same.status ▸ settled)
  exact ⟨r'', row'', same.trans same'⟩

/-- A decision that a run has come to stays. -/
theorem run_kept {ledger : Ledger}
    (run : Runs (machine deps) (Uncontested deps) (start ledger) log s)
    (rest : Runs (machine deps) (Uncontested deps) s log' t) : Kept s t := by
  induction rest with
  | refl => exact fun id r row _ => ⟨r, row, .refl r⟩
  | tail before ok eq ih => exact ih.trans (kept_step (run_inv (run.trans before)) ok eq)

/-- In a run whose writes find their asks pending, one write is accepted for an ask, every effect is
of the call whose write was accepted and speaks of it, and a settled ask stays as it is in all that
follows. -/
theorem one_decision (deps : Deps) (ledger : Ledger)
    (run : Runs (machine deps) (Uncontested deps) (start ledger) log s) :
    DecidedOnce log ∧
      ∀ log' t, Runs (machine deps) (Uncontested deps) s log' t → Kept s t :=
  ⟨(run_inv run).decided, fun _ _ rest => run_kept run rest⟩

/-! ## Races -/

instance (log : List (Event × Report)) : Decidable (DecidedOnce log) :=
  decidable_of_iff
    ((log.Pairwise fun x y => ∀ a ∈ x.2.accepted, ∀ b ∈ y.2.accepted, a.1 ≠ b.1) ∧
      ∀ x ∈ log, ∀ effect ∈ x.2.effects, ∃ y ∈ log, y.1.index = x.1.index ∧
        ∃ a ∈ y.2.accepted, effect.carries a.1 a.2)
    ⟨fun both => ⟨both.1, both.2⟩, fun decided => ⟨decided.once, decided.speaks⟩⟩

instance (deps : Deps) (s : State) (e : Event) : Decidable (Uncontested deps s e) := by
  unfold Uncontested
  split
  · split <;> infer_instance
  · infer_instance

def asked : Ledger :=
  .set .empty "ap-1"
    { id := "ap-1", tenant := "acme", sessionId := "s-1", requestId := "r-1"
      request := { name := "write_file" }, status := .pending
      expiresAt := "2026-09-04T00:00:00.000Z", createdAt := "2026-08-28T00:00:00.000Z"
      updatedAt := "2026-08-28T00:00:00.000Z" }

def stampAt (id : String) : Stamp :=
  { now := "2026-08-28T00:01:00.000Z", newId := id, createdAt := "2026-08-28T00:01:00.000Z" }

def approves : Call := { tenant := "acme", id := "ap-1", entry := .decide .approve (some "alice") }

def denies : Call := { tenant := "acme", id := "ap-1", entry := .decide .deny (some "bob") }

/-- The second member reads the ask after the first has decided it. -/
def inTurn : List Event :=
  [.call approves, .call denies, .get 0 (stampAt "e-1"), .update 0, .updated 0,
    .get 1 (stampAt "e-2"), .answered 0 true]

/-- Both members read the ask before either writes. -/
def atOnce : List Event :=
  [.call approves, .call denies, .get 0 (stampAt "e-1"), .get 1 (stampAt "e-2"), .update 0,
    .update 1, .updated 0, .updated 1]

theorem one_decision_in_turn :
    ∃ log s, Runs (machine { store := .inMemory }) (Uncontested { store := .inMemory })
        (start asked) log s ∧ log.length = 7 ∧ DecidedOnce log ∧
      ∀ log' t, Runs (machine { store := .inMemory }) (Uncontested { store := .inMemory })
        s log' t → Kept s t := by
  obtain ⟨log, s, run, length⟩ := exists_log_of_exec (machine { store := .inMemory })
    (Uncontested { store := .inMemory }) (start asked) inTurn (fun log => log.length = 7)
    (by decide +kernel)
  obtain ⟨decided, kept⟩ := one_decision { store := .inMemory } asked run
  exact ⟨log, s, run, by simpa using length, decided, kept⟩

/-- Two members decide one ask at once: the in-process store accepts both, and the loser at the
SQL store has pushed its fact. -/
theorem late_write_speaks :
    (∃ log s, Runs (machine { store := .inMemory }) Always (start asked) log s ∧
      ¬ DecidedOnce log) ∧
    ∃ log s, Runs (machine { store := .postgres }) Always (start asked) log s ∧
      ¬ DecidedOnce log := by
  have raced : ∀ store, (store = .inMemory ∨ store = .postgres) →
      ∃ log s, Runs (machine { store }) Always (start asked) log s ∧ ¬ DecidedOnce log := by
    intro store either
    obtain ⟨log, s, run, undecided⟩ := exists_log_of_exec (machine { store }) Always
      (start asked) atOnce (fun log => ¬ DecidedOnce log)
      (by rcases either with rfl | rfl <;> decide +kernel)
    exact ⟨log, s, run, by simpa using undecided⟩
  exact ⟨raced .inMemory (Or.inl rfl), raced .postgres (Or.inr rfl)⟩

end Everdict.Approval
