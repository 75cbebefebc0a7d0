import Everdict.Leadership.Elector

/-!
# At most one leader

The belief of an elector never outlives its lease (`Held.believed`).  A won claim that still
awaits its answer is covered by the lease it took, or that lease is over (`Held.pending`), so an
answer in time cannot make an elector believe more than the row says.

The invariant holds in every run whose steps are `Timely`; one late answer is enough to have
two leaders.
-/

namespace Everdict.Leadership

open Function (update)
open Transition.Machine

variable {τ : Timing} {offset : Nat → Nat} {w t : World} {i j q : Nat} {query : Query}

@[simp] theorem returned_stopped (elector : Elector) (q : Nat) :
    (elector.returned q).stopped = elector.stopped := by
  unfold Elector.returned
  split <;> rfl

@[simp] theorem returned_heldUntil (elector : Elector) (q : Nat) :
    (elector.returned q).heldUntil = elector.heldUntil := by
  unfold Elector.returned
  split <;> rfl

theorem claimSql_cases (ttlMs : Nat) (lease : Option Lease) (holder now : Nat) :
    claimSql ttlMs lease holder now = some ⟨holder, now + ttlMs⟩ ∧
        (∀ row ∈ lease, row.holder = holder ∨ row.expiresAt < now) ∨
      claimSql ttlMs lease holder now = none ∧
        ∃ row, lease = some row ∧ row.holder ≠ holder ∧ now ≤ row.expiresAt := by
  rcases lease with _ | row
  · exact .inl ⟨rfl, by simp⟩
  · by_cases taken : row.holder = holder ∨ row.expiresAt < now
    · exact .inl ⟨by simp [claimSql, taken], by simpa using taken⟩
    · rw [not_or, Nat.not_lt] at taken
      exact .inr ⟨by simp [claimSql, taken], row, rfl, taken⟩

/-- What the row and the statements under way say about the electors. -/
structure Held (τ : Timing) (offset : Nat → Nat) (w : World) : Prop where
  believed : ∀ i, isLeader offset w i → ∃ lease, w.lease = some lease ∧ lease.holder = i ∧
    (w.electors i).heldUntil ≤ lease.expiresAt + offset i
  pending : ∀ q i e, w.queries q = some ⟨i, .claim, .executed true e⟩ →
    (w.electors i).stopped = false →
      (∃ lease, w.lease = some lease ∧ lease.holder = i ∧ e + τ.ttlMs ≤ lease.expiresAt) ∨
        e + τ.ttlMs < w.now
  fresh : ∀ lease, w.lease = some lease → lease.expiresAt ≤ w.now + τ.ttlMs
  past : ∀ q i s won e, w.queries q = some ⟨i, s, .executed won e⟩ → e ≤ w.now
  releasing : ∀ q i p, w.queries q = some ⟨i, .release, p⟩ → (w.electors i).stopped = true
  silent : ∀ i, (w.electors i).stopped = true → (w.electors i).heldUntil = 0
  released : ∀ i, (w.electors i).stopped = true → Live w i → Releasing w i

theorem held_empty (τ : Timing) (offset : Nat → Nat) : Held τ offset World.empty where
  believed i leads := absurd leads (Nat.not_lt_zero _)
  pending _ _ _ found := by cases found
  fresh _ found := by cases found
  past _ _ _ _ _ found := by cases found
  releasing _ _ _ found := by cases found
  silent _ _ := rfl
  released _ stopped := by cases stopped

theorem Held.tick (held : Held τ offset w) (elapsed : Nat) :
    Held τ offset { w with now := w.now + elapsed } where
  believed i leads := by
    refine held.believed i ?_
    simp only [isLeader, clock] at leads ⊢
    omega
  pending q i e found active := by
    rcases held.pending q i e found active with covered | past
    · exact .inl covered
    · right
      simp only
      omega
  fresh lease found := by
    have bound := held.fresh lease found
    simp only
    omega
  past q i s won e found := by
    have bound := held.past q i s won e found
    simp only
    omega
  releasing := held.releasing
  silent := held.silent
  released i stopped live := by
    obtain ⟨lease, row, mine, valid⟩ := live
    exact held.released i stopped ⟨lease, row, mine, by simp only at valid; omega⟩

/-- A statement is sent; a release only by a stopped elector. -/
theorem Held.send (held : Held τ offset w) {statement : Statement}
    (free : (w.queries q).isNone = true)
    (allowed : statement = .release → (w.electors i).stopped = true) :
    Held τ offset (w.send q i statement) where
  believed := held.believed
  pending k j e found active := by
    by_cases new : k = q
    · subst new
      simp [World.send] at found
    · exact held.pending k j e (by simpa [World.send, new] using found) active
  fresh := held.fresh
  past k j s won e found := by
    by_cases new : k = q
    · subst new
      simp [World.send] at found
    · exact held.past k j s won e (by simpa [World.send, new] using found)
  releasing k j p found := by
    by_cases new : k = q
    · subst new
      simp only [World.send, Function.update_self, Option.some.injEq, Query.mk.injEq] at found
      obtain ⟨rfl, rfl, -⟩ := found
      exact allowed rfl
    · exact held.releasing k j p (by simpa [World.send, new] using found)
  silent := held.silent
  released j stopped live := by
    obtain ⟨k, found⟩ := held.released j stopped live
    refine ⟨k, ?_⟩
    have old : k ≠ q := by
      rintro rfl
      simp [found] at free
    simpa [World.send, old] using found

/-- An elector changes nothing of what it believes or of what it is. -/
theorem Held.setElector (held : Held τ offset w) {elector : Elector}
    (heldUntil : elector.heldUntil = (w.electors i).heldUntil)
    (stopped : elector.stopped = (w.electors i).stopped) :
    Held τ offset (w.setElector i elector) := by
  have same : ∀ k, ((w.setElector i elector).electors k).heldUntil = (w.electors k).heldUntil ∧
      ((w.setElector i elector).electors k).stopped = (w.electors k).stopped := by
    intro k
    by_cases here : k = i
    · subst here
      simp [World.setElector, heldUntil, stopped]
    · simp [World.setElector, here]
  refine ⟨?_, ?_, held.fresh, held.past, ?_, ?_, ?_⟩
  · intro k leads
    rw [isLeader, (same k).1] at leads
    rw [(same k).1]
    exact held.believed k leads
  · intro k j e found active
    rw [(same j).2] at active
    exact held.pending k j e found active
  · intro k j p found
    rw [(same j).2]
    exact held.releasing k j p found
  · intro k halted
    rw [(same k).1]
    rw [(same k).2] at halted
    exact held.silent k halted
  · intro k halted live
    rw [(same k).2] at halted
    exact held.released k halted live

theorem advance_queries (w : World) (q : Nat) (query : Query) (progress : Progress) (k : Nat) :
    (w.advance q query progress).queries k =
      if k = q then some { query with progress } else w.queries k := by
  by_cases here : k = q <;> simp [World.advance, here]

/-- A statement is over. -/
theorem Held.close (held : Held τ offset w) (found : w.queries q = some query)
    (ends : ∀ i, query = ⟨i, .release, .sent⟩ → ¬ Live w i) :
    Held τ offset (w.advance q query .closed) where
  believed := held.believed
  pending k j e open' active := by
    rw [advance_queries] at open'
    split at open'
    · simp at open'
    · exact held.pending k j e open' active
  fresh := held.fresh
  past k j s won e open' := by
    rw [advance_queries] at open'
    split at open'
    · simp at open'
    · exact held.past k j s won e open'
  releasing k j p open' := by
    rw [advance_queries] at open'
    split at open'
    · rcases query with ⟨sender, statement, progress⟩
      simp only [Option.some.injEq, Query.mk.injEq] at open'
      obtain ⟨rfl, rfl, -⟩ := open'
      exact held.releasing q _ _ found
    · exact held.releasing k j p open'
  silent := held.silent
  released j stopped live := by
    obtain ⟨k, sent⟩ := held.released j stopped live
    refine ⟨k, ?_⟩
    rw [advance_queries]
    split
    · next here =>
        subst here
        rw [found] at sent
        exact absurd live (ends j (Option.some.inj sent))
    · exact sent

theorem releasing_advance (progress : Progress) (releasing : Releasing w j)
    (other : w.queries q ≠ some ⟨j, .release, .sent⟩) :
    Releasing (w.advance q query progress) j := by
  obtain ⟨k, sent⟩ := releasing
  have here : k ≠ q := by
    rintro rfl
    exact other sent
  exact ⟨k, by rwa [advance_queries, if_neg here]⟩

/-- A claim that wins extends the elector's own lease or takes one that is over. -/
theorem Held.won (held : Held τ offset w) (found : w.queries q = some ⟨i, .claim, .sent⟩)
    (open' : ∀ row ∈ w.lease, row.holder = i ∨ row.expiresAt < w.now)
    (timely : (w.electors i).stopped = true → Releasing w i) :
    Held τ offset { w.advance q ⟨i, .claim, .sent⟩ (.executed true w.now) with
      lease := some ⟨i, w.now + τ.ttlMs⟩ } where
  believed j leads := by
    obtain ⟨row, here, mine, within⟩ := held.believed j leads
    have late : w.now + offset j < (w.electors j).heldUntil := leads
    have bound := held.fresh row here
    have same : j = i := by
      rcases open' row here with taken | expired
      · rw [← mine, taken]
      · omega
    subst same
    exact ⟨_, rfl, rfl, by simp only [World.advance]; omega⟩
  pending k j e executed active := by
    simp only [advance_queries] at executed
    split at executed
    · simp only [Option.some.injEq, Query.mk.injEq, Progress.executed.injEq] at executed
      obtain ⟨rfl, -, -, rfl⟩ := executed
      exact .inl ⟨_, rfl, rfl, Nat.le_refl _⟩
    · have earlier := held.past _ _ _ _ _ executed
      rcases held.pending k j e executed active with ⟨row, here, mine, covered⟩ | past
      · rcases open' row here with taken | expired
        · refine .inl ⟨_, rfl, by rw [← mine, taken], ?_⟩
          simp only
          omega
        · right
          simp only [World.advance]
          omega
      · exact .inr past
  fresh lease here := by
    obtain rfl := Option.some.inj here
    exact Nat.le_refl _
  past k j s b e executed := by
    simp only [advance_queries] at executed
    split at executed
    · simp only [Option.some.injEq, Query.mk.injEq, Progress.executed.injEq] at executed
      exact Nat.le_of_eq executed.2.2.2.symm
    · exact held.past k j s b e executed
  releasing k j p sent := by
    simp only [advance_queries] at sent
    split at sent
    · simp at sent
    · exact held.releasing k j p sent
  silent := held.silent
  released j stopped live := by
    obtain ⟨row, here, rfl, -⟩ := live
    obtain rfl := Option.some.inj here
    exact releasing_advance _ (timely stopped) (by simp [found])

/-- A claim that loses leaves the row. -/
theorem Held.lost (held : Held τ offset w) (found : w.queries q = some ⟨i, .claim, .sent⟩) :
    Held τ offset (w.advance q ⟨i, .claim, .sent⟩ (.executed false w.now)) where
  believed := held.believed
  pending k j e executed active := by
    rw [advance_queries] at executed
    split at executed
    · simp at executed
    · exact held.pending k j e executed active
  fresh := held.fresh
  past k j s b e executed := by
    rw [advance_queries] at executed
    split at executed
    · simp only [Option.some.injEq, Query.mk.injEq, Progress.executed.injEq] at executed
      exact Nat.le_of_eq executed.2.2.2.symm
    · exact held.past k j s b e executed
  releasing k j p sent := by
    rw [advance_queries] at sent
    split at sent
    · simp at sent
    · exact held.releasing k j p sent
  silent := held.silent
  released j stopped live := releasing_advance _ (held.released j stopped live) (by simp [found])

/-- The release of a stopped elector. -/
theorem Held.executeRelease (held : Held τ offset w)
    (found : w.queries q = some ⟨i, .release, .sent⟩) :
    Held τ offset { w.advance q ⟨i, .release, .sent⟩ (.executed false w.now) with
      lease := releaseSql w.lease i } := by
  have stopped := held.releasing q i _ found
  have silent := held.silent i stopped
  have keeps : ∀ lease, w.lease = some lease → lease.holder ≠ i →
      releaseSql w.lease i = some lease := by
    intro lease here other
    simp [releaseSql, here, other]
  have kept : ∀ lease, releaseSql w.lease i = some lease →
      w.lease = some lease ∧ lease.holder ≠ i := by
    intro lease here
    obtain ⟨old, other⟩ := Option.filter_eq_some_iff.mp here
    exact ⟨old, by simpa using other⟩
  refine ⟨?_, ?_, ?_, ?_, ?_, held.silent, ?_⟩
  · intro j leads
    obtain ⟨row, here, mine, within⟩ := held.believed j leads
    have other : row.holder ≠ i := by
      rintro same
      have late : w.now + offset j < (w.electors j).heldUntil := leads
      rw [← mine, same] at late
      omega
    exact ⟨row, keeps row here other, mine, within⟩
  · intro k j e executed active
    simp only [advance_queries] at executed
    split at executed
    · simp at executed
    · rcases held.pending k j e executed active with ⟨row, here, mine, covered⟩ | past
      · have other : row.holder ≠ i := by
          rintro same
          have active : (w.electors j).stopped = false := active
          rw [← mine, same, stopped] at active
          cases active
        exact .inl ⟨row, keeps row here other, mine, covered⟩
      · exact .inr past
  · intro lease here
    exact held.fresh lease (kept lease here).1
  · intro k j s b e executed
    simp only [advance_queries] at executed
    split at executed
    · simp only [Option.some.injEq, Query.mk.injEq, Progress.executed.injEq] at executed
      exact Nat.le_of_eq executed.2.2.2.symm
    · exact held.past k j s b e executed
  · intro k j p sent
    simp only [advance_queries] at sent
    split at sent
    · simp only [Option.some.injEq, Query.mk.injEq] at sent
      rw [← sent.1]
      exact stopped
    · exact held.releasing k j p sent
  · rintro j halted ⟨row, here, mine, valid⟩
    obtain ⟨old, other⟩ := kept row here
    have releasing := held.released j halted ⟨row, old, mine, valid⟩
    refine releasing_advance _ releasing ?_
    rw [found]
    intro same
    simp only [Option.some.injEq, Query.mk.injEq] at same
    exact other (by rw [mine, same.1])

theorem Held.execute (held : Held τ offset w) (found : w.queries q = some query)
    (sent : query.progress = .sent) (timely : Timely τ offset w (.execute q)) :
    Held τ offset (execute τ w q query) := by
  obtain ⟨i, statement, progress⟩ := query
  obtain rfl : progress = .sent := sent
  cases statement with
  | claim =>
      unfold Leadership.execute
      rcases claimSql_cases τ.ttlMs w.lease i w.now with ⟨won, open'⟩ | ⟨lost, row, here, -⟩
      · simp only [won]
        exact held.won found open' fun stopped => timely i found stopped (by simp [won])
      · simp only [lost]
        exact held.lost found
  | release => exact held.executeRelease found

/-- An answer: a won claim in time, or one that was lost. -/
theorem Held.answered (held : Held τ offset w) {won : Bool} {e : Nat} {elector : Elector}
    (found : w.queries q = some ⟨i, .claim, .executed won e⟩)
    (timely : Timely τ offset w (.answer q))
    (belief : elector.heldUntil = if won then clock offset w i + τ.ttlMs - τ.renewMs else 0)
    (stopped : elector.stopped = (w.electors i).stopped) :
    Held τ offset (w.setElector i elector) := by
  have self : (w.setElector i elector).electors i = elector := by simp [World.setElector]
  have other : ∀ k, k ≠ i → (w.setElector i elector).electors k = w.electors k := by
    intro k ne
    simp [World.setElector, ne]
  have status : ∀ k, ((w.setElector i elector).electors k).stopped = (w.electors k).stopped := by
    intro k
    by_cases here : k = i
    · rw [here, self, stopped]
    · rw [other k here]
  refine ⟨?_, ?_, held.fresh, held.past, ?_, ?_, ?_⟩
  · intro k leads
    by_cases here : k = i
    · subst here
      rw [isLeader, self, belief] at leads
      cases won with
      | false => exact absurd leads (Nat.not_lt_zero _)
      | true =>
          obtain ⟨active, inTime⟩ := timely k e found
          have shorter := τ.renewMs_lt
          rcases held.pending q k e found active with ⟨row, holds, mine, covered⟩ | past
          · refine ⟨row, holds, mine, ?_⟩
            rw [self, belief, if_pos rfl]
            simp only [clock]
            omega
          · omega
    · rw [isLeader, other k here] at leads
      rw [other k here]
      exact held.believed k leads
  · intro k j instant executed active
    rw [status j] at active
    exact held.pending k j instant executed active
  · intro k j p sent
    rw [status j]
    exact held.releasing k j p sent
  · intro k halted
    rw [status k] at halted
    by_cases here : k = i
    · subst here
      rw [self, belief]
      cases won with
      | false => rfl
      | true => simp [(timely k e found).1] at halted
    · rw [other k here]
      exact held.silent k halted
  · intro k halted live
    rw [status k] at halted
    exact held.released k halted live

/-- An elector stops believing, and it releases its lease or has none that lives. -/
theorem Held.halt (held : Held τ offset w) {W : World} {elector : Elector}
    (lease : W.lease = w.lease) (now : W.now = w.now)
    (electors : W.electors = update w.electors i elector) (belief : elector.heldUntil = 0)
    (stopped : elector.stopped = true)
    (old : ∀ k query, W.queries k = some query →
      w.queries k = some query ∨ query = ⟨i, .release, .sent⟩)
    (keeps : ∀ k query, w.queries k = some query → W.queries k = some query)
    (releases : Live w i → Releasing W i) : Held τ offset W := by
  have self : W.electors i = elector := by simp [electors]
  have other : ∀ k, k ≠ i → W.electors k = w.electors k := by
    intro k ne
    simp [electors, ne]
  have live : ∀ k, Live W k → Live w k := by
    intro k here
    rwa [Live, lease, now] at here
  refine ⟨?_, ?_, ?_, ?_, ?_, ?_, ?_⟩
  · intro k leads
    by_cases here : k = i
    · subst here
      rw [isLeader, self, belief] at leads
      exact absurd leads (Nat.not_lt_zero _)
    · rw [isLeader, clock, now, other k here] at leads
      rw [lease, other k here]
      exact held.believed k leads
  · intro k j e executed active
    rw [lease, now]
    have here : j ≠ i := by
      rintro rfl
      rw [self, stopped] at active
      cases active
    rw [other j here] at active
    rcases old k _ executed with before | new
    · exact held.pending k j e before active
    · cases new
  · intro row here
    rw [lease] at here
    rw [now]
    exact held.fresh row here
  · intro k j s b e executed
    rw [now]
    rcases old k _ executed with before | new
    · exact held.past k j s b e before
    · cases new
  · intro k j p sent
    rcases old k _ sent with before | new
    · by_cases here : j = i
      · rw [here, self, stopped]
      · rw [other j here]
        exact held.releasing k j p before
    · cases new
      rw [self, stopped]
  · intro k halted
    by_cases here : k = i
    · rw [here, self, belief]
    · rw [other k here] at halted ⊢
      exact held.silent k halted
  · intro k halted here
    by_cases same : k = i
    · subst same
      exact releases (live k here)
    · rw [other k same] at halted
      obtain ⟨q, sent⟩ := held.released k halted (live k here)
      exact ⟨q, keeps q _ sent⟩

theorem Held.stop (held : Held τ offset w) (free : (w.queries q).isNone = true)
    (timely : Timely τ offset w (.stop i q)) {elector : Elector}
    (belief : elector.heldUntil = 0) (stopped : elector.stopped = true) :
    Held τ offset (if isLeader offset w i then (w.setElector i elector).send q i .release
      else w.setElector i elector) := by
  split
  · refine held.halt (i := i) rfl rfl rfl belief stopped ?_ ?_ ?_
    · intro k query found
      by_cases new : k = q
      · subst new
        right
        simpa [World.send] using found.symm
      · left
        simpa [World.send, World.setElector, new] using found
    · intro k query found
      have old : k ≠ q := by
        rintro rfl
        simp [found] at free
      simpa [World.send, World.setElector, old] using found
    · exact fun _ => ⟨q, by simp [World.send]⟩
  · next follower =>
      exact held.halt (i := i) rfl rfl rfl belief stopped (fun _ _ found => .inl found)
        (fun _ _ found => found) fun live => (timely.elim follower fun dead => dead live).elim

/-! ## Runs -/

theorem Held.step (held : Held τ offset w) {e : Event} {o : Unit} (timely : Timely τ offset w e)
    (eq : machine τ offset w e = some (t, o)) : Held τ offset t := by
  cases e with
  | tick elapsed =>
      cases eq
      exact held.tick elapsed
  | start i q =>
      simp only [machine] at eq
      split at eq
      · cases eq
      · next ready =>
          cases eq
          have free : (w.queries q).isNone = true := by
            simp only [not_or] at ready
            simpa using ready.2.2
          exact (held.send free (by simp)).setElector rfl rfl
  | renew i q =>
      simp only [machine] at eq
      split at eq
      · next ready =>
          cases eq
          exact held.send ready.2 (by simp)
      · cases eq
  | stop i q =>
      simp only [machine] at eq
      split at eq
      · cases eq
      · next free =>
          cases eq
          exact held.stop (by simpa using free) timely rfl rfl
  | execute q =>
      simp only [machine] at eq
      split at eq
      · next query found =>
          split at eq
          · next sent =>
              cases eq
              exact held.execute found sent timely
          · cases eq
      · cases eq
  | answer q =>
      simp only [machine] at eq
      split at eq
      · next i statement won instant found =>
          cases eq
          cases statement with
          | claim =>
              let elector :=
                ((w.electors i).answered τ won (clock offset w i)).returned q
              have believing : Held τ offset (w.setElector i elector) :=
                held.answered found timely (returned_heldUntil _ _) (returned_stopped _ _)
              exact believing.close found fun _ same => by cases same
          | release => exact held.close found fun _ same => by cases same
      · cases eq
  | fail q =>
      simp only [machine] at eq
      split at eq
      · next query found =>
          split at eq
          · cases eq
          · next outstanding =>
              cases eq
              have closed := held.close found fun i same => timely i (same ▸ found)
              exact closed.setElector (returned_heldUntil _ _) (returned_stopped _ _)
      · cases eq

theorem held_of_run {log : List (Event × Unit)}
    (run : Runs (machine τ offset) (Timely τ offset) World.empty log w) : Held τ offset w :=
  run.state_invariant (held_empty τ offset) fun _ _ _ _ held timely eq => held.step timely eq

theorem safe_of_held (held : Held τ offset w) : Safe offset w where
  one_leader i j left right := by
    obtain ⟨row, here, mine, -⟩ := held.believed i left
    obtain ⟨row', here', mine', -⟩ := held.believed j right
    rw [here] at here'
    rw [← mine, ← mine', Option.some.inj here']
  retired i stopped leads := by
    rw [isLeader, held.silent i stopped] at leads
    exact Nat.not_lt_zero _ leads
  released i stopped quiet live := by
    obtain ⟨q, sent⟩ := held.released i stopped live
    cases quiet q _ sent rfl

/-- In a run whose steps are timely there is never more than one leader, and nothing is left
of a stopped elector once its statements are over. -/
theorem leaders_safe {log : List (Event × Unit)}
    (run : Runs (machine τ offset) (Timely τ offset) World.empty log w) : Safe offset w :=
  safe_of_held (held_of_run run)

/-- The defaults of the source. -/
def defaults : Timing := ⟨30000, 10000, by decide, by decide⟩

/-- A second elector is refused while the first one leads, and takes over when that one has
stopped. -/
theorem leaders_safe_handover : ∃ log w,
    Runs (machine defaults fun _ => 0) (Timely defaults fun _ => 0) World.empty log w ∧
      (w.electors 0).stopped = true ∧ isLeader (fun _ => 0) w 1 ∧ Safe (fun _ => 0) w := by
  let m := machine defaults fun _ => 0
  let ok := Timely defaults fun _ => 0
  have began : Runs m ok World.empty ([] ++ [(.start 0 0, ())]) _ := .tail .refl trivial rfl
  have claimed : Runs m ok World.empty (_ ++ [(.execute 0, ())]) _ :=
    .tail began (fun i found stopped => by cases found; cases stopped) rfl
  have waited : Runs m ok World.empty (_ ++ [(.tick 10000, ())]) _ := .tail claimed trivial rfl
  have leads : Runs m ok World.empty (_ ++ [(.answer 0, ())]) _ :=
    .tail waited (fun i instant found => by cases found; exact ⟨rfl, by decide⟩) rfl
  have joins : Runs m ok World.empty (_ ++ [(.start 1 1, ())]) _ := .tail leads trivial rfl
  have refused : Runs m ok World.empty (_ ++ [(.execute 1, ())]) _ :=
    .tail joins (fun i found stopped => by cases found; cases stopped) rfl
  have follows : Runs m ok World.empty (_ ++ [(.answer 1, ())]) _ :=
    .tail refused (fun i instant found => by cases found) rfl
  have stops : Runs m ok World.empty (_ ++ [(.stop 0 2, ())]) _ :=
    .tail follows (.inl (by decide)) rfl
  have released : Runs m ok World.empty (_ ++ [(.execute 2, ())]) _ :=
    .tail stops (fun i found => by cases found) rfl
  have renews : Runs m ok World.empty (_ ++ [(.renew 1 3, ())]) _ := .tail released trivial rfl
  have wins : Runs m ok World.empty (_ ++ [(.execute 3, ())]) _ :=
    .tail renews (fun i found stopped => by cases found; cases stopped) rfl
  have succeeds : Runs m ok World.empty (_ ++ [(.answer 3, ())]) _ :=
    .tail wins (fun i instant found => by cases found; exact ⟨rfl, by decide⟩) rfl
  exact ⟨_, _, succeeds, rfl, by decide, leaders_safe succeeds⟩

/-- The answer of a claim arrives late, and a second elector takes the lease over. -/
def lateAnswer : List Event :=
  [.start 0 0, .execute 0, .tick 25000, .answer 0, .tick 5001, .start 1 1, .execute 1, .answer 1]

theorem late_answer_two_leaders : ∃ log w,
    Runs (machine defaults fun _ => 0) Always World.empty log w ∧ ¬ Safe (fun _ => 0) w := by
  obtain ⟨log, w, run, both⟩ := exists_run_of_exec (machine defaults fun _ => 0) Always World.empty
    lateAnswer (fun w => decide (isLeader (fun _ => 0) w 0 ∧ isLeader (fun _ => 0) w 1))
    (by decide +kernel)
  obtain ⟨left, right⟩ := of_decide_eq_true both
  exact ⟨log, w, run, fun safe => absurd (safe.one_leader 0 1 left right) (by decide)⟩

end Everdict.Leadership
