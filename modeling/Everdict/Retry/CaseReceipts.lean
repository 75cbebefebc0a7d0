import Everdict.Table
import Everdict.Transition

/-!
# The commit point of a case

`commitCase` of the receipt store in memory as a machine: every call waits for the last
one under its key, reads the receipt that is there, lets its caller settle, and sets its own
receipt only after a settled record.  Receipts carry the number of the call that set them,
so that two equal receipts of two calls stay apart.

`Invariant.order` is the argument: a call that has started leaves no earlier call of its
key unfinished, so nothing falls between what it read and what it sets.
-/

namespace Everdict.Retry

open Transition Transition.Machine

/-! ## Receipts and authorities -/

inductive ReceiptKind where
  | executed
  | failed
  | inherited
  deriving DecidableEq

structure CaseCommitReceipt where
  scorecardId : String
  caseId : String
  trial : Nat
  kind : Option ReceiptKind := none
  sourceScorecardId : Option String := none
  childRunId : String
  executionId : Option String := none
  generation : Option Nat := none
  attemptId : Option String := none
  resultDigest : String
  observationDigest : Option String := none
  judgeClosureDigest : Option String := none
  committedAt : String
  deriving DecidableEq

/-- `InMemoryCaseReceiptStore.key` -/
def CaseCommitReceipt.key (r : CaseCommitReceipt) : String :=
  r.scorecardId ++ "\x00" ++ r.caseId ++ "\x00" ++ toString r.trial

inductive PassStatus where
  | running
  | failed
  deriving DecidableEq

/-- What the mint reads of a record's `executionPass`. -/
structure PassMarker where
  passId : String
  targetRevision : Nat
  status : PassStatus
  deriving DecidableEq

structure ExecutionPassAuthority where
  scorecardId : String
  passId : String
  targetRevision : Nat
  deriving DecidableEq

/-- The authority of the pass a claimed record is marked with. -/
def executionPassAuthority (id : String) (executionPass : Option PassMarker) (passId : String) :
    Option ExecutionPassAuthority :=
  match executionPass with
  | none => none
  | some pass =>
      if pass.passId ≠ passId ∨ pass.status ≠ .running then none
      else some { scorecardId := id, passId, targetRevision := pass.targetRevision }

/-! ## The machine -/

/-- A receipt, with the number of the call that set it. -/
structure Held where
  call : Nat
  receipt : CaseCommitReceipt
  deriving DecidableEq

inductive CaseSettleOutcome where
  | committed (receipt : Held)
  | already_committed (receipt : Held)
  | unsettled
  | superseded (receipt displaced : Held)
  /-- The settle threw, and the call rethrows. -/
  | threw (error : String)
  deriving DecidableEq

inductive Stage where
  /-- The call before it under its key is not over. -/
  | waiting
  /-- It read this receipt and awaits its settle. -/
  | settling (existing : Option Held)
  | done (outcome : CaseSettleOutcome)
  deriving DecidableEq

structure Call where
  receipt : CaseCommitReceipt
  authority : Option ExecutionPassAuthority
  /-- The promise it is chained to. -/
  prior : Option Nat
  stage : Stage := .waiting
  deriving DecidableEq

namespace Call

def key (c : Call) : String := c.receipt.key

def Done (c : Call) : Prop := ∃ outcome, c.stage = .done outcome

def isDone (c : Call) : Bool :=
  match c.stage with
  | .done _ => true
  | _ => false

/-- What the call displaced, if it took effect. -/
def effect (c : Call) : Option (Option Held) :=
  match c.stage with
  | .done (.committed _) => some none
  | .done (.superseded _ displaced) => some (some displaced)
  | _ => none

def TookEffect (c : Call) : Prop := c.effect ≠ none

/-- May the call move the pointer of a committed case? -/
def mayDisplace (c : Call) : Bool :=
  match c.authority with
  | none => false
  | some authority => authority.scorecardId = c.receipt.scorecardId

end Call

/-- How the caller's settle came out. -/
inductive SettleAnswer where
  | record
  | refused
  | threw (error : String)
  deriving DecidableEq

inductive CommitEvent where
  | commitCase (receipt : CaseCommitReceipt) (authority : Option ExecutionPassAuthority)
  | start (i : Nat)
  | settled (i : Nat) (answer : SettleAnswer)
  deriving DecidableEq

structure World where
  receipts : Table String Held := Table.empty
  /-- The last call of each key. -/
  commits : Table String Nat := Table.empty
  calls : List Call := []

def World.setStage (s : World) (i : Nat) (stage : Stage) : World :=
  { s with calls := s.calls.modify i fun c => { c with stage } }

def World.setReceipt (s : World) (key : String) (held : Held) : World :=
  { s with receipts := s.receipts.set key held }

/-- A new call is the last one of its key. -/
def World.chain (s : World) (call : Call) : World :=
  { s with
    commits := s.commits.set call.key s.calls.length
    calls := s.calls ++ [call] }

/-- Is the promise a call is chained to settled? -/
def World.priorDone (s : World) (c : Call) : Bool :=
  c.prior.all fun p => (s.calls[p]?).any (·.isDone)

/-- What a call does once it is its turn. -/
def begun (c : Call) (existing : Option Held) : Stage :=
  match existing with
  | none => .settling none
  | some held => if c.mayDisplace then .settling (some held) else .done (.already_committed held)

def took (existing : Option Held) (held : Held) : CaseSettleOutcome :=
  match existing with
  | none => .committed held
  | some displaced => .superseded held displaced

def step : Machine World CommitEvent Unit
  | s, .commitCase receipt authority =>
      some (s.chain { receipt, authority, prior := s.commits.get receipt.key }, ())
  | s, .start i =>
      match s.calls[i]? with
      | none => none
      | some c =>
          if c.stage = .waiting ∧ s.priorDone c then
            some (s.setStage i (begun c (s.receipts.get c.key)), ())
          else none
  | s, .settled i answer =>
      match s.calls[i]? with
      | none => none
      | some c =>
          match c.stage with
          | .settling existing =>
              match answer with
              | .record =>
                  some ((s.setReceipt c.key ⟨i, c.receipt⟩).setStage i
                    (.done (took existing ⟨i, c.receipt⟩)), ())
              | .refused => some (s.setStage i (.done .unsettled), ())
              | .threw error => some (s.setStage i (.done (.threw error)), ())
          | _ => none

/-! ## The invariant -/

structure Invariant (s : World) : Prop where
  /-- The last call of a key is the latest one. -/
  last : ∀ (j : Nat) (c : Call), s.calls[j]? = some c →
    ∃ p c', s.commits.get c.key = some p ∧ j ≤ p ∧ s.calls[p]? = some c' ∧ c'.key = c.key
  /-- A call is chained to the one just before it under its key. -/
  chained : ∀ (i : Nat) (c : Call) (j : Nat) (c' : Call), s.calls[i]? = some c → s.calls[j]? = some c' → j < i →
    c'.key = c.key →
    ∃ p c'', c.prior = some p ∧ j ≤ p ∧ s.calls[p]? = some c'' ∧ c''.key = c.key
  order : ∀ (i : Nat) (c : Call) (j : Nat) (c' : Call), s.calls[i]? = some c → s.calls[j]? = some c' → j < i →
    c'.key = c.key → c.stage ≠ .waiting → c'.Done
  window : ∀ (i : Nat) (c : Call) existing, s.calls[i]? = some c → c.stage = .settling existing →
    s.receipts.get c.key = existing ∧ (existing ≠ none → c.mayDisplace = true)
  /-- The current receipt is the one of the last call that took effect. -/
  current : ∀ key (held : Held), s.receipts.get key = some held →
    ∃ c, s.calls[held.call]? = some c ∧ c.key = key ∧ c.receipt = held.receipt ∧ c.effect ≠ none
  latest : ∀ (i : Nat) (c : Call), s.calls[i]? = some c → c.effect ≠ none →
    ∃ held, s.receipts.get c.key = some held ∧ i ≤ held.call
  first : ∀ (i : Nat) (c : Call) (j : Nat) (c' : Call), s.calls[i]? = some c → c.effect = some none →
    s.calls[j]? = some c' → j < i → c'.key = c.key → c'.effect = none
  /-- A displaced receipt is the one of the call that took effect just before. -/
  displaced : ∀ (i : Nat) (c : Call) (held : Held), s.calls[i]? = some c → c.effect = some (some held) →
    c.mayDisplace = true ∧ held.call < i ∧
    (∃ c', s.calls[held.call]? = some c' ∧ c'.key = c.key ∧ c'.receipt = held.receipt ∧
      c'.effect ≠ none) ∧
    ∀ (j : Nat) (c' : Call), s.calls[j]? = some c' → held.call < j → j < i → c'.key = c.key →
      c'.effect = none

theorem invariant_start : Invariant {} := by
  constructor <;> intros <;> simp_all

variable {s : World} {i : Nat} {c : Call} {j : Nat}

theorem get_setStage {stage : Stage} {c' : Call} :
    (s.setStage i stage).calls[j]? = some c' ↔
      ∃ c, s.calls[j]? = some c ∧ c' = if j = i then { c with stage } else c := by
  unfold World.setStage
  rw [List.getElem?_modify]
  by_cases hit : i = j
  · subst hit
    cases s.calls[i]? <;> simp [eq_comm]
  · cases s.calls[j]? <;> simp [hit, Ne.symm hit, eq_comm]

/-- What a new call leaves as it was. -/
theorem get_append {call : Call} {c' : Call} (found : (s.calls ++ [call])[j]? = some c') :
    s.calls[j]? = some c' ∨ j = s.calls.length ∧ c' = call := by
  rcases Nat.lt_or_ge j s.calls.length with early | late
  · rw [List.getElem?_append_left early] at found
    exact .inl found
  · rw [List.getElem?_append_right late] at found
    rcases rest : j - s.calls.length with _ | n
    · rw [rest] at found
      exact .inr ⟨by omega, (Option.some.inj found).symm⟩
    · rw [rest] at found
      cases found

theorem lt_of_get (found : s.calls[j]? = some c) : j < s.calls.length :=
  (List.getElem?_eq_some_iff.mp found).1

theorem get_left {call : Call} (found : s.calls[j]? = some c) :
    (s.calls ++ [call])[j]? = some c := by
  rw [List.getElem?_append_left (lt_of_get found), found]

theorem done_iff : c.isDone = true ↔ c.Done := by
  unfold Call.isDone Call.Done
  rcases c.stage with _ | _ | _ <;> simp

theorem not_done_of_settling {existing : Option Held} (settling : c.stage = .settling existing) :
    ¬ c.Done := by
  intro done
  obtain ⟨outcome, eq⟩ := done
  rw [settling] at eq
  cases eq

theorem effect_of_not_done (open_ : ¬ c.Done) : c.effect = none := by
  unfold Call.effect
  split
  · next eq => exact absurd ⟨_, eq⟩ open_
  · next eq => exact absurd ⟨_, eq⟩ open_
  · rfl

theorem done_of_effect (effect : c.effect ≠ none) : c.Done := by
  by_contra open_
  exact effect (effect_of_not_done open_)

/-! ## One step -/

theorem invariant_commitCase (inv : Invariant s) (receipt : CaseCommitReceipt)
    (authority : Option ExecutionPassAuthority) :
    Invariant (s.chain { receipt, authority, prior := s.commits.get receipt.key }) := by
  have fresh : ∀ {j} {c : Call}, s.calls[j]? = some c → ¬ s.calls.length ≤ j :=
    fun found late => absurd (lt_of_get found) (Nat.not_lt.mpr late)
  refine ⟨?_, ?_, ?_, ?_, ?_, ?_, ?_, ?_⟩
  · intro j c found
    show ∃ p c', (s.commits.set receipt.key s.calls.length).get c.key = some p ∧ _
    rw [Table.get_set]
    split
    · next hit =>
        refine ⟨s.calls.length, { receipt, authority, prior := s.commits.get receipt.key }, rfl,
          ?_, ?_, hit.symm⟩
        · rcases get_append found with old | ⟨new, -⟩
          · exact Nat.le_of_lt (lt_of_get old)
          · exact Nat.le_of_eq new
        · show (s.calls ++ [_])[s.calls.length]? = _
          rw [List.getElem?_append_right (Nat.le_refl _), Nat.sub_self]
          rfl
    · next other =>
        rcases get_append found with old | ⟨-, rfl⟩
        · obtain ⟨p, c', last, le, there, key⟩ := inv.last j c old
          exact ⟨p, c', last, le, get_left there, key⟩
        · exact absurd rfl other
  · intro i c j c' found found' lt key
    rcases get_append found with old | ⟨rfl, rfl⟩
    · rcases get_append found' with old' | ⟨rfl, -⟩
      · obtain ⟨p, c'', prior, le, there, same⟩ := inv.chained i c j c' old old' lt key
        exact ⟨p, c'', prior, le, get_left there, same⟩
      · exact absurd (Nat.le_of_lt lt) (fresh old)
    · rcases get_append found' with old' | ⟨rfl, -⟩
      · obtain ⟨p, c'', last, le, there, same⟩ := inv.last j c' old'
        rw [key] at last same
        exact ⟨p, c'', last, le, get_left there, same⟩
      · omega
  · intro i c j c' found found' lt key begun
    rcases get_append found with old | ⟨rfl, rfl⟩
    · rcases get_append found' with old' | ⟨rfl, -⟩
      · exact inv.order i c j c' old old' lt key begun
      · exact absurd (Nat.le_of_lt lt) (fresh old)
    · exact absurd rfl begun
  · intro i c existing found settling
    rcases get_append found with old | ⟨rfl, rfl⟩
    · exact inv.window i c existing old settling
    · cases settling
  · intro key held found
    obtain ⟨c, there, rest⟩ := inv.current key held found
    exact ⟨c, get_left there, rest⟩
  · intro i c found effect
    rcases get_append found with old | ⟨rfl, rfl⟩
    · exact inv.latest i c old effect
    · exact absurd rfl effect
  · intro i c j c' found effect found' lt key
    rcases get_append found with old | ⟨rfl, rfl⟩
    · rcases get_append found' with old' | ⟨rfl, -⟩
      · exact inv.first i c j c' old effect old' lt key
      · exact absurd (Nat.le_of_lt lt) (fresh old)
    · cases effect
  · intro i c held found effect
    rcases get_append found with old | ⟨rfl, rfl⟩
    · obtain ⟨may, lt, ⟨c', there, same⟩, between⟩ := inv.displaced i c held old effect
      refine ⟨may, lt, ⟨c', get_left there, same⟩, ?_⟩
      intro j c'' found' after before key
      rcases get_append found' with old' | ⟨rfl, -⟩
      · exact between j c'' old' after before key
      · exact absurd (Nat.le_of_lt before) (fresh old)
    · cases effect

/-- No later call of the key has started while one is unfinished. -/
theorem Invariant.waits (inv : Invariant s) (found : s.calls[i]? = some c) (unfinished : ¬ c.Done)
    {c' : Call} (found' : s.calls[j]? = some c') (key : c'.key = c.key)
    (begun : c'.stage ≠ .waiting) : j ≤ i := by
  by_contra later
  exact unfinished (inv.order j c' i c found' found (by omega) key.symm begun)

theorem not_waiting_of_done (done : c.Done) : c.stage ≠ .waiting := by
  obtain ⟨outcome, eq⟩ := done
  rw [eq]
  exact Stage.noConfusion

/-- The call that moves on, where it does not take effect. -/
theorem Invariant.advance (inv : Invariant s) (found : s.calls[i]? = some c)
    (unfinished : ¬ c.Done) {stage : Stage} (still : ({ c with stage } : Call).effect = none)
    (order : ∀ j c', s.calls[j]? = some c' → j < i → c'.key = c.key → c'.Done)
    (window : ∀ existing, stage = .settling existing →
      s.receipts.get c.key = existing ∧ (existing ≠ none → c.mayDisplace = true)) :
    Invariant (s.setStage i stage) := by
  -- what a call of the new state was, and that it took effect before if it does now
  have was : ∀ {j : Nat} {c' : Call}, (s.setStage i stage).calls[j]? = some c' →
      ∃ b, s.calls[j]? = some b ∧ c'.key = b.key ∧ c'.receipt = b.receipt ∧
        c'.authority = b.authority ∧ c'.prior = b.prior ∧ c'.effect = b.effect ∧
        (j = i ∧ b = c ∧ c'.stage = stage ∨ j ≠ i ∧ c' = b) := by
    intro j c' there
    obtain ⟨b, before, rfl⟩ := get_setStage.mp there
    by_cases hit : j = i
    · subst hit
      obtain rfl : c = b := Option.some.inj (found.symm.trans before)
      rw [if_pos rfl]
      exact ⟨c, found, rfl, rfl, rfl, rfl, still.trans (effect_of_not_done unfinished).symm,
        .inl ⟨rfl, rfl, rfl⟩⟩
    · rw [if_neg hit]
      exact ⟨b, before, rfl, rfl, rfl, rfl, rfl, .inr ⟨hit, rfl⟩⟩
  have stays : ∀ {j : Nat} {b : Call}, s.calls[j]? = some b →
      ∃ c', (s.setStage i stage).calls[j]? = some c' ∧ c'.key = b.key ∧ c'.receipt = b.receipt ∧
        c'.effect = b.effect := by
    intro j b before
    refine ⟨_, get_setStage.mpr ⟨b, before, rfl⟩, ?_⟩
    by_cases hit : j = i
    · subst hit
      obtain rfl : c = b := Option.some.inj (found.symm.trans before)
      rw [if_pos rfl]
      exact ⟨rfl, rfl, still.trans (effect_of_not_done unfinished).symm⟩
    · rw [if_neg hit]
      exact ⟨rfl, rfl, rfl⟩
  refine ⟨?_, ?_, ?_, ?_, ?_, ?_, ?_, ?_⟩
  · intro j c' there
    obtain ⟨b, before, key, -⟩ := was there
    obtain ⟨p, d, last, le, atp, same⟩ := inv.last j b before
    obtain ⟨d', atp', key', -⟩ := stays atp
    rw [key]
    exact ⟨p, d', last, le, atp', key'.trans same⟩
  · intro k c' j d' atk atj lt same
    obtain ⟨b, beforek, keyk, -, -, prior, -⟩ := was atk
    obtain ⟨b', beforej, keyj, -⟩ := was atj
    rw [keyk, keyj] at same
    obtain ⟨p, d, chained, le, atp, keyp⟩ := inv.chained k b j b' beforek beforej lt same
    obtain ⟨e, atp', keye, -⟩ := stays atp
    rw [keyk, prior]
    exact ⟨p, e, chained, le, atp', keye.trans keyp⟩
  · intro k c' j d' atk atj lt same begun
    obtain ⟨b, beforek, keyk, -, -, -, -, atI⟩ := was atk
    obtain ⟨b', beforej, keyj, -, -, -, -, atI'⟩ := was atj
    rw [keyk, keyj] at same
    rcases atI with ⟨rfl, rfl, -⟩ | ⟨-, rfl⟩
    · rcases atI' with ⟨rfl, -⟩ | ⟨-, rfl⟩
      · omega
      · exact order j d' beforej lt same
    · rcases atI' with ⟨rfl, rfl, -⟩ | ⟨-, rfl⟩
      · exact absurd (inv.waits beforej unfinished beforek same.symm begun) (by omega)
      · exact inv.order k c' j d' beforek beforej lt same begun
  · intro k c' existing atk settling
    obtain ⟨b, before, key, receipt, authority, -, -, atI⟩ := was atk
    rcases atI with ⟨rfl, rfl, eq⟩ | ⟨-, rfl⟩
    · have may : c'.mayDisplace = b.mayDisplace := by
        rw [Call.mayDisplace, Call.mayDisplace, receipt, authority]
      rw [key, may]
      exact window existing (eq.symm.trans settling)
    · exact inv.window k c' existing before settling
  · intro key held current
    obtain ⟨b, before, keyb, receipt, effect⟩ := inv.current key held current
    obtain ⟨c', there, key', receipt', effect'⟩ := stays before
    exact ⟨c', there, key'.trans keyb, receipt'.trans receipt, by rwa [effect']⟩
  · intro j c' there took
    obtain ⟨b, before, key, -, -, -, effect, -⟩ := was there
    rw [effect] at took
    rw [key]
    exact inv.latest j b before took
  · intro k c' j d' atk took atj lt same
    obtain ⟨b, beforek, keyk, -, -, -, effect, -⟩ := was atk
    obtain ⟨b', beforej, keyj, -, -, -, effect', -⟩ := was atj
    rw [effect] at took
    rw [keyk, keyj] at same
    rw [effect']
    exact inv.first k b j b' beforek took beforej lt same
  · intro k c' held atk took
    obtain ⟨b, beforek, keyk, receipt, authority, -, effect, -⟩ := was atk
    rw [effect] at took
    obtain ⟨may, lt, ⟨d, atd, keyd, receiptd, tookd⟩, between⟩ :=
      inv.displaced k b held beforek took
    obtain ⟨d', atd', keyd', receiptd', effectd⟩ := stays atd
    refine ⟨?_, lt, ⟨d', atd', ?_, receiptd'.trans receiptd, by rwa [effectd]⟩, ?_⟩
    · rw [Call.mayDisplace, receipt, authority]
      exact may
    · rw [keyd', keyd, keyk]
    · intro j e' atj after before key
      obtain ⟨e, beforej, keye, -, -, -, effect', -⟩ := was atj
      rw [keye, keyk] at key
      rw [effect']
      exact between j e beforej after before key

theorem invariant_begun (inv : Invariant s) (found : s.calls[i]? = some c)
    (waiting : c.stage = .waiting) (turn : s.priorDone c = true) :
    Invariant (s.setStage i (begun c (s.receipts.get c.key))) := by
  have unfinished : ¬ c.Done := by
    intro ⟨outcome, eq⟩
    rw [waiting] at eq
    cases eq
  have order : ∀ j c', s.calls[j]? = some c' → j < i → c'.key = c.key → c'.Done := by
    intro j c' there lt same
    obtain ⟨p, d, prior, le, atp, key⟩ := inv.chained i c j c' found there lt same
    have done : d.Done := by
      rw [World.priorDone, prior, Option.all_some, atp, Option.any_some] at turn
      exact done_iff.mp turn
    rcases Nat.lt_or_eq_of_le le with earlier | rfl
    · exact inv.order p d j c' atp there earlier (same.trans key.symm) (not_waiting_of_done done)
    · obtain rfl : d = c' := Option.some.inj (atp.symm.trans there)
      exact done
  rcases eq : s.receipts.get c.key with _ | held
  · refine inv.advance found unfinished rfl order ?_
    intro existing same
    obtain rfl : none = existing := Stage.settling.inj same
    exact ⟨eq, fun h => absurd rfl h⟩
  · change Invariant (s.setStage i
      (if c.mayDisplace then .settling (some held) else .done (.already_committed held)))
    split
    · next may =>
        refine inv.advance found unfinished rfl order ?_
        intro existing same
        obtain rfl : some held = existing := Stage.settling.inj same
        exact ⟨eq, fun _ => may⟩
    · refine inv.advance found unfinished rfl order ?_
      intro existing same
      cases same

theorem effect_took (existing : Option Held) (held : Held) :
    ({ c with stage := .done (took existing held) } : Call).effect = some existing := by
  cases existing <;> rfl

/-- The call that takes effect: nothing of its key took effect since it read. -/
theorem invariant_took (inv : Invariant s) (found : s.calls[i]? = some c) {existing : Option Held}
    (settling : c.stage = .settling existing) :
    Invariant ((s.setReceipt c.key ⟨i, c.receipt⟩).setStage i
      (.done (took existing ⟨i, c.receipt⟩))) := by
  have unfinished := not_done_of_settling settling
  have idle : c.effect = none := effect_of_not_done unfinished
  obtain ⟨here, may⟩ := inv.window i c existing found settling
  have receipts : ∀ key, ((s.setReceipt c.key ⟨i, c.receipt⟩).setStage i
      (.done (took existing ⟨i, c.receipt⟩))).receipts.get key =
      if key = c.key then some ⟨i, c.receipt⟩ else s.receipts.get key :=
    fun key => Table.get_set _ _ _
  have was : ∀ {j : Nat} {c' : Call}, ((s.setReceipt c.key ⟨i, c.receipt⟩).setStage i
      (.done (took existing ⟨i, c.receipt⟩))).calls[j]? = some c' →
      ∃ b, s.calls[j]? = some b ∧ c'.key = b.key ∧ c'.receipt = b.receipt ∧
        c'.authority = b.authority ∧ c'.prior = b.prior ∧
        (j = i ∧ b = c ∧ c'.stage = .done (took existing ⟨i, c.receipt⟩) ∧
          c'.effect = some existing ∨ j ≠ i ∧ c' = b) := by
    intro j c' there
    obtain ⟨b, before, rfl⟩ := get_setStage.mp there
    change s.calls[j]? = some b at before
    by_cases hit : j = i
    · subst hit
      obtain rfl : c = b := Option.some.inj (found.symm.trans before)
      rw [if_pos rfl]
      exact ⟨c, found, rfl, rfl, rfl, rfl, .inl ⟨rfl, rfl, rfl, effect_took _ _⟩⟩
    · rw [if_neg hit]
      exact ⟨b, before, rfl, rfl, rfl, rfl, .inr ⟨hit, rfl⟩⟩
  have stays : ∀ {j : Nat} {b : Call}, s.calls[j]? = some b →
      ∃ c', ((s.setReceipt c.key ⟨i, c.receipt⟩).setStage i
        (.done (took existing ⟨i, c.receipt⟩))).calls[j]? = some c' ∧ c'.key = b.key ∧
        c'.receipt = b.receipt ∧ (b.effect ≠ none → c'.effect ≠ none) ∧
        (j = i → c'.effect ≠ none) := by
    intro j b before
    refine ⟨_, get_setStage.mpr ⟨b, before, rfl⟩, ?_⟩
    by_cases hit : j = i
    · subst hit
      rw [if_pos rfl, effect_took]
      exact ⟨rfl, rfl, fun _ => Option.some_ne_none _, fun _ => Option.some_ne_none _⟩
    · rw [if_neg hit]
      exact ⟨rfl, rfl, id, fun eq => absurd eq hit⟩
  -- whatever took effect under the key came before this call
  have earlier : ∀ {j : Nat} {b : Call}, s.calls[j]? = some b → b.key = c.key →
      b.effect ≠ none → j < i := by
    intro j b before key took
    have le := inv.waits found unfinished before key (not_waiting_of_done (done_of_effect took))
    rcases Nat.lt_or_eq_of_le le with lt | rfl
    · exact lt
    · obtain rfl : c = b := Option.some.inj (found.symm.trans before)
      exact absurd idle took
  refine ⟨?_, ?_, ?_, ?_, ?_, ?_, ?_, ?_⟩
  · intro j c' there
    obtain ⟨b, before, key, -⟩ := was there
    obtain ⟨p, d, last, le, atp, same⟩ := inv.last j b before
    obtain ⟨d', atp', key', -⟩ := stays atp
    rw [key]
    exact ⟨p, d', last, le, atp', key'.trans same⟩
  · intro k c' j d' atk atj lt same
    obtain ⟨b, beforek, keyk, -, -, prior, -⟩ := was atk
    obtain ⟨b', beforej, keyj, -⟩ := was atj
    rw [keyk, keyj] at same
    obtain ⟨p, d, chained, le, atp, keyp⟩ := inv.chained k b j b' beforek beforej lt same
    obtain ⟨e, atp', keye, -⟩ := stays atp
    rw [keyk, prior]
    exact ⟨p, e, chained, le, atp', keye.trans keyp⟩
  · intro k c' j d' atk atj lt same begun
    obtain ⟨b, beforek, keyk, -, -, -, atI⟩ := was atk
    obtain ⟨b', beforej, keyj, -, -, -, atI'⟩ := was atj
    rw [keyk, keyj] at same
    rcases atI' with ⟨-, -, eq, -⟩ | ⟨-, rfl⟩
    · exact ⟨_, eq⟩
    · rcases atI with ⟨rfl, rfl, -⟩ | ⟨-, rfl⟩
      · exact inv.order k b j d' found beforej lt same (by rw [settling]; exact Stage.noConfusion)
      · exact inv.order k c' j d' beforek beforej lt same begun
  · intro k c' existing' atk settling'
    obtain ⟨b, before, key, -, -, -, atI⟩ := was atk
    rcases atI with ⟨-, -, eq, -⟩ | ⟨other, rfl⟩
    · rw [eq] at settling'
      cases settling'
    · rw [receipts]
      have apart : c'.key ≠ c.key := by
        intro same
        have open' := not_done_of_settling settling'
        have le := inv.waits found unfinished before same (by rw [settling']; exact Stage.noConfusion)
        have ge := inv.waits before open' found same.symm (by rw [settling]; exact Stage.noConfusion)
        omega
      rw [if_neg apart]
      exact inv.window k c' existing' before settling'
  · intro key held current
    rw [receipts] at current
    split at current
    · next hit =>
        obtain rfl := Option.some.inj current
        obtain ⟨c', there, key', receipt', -, effect⟩ := stays found
        exact ⟨c', there, key'.trans hit.symm, receipt', effect rfl⟩
    · obtain ⟨b, before, keyb, receipt, effect⟩ := inv.current key held current
      obtain ⟨c', there, key', receipt', effect', -⟩ := stays before
      exact ⟨c', there, key'.trans keyb, receipt'.trans receipt, effect' effect⟩
  · intro j c' there tookj
    obtain ⟨b, before, key, -, -, -, atI⟩ := was there
    rw [receipts, key]
    rcases atI with ⟨rfl, rfl, -⟩ | ⟨-, rfl⟩
    · exact ⟨_, if_pos rfl, Nat.le_refl _⟩
    · by_cases same : c'.key = c.key
      · exact ⟨_, if_pos same, Nat.le_of_lt (earlier before same tookj)⟩
      · rw [if_neg same]
        exact inv.latest j c' before tookj
  · intro k c' j d' atk tookk atj lt same
    obtain ⟨b, beforek, keyk, -, -, -, atI⟩ := was atk
    obtain ⟨b', beforej, keyj, -, -, -, atI'⟩ := was atj
    rw [keyk, keyj] at same
    rcases atI with ⟨rfl, rfl, -, effect⟩ | ⟨-, rfl⟩
    · obtain rfl : existing = none := by
        rw [effect] at tookk
        exact Option.some.inj tookk
      rcases atI' with ⟨rfl, -⟩ | ⟨-, rfl⟩
      · omega
      · by_contra tookj
        obtain ⟨held, current, -⟩ := inv.latest j d' beforej tookj
        rw [same, here] at current
        cases current
    · rcases atI' with ⟨rfl, rfl, -⟩ | ⟨-, rfl⟩
      · have := earlier beforek same.symm (by rw [tookk]; exact Option.some_ne_none _)
        omega
      · exact inv.first k c' j d' beforek tookk beforej lt same
  · intro k c' held atk tookk
    obtain ⟨b, beforek, keyk, receipt, authority, -, atI⟩ := was atk
    rcases atI with ⟨rfl, rfl, -, effect⟩ | ⟨-, rfl⟩
    · obtain rfl : existing = some held := by
        rw [effect] at tookk
        exact Option.some.inj tookk
      obtain ⟨d, atd, keyd, receiptd, tookd⟩ := inv.current b.key held here
      have lt := earlier atd keyd tookd
      obtain ⟨d', atd', keyd', receiptd', tookd', -⟩ := stays atd
      refine ⟨?_, lt, ⟨d', atd', ?_, receiptd'.trans receiptd, tookd' tookd⟩, ?_⟩
      · rw [Call.mayDisplace, receipt, authority]
        exact may (Option.some_ne_none _)
      · rw [keyd', keyd, keyk]
      · intro j e' atj after before key
        obtain ⟨e, beforej, keye, -, -, -, atJ⟩ := was atj
        rcases atJ with ⟨rfl, -⟩ | ⟨-, rfl⟩
        · omega
        · by_contra tooke
          obtain ⟨held', current, le⟩ := inv.latest j e' beforej tooke
          rw [key, keyk, here] at current
          obtain rfl := Option.some.inj current
          omega
    · obtain ⟨may, lt, ⟨d, atd, keyd, receiptd, tookd⟩, between⟩ :=
        inv.displaced k c' held beforek tookk
      obtain ⟨d', atd', keyd', receiptd', tookd', -⟩ := stays atd
      refine ⟨may, lt, ⟨d', atd', keyd'.trans keyd, receiptd'.trans receiptd, tookd' tookd⟩, ?_⟩
      intro j e' atj after before key
      obtain ⟨e, beforej, keye, -, -, -, atJ⟩ := was atj
      rcases atJ with ⟨rfl, rfl, -⟩ | ⟨-, rfl⟩
      · have := earlier beforek (key.symm.trans keye) (by rw [tookk]; exact Option.some_ne_none _)
        omega
      · exact between j e' beforej after before key

/-- What one step does: it settles a record of a call under way, or sets no receipt. -/
theorem of_step {e : CommitEvent} {t : World} {o : Unit} (inv : Invariant s)
    (eq : step s e = some (t, o)) : Invariant t ∧
      ((∃ i c existing, e = .settled i .record ∧ s.calls[i]? = some c ∧
        c.stage = .settling existing ∧ t.receipts = s.receipts.set c.key ⟨i, c.receipt⟩) ∨
      (∀ i, e ≠ .settled i .record) ∧ t.receipts = s.receipts) := by
  cases e with
  | commitCase receipt authority =>
      simp only [step] at eq
      obtain ⟨rfl, -⟩ := Prod.mk.inj (Option.some.inj eq)
      exact ⟨invariant_commitCase inv receipt authority, .inr ⟨fun _ hit => CommitEvent.noConfusion hit, rfl⟩⟩
  | start i =>
      simp only [step] at eq
      split at eq
      · cases eq
      · next c found =>
          split at eq
          · next turn =>
              obtain ⟨rfl, -⟩ := Prod.mk.inj (Option.some.inj eq)
              exact ⟨invariant_begun inv found turn.1 turn.2, .inr ⟨fun _ hit => CommitEvent.noConfusion hit, rfl⟩⟩
          · cases eq
  | settled i answer =>
      simp only [step] at eq
      split at eq
      · cases eq
      · next c found =>
          split at eq
          · next existing settling =>
              have unfinished := not_done_of_settling settling
              have order : ∀ j c', s.calls[j]? = some c' → j < i → c'.key = c.key → c'.Done :=
                fun j c' there lt same => inv.order i c j c' found there lt same
                  (by rw [settling]; exact Stage.noConfusion)
              have window : ∀ outcome existing, Stage.done outcome = .settling existing →
                  s.receipts.get c.key = existing ∧
                    (existing ≠ none → c.mayDisplace = true) :=
                fun _ _ same => Stage.noConfusion same
              cases answer with
              | record =>
                  obtain ⟨rfl, -⟩ := Prod.mk.inj (Option.some.inj eq)
                  exact ⟨invariant_took inv found settling,
                    .inl ⟨i, c, existing, rfl, found, settling, rfl⟩⟩
              | refused =>
                  obtain ⟨rfl, -⟩ := Prod.mk.inj (Option.some.inj eq)
                  refine ⟨inv.advance found unfinished rfl order (window _), .inr ⟨?_, rfl⟩⟩
                  intro j hit
                  cases hit
              | threw error =>
                  obtain ⟨rfl, -⟩ := Prod.mk.inj (Option.some.inj eq)
                  refine ⟨inv.advance found unfinished rfl order (window _), .inr ⟨?_, rfl⟩⟩
                  intro j hit
                  cases hit
          · cases eq

theorem invariant_of_reachable (reached : Reachable step Always {} s) : Invariant s := by
  obtain ⟨log, run⟩ := reached
  exact run.state_invariant invariant_start fun _ _ _ _ inv _ eq => (of_step inv eq).1

/-! ## What commits do -/

/-- Without an authority a call takes effect only where no other did. -/
theorem Invariant.once (inv : Invariant s) {c' : Call} (found : s.calls[i]? = some c)
    (found' : s.calls[j]? = some c') (key : c'.key = c.key) (plain : c.authority = none)
    (took : c.TookEffect) (took' : c'.TookEffect) : i ≤ j := by
  by_contra later
  rcases effect : c.effect with _ | _ | held
  · exact took effect
  · exact took' (inv.first i c j c' found effect found' (by omega) key)
  · obtain ⟨may, -⟩ := inv.displaced i c held found effect
    rw [Call.mayDisplace, plain] at may
    cases may

/-- The call of a key that takes effect next after `i`. -/
theorem Invariant.exists_next (inv : Invariant s) {c' : Call} (found : s.calls[i]? = some c)
    (took : c.TookEffect) (found' : s.calls[j]? = some c') (key : c'.key = c.key)
    (took' : c'.TookEffect) (lt : i < j) :
    ∃ n c', s.calls[n]? = some c' ∧ i < n ∧ c'.key = c.key ∧
      c'.effect = some (some ⟨i, c.receipt⟩) := by
  induction j using Nat.strongRecOn generalizing c' with
  | ind j ih =>
      rcases effect : c'.effect with _ | _ | held
      · exact absurd effect took'
      · exact absurd (inv.first j c' i c found' effect found lt key.symm) took
      obtain ⟨-, before, ⟨d, atd, keyd, receiptd, tookd⟩, between⟩ :=
        inv.displaced j c' held found' effect
      rcases Nat.lt_trichotomy held.call i with less | same | more
      · exact absurd (between i c found less lt key.symm) took
      · obtain rfl : d = c := by
          rw [same] at atd
          exact Option.some.inj (atd.symm.trans found)
        refine ⟨j, c', found', lt, key, ?_⟩
        rw [effect, ← same, receiptd]
      · exact ih held.call before atd (keyd.trans key) tookd more

/-- Two calls that displace the receipt of one call are one. -/
theorem Invariant.displaced_once (inv : Invariant s) {j k : Nat} {c' c'' : Call} {held : Held}
    (foundj : s.calls[j]? = some c') (foundk : s.calls[k]? = some c'')
    (keys : c'.key = c''.key) (effect : c'.effect = some (some held))
    (effect' : c''.effect = some (some held)) : j ≤ k := by
  by_contra later
  obtain ⟨-, lt, -⟩ := inv.displaced k c'' held foundk effect'
  obtain ⟨-, -, -, between⟩ := inv.displaced j c' held foundj effect
  have idle := between k c'' foundk lt (by omega) keys.symm
  rw [effect'] at idle
  cases idle

/-- The receipt of this call is the current one of its key. -/
def Current (s : World) (key : String) (i : Nat) : Prop :=
  ∃ held, s.receipts.get key = some held ∧ held.call = i

/-- A call that took effect has the current receipt, and nobody displaced it, or exactly one
later call handed it back. -/
theorem Invariant.kept_or_displaced (inv : Invariant s) (found : s.calls[i]? = some c)
    (took : c.TookEffect) :
    (s.receipts.get c.key = some ⟨i, c.receipt⟩ ∧
      ∀ (j : Nat) (c' : Call), s.calls[j]? = some c' → c'.key = c.key →
        c'.effect ≠ some (some ⟨i, c.receipt⟩)) ∨
    (¬ Current s c.key i ∧ ∃! j, i < j ∧ ∃ c', s.calls[j]? = some c' ∧ c'.key = c.key ∧
      c'.effect = some (some ⟨i, c.receipt⟩)) := by
  obtain ⟨held, now, le⟩ := inv.latest i c found took
  obtain ⟨d, atd, keyd, receiptd, tookd⟩ := inv.current c.key held now
  rcases Nat.lt_or_eq_of_le le with lt | same
  · right
    refine ⟨?_, ?_⟩
    · intro ⟨held', now', eq⟩
      obtain rfl := Option.some.inj (now.symm.trans now')
      omega
    · obtain ⟨n, c', atn, lt, key, effect⟩ := inv.exists_next found took atd keyd tookd lt
      refine ⟨n, ⟨lt, c', atn, key, effect⟩, ?_⟩
      intro m ⟨_, c'', atm, key', effect'⟩
      exact Nat.le_antisymm
        (inv.displaced_once atm atn (key'.trans key.symm) effect' effect)
        (inv.displaced_once atn atm (key.trans key'.symm) effect effect')
  · left
    subst same
    obtain rfl : d = c := Option.some.inj (atd.symm.trans found)
    refine ⟨?_, ?_⟩
    · rw [now, receiptd]
    · intro j c' atj key effect
      obtain ⟨-, lt, -⟩ := inv.displaced j c' _ atj effect
      obtain ⟨held', now', le'⟩ := inv.latest j c' atj (by rw [effect]; exact Option.some_ne_none _)
      rw [key, now] at now'
      obtain rfl := Option.some.inj now'
      exact absurd (Nat.lt_of_lt_of_le lt le') (Nat.lt_irrefl _)

/-- A receipt becomes current with the settled record of its call, and only so. -/
theorem Invariant.becomes_current (inv : Invariant s) {e : CommitEvent} {t : World} {o : Unit}
    (eq : step s e = some (t, o)) (key : String) (i : Nat) :
    ¬ Current s key i ∧ Current t key i ↔
      ∃ c, e = .settled i .record ∧ s.calls[i]? = some c ∧ c.key = key := by
  obtain ⟨-, ⟨j, c, existing, rfl, found, settling, sets⟩ | ⟨other, same⟩⟩ := of_step inv eq
  · have receipts : t.receipts.get key =
        if key = c.key then some ⟨j, c.receipt⟩ else s.receipts.get key := by
      rw [sets, Table.get_set]
    have fresh : ¬ Current s c.key j := by
      intro current
      obtain ⟨held, now, eq⟩ := current
      obtain ⟨d, atd, -, -, tookd⟩ := inv.current c.key held now
      rw [eq] at atd
      obtain rfl : d = c := Option.some.inj (atd.symm.trans found)
      apply tookd
      rw [Call.effect, settling]
    constructor
    · intro becomes
      obtain ⟨before, held, now, call⟩ := becomes
      rw [receipts] at now
      split at now
      · next hit =>
          obtain rfl := Option.some.inj now
          subst call
          exact ⟨c, rfl, found, hit.symm⟩
      · exact absurd ⟨held, now, call⟩ before
    · intro settles
      obtain ⟨c', same, found', hit⟩ := settles
      obtain ⟨rfl, -⟩ := CommitEvent.settled.inj same
      obtain rfl : c = c' := Option.some.inj (found.symm.trans found')
      subst hit
      exact ⟨fresh, ⟨j, c.receipt⟩, by rw [receipts, if_pos rfl], rfl⟩
  · constructor
    · intro becomes
      obtain ⟨before, now⟩ := becomes
      rw [Current, same] at now
      exact absurd now before
    · intro settles
      obtain ⟨_, hit, -⟩ := settles
      exact absurd hit (other i)

/-- However the commits of a store interleave: without an authority one call for a key takes
effect; a receipt becomes current exactly with the settled record of its call; a receipt that
took effect is the current one or was handed back by exactly one later call; an authority for
another scorecard displaces nothing; and a commit that is refused or throws leaves every receipt
as it was. -/
theorem commits_once_and_loses_no_receipt (reached : Reachable step Always {} s) :
    (∀ (i j : Nat) (c c' : Call), s.calls[i]? = some c → s.calls[j]? = some c' → c'.key = c.key →
      c.authority = none → c'.authority = none → c.TookEffect → c'.TookEffect → i = j) ∧
    (∀ e t o, step s e = some (t, o) → ∀ key i, ¬ Current s key i ∧ Current t key i ↔
      ∃ c, e = .settled i .record ∧ s.calls[i]? = some c ∧ c.key = key) ∧
    (∀ (i : Nat) (c : Call), s.calls[i]? = some c → c.TookEffect →
      (s.receipts.get c.key = some ⟨i, c.receipt⟩ ∧
        ∀ (j : Nat) (c' : Call), s.calls[j]? = some c' → c'.key = c.key →
          c'.effect ≠ some (some ⟨i, c.receipt⟩)) ∨
      (¬ Current s c.key i ∧ ∃! j, i < j ∧ ∃ c', s.calls[j]? = some c' ∧ c'.key = c.key ∧
        c'.effect = some (some ⟨i, c.receipt⟩))) ∧
    (∀ (i : Nat) (c : Call) authority held, s.calls[i]? = some c → c.authority = some authority →
      authority.scorecardId ≠ c.receipt.scorecardId → c.effect ≠ some (some held)) ∧
    (∀ e t o, step s e = some (t, o) → (∀ i, e ≠ .settled i .record) →
      t.receipts = s.receipts) := by
  have inv := invariant_of_reachable reached
  refine ⟨?_, ?_, ?_, ?_, ?_⟩
  · intro i j c c' found found' key plain plain' took took'
    exact Nat.le_antisymm (inv.once found found' key plain took took')
      (inv.once found' found key.symm plain' took' took)
  · intro e t o eq
    exact inv.becomes_current eq
  · intro i c found took
    exact inv.kept_or_displaced found took
  · intro i c authority held found some other effect
    obtain ⟨may, -⟩ := inv.displaced i c held found effect
    rw [Call.mayDisplace, some] at may
    exact other (of_decide_eq_true may)
  · intro e t o eq none
    obtain ⟨-, ⟨i, _, _, rfl, -⟩ | ⟨-, same⟩⟩ := of_step inv eq
    · exact absurd rfl (none i)
    · exact same

def receiptOf (childRunId : String) : CaseCommitReceipt where
  scorecardId := "sc"
  caseId := "a"
  trial := 0
  childRunId := childRunId
  resultDigest := childRunId
  committedAt := "t"

/-- The authority of a pass that claimed the scorecard. -/
def passAuthority (passId : String) (targetRevision : Nat) : Option ExecutionPassAuthority :=
  executionPassAuthority "sc" (some ⟨passId, targetRevision, .running⟩) passId

/-- A commit, the commit of the second pass, and then one under the authority of the first. -/
def stalePass : List CommitEvent :=
  [.commitCase (receiptOf "run-0") none, .start 0, .settled 0 .record,
    .commitCase (receiptOf "run-2") (passAuthority "p2" 2),
    .commitCase (receiptOf "run-1") (passAuthority "p1" 1), .start 1, .settled 1 .record,
    .start 2, .settled 2 .record]

def stalePassCalls : List Call :=
  [⟨receiptOf "run-0", none, none, .done (.committed ⟨0, receiptOf "run-0"⟩)⟩,
    ⟨receiptOf "run-2", passAuthority "p2" 2, some 0,
      .done (.superseded ⟨1, receiptOf "run-2"⟩ ⟨0, receiptOf "run-0"⟩)⟩,
    ⟨receiptOf "run-1", passAuthority "p1" 1, some 1,
      .done (.superseded ⟨2, receiptOf "run-1"⟩ ⟨1, receiptOf "run-2"⟩)⟩]

theorem stalePass_reachable : ∃ s, Reachable step Always {} s ∧ s.calls = stalePassCalls := by
  obtain ⟨log, s, run, calls⟩ := exists_run_of_exec step Always {} stalePass
    (fun s => s.calls = stalePassCalls) (by decide +kernel)
  exact ⟨s, ⟨log, run⟩, of_decide_eq_true calls⟩

theorem commits_once_and_loses_no_receipt_stalePass :
    ∃ s : World, s.calls = stalePassCalls ∧ ∃! j, 0 < j ∧ ∃ c', s.calls[j]? = some c' ∧
      c'.key = (receiptOf "run-0").key ∧ c'.effect = some (some ⟨0, receiptOf "run-0"⟩) := by
  obtain ⟨s, reached, calls⟩ := stalePass_reachable
  have found : s.calls[0]? = stalePassCalls[0]? := by rw [calls]
  have later : s.calls[1]? = stalePassCalls[1]? := by rw [calls]
  refine ⟨s, calls, ?_⟩
  rcases (commits_once_and_loses_no_receipt reached).2.2.1 0 _ found (Option.some_ne_none _) with
    ⟨-, none⟩ | ⟨-, once⟩
  · exact absurd rfl (none 1 _ later (by decide +kernel))
  · exact once

/-- The store compares nothing but the scorecard, so the authority of an older pass displaces
the receipt of a newer one. -/
theorem stale_authority_displaces :
    ¬ ∀ s, Reachable step Always {} s → ∀ (i j : Nat) (c c' : Call) authority authority',
      s.calls[i]? = some c → s.calls[j]? = some c' → c.authority = some authority →
      c'.authority = some authority' → authority.scorecardId = authority'.scorecardId →
      authority.targetRevision < authority'.targetRevision →
      c.effect ≠ some (some ⟨j, c'.receipt⟩) := by
  intro all
  obtain ⟨s, reached, calls⟩ := stalePass_reachable
  have stale : s.calls[2]? = stalePassCalls[2]? := by rw [calls]
  have fresh : s.calls[1]? = stalePassCalls[1]? := by rw [calls]
  exact all s reached 2 1 _ _ _ _ stale fresh rfl rfl rfl (by decide) rfl

end Everdict.Retry
