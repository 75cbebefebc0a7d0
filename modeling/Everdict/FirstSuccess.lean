import Mathlib.Data.List.Induction
import Mathlib.Data.List.Perm.Basic
import Mathlib.Tactic.Common

/-!
# A race that the first success answers

Branches join a race while it is open and end in any order.  The first that succeeds
settles the race; a success after that is a loser, and a failure is stashed until the race
has an answer and then handed over.  When every branch has failed the race settles with a
failure, and of the stashed failures all but those of the first branch are handed over.

`Accounts` says what a race owes for the endings it has seen, and `Sound.join`,
`Sound.fulfil` and `Sound.refuse` that the bookkeeping pays it.
-/

namespace FirstSuccess

variable {β κ ν : Type*}

/-- How a branch ended: its coordinates, and its value if it succeeded. -/
structure Ending (β κ ν : Type*) where
  branch : β
  coords : κ
  value : Option ν

/-- The values of the branches that succeeded, in the order in which they did. -/
def wins (ended : List (Ending β κ ν)) : List ν := ended.filterMap Ending.value

/-- The branches that failed, with their coordinates. -/
def losses (ended : List (Ending β κ ν)) : List (β × κ) :=
  (ended.filter fun x => x.value.isNone).map fun x => (x.branch, x.coords)

structure Race (β κ ν : Type*) where
  running : List β := []
  ended : List (Ending β κ ν) := []
  pending : Nat := 0
  settled : Bool := false
  stashed : List (β × κ) := []
  /-- A value for an answer, nothing for a failure. -/
  settlements : List (Option ν) := []
  losers : List ν := []
  failures : List κ := []

def Race.join (race : Race β κ ν) (b : β) : Race β κ ν :=
  { race with running := race.running ++ [b], pending := race.pending + 1 }

variable [DecidableEq β]

def Race.fulfil (race : Race β κ ν) (b : β) (k : κ) (v : ν) : Race β κ ν :=
  let race := { race with
    running := race.running.erase b, ended := race.ended ++ [Ending.mk b k (some v)] }
  if race.settled then { race with losers := race.losers ++ [v] }
  else
    { race with
      settled := true
      failures := race.failures ++ race.stashed.map Prod.snd
      settlements := race.settlements ++ [some v] }

/-- Every branch has failed. -/
def Race.giveUp (race : Race β κ ν) (first : β) : Race β κ ν :=
  if race.settled then race
  else
    { race with
      settled := true
      failures := race.failures ++ (race.stashed.filter fun x => x.1 ≠ first).map Prod.snd
      settlements := race.settlements ++ [none] }

def Race.refuse (race : Race β κ ν) (first b : β) (k : κ) : Race β κ ν :=
  let race := { race with
    running := race.running.erase b
    ended := race.ended ++ [Ending.mk b k none]
    pending := race.pending - 1 }
  let race :=
    if race.settled then { race with failures := race.failures ++ [k] }
    else { race with stashed := race.stashed ++ [(b, k)] }
  if race.pending = 0 then race.giveUp first else race

/-! ## The endings of a race -/

section endings

omit [DecidableEq β]

variable {ended : List (Ending β κ ν)} {b : β} {k : κ} {v : ν}

@[simp] theorem wins_fulfil : wins (ended ++ [Ending.mk b k (some v)]) = wins ended ++ [v] := by
  simp [wins]

@[simp] theorem wins_refuse : wins (ended ++ [Ending.mk b k none]) = wins ended := by
  simp [wins]

@[simp] theorem losses_fulfil : losses (ended ++ [Ending.mk b k (some v)]) = losses ended := by
  simp [losses]

@[simp] theorem losses_refuse :
    losses (ended ++ [Ending.mk b k none]) = losses ended ++ [(b, k)] := by
  simp [losses]

theorem length_wins_losses (ended : List (Ending β κ ν)) :
    (wins ended).length + (losses ended).length = ended.length := by
  induction ended using List.reverseRecOn with
  | nil => rfl
  | append_singleton rest x ih =>
      obtain ⟨b, k, _ | v⟩ := x
      · rw [wins_refuse, losses_refuse, List.length_append, List.length_append,
          List.length_singleton, List.length_singleton]
        omega
      · rw [wins_fulfil, losses_fulfil, List.length_append, List.length_append,
          List.length_singleton, List.length_singleton]
        omega

theorem mem_losses : (b, k) ∈ losses ended ↔ Ending.mk b k none ∈ ended := by
  simp only [losses, List.mem_map, List.mem_filter, Option.isNone_iff_eq_none]
  constructor
  · rintro ⟨⟨b', k', value⟩, ⟨inside, failed⟩, same⟩
    simp only [Prod.mk.injEq] at failed same
    rwa [same.1, same.2, failed] at inside
  · exact fun inside => ⟨_, ⟨inside, rfl⟩, rfl⟩

end endings

/-! ## What a race owes -/

/-- What has been paid for the endings of a race. -/
inductive Accounts (first : β) (race : Race β κ ν) : Prop
  | racing (isOpen : race.settled = false) (noWin : wins race.ended = [])
      (stash : race.stashed = losses race.ended) (unanswered : race.settlements = [])
      (noLoser : race.losers = []) (noFailure : race.failures = [])
      (some_runs : race.running ≠ [])
  | answered (v : ν) (rest : List ν) (isSettled : race.settled = true)
      (won : wins race.ended = v :: rest) (answer : race.settlements = [some v])
      (late : race.losers = rest) (paid : race.failures = (losses race.ended).map Prod.snd)
  | failed (isSettled : race.settled = true) (noWin : wins race.ended = [])
      (all : race.running = []) (answer : race.settlements = [none])
      (noLoser : race.losers = [])
      (paid : race.failures
        = ((losses race.ended).filter fun x => x.1 ≠ first).map Prod.snd)

structure Sound (first : β) (race : Race β κ ν) : Prop where
  once : (race.running ++ race.ended.map Ending.branch).Nodup
  counted : race.pending + (losses race.ended).length = race.running.length + race.ended.length
  accounts : Accounts first race

variable {first b : β} {k : κ} {v : ν} {race : Race β κ ν}

/-- The first branch opens the race. -/
theorem sound_opened (first : β) : Sound first (({} : Race β κ ν).join first) :=
  ⟨by simp [Race.join], rfl, .racing rfl rfl rfl rfl rfl rfl (List.cons_ne_nil _ _)⟩

theorem Sound.join (sound : Sound first race) (isOpen : race.settled = false)
    (new : b ∉ race.running) (unended : b ∉ race.ended.map Ending.branch) :
    Sound first (race.join b) := by
  refine ⟨?_, ?_, ?_⟩
  · show ((race.running ++ [b]) ++ race.ended.map Ending.branch).Nodup
    rw [List.append_assoc, List.singleton_append, List.perm_middle.nodup_iff, List.nodup_cons,
      List.mem_append, not_or]
    exact ⟨⟨new, unended⟩, sound.once⟩
  · have counted := sound.counted
    simp only [Race.join, List.length_append, List.length_singleton]
    omega
  · rcases sound.accounts with
      ⟨_, noWin, stash, unanswered, noLoser, noFailure, _⟩ | ⟨_, _, isSettled⟩ | isSettled
    · exact .racing isOpen noWin stash unanswered noLoser noFailure (by simp [Race.join])
    · rw [isOpen] at isSettled
      cases isSettled
    · rw [isOpen] at isSettled
      cases isSettled

/-- A branch that ends goes from the running ones to the ended ones. -/
theorem perm_ended (runs : b ∈ race.running) (k : κ) (value : Option ν) :
    (race.running ++ race.ended.map Ending.branch).Perm
      (race.running.erase b ++ (race.ended ++ [Ending.mk b k value]).map Ending.branch) := by
  rw [List.map_append, List.map_singleton, ← List.append_assoc]
  refine ((List.perm_cons_erase runs).append_right _).trans ?_
  rw [List.cons_append]
  exact (List.perm_append_singleton _ _).symm

theorem once_ended (once : (race.running ++ race.ended.map Ending.branch).Nodup)
    (runs : b ∈ race.running) (k : κ) (value : Option ν) :
    (race.running.erase b ++ (race.ended ++ [Ending.mk b k value]).map Ending.branch).Nodup :=
  (perm_ended runs k value).nodup_iff.mp once

theorem Sound.fulfil (sound : Sound first race) (runs : b ∈ race.running) :
    Sound first (race.fulfil b k v) := by
  have length := List.length_erase_of_mem runs
  have positive := List.length_pos_of_mem runs
  have counted := sound.counted
  rcases sound.accounts with
    ⟨isOpen, noWin, stash, unanswered, noLoser, noFailure, -⟩ |
      ⟨w, rest, isSettled, won, answer, late, paid⟩ | ⟨-, -, none_run, -, -, -⟩
  · refine ⟨?_, ?_, .answered v [] ?_ ?_ ?_ ?_ ?_⟩
    · simpa [Race.fulfil, isOpen] using once_ended sound.once runs k (some v)
    · simp only [Race.fulfil, isOpen, Bool.false_eq_true, if_false, losses_fulfil,
        List.length_append, List.length_singleton]
      omega
    all_goals simp [Race.fulfil, isOpen, noWin, unanswered, noLoser, noFailure, stash]
  · refine ⟨?_, ?_, .answered w (rest ++ [v]) ?_ ?_ ?_ ?_ ?_⟩
    · simpa [Race.fulfil, isSettled] using once_ended sound.once runs k (some v)
    · simp only [Race.fulfil, isSettled, if_true, losses_fulfil, List.length_append,
        List.length_singleton]
      omega
    all_goals simp [Race.fulfil, isSettled, won, answer, late, paid]
  · exact absurd none_run (List.ne_nil_of_mem runs)

theorem Sound.refuse (sound : Sound first race) (runs : b ∈ race.running) :
    Sound first (race.refuse first b k) := by
  have length := List.length_erase_of_mem runs
  have positive := List.length_pos_of_mem runs
  have counted := sound.counted
  have split := length_wins_losses race.ended
  rcases sound.accounts with
    ⟨isOpen, noWin, stash, unanswered, noLoser, noFailure, -⟩ |
      ⟨w, rest, isSettled, won, answer, late, paid⟩ | ⟨-, -, none_run, -, -, -⟩
  · -- no branch has won, so the branches still out are counted by `pending`
    rw [noWin, List.length_nil, Nat.zero_add] at split
    by_cases last : race.pending - 1 = 0
    · have none_run : race.running.erase b = [] := List.eq_nil_of_length_eq_zero (by omega)
      refine ⟨?_, ?_, .failed ?_ ?_ ?_ ?_ ?_ ?_⟩
      · simpa [Race.refuse, Race.giveUp, isOpen, last] using once_ended sound.once runs k none
      · simp only [Race.refuse, Race.giveUp, isOpen, Bool.false_eq_true, if_false, last, if_true,
          losses_refuse, List.length_append, List.length_singleton]
        omega
      all_goals
        simp [Race.refuse, Race.giveUp, isOpen, last, noWin, unanswered, noLoser, noFailure, stash,
          none_run]
    · have some_runs : race.running.erase b ≠ [] := by
        intro none_run
        rw [none_run, List.length_nil] at length
        omega
      refine ⟨?_, ?_, .racing ?_ ?_ ?_ ?_ ?_ ?_ ?_⟩
      · simpa [Race.refuse, isOpen, last] using once_ended sound.once runs k none
      · simp only [Race.refuse, isOpen, Bool.false_eq_true, if_false, last, losses_refuse,
          List.length_append, List.length_singleton]
        omega
      all_goals
        simp [Race.refuse, isOpen, last, noWin, unanswered, noLoser, noFailure, stash, some_runs]
  · have still : (race.refuse first b k).settled = true ∧
        (race.refuse first b k).settlements = race.settlements ∧
        (race.refuse first b k).losers = race.losers ∧
        (race.refuse first b k).failures = race.failures ++ [k] ∧
        (race.refuse first b k).running = race.running.erase b ∧
        (race.refuse first b k).ended = race.ended ++ [Ending.mk b k none] ∧
        (race.refuse first b k).pending = race.pending - 1 := by
      by_cases last : race.pending - 1 = 0 <;>
        simp [Race.refuse, Race.giveUp, isSettled, last]
    obtain ⟨settled, settlements, losers, failures, running, ended, pending⟩ := still
    refine ⟨?_, ?_, .answered w rest settled ?_ ?_ ?_ ?_⟩
    · rw [running, ended]
      exact once_ended sound.once runs k none
    · rw [running, ended, pending, losses_refuse, List.length_append, List.length_append,
        List.length_singleton, List.length_singleton]
      have short : (losses race.ended).length ≤ race.ended.length := by omega
      omega
    · rw [ended, wins_refuse, won]
    · rw [settlements, answer]
    · rw [losers, late]
    · rw [failures, ended, losses_refuse, paid, List.map_append, List.map_singleton]
  · exact absurd none_run (List.ne_nil_of_mem runs)

end FirstSuccess
