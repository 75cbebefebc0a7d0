import Mathlib.Algebra.Field.Rat
import Mathlib.Algebra.Order.Field.Rat
import Mathlib.Logic.Function.Basic
import Mathlib.Tactic.Common

/-!
# The budget of a tenant

The in-memory budget tracker: `admitRun` refuses a tenant at a cap and reserves one
run, `release` gives the run back, `settle` commits what a run cost.
-/

namespace Everdict.Billing

structure BudgetLimit where
  usd : Option ℚ := none
  tokens : Option Nat := none
  runs : Option Nat := none
  deriving DecidableEq

structure BudgetUsage where
  usd : ℚ := 0
  tokens : Nat := 0
  /-- Admitted runs, reservations included. -/
  runs : Nat := 0
  deriving DecidableEq

structure Cost where
  usd : ℚ
  tokens : Nat
  deriving DecidableEq

/-- Is some dimension that has a cap at it? -/
def overBudget (usage : BudgetUsage) (limit : BudgetLimit) : Bool :=
  limit.usd.any (fun cap => usage.usd ≥ cap)
    || limit.tokens.any (fun cap => usage.tokens ≥ cap)
    || limit.runs.any fun cap => usage.runs ≥ cap

/-- `assertWithinBudget`, which throws where this is false. -/
def withinBudget (usage : BudgetUsage) (limit : Option BudgetLimit) : Bool :=
  limit.all fun limit => !overBudget usage limit

/-- What each tenant has used; an unknown tenant has used nothing. -/
abbrev Budget := String → BudgetUsage

namespace Budget

def empty : Budget := fun _ => {}

variable (budget : Budget) (tenant : String)

def edit (f : BudgetUsage → BudgetUsage) : Budget :=
  Function.update budget tenant (f (budget tenant))

/-- Reserve a run, or refuse. -/
def admitRun (limitFor : String → Option BudgetLimit) : Option Budget :=
  if withinBudget (budget tenant) (limitFor tenant) then
    some (budget.edit tenant fun u => { u with runs := u.runs + 1 })
  else none

/-- Give a reserved run back; the count does not go below 0. -/
def release : Budget := budget.edit tenant fun u => { u with runs := u.runs - 1 }

def settle (cost : Cost) : Budget :=
  budget.edit tenant fun u => { u with usd := u.usd + cost.usd, tokens := u.tokens + cost.tokens }

variable {budget tenant} {t : String}

theorem edit_apply (f : BudgetUsage → BudgetUsage) :
    budget.edit tenant f t = if t = tenant then f (budget t) else budget t := by
  unfold edit
  rw [Function.update_apply]
  split
  · next hit => rw [hit]
  · rfl

theorem admitRun_runs {limitFor : String → Option BudgetLimit} {budget' : Budget}
    (admitted : budget.admitRun tenant limitFor = some budget') :
    (budget' t).runs = (budget t).runs + if t = tenant then 1 else 0 := by
  unfold admitRun at admitted
  split at admitted
  · obtain rfl := Option.some_inj.mp admitted
    rw [edit_apply]
    split <;> rfl
  · cases admitted

theorem release_runs :
    (budget.release tenant t).runs = (budget t).runs - if t = tenant then 1 else 0 := by
  rw [release, edit_apply]
  split <;> rfl

/-- The cost of a run leaves the count of runs alone. -/
theorem settle_runs (cost : Cost) : (budget.settle tenant cost t).runs = (budget t).runs := by
  rw [settle, edit_apply]
  split <;> rfl

end Budget

end Everdict.Billing
