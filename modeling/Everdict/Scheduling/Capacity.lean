import Mathlib.Data.List.Sort
import Mathlib.Logic.Function.Basic
import Everdict.Contracts.CaseJob

/-!
# What a backend has left

The fit decision that both placing lanes share: a backend's reading folded with
what this process holds (`backendSlotOf`), and whether a unit fits (`slotAdmits`).
`Admission` is what this process holds, in five dimensions that move together.
-/

namespace Everdict.Scheduling

/-- A count that a probe read, or could not. -/
inductive Reading where
  | known (count : Nat)
  | unknown
  deriving DecidableEq

structure BackendCapacity where
  total : Nat
  used : Reading
  usedMemoryMb : Option Reading := none
  usedCpu : Option Reading := none
  memoryBudgetMb : Option Nat := none
  cpuBudget : Option Nat := none
  deriving DecidableEq

/-- A snapshot of one backend's available slots.  An envelope that was not
declared is `none`, for the source's `Infinity`. -/
structure BackendSlot where
  name : String
  free : Nat
  total : Nat
  memFreeMb : Option Nat
  cpuFree : Option Nat
  deriving DecidableEq

structure Usage where
  slots : Nat
  memoryMb : Nat
  cpu : Nat
  deriving DecidableEq

/-- A resource reading and our own use as one number: an unknown reading is the
whole budget, an absent one is ours alone. -/
def effectiveResource (budget : Nat) (observed : Option Reading) (ours : Nat) : Nat :=
  match observed with
  | none => ours
  | some .unknown => budget
  | some (.known count) => max count ours

inductive Rule where
  | max
  | sum
  deriving DecidableEq

def effectiveUsed (cap : BackendCapacity) (held : Nat) (rule : Rule) : Nat :=
  match cap.used with
  | .unknown => cap.total
  | .known used =>
      match rule with
      | .max => Max.max used held
      | .sum => used + held

/-- What is left of the capacity; a difference below 0 is 0. -/
def backendSlotOf (name : String) (cap : BackendCapacity) (used : Usage) : BackendSlot where
  name := name
  total := cap.total
  free := cap.total - used.slots
  memFreeMb := cap.memoryBudgetMb.map fun budget =>
    budget - effectiveResource budget cap.usedMemoryMb used.memoryMb
  cpuFree := cap.cpuBudget.map fun budget =>
    budget - effectiveResource budget cap.usedCpu used.cpu

/-- Does a unit fit that asks this much?  Undeclared resources ask nothing. -/
def slotAdmits (slot : BackendSlot) (memoryMb cpu : Option Nat) : Bool :=
  slot.free > 0
    && slot.memFreeMb.all (fun left => memoryMb.getD 0 ≤ left)
    && slot.cpuFree.all fun left => cpu.getD 0 ≤ left

def tenantOf (job : CaseJob) : String := job.tenant.getD "default"

def harnessKeyOf (job : CaseJob) : String := job.harness.id ++ "@" ++ job.harness.version

def jobMemoryMb (job : CaseJob) : Nat :=
  ((harnessResourcesOf job.harnessSpec).bind ResourceRequest.memoryMb).getD 0

def jobCpu (job : CaseJob) : Nat :=
  ((harnessResourcesOf job.harnessSpec).bind ResourceRequest.cpu).getD 0

/-! ## The placement policy -/

/-- A policy picks one of the candidates with room, if there is one. -/
structure PlacementPolicy where
  choose : List BackendSlot → CaseJob → Option String
  mem : ∀ {candidates job name}, choose candidates job = some name →
    ∃ slot ∈ candidates, slot.name = name
  picks : ∀ {candidates job}, candidates ≠ [] → choose candidates job ≠ none

/-- The one with the most room; ties go by name.  `localeLe` stands for
`localeCompare`, whose order is the platform's. -/
def leastLoadedPolicy (localeLe : String → String → Bool) : PlacementPolicy where
  choose candidates _ :=
    ((candidates.insertionSort fun a b =>
      b.free < a.free ∨ a.free = b.free ∧ localeLe a.name b.name = true).head?).map
        BackendSlot.name
  mem := by
    intro candidates job name eq
    obtain ⟨slot, head, rfl⟩ := Option.map_eq_some_iff.mp eq
    exact ⟨slot, (List.mem_insertionSort _).mp (List.mem_of_head? head), rfl⟩
  picks := by
    intro candidates job some none
    rw [Option.map_eq_none_iff, List.head?_eq_none_iff, ← List.length_eq_zero_iff,
      List.length_insertionSort, List.length_eq_zero_iff] at none
    exact some none

/-! ## What this process is holding -/

structure Admission where
  backendCounts : String → Nat
  backendMemMb : String → Nat
  backendCpu : String → Nat
  tenantCounts : String → Nat
  harnessCounts : String → Nat

/-- Add to a counter; it does not go below 0. -/
def bump (map : String → Nat) (key : String) (delta : Int) : String → Nat :=
  Function.update map key (map key + delta).toNat

/-- One placement as the counters know it. -/
structure Held where
  backend : String
  tenant : String
  memoryMb : Nat
  cpu : Nat
  harness : String
  deriving DecidableEq

/-- The key of the per-harness counters. -/
def poolKey (backend harness : String) : String := backend ++ "|" ++ harness

namespace Admission

def empty : Admission := ⟨fun _ => 0, fun _ => 0, fun _ => 0, fun _ => 0, fun _ => 0⟩

def reserve (a : Admission) (h : Held) : Admission where
  backendCounts := bump a.backendCounts h.backend 1
  backendMemMb := bump a.backendMemMb h.backend h.memoryMb
  backendCpu := bump a.backendCpu h.backend h.cpu
  tenantCounts := bump a.tenantCounts h.tenant 1
  harnessCounts := bump a.harnessCounts (poolKey h.backend h.harness) 1

def release (a : Admission) (h : Held) : Admission where
  backendCounts := bump a.backendCounts h.backend (-1)
  backendMemMb := bump a.backendMemMb h.backend (-h.memoryMb)
  backendCpu := bump a.backendCpu h.backend (-h.cpu)
  tenantCounts := bump a.tenantCounts h.tenant (-1)
  harnessCounts := bump a.harnessCounts (poolKey h.backend h.harness) (-1)

/-- What the process holds on a backend, as the fold with a reading needs it. -/
def held (a : Admission) (cap : BackendCapacity) (name : String) : Usage where
  slots := effectiveUsed cap (a.backendCounts name) .max
  memoryMb := a.backendMemMb name
  cpu := a.backendCpu name

end Admission

@[simp]
theorem bump_apply (map : String → Nat) (key k : String) (delta : Int) :
    bump map key delta k = if k = key then (map k + delta).toNat else map k := by
  unfold bump
  rw [Function.update_apply]
  split
  · next hit => rw [hit]
  · rfl

/-- Free slots from a capacity snapshot and the live counts of this process. -/
def freeSlotsFrom (caps : String → Option BackendCapacity) (own : Admission) :
    String → Option BackendSlot :=
  fun name => (caps name).map fun cap => backendSlotOf name cap (own.held cap name)

end Everdict.Scheduling
