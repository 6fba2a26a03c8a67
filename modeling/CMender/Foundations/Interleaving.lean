import Mathlib.Algebra.BigOperators.Group.Finset.Piecewise
import Mathlib.Data.Fintype.Basic
import Mathlib.Algebra.Order.Group.Multiset
import CMender.Foundations.Execution

/-! Workers that take turns on a state they share. A schedule names the worker of
each turn, and the runs of all schedules are the interleavings of the workers'
atomic steps. -/
namespace Foundations.Interleaving
open Foundations.Execution
variable {ι σ ω : Type}

structure Config (ι σ ω : Type) where
  shared : σ
  workers : ι → ω

variable [DecidableEq ι]

/-- The next atomic step of one worker, when it has one left. -/
def turn (step : σ → ω → Option (σ × ω)) (c : Config ι σ ω) (i : ι) : Option (Config ι σ ω) :=
  (step c.shared (c.workers i)).map fun next => ⟨next.1, Function.update c.workers i next.2⟩

def Turn (step : σ → ω → Option (σ × ω)) (c : Config ι σ ω) (i : ι) (d : Config ι σ ω) : Prop :=
  turn step c i = some d

/-- A turn that is taken only where it is allowed. -/
def AllowedTurn (step : σ → ω → Option (σ × ω)) (Allowed : σ → ω → Prop) (c : Config ι σ ω) (i : ι)
    (d : Config ι σ ω) : Prop := Turn step c i d ∧ Allowed c.shared (c.workers i)

variable {step : σ → ω → Option (σ × ω)} {c d : Config ι σ ω} {i : ι}

theorem turn_iff : Turn step c i d ↔ ∃ shared worker, step c.shared (c.workers i) = some (shared, worker) ∧
    d = ⟨shared, Function.update c.workers i worker⟩ := by
  unfold Turn turn
  rw [Option.map_eq_some_iff]
  constructor
  · rintro ⟨⟨shared, worker⟩, stepped, rfl⟩
    exact ⟨shared, worker, stepped, rfl⟩
  · rintro ⟨shared, worker, stepped, rfl⟩
    exact ⟨(shared, worker), stepped, rfl⟩

section Rely

/-- What the worker that takes the turn keeps for itself and what it leaves to the
others is kept for all of them. -/
theorem AllowedTurn.keeps {Allowed Local : σ → ω → Prop}
    (own : ∀ {shared worker next worker'}, Local shared worker → Allowed shared worker →
      step shared worker = some (next, worker') → Local next worker')
    (others : ∀ {shared worker next worker' other}, Local shared worker → Allowed shared worker →
      step shared worker = some (next, worker') → Local shared other → Local next other)
    (taken : AllowedTurn step Allowed c i d) (holds : ∀ j, Local c.shared (c.workers j)) (j : ι) :
    Local d.shared (d.workers j) := by
  obtain ⟨taken, allowed⟩ := taken
  obtain ⟨shared, worker, stepped, rfl⟩ := turn_iff.mp taken
  change Local shared (Function.update c.workers i worker j)
  by_cases same : j = i
  · subst same
    rw [Function.update_self]
    exact own (holds j) allowed stepped
  · rw [Function.update_of_ne same]
    exact others (holds i) allowed stepped (holds j)

end Rely

section Totals
variable [Fintype ι] {workers : ι → ω} {worker : ω} {M : Type}

/-- A total over all workers changes by what it changes for the one that moved. -/
theorem sum_update [AddCommMonoid M] (amount : ω → M) :
    (∑ j, amount (Function.update workers i worker j)) + amount (workers i) =
      (∑ j, amount (workers j)) + amount worker := by
  have moved : ∀ j, amount (Function.update workers i worker j) =
      Function.update (fun j => amount (workers j)) i (amount worker) j := by
    intro j
    by_cases same : j = i
    · subst same
      simp
    · simp [same]
  have rest := Finset.sum_update_of_mem (Finset.mem_univ i) (fun j => amount (workers j)) (amount worker)
  have all := Finset.add_sum_erase Finset.univ (fun j => amount (workers j)) (Finset.mem_univ i)
  rw [Finset.sum_congr rfl fun j _ => moved j, rest, Finset.sdiff_singleton_eq_erase, ← all,
    add_comm (amount (workers i)), add_assoc, add_comm (amount worker), add_right_comm, add_assoc]

/-- A quantity held in the shared state stays the total of the workers' amounts, when
each step moves both by the same. -/
theorem Turn.balanced [AddCancelCommMonoid M] (held : σ → M) (amount : ω → M)
    (moves : ∀ {shared worker next worker'}, step shared worker = some (next, worker') →
      held next + amount worker = held shared + amount worker')
    (taken : Turn step c i d) (balanced : held c.shared = ∑ j, amount (c.workers j)) :
    held d.shared = ∑ j, amount (d.workers j) := by
  obtain ⟨shared, worker, stepped, rfl⟩ := turn_iff.mp taken
  have moved := moves stepped
  have total : (∑ j, amount (Function.update c.workers i worker j)) + amount (c.workers i) =
      (∑ j, amount (c.workers j)) + amount worker := sum_update amount
  exact add_right_cancel (moved.trans (balanced ▸ total.symm))

/-- What the workers hold does not overlap when the total of it has no repetitions. -/
theorem holder_unique {α : Type} {held : ω → Multiset α} {x : α} {j : ι}
    (apart : (∑ k, held (workers k)).Nodup) (first : x ∈ held (workers i)) (second : x ∈ held (workers j)) :
    i = j := by
  by_contra different
  rw [← Finset.add_sum_erase Finset.univ (fun k => held (workers k)) (Finset.mem_univ i)] at apart
  have among : x ∈ ∑ k ∈ Finset.univ.erase i, held (workers k) := by
    have other : j ∈ Finset.univ.erase i := Finset.mem_erase.mpr ⟨Ne.symm different, Finset.mem_univ j⟩
    exact Multiset.mem_sum.mpr ⟨j, other, second⟩
  exact Multiset.disjoint_left.mp (Multiset.nodup_add.mp apart).2.2 first among

end Totals
end Foundations.Interleaving
