import Mathlib.Logic.Basic

/-! Objects with identity. A heap hands out references in order and never takes
one back, so an object is its reference and two references to one object see
each other's writes. Reads are total: the languages modelled here have no
dangling references, and `Allocated` states which references were handed out. -/
namespace Foundations

@[ext] structure Ref (α : Type) where
  index : Nat

instance {α : Type} : DecidableEq (Ref α) := fun a b =>
  decidable_of_iff (a.index = b.index) Ref.ext_iff.symm

structure Heap (α : Type) where
  size : Nat
  cell : Nat → α

namespace Heap
variable {α : Type}

def empty [Inhabited α] : Heap α := ⟨0, fun _ => default⟩

def get (heap : Heap α) (ref : Ref α) : α := heap.cell ref.index

def set (heap : Heap α) (ref : Ref α) (value : α) : Heap α :=
  { heap with cell := fun i => if i = ref.index then value else heap.cell i }

/-- The reference that the next allocation hands out. -/
def next (heap : Heap α) : Ref α := ⟨heap.size⟩

def alloc (heap : Heap α) (value : α) : Heap α :=
  ⟨heap.size + 1, fun i => if i = heap.size then value else heap.cell i⟩

def Allocated (heap : Heap α) (ref : Ref α) : Prop := ref.index < heap.size

instance (heap : Heap α) (ref : Ref α) : Decidable (heap.Allocated ref) :=
  inferInstanceAs (Decidable (_ < _))

variable {heap : Heap α} {ref other : Ref α} {value : α}

@[simp] theorem get_set : (heap.set ref value).get ref = value := by simp [get, set]

theorem get_set_of_ne (different : other ≠ ref) :
    (heap.set ref value).get other = heap.get other := by
  have indices : other.index ≠ ref.index := fun same => different (Ref.ext same)
  simp [get, set, indices]

theorem get_set_eq : (heap.set ref value).get other = if other = ref then value else heap.get other := by
  by_cases same : other = ref
  · subst same
    simp
  · rw [if_neg same, get_set_of_ne same]

@[simp] theorem get_alloc_next : (heap.alloc value).get heap.next = value := by
  simp [get, alloc, next]

theorem get_alloc (allocated : heap.Allocated ref) : (heap.alloc value).get ref = heap.get ref := by
  have older : ref.index ≠ heap.size := Nat.ne_of_lt allocated
  simp [get, alloc, older]

theorem Allocated.alloc (allocated : heap.Allocated ref) : (heap.alloc value).Allocated ref :=
  Nat.lt_succ_of_lt allocated

@[simp] theorem allocated_next : (heap.alloc value).Allocated heap.next := Nat.lt_succ_self _

theorem Allocated.ne_next (allocated : heap.Allocated ref) : ref ≠ heap.next := by
  rintro rfl
  exact Nat.lt_irrefl _ allocated

theorem allocated_alloc_iff :
    (heap.alloc value).Allocated ref ↔ heap.Allocated ref ∨ ref = heap.next := by
  constructor
  · intro allocated
    rcases Nat.lt_succ_iff_lt_or_eq.mp allocated with older | newest
    · exact Or.inl older
    · exact Or.inr (Ref.ext newest)
  · rintro (older | rfl)
    · exact older.alloc
    · exact allocated_next

end Heap
end Foundations
