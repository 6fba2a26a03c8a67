import Mathlib.Init

/-! Programs with a store that return the same value from every store that keeps an
invariant. A program that looks its answer up before it computes it is one of them when the
store holds nothing but the answers. -/
namespace Foundations.Memo
variable {σ α β : Type} {Inv : σ → Prop} {program : StateM σ α} {value : α}

/-- The program returns the value, and keeps the invariant. -/
def Returns (Inv : σ → Prop) (program : StateM σ α) (value : α) : Prop :=
  ∀ s, Inv s → ∃ after, program s = (value, after) ∧ Inv after

/-- What is found, or else what is computed. -/
def findOr (find : StateM σ (Option α)) (compute : StateM σ α) : StateM σ α := do
  match ← find with
  | some stored => return stored
  | none => compute

theorem Returns.pure (value : α) : Returns Inv (Pure.pure value) value := fun s holds => ⟨s, rfl, holds⟩

theorem Returns.bind {next : α → StateM σ β} {result : β} (first : Returns Inv program value)
    (second : Returns Inv (next value) result) : Returns Inv (program >>= next) result := by
  intro s holds
  obtain ⟨middle, ran, holdsMiddle⟩ := first s holds
  obtain ⟨after, returned, holdsAfter⟩ := second middle holdsMiddle
  refine ⟨after, ?_, holdsAfter⟩
  change next (program s).1 (program s).2 = _
  rw [ran]
  exact returned

theorem Returns.modify {change : σ → σ} (keeps : ∀ s, Inv s → Inv (change s)) :
    Returns Inv (modify change) PUnit.unit := fun s holds => ⟨change s, rfl, keeps s holds⟩

/-- An answer in the store may stand in for what computing it would return. -/
theorem Returns.findOr {find : StateM σ (Option α)} {lookup : σ → Option α} (finds : ∀ s, find s = (lookup s, s))
    (right : ∀ s, Inv s → ∀ stored, lookup s = some stored → stored = value) (computed : Returns Inv program value) :
    Returns Inv (findOr find program) value := by
  intro s holds
  change ∃ after, (match (find s).1 with
    | some stored => Pure.pure stored
    | none => program : StateM σ α) (find s).2 = _ ∧ _
  rw [finds]
  cases found : lookup s with
  | some stored =>
    rw [← right s holds stored found]
    exact ⟨s, rfl, holds⟩
  | none => exact computed s holds

theorem Returns.mapM {f : β → StateM σ α} {values : β → α} {items : List β}
    (each : ∀ item ∈ items, Returns Inv (f item) (values item)) : Returns Inv (items.mapM f) (items.map values) := by
  induction items with
  | nil => exact .pure []
  | cons item rest ih =>
    rw [List.mapM_cons, List.map_cons]
    refine (each item List.mem_cons_self).bind ?_
    exact (ih fun other listed => each other (List.mem_cons_of_mem _ listed)).bind (.pure _)

/-- What a program returns is what it returns from any one store with the invariant. -/
theorem Returns.eq_fst (returns : Returns Inv program value) {s : σ} (holds : Inv s) : (program s).1 = value := by
  obtain ⟨after, ran, _⟩ := returns s holds
  rw [ran]

end Foundations.Memo
