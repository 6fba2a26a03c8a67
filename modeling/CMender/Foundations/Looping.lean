import Mathlib.Data.Finset.Card
import Mathlib.Logic.Relation

/-! Loops that run until a step ends them, and loops over a list whose steps may fail. -/
namespace Foundations.Looping
variable {σ ρ : Type} {step : σ → σ ⊕ ρ}

/-- A step goes on with a new state or ends with a result; `none` means that the
fuel did not suffice. -/
def iterate (step : σ → σ ⊕ ρ) : Nat → σ → Option ρ
  | 0, _ => none
  | fuel + 1, s =>
    match step s with
    | .inl next => iterate step fuel next
    | .inr result => some result

theorem iterate_inl {fuel : Nat} {s next : σ} (goesOn : step s = .inl next) :
    iterate step (fuel + 1) s = iterate step fuel next := by
  change (match step s with
    | .inl next => iterate step fuel next
    | .inr result => some result) = _
  rw [goesOn]

theorem iterate_inr {fuel : Nat} {s : σ} {result : ρ} (ends : step s = .inr result) :
    iterate step (fuel + 1) s = some result := by
  change (match step s with
    | .inl next => iterate step fuel next
    | .inr result => some result) = _
  rw [ends]

/-- The rounds of a loop that go on, each from a state in which it may. -/
def Rounds (step : σ → σ ⊕ ρ) (Allowed : σ → Prop) : σ → σ → Prop :=
  Relation.ReflTransGen fun s next => Allowed s ∧ step s = .inl next

/-- A loop ends when each step that goes on makes a measure smaller. -/
theorem iterate_answers {Inv : σ → Prop} {measure : σ → Nat}
    (progress : ∀ s next, Inv s → step s = .inl next → Inv next ∧ measure next < measure s)
    (fuel : Nat) (s : σ) (holds : Inv s) (enough : measure s < fuel) :
    ∃ result, iterate step fuel s = some result := by
  induction fuel generalizing s with
  | zero => omega
  | succ fuel ih =>
    cases stepped : step s with
    | inl next =>
      obtain ⟨kept, smaller⟩ := progress s next holds stepped
      rw [iterate_inl stepped]
      exact ih next kept (by omega)
    | inr result => exact ⟨result, iterate_inr stepped⟩

/-- What an invariant says about the last step it says about the result. -/
theorem iterate_result {Inv : σ → Prop} {Post : ρ → Prop}
    (keeps : ∀ s next, Inv s → step s = .inl next → Inv next)
    (ends : ∀ s result, Inv s → step s = .inr result → Post result) {fuel : Nat} {s : σ} {result : ρ}
    (holds : Inv s) (ended : iterate step fuel s = some result) : Post result := by
  induction fuel generalizing s with
  | zero => cases ended
  | succ fuel ih =>
    cases stepped : step s with
    | inl next =>
      rw [iterate_inl stepped] at ended
      exact ih (keeps s next holds stepped) ended
    | inr last =>
      rw [iterate_inr stepped] at ended
      obtain rfl : last = result := Option.some.inj ended
      exact ends s last holds stepped

/-- The result of a loop is that of the round its other rounds have led to. -/
theorem rounds_of_iterate {fuel : Nat} {s : σ} {result : ρ} (ended : iterate step fuel s = some result) :
    ∃ last, Rounds step (fun _ => True) s last ∧ step last = .inr result := by
  induction fuel generalizing s with
  | zero => cases ended
  | succ fuel ih =>
    cases stepped : step s with
    | inl next =>
      rw [iterate_inl stepped] at ended
      obtain ⟨last, rounds, finished⟩ := ih ended
      exact ⟨last, rounds.head ⟨trivial, stepped⟩, finished⟩
    | inr found =>
      rw [iterate_inr stepped] at ended
      obtain rfl : found = result := Option.some.inj ended
      exact ⟨s, .refl, stepped⟩

theorem iterate_of_rounds {s last : σ} {result : ρ} (rounds : Rounds step (fun _ => True) s last)
    (ended : step last = .inr result) : ∃ fuel, iterate step fuel s = some result := by
  induction rounds using Relation.ReflTransGen.head_induction_on with
  | refl => exact ⟨1, iterate_inr ended⟩
  | head stepped _ ih =>
    obtain ⟨fuel, later⟩ := ih
    exact ⟨fuel + 1, (iterate_inl stepped.2).trans later⟩

theorem iterate_unique {fuel more : Nat} {s : σ} {result other : ρ} (ended : iterate step fuel s = some result)
    (again : iterate step more s = some other) : result = other := by
  induction fuel generalizing s more with
  | zero => cases ended
  | succ fuel ih =>
    cases more with
    | zero => cases again
    | succ more =>
      cases stepped : step s with
      | inl next =>
        rw [iterate_inl stepped] at ended again
        exact ih ended again
      | inr found =>
        rw [iterate_inr stepped] at ended again
        exact Option.some.inj (ended.symm.trans again)

/-- A loop whose states stand for those of another one runs as the other does. -/
theorem iterate_simulates {τ π : Type} {other : τ → τ ⊕ π} {state : τ → σ} {value : π → ρ}
    (simulates : ∀ t, step (state t) = (other t).map state value) (fuel : Nat) (t : τ) :
    iterate step fuel (state t) = (iterate other fuel t).map value := by
  induction fuel generalizing t with
  | zero => rfl
  | succ fuel ih =>
    have same := simulates t
    cases stepped : other t with
    | inl next =>
      rw [stepped] at same
      rw [iterate_inl same, iterate_inl stepped]
      exact ih next
    | inr result =>
      rw [stepped] at same
      rw [iterate_inr same, iterate_inr stepped]
      rfl

/-- A loop that counts its rounds needs one more than there is left to do, when each
round gets something done or stops. -/
theorem iterate_bounded {Inv stopped : σ → Prop} {count remaining : σ → Nat} {spent : ρ → Nat} {bound : Nat}
    (goesOn : ∀ s next, Inv s → step s = .inl next →
      Inv next ∧ ¬ stopped s ∧ count next = count s + 1 ∧ (stopped next ∨ remaining next < remaining s))
    (ends : ∀ s result, step s = .inr result →
      spent result = count s ∨ ¬ stopped s ∧ spent result = count s + 1)
    {s : σ} (holds : Inv s) (fresh : count s = 0) (atMost : remaining s ≤ bound) {fuel : Nat}
    (enough : bound + 2 ≤ fuel) :
    ∃ result, iterate step fuel s = some result ∧ spent result ≤ bound + 1 := by
  -- What has been done and what is left stay within the bound until the last round.
  let Within (s : σ) : Prop := Inv s ∧ (count s + remaining s ≤ bound ∨ stopped s ∧ count s ≤ bound + 1)
  have keeps : ∀ s next, Within s → step s = .inl next →
      Within next ∧ bound + 1 - count next < bound + 1 - count s := by
    rintro s next ⟨kept, within⟩ stepped
    obtain ⟨keptNext, running, counted, progress⟩ := goesOn s next kept stepped
    have within : count s + remaining s ≤ bound := within.resolve_right fun stop => running stop.1
    refine ⟨⟨keptNext, ?_⟩, by omega⟩
    rcases progress with stop | less
    · exact .inr ⟨stop, by omega⟩
    · exact .inl (by omega)
  have last : ∀ s result, Within s → step s = .inr result → spent result ≤ bound + 1 := by
    rintro s result ⟨_, within⟩ stepped
    rcases ends s result stepped with same | ⟨running, more⟩
    · rcases within with within | ⟨_, within⟩ <;> omega
    · have within : count s + remaining s ≤ bound := within.resolve_right fun stop => running stop.1
      omega
  have start : Within s := ⟨holds, .inl (by omega)⟩
  obtain ⟨result, ended⟩ := iterate_answers keeps fuel s start (by omega)
  have bounded := iterate_result (fun s next within stepped => (keeps s next within stepped).1) last start ended
  exact ⟨result, ended, bounded⟩

section Lists
variable {α β : Type} {f : α → Option β} {items : List α}

theorem mapM_of_forall {value : α → β} (computed : ∀ item ∈ items, f item = some (value item)) :
    items.mapM f = some (items.map value) := by
  induction items with
  | nil => rfl
  | cons item rest ih =>
    rw [List.mapM_cons, computed item List.mem_cons_self,
      ih fun other listed => computed other (List.mem_cons_of_mem _ listed)]
    rfl

theorem forall_of_mapM {values : List β} (returned : items.mapM f = some values) :
    ∀ item ∈ items, ∃ value, f item = some value := by
  induction items generalizing values with
  | nil => exact nofun
  | cons item rest ih =>
    rw [List.mapM_cons] at returned
    obtain ⟨value, here, returned⟩ := Option.bind_eq_some_iff.mp returned
    obtain ⟨others, later, _⟩ := Option.bind_eq_some_iff.mp returned
    intro other listed
    rcases List.mem_cons.mp listed with rfl | behind
    · exact ⟨value, here⟩
    · exact ih later other behind

end Lists

section Novelty
variable {κ : Type} [DecidableEq κ] {keys : Finset κ} {seen later : List κ} {key : κ}

/-- How many of the keys have not been seen. -/
def unseen (keys : Finset κ) (seen : List κ) : Nat := (keys \ seen.toFinset).card

theorem unseen_le_card : unseen keys seen ≤ keys.card := Finset.card_le_card Finset.sdiff_subset

theorem unseen_lt (wanted : key ∈ keys) (new : key ∉ seen) (found : key ∈ later) :
    unseen keys (seen ++ later) < unseen keys seen := by
  apply Finset.card_lt_card
  refine Finset.ssubset_iff_subset_ne.mpr ⟨?_, ?_⟩
  · intro other member
    simp only [List.toFinset_append, Finset.mem_sdiff, Finset.mem_union, not_or] at member ⊢
    exact ⟨member.1, member.2.1⟩
  · intro same
    have before : key ∈ keys \ seen.toFinset := by simp [wanted, new]
    rw [← same] at before
    simp [found] at before

end Novelty
end Foundations.Looping
