import CMender.Foundations.Execution
import CMender.Foundations.Looping
import Mathlib.Data.Option.Defs

/-! Two programs run side by side from related states. They return or throw together,
what they return is related, and so are the states they leave. -/
namespace Foundations.Lockstep
open Execution Looping
variable {ε σ α β γ δ : Type}

/-- `V` relates the values, `R` the states after a return, `F` what was thrown and the
states it was thrown in. -/
inductive Ended (V : α → β → Prop) (R : σ → σ → Prop) (F : ε → σ → ε → σ → Prop) :
    EStateM.Result ε σ α → EStateM.Result ε σ β → Prop where
  | returned {a : α} {b : β} {s t : σ} : V a b → R s t → Ended V R F (.ok a s) (.ok b t)
  | thrown {e f : ε} {s t : σ} : F e s f t → Ended V R F (.error e s) (.error f t)

def Abreast (V : α → β → Prop) (R : σ → σ → Prop) (F : ε → σ → ε → σ → Prop) (program : EStateM ε σ α)
    (other : EStateM ε σ β) : Prop :=
  ∀ s t, R s t → Ended V R F (program s) (other t)

variable {V : α → β → Prop} {W : γ → δ → Prop} {R : σ → σ → Prop} {F G : ε → σ → ε → σ → Prop}
  {program : EStateM ε σ α} {other : EStateM ε σ β}

theorem Abreast.bind {next : α → EStateM ε σ γ} {otherNext : β → EStateM ε σ δ} (first : Abreast V R F program other)
    (second : ∀ a b, V a b → Abreast W R F (next a) (otherNext b)) :
    Abreast W R F (program >>= next) (other >>= otherNext) := by
  intro s t related
  change Ended W R F (EStateM.bind program next s) (EStateM.bind other otherNext t)
  unfold EStateM.bind
  have ended := first s t related
  generalize program s = here, other t = there at ended
  cases ended with
  | returned value after => exact second _ _ value _ _ after
  | thrown failed => exact .thrown failed

theorem abreast_pure {a : α} {b : β} (value : V a b) : Abreast V R F (pure a) (pure b) :=
  fun _ _ related => .returned value related

theorem abreast_get : Abreast R R F get get := fun _ _ related => .returned related related

theorem abreast_raise (result : Except ε α) (fails : ∀ e s t, R s t → F e s e t) :
    Abreast Eq R F (raise result) (raise result) := by
  intro s t related
  cases result with
  | ok value => exact .returned rfl related
  | error error => exact .thrown (fails error s t related)

/-- What is caught need not agree, as long as the same is thrown for it. -/
theorem Abreast.rethrow {rethrown : ε} (first : Abreast V R F program other)
    (fails : ∀ e s f t, F e s f t → G rethrown s rethrown t) :
    Abreast V R G (tryCatch program fun _ => throw rethrown) (tryCatch other fun _ => throw rethrown) := by
  intro s t related
  change Ended V R G (EStateM.tryCatch program (fun _ => throw rethrown) s)
    (EStateM.tryCatch other (fun _ => throw rethrown) t)
  unfold EStateM.tryCatch
  have ended := first s t related
  generalize program s = here, other t = there at ended
  cases ended with
  | returned value after => exact .returned value after
  | thrown failed => exact .thrown (fails _ _ _ _ failed)

/-- Loops whose rounds stay abreast end together. -/
theorem iterate_abreast {τ ρ π : Type} {step : σ → σ ⊕ ρ} {otherStep : τ → τ ⊕ π} {L : σ → τ → Prop}
    {O : ρ → π → Prop} (rounds : ∀ s t, L s t → Sum.LiftRel L O (step s) (otherStep t)) (fuel : Nat) {s : σ} {t : τ}
    (related : L s t) : Option.Rel O (iterate step fuel s) (iterate otherStep fuel t) := by
  induction fuel generalizing s t with
  | zero => exact .none
  | succ fuel ih =>
    have round := rounds s t related
    cases here : step s with
    | inl next =>
      rw [here] at round
      cases there : otherStep t with
      | inl otherNext =>
        rw [there] at round
        rw [iterate_inl here, iterate_inl there]
        exact ih (Sum.liftRel_inl_inl.mp round)
      | inr result =>
        rw [there] at round
        cases round
    | inr result =>
      rw [here] at round
      cases there : otherStep t with
      | inl otherNext =>
        rw [there] at round
        cases round
      | inr otherResult =>
        rw [there] at round
        rw [iterate_inr here, iterate_inr there]
        exact .some (Sum.liftRel_inr_inr.mp round)

end Foundations.Lockstep
