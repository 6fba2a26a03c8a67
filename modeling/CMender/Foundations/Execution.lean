import Mathlib.Logic.Basic

/-! Programs with a state that survives a thrown error, and the runs they make.
The lemmas invert one finished program at a time, so that proofs about programs
peel off their binds without unfolding the monad. -/
namespace Foundations.Execution
variable {ε σ α β γ : Type}

/-- A computation without state, run inside a program. -/
def raise : Except ε α → EStateM ε σ α
  | .ok value => pure value
  | .error error => throw error

section Returning
variable {s t : σ} {b : β}

@[simp] theorem bind_ok {program : EStateM ε σ α} {next : α → EStateM ε σ β} :
    (program >>= next) s = .ok b t ↔ ∃ a middle, program s = .ok a middle ∧ next a middle = .ok b t := by
  change EStateM.bind program next s = .ok b t ↔ _
  unfold EStateM.bind
  cases program s with
  | ok a middle => simp [and_assoc]
  | error error middle => simp

@[simp] theorem pure_ok {a : β} : (pure a : EStateM ε σ β) s = .ok b t ↔ a = b ∧ s = t := by
  change EStateM.Result.ok a s = .ok b t ↔ _
  simp

@[simp] theorem throw_ok {error : ε} : ¬ (throw error : EStateM ε σ β) s = .ok b t := by
  intro returned
  change EStateM.Result.error error s = .ok b t at returned
  cases returned

@[simp] theorem get_ok {value : σ} : (get : EStateM ε σ σ) s = .ok value t ↔ s = value ∧ s = t := by
  change EStateM.Result.ok s s = .ok value t ↔ _
  simp

@[simp] theorem modify_ok {f : σ → σ} {u : Unit} : (modify f : EStateM ε σ PUnit) s = .ok u t ↔ f s = t := by
  change EStateM.Result.ok PUnit.unit (f s) = .ok u t ↔ _
  simp

@[simp] theorem raise_ok {result : Except ε β} : (raise result : EStateM ε σ β) s = .ok b t ↔
    result = .ok b ∧ s = t := by
  cases result with
  | ok value => simp [raise]
  | error error => simp [raise]

/-- A guard that throws lets a program return only when it does not hold. -/
@[simp] theorem guard_ok {c : Prop} [Decidable c] {error : ε} {program : EStateM ε σ β} :
    (if c then throw error else program : EStateM ε σ β) s = .ok b t ↔ ¬ c ∧ program s = .ok b t := by
  split
  · rename_i holds
    simp [holds]
  · rename_i fails
    simp [fails]

@[simp] theorem set_ok {value : σ} {u : Unit} : (set value : EStateM ε σ PUnit) s = .ok u t ↔ value = t := by
  change EStateM.Result.ok PUnit.unit value = .ok u t ↔ _
  simp

/-- Catching everything only to throw again changes nothing for a program that returns. -/
theorem tryCatch_ok {program : EStateM ε σ β} {rethrown : ε} :
    (tryCatch program fun _ => throw rethrown : EStateM ε σ β) s = .ok b t ↔ program s = .ok b t := by
  change EStateM.tryCatch program (fun _ => throw rethrown) s = .ok b t ↔ _
  unfold EStateM.tryCatch
  cases program s with
  | ok a middle => simp
  | error error middle => simp

end Returning

section Throwing
variable {s t : σ} {e : ε}

@[simp] theorem bind_error {program : EStateM ε σ α} {next : α → EStateM ε σ β} :
    (program >>= next) s = .error e t ↔ program s = .error e t ∨
      ∃ a middle, program s = .ok a middle ∧ next a middle = .error e t := by
  change EStateM.bind program next s = .error e t ↔ _
  unfold EStateM.bind
  cases program s with
  | ok a middle => simp [and_assoc]
  | error error middle => simp

@[simp] theorem pure_error {a : β} : ¬ (pure a : EStateM ε σ β) s = .error e t := by
  intro thrown
  change EStateM.Result.ok a s = .error e t at thrown
  cases thrown

@[simp] theorem throw_error {error : ε} : (throw error : EStateM ε σ β) s = .error e t ↔
    error = e ∧ s = t := by
  change EStateM.Result.error error s = .error e t ↔ _
  simp

@[simp] theorem get_error : ¬ (get : EStateM ε σ σ) s = .error e t := by
  intro thrown
  change EStateM.Result.ok s s = .error e t at thrown
  cases thrown

@[simp] theorem modify_error {f : σ → σ} : ¬ (modify f : EStateM ε σ PUnit) s = .error e t := by
  intro thrown
  change EStateM.Result.ok PUnit.unit (f s) = .error e t at thrown
  cases thrown

@[simp] theorem raise_error {result : Except ε β} : (raise result : EStateM ε σ β) s = .error e t ↔
    result = .error e ∧ s = t := by
  cases result with
  | ok value => simp [raise]
  | error error => simp [raise]

@[simp] theorem set_error {value : σ} : ¬ (set value : EStateM ε σ PUnit) s = .error e t := by
  intro thrown
  change EStateM.Result.ok PUnit.unit value = .error e t at thrown
  cases thrown

/-- What is thrown again leaves the state where the first exception left it. -/
theorem tryCatch_error {program : EStateM ε σ β} {rethrown : ε} :
    (tryCatch program fun _ => throw rethrown : EStateM ε σ β) s = .error e t ↔
      rethrown = e ∧ ∃ first, program s = .error first t := by
  change EStateM.tryCatch program (fun _ => throw rethrown) s = .error e t ↔ _
  unfold EStateM.tryCatch
  cases program s with
  | ok a middle => simp
  | error error middle =>
    change (throw rethrown : EStateM ε σ β) middle = .error e t ↔ _
    simp

end Throwing

section Congruence
variable {s : σ}

/-- Only what follows a return matters. -/
theorem bind_eq_of_ok {program : EStateM ε σ α} {next other : α → EStateM ε σ β}
    (same : ∀ a t, program s = .ok a t → next a t = other a t) : (program >>= next) s = (program >>= other) s := by
  change EStateM.bind program next s = EStateM.bind program other s
  unfold EStateM.bind
  cases ran : program s with
  | ok a middle => exact same a middle ran
  | error error middle => rfl

theorem tryCatch_eq {program other : EStateM ε σ α} {handler : ε → EStateM ε σ α} (same : program s = other s) :
    (tryCatch program handler : EStateM ε σ α) s = (tryCatch other handler : EStateM ε σ α) s := by
  change EStateM.tryCatch program handler s = EStateM.tryCatch other handler s
  unfold EStateM.tryCatch
  rw [same]

end Congruence

section Atomicity

/-- The program changes nothing. -/
def ReadOnly (program : EStateM ε σ α) : Prop :=
  ∀ s, (∃ a, program s = .ok a s) ∨ ∃ e, program s = .error e s

/-- When the program throws, it has changed nothing. -/
def Atomic (program : EStateM ε σ α) : Prop := ∀ s e t, program s = .error e t → t = s

variable {program : EStateM ε σ α} {next : α → EStateM ε σ β}

theorem ReadOnly.atomic (reads : ReadOnly program) : Atomic program := by
  intro s e t thrown
  rcases reads s with ⟨a, returned⟩ | ⟨e, same⟩
  · rw [returned] at thrown
    cases thrown
  · rw [same] at thrown
    cases thrown
    rfl

theorem ReadOnly.returned {a : α} {s t : σ} (reads : ReadOnly program) (returned : program s = .ok a t) :
    t = s := by
  rcases reads s with ⟨a, same⟩ | ⟨e, thrown⟩
  · rw [same] at returned
    cases returned
    rfl
  · rw [thrown] at returned
    cases returned

/-- What only reads may come before what is atomic. -/
theorem Atomic.bind (reads : ReadOnly program) (atomic : ∀ a, Atomic (next a)) :
    Atomic (program >>= next) := by
  intro s e t thrown
  rcases bind_error.mp thrown with first | ⟨a, middle, first, second⟩
  · exact reads.atomic s e t first
  · obtain rfl := reads.returned first
    exact atomic a middle e t second

theorem readOnly_raise (result : Except ε α) : ReadOnly (raise result : EStateM ε σ α) := by
  intro s
  cases result with
  | ok value => exact .inl ⟨value, rfl⟩
  | error error => exact .inr ⟨error, rfl⟩

theorem readOnly_pure (value : α) : ReadOnly (pure value : EStateM ε σ α) := fun _ => .inl ⟨value, rfl⟩

theorem readOnly_throw (error : ε) : ReadOnly (throw error : EStateM ε σ α) := fun _ => .inr ⟨error, rfl⟩

theorem atomic_throw (error : ε) : Atomic (throw error : EStateM ε σ α) := (readOnly_throw error).atomic

theorem atomic_modify (f : σ → σ) : Atomic (modify f : EStateM ε σ PUnit) :=
  fun _ _ _ thrown => (modify_error thrown).elim

theorem atomic_of_returns (returns : ∀ s, ∃ a t, program s = .ok a t) : Atomic program := by
  intro s e t thrown
  obtain ⟨a, after, returned⟩ := returns s
  rw [returned] at thrown
  cases thrown

theorem Atomic.ite {c : Prop} [Decidable c] {other : EStateM ε σ α} (first : Atomic program)
    (second : Atomic other) : Atomic (if c then program else other) := by
  split
  · exact first
  · exact second

end Atomicity

section Relations

/-- Whether it returns or throws, the program ends in a state related to the one
it began in. -/
structure Leaves (R : σ → σ → Prop) (program : EStateM ε σ α) : Prop where
  returned : ∀ {s a t}, program s = .ok a t → R s t
  thrown : ∀ {s e t}, program s = .error e t → R s t

variable {R : σ → σ → Prop} {program : EStateM ε σ α} {next : α → EStateM ε σ β}

theorem Leaves.bind (trans : ∀ {a b c}, R a b → R b c → R a c) (first : Leaves R program)
    (second : ∀ a, Leaves R (next a)) : Leaves R (program >>= next) := by
  constructor
  · intro s b t returned
    obtain ⟨a, middle, one, two⟩ := bind_ok.mp returned
    exact trans (first.returned one) ((second a).returned two)
  · intro s e t thrown
    rcases bind_error.mp thrown with one | ⟨a, middle, one, two⟩
    · exact first.thrown one
    · exact trans (first.returned one) ((second a).thrown two)

theorem ReadOnly.leaves (reads : ReadOnly program) (refl : ∀ s, R s s) : Leaves R program := by
  constructor
  · intro s a t returned
    obtain rfl := reads.returned returned
    exact refl _
  · intro s e t thrown
    obtain rfl := reads.atomic s e t thrown
    exact refl _

theorem Leaves.mono {S : σ → σ → Prop} (weaker : ∀ {s t}, R s t → S s t) (leaves : Leaves R program) :
    Leaves S program :=
  ⟨fun returned => weaker (leaves.returned returned), fun thrown => weaker (leaves.thrown thrown)⟩

theorem leaves_modify {f : σ → σ} (related : ∀ s, R s (f s)) :
    Leaves R (modify f : EStateM ε σ PUnit) := by
  constructor
  · intro s a t returned
    obtain rfl := modify_ok.mp returned
    exact related s
  · intro s e t thrown
    exact (modify_error thrown).elim

theorem Leaves.ite {c : Prop} [Decidable c] {other : EStateM ε σ α} (first : Leaves R program)
    (second : Leaves R other) : Leaves R (if c then program else other) := by
  split
  · exact first
  · exact second

theorem leaves_forM_of_mem (refl : ∀ s, R s s) (trans : ∀ {a b c}, R a b → R b c → R a c)
    {body : α → EStateM ε σ PUnit} {items : List α} (one : ∀ item ∈ items, Leaves R (body item)) :
    Leaves R (items.forM body) := by
  induction items with
  | nil => exact ReadOnly.leaves (fun s => .inl ⟨⟨⟩, rfl⟩) refl
  | cons item rest ih =>
    have later : Leaves R (rest.forM body) := ih fun other behind => one other (List.mem_cons_of_mem _ behind)
    exact .bind trans (one item List.mem_cons_self) fun _ => later

theorem leaves_forM (refl : ∀ s, R s s) (trans : ∀ {a b c}, R a b → R b c → R a c)
    {body : α → EStateM ε σ PUnit} (one : ∀ item, Leaves R (body item)) (items : List α) :
    Leaves R (items.forM body) :=
  leaves_forM_of_mem refl trans fun item _ => one item

/-- The state that a program ends in, whether it returns or throws. -/
def endState : EStateM.Result ε σ α → σ
  | .ok _ s => s
  | .error _ s => s

theorem Leaves.endState (leaves : Leaves R program) (s : σ) : R s (Execution.endState (program s)) := by
  cases ended : program s with
  | ok a t => exact leaves.returned ended
  | error e t => exact leaves.thrown ended

end Relations

/-- Runs of a labelled step relation, with the labels in the order they were taken. -/
inductive Reaches (step : σ → α → σ → Prop) : σ → List α → σ → Prop where
  | refl (s) : Reaches step s [] s
  | next : step s label t → Reaches step t rest u → Reaches step s (label :: rest) u

namespace Reaches
variable {step weaker : σ → α → σ → Prop} {s t u : σ} {label : α} {first second labels : List α}

theorem append_iff : Reaches step s (first ++ second) u ↔
    ∃ t, Reaches step s first t ∧ Reaches step t second u := by
  constructor
  · intro run
    induction first generalizing s with
    | nil => exact ⟨s, .refl s, run⟩
    | cons label rest ih =>
      cases run with
      | next head tail =>
        obtain ⟨t, front, back⟩ := ih tail
        exact ⟨t, .next head front, back⟩
  · rintro ⟨t, front, back⟩
    induction front with
    | refl => exact back
    | next head _ ih => exact .next head (ih back)

theorem single_iff : Reaches step s [label] t ↔ step s label t := by
  constructor
  · intro run
    cases run with
    | next head tail =>
      cases tail
      exact head
  · exact fun head => .next head (.refl t)

theorem invariant {P : σ → Prop} (preserves : ∀ {s label t}, P s → step s label t → P t)
    (run : Reaches step s labels t) (initial : P s) : P t := by
  induction run with
  | refl => exact initial
  | next head _ ih => exact ih (preserves initial head)

theorem mono_mem (implies : ∀ {s label t}, label ∈ labels → step s label t → weaker s label t)
    (run : Reaches step s labels t) : Reaches weaker s labels t := by
  induction run with
  | refl => exact .refl _
  | next head _ ih =>
    exact .next (implies List.mem_cons_self head) (ih fun later => implies (List.mem_cons_of_mem _ later))

theorem mono (implies : ∀ {s label t}, step s label t → weaker s label t)
    (run : Reaches step s labels t) : Reaches weaker s labels t :=
  run.mono_mem fun _ => implies

end Reaches

/-- A fold that may fail is a run of its step. -/
theorem foldlM_eq_some {next : σ → α → Option σ} {items : List α} {s t : σ} :
    items.foldlM next s = some t ↔ Reaches (fun s item t => next s item = some t) s items t := by
  constructor
  · intro folded
    induction items generalizing s with
    | nil =>
      obtain rfl := Option.some.inj folded
      exact .refl s
    | cons item rest ih =>
      rw [List.foldlM_cons] at folded
      obtain ⟨middle, first, later⟩ := Option.bind_eq_some_iff.mp folded
      exact .next first (ih later)
  · intro run
    induction run with
    | refl => rfl
    | next head _ ih =>
      rw [List.foldlM_cons]
      exact Option.bind_eq_some_iff.mpr ⟨_, head, ih⟩

/-- Without state, a program that returns has returned at each of its binds. -/
theorem except_bind_ok {first : Except ε α} {next : α → Except ε β} {b : β} :
    (first >>= next) = .ok b ↔ ∃ a, first = .ok a ∧ next a = .ok b := by
  cases first with
  | error error => simp [bind, Except.bind]
  | ok a => simp [bind, Except.bind]

/-- The error of a fold is the error of one of its steps. -/
theorem foldlM_error {step : β → α → Except ε β} {items : List α} {start : β} {error : ε}
    (failed : items.foldlM step start = .error error) :
    ∃ before, ∃ item ∈ items, step before item = .error error := by
  induction items generalizing start with
  | nil => cases failed
  | cons item rest ih =>
    rw [List.foldlM_cons] at failed
    cases stepped : step start item with
    | error thrown =>
      rw [stepped] at failed
      cases failed
      exact ⟨start, item, List.mem_cons_self, stepped⟩
    | ok next =>
      rw [stepped] at failed
      obtain ⟨before, later, member, thrown⟩ := ih failed
      exact ⟨before, later, List.mem_cons_of_mem _ member, thrown⟩

/-- A fold that returns has returned from every one of its steps. -/
theorem foldlM_returned {step : β → α → Except ε β} {items : List α} {start final : β}
    (folded : items.foldlM step start = .ok final) {item : α} (member : item ∈ items) :
    ∃ before after, step before item = .ok after := by
  induction items generalizing start with
  | nil => cases member
  | cons head rest ih =>
    rw [List.foldlM_cons, except_bind_ok] at folded
    obtain ⟨middle, first, later⟩ := folded
    rcases List.mem_cons.mp member with rfl | member
    · exact ⟨start, middle, first⟩
    · exact ih later member

theorem foldlM_invariant {step : β → α → Except ε β} {P : β → Prop}
    (keeps : ∀ {before item after}, step before item = .ok after → P before → P after) {items : List α}
    {start final : β} (folded : items.foldlM step start = .ok final) (initial : P start) : P final := by
  induction items generalizing start with
  | nil =>
    cases folded
    exact initial
  | cons item rest ih =>
    rw [List.foldlM_cons, except_bind_ok] at folded
    obtain ⟨middle, first, later⟩ := folded
    exact ih later (keeps first initial)

/-- A loop over a list returns exactly when all its rounds do, one after another. -/
theorem forM_ok {body : α → EStateM ε σ PUnit} {items : List α} {s t : σ} {u : PUnit} :
    items.forM body s = .ok u t ↔ Reaches (fun s item t => body item s = .ok ⟨⟩ t) s items t := by
  induction items generalizing s with
  | nil =>
    constructor
    · intro returned
      have same : s = t := by simpa [List.forM] using returned
      exact same ▸ .refl s
    · intro run
      cases run
      exact pure_ok.mpr ⟨rfl, rfl⟩
  | cons item rest ih =>
    change (body item >>= fun _ => rest.forM body) s = .ok u t ↔ _
    simp only [bind_ok, ih]
    constructor
    · rintro ⟨_, middle, head, tail⟩
      exact .next head tail
    · intro run
      cases run with
      | next head tail => exact ⟨⟨⟩, _, head, tail⟩

end Foundations.Execution
