/-! Exceptions the mender can end with, and the list and null accesses that
throw them. Assertions are disabled, as they are when the tool runs. -/
namespace CMender

inductive FatalType where
  | diagExporter | diagExporterResultDeserialization | mending | mendfileWriter
  | mendingDirCreation | sourceResultWriter
deriving DecidableEq, Repr

inductive JavaException where
  | runtime (message : String)
  | nullPointer
  | noSuchElement
  | indexOutOfBounds
  | arrayIndexOutOfBounds
  | classCast
  | illegalArgument (message : String)
  /-- `MendingEngineFatalException`. -/
  | fatal (type : FatalType) (message : String) (iteration : Nat)
deriving DecidableEq, Repr

variable {α : Type}

/-- A value that must be there. -/
def orThrow (error : JavaException) : Option α → Except JavaException α
  | some value => .ok value
  | none => .error error

/-- A reference that is used: absence is a null pointer. -/
def nonNull (reference : Option α) : Except JavaException α := orThrow .nullPointer reference

/-- `List.getFirst` -/
def getFirst (items : List α) : Except JavaException α := orThrow .noSuchElement items.head?

/-- `List.get` -/
def getAt (items : List α) (index : Nat) : Except JavaException α := orThrow .indexOutOfBounds items[index]?

variable {reference : Option α} {items : List α} {index : Nat} {value : α} {error thrown : JavaException}

@[simp] theorem orThrow_ok : orThrow error reference = .ok value ↔ reference = some value := by
  cases reference <;> simp [orThrow]

@[simp] theorem orThrow_error : orThrow error reference = .error thrown ↔
    reference = none ∧ error = thrown := by
  cases reference <;> simp [orThrow]

@[simp] theorem nonNull_ok : nonNull reference = .ok value ↔ reference = some value := orThrow_ok

@[simp] theorem getFirst_ok : getFirst items = .ok value ↔ items.head? = some value := orThrow_ok

@[simp] theorem getAt_ok : getAt items index = .ok value ↔ items[index]? = some value := orThrow_ok

/-- The items at several places, one after another. -/
theorem map_getElem?_of_mapM {places : List Nat} {values : List α}
    (collected : places.mapM (getAt items) = .ok values) :
    (places.map fun place => items[place]?) = values.map some := by
  induction places generalizing values with
  | nil =>
    cases collected
    rfl
  | cons place rest ih =>
    rw [List.mapM_cons] at collected
    cases taken : getAt items place with
    | error error => simp [taken, bind, Except.bind] at collected
    | ok value =>
      cases others : rest.mapM (getAt items) with
      | error error => simp [taken, others, bind, Except.bind] at collected
      | ok later =>
        simp only [taken, others, bind, Except.bind, pure, Except.pure, Except.ok.injEq] at collected
        subst collected
        rw [List.map_cons, List.map_cons, ih others, getAt_ok.mp taken]

theorem mem_of_mapM {places : List Nat} {values : List α} (collected : places.mapM (getAt items) = .ok values) :
    value ∈ values ↔ ∃ place ∈ places, items[place]? = some value := by
  have same := map_getElem?_of_mapM collected
  have image : value ∈ values ↔ some value ∈ values.map some := by simp
  rw [image, ← same, List.mem_map]

end CMender
