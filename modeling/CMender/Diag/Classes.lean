import CMender.Diag.Diagnostic

/-! Diagnostics up to equality. Comparing a located diagnostic never throws, and
what it compares is a key made of identifier, message and location. -/
namespace CMender

structure DiagnosticKey where
  id : Int
  message : String
  type : DiagnosticLocationType
  line : Int
  column : Int
  file : String
  path : String
deriving DecidableEq, Repr

/-- Only a located diagnostic has a key. -/
def Diagnostic.key (diag : Diagnostic) : Option DiagnosticKey :=
  diag.location.reportedLoc.map fun location =>
    ⟨diag.id, diag.message, diag.location.type, location.line, location.column, location.file, location.path⟩

def Diagnostic.Located (diag : Diagnostic) : Prop := diag.location.reportedLoc.isSome = true

variable {diag other : Diagnostic}

theorem Diagnostic.located_iff : diag.Located ↔ ∃ key, diag.key = some key := by
  rw [Located, key, ← Option.isSome_iff_exists, Option.isSome_map]

theorem SourceLocation.equals_some {location other : SourceLocation} :
    location.equals (some other) = true ↔ location.line = other.line ∧ location.column = other.column ∧
      location.file = other.file ∧ location.path = other.path := by
  simp [SourceLocation.equals, and_assoc]

/-- The location of a located diagnostic is compared without an exception. -/
theorem DiagnosticLocation.equals_located {location other : DiagnosticLocation} {own : SourceLocation}
    (located : location.reportedLoc = some own) :
    location.equals other false = .ok (decide (location.type = other.type) && own.equals other.reportedLoc) := by
  unfold DiagnosticLocation.equals
  rw [if_neg Bool.false_ne_true]
  by_cases same : location.type = other.type
  · have files : other.isFileLoc = location.isFileLoc := by simp [isFileLoc, same]
    simp only [reportedLoc, files] at located ⊢
    cases file : location.isFileLoc with
    | true =>
      simp only [file, if_true] at located
      simp [same, located, nonNull, orThrow, bind, Except.bind, pure, Except.pure]
    | false =>
      simp only [file, Bool.false_eq_true, if_false] at located
      simp [same, located, nonNull, orThrow, bind, Except.bind, pure, Except.pure]
  · simp [same]

/-- Separate objects are compared by their keys, where the first one has a key. -/
theorem Diagnostic.equals_of_key {key : DiagnosticKey} (own : diag.key = some key) :
    diag.equals other .separate = .ok (decide (other.key = some key)) := by
  obtain ⟨location, located, rfl⟩ := Option.map_eq_some_iff.mp own
  have apart : ¬ ((Identity.separate == .same) = true) := by decide
  unfold Diagnostic.equals
  rw [if_neg apart]
  by_cases described : diag.id = other.id ∧ diag.message = other.message
  · have compared : diag.location.equals other.location false = _ := DiagnosticLocation.equals_located located
    rw [if_pos (by simp [described])]
    refine compared.trans ?_
    congr 1
    rw [Bool.eq_iff_iff, decide_eq_true_eq, Bool.and_eq_true, decide_eq_true_eq, Diagnostic.key]
    cases found : other.location.reportedLoc with
    | none => simp [SourceLocation.equals]
    | some theirs =>
      rw [SourceLocation.equals_some]
      simp only [Option.map_some, Option.some.injEq, DiagnosticKey.mk.injEq, described.1, described.2,
        true_and]
      simp only [eq_comm]
  · rw [if_neg (by simpa using described)]
    congr 1
    rw [eq_comm, decide_eq_false_iff_not]
    intro same
    obtain ⟨theirs, _, equal⟩ := Option.map_eq_some_iff.mp same
    simp only [DiagnosticKey.mk.injEq] at equal
    exact described ⟨equal.1.symm, equal.2.1.symm⟩

/-- Without a location to compare, separate objects that agree in all before it throw. -/
def Diagnostic.AgreesUpToLocation (diag other : Diagnostic) : Prop :=
  diag.id = other.id ∧ diag.message = other.message ∧ diag.location.type = other.location.type

instance : Decidable (diag.AgreesUpToLocation other) := inferInstanceAs (Decidable (_ ∧ _))

theorem Diagnostic.equals_unlocated (missing : ¬ diag.Located) :
    diag.equals other .separate = if diag.AgreesUpToLocation other then .error .nullPointer else .ok false := by
  have absent : diag.location.reportedLoc = none := Option.not_isSome_iff_eq_none.mp missing
  have apart : ¬ ((Identity.separate == .same) = true) := by decide
  unfold Diagnostic.equals
  rw [if_neg apart]
  by_cases described : diag.id = other.id ∧ diag.message = other.message
  · rw [if_pos (by simp [described])]
    by_cases same : diag.location.type = other.location.type
    · rw [if_pos ⟨described.1, described.2, same⟩]
      unfold DiagnosticLocation.equals
      unfold DiagnosticLocation.reportedLoc at absent
      cases file : diag.location.isFileLoc with
      | true =>
        rw [if_pos file] at absent
        simp [same, absent, nonNull, orThrow, bind, Except.bind]
      | false =>
        rw [if_neg (by simp [file])] at absent
        simp [same, absent, nonNull, orThrow, bind, Except.bind]
    · rw [if_neg fun all => same all.2.2]
      simp [DiagnosticLocation.equals, same]
  · rw [if_neg (by simpa using described), if_neg fun all => described ⟨all.1, all.2.1⟩]

end CMender
