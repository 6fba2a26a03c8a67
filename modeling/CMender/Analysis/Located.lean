import CMender.Analysis.Selection
import CMender.Diag.Classes
import CMender.Diag.Reading
import CMender.Exporter.Consumer
import CMender.Mending.Steps

/-! Diagnostics without a location. The exporter writes them for what has no place
in the source, such as a wrong option. Checking for termination, comparing and
reporting look at a location without asking whether there is one, so they return
for all diagnostics of a file only when all of them are located. A diagnostic of an
earlier document may lack one, as long as no other one is like it. -/
namespace CMender
open Foundations Foundations.Execution

theorem listContains_of_ok {α : Type} {equals : α → Except JavaException Bool} {found : α → Bool}
    {elements : List α} (returns : ∀ element ∈ elements, equals element = .ok (found element)) :
    listContains equals elements = .ok (elements.any found) := by
  induction elements with
  | nil => rfl
  | cons element rest ih =>
    have later := ih fun other member => returns other (List.mem_cons_of_mem _ member)
    simp only [listContains, returns element List.mem_cons_self, later, List.any_cons]
    cases found element <;> rfl

theorem containsDiagnostic_of_key {diag : Diagnostic} {key : DiagnosticKey} (own : diag.key = some key)
    (handled : List Diagnostic) :
    containsDiagnostic diag handled = .ok (handled.any fun other => decide (other.key = some key)) :=
  listContains_of_ok fun _ _ => Diagnostic.equals_of_key own

/-- The counts of a result are positive exactly when it lists an error or a fatal one. -/
def DiagExporterSourceResult.CountsAgree (result : DiagExporterSourceResult) : Prop :=
  result.hasErrorsOrFatals = result.diags.any Diagnostic.isErrorOrFatal

/-- Diagnostics as objects. Equal references to locations refer to one object, which
has one value. -/
structure DiagnosticObjects where
  diagnostic : Ref Diagnostic → Diagnostic
  location : Ref Diagnostic → Ref DiagnosticLocation
  location_value : ∀ {ref other}, location ref = location other →
    (diagnostic ref).location = (diagnostic other).location

namespace DiagnosticObjects

def identity (objects : DiagnosticObjects) (ref other : Ref Diagnostic) : Identity :=
  if ref = other then .same
  else if objects.location ref = objects.location other then .sameLocation
  else .separate

def equals (objects : DiagnosticObjects) (ref other : Ref Diagnostic) : Except JavaException Bool :=
  (objects.diagnostic ref).equals (objects.diagnostic other) (objects.identity ref other)

def contains (objects : DiagnosticObjects) (ref : Ref Diagnostic) (handled : List (Ref Diagnostic)) :
    Except JavaException Bool := listContains (objects.equals ref) handled

end DiagnosticObjects

/-- Comparison returns among the diagnostics of a list, and it is an equivalence. -/
structure ComparedSoundly (objects : DiagnosticObjects) (refs : List (Ref Diagnostic)) : Prop where
  returns : ∀ ref ∈ refs, ∀ other ∈ refs, ∃ answer, objects.equals ref other = .ok answer
  refl : ∀ ref ∈ refs, objects.equals ref ref = .ok true
  symm : ∀ ref ∈ refs, ∀ other ∈ refs, objects.equals ref other = .ok true → objects.equals other ref = .ok true
  trans : ∀ first ∈ refs, ∀ second ∈ refs, ∀ third ∈ refs, objects.equals first second = .ok true →
    objects.equals second third = .ok true → objects.equals first third = .ok true

/-- All that an iteration does with the diagnostics of a result, given those handled
before, returns; and whether one of them was handled before does not depend on what
is one object, so that the check may take all for separate ones. -/
structure Processed (objects : DiagnosticObjects) (diags handled : List (Ref Diagnostic)) : Prop where
  checked : ∀ sourceResult sourceFile s, sourceResult.diags = diags.map objects.diagnostic →
    sourceResult.CountsAgree → s.table.handledDiagnostics = handled.map objects.diagnostic →
      ∃ status t, checkTermination sourceResult sourceFile s = .ok status t
  contained : ∀ ref ∈ diags, ∃ answer, objects.contains ref handled = .ok answer ∧
    containsDiagnostic (objects.diagnostic ref) (handled.map objects.diagnostic) = .ok answer
  reported : ∀ ref ∈ diags, ∃ info, DiagnosticShortInfo.ofDiagnostic (objects.diagnostic ref) = .ok info
  compared : ComparedSoundly objects (diags ++ handled)

namespace DiagnosticObjects
variable {objects : DiagnosticObjects} {ref other third : Ref Diagnostic}

/-- What equality looks at up to the location, which counts as an object here. -/
def described (objects : DiagnosticObjects) (ref : Ref Diagnostic) : Int × String × Ref DiagnosticLocation :=
  ((objects.diagnostic ref).id, (objects.diagnostic ref).message, objects.location ref)

def key (objects : DiagnosticObjects) (ref : Ref Diagnostic) : Option DiagnosticKey := (objects.diagnostic ref).key

def Same (objects : DiagnosticObjects) (ref other : Ref Diagnostic) : Prop :=
  objects.described ref = objects.described other ∨
    ∃ key, objects.key ref = some key ∧ objects.key other = some key

theorem described_eq : objects.described ref = objects.described other ↔
    (objects.diagnostic ref).id = (objects.diagnostic other).id ∧
      (objects.diagnostic ref).message = (objects.diagnostic other).message ∧
      objects.location ref = objects.location other := by
  simp [described]

theorem key_of_described (same : objects.described ref = objects.described other) :
    objects.key ref = objects.key other := by
  obtain ⟨id, message, location⟩ := described_eq.mp same
  simp only [key, Diagnostic.key, id, message, objects.location_value location]

theorem key_described {key : DiagnosticKey} (own : objects.key ref = some key) :
    (objects.diagnostic ref).id = key.id ∧ (objects.diagnostic ref).message = key.message := by
  obtain ⟨location, _, rfl⟩ := Option.map_eq_some_iff.mp own
  exact ⟨rfl, rfl⟩

theorem equals_separate (apart : objects.location ref ≠ objects.location other) :
    objects.equals ref other = (objects.diagnostic ref).equals (objects.diagnostic other) .separate := by
  have different : ref ≠ other := fun same => apart (congrArg objects.location same)
  rw [equals, identity, if_neg different, if_neg apart]

theorem equals_shared (shared : objects.location ref = objects.location other) :
    objects.equals ref other = .ok (decide (objects.described ref = objects.described other)) := by
  by_cases one : ref = other
  · subst one
    rw [equals, identity, if_pos rfl, decide_eq_true rfl]
    rfl
  · rw [equals, identity, if_neg one, if_pos shared]
    simp only [described_eq, shared, and_true]
    by_cases agree : (objects.diagnostic ref).id = (objects.diagnostic other).id ∧
        (objects.diagnostic ref).message = (objects.diagnostic other).message
    · rw [decide_eq_true agree]
      simp [Diagnostic.equals, DiagnosticLocation.equals, agree]
    · rw [decide_eq_false agree, Diagnostic.equals, if_neg (by decide), if_neg (by simpa using agree)]

theorem equals_true_iff : objects.equals ref other = .ok true ↔ objects.Same ref other := by
  by_cases shared : objects.location ref = objects.location other
  · rw [equals_shared shared, Except.ok.injEq, decide_eq_true_eq]
    refine ⟨.inl, ?_⟩
    rintro (same | ⟨key, own, theirs⟩)
    · exact same
    · obtain ⟨id, message⟩ := key_described own
      obtain ⟨otherId, otherMessage⟩ := key_described theirs
      exact described_eq.mpr ⟨id.trans otherId.symm, message.trans otherMessage.symm, shared⟩
  · have apart : objects.described ref ≠ objects.described other := fun same => shared (described_eq.mp same).2.2
    rw [equals_separate shared]
    simp only [Same, apart, false_or]
    cases own : objects.key ref with
    | none =>
      have missing : ¬ (objects.diagnostic ref).Located := fun located => by
        obtain ⟨key, some_key⟩ := Diagnostic.located_iff.mp located
        exact Option.some_ne_none key (some_key.symm.trans own)
      rw [Diagnostic.equals_unlocated missing]
      split <;> simp
    | some key =>
      rw [Diagnostic.equals_of_key own]
      simp [DiagnosticObjects.key]

theorem Same.symm (same : objects.Same ref other) : objects.Same other ref := by
  rcases same with same | ⟨key, own, theirs⟩
  · exact .inl same.symm
  · exact .inr ⟨key, theirs, own⟩

theorem Same.trans (first : objects.Same ref other) (second : objects.Same other third) : objects.Same ref third := by
  rcases first with same | ⟨key, own, theirs⟩
  · rcases second with next | ⟨key, own, theirs⟩
    · exact .inl (same.trans next)
    · exact .inr ⟨key, (key_of_described same).trans own, theirs⟩
  · rcases second with next | ⟨_, again, last⟩
    · exact .inr ⟨key, own, (key_of_described next).symm.trans theirs⟩
    · obtain rfl := Option.some.inj (theirs.symm.trans again)
      exact .inr ⟨key, own, last⟩

/-- Comparison throws for nothing but two separate locations of which the first one is
missing, when all before them agrees. -/
theorem equals_returns_iff : (∃ answer, objects.equals ref other = .ok answer) ↔
    (objects.diagnostic ref).Located ∨ objects.location ref = objects.location other ∨
      ¬ (objects.diagnostic ref).AgreesUpToLocation (objects.diagnostic other) := by
  by_cases shared : objects.location ref = objects.location other
  · exact iff_of_true ⟨_, equals_shared shared⟩ (.inr (.inl shared))
  · rw [equals_separate shared]
    by_cases located : (objects.diagnostic ref).Located
    · obtain ⟨key, own⟩ := Diagnostic.located_iff.mp located
      exact iff_of_true ⟨_, Diagnostic.equals_of_key own⟩ (.inl located)
    · rw [Diagnostic.equals_unlocated located]
      by_cases agrees : (objects.diagnostic ref).AgreesUpToLocation (objects.diagnostic other)
      · simp [agrees, shared, located]
      · simp [agrees]

theorem comparedSoundly_iff {refs : List (Ref Diagnostic)} : ComparedSoundly objects refs ↔
    ∀ ref ∈ refs, ∀ other ∈ refs, ∃ answer, objects.equals ref other = .ok answer := by
  refine ⟨ComparedSoundly.returns, fun returns => ⟨returns, ?_, ?_, ?_⟩⟩
  · exact fun ref _ => equals_true_iff.mpr (.inl rfl)
  · exact fun ref _ other _ equal => equals_true_iff.mpr (equals_true_iff.mp equal).symm
  · exact fun first _ second _ third _ one two =>
      equals_true_iff.mpr ((equals_true_iff.mp one).trans (equals_true_iff.mp two))

/-- For a located diagnostic it makes no difference which diagnostics are one object. -/
theorem equals_of_key {key : DiagnosticKey} (own : objects.key ref = some key) :
    objects.equals ref other = .ok (decide (objects.key other = some key)) := by
  have returned : ∃ answer, objects.equals ref other = .ok answer :=
    equals_returns_iff.mpr (.inl (Diagnostic.located_iff.mpr ⟨key, own⟩))
  obtain ⟨answer, equal⟩ := returned
  have meaning : answer = true ↔ objects.Same ref other := by rw [← equals_true_iff, equal, Except.ok.injEq]
  rw [equal, Except.ok.injEq, Bool.eq_iff_iff, decide_eq_true_eq, meaning]
  constructor
  · rintro (same | ⟨_, again, theirs⟩)
    · exact (key_of_described same).symm.trans own
    · rwa [Option.some.inj (own.symm.trans again)]
  · exact fun theirs => .inr ⟨key, own, theirs⟩

theorem contains_located (located : (objects.diagnostic ref).Located) (handled : List (Ref Diagnostic)) :
    ∃ answer, objects.contains ref handled = .ok answer ∧
      containsDiagnostic (objects.diagnostic ref) (handled.map objects.diagnostic) = .ok answer := by
  obtain ⟨key, own⟩ := Diagnostic.located_iff.mp located
  refine ⟨_, listContains_of_ok fun _ _ => equals_of_key own, ?_⟩
  rw [containsDiagnostic_of_key own, List.any_map]
  rfl

end DiagnosticObjects

section Located
variable {diag : Diagnostic} {diags : List Diagnostic}

theorem ofDiagnostic_located (located : diag.Located) : ∃ info, DiagnosticShortInfo.ofDiagnostic diag = .ok info := by
  obtain ⟨location, reported⟩ := Option.isSome_iff_exists.mp located
  unfold DiagnosticShortInfo.ofDiagnostic
  rw [reported]
  exact ⟨_, rfl⟩

theorem firstErrorOrFatalIn_located (sourceFile : String) (located : ∀ diag ∈ diags, diag.Located) :
    ∃ found, DiagExporterSourceResult.firstErrorOrFatalIn sourceFile diags = .ok found := by
  induction diags with
  | nil => exact ⟨none, rfl⟩
  | cons head rest ih =>
    obtain ⟨found, later⟩ := ih fun diag member => located diag (List.mem_cons_of_mem _ member)
    obtain ⟨location, reported⟩ := Option.isSome_iff_exists.mp (located head List.mem_cons_self)
    unfold DiagExporterSourceResult.firstErrorOrFatalIn
    split
    · rw [reported]
      by_cases inSource : (location.file == sourceFile) = true
      · exact ⟨some head, if_pos inSource⟩
      · exact ⟨found, (if_neg inSource).trans later⟩
    · exact ⟨found, later⟩

theorem checkTermination_located {sourceResult : DiagExporterSourceResult} (sourceFile : String)
    (s : MendingState) (agree : sourceResult.CountsAgree) (located : ∀ diag ∈ sourceResult.diags, diag.Located) :
    ∃ status t, checkTermination sourceResult sourceFile s = .ok status t := by
  cases hasErrors : sourceResult.hasErrorsOrFatals with
  | false => exact ⟨_, s, checkTermination_iff.mpr (.inl ⟨hasErrors, rfl, rfl⟩)⟩
  | true =>
    have listed : sourceResult.diags.any Diagnostic.isErrorOrFatal = true := agree.symm.trans hasErrors
    have found : (sourceResult.diags.findIdx? Diagnostic.isErrorOrFatal).isSome = true := by
      rw [List.findIdx?_isSome, listed]
    obtain ⟨idx, first⟩ := Option.isSome_iff_exists.mp found
    obtain ⟨inside, _⟩ := List.findIdx?_eq_some_iff_getElem.mp first
    have present : sourceResult.diags[idx]? = some sourceResult.diags[idx] := List.getElem?_eq_getElem inside
    obtain ⟨inSource, searched⟩ := firstErrorOrFatalIn_located sourceFile located
    obtain ⟨key, own⟩ := Diagnostic.located_iff.mp (located _ (List.getElem_mem inside))
    exact ⟨_, _, checkTermination_iff.mpr (.inr ⟨hasErrors, idx, _, inSource, _, first, present, searched,
      containsDiagnostic_of_key own _, rfl, rfl⟩)⟩

theorem located_of_ofDiagnostic {info : DiagnosticShortInfo}
    (reported : DiagnosticShortInfo.ofDiagnostic diag = .ok info) : diag.Located := by
  obtain ⟨location, present, _⟩ := except_bind_ok.mp reported
  exact Option.isSome_iff_exists.mpr ⟨location, nonNull_ok.mp present⟩

end Located

theorem processed_iff_comparable {objects : DiagnosticObjects} {diags handled : List (Ref Diagnostic)} :
    Processed objects diags handled ↔
      (∀ ref ∈ diags, (objects.diagnostic ref).Located) ∧
      ∀ ref ∈ handled, ∀ other ∈ diags ++ handled, (objects.diagnostic ref).Located ∨
        objects.location ref = objects.location other ∨
          ¬ (objects.diagnostic ref).AgreesUpToLocation (objects.diagnostic other) := by
  constructor
  · intro processed
    constructor
    · intro ref member
      obtain ⟨info, reported⟩ := processed.reported ref member
      exact located_of_ofDiagnostic reported
    · intro ref member other among
      exact DiagnosticObjects.equals_returns_iff.mp
        (processed.compared.returns ref (List.mem_append_right _ member) other among)
  · rintro ⟨located, apart⟩
    refine ⟨?_, fun ref member => DiagnosticObjects.contains_located (located ref member) handled,
      fun ref member => ofDiagnostic_located (located ref member), DiagnosticObjects.comparedSoundly_iff.mpr ?_⟩
    · intro sourceResult sourceFile s listed agree _
      apply checkTermination_located sourceFile s agree
      rw [listed]
      exact List.forall_mem_map.mpr located
    · intro ref member other among
      rw [DiagnosticObjects.equals_returns_iff]
      rcases List.mem_append.mp member with current | before
      · exact .inl (located ref current)
      · exact apart ref before other among

/-- Clang reports nowhere that it gives up. -/
def tooManyErrors : Diagnostic :=
  ⟨1114, some "fatal_too_many_errors", .fatal, ⟨"too many errors emitted, stopping now", []⟩,
    ⟨.none, none, none, none, -1⟩, []⟩

/-- Every reference is an object of its own, with a location of its own. -/
def DiagnosticObjects.repeated (diag : Diagnostic) : DiagnosticObjects :=
  ⟨fun _ => diag, fun ref => ⟨ref.index⟩, fun _ => rfl⟩

theorem tooManyErrors_not_processed :
    Exported.DiagnosticLocation.read (Exporter.getLocationInfo .invalid) = some ⟨.none, none, none, none, -1⟩ ∧
    checkTermination ⟨"source.c", 10, 0, 1, [tooManyErrors]⟩ "source.c" (.initial .start .empty) =
      .error .nullPointer (.initial .start .empty) ∧
    DiagnosticShortInfo.ofDiagnostic tooManyErrors = .error .nullPointer ∧
    (DiagnosticObjects.repeated tooManyErrors).equals ⟨0⟩ ⟨1⟩ = .error .nullPointer ∧
    ¬ Processed (.repeated tooManyErrors) [⟨0⟩] [] := by
  refine ⟨rfl, rfl, rfl, rfl, fun processed => ?_⟩
  obtain ⟨info, reported⟩ := processed.reported ⟨0⟩ List.mem_cons_self
  cases reported

end CMender
