import CMender.Foundations.Removal
import CMender.Mending.Steps

/-! Which diagnostics of an exporter's result are mended next, and when mending
stops. All three analyses share the termination check, which looks at the first
error only. -/
namespace CMender
open Foundations Foundations.Execution

inductive TerminationType where
  | noTermination | noMoreErrorsOrFatals | detectedCycle | unknownDiagnostic
deriving DecidableEq, Repr

structure MendingTerminationStatus where
  terminationType : TerminationType
  fileProgress : FileProgress
  unknownDiags : List Nat
deriving DecidableEq, Repr

namespace MendingTerminationStatus

def finishedPrematurely (status : MendingTerminationStatus) (continueOnUnknownDiagnostic : Bool) : Bool :=
  status.terminationType == .unknownDiagnostic && !continueOnUnknownDiagnostic ||
    status.terminationType == .detectedCycle

def success (status : MendingTerminationStatus) : Bool :=
  status.terminationType == .noMoreErrorsOrFatals

end MendingTerminationStatus

/-- `List.contains`: comparison may throw before an equal element is found. -/
def listContains {α : Type} (equals : α → Except JavaException Bool) : List α → Except JavaException Bool
  | [] => .ok false
  | element :: rest => do
    if ← equals element then return true else listContains equals rest

/-- `handledDiagnostics.contains(diag)`. The handled diagnostics were read from earlier
documents, so they are other objects than the one looked for. -/
def containsDiagnostic (diag : Diagnostic) (handledDiagnostics : List Diagnostic) : Except JavaException Bool :=
  listContains (fun handled => diag.equals handled .separate) handledDiagnostics

def checkTermination (sourceResult : DiagExporterSourceResult) (sourceFile : String) :
    Mend MendingTerminationStatus := do
  if !sourceResult.hasErrorsOrFatals then
    return ⟨.noMoreErrorsOrFatals, ⟨1, 1⟩, []⟩
  else
    let firstErrorIdx ← raise (nonNull sourceResult.getFirstOrFatalIdx)
    let firstError ← raise (getAt sourceResult.diags firstErrorIdx)
    let firstErrorInSource ← raise (sourceResult.getFirstErrorOrFatalInSource sourceFile)
    let table ← getTable
    let fileProgress := match firstErrorInSource with
      | none => table.fileProgress
      | some diag => ⟨diag.location.fileOffset, sourceResult.size⟩
    modifyTable fun table => { table with fileProgress := fileProgress }
    let cycle ← raise (containsDiagnostic firstError table.handledDiagnostics)
    if cycle then return ⟨.detectedCycle, fileProgress, []⟩
    else if firstError.diagnosticID.isUnknown then
      return ⟨.unknownDiagnostic, fileProgress, [firstErrorIdx]⟩
    else return ⟨.noTermination, fileProgress, []⟩

section Check
variable {sourceResult : DiagExporterSourceResult} {sourceFile : String} {s t : MendingState}
  {status : MendingTerminationStatus} {fileProgress : FileProgress} {idx : Nat} {firstError : Diagnostic} {cycle : Bool}

/-- How far mending has come when the first error in the source file is known. -/
def progressTo (fileProgress : FileProgress) (size : Int) : Option Diagnostic → FileProgress
  | none => fileProgress
  | some diag => ⟨diag.location.fileOffset, size⟩

/-- The status for a first error, once it is known whether it was handled before. -/
def statusOf (fileProgress : FileProgress) (idx : Nat) (firstError : Diagnostic) (cycle : Bool) :
    MendingTerminationStatus :=
  if cycle then ⟨.detectedCycle, fileProgress, []⟩
  else if firstError.diagnosticID.isUnknown then ⟨.unknownDiagnostic, fileProgress, [idx]⟩
  else ⟨.noTermination, fileProgress, []⟩

theorem statusOf_unknown (unknown : firstError.diagnosticID.isUnknown = true) :
    statusOf fileProgress idx firstError false = ⟨.unknownDiagnostic, fileProgress, [idx]⟩ := if_pos unknown

theorem statusOf_known (known : firstError.diagnosticID.isUnknown = false) :
    statusOf fileProgress idx firstError false = ⟨.noTermination, fileProgress, []⟩ :=
  if_neg (Bool.eq_false_iff.mp known)

theorem statusOf_cases : statusOf fileProgress idx firstError cycle = ⟨.detectedCycle, fileProgress, []⟩ ∨
    firstError.diagnosticID.isUnknown = true ∧
      statusOf fileProgress idx firstError cycle = ⟨.unknownDiagnostic, fileProgress, [idx]⟩ ∨
    statusOf fileProgress idx firstError cycle = ⟨.noTermination, fileProgress, []⟩ := by
  cases cycle with
  | true => exact .inl rfl
  | false =>
    cases unknown : firstError.diagnosticID.isUnknown with
    | true => exact .inr (.inl ⟨rfl, statusOf_unknown unknown⟩)
    | false => exact .inr (.inr (statusOf_known unknown))

/-- The check returns when there is no error, or when it finds the first error and the first one
in the source file and can compare the first error with those handled before. -/
theorem checkTermination_iff : checkTermination sourceResult sourceFile s = .ok status t ↔
    sourceResult.hasErrorsOrFatals = false ∧ status = ⟨.noMoreErrorsOrFatals, ⟨1, 1⟩, []⟩ ∧ t = s ∨
    sourceResult.hasErrorsOrFatals = true ∧ ∃ idx firstError inSource cycle,
      sourceResult.getFirstOrFatalIdx = some idx ∧ sourceResult.diags[idx]? = some firstError ∧
      sourceResult.getFirstErrorOrFatalInSource sourceFile = .ok inSource ∧
      containsDiagnostic firstError s.table.handledDiagnostics = .ok cycle ∧
      status = statusOf (progressTo s.table.fileProgress sourceResult.size inSource) idx firstError cycle ∧
      t = s.withTable fun table =>
        { table with fileProgress := progressTo s.table.fileProgress sourceResult.size inSource } := by
  have ended (progress : FileProgress) (idx : Nat) (firstError : Diagnostic) (cycle : Bool) (s : MendingState) :
      (if cycle = true then pure ⟨.detectedCycle, progress, []⟩
        else if firstError.diagnosticID.isUnknown = true then pure ⟨.unknownDiagnostic, progress, [idx]⟩
        else pure ⟨.noTermination, progress, []⟩ : Mend MendingTerminationStatus) s =
        .ok (statusOf progress idx firstError cycle) s := by
    unfold statusOf
    cases cycle <;> cases firstError.diagnosticID.isUnknown <;> rfl
  unfold checkTermination
  cases errors : sourceResult.hasErrorsOrFatals with
  | false =>
    simp only [Bool.not_false, if_true, pure_ok, Bool.false_eq_true, true_and, false_and, or_false, eq_comm]
  | true =>
    simp only [Bool.not_true, Bool.false_eq_true, if_false, Bool.true_eq_false, false_and, true_and, false_or]
    constructor
    · intro checked
      simp only [bind_ok, raise_ok, nonNull_ok, getAt_ok, getTable_ok, modifyTable_ok] at checked
      obtain ⟨idx, _, ⟨found, rfl⟩, firstError, _, ⟨present, rfl⟩, inSource, _, ⟨searched, rfl⟩, _, _, ⟨rfl, rfl⟩,
        _, _, rfl, cycle, _, ⟨compared, rfl⟩, checked⟩ := checked
      rw [ended] at checked
      cases checked
      exact ⟨idx, firstError, inSource, cycle, found, present, searched, compared, by cases inSource <;> rfl,
        by cases inSource <;> rfl⟩
    · rintro ⟨idx, firstError, inSource, cycle, found, present, searched, compared, rfl, rfl⟩
      refine bind_ok.mpr ⟨idx, s, raise_ok.mpr ⟨nonNull_ok.mpr found, rfl⟩, ?_⟩
      refine bind_ok.mpr ⟨firstError, s, raise_ok.mpr ⟨getAt_ok.mpr present, rfl⟩, ?_⟩
      refine bind_ok.mpr ⟨inSource, s, raise_ok.mpr ⟨searched, rfl⟩, ?_⟩
      refine bind_ok.mpr ⟨s.table, s, rfl, bind_ok.mpr ⟨(), _, rfl, ?_⟩⟩
      refine bind_ok.mpr ⟨cycle, _, raise_ok.mpr ⟨compared, rfl⟩, ?_⟩
      cases inSource <;> exact ended _ idx firstError cycle _

end Check

namespace BasicFirstErrorAnalysis

def selectDiagnostics (sourceResult : DiagExporterSourceResult) : Except JavaException (List Nat) := do
  return [← nonNull sourceResult.getFirstOrFatalIdx]

end BasicFirstErrorAnalysis

section Removal
variable (sourceResult : DiagExporterSourceResult)

def Diagnostic.hasID (diag : Diagnostic) (id : DiagnosticID) : Bool := diag.id == id.id

/-- Two selected diagnostics compared by what they are. -/
def compareSelected (similar : Diagnostic → Diagnostic → Except JavaException Bool)
    (diag : Diagnostic) (other : Nat) : Except JavaException Bool := do
  similar diag (← getAt sourceResult.diags other)

def sameMessage (diag other : Diagnostic) : Except JavaException Bool := .ok (diag.message == other.message)

/-- One round removes the repetitions behind the diagnostic at a place. -/
def removeRepeated (place : Nat) (diagnostics : List Nat) : Except JavaException (List Nat) := do
  let diag ← getAt sourceResult.diags (← getAt diagnostics place)
  Removal.sweep (compareSelected sourceResult sameMessage diag) place
    (diagnostics.take (place + 1)).reverse (diagnostics.drop (place + 1))

def removeExactlyRepeatedDiagnostics (diagnostics : List Nat) : Except JavaException (List Nat) :=
  Removal.rounds (removeRepeated sourceResult) diagnostics.length 0 diagnostics

/-- The name a diagnostic of the batch is about. -/
def getIdentifier (diag : Diagnostic) : Except JavaException String := do
  let arg ← getFirst diag.args
  if diag.hasID .errUndeclaredVarUse then
    match arg with
    | .declarationName name => return name
    | _ => throw .classCast
  else if diag.hasID .errUndeclaredVarUseSuggest then
    match arg with
    | .declarationName name | .identifier name => return name
    | _ => throw .classCast
  else if diag.hasID .errFuncDefIncompleteResult || diag.hasID .errTypecheckDeclIncompleteType then
    match arg with
    | .qualType qualType =>
      match ← nonNull qualType.type with
      | .record name _ | .enum name => return name
      | _ => return ""
    | _ => throw .classCast
  else
    match arg with
    | .identifier name => return name
    | _ => throw .classCast

def isUndeclaredVarUse (diag : Diagnostic) : Bool :=
  diag.hasID .errUndeclaredVarUse || diag.hasID .errUndeclaredVarUseSuggest

def isUnknownTypename (diag : Diagnostic) : Bool :=
  diag.hasID .errUnknownTypename || diag.hasID .errUnknownTypenameSuggest

def isStdIdentifier (diag : Diagnostic) : Bool := isUndeclaredVarUse diag || isUnknownTypename diag

def isIncompleteTag (diag : Diagnostic) : Bool :=
  diag.hasID .errTypecheckDeclIncompleteType || diag.hasID .errFuncDefIncompleteResult

def sameIdentifier (diag other : Diagnostic) : Except JavaException Bool := do
  return (← getIdentifier diag) == (← getIdentifier other)

/-- An undeclared variable does not take an unknown type name away. -/
def stdIdentifierSimilar (diag other : Diagnostic) : Except JavaException Bool :=
  if !isStdIdentifier other then .ok false
  else if isUndeclaredVarUse diag && isUnknownTypename other then .ok false
  else sameIdentifier diag other

def tagSimilar (diag other : Diagnostic) : Except JavaException Bool :=
  if !isIncompleteTag other then .ok false else sameIdentifier diag other

/-- One round of the other two passes goes over the whole list, and takes the
place of the diagnostic for the diagnostic. -/
def removeSimilarTo (relevant : Diagnostic → Bool)
    (similar : Diagnostic → Diagnostic → Except JavaException Bool) (place : Nat)
    (diagnostics : List Nat) : Except JavaException (List Nat) := do
  let diag ← getAt sourceResult.diags (← getAt diagnostics place)
  if !relevant diag then return diagnostics
  else Removal.sweep (compareSelected sourceResult similar diag) place [] diagnostics

def removeStdIdentifierSpaceSimilarDiagnostics (diagnostics : List Nat) : Except JavaException (List Nat) :=
  Removal.rounds (removeSimilarTo sourceResult isStdIdentifier stdIdentifierSimilar) diagnostics.length 0
    diagnostics

def removeTagSpaceSimilarDiagnostics (diagnostics : List Nat) : Except JavaException (List Nat) :=
  Removal.rounds (removeSimilarTo sourceResult isIncompleteTag tagSimilar) diagnostics.length 0 diagnostics

def removeSimilarDiagnostics (diagnostics : List Nat) : Except JavaException (List Nat) := do
  removeTagSpaceSimilarDiagnostics sourceResult
    (← removeStdIdentifierSpaceSimilarDiagnostics sourceResult diagnostics)

end Removal

namespace BasicMultiplePPErrorsAnalysis

def selectDiagnostics (sourceResult : DiagExporterSourceResult) : Except JavaException (List Nat) := do
  let missingPPFiles ← removeExactlyRepeatedDiagnostics sourceResult
    (sourceResult.getDiagIdxs (·.hasID .errPPFileNotFound))
  if !missingPPFiles.isEmpty then return missingPPFiles
  else BasicFirstErrorAnalysis.selectDiagnostics sourceResult

end BasicMultiplePPErrorsAnalysis

namespace BasicMultipleErrorsAnalysis

def missingPPFilesAndSymbolIDs : List DiagnosticID :=
  [.errPPFileNotFound, .errUnknownTypename, .errUnknownTypenameSuggest, .errUndeclaredVarUse,
    .errUndeclaredVarUseSuggest, .extImplicitFunctionDeclC99, .errNoMember,
    .errTypecheckDeclIncompleteType, .errFuncDefIncompleteResult]

def selectDiagnostics (sourceResult : DiagExporterSourceResult) : Except JavaException (List Nat) := do
  let repeated ← removeExactlyRepeatedDiagnostics sourceResult
    (sourceResult.getDiagIdxs fun diag => missingPPFilesAndSymbolIDs.contains diag.diagnosticID)
  let missingPPFilesAndSymbolDiags ← removeSimilarDiagnostics sourceResult repeated
  if !missingPPFilesAndSymbolDiags.isEmpty then return missingPPFilesAndSymbolDiags
  else BasicFirstErrorAnalysis.selectDiagnostics sourceResult

end BasicMultipleErrorsAnalysis

inductive DiagnosticAnalysis where
  | basicFirstError | basicMultiplePPErrors | basicMultipleErrors
deriving DecidableEq, Repr

def DiagnosticAnalysis.selectDiagnostics :
    DiagnosticAnalysis → DiagExporterSourceResult → Except JavaException (List Nat)
  | .basicFirstError => BasicFirstErrorAnalysis.selectDiagnostics
  | .basicMultiplePPErrors => BasicMultiplePPErrorsAnalysis.selectDiagnostics
  | .basicMultipleErrors => BasicMultipleErrorsAnalysis.selectDiagnostics

/-- The diagnostics an analysis selects from a result, in the order it lists them. -/
def Selects (analysis : DiagnosticAnalysis) (sourceResult : DiagExporterSourceResult)
    (batch : List Diagnostic) : Prop :=
  ∃ idxs, analysis.selectDiagnostics sourceResult = .ok idxs ∧
    idxs.mapM (getAt sourceResult.diags) = .ok batch

section Nonempty
variable {sourceResult : DiagExporterSourceResult} {idxs selected : List Nat}

theorem BasicFirstErrorAnalysis.selectDiagnostics_ne_nil
    (returned : BasicFirstErrorAnalysis.selectDiagnostics sourceResult = .ok idxs) : idxs ≠ [] := by
  obtain ⟨idx, _, single⟩ := except_bind_ok.mp returned
  obtain rfl := Except.ok.inj single
  exact List.cons_ne_nil idx []

/-- Where a selection has come out empty, the first error takes its place. -/
theorem orFirstError_ne_nil (returned : (if !selected.isEmpty then pure selected
      else BasicFirstErrorAnalysis.selectDiagnostics sourceResult : Except JavaException (List Nat)) = .ok idxs) :
    idxs ≠ [] := by
  cases empty : selected.isEmpty with
  | true =>
    rw [empty] at returned
    exact BasicFirstErrorAnalysis.selectDiagnostics_ne_nil returned
  | false =>
    rw [empty] at returned
    obtain rfl := Except.ok.inj returned
    simpa using empty

theorem Selects.ne_nil {analysis : DiagnosticAnalysis} {batch : List Diagnostic}
    (selects : Selects analysis sourceResult batch) : batch ≠ [] := by
  obtain ⟨idxs, returned, collected⟩ := selects
  have nonempty : idxs ≠ [] := by
    cases analysis with
    | basicFirstError => exact BasicFirstErrorAnalysis.selectDiagnostics_ne_nil returned
    | basicMultiplePPErrors =>
      obtain ⟨_, _, ended⟩ := except_bind_ok.mp returned
      exact orFirstError_ne_nil ended
    | basicMultipleErrors =>
      obtain ⟨_, _, rest⟩ := except_bind_ok.mp returned
      obtain ⟨_, _, ended⟩ := except_bind_ok.mp rest
      exact orFirstError_ne_nil ended
  rintro rfl
  exact nonempty (List.map_eq_nil_iff.mp (map_getElem?_of_mapM collected))

end Nonempty
end CMender
