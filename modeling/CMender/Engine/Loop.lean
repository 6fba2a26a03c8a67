import CMender.Analysis.Selection
import CMender.Engine.Mendfile
import CMender.Foundations.Looping

/-! The mending loop for one source file. The exporter, the clock and the
iteration orders of hash maps are parameters; everything else is computed. -/
namespace CMender
open Foundations Foundations.Execution Foundations.Looping

/-- What the files of a mending directory and the mending table hold together. -/
structure EngineState where
  mending : MendingState
  mendfile : String

structure CMenderInvocation where
  diagnosticAnalysis : DiagnosticAnalysis
  continueOnUnknownDiagnostic : Bool
  createMendfileOnlyOnAlterations : Bool
  noDisclaimer : Bool

inductive DiagExporterFailure where
  | run | deserialization

/-- What the loop depends on besides its own state. The exporter may answer
anything, or fail, in each iteration. -/
structure Surroundings where
  exporter : Nat → EngineState → Except DiagExporterFailure (List DiagExporterSourceResult)
  timedOut : Nat → Bool
  order : Nat → IterationOrder
  buffering : Buffering
  sourceFile : String
  includePath : String

/-- The exporter reports errors only, and time does not run out. -/
def Surroundings.reporting (diags : Nat → EngineState → List Diagnostic) : Surroundings where
  exporter iteration s := .ok [.ofErrors (diags iteration s)]
  timedOut _ := false
  order _ := .listed
  buffering := .unbounded
  sourceFile := "source.c"
  includePath := "/includes"

/-- The same errors in every iteration. -/
def Surroundings.repeating (diags : List Diagnostic) : Surroundings := .reporting fun _ _ => diags

abbrev Engine := EStateM JavaException EngineState

/-- A program on the mending state, run in the engine. -/
def onMending {α : Type} (program : Mend α) : Engine α := fun s =>
  match program s.mending with
  | .ok a mending => .ok a { s with mending := mending }
  | .error e mending => .error e { s with mending := mending }

structure MendingIterationResult where
  terminationStatus : MendingTerminationStatus
  selectedDiagnostics : List Nat
  errorCount : Int
  fatalCount : Int
  mendfileSize : Nat
deriving DecidableEq, Repr

section Iteration
variable (surroundings : Surroundings) (invocation : CMenderInvocation)

def callDiagExporter (iteration : Nat) : Engine (List DiagExporterSourceResult) := do
  match surroundings.exporter iteration (← get) with
  | .ok results => return results
  | .error .run => throw (.fatal .diagExporter "could not export Clang diagnostics" iteration)
  | .error .deserialization =>
    throw (.fatal .diagExporterResultDeserialization "could not deserialize Clang diagnostics" iteration)

def addUnknownDiag (sourceResult : DiagExporterSourceResult) (idx : Nat) : Mend Unit := do
  let info ← raise (DiagnosticShortInfo.ofDiagnostic (← raise (getAt sourceResult.diags idx)))
  modifyTable fun table => { table with unknownDiags := table.unknownDiags ++ [info] }

/-- The mendfile is replaced by what the write leaves behind, and a failure goes on. -/
def rewriteMendfile (iteration : Nat) : Engine Unit := do
  let s ← get
  let write := writeMendfile surroundings.buffering (surroundings.order iteration)
    invocation.noDisclaimer s.mending.table s.mendfile
  set { s with mendfile := write.content }
  raise (match write.failure with
    | none => .ok ()
    | some error => .error error)

/-- The selected diagnostics are handed to the handler, one after another. -/
def mendSelected (iteration : Nat) (sourceResult : DiagExporterSourceResult) : Engine (List Nat) := do
  let selectedDiagIdxs ← raise (invocation.diagnosticAnalysis.selectDiagnostics sourceResult)
  let selectedDiags ← raise (selectedDiagIdxs.mapM (getAt sourceResult.diags))
  onMending (mend surroundings.includePath selectedDiags)
  if invocation.createMendfileOnlyOnAlterations then return selectedDiagIdxs
  else
    rewriteMendfile surroundings invocation iteration
    return selectedDiagIdxs

/-- The size of the mendfile is taken before it is written again. -/
def processDiagnostics (iteration : Nat) (sourceResult : DiagExporterSourceResult) :
    Engine MendingIterationResult := do
  let termination ← onMending (checkTermination sourceResult surroundings.sourceFile)
  let mendfileSize := (← get).mendfile.utf8ByteSize
  onMending (termination.unknownDiags.forM (addUnknownDiag sourceResult))
  if termination.success || termination.finishedPrematurely invocation.continueOnUnknownDiagnostic then
    return ⟨termination, [], sourceResult.errorCount, sourceResult.fatalCount, mendfileSize⟩
  else
    let selectedDiagIdxs ← mendSelected surroundings invocation iteration sourceResult
    return ⟨termination, selectedDiagIdxs, sourceResult.errorCount, sourceResult.fatalCount, mendfileSize⟩

/-- Whatever goes wrong after the exporter's result was taken is one fatal exception. -/
def mendingIteration (currentIteration : Nat) : Engine MendingIterationResult := do
  let sourceResults ← callDiagExporter surroundings currentIteration
  let sourceResult ← raise (getFirst sourceResults)
  onMending (modifyTable fun table => { table with fileSize := sourceResult.size })
  tryCatch (processDiagnostics surroundings invocation currentIteration sourceResult)
    fun _ => throw (.fatal .mending "could not process diagnostics" currentIteration)

end Iteration

structure SourceResult where
  success : Bool
  timeout : Bool
  fileSize : Int
  fatalException : Option JavaException
  iterationCount : Nat
  unknownDiags : List DiagnosticShortInfo
  mendingIterations : List MendingIterationResult

/-- The loop returns a result, or an exception that nothing catches leaves it. -/
structure MendOutcome where
  engine : EngineState
  iterations : Nat
  result : Except JavaException SourceResult

structure LoopState where
  engine : EngineState
  success : Bool
  finished : Bool
  detectedLoop : Bool
  currentIteration : Nat
  iterationResults : List MendingIterationResult
  unknownDiagsFrequency : Map String Nat

/-- The names have been used by the files before; the mending directory is new. -/
def LoopState.initial (names : MendingTypeNameGenerator) (files : FileSystem)
    (unknownDiagsFrequency : Map String Nat) : LoopState :=
  ⟨⟨.initial names files, ""⟩, false, false, false, 0, [], unknownDiagsFrequency⟩

/-- A label that is missing cannot be a key of the concurrent map. -/
def countUnknownDiag (frequency : Map String Nat) (unknownDiag : DiagnosticShortInfo) :
    Except JavaException (Map String Nat) := do
  let label ← nonNull unknownDiag.labelId
  return frequency.insert label ((frequency.lookup label).getD 0 + 1)

def LoopState.sourceResult (s : LoopState) (timeout : Bool) : SourceResult where
  success := s.success
  timeout := timeout
  fileSize := s.engine.mending.table.fileSize
  fatalException := none
  iterationCount := s.currentIteration
  unknownDiags := s.engine.mending.table.unknownDiags
  mendingIterations := s.iterationResults

/-- One round of the loop, with its condition in front. -/
def loopStep (surroundings : Surroundings) (invocation : CMenderInvocation) (s : LoopState) :
    LoopState ⊕ MendOutcome :=
  if s.finished || s.detectedLoop then .inr ⟨s.engine, s.currentIteration, .ok (s.sourceResult false)⟩
  else if surroundings.timedOut s.currentIteration then
    .inr ⟨s.engine, s.currentIteration, .ok (s.sourceResult true)⟩
  else
    let currentIteration := s.currentIteration + 1
    match mendingIteration surroundings invocation currentIteration s.engine with
    | .error (.fatal type message iteration) engine =>
      let stopped : LoopState := { s with
        engine := engine, success := false, currentIteration := currentIteration }
      .inr ⟨engine, currentIteration,
        .ok { stopped.sourceResult false with fatalException := some (.fatal type message iteration) }⟩
    | .error other engine => .inr ⟨engine, currentIteration, .error other⟩
    | .ok result engine =>
      match engine.mending.table.unknownDiags.foldlM countUnknownDiag s.unknownDiagsFrequency with
      | .error error => .inr ⟨engine, currentIteration, .error error⟩
      | .ok frequency =>
        let success := result.terminationStatus.success
        .inl ⟨engine, success,
          success || result.terminationStatus.finishedPrematurely invocation.continueOnUnknownDiagnostic,
          result.terminationStatus.terminationType == .detectedCycle, currentIteration,
          s.iterationResults ++ [result], frequency⟩

/-- The loop of one file, cut off after a number of rounds. -/
def mendLoop (surroundings : Surroundings) (invocation : CMenderInvocation) (fuel : Nat) (s : LoopState) :
    Option MendOutcome :=
  iterate (loopStep surroundings invocation) fuel s

end CMender
