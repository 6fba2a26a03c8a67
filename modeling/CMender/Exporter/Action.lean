import CMender.Exporter.Consumer

/-! The exporter's process. It has one slot for each regular file it is given,
filled with a placeholder before Clang runs; an action that reaches the end of
its source file replaces the placeholder of its number. Neither a file that Clang
could not begin nor the result of the tool changes the exit code. -/
namespace CMender.Exporter
open Foundations

/-- What becomes of a path that the tool is given. -/
inductive ActionRun where
  /-- No compile command was found, or the driver refused it. -/
  | notCreated
  /-- The compiler could not begin the source file. -/
  | stopped
  | ended (main : MainFile) (actionTimeNs : BitVec 32) (diags : List ClangDiagnostic)

structure SourcePath where
  path : String
  isRegularFile : Bool
  run : ActionRun

/-- An entry of `individualDiagsInfos`, with the path it was written for. -/
inductive Slot where
  | placeholder
  | written (path : String) (info : DiagsInfo)

def placeholderJson : Json :=
  .object ([("file", .null), ("size", .number (-1)), ("actionTimeNs", .number (-1))] ++
    DiagnosticCounts.zero.members ++ [("diags", .array [])])

def Slot.toJson : Slot → Json
  | .placeholder => placeholderJson
  | .written _ info => info.toJson

structure ExporterState where
  fileIdCounter : Nat
  individualDiagsInfos : List Slot

def setTotalFiles (totalFiles : Nat) : List Slot := List.replicate totalFiles .placeholder

/-- Writing behind the last slot is undefined. -/
def endSourceFileAction (fileId : Nat) (path : String) (info : DiagsInfo) (slots : List Slot) :
    Option (List Slot) :=
  if fileId < slots.length then some (slots.set fileId (.written path info)) else none

/-- The tool on one path: the action takes the next number when it is created. -/
def runPath (clang : Compilation) (state : ExporterState) (source : SourcePath) : Option ExporterState :=
  match source.run with
  | .notCreated => some state
  | .stopped => some { state with fileIdCounter := state.fileIdCounter + 1 }
  | .ended main actionTimeNs diags => do
    let info ← JsonDiagnosticConsumer.exported clang main actionTimeNs diags
    return ⟨state.fileIdCounter + 1,
      ← endSourceFileAction state.fileIdCounter source.path info state.individualDiagsInfos⟩

def validateThreadNum (threads hardwareThreads files : Nat) : Nat :=
  let threadNum := min threads hardwareThreads
  if files < threadNum then files else threadNum

/-- The mender leaves the number of threads at one. With no thread left, a file to
allocate is taken from an empty queue, which is undefined. -/
def exporterMain (clang : Compilation) (hardwareThreads : Nat) (sources : List SourcePath) :
    Option (List Slot) :=
  let sourceFiles := sources.filter (·.isRegularFile)
  let slots := setTotalFiles sourceFiles.length
  if validateThreadNum 1 hardwareThreads sourceFiles.length = 1 then do
    return (← sources.foldlM (runPath clang) ⟨0, slots⟩).individualDiagsInfos
  else if sourceFiles.isEmpty then some slots else none

/-- The document that is written before the process exits with code 0. -/
def resultsJson (slots : List Slot) : Json := .array (slots.map Slot.toJson)

/-- Whether the action of a path reaches `EndSourceFileAction`. -/
def SourcePath.Ends (source : SourcePath) : Prop :=
  ∃ main actionTimeNs diags, source.run = .ended main actionTimeNs diags

theorem SourcePath.not_ends {source : SourcePath} (run : source.run = .notCreated ∨ source.run = .stopped) :
    ¬ source.Ends := by
  rintro ⟨main, actionTimeNs, diags, ended⟩
  rcases run with notCreated | stopped
  · cases notCreated.symm.trans ended
  · cases stopped.symm.trans ended

/-- The slot was written at the end of the source file, for that file. -/
def WrittenFor (clang : Compilation) (source : SourcePath) (slot : Slot) (info : DiagsInfo) : Prop :=
  slot = .written source.path info ∧ ∃ main actionTimeNs diags,
    source.run = .ended main actionTimeNs diags ∧
      JsonDiagnosticConsumer.exported clang main actionTimeNs diags = some info

section SingleFile
variable {clang : Compilation} {hardwareThreads : Nat} {source : SourcePath} {slots : List Slot}

/-- From the state before any action, one path leaves the placeholder or replaces it. -/
theorem runPath_single {last : ExporterState} (ran : runPath clang ⟨0, [.placeholder]⟩ source = some last) :
    ¬ source.Ends ∧ last.individualDiagsInfos = [.placeholder] ∨
      ∃ slot info, last.individualDiagsInfos = [slot] ∧ WrittenFor clang source slot info := by
  cases run : source.run with
  | notCreated =>
    simp only [runPath, run] at ran
    obtain rfl := Option.some.inj ran
    exact .inl ⟨SourcePath.not_ends (.inl run), rfl⟩
  | stopped =>
    simp only [runPath, run] at ran
    obtain rfl := Option.some.inj ran
    exact .inl ⟨SourcePath.not_ends (.inr run), rfl⟩
  | ended main actionTimeNs diags =>
    simp only [runPath, run] at ran
    obtain ⟨info, isExported, ran⟩ := Option.bind_eq_some_iff.mp ran
    obtain ⟨written, replaced, returned⟩ := Option.bind_eq_some_iff.mp ran
    obtain rfl := Option.some.inj returned
    obtain rfl : [Slot.written source.path info] = written := Option.some.inj replaced
    exact .inr ⟨_, info, rfl, rfl, main, actionTimeNs, diags, run, isExported⟩

/-- The slots of a run on a single path: none for a path that is no regular file,
and otherwise one, which stays a placeholder unless the action ends. -/
theorem exporterMain_single (exited : exporterMain clang hardwareThreads [source] = some slots) :
    source.isRegularFile = false ∧ slots = [] ∨
    source.isRegularFile = true ∧ (¬ source.Ends ∧ slots = [.placeholder] ∨
      ∃ slot info, slots = [slot] ∧ WrittenFor clang source slot info) := by
  cases regular : source.isRegularFile with
  | false =>
    left
    have noThread : validateThreadNum 1 hardwareThreads 0 ≠ 1 := by
      simp only [validateThreadNum]
      split <;> omega
    simp only [exporterMain, List.filter_cons, regular, Bool.false_eq_true, if_false, List.filter_nil,
      List.length_nil, if_neg noThread, List.isEmpty_nil, if_true] at exited
    exact ⟨rfl, (Option.some.inj exited).symm⟩
  | true =>
    right
    refine ⟨rfl, ?_⟩
    simp only [exporterMain, List.filter_cons, regular, if_true, List.filter_nil, List.length_singleton,
      List.isEmpty_cons, Bool.false_eq_true, if_false, setTotalFiles, List.replicate_one] at exited
    split at exited
    · obtain ⟨last, ran, returned⟩ := Option.bind_eq_some_iff.mp exited
      obtain rfl := Option.some.inj returned
      rw [List.foldlM_cons] at ran
      obtain ⟨only, first, nothing⟩ := Option.bind_eq_some_iff.mp ran
      obtain rfl := Option.some.inj nothing
      exact runPath_single first
    · cases exited

end SingleFile
end CMender.Exporter
