import CMender.Foundations.Lines
import CMender.Foundations.Volumes
import CMender.Mending.Files

/-! The directory that a file is mended in. The source is not copied as it is: the copy
begins with a disclaimer and the directive that includes the mendfile, and the lines of
the source are written behind it one by one. -/
namespace CMender
open Foundations Foundations.Lines Foundations.Volumes

/-- The regular files and what they hold. Directories come with the files in them. -/
abbrev Disk := Volume String String

def mendingDisclaimerInSource : String := "\n".intercalate [
  "/* Source File Copy",
  " * This file was automatically mended by the CMender tool.",
  " * A header file with the necessary mends (symbol declarations) is included.",
  " * The mending process is not guaranteed to be correct, nor to preserve the original semantics.",
  " * The user should review the changes and test the code if needed.",
  " */"]

def sourceCopy (noDisclaimer : Bool) (mendfileName source : String) : String :=
  (if noDisclaimer then "" else mendingDisclaimerInSource ++ "\n") ++
    ("#include \"" ++ mendfileName ++ "\"") ++ "\n" ++ "\n" ++ String.ofList (writeLines (lines source.toList))

/-- A file to be mended, and the name that was drawn for its directory. -/
structure Job where
  source : Path
  id : String
deriving DecidableEq

/-- The parts of an invocation that say where files go and what they are called. -/
structure Workplace where
  base : Path
  output : Path
  mendfileName : String
  reportFilename : String
  sourceReportFilename : String
  noDisclaimer : Bool
  createMendfileCopyPerIteration : Bool
  outputDiagsOutput : Bool
  reportPerSource : Bool
  sha1 : String → String

/-- `getFileName`; the files that are mended have one. -/
def Path.fileName (path : Path) : String := path.getLastD ""

namespace Workplace
variable (workplace : Workplace) (job : Job)

def dirPath : Path := workplace.base ++ [job.id]
def sourceFileCopyPath : Path := workplace.dirPath job ++ [job.source.fileName]
def includePath : Path := workplace.dirPath job ++ ["includes"]
def diagsDirPath : Path := workplace.dirPath job ++ ["diagsOutputs"]
def mendfileCopiesDirPath : Path := workplace.dirPath job ++ ["mendfileCopies"]
def sourceReportPath : Path := workplace.dirPath job ++ [workplace.sourceReportFilename]
def mendfilePath : Path := workplace.includePath job ++ [workplace.mendfileName]

/-- The copy is opened before the source is, so that a source that cannot be read leaves an
empty copy in a directory that is not answered for. -/
def createMendingDir (disk : Disk) : Bool × Disk :=
  match disk job.source with
  | none => (false, write disk (workplace.sourceFileCopyPath job) "")
  | some source =>
    let copied := write disk (workplace.sourceFileCopyPath job)
      (sourceCopy workplace.noDisclaimer workplace.mendfileName source)
    (true, write copied (workplace.mendfilePath job) "")

end Workplace

section Lines
variable {noDisclaimer : Bool} {mendfileName : String}

def disclaimerLines : List (List Char) :=
  ["/* Source File Copy".toList,
    " * This file was automatically mended by the CMender tool.".toList,
    " * A header file with the necessary mends (symbol declarations) is included.".toList,
    " * The mending process is not guaranteed to be correct, nor to preserve the original semantics.".toList,
    " * The user should review the changes and test the code if needed.".toList,
    " */".toList]

/-- The lines in front of the source's own. -/
def copyHeader (noDisclaimer : Bool) (mendfileName : String) : List (List Char) :=
  (if noDisclaimer then [] else disclaimerLines) ++ [("#include \"" ++ mendfileName ++ "\"").toList, []]

def addedLines (noDisclaimer : Bool) : Nat := if noDisclaimer then 2 else 8

theorem length_copyHeader : (copyHeader noDisclaimer mendfileName).length = addedLines noDisclaimer := by
  cases noDisclaimer <;> rfl

theorem disclaimer_eq : (mendingDisclaimerInSource ++ "\n").toList = writeLines disclaimerLines := by
  have lineFeed : "\n".toList = ['\n'] := by decide
  rw [mendingDisclaimerInSource, String.toList_append, String.toList_intercalate, lineFeed]
  exact intercalate_lineFeed (List.cons_ne_nil _ _)

theorem unbroken_copyHeader (unbroken : Unbroken mendfileName.toList) :
    ∀ line ∈ copyHeader noDisclaimer mendfileName, Unbroken line := by
  have directive : Unbroken ("#include \"" ++ mendfileName ++ "\"").toList := by
    obtain ⟨noLineFeed, noReturn⟩ := unbroken
    constructor <;> simp [String.toList_append, noLineFeed, noReturn]
  have disclaimer : ∀ line ∈ disclaimerLines, Unbroken line := by decide +kernel
  intro line listed
  rcases List.mem_append.mp listed with front | behind
  · cases noDisclaimer with
    | true => cases front
    | false => exact disclaimer line front
  · rcases List.mem_cons.mp behind with rfl | last
    · exact directive
    · obtain rfl := List.mem_singleton.mp last
      exact unbroken_nil

/-- The copy is written line by line, first the header and then the source. -/
theorem sourceCopy_eq (noDisclaimer : Bool) (mendfileName source : String) :
    (sourceCopy noDisclaimer mendfileName source).toList =
      writeLines (copyHeader noDisclaimer mendfileName ++ lines source.toList) := by
  have directive : writeLines [("#include \"" ++ mendfileName ++ "\"").toList, []] =
      ("#include \"" ++ mendfileName ++ "\"").toList ++ ['\n', '\n'] := by
    simp [writeLines]
  have split (front behind : List (List Char)) :
      writeLines (front ++ behind) = writeLines front ++ writeLines behind := List.flatMap_append
  unfold sourceCopy copyHeader
  rw [split, split, directive]
  cases noDisclaimer with
  | true => simp [String.toList_append, writeLines]
  | false =>
    rw [if_neg Bool.false_ne_true, if_neg Bool.false_ne_true, ← disclaimer_eq]
    simp [String.toList_append]

theorem lines_sourceCopy (unbroken : Unbroken mendfileName.toList) (source : String) :
    lines (sourceCopy noDisclaimer mendfileName source).toList =
      copyHeader noDisclaimer mendfileName ++ lines source.toList := by
  rw [sourceCopy_eq]
  refine lines_writeLines fun line listed => ?_
  rcases List.mem_append.mp listed with front | behind
  · exact unbroken_copyHeader unbroken line front
  · exact unbroken_of_mem_lines behind

/-- The copy has the lines of the source, all moved down by the same number of lines, and
tells of the source nothing but its lines: how they end is lost. -/
theorem source_copy_keeps_lines (noDisclaimer : Bool) (mendfileName : String)
    (unbroken : Unbroken mendfileName.toList) (source other : String) :
    (∀ n, (lines (sourceCopy noDisclaimer mendfileName source).toList)[n + addedLines noDisclaimer]? =
      (lines source.toList)[n]?) ∧
    (sourceCopy noDisclaimer mendfileName source = sourceCopy noDisclaimer mendfileName other ↔
      lines source.toList = lines other.toList) := by
  constructor
  · intro n
    have length : (copyHeader noDisclaimer mendfileName).length = addedLines noDisclaimer := length_copyHeader
    rw [lines_sourceCopy unbroken, ← length, Nat.add_comm, List.getElem?_append_right (Nat.le_add_right _ _),
      Nat.add_sub_cancel_left]
  constructor
  · intro same
    have read := congrArg (fun text : String => lines text.toList) same
    rw [lines_sourceCopy unbroken, lines_sourceCopy unbroken] at read
    exact List.append_cancel_left read
  · intro same
    rw [← String.toList_inj, sourceCopy_eq, sourceCopy_eq, same]

theorem source_copy_keeps_lines_endings :
    sourceCopy false "cmender_mends.h" "int a;\r\nint b;" = sourceCopy false "cmender_mends.h" "int a;\nint b;\n" ∧
    (lines (sourceCopy false "cmender_mends.h" "int a;\r\nint b;").toList)[9]? = some "int b;".toList := by
  have kept := source_copy_keeps_lines false "cmender_mends.h" (by decide) "int a;\r\nint b;" "int a;\nint b;\n"
  exact ⟨kept.2.mpr (by decide), (kept.1 1).trans (by decide)⟩

end Lines
end CMender
