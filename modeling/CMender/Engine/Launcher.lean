import CMender.Engine.Execute
import CMender.Engine.SourceCopy
import Mathlib.Data.List.ReduceOption

/-! A run of the tool from the files it is given to the results it leaves. Each file is
mended in a directory of its own; afterwards the directories are exported one by one until
an export fails, and all of them are deleted. -/
namespace CMender
open Foundations Foundations.Execution Foundations.Volumes

namespace ResultsExporter
variable (workplace : Workplace) (medium : Medium String String)

def mendingDirName (job : Job) : String := job.source.fileName ++ "_" ++ workplace.sha1 job.source.text

def mendingOutputPath (job : Job) : Path := workplace.output ++ [mendingDirName workplace job]

/-- Making a directory changes no file. -/
def createDirectories (path : Path) : EStateM Unit Disk Unit := operate medium path id

def exportMendingDir (job : Job) : EStateM Unit Disk Unit := do
  let out := mendingOutputPath workplace job
  createDirectories medium out
  transfer medium (workplace.sourceFileCopyPath job) (out ++ [job.source.fileName]) .file
  if workplace.createMendfileCopyPerIteration then
    transfer medium (workplace.mendfileCopiesDirPath job) (out ++ ["mendfileCopies"]) .directory
  transfer medium (workplace.includePath job) (out ++ ["includes"]) .directory
  if workplace.outputDiagsOutput then
    transfer medium (workplace.diagsDirPath job) (out ++ ["diagsOutputs"]) .directory
  if workplace.reportPerSource then
    transfer medium (workplace.sourceReportPath job) (out ++ [workplace.sourceReportFilename]) .file

/-- A null directory is passed over. -/
def exportMendingDirs (mendingDirDatas : List (Option Job)) : EStateM Unit Disk Unit :=
  mendingDirDatas.forM fun
    | none => pure ()
    | some job => exportMendingDir workplace medium job

/-- The first exception ends the export; it is reported, and that is all. -/
def exportResults (report : String) (mendingDirDatas : List (Option Job)) : EStateM Unit Disk Unit :=
  tryCatch (do
    createDirectories medium workplace.output
    let reportFilePath := workplace.output ++ [workplace.reportFilename]
    operate medium reportFilePath (write · reportFilePath report)
    exportMendingDirs workplace medium mendingDirDatas) fun _ => pure ()

end ResultsExporter

namespace Launcher
variable (workplace : Workplace) (medium : Medium String String)

/-- A directory that cannot be deleted does not keep the others from being deleted. -/
def deleteMendingDirs (mendingDirDatas : List (Option Job)) : EStateM Unit Disk Unit :=
  mendingDirDatas.forM fun
    | none => pure ()
    | some job =>
      let directory := workplace.dirPath job
      tryCatch (operate medium directory (deleteDirectory directory)) fun _ => pure ()

/-- The jobs whose directories `execute` has kept. -/
def mendingDirDatas (jobs : List Job) (tally : Tally) : List (Option Job) :=
  List.zipWith (fun job dir => if dir.isSome then some job else none) jobs tally.mendingDirDatas

/-- What `main` does with the answer of `execute`, which is null when there are no files. -/
def main (executed : Except JavaException (Option Tally)) (jobs : List Job) (report : String) (disk : Disk) :
    Except JavaException Disk := do
  let tally ← nonNull (← executed)
  let program := do
    ResultsExporter.exportResults workplace medium report (mendingDirDatas jobs tally)
    deleteMendingDirs workplace medium (mendingDirDatas jobs tally)
  return endState (program disk)

end Launcher

/-- What happens to the files while they are mended, in whatever order the threads do it. -/
inductive WorkEvent where
  | created (job : Job)
  | wrote (job : Job) (name : String) (rest : List String) (content : String)
  | header (job : Job) (header : String)

namespace Workplace
variable (workplace : Workplace)

/-- The names that are taken in a mending directory besides that of the copy. -/
def ownNames : List String := ["mendfileCopies", "includes", "diagsOutputs", workplace.sourceReportFilename]

/-- Where a missing header is created; `..` may lead anywhere. -/
def headerPath (job : Job) (header : String) : Path :=
  Path.normalise [] (workplace.includePath job ++ Path.components header)

/-- A file that is there is not created again. -/
def workStep (disk : Disk) : WorkEvent → Disk
  | .created job => (workplace.createMendingDir job disk).2
  | .wrote job name rest content => write disk (workplace.dirPath job ++ name :: rest) content
  | .header job header =>
    let path := workplace.headerPath job header
    write disk path ((disk path).getD "")

/-- The jobs do not get in each other's way, and their sources are somewhere else. -/
structure Separate (jobs : List Job) : Prop where
  distinct : jobs.Nodup
  directories : Apart workplace.output workplace.base
  ids : ∀ job ∈ jobs, ∀ other ∈ jobs, job.id = other.id → job = other
  outputs : ∀ job ∈ jobs, ∀ other ∈ jobs,
    ResultsExporter.mendingDirName workplace job = ResultsExporter.mendingDirName workplace other → job = other
  report : ∀ job ∈ jobs, workplace.reportFilename ≠ ResultsExporter.mendingDirName workplace job
  names : ∀ job ∈ jobs, (job.source.fileName :: workplace.ownNames).Nodup
  sources : ∀ job ∈ jobs, ¬ workplace.base <+: job.source

end Workplace

/-- The work is about the jobs. What is written goes to their directories, without the copies of
the sources; headers are created anywhere. -/
def WorkEvent.Of (workplace : Workplace) (jobs : List Job) : WorkEvent → Prop
  | .created job => job ∈ jobs
  | .wrote job name _ _ => job ∈ jobs ∧ name ∈ workplace.ownNames
  | .header job _ => job ∈ jobs

section Exports
variable {workplace : Workplace} {medium : Medium String String} {job : Job} {disk after : Disk}

open ResultsExporter

namespace ResultsExporter

/-- What is exported of a directory, in order. -/
def exportedEntries (workplace : Workplace) (job : Job) : List (Kind × String) :=
  [(.file, job.source.fileName)] ++
  (if workplace.createMendfileCopyPerIteration then [(.directory, "mendfileCopies")] else []) ++
  [(.directory, "includes")] ++
  (if workplace.outputDiagsOutput then [(.directory, "diagsOutputs")] else []) ++
  (if workplace.reportPerSource then [(.file, workplace.sourceReportFilename)] else [])

/-- Nothing stands in the way of exporting a directory. -/
structure Exportable (workplace : Workplace) (medium : Medium String String) (disk : Disk) (job : Job) : Prop where
  output : medium.fails (mendingOutputPath workplace job) = false
  entries : ∀ kind name, (kind, name) ∈ exportedEntries workplace job →
    Ready medium (workplace.dirPath job ++ [name]) (mendingOutputPath workplace job ++ [name]) kind disk

/-- The results of a job are where they are looked for. -/
def Delivered (workplace : Workplace) (before after : Disk) (job : Job) : Prop :=
  ∀ kind name, (kind, name) ∈ exportedEntries workplace job →
    Transferred (workplace.dirPath job ++ [name]) (mendingOutputPath workplace job ++ [name]) before after kind

end ResultsExporter

variable {jobs earlier later : List Job} {other : Job}

theorem entry_below (workplace : Workplace) (job : Job) (name : String) :
    workplace.base <+: workplace.dirPath job ++ [name] :=
  (List.prefix_append _ _).trans (List.prefix_append _ _)

theorem ResultsExporter.Exportable.congr (same : ∀ path, workplace.base <+: path → after path = disk path)
    (exportable : Exportable workplace medium disk job) : Exportable workplace medium after job :=
  ⟨exportable.output, fun kind name listed => (exportable.entries kind name listed).congr fun path below =>
    same path ((entry_below workplace job name).trans below)⟩

theorem ResultsExporter.Delivered.congr {before : Disk} {disk' : Disk}
    (sources : ∀ path, workplace.base <+: path → disk path = before path)
    (targets : ∀ path, mendingOutputPath workplace job <+: path → disk' path = after path)
    (delivered : Delivered workplace disk after job) : Delivered workplace before disk' job :=
  fun kind name listed => (delivered kind name listed).congr
    (fun path below => sources path ((entry_below workplace job name).trans below))
    (fun path below => targets path ((List.prefix_append _ _).trans below))

def exports (workplace : Workplace) (medium : Medium String String) (jobs : List Job) : EStateM Unit Disk Unit :=
  jobs.forM (exportMendingDir workplace medium)

end Exports

section Deletions
variable {workplace : Workplace} {medium : Medium String String} {jobs : List Job} {job : Job} {disk : Disk}

open Launcher

end Deletions

section Work
variable {workplace : Workplace} {jobs : List Job} {job : Job} {disk : Disk} {event : WorkEvent} {source : String}

theorem sameOutside_createMendingDir :
    SameOutside (workplace.dirPath job) disk (workplace.createMendingDir job disk).2 := by
  have inside {path : Path} (below : workplace.dirPath job <+: path) (volume : Disk) (content : String) :
      SameOutside (workplace.dirPath job) volume (write volume path content) :=
    (sameOutside_write path content).widen below
  have copy : workplace.dirPath job <+: workplace.sourceFileCopyPath job := List.prefix_append _ _
  have mendfile : workplace.dirPath job <+: workplace.mendfilePath job :=
    (List.prefix_append _ _).trans (List.prefix_append _ _)
  unfold Workplace.createMendingDir
  cases disk job.source with
  | none => exact inside copy _ _
  | some source => exact (inside copy _ _).trans (inside mendfile _ _)

/-- The copy of a source that could be read. -/
def Copied (workplace : Workplace) (job : Job) (source : String) (disk : Disk) : Prop :=
  disk (workplace.sourceFileCopyPath job) = some (sourceCopy workplace.noDisclaimer workplace.mendfileName source)

theorem copied_createMendingDir (found : disk job.source = some source) :
    Copied workplace job source (workplace.createMendingDir job disk).2 := by
  have longer : ¬ workplace.mendfilePath job <+: workplace.sourceFileCopyPath job := by
    intro inside
    have length := inside.length_le
    simp [Workplace.mendfilePath, Workplace.includePath, Workplace.sourceFileCopyPath] at length
  unfold Workplace.createMendingDir Copied
  rw [found]
  exact (sameOutside_write (workplace.mendfilePath job) "" _ longer).trans write_self

theorem workStep_header {header : String} {path : Path} {content : String} (found : disk path = some content) :
    workplace.workStep disk (.header job header) path = some content := by
  by_cases same : path = workplace.headerPath job header
  · rw [Workplace.workStep, ← same, found]
    exact write_self
  · exact (if_neg same).trans found

theorem Copied.workStep (separate : workplace.Separate jobs) (member : job ∈ jobs) (own : event.Of workplace jobs)
    (found : disk job.source = some source) (copied : Copied workplace job source disk) :
    Copied workplace job source (workplace.workStep disk event) := by
  have below : workplace.dirPath job <+: workplace.sourceFileCopyPath job := List.prefix_append _ _
  have outside {other : Job} (also : other ∈ jobs) (different : other ≠ job) :
      ¬ workplace.dirPath other <+: workplace.sourceFileCopyPath job := by
    have ids : other.id ≠ job.id := fun same => different (separate.ids other also job member same)
    exact (apart_of_ne ids).outside below
  cases event with
  | header other header => exact workStep_header copied
  | created other =>
    by_cases same : other = job
    · subst same
      exact copied_createMendingDir found
    · exact (sameOutside_createMendingDir _ (outside own same)).trans copied
  | wrote other name rest content =>
    refine (sameOutside_write _ _ _ ?_).trans copied
    by_cases same : other = job
    · subst same
      -- the names that work goes on under are not that of the copy
      intro inside
      obtain ⟨rfl, _⟩ := List.cons_prefix_cons.mp ((List.prefix_append_right_inj _).mp inside)
      exact (List.nodup_cons.mp (separate.names other member)).1 own.2
    · exact fun inside => outside own.1 same ((List.prefix_append _ _).trans inside)

end Work

section Runs
variable {workplace : Workplace} {medium : Medium String String} {jobs : List Job}

open ResultsExporter Launcher

/-- The disk after an export: the report is written first. -/
def exported (workplace : Workplace) (medium : Medium String String) (report : String) (kept : List Job) (disk : Disk) :
    Disk :=
  endState ((do
    createDirectories medium workplace.output
    operate medium (workplace.output ++ [workplace.reportFilename])
      (write · (workplace.output ++ [workplace.reportFilename]) report)
    exports workplace medium kept : EStateM Unit Disk Unit) disk)

end Runs
end CMender
