import CMender.Engine.Result
import CMender.Foundations.Interleaving

/-! All files of an invocation, mended one after another or by a pool of threads.
What the files have in common are two counters and two arrays; the array of results
is there only when the results are written file by file, and null when they are to
be collected. -/
namespace CMender
open Foundations Foundations.Execution Foundations.Interleaving

/-- A valid file, and what its mending comes to. -/
structure FileTask where
  file : String
  outcome : Except JavaException MendBundle

structure Tally where
  successCount : Nat
  exceptionCount : Nat
  sourceResults : Option (List (Option Report.SourceResult))
  mendingDirDatas : List (Option MendingDirData)

structure CMenderReport where
  totalFiles : Nat
  successCount : Nat
  unsuccessfulCount : Int
  fatalExceptionCount : Nat
  nullMendingDirs : List String
  sourceResults : List (Option Report.SourceResult)

namespace Tally

def start (reportPerSource : Bool) (files : Nat) : Tally where
  successCount := 0
  exceptionCount := 0
  sourceResults := if reportPerSource then some (List.replicate files none) else none
  mendingDirDatas := List.replicate files none

def countSuccess (tally : Tally) (bundle : MendBundle) : Tally :=
  { tally with successCount := tally.successCount + if bundle.sourceResult.success then 1 else 0 }

def countException (tally : Tally) (bundle : MendBundle) : Tally :=
  { tally with exceptionCount := tally.exceptionCount + if bundle.sourceResult.fatalException.isSome then 1 else 0 }

/-- A missing directory is a null pointer; the writing itself succeeds. -/
def writeSourceReport (mendingDirData : Option MendingDirData) (_sourceResult : Report.SourceResult) :
    Except JavaException Unit := do
  let _sourceReportPath := (← nonNull mendingDirData).sourceReportPath
  return ()

def reportSource (tally : Tally) (reportPerSource : Bool) (i : Nat) (bundle : MendBundle) :
    Except JavaException Tally := do
  if reportPerSource then
    writeSourceReport bundle.mendingDirData bundle.sourceResult
    return tally
  else
    let sourceResults ← nonNull tally.sourceResults
    return { tally with sourceResults := some (sourceResults.set i (some bundle.sourceResult)) }

def keepDir (tally : Tally) (i : Nat) (bundle : MendBundle) : Tally :=
  { tally with mendingDirDatas := tally.mendingDirDatas.set i bundle.mendingDirData }

/-- The report over what has been tallied. Ratios and frequencies follow from the rest. -/
def report (tally : Tally) (reportPerSource : Bool) (files : List String) : Except JavaException CMenderReport := do
  let sourceResults ← if reportPerSource then pure [] else nonNull tally.sourceResults
  return {
    totalFiles := files.length
    successCount := tally.successCount
    unsuccessfulCount := files.length - tally.successCount
    fatalExceptionCount := tally.exceptionCount
    nullMendingDirs := (files.zip tally.mendingDirDatas).filterMap fun entry =>
      if entry.2.isNone then some entry.1 else none
    sourceResults := sourceResults }

end Tally

/-- One round of the single-threaded loop. A file without a mending directory is
skipped before anything is counted. -/
def executeFile (reportPerSource : Bool) (tally : Tally) (indexed : FileTask × Nat) : Except JavaException Tally := do
  let bundle ← indexed.1.outcome
  if bundle.mendingDirData.isNone then return tally
  else
    let counted := (tally.countSuccess bundle).countException bundle
    let reported ← counted.reportSource reportPerSource indexed.2 bundle
    return reported.keepDir indexed.2 bundle

def executeSingle (reportPerSource : Bool) (tasks : List FileTask) : Except JavaException CMenderReport := do
  let tally ← tasks.zipIdx.foldlM (executeFile reportPerSource) (.start reportPerSource tasks.length)
  tally.report reportPerSource (tasks.map (·.file))

/-- How far a submitted task has come. -/
inductive TaskStage where
  | submitted | successCounted | exceptionCounted | reported | done | failed
deriving DecidableEq, Repr

structure Task where
  index : Nat
  outcome : Except JavaException MendBundle
  stage : TaskStage

/-- The steps of a task on what it shares. Counters are atomic, each task has slots of
its own, and an exception ends the task unseen. -/
def taskStep (reportPerSource : Bool) (tally : Tally) (task : Task) : Option (Tally × Task) :=
  match task.outcome, task.stage with
  | .error _, .submitted => some (tally, { task with stage := .failed })
  | .ok bundle, .submitted => some (tally.countSuccess bundle, { task with stage := .successCounted })
  | .ok bundle, .successCounted => some (tally.countException bundle, { task with stage := .exceptionCounted })
  | .ok bundle, .exceptionCounted =>
    match tally.reportSource reportPerSource task.index bundle with
    | .ok reported => some (reported, { task with stage := .reported })
    | .error _ => some (tally, { task with stage := .failed })
  | .ok bundle, .reported => some (tally.keepDir task.index bundle, { task with stage := .done })
  | _, _ => none

def submitted (reportPerSource : Bool) (tasks : List FileTask) : Config (Fin tasks.length) Tally Task :=
  ⟨.start reportPerSource tasks.length, fun i => ⟨i, tasks[i].outcome, .submitted⟩⟩

end CMender
