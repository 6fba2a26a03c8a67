import Mathlib.Algebra.BigOperators.Fin
import CMender.Engine.Execute

/-! The tasks of the pool against the loop of a single thread. Whatever the order of
their steps, the tasks of all files bring the counters to the same values; the loop
skips the files without a mending directory, which the tasks count. -/
namespace CMender
open Foundations Foundations.Execution Foundations.Interleaving

section Steps
variable {reportPerSource : Bool} {tally after : Tally} {task next : Task}

/-- What a step of a task can do. -/
inductive TaskMove (reportPerSource : Bool) (tally : Tally) (task : Task) : Tally → Task → Prop where
  | escaped {e} : task.outcome = .error e → task.stage = .submitted →
      TaskMove reportPerSource tally task tally { task with stage := .failed }
  | countedSuccess {bundle} : task.outcome = .ok bundle → task.stage = .submitted →
      TaskMove reportPerSource tally task (tally.countSuccess bundle) { task with stage := .successCounted }
  | countedException {bundle} : task.outcome = .ok bundle → task.stage = .successCounted →
      TaskMove reportPerSource tally task (tally.countException bundle) { task with stage := .exceptionCounted }
  | reported {bundle reported} : task.outcome = .ok bundle → task.stage = .exceptionCounted →
      tally.reportSource reportPerSource task.index bundle = .ok reported →
      TaskMove reportPerSource tally task reported { task with stage := .reported }
  | unreported {bundle e} : task.outcome = .ok bundle → task.stage = .exceptionCounted →
      tally.reportSource reportPerSource task.index bundle = .error e →
      TaskMove reportPerSource tally task tally { task with stage := .failed }
  | kept {bundle} : task.outcome = .ok bundle → task.stage = .reported →
      TaskMove reportPerSource tally task (tally.keepDir task.index bundle) { task with stage := .done }

theorem taskMove_of_step (stepped : taskStep reportPerSource tally task = some (after, next)) :
    TaskMove reportPerSource tally task after next := by
  unfold taskStep at stepped
  split at stepped
  · rename_i outcome stage
    cases stepped
    exact .escaped outcome stage
  · rename_i outcome stage
    cases stepped
    exact .countedSuccess outcome stage
  · rename_i outcome stage
    cases stepped
    exact .countedException outcome stage
  · rename_i outcome stage
    split at stepped
    · rename_i reported
      cases stepped
      exact .reported outcome stage reported
    · rename_i failed
      cases stepped
      exact .unreported outcome stage failed
  · rename_i outcome stage
    cases stepped
    exact .kept outcome stage
  · cases stepped

/-- A task that has come to its end is done, or an exception has ended it. -/
theorem ended_of_no_step (stuck : taskStep reportPerSource tally task = none)
    {bundle : MendBundle} (outcome : task.outcome = .ok bundle) : task.stage = .done ∨ task.stage = .failed := by
  unfold taskStep at stuck
  rw [outcome] at stuck
  cases stage : task.stage with
  | done => exact .inl rfl
  | failed => exact .inr rfl
  | exceptionCounted =>
    simp only [stage] at stuck
    split at stuck <;> cases stuck
  | submitted => simp [stage] at stuck
  | successCounted => simp [stage] at stuck
  | reported => simp [stage] at stuck

theorem reportSource_ok {i : Nat} {bundle : MendBundle} {reported : Tally}
    (returned : tally.reportSource reportPerSource i bundle = .ok reported) :
    reported.successCount = tally.successCount ∧ reported.exceptionCount = tally.exceptionCount ∧
      reported.mendingDirDatas = tally.mendingDirDatas := by
  unfold Tally.reportSource at returned
  split at returned
  · obtain ⟨_, _, rest⟩ := except_bind_ok.mp returned
    cases rest
    exact ⟨rfl, rfl, rfl⟩
  · obtain ⟨_, _, rest⟩ := except_bind_ok.mp returned
    cases rest
    exact ⟨rfl, rfl, rfl⟩

/-- What a task has added to the count of successes. -/
def Task.successes (task : Task) : Nat :=
  match task.outcome with
  | .error _ => 0
  | .ok bundle => if task.stage = .submitted then 0 else if bundle.sourceResult.success then 1 else 0

def Task.exceptions (task : Task) : Nat :=
  match task.outcome with
  | .error _ => 0
  | .ok bundle =>
    if task.stage = .submitted ∨ task.stage = .successCounted then 0
    else if bundle.sourceResult.fatalException.isSome then 1 else 0

/-- What a task has put into its slot. -/
def Task.slot (task : Task) : Option MendingDirData :=
  match task.outcome with
  | .error _ => none
  | .ok bundle => if task.stage = .done then bundle.mendingDirData else none

theorem TaskMove.successes (move : TaskMove reportPerSource tally task after next) :
    after.successCount + task.successes = tally.successCount + next.successes := by
  cases move with
  | escaped outcome stage => simp [Task.successes, outcome]
  | countedSuccess outcome stage => simp [Task.successes, outcome, stage, Tally.countSuccess]
  | countedException outcome stage => simp [Task.successes, outcome, stage, Tally.countException]
  | reported outcome stage returned => simp [Task.successes, outcome, stage, (reportSource_ok returned).1]
  | unreported outcome stage => simp [Task.successes, outcome, stage]
  | kept outcome stage => simp [Task.successes, outcome, stage, Tally.keepDir]

theorem TaskMove.exceptions (move : TaskMove reportPerSource tally task after next) :
    after.exceptionCount + task.exceptions = tally.exceptionCount + next.exceptions := by
  cases move with
  | escaped outcome stage => simp [Task.exceptions, outcome]
  | countedSuccess outcome stage => simp [Task.exceptions, outcome, stage, Tally.countSuccess]
  | countedException outcome stage => simp [Task.exceptions, outcome, stage, Tally.countException]
  | reported outcome stage returned => simp [Task.exceptions, outcome, stage, (reportSource_ok returned).2.1]
  | unreported outcome stage => simp [Task.exceptions, outcome, stage]
  | kept outcome stage => simp [Task.exceptions, outcome, stage, Tally.keepDir]

theorem TaskMove.slots (move : TaskMove reportPerSource tally task after next) :
    after.mendingDirDatas = tally.mendingDirDatas ∧ next.slot = task.slot ∨
      after.mendingDirDatas = tally.mendingDirDatas.set task.index next.slot := by
  cases move with
  | escaped outcome stage => exact .inl ⟨rfl, by simp [Task.slot, outcome]⟩
  | countedSuccess outcome stage => exact .inl ⟨rfl, by simp [Task.slot, outcome, stage]⟩
  | countedException outcome stage => exact .inl ⟨rfl, by simp [Task.slot, outcome, stage]⟩
  | reported outcome stage returned =>
    exact .inl ⟨(reportSource_ok returned).2.2, by simp [Task.slot, outcome, stage]⟩
  | unreported outcome stage => exact .inl ⟨rfl, by simp [Task.slot, outcome, stage]⟩
  | kept outcome stage => exact .inr (by simp [Task.slot, outcome, Tally.keepDir])

theorem TaskMove.same (move : TaskMove reportPerSource tally task after next) :
    next.index = task.index ∧ next.outcome = task.outcome := by
  cases move <;> exact ⟨rfl, rfl⟩

/-- With reports per source, only a missing directory makes a task fail. -/
def FailsWithoutDir (task : Task) : Prop := ∀ bundle, task.outcome = .ok bundle → task.stage = .failed →
  bundle.mendingDirData = none

theorem reportSource_written {i : Nat} {bundle : MendBundle} {dir : MendingDirData}
    (found : bundle.mendingDirData = some dir) : tally.reportSource true i bundle = .ok tally := by
  unfold Tally.reportSource Tally.writeSourceReport
  rw [found]
  rfl

theorem reportSource_error {i : Nat} {bundle : MendBundle} {e : JavaException}
    (thrown : tally.reportSource true i bundle = .error e) : bundle.mendingDirData = none := by
  cases dir : bundle.mendingDirData with
  | none => rfl
  | some found =>
    rw [reportSource_written dir] at thrown
    cases thrown

theorem TaskMove.failsWithoutDir (move : TaskMove true tally task after next) : FailsWithoutDir next := by
  intro bundle outcome stage
  cases move with
  | escaped thrown => cases thrown.symm.trans outcome
  | countedSuccess => cases stage
  | countedException => cases stage
  | reported => cases stage
  | unreported own _ thrown =>
    obtain rfl := Except.ok.inj (own.symm.trans outcome)
    exact reportSource_error thrown
  | kept => cases stage

end Steps

section Pools
variable {reportPerSource : Bool} {tasks : List FileTask} {c : Config (Fin tasks.length) Tally Task}
  {schedule : List (Fin tasks.length)}

/-- The tally is what the tasks have come to. -/
structure Tallied (tasks : List FileTask) (c : Config (Fin tasks.length) Tally Task) : Prop where
  same : ∀ i, (c.workers i).index = i ∧ (c.workers i).outcome = (tasks.get i).outcome
  successes : c.shared.successCount = ∑ i, (c.workers i).successes
  exceptions : c.shared.exceptionCount = ∑ i, (c.workers i).exceptions
  slots : c.shared.mendingDirDatas = List.ofFn fun i => (c.workers i).slot

theorem tallied_submitted : Tallied tasks (submitted reportPerSource tasks) := by
  have unfilled {amount : Task → Nat} (nothing : ∀ index outcome, amount ⟨index, outcome, .submitted⟩ = 0) :
      ∑ i, amount ((submitted reportPerSource tasks).workers i) = 0 :=
    Finset.sum_eq_zero fun i _ => nothing i tasks[i].outcome
  refine ⟨fun _ => ⟨rfl, rfl⟩, (unfilled fun _ outcome => ?_).symm, (unfilled fun _ outcome => ?_).symm, ?_⟩
  · cases outcome <;> rfl
  · cases outcome <;> rfl
  · have empty : ∀ i, ((submitted reportPerSource tasks).workers i).slot = none := by
      intro i
      unfold Task.slot
      cases ((submitted reportPerSource tasks).workers i).outcome <;> rfl
    simp only [empty]
    exact (List.ofFn_const _ _).symm

theorem set_ofFn {n : Nat} {α : Type} (f : Fin n → α) (i : Fin n) (value : α) :
    (List.ofFn f).set i value = List.ofFn (Function.update f i value) := by
  apply List.ext_getElem
  · simp
  · intro k before after
    by_cases same : k = i
    · subst same
      simp
    · have other : (⟨k, by simpa using after⟩ : Fin n) ≠ i := fun equal => same (congrArg Fin.val equal)
      simp [Ne.symm same, other]

theorem Tallied.turn {i : Fin tasks.length} {d : Config (Fin tasks.length) Tally Task} (tallied : Tallied tasks c)
    (taken : Turn (taskStep reportPerSource) c i d) : Tallied tasks d := by
  have successes := taken.balanced Tally.successCount Task.successes
    (fun stepped => (taskMove_of_step stepped).successes) tallied.successes
  have exceptions := taken.balanced Tally.exceptionCount Task.exceptions
    (fun stepped => (taskMove_of_step stepped).exceptions) tallied.exceptions
  obtain ⟨tally, task, stepped, rfl⟩ := turn_iff.mp taken
  have move := taskMove_of_step stepped
  refine ⟨fun j => ?_, successes, exceptions, ?_⟩
  · change (Function.update c.workers i task j).index = j ∧ (Function.update c.workers i task j).outcome = _
    by_cases own : j = i
    · subst own
      rw [Function.update_self, move.same.1, move.same.2]
      exact tallied.same j
    · rw [Function.update_of_ne own]
      exact tallied.same j
  · change tally.mendingDirDatas = List.ofFn fun j => (Function.update c.workers i task j).slot
    have moved : (fun j => (Function.update c.workers i task j).slot) =
        Function.update (fun j => (c.workers j).slot) i task.slot := Function.comp_update Task.slot c.workers i task
    rcases move.slots with ⟨same, unmoved⟩ | set
    · rw [moved, unmoved, Function.update_eq_self, same, tallied.slots]
    · rw [moved, ← set_ofFn, ← tallied.slots, set, (tallied.same i).1]

theorem tallied_run (run : Reaches (Turn (taskStep reportPerSource)) (submitted reportPerSource tasks) schedule c) :
    Tallied tasks c :=
  run.invariant (P := Tallied tasks) (fun tallied taken => tallied.turn taken) tallied_submitted

theorem failsWithoutDir_run (run : Reaches (Turn (taskStep true)) (submitted true tasks) schedule c) :
    ∀ i, FailsWithoutDir (c.workers i) := by
  refine run.invariant (P := fun c => ∀ i, FailsWithoutDir (c.workers i)) (fun {c i d} fails taken => ?_) ?_
  · intro j
    obtain ⟨tally, task, stepped, rfl⟩ := turn_iff.mp taken
    change FailsWithoutDir (Function.update c.workers i task j)
    by_cases own : j = i
    · rw [own, Function.update_self]
      exact (taskMove_of_step stepped).failsWithoutDir
    · rw [Function.update_of_ne own]
      exact fails j
  · intro i bundle _ stage
    cases stage

/-- No task can go on. -/
def Completed (reportPerSource : Bool) (c : Config (Fin tasks.length) Tally Task) : Prop :=
  ∀ i, taskStep reportPerSource c.shared (c.workers i) = none

end Pools

/-- The counters of a file, and whether the loop comes to see them. -/
def MendBundle.successes (bundle : MendBundle) : Nat := if bundle.sourceResult.success then 1 else 0

def MendBundle.exceptions (bundle : MendBundle) : Nat := if bundle.sourceResult.fatalException.isSome then 1 else 0

def MendBundle.seenExceptions (bundle : MendBundle) : Nat :=
  if bundle.mendingDirData.isNone then 0 else bundle.exceptions

def returning (files : List (String × MendBundle)) : List FileTask :=
  files.map fun file => ⟨file.1, .ok file.2⟩

section Sums
variable {files : List (String × MendBundle)} {c : Config (Fin (returning files).length) Tally Task}
  {schedule : List (Fin (returning files).length)}

theorem outcome_returning (i : Fin (returning files).length) :
    ∃ bundle, (returning files)[i].outcome = .ok bundle := by
  have member : (returning files)[i] ∈ returning files := List.getElem_mem _
  obtain ⟨file, _, same⟩ := List.mem_map.mp member
  exact ⟨file.2, by rw [← same]⟩

/-- What is read off the bundle of a task; an exception leaves nothing to read. -/
def FileTask.read {α : Type} (own : MendBundle → α) (otherwise : α) (task : FileTask) : α :=
  match task.outcome with
  | .error _ => otherwise
  | .ok bundle => own bundle

theorem read_returning {α : Type} {read : Task → α} {own : MendBundle → α} (otherwise : α)
    (each : ∀ i bundle, (returning files)[i].outcome = .ok bundle → read (c.workers i) = own bundle) (i) :
    read (c.workers i) = (returning files)[i.1].read own otherwise := by
  obtain ⟨bundle, outcome⟩ := outcome_returning i
  have outcome' : (returning files)[i.1].outcome = .ok bundle := outcome
  rw [each i bundle outcome, FileTask.read, outcome']

theorem map_read_returning {α : Type} {own : MendBundle → α} {otherwise : α} :
    (returning files).map (FileTask.read own otherwise) = files.map fun file => own file.2 := by
  rw [returning, List.map_map]
  rfl

theorem sum_returning {amount : Task → Nat} {own : MendBundle → Nat}
    (each : ∀ i bundle, (returning files)[i].outcome = .ok bundle → amount (c.workers i) = own bundle) :
    ∑ i, amount (c.workers i) = (files.map fun file => own file.2).sum := by
  rw [Finset.sum_congr rfl fun i _ => read_returning 0 each i, Fin.sum_univ_fun_getElem, map_read_returning]

/-- When all tasks have come to their end, every file has been counted and has its
directory in its slot. -/
theorem tally_completed
    (run : Reaches (Turn (taskStep true)) (submitted true (returning files)) schedule c)
    (completed : Completed true c) :
    c.shared.successCount = (files.map fun file => file.2.successes).sum ∧
      c.shared.exceptionCount = (files.map fun file => file.2.exceptions).sum ∧
      c.shared.mendingDirDatas = files.map fun file => file.2.mendingDirData := by
  have tallied := tallied_run run
  have ended : ∀ i bundle, (returning files)[i].outcome = .ok bundle →
      (c.workers i).outcome = .ok bundle ∧ ((c.workers i).stage = .done ∨ (c.workers i).stage = .failed) := by
    intro i bundle outcome
    have own := (tallied.same i).2.trans outcome
    exact ⟨own, ended_of_no_step (completed i) own⟩
  refine ⟨?successes, ?exceptions, ?slots⟩
  case successes =>
    rw [tallied.successes]
    apply sum_returning
    intro i bundle outcome
    obtain ⟨own, stage⟩ := ended i bundle outcome
    rcases stage with stage | stage <;> simp [Task.successes, MendBundle.successes, own, stage]
  case exceptions =>
    rw [tallied.exceptions]
    apply sum_returning
    intro i bundle outcome
    obtain ⟨own, stage⟩ := ended i bundle outcome
    rcases stage with stage | stage <;> simp [Task.exceptions, MendBundle.exceptions, own, stage]
  case slots =>
    have each : ∀ i bundle, (returning files)[i].outcome = .ok bundle →
        (c.workers i).slot = bundle.mendingDirData := by
      intro i bundle outcome
      obtain ⟨own, stage⟩ := ended i bundle outcome
      rcases stage with stage | stage
      · simp [Task.slot, own, stage]
      · rw [failsWithoutDir_run run i bundle own stage]
        simp [Task.slot, own, stage]
    have slots : (fun i => (c.workers i).slot) =
        fun i : Fin (returning files).length => (returning files)[i.1].read MendBundle.mendingDirData none :=
      funext (read_returning none each)
    rw [tallied.slots, slots, List.ofFn_getElem_eq_map, map_read_returning]

end Sums

section Single
variable {files : List (String × MendBundle)}

theorem executeFile_returning (tally : Tally) (file : String) (bundle : MendBundle) (place : Nat) :
    ∃ after, executeFile true tally (⟨file, .ok bundle⟩, place) = .ok after ∧
      after.successCount = tally.successCount + bundle.successes ∧
      after.exceptionCount = tally.exceptionCount + bundle.seenExceptions ∧
      (bundle.mendingDirData = none ∧ after.mendingDirDatas = tally.mendingDirDatas ∨
        after.mendingDirDatas = tally.mendingDirDatas.set place bundle.mendingDirData) := by
  cases dir : bundle.mendingDirData with
  | none =>
    refine ⟨tally, ?_, ?_, ?_, .inl ⟨rfl, rfl⟩⟩
    · refine except_bind_ok.mpr ⟨bundle, rfl, ?_⟩
      rw [dir]
      rfl
    · rw [MendBundle.successes, (bundle.notCreated dir).1]
      rfl
    · rw [MendBundle.seenExceptions, dir]
      rfl
  | some found =>
    refine ⟨((tally.countSuccess bundle).countException bundle).keepDir place bundle, ?_, rfl, ?_, .inr ?_⟩
    · refine except_bind_ok.mpr ⟨bundle, rfl, ?_⟩
      rw [dir]
      exact except_bind_ok.mpr ⟨_, reportSource_written dir, rfl⟩
    · rw [MendBundle.seenExceptions, dir]
      rfl
    · simp only [Tally.keepDir, Tally.countException, Tally.countSuccess, dir]

/-- The loop over the files that are left, behind those whose slots are settled. -/
theorem foldlM_executeFile {tally : Tally} {settled : List (Option MendingDirData)}
    (slots : tally.mendingDirDatas = settled ++ List.replicate files.length none) :
    ∃ after, ((returning files).zipIdx settled.length).foldlM (executeFile true) tally = .ok after ∧
      after.successCount = tally.successCount + (files.map fun file => file.2.successes).sum ∧
      after.exceptionCount = tally.exceptionCount + (files.map fun file => file.2.seenExceptions).sum ∧
      after.mendingDirDatas = settled ++ files.map fun file => file.2.mendingDirData := by
  induction files generalizing tally settled with
  | nil => exact ⟨tally, rfl, rfl, rfl, slots⟩
  | cons file rest ih =>
    obtain ⟨middle, first, successes, exceptions, kept⟩ :=
      executeFile_returning tally file.1 file.2 settled.length
    have slots' : middle.mendingDirDatas =
        (settled ++ [file.2.mendingDirData]) ++ List.replicate rest.length none := by
      rcases kept with ⟨none, same⟩ | set
      · rw [same, slots, none, List.append_assoc]
        rfl
      · rw [set, slots, List.length_cons, List.replicate_succ, List.append_assoc]
        simp
    obtain ⟨after, later, successes', exceptions', slots''⟩ := ih slots'
    refine ⟨after, ?_, ?_, ?_, ?_⟩
    · rw [List.length_append] at later
      exact except_bind_ok.mpr ⟨middle, first, later⟩
    · rw [successes', successes, List.map_cons, List.sum_cons]
      omega
    · rw [exceptions', exceptions, List.map_cons, List.sum_cons]
      omega
    · rw [slots'', List.append_assoc]
      rfl

theorem executeSingle_returning (files : List (String × MendBundle)) : ∃ tally : Tally,
    executeSingle true (returning files) = tally.report true ((returning files).map (·.file)) ∧
      tally.successCount = (files.map fun file => file.2.successes).sum ∧
      tally.exceptionCount = (files.map fun file => file.2.seenExceptions).sum ∧
      tally.mendingDirDatas = files.map fun file => file.2.mendingDirData := by
  have unsettled : (Tally.start true (returning files).length).mendingDirDatas =
      [] ++ List.replicate files.length none := by
    rw [returning, List.length_map]
    rfl
  obtain ⟨tally, looped, successes, exceptions, slots⟩ := foldlM_executeFile unsettled
  refine ⟨tally, ?_, successes.trans (Nat.zero_add _), exceptions.trans (Nat.zero_add _), slots⟩
  unfold executeSingle
  rw [show (returning files).zipIdx = (returning files).zipIdx [].length from rfl, looped]
  rfl

/-- The loop misses one exception for each file without a mending directory. -/
theorem sum_exceptions (files : List (String × MendBundle)) :
    (files.map fun file => file.2.exceptions).sum = (files.map fun file => file.2.seenExceptions).sum +
      files.countP fun file => file.2.mendingDirData.isNone := by
  induction files with
  | nil => rfl
  | cons file rest ih =>
    rw [List.map_cons, List.sum_cons, List.map_cons, List.sum_cons, List.countP_cons, ih]
    cases dir : file.2.mendingDirData with
    | none =>
      have one : file.2.exceptions = 1 := if_pos (file.2.notCreated dir).2
      have unseen : file.2.seenExceptions = 0 := if_pos (by rw [dir]; rfl)
      rw [one, unseen, Option.isNone_none, if_pos rfl]
      omega
    | some found =>
      have seen : file.2.seenExceptions = file.2.exceptions := if_neg (by rw [dir]; exact nofun)
      rw [seen, if_neg (by exact nofun)]
      omega

end Single

/-- Whatever the schedule of the pool, its report agrees with that of the loop just
when all mending directories could be created. -/
theorem thread_modes_agree_iff (files : List (String × MendBundle))
    (schedule : List (Fin (returning files).length)) (c : Config (Fin (returning files).length) Tally Task)
    (run : Reaches (Turn (taskStep true)) (submitted true (returning files)) schedule c)
    (completed : Completed true c) :
    ∃ single pooled, executeSingle true (returning files) = .ok single ∧
      c.shared.report true ((returning files).map (·.file)) = .ok pooled ∧
      ((single.successCount = pooled.successCount ∧ single.unsuccessfulCount = pooled.unsuccessfulCount ∧
          single.fatalExceptionCount = pooled.fatalExceptionCount ∧
          single.nullMendingDirs = pooled.nullMendingDirs) ↔
        ∀ file ∈ files, file.2.mendingDirData.isSome = true) := by
  obtain ⟨successes, exceptions, slots⟩ := tally_completed run completed
  obtain ⟨tally, looped, successes', exceptions', slots'⟩ := executeSingle_returning files
  refine ⟨_, _, looped, rfl, ?_⟩
  have missed := sum_exceptions files
  have created : (files.countP fun file => file.2.mendingDirData.isNone) = 0 ↔
      ∀ file ∈ files, file.2.mendingDirData.isSome = true := by
    simp [List.countP_eq_zero, Option.isSome_iff_ne_none]
  rw [← created]
  dsimp only
  rw [successes, exceptions, slots, successes', exceptions', slots']
  constructor
  · rintro ⟨_, _, same, _⟩
    omega
  · intro none
    exact ⟨rfl, rfl, by omega, rfl⟩

/-- A file that was mended, and one that could not be processed. -/
def mendedBundle : MendBundle :=
  ⟨{ Report.SourceResult.mendingDirNotCreated with success := true, fatalException := none },
    some ⟨"/mending/a.c", "/mending/includes", "/mending/source_report.json"⟩, nofun, fun _ => rfl⟩

def failedBundle : MendBundle :=
  ⟨{ Report.SourceResult.mendingDirNotCreated with
      fatalException := some (.fatal .mending "could not process diagnostics" 1) },
    some ⟨"/mending/b.c", "/mending/includes", "/mending/source_report.json"⟩, nofun, nofun⟩

def threeBundles : List (String × MendBundle) :=
  [("a.c", mendedBundle), ("b.c", failedBundle), ("c.c", mendedBundle)]

/-- The tasks take turns, and the last one overtakes the others. -/
theorem thread_modes_agree_three : ∃ schedule c single pooled,
    Reaches (Turn (taskStep true)) (submitted true (returning threeBundles)) schedule c ∧ Completed true c ∧
    executeSingle true (returning threeBundles) = .ok single ∧
    c.shared.report true ["a.c", "b.c", "c.c"] = .ok pooled ∧ single.successCount = pooled.successCount ∧
    pooled.successCount = 2 ∧ single.unsuccessfulCount = pooled.unsuccessfulCount ∧
    single.fatalExceptionCount = pooled.fatalExceptionCount ∧ pooled.fatalExceptionCount = 1 ∧
    single.nullMendingDirs = pooled.nullMendingDirs := by
  have ran : ∃ c, Reaches (Turn (taskStep true)) (submitted true (returning threeBundles))
      [⟨0, by decide⟩, ⟨1, by decide⟩, ⟨2, by decide⟩, ⟨2, by decide⟩, ⟨2, by decide⟩, ⟨1, by decide⟩,
        ⟨0, by decide⟩, ⟨2, by decide⟩, ⟨0, by decide⟩, ⟨1, by decide⟩, ⟨1, by decide⟩, ⟨0, by decide⟩] c ∧
      Completed true c ∧ c.shared.successCount = 2 ∧ c.shared.exceptionCount = 1 := by
    refine ⟨_, .next rfl (.next rfl (.next rfl (.next rfl (.next rfl (.next rfl (.next rfl (.next rfl (.next rfl
      (.next rfl (.next rfl (.next rfl (.refl _)))))))))))), ?_, rfl, rfl⟩
    rintro ⟨_ | _ | _ | i, bound⟩
    · rfl
    · rfl
    · rfl
    · exact absurd bound (by simp [returning, threeBundles])
  obtain ⟨c, run, completed, two, one⟩ := ran
  obtain ⟨single, pooled, looped, reported, agree⟩ := thread_modes_agree_iff threeBundles _ c run completed
  obtain ⟨successes, failures, exceptions, dirs⟩ := agree.mpr (by decide)
  have counts : pooled.successCount = c.shared.successCount ∧
      pooled.fatalExceptionCount = c.shared.exceptionCount := by
    cases reported
    exact ⟨rfl, rfl⟩
  refine ⟨_, c, single, pooled, run, completed, looped, reported, successes, ?_, failures, exceptions, ?_, dirs⟩
  · rw [counts.1, two]
  · rw [counts.2, one]

/-- The exception of a missing directory is counted by the task and not by the loop. -/
theorem missing_dir_counted_differently : ∃ c single pooled,
    Reaches (Turn (taskStep true)) (submitted true (returning [("a.c", .mendingDirNotCreated)]))
      (List.replicate 3 ⟨0, Nat.one_pos⟩) c ∧
    Completed true c ∧ executeSingle true (returning [("a.c", .mendingDirNotCreated)]) = .ok single ∧
    c.shared.report true ["a.c"] = .ok pooled ∧ single.fatalExceptionCount = 0 ∧
    pooled.fatalExceptionCount = 1 := by
  refine ⟨_, _, _, .next rfl (.next rfl (.next rfl (.refl _))), fun i => ?_, rfl, rfl, rfl, rfl⟩
  obtain ⟨i, bound⟩ := i
  obtain rfl := Nat.lt_one_iff.mp bound
  rfl

end CMender
