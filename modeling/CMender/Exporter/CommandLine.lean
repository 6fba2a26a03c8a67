import CMender.Exporter.Action
import CMender.Exporter.Allocator

/-! What the exporter makes of its command line. The slots and the batches are for the
regular files among the paths, and the number of threads is cut down twice before it
sizes the queue. With one thread the tool runs on all the paths, so the numbers of its
actions and the slots are counted on two different lists. -/
namespace CMender.Exporter
open Foundations Foundations.Execution

/-- A path of the command line. The file system gives a size for a regular file, and
none when the path is missing, is something else or cannot be asked about. -/
structure CommandPath where
  path : String
  fileSize : Option Nat
  run : ActionRun

namespace CommandPath

def source (path : CommandPath) : SourcePath := ⟨path.path, path.fileSize.isSome, path.run⟩

/-- The file, if it is taken; `idCounter` counts the files before it. -/
def sourceFile? (path : CommandPath) (idCounter : Nat) : Option SourceFile :=
  path.fileSize.map fun fileSize => ⟨path.path, BitVec.ofNat 32 fileSize, BitVec.ofNat 32 idCounter⟩

end CommandPath

/-- The loop over the paths; a path that is skipped takes no `id`. -/
def sourceFilesFrom : Nat → List CommandPath → List SourceFile
  | _, [] => []
  | idCounter, path :: rest =>
    match path.sourceFile? idCounter with
    | none => sourceFilesFrom idCounter rest
    | some file => file :: sourceFilesFrom (idCounter + 1) rest

def sourceFilesOf (paths : List CommandPath) : List SourceFile := sourceFilesFrom 0 paths

/-- How the files are worked off. -/
inductive ExporterMode where
  | singleThreaded
  | threaded (started : List ThreadSourceBatch)

/-- The branch with several threads. Taking a batch from an empty queue is undefined, and
so is reading one behind the end of `threadSourceBatches`. -/
def StandardLibrary.threadedMode (std : StandardLibrary) (threadNum : Nat) (sourceFiles : List SourceFile) :
    Option ExporterMode := do
  let threadSourceBatches ← std.allocateGreedyMinHeap threadNum sourceFiles
  let started ← (List.range threadNum).mapM (threadSourceBatches[·]?)
  return .threaded started

def StandardLibrary.exporterMode (std : StandardLibrary) (threads hardwareThreads : BitVec 32)
    (paths : List CommandPath) : Option ExporterMode :=
  let sourceFiles := sourceFilesOf paths
  let threadNum := validateThreadNum threads.toNat hardwareThreads.toNat sourceFiles.length
  if threadNum = 1 then some .singleThreaded else std.threadedMode threadNum sourceFiles

section Files
variable {paths : List CommandPath}

theorem length_sourceFilesFrom (idCounter : Nat) (paths : List CommandPath) :
    (sourceFilesFrom idCounter paths).length = paths.countP (·.fileSize.isSome) := by
  induction paths generalizing idCounter with
  | nil => rfl
  | cons path rest ih =>
    cases sized : path.fileSize with
    | none => simp [sourceFilesFrom, CommandPath.sourceFile?, sized, ih]
    | some fileSize => simp [sourceFilesFrom, CommandPath.sourceFile?, sized, ih]

theorem length_sourceFilesOf : (sourceFilesOf paths).length = paths.countP (·.fileSize.isSome) :=
  length_sourceFilesFrom 0 paths

theorem sourceFilesOf_eq_nil : sourceFilesOf paths = [] ↔ ∀ path ∈ paths, path.fileSize = none := by
  rw [← List.length_eq_zero_iff, length_sourceFilesOf, List.countP_eq_zero]
  refine forall₂_congr fun path _ => ?_
  cases path.fileSize <;> simp

end Files

/-! ### The number of threads -/

section Threads
variable (std : StandardLibrary) {threadNum : Nat} {sourceFiles : List SourceFile}

theorem validateThreadNum_eq_zero (threads hardwareThreads files : Nat) :
    validateThreadNum threads hardwareThreads files = 0 ↔ threads = 0 ∨ hardwareThreads = 0 ∨ files = 0 := by
  unfold validateThreadNum
  dsimp only
  split <;> omega

/-- Without a batch there is none on top for the first file. -/
theorem allocateGreedyMinHeap_zero :
    (std.allocateGreedyMinHeap 0 sourceFiles).isSome = true ↔ sourceFiles = [] := by
  have sorted := (std.sort_perm sourceFiles).length_eq
  rw [← List.length_eq_zero_iff, ← sorted, StandardLibrary.allocateGreedyMinHeap, List.replicate_zero]
  cases std.sort sourceFiles with
  | nil => exact iff_of_true rfl rfl
  | cons file rest =>
    refine iff_of_false ?_ (Nat.succ_ne_zero _)
    rw [List.foldlM_cons, PriorityQueue.place, std.queue.pop_none.mpr rfl]
    exact Bool.false_ne_true

theorem mapM_getElem_isSome {α : Type} {items : List α} {indices : List Nat}
    (inside : ∀ i ∈ indices, i < items.length) : (indices.mapM (items[·]?)).isSome = true := by
  induction indices with
  | nil => rfl
  | cons i rest ih =>
    obtain ⟨read, reads⟩ := Option.isSome_iff_exists.mp (ih fun j later => inside j (List.mem_cons_of_mem _ later))
    have here := List.getElem?_eq_getElem (inside i List.mem_cons_self)
    rw [List.mapM_cons, here, reads]
    rfl

theorem threadedMode_isSome_iff :
    (std.threadedMode threadNum sourceFiles).isSome = true ↔ sourceFiles = [] ∨ threadNum ≠ 0 := by
  by_cases none : threadNum = 0
  · subst none
    have starts : (std.threadedMode 0 sourceFiles).isSome = (std.allocateGreedyMinHeap 0 sourceFiles).isSome := by
      rw [StandardLibrary.threadedMode]
      cases std.allocateGreedyMinHeap 0 sourceFiles <;> rfl
    rw [starts, allocateGreedyMinHeap_zero]
    simp
  · refine iff_of_true ?_ (.inr none)
    obtain ⟨batches, allocated, counted, _⟩ :=
      allocateGreedyMinHeap_keeps std (Nat.pos_of_ne_zero none) sourceFiles
    have inside : ∀ i ∈ List.range threadNum, i < batches.length := by
      intro i listed
      rw [counted]
      exact List.mem_range.mp listed
    obtain ⟨started, reads⟩ := Option.isSome_iff_exists.mp (mapM_getElem_isSome inside)
    refine Option.isSome_iff_exists.mpr ⟨.threaded started, ?_⟩
    exact Option.bind_eq_some_iff.mpr ⟨batches, allocated, Option.bind_eq_some_iff.mpr ⟨started, reads, rfl⟩⟩

theorem exporterMode_isSome {threads hardwareThreads : BitVec 32} {paths : List CommandPath} :
    (std.exporterMode threads hardwareThreads paths).isSome = true ↔ sourceFilesOf paths = [] ∨
      validateThreadNum threads.toNat hardwareThreads.toNat (sourceFilesOf paths).length ≠ 0 := by
  rw [StandardLibrary.exporterMode]
  split
  · rename_i single
    exact iff_of_true rfl (.inr (by omega))
  · exact threadedMode_isSome_iff std

/-- For every option and machine the exporter has a batch where it takes one, unless it is
left without a thread and there is a file. -/
theorem exporterMode_isSome_iff (threads hardwareThreads : BitVec 32) (paths : List CommandPath) :
    (std.exporterMode threads hardwareThreads paths).isSome = true ↔
      (∀ path ∈ paths, path.fileSize = none) ∨ threads ≠ 0 ∧ hardwareThreads ≠ 0 := by
  have zero : ∀ number : BitVec 32, number.toNat = 0 ↔ number = 0 := by
    intro number
    rw [← BitVec.toNat_inj]
    exact Iff.rfl
  have noThread := validateThreadNum_eq_zero threads.toNat hardwareThreads.toNat (sourceFilesOf paths).length
  rw [zero, zero, List.length_eq_zero_iff] at noThread
  rw [← sourceFilesOf_eq_nil, exporterMode_isSome, Ne, noThread, not_or, not_or, ← and_assoc]
  by_cases empty : sourceFilesOf paths = []
  · exact iff_of_true (.inl empty) (.inl empty)
  · exact or_congr_right (and_iff_left empty)

/-- `-t 0` with a file, and a file on a machine that does not tell its threads. -/
theorem no_thread_for_file :
    let file : CommandPath := ⟨"a.c", some 10, .stopped⟩
    StandardLibrary.stable.exporterMode 0 8 [file] = none ∧ StandardLibrary.stable.exporterMode 4 0 [file] = none := by
  intro file
  have undefined : ∀ threads hardwareThreads : BitVec 32,
      validateThreadNum threads.toNat hardwareThreads.toNat 1 = 0 →
        StandardLibrary.stable.exporterMode threads hardwareThreads [file] = none := by
    intro threads hardwareThreads noThread
    rw [← Option.not_isSome_iff_eq_none, exporterMode_isSome]
    exact not_or.mpr ⟨List.cons_ne_nil _ _, not_not.mpr noThread⟩
  exact ⟨undefined 0 8 (by decide), undefined 4 0 (by decide)⟩

end Threads

/-! ### The slots of a single thread -/

section Slots
variable {clang : Compilation} {paths : List CommandPath}

/-- The `fileId`s with which the actions of a run index `individualDiagsInfos`. -/
def endedFileIds : Nat → List SourcePath → List Nat
  | _, [] => []
  | fileIdCounter, source :: rest =>
    match source.run with
    | .notCreated => endedFileIds fileIdCounter rest
    | .stopped => endedFileIds (fileIdCounter + 1) rest
    | .ended .. => fileIdCounter :: endedFileIds (fileIdCounter + 1) rest

/-- Every diagnostic of the run has a group to be added to. -/
def SourcePath.Exports (clang : Compilation) (source : SourcePath) : Prop :=
  ∀ main actionTimeNs diags, source.run = .ended main actionTimeNs diags → Grouped clang diags

/-- A run is defined when its actions find the slots of their numbers. -/
theorem runPaths_isSome_iff {sources : List SourcePath} {state : ExporterState}
    (exports : ∀ source ∈ sources, source.Exports clang) :
    (sources.foldlM (runPath clang) state).isSome = true ↔
      ∀ fileId ∈ endedFileIds state.fileIdCounter sources, fileId < state.individualDiagsInfos.length := by
  induction sources generalizing state with
  | nil => exact iff_of_true rfl fun _ listed => absurd listed List.not_mem_nil
  | cons source rest ih =>
    have later := fun source listed => exports source (List.mem_cons_of_mem _ listed)
    rw [List.foldlM_cons]
    cases run : source.run with
    | notCreated =>
      simp only [runPath, run, endedFileIds]
      exact ih later
    | stopped =>
      simp only [runPath, run, endedFileIds]
      exact ih later
    | ended main actionTimeNs diags =>
      have isExported : JsonDiagnosticConsumer.exported clang main actionTimeNs diags = some _ :=
        JsonDiagnosticConsumer.exported_iff.mpr
          ⟨exports source List.mem_cons_self main actionTimeNs diags run, rfl⟩
      simp only [runPath, run, endedFileIds, isExported, endSourceFileAction, List.forall_mem_cons]
      by_cases inside : state.fileIdCounter < state.individualDiagsInfos.length
      · simp only [inside, if_true, true_and]
        refine (ih later).trans ?_
        rw [List.length_set]
      · simp only [inside, if_false, false_and]
        exact iff_of_false Bool.false_ne_true id

/-- When each path takes a number, an action's number is the position of its path. -/
theorem mem_endedFileIds {sources : List SourcePath} {fileIdCounter fileId : Nat}
    (created : ∀ source ∈ sources, source.run ≠ .notCreated) :
    fileId ∈ endedFileIds fileIdCounter sources ↔
      ∃ (i : Nat) (source : SourcePath), sources[i]? = some source ∧ source.Ends ∧ fileId = fileIdCounter + i := by
  induction sources generalizing fileIdCounter with
  | nil => simp [endedFileIds]
  | cons first rest ih =>
    have later := @ih (fileIdCounter + 1) fun source listed => created source (List.mem_cons_of_mem _ listed)
    have split : (∃ (i : Nat) (source : SourcePath), (first :: rest)[i]? = some source ∧ source.Ends ∧
        fileId = fileIdCounter + i) ↔ first.Ends ∧ fileId = fileIdCounter ∨
          fileId ∈ endedFileIds (fileIdCounter + 1) rest := by
      rw [later]
      constructor
      · rintro ⟨_ | i, source, at_i, ended, numbered⟩
        · obtain rfl := Option.some.inj at_i
          exact .inl ⟨ended, numbered⟩
        · exact .inr ⟨i, source, at_i, ended, by omega⟩
      · rintro (⟨ended, numbered⟩ | ⟨i, source, at_i, ended, numbered⟩)
        · exact ⟨0, first, rfl, ended, numbered⟩
        · exact ⟨i + 1, source, at_i, ended, by omega⟩
    rw [split]
    cases run : first.run with
    | notCreated => exact absurd run (created first List.mem_cons_self)
    | stopped =>
      have never : ¬ first.Ends := SourcePath.not_ends (.inr run)
      simp only [endedFileIds, run, never, false_and, false_or]
    | ended main actionTimeNs diags =>
      have ends : first.Ends := ⟨main, actionTimeNs, diags, run⟩
      simp only [endedFileIds, run, ends, true_and, List.mem_cons]

theorem countP_le_of_positions {α : Type} {p : α → Bool} {items : List α} {bound : Nat}
    (below : ∀ (i : Nat) (item : α), items[i]? = some item → p item = true → i < bound) :
    items.countP p ≤ bound := by
  have noneBehind : (items.drop bound).countP p = 0 := by
    rw [List.countP_eq_zero]
    intro item listed holds
    obtain ⟨i, at_i⟩ := List.mem_iff_getElem?.mp listed
    rw [List.getElem?_drop] at at_i
    have := below (bound + i) item at_i holds
    omega
  calc items.countP p = (items.take bound).countP p + (items.drop bound).countP p := by
        rw [← List.countP_append, List.take_append_drop]
    _ = (items.take bound).countP p := by rw [noneBehind, Nat.add_zero]
    _ ≤ (items.take bound).length := List.countP_le_length
    _ ≤ bound := List.length_take_le _ _

/-- The items with a property stand below their number exactly when they come first. -/
theorem positions_lt_countP_iff {α : Type} (p : α → Bool) (items : List α) :
    (∀ (i : Nat) (item : α), items[i]? = some item → p item = true → i < items.countP p) ↔
      items.Pairwise fun earlier later => p later = true → p earlier = true := by
  induction items with
  | nil => simp
  | cons first rest ih =>
    rw [List.pairwise_cons]
    by_cases holds : p first = true
    · rw [List.countP_cons_of_pos holds, ← ih]
      constructor
      · intro below
        refine ⟨fun _ _ _ => holds, fun i item at_i itemHolds => ?_⟩
        exact Nat.lt_of_succ_lt_succ (below (i + 1) item at_i itemHolds)
      · rintro ⟨_, below⟩ (_ | i) item at_i itemHolds
        · exact Nat.succ_pos _
        · exact Nat.succ_lt_succ (below i item at_i itemHolds)
    · -- The first item takes a position without being counted, so no later one may be.
      rw [List.countP_cons_of_neg holds]
      constructor
      · intro below
        have fewer : rest.countP p ≤ rest.countP p - 1 := by
          apply countP_le_of_positions
          intro i item at_i itemHolds
          exact Nat.lt_sub_of_add_lt (below (i + 1) item at_i itemHolds)
        have noneLater : ∀ later ∈ rest, p later ≠ true := by
          intro later listed laterHolds
          have counted := List.countP_pos_iff.mpr ⟨later, listed, laterHolds⟩
          omega
        refine ⟨fun later listed laterHolds => absurd laterHolds (noneLater later listed), ih.mp ?_⟩
        exact fun i item at_i itemHolds => absurd itemHolds (noneLater item (List.mem_of_getElem? at_i))
      · rintro ⟨led, _⟩ (_ | i) item at_i itemHolds
        · obtain rfl := Option.some.inj at_i
          exact absurd itemHolds holds
        · exact absurd (led item (List.mem_of_getElem? at_i) itemHolds) holds

/-- Each action that ends finds a slot of its number, with the slots of `main` and the
tool on all the paths. -/
def SlotsInRange (paths : List CommandPath) : Prop :=
  ∀ fileId ∈ endedFileIds 0 (paths.map CommandPath.source),
    fileId < (setTotalFiles (sourceFilesOf paths).length).length

/-- An action writes behind the slots exactly when its path has as many paths in front as
there are regular files: for actions that end just on these, when another path stands
before one of them. -/
theorem slotsInRange_iff (created : ∀ path ∈ paths, path.run ≠ .notCreated) :
    (SlotsInRange paths ↔ ∀ (i : Nat) (path : CommandPath), paths[i]? = some path → path.source.Ends →
      i < paths.countP (·.fileSize.isSome)) ∧
    ((∀ path ∈ paths, path.source.Ends ↔ path.fileSize.isSome = true) →
      (SlotsInRange paths ↔ paths.Pairwise fun earlier later =>
        later.fileSize.isSome = true → earlier.fileSize.isSome = true)) := by
  have allCreated : ∀ source ∈ paths.map CommandPath.source, source.run ≠ .notCreated := by
    intro source listed
    obtain ⟨path, isPath, rfl⟩ := List.mem_map.mp listed
    exact created path isPath
  have positions : SlotsInRange paths ↔ ∀ (i : Nat) (path : CommandPath), paths[i]? = some path →
      path.source.Ends → i < paths.countP (·.fileSize.isSome) := by
    simp only [SlotsInRange, mem_endedFileIds allCreated, setTotalFiles, List.length_replicate,
      length_sourceFilesOf, List.getElem?_map, Option.map_eq_some_iff, Nat.zero_add]
    constructor
    · intro inRange i path at_i ended
      exact inRange i ⟨i, path.source, ⟨path, at_i, rfl⟩, ended, rfl⟩
    · rintro below fileId ⟨i, _, ⟨path, at_i, rfl⟩, ended, rfl⟩
      exact below fileId path at_i ended
  refine ⟨positions, fun endsAtFiles => ?_⟩
  rw [positions, ← positions_lt_countP_iff]
  refine forall₂_congr fun i path => forall_congr' fun at_i => ?_
  rw [endsAtFiles path (List.mem_of_getElem? at_i)]

def endingRun : ActionRun := .ended ⟨some "a.c", some 10⟩ 0 []

theorem slotsInRange_missing_last :
    let paths : List CommandPath := [⟨"a.c", some 10, endingRun⟩, ⟨"missing.c", none, .stopped⟩]
    (∀ path ∈ paths, path.run ≠ .notCreated) ∧ SlotsInRange paths := by
  intro paths
  have created : ∀ path ∈ paths, path.run ≠ .notCreated := by simp [paths, endingRun]
  have endsAtFiles : ∀ path ∈ paths, path.source.Ends ↔ path.fileSize.isSome = true := by
    simp [paths, CommandPath.source, SourcePath.Ends, endingRun]
  exact ⟨created, ((slotsInRange_iff created).2 endsAtFiles).mpr (by simp [paths])⟩

/-- A missing path in front of the one file takes its number. -/
theorem missing_first_out_of_range :
    let paths : List CommandPath := [⟨"missing.c", none, .stopped⟩, ⟨"a.c", some 10, endingRun⟩]
    (∀ path ∈ paths, path.run ≠ .notCreated) ∧
      StandardLibrary.stable.exporterMode 1 8 paths = some .singleThreaded ∧
      endedFileIds 0 (paths.map CommandPath.source) = [1] ∧
      (setTotalFiles (sourceFilesOf paths).length).length = 1 ∧ ¬ SlotsInRange paths := by
  intro paths
  have outside : ¬ SlotsInRange paths := fun inRange => absurd (inRange 1 List.mem_cons_self) (Nat.lt_irrefl 1)
  exact ⟨by simp [paths, endingRun], rfl, rfl, rfl, outside⟩

end Slots
end CMender.Exporter
