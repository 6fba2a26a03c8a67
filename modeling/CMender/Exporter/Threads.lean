import Mathlib.Algebra.BigOperators.Fin
import CMender.Foundations.Interleaving
import CMender.Exporter.Action
import CMender.Exporter.Allocator

/-! The exporter with several threads. A thread runs the tool on the paths of its batch:
an action takes the next number of a counter they all share when it is created, and
writes the slot of that number when its source file ends. The two are atomic steps, and
the threads take them in any order. -/
namespace CMender.Exporter
open Foundations Foundations.Execution Foundations.Interleaving

/-- An action and the slot it was given. -/
structure ActionOf where
  fileId : Nat
  file : SourceFile

/-- A thread in the middle of its batch, with the actions it has ended. -/
structure ToolThread where
  waiting : List SourceFile
  running : Option ActionOf
  ended : List ActionOf

namespace ToolThread

def actions (thread : ToolThread) : Multiset ActionOf := (thread.running.toList ++ thread.ended : List ActionOf)

def fileIds (thread : ToolThread) : Multiset Nat := thread.actions.map ActionOf.fileId

/-- The files of a thread, those it has an action for and those it has not come to. -/
def files (thread : ToolThread) : Multiset SourceFile :=
  thread.actions.map ActionOf.file + (thread.waiting : Multiset SourceFile)

def Finished (thread : ToolThread) : Prop := thread.waiting = [] ∧ thread.running = none

/-- The steps that a thread still has to take. -/
def stepsLeft (thread : ToolThread) : Nat := 2 * thread.waiting.length + thread.running.toList.length

end ToolThread

section Steps

-- What the consumer of a file holds when its action ends.
variable (diagsInfo : SourceFile → DiagsInfo)

/-- `create` hands out the counter's value before it is incremented, an `unsigned`;
`EndSourceFileAction` writes the slot. -/
def threadStep (state : ExporterState) (thread : ToolThread) : Option (ExporterState × ToolThread) :=
  match thread.running, thread.waiting with
  | none, [] => none
  | none, file :: rest =>
    some ({ state with fileIdCounter := state.fileIdCounter + 1 },
      { thread with waiting := rest, running := some ⟨state.fileIdCounter % 2 ^ 32, file⟩ })
  | some action, _ => do
    let slots ← endSourceFileAction action.fileId action.file.path (diagsInfo action.file) state.individualDiagsInfos
    return ({ state with individualDiagsInfos := slots },
      { thread with running := none, ended := action :: thread.ended })

/-- The process after the threads were started, one for each batch. -/
def startThreads (totalFiles : Nat) (batches : List ThreadSourceBatch) :
    Config (Fin batches.length) ExporterState ToolThread :=
  ⟨⟨0, setTotalFiles (totalFiles % 2 ^ 32)⟩, fun i => ⟨(batches.get i).sourceFiles, none, []⟩⟩

variable {diagsInfo} {state next : ExporterState} {thread after : ToolThread}

/-- A step creates an action, or ends one in a slot that is there. -/
theorem threadStep_cases (stepped : threadStep diagsInfo state thread = some (next, after)) :
    (∃ file rest, thread = ⟨file :: rest, none, thread.ended⟩ ∧
      next = { state with fileIdCounter := state.fileIdCounter + 1 } ∧
      after = ⟨rest, some ⟨state.fileIdCounter % 2 ^ 32, file⟩, thread.ended⟩) ∨
    ∃ action, thread = ⟨thread.waiting, some action, thread.ended⟩ ∧
      action.fileId < state.individualDiagsInfos.length ∧
      next = ⟨state.fileIdCounter, state.individualDiagsInfos.set action.fileId
        (.written action.file.path (diagsInfo action.file))⟩ ∧
      after = ⟨thread.waiting, none, action :: thread.ended⟩ := by
  obtain ⟨waiting, running, ended⟩ := thread
  cases running with
  | none =>
    cases waiting with
    | nil => cases stepped
    | cons file rest =>
      obtain ⟨rfl, rfl⟩ := Prod.mk.inj (Option.some.inj stepped)
      exact .inl ⟨file, rest, rfl, rfl, rfl⟩
  | some action =>
    obtain ⟨slots, written, returned⟩ := Option.bind_eq_some_iff.mp stepped
    obtain ⟨rfl, rfl⟩ := Prod.mk.inj (Option.some.inj returned)
    unfold endSourceFileAction at written
    split at written
    · rename_i inRange
      obtain rfl := Option.some.inj written
      exact .inr ⟨action, rfl, inRange, rfl, rfl⟩
    · cases written

/-- The numbers that were handed out. -/
def ExporterState.handedOut (state : ExporterState) : Multiset Nat :=
  (Multiset.range state.fileIdCounter).map (· % 2 ^ 32)

theorem handedOut_threadStep (stepped : threadStep diagsInfo state thread = some (next, after)) :
    next.handedOut + thread.fileIds = state.handedOut + after.fileIds := by
  rcases threadStep_cases stepped with ⟨file, rest, of, rfl, rfl⟩ | ⟨action, of, _, rfl, rfl⟩
  · rw [of]
    simp only [ExporterState.handedOut, ToolThread.fileIds, ToolThread.actions, Multiset.range_succ,
      Multiset.map_cons, Option.toList_none, Option.toList_some, List.nil_append, List.singleton_append,
      ← Multiset.cons_coe, Multiset.cons_add, Multiset.add_cons]
  · rw [of]
    rfl

theorem files_threadStep (stepped : threadStep diagsInfo state thread = some (next, after)) :
    after.files = thread.files := by
  rcases threadStep_cases stepped with ⟨file, rest, of, rfl, rfl⟩ | ⟨action, of, _, rfl, rfl⟩
  · rw [of]
    simp only [ToolThread.files, ToolThread.actions, Option.toList_none, Option.toList_some, List.nil_append,
      List.singleton_append, ← Multiset.cons_coe, Multiset.map_cons, Multiset.cons_add, Multiset.add_cons]
  · rw [of]
    rfl

theorem stepsLeft_threadStep (stepped : threadStep diagsInfo state thread = some (next, after)) :
    after.stepsLeft + 1 = thread.stepsLeft := by
  rcases threadStep_cases stepped with ⟨file, rest, of, rfl, rfl⟩ | ⟨action, of, _, rfl, rfl⟩
  · rw [of]
    simp only [ToolThread.stepsLeft, Option.toList_none, Option.toList_some, List.length_cons, List.length_nil]
    omega
  · rw [of]
    simp only [ToolThread.stepsLeft, Option.toList_none, Option.toList_some, List.length_cons, List.length_nil]

end Steps

/-- A list is what is read at its indices. -/
theorem map_some_coe {α : Type} (items : List α) :
    Multiset.map some (items : Multiset α) = (Multiset.range items.length).map (items[·]?) := by
  refine congrArg _ (List.ext_getElem? fun k => ?_)
  rw [List.getElem?_map, List.getElem?_map]
  by_cases inside : k < items.length
  · simp [inside]
  · simp [inside]

section Runs
variable {ι : Type} [Fintype ι] {diagsInfo : SourceFile → DiagsInfo} {sourceFiles : List SourceFile}
variable {c d : Config ι ExporterState ToolThread} {i : ι}

/-- What holds between any two steps of the threads. -/
structure SlotsKept (diagsInfo : SourceFile → DiagsInfo) (sourceFiles : List SourceFile)
    (c : Config ι ExporterState ToolThread) : Prop where
  handedOut : c.shared.handedOut = ∑ i, (c.workers i).fileIds
  files : (sourceFiles : Multiset SourceFile) = ∑ i, (c.workers i).files
  slots : c.shared.individualDiagsInfos.length = sourceFiles.length
  written : ∀ i, ∀ action ∈ (c.workers i).ended, c.shared.individualDiagsInfos[action.fileId]? =
    some (.written action.file.path (diagsInfo action.file))

namespace SlotsKept

/-- There are never more actions than files, so no number wraps around. -/
theorem fileIdCounter_le (kept : SlotsKept diagsInfo sourceFiles c) :
    c.shared.fileIdCounter ≤ sourceFiles.length := by
  have created : c.shared.fileIdCounter = ∑ i, ((c.workers i).actions).card := by
    have cards := congrArg Multiset.card kept.handedOut
    simpa [ExporterState.handedOut, ToolThread.fileIds, Multiset.card_sum] using cards
  have given : sourceFiles.length = ∑ i, ((c.workers i).files).card := by
    have cards := congrArg Multiset.card kept.files
    simpa [Multiset.card_sum] using cards
  rw [created, given]
  refine Finset.sum_le_sum fun i _ => ?_
  simp [ToolThread.files]

theorem fileIds_eq (kept : SlotsKept diagsInfo sourceFiles c) (counted : sourceFiles.length < 2 ^ 32) :
    ∑ i, (c.workers i).fileIds = Multiset.range c.shared.fileIdCounter := by
  rw [← kept.handedOut, ExporterState.handedOut]
  conv_rhs => rw [← Multiset.map_id (Multiset.range c.shared.fileIdCounter)]
  refine Multiset.map_congr rfl fun fileId listed => ?_
  have below := Multiset.mem_range.mp listed
  have within := kept.fileIdCounter_le
  exact Nat.mod_eq_of_lt (by omega)

theorem fileIds_nodup (kept : SlotsKept diagsInfo sourceFiles c) (counted : sourceFiles.length < 2 ^ 32) :
    (∑ i, (c.workers i).fileIds).Nodup := by
  rw [kept.fileIds_eq counted]
  exact Multiset.nodup_range _

theorem fileId_lt (kept : SlotsKept diagsInfo sourceFiles c) (counted : sourceFiles.length < 2 ^ 32)
    {fileId : Nat} (given : fileId ∈ (c.workers i).fileIds) : fileId < sourceFiles.length := by
  have among : fileId ∈ ∑ i, (c.workers i).fileIds := Multiset.mem_sum.mpr ⟨i, Finset.mem_univ i, given⟩
  rw [kept.fileIds_eq counted, Multiset.mem_range] at among
  exact lt_of_lt_of_le among kept.fileIdCounter_le

/-- Once all threads are finished, the slots are the results of the files. -/
theorem slots_perm (kept : SlotsKept diagsInfo sourceFiles c) (counted : sourceFiles.length < 2 ^ 32)
    (finished : ∀ i, (c.workers i).Finished) : c.shared.individualDiagsInfos.Perm
      (sourceFiles.map fun file => .written file.path (diagsInfo file)) := by
  let slots := c.shared.individualDiagsInfos
  let actions := ∑ i, (c.workers i).actions
  have files : actions.map ActionOf.file = (sourceFiles : Multiset SourceFile) := by
    rw [kept.files, ← Multiset.coe_mapAddMonoidHom, map_sum]
    refine Finset.sum_congr rfl fun i _ => ?_
    rw [ToolThread.files, (finished i).1]
    exact (add_zero _).symm
  have ids : actions.map ActionOf.fileId = Multiset.range slots.length := by
    have all : actions.map ActionOf.fileId = Multiset.range c.shared.fileIdCounter := by
      rw [← kept.fileIds_eq counted, ← Multiset.coe_mapAddMonoidHom, map_sum]
      rfl
    have count : c.shared.fileIdCounter = slots.length := by
      have created := congrArg Multiset.card all
      have given := congrArg Multiset.card files
      rw [Multiset.card_map] at created given
      rw [kept.slots, ← Multiset.card_range c.shared.fileIdCounter, ← created, given, Multiset.coe_card]
    rw [all, count]
  have written : ∀ action ∈ actions, slots[action.fileId]? =
      some (.written action.file.path (diagsInfo action.file)) := by
    intro action listed
    obtain ⟨i, _, own⟩ := Multiset.mem_sum.mp listed
    rw [ToolThread.actions, (finished i).2] at own
    exact kept.written i action own
  -- Every slot is read at the number of the one action that wrote it.
  have read : Multiset.map some (slots : Multiset Slot) =
      Multiset.map some (sourceFiles.map fun file => Slot.written file.path (diagsInfo file) : Multiset Slot) := by
    calc Multiset.map some (slots : Multiset Slot)
        = (Multiset.range slots.length).map (slots[·]?) := map_some_coe slots
      _ = actions.map fun action => slots[action.fileId]? := by rw [← ids, Multiset.map_map]; rfl
      _ = actions.map fun action => some (.written action.file.path (diagsInfo action.file)) :=
        Multiset.map_congr rfl written
      _ = Multiset.map some (sourceFiles.map fun file => Slot.written file.path (diagsInfo file) : Multiset Slot) := by
        rw [← Multiset.map_coe, ← files, Multiset.map_map, Multiset.map_map]
        rfl
  exact Multiset.coe_eq_coe.mp (Multiset.map_injective (Option.some_injective Slot) read)

variable [DecidableEq ι]

/-- The slot that an action is about to write is not one that was written. -/
theorem running_apart (kept : SlotsKept diagsInfo sourceFiles c) (counted : sourceFiles.length < 2 ^ 32)
    {action other : ActionOf} {j : ι} (running : (c.workers i).running = some action)
    (ended : other ∈ (c.workers j).ended) : action.fileId ≠ other.fileId := by
  have once := kept.fileIds_nodup counted
  have ids : (c.workers i).fileIds =
      action.fileId ::ₘ ((c.workers i).ended.map ActionOf.fileId : Multiset Nat) := by
    rw [ToolThread.fileIds, ToolThread.actions, running]
    rfl
  intro same
  have mine : action.fileId ∈ (c.workers i).fileIds := by
    rw [ids]
    exact Multiset.mem_cons_self _ _
  have others : action.fileId ∈ (c.workers j).fileIds := by
    rw [same, ToolThread.fileIds, ToolThread.actions]
    exact Multiset.mem_map_of_mem _ (List.mem_append_right _ ended)
  obtain rfl := holder_unique once mine others
  have alone : (c.workers i).fileIds.Nodup := by
    rw [← Finset.add_sum_erase Finset.univ (fun k => (c.workers k).fileIds) (Finset.mem_univ i)] at once
    exact (Multiset.nodup_add.mp once).1
  rw [ids, Multiset.nodup_cons] at alone
  exact alone.1 (same ▸ Multiset.mem_coe.mpr (List.mem_map_of_mem ended))

/-- Every step of every thread keeps it. -/
theorem turn (counted : sourceFiles.length < 2 ^ 32) (kept : SlotsKept diagsInfo sourceFiles c)
    (taken : Turn (threadStep diagsInfo) c i d) : SlotsKept diagsInfo sourceFiles d := by
  have files := taken.balanced (fun _ => (sourceFiles : Multiset SourceFile)) ToolThread.files
    (fun stepped => by rw [files_threadStep stepped]) kept.files
  have handedOut := taken.balanced ExporterState.handedOut ToolThread.fileIds handedOut_threadStep kept.handedOut
  obtain ⟨next, after, stepped, rfl⟩ := turn_iff.mp taken
  refine ⟨handedOut, files, ?_, ?_⟩
  · rcases threadStep_cases stepped with ⟨file, rest, _, rfl, _⟩ | ⟨action, _, _, rfl, _⟩
    · exact kept.slots
    · exact List.length_set.trans kept.slots
  · intro j other ended
    dsimp only at ended ⊢
    rcases threadStep_cases stepped with ⟨file, rest, of, rfl, rfl⟩ | ⟨action, of, inRange, rfl, rfl⟩
    · by_cases same : j = i
      · subst same
        rw [Function.update_self] at ended
        exact kept.written j other ended
      · rw [Function.update_of_ne same] at ended
        exact kept.written j other ended
    · have running : (c.workers i).running = some action := by rw [of]
      have before : ∀ k, other ∈ (c.workers k).ended →
          (c.shared.individualDiagsInfos.set action.fileId
            (.written action.file.path (diagsInfo action.file)))[other.fileId]? =
            some (.written other.file.path (diagsInfo other.file)) := by
        intro k earlier
        rw [List.getElem?_set_ne (kept.running_apart counted running earlier)]
        exact kept.written k other earlier
      by_cases same : j = i
      · subst same
        rw [Function.update_self] at ended
        rcases List.mem_cons.mp ended with rfl | earlier
        · exact List.getElem?_set_self inRange
        · exact before j earlier
      · rw [Function.update_of_ne same] at ended
        exact before j ended

/-- A thread that is not finished can take its next step. -/
theorem progress (counted : sourceFiles.length < 2 ^ 32) (kept : SlotsKept diagsInfo sourceFiles c)
    (unfinished : ¬ (c.workers i).Finished) : ∃ d, Turn (threadStep diagsInfo) c i d := by
  suffices steps : ∃ next, threadStep diagsInfo c.shared (c.workers i) = some next by
    obtain ⟨⟨next, after⟩, stepped⟩ := steps
    exact ⟨_, turn_iff.mpr ⟨next, after, stepped, rfl⟩⟩
  cases running : (c.workers i).running with
  | none =>
    cases waiting : (c.workers i).waiting with
    | nil => exact absurd ⟨waiting, running⟩ unfinished
    | cons file rest =>
      rw [threadStep, running, waiting]
      exact ⟨_, rfl⟩
  | some action =>
    have given : action.fileId ∈ (c.workers i).fileIds := by
      rw [ToolThread.fileIds, ToolThread.actions, running]
      exact Multiset.mem_map_of_mem _ List.mem_cons_self
    have inRange : action.fileId < c.shared.individualDiagsInfos.length := by
      rw [kept.slots]
      exact kept.fileId_lt counted given
    simp only [threadStep, running, endSourceFileAction, if_pos inRange]
    exact ⟨_, rfl⟩

/-- Whatever was done, the threads can finish from here. -/
theorem finishes (counted : sourceFiles.length < 2 ^ 32) (left : Nat) :
    ∀ c : Config ι ExporterState ToolThread, SlotsKept diagsInfo sourceFiles c →
      ∑ i, (c.workers i).stepsLeft = left →
      ∃ schedule last, Reaches (Turn (threadStep diagsInfo)) c schedule last ∧ ∀ i, (last.workers i).Finished := by
  induction left with
  | zero =>
    intro c _ none
    refine ⟨[], c, .refl c, fun i => ?_⟩
    have own : (c.workers i).stepsLeft = 0 := Finset.sum_eq_zero_iff.mp none i (Finset.mem_univ i)
    simp only [ToolThread.stepsLeft] at own
    have noWaiting : (c.workers i).waiting.length = 0 := by omega
    have noRunning : (c.workers i).running.toList.length = 0 := by omega
    exact ⟨List.eq_nil_of_length_eq_zero noWaiting,
      Option.toList_eq_nil_iff.mp (List.eq_nil_of_length_eq_zero noRunning)⟩
  | succ left ih =>
    intro c kept some
    by_cases finished : ∀ i, (c.workers i).Finished
    · exact ⟨[], c, .refl c, finished⟩
    · obtain ⟨i, unfinished⟩ := not_forall.mp finished
      obtain ⟨d, taken⟩ := kept.progress counted unfinished
      have fewer : ∑ j, (d.workers j).stepsLeft = left := by
        obtain ⟨next, after, stepped, rfl⟩ := turn_iff.mp taken
        have moved : (∑ j, (Function.update c.workers i after j).stepsLeft) + (c.workers i).stepsLeft =
            (∑ j, (c.workers j).stepsLeft) + after.stepsLeft := sum_update ToolThread.stepsLeft
        have step := stepsLeft_threadStep stepped
        dsimp only
        omega
      obtain ⟨schedule, last, run, done⟩ := ih d (kept.turn counted taken) fewer
      exact ⟨i :: schedule, last, .next taken run, done⟩

end SlotsKept
end Runs

section Export
variable (std : StandardLibrary) (diagsInfo : SourceFile → DiagsInfo) {sourceFiles : List SourceFile}

theorem slotsKept_start {batches : List ThreadSourceBatch}
    (split : (batches.map ThreadSourceBatch.files).sum = (sourceFiles : Multiset SourceFile))
    (counted : sourceFiles.length < 2 ^ 32) :
    SlotsKept diagsInfo sourceFiles (startThreads sourceFiles.length batches) := by
  refine ⟨?_, ?_, ?_, fun i action none => nomatch none⟩
  · exact Finset.sum_const_zero.symm
  · rw [← split, ← Fin.sum_univ_fun_getElem]
    exact Finset.sum_congr rfl fun i _ => (zero_add _).symm
  · rw [startThreads, setTotalFiles, List.length_replicate, Nat.mod_eq_of_lt counted]

/-- With two threads or more, and whatever the order of their steps: the numbers of the
actions are slots and differ from each other, no thread gets stuck, and when all are
finished the slots are a rearrangement of the results of the files. -/
theorem threads_fill_slots {threads hardwareThreads : Nat}
    (several : 2 ≤ validateThreadNum threads hardwareThreads sourceFiles.length)
    (counted : sourceFiles.length < 2 ^ 32) :
    ∃ batches,
      std.allocateGreedyMinHeap (validateThreadNum threads hardwareThreads sourceFiles.length) sourceFiles =
        some batches ∧
      batches.length = validateThreadNum threads hardwareThreads sourceFiles.length ∧
      ∀ schedule c,
        Reaches (Turn (threadStep diagsInfo)) (startThreads sourceFiles.length batches) schedule c →
        (∀ i, ∀ fileId ∈ (c.workers i).fileIds, fileId < sourceFiles.length) ∧
        (∑ i, (c.workers i).fileIds).Nodup ∧
        (∀ i, ¬ (c.workers i).Finished → ∃ d, Turn (threadStep diagsInfo) c i d) ∧
        (∃ rest last, Reaches (Turn (threadStep diagsInfo)) c rest last ∧ ∀ i, (last.workers i).Finished) ∧
        ((∀ i, (c.workers i).Finished) → c.shared.individualDiagsInfos.Perm
          (sourceFiles.map fun file => .written file.path (diagsInfo file))) := by
  have someThread : 0 < validateThreadNum threads hardwareThreads sourceFiles.length := by omega
  obtain ⟨batches, allocated, each, split⟩ := allocateGreedyMinHeap_keeps std someThread sourceFiles
  refine ⟨batches, allocated, each, fun schedule c run => ?_⟩
  have kept : SlotsKept diagsInfo sourceFiles c :=
    run.invariant (fun kept taken => kept.turn counted taken) (slotsKept_start diagsInfo split counted)
  refine ⟨fun i fileId given => kept.fileId_lt counted given, kept.fileIds_nodup counted,
    fun i unfinished => kept.progress counted unfinished, ?_, kept.slots_perm counted⟩
  exact SlotsKept.finishes counted _ c kept rfl

/-- Two files of one size, an action with no diagnostics for each. -/
def twoFiles : List SourceFile := [⟨"a.c", 10, 0⟩, ⟨"b.c", 10, 1⟩]

theorem threads_fill_slots_two : ∃ batches,
    StandardLibrary.stable.allocateGreedyMinHeap (validateThreadNum 4 2 2) twoFiles = some batches ∧
    ∃ schedule last,
      Reaches (Turn (threadStep fun file => ⟨some file.path, file.size, 1, .zero, []⟩)) (startThreads 2 batches)
        schedule last ∧
      last.shared.individualDiagsInfos.Perm
        (twoFiles.map fun file => .written file.path ⟨some file.path, file.size, 1, .zero, []⟩) := by
  obtain ⟨batches, allocated, _, runs⟩ := threads_fill_slots StandardLibrary.stable
    (fun file => ⟨some file.path, file.size, 1, .zero, []⟩) (by decide : 2 ≤ validateThreadNum 4 2 twoFiles.length)
    (by decide)
  obtain ⟨schedule, last, run, finished⟩ := (runs [] _ (.refl _)).2.2.2.1
  exact ⟨batches, allocated, schedule, last, run, (runs schedule last run).2.2.2.2 finished⟩

end Export
end CMender.Exporter
