import Mathlib.Data.BitVec
import Mathlib.Data.Multiset.Lattice
import CMender.Foundations.PriorityQueue
import CMender.Foundations.Scheduling

/-! The batches of source files that the exporter gives to its threads. Files are taken
from the biggest to the smallest, and each goes to a batch with the least load. -/
namespace CMender.Exporter
open Foundations Foundations.Execution Foundations.Scheduling

/-- A regular file of the command line; `id` counts them. -/
structure SourceFile where
  path : String
  size : BitVec 32
  id : BitVec 32
deriving DecidableEq, Repr

structure ThreadSourceBatch where
  sourceFiles : List SourceFile
  threadLoad : BitVec 32
deriving DecidableEq, Repr

/-- The comparison is turned around, so that the least load is on top of the queue. -/
def ThreadSourceBatch.lt (lhs rhs : ThreadSourceBatch) : Bool := rhs.threadLoad < lhs.threadLoad

/-- The load is a sum of `unsigned`. -/
def ThreadSourceBatch.put (batch : ThreadSourceBatch) (file : SourceFile) : ThreadSourceBatch :=
  ⟨batch.sourceFiles ++ [file], batch.threadLoad + file.size⟩

/-- What the standard library leaves open: the order of files of one size, and the batch on
top of the queue among those with the least load. -/
structure StandardLibrary where
  sort : List SourceFile → List SourceFile
  sort_perm : ∀ files, (sort files).Perm files
  sort_descending : ∀ files, (sort files).Pairwise fun lhs rhs => ¬ lhs.size < rhs.size
  queue : PriorityQueue ThreadSourceBatch ThreadSourceBatch.lt

/-- Taking the top of an empty queue is undefined. -/
def StandardLibrary.allocateGreedyMinHeap (std : StandardLibrary) (threadNum : Nat)
    (sourceFiles : List SourceFile) : Option (List ThreadSourceBatch) := do
  let threadBatchesQueue ←
    (std.sort sourceFiles).foldlM (std.queue.place .put) (List.replicate threadNum ⟨[], 0⟩)
  return std.queue.drain threadBatchesQueue.length threadBatchesQueue

/-- A stable sort, and the first of the batches with the least load. -/
def StandardLibrary.stable : StandardLibrary where
  sort files := files.mergeSort fun lhs rhs => rhs.size ≤ lhs.size
  sort_perm files := List.mergeSort_perm files _
  sort_descending files := by
    have sorted : (files.mergeSort fun lhs rhs => rhs.size ≤ lhs.size).Pairwise
        fun lhs rhs => decide (rhs.size ≤ lhs.size) = true := by
      apply List.pairwise_mergeSort
      · intro a b c
        simp only [decide_eq_true_eq, BitVec.le_def]
        omega
      · intro a b
        simp only [Bool.or_eq_true, decide_eq_true_eq, BitVec.le_def]
        omega
    refine sorted.imp fun ordered => ?_
    rw [decide_eq_true_eq, BitVec.le_def] at ordered
    rw [BitVec.lt_def]
    omega
  queue := PriorityQueue.ofKey (fun batch => batch.threadLoad.toNat) fun less => by
    rw [ThreadSourceBatch.lt, decide_eq_true_eq, BitVec.lt_def] at less
    exact less

section NoLoss

/-- The files of a batch, in any order. -/
def ThreadSourceBatch.files (batch : ThreadSourceBatch) : Multiset SourceFile := batch.sourceFiles

theorem ThreadSourceBatch.files_put (batch : ThreadSourceBatch) (file : SourceFile) :
    (batch.put file).files = file ::ₘ batch.files :=
  Multiset.coe_eq_coe.mpr (List.perm_append_singleton file batch.sourceFiles)

variable (std : StandardLibrary) {threadNum : Nat}

/-- There is a batch for each thread, and together they are the files. -/
theorem allocateGreedyMinHeap_keeps (someThread : 0 < threadNum) (sourceFiles : List SourceFile) :
    ∃ batches, std.allocateGreedyMinHeap threadNum sourceFiles = some batches ∧ batches.length = threadNum ∧
      (batches.map ThreadSourceBatch.files).sum = (sourceFiles : Multiset SourceFile) := by
  have nonempty : List.replicate threadNum (ThreadSourceBatch.mk [] 0) ≠ [] := by
    rw [← List.length_pos_iff, List.length_replicate]
    exact someThread
  obtain ⟨placed, folded, sameLength, contents⟩ :=
    std.queue.foldlM_place ThreadSourceBatch.files_put (std.sort sourceFiles) nonempty
  have drained := std.queue.drain_perm placed.length placed rfl
  refine ⟨std.queue.drain placed.length placed, ?_, ?_, ?_⟩
  · rw [StandardLibrary.allocateGreedyMinHeap, folded]
    rfl
  · rw [drained.length_eq, sameLength, List.length_replicate]
  · have empty : ((List.replicate threadNum (ThreadSourceBatch.mk [] 0)).map ThreadSourceBatch.files).sum = 0 := by
      rw [List.map_replicate, List.sum_replicate]
      exact nsmul_zero threadNum
    rw [(drained.map ThreadSourceBatch.files).sum_eq, contents, empty, add_zero]
    exact Multiset.coe_eq_coe.mpr (std.sort_perm sourceFiles)

end NoLoss

section Loads

/-- The size that the exporter stores for a file. -/
def SourceFile.bytes (file : SourceFile) : Nat := file.size.toNat

/-- The load is the sum of the sizes, without wrapping around. -/
def ThreadSourceBatch.Weighed (batch : ThreadSourceBatch) : Prop :=
  batch.threadLoad.toNat = load SourceFile.bytes batch.files

variable (std : StandardLibrary) {threadNum : Nat} {batches placed : List ThreadSourceBatch} {file : SourceFile}
  {files sourceFiles : List SourceFile}

theorem ThreadSourceBatch.Weighed.threadLoad_eq {batch : ThreadSourceBatch} (weighed : batch.Weighed) :
    batch.threadLoad.toNat = load SourceFile.bytes batch.files := weighed

theorem ThreadSourceBatch.Weighed.put {batch : ThreadSourceBatch} (weighed : batch.Weighed)
    (fits : load SourceFile.bytes batch.files + file.bytes < 2 ^ 32) : (batch.put file).Weighed := by
  have added : (batch.put file).threadLoad.toNat = (batch.threadLoad.toNat + file.bytes) % 2 ^ 32 :=
    BitVec.toNat_add _ _
  rw [ThreadSourceBatch.Weighed, added, weighed.threadLoad_eq, Nat.mod_eq_of_lt fits, files_put, load_cons,
    Nat.add_comm]

/-- A file goes to a batch that is the lightest as a set of files. -/
theorem place_places (weighed : ∀ batch ∈ batches, batch.Weighed)
    (fits : load SourceFile.bytes (batches.map ThreadSourceBatch.files).sum + file.bytes < 2 ^ 32)
    (done : std.queue.place .put batches file = some placed) :
    Places SourceFile.bytes (batches.map ThreadSourceBatch.files) file (placed.map ThreadSourceBatch.files) ∧
      ∀ batch ∈ placed, batch.Weighed := by
  obtain ⟨top, rest, split, lightest, rfl⟩ := std.queue.place_cases done
  have weighedTop : top.Weighed := weighed top (split.mem_iff.mpr List.mem_cons_self)
  have weighedRest : ∀ batch ∈ rest, batch.Weighed :=
    fun batch other => weighed batch (split.mem_iff.mpr (List.mem_cons_of_mem _ other))
  constructor
  · rw [List.map_cons, ThreadSourceBatch.files_put]
    refine .top (split.map ThreadSourceBatch.files) fun bin listed => ?_
    obtain ⟨batch, other, rfl⟩ := List.mem_map.mp listed
    have notLess := lightest batch other
    rw [ThreadSourceBatch.lt, decide_eq_false_iff_not, BitVec.lt_def] at notLess
    rw [weighedTop.threadLoad_eq, (weighedRest batch other).threadLoad_eq] at notLess
    exact Nat.not_lt.mp notLess
  · intro batch listed
    rcases List.mem_cons.mp listed with rfl | other
    · refine weighedTop.put (lt_of_le_of_lt ?_ fits)
      rw [(split.map ThreadSourceBatch.files).sum_eq, List.map_cons, List.sum_cons, map_add]
      omega
    · exact weighedRest batch other

/-- Placing the files is a greedy run on the sets of files. -/
theorem places_run (run : Reaches (fun batches file placed => std.queue.place .put batches file = some placed)
      batches files placed) (weighed : ∀ batch ∈ batches, batch.Weighed)
    (fits :
      load SourceFile.bytes ((files : Multiset SourceFile) + (batches.map ThreadSourceBatch.files).sum) < 2 ^ 32) :
    Reaches (Places SourceFile.bytes) (batches.map ThreadSourceBatch.files) files
        (placed.map ThreadSourceBatch.files) ∧ ∀ batch ∈ placed, batch.Weighed := by
  induction run with
  | refl => exact ⟨.refl _, weighed⟩
  | @next batches file next rest placed head tail ih =>
    rw [← Multiset.cons_coe, Multiset.cons_add, load_cons, map_add] at fits
    obtain ⟨places, weighedNext⟩ := place_places std weighed (by omega) head
    obtain ⟨later, weighedPlaced⟩ := ih weighedNext (by rw [places.sum_eq, map_add, load_cons]; omega)
    exact ⟨.next places later, weighedPlaced⟩

theorem allocateGreedyMinHeap_run (someThread : 0 < threadNum)
    (fits : load SourceFile.bytes sourceFiles < 2 ^ 32) :
    ∃ batches, std.allocateGreedyMinHeap threadNum sourceFiles = some batches ∧ batches.length = threadNum ∧
      (∀ batch ∈ batches, batch.Weighed) ∧ ∃ bins, bins.Perm (batches.map ThreadSourceBatch.files) ∧
        Reaches (Places SourceFile.bytes) (List.replicate threadNum 0) (std.sort sourceFiles) bins := by
  obtain ⟨batches, allocated, counted, _⟩ := allocateGreedyMinHeap_keeps std someThread sourceFiles
  obtain ⟨placed, folded, returned⟩ := Option.bind_eq_some_iff.mp allocated
  have drained := std.queue.drain_perm placed.length placed rfl
  rw [Option.some.inj returned] at drained
  have empty : (List.replicate threadNum (ThreadSourceBatch.mk [] 0)).map ThreadSourceBatch.files =
      List.replicate threadNum 0 := List.map_replicate
  have sorted : ((std.sort sourceFiles : List SourceFile) : Multiset SourceFile) = sourceFiles :=
    Multiset.coe_eq_coe.mpr (std.sort_perm sourceFiles)
  obtain ⟨run, weighed⟩ := places_run std (foldlM_eq_some.mp folded)
    (fun batch listed => by rw [List.eq_of_mem_replicate listed]; rfl)
    (by rw [empty, List.sum_replicate, nsmul_zero, add_zero, sorted]; exact fits)
  rw [empty] at run
  exact ⟨batches, allocated, counted, fun batch listed => weighed batch (drained.mem_iff.mp listed),
    _, (drained.map ThreadSourceBatch.files).symm, run⟩

end Loads

section Balance
variable (std : StandardLibrary) {threadNum : Nat} {sourceFiles : List SourceFile}

/-- The size is the number of bytes of the file, cut down to an `unsigned`. -/
def StoresSizes (fileSize : SourceFile → Nat) (sourceFiles : List SourceFile) : Prop :=
  ∀ file ∈ sourceFiles, file.size = BitVec.ofNat 32 (fileSize file)

variable {fileSize : SourceFile → Nat}

theorem StoresSizes.bytes_eq (stored : StoresSizes fileSize sourceFiles)
    (fits : (sourceFiles.map fileSize).sum < 2 ^ 32) : ∀ file ∈ sourceFiles, file.bytes = fileSize file := by
  intro file listed
  have among : fileSize file ≤ (sourceFiles.map fileSize).sum :=
    List.le_sum_of_mem (List.mem_map_of_mem listed)
  rw [SourceFile.bytes, stored file listed, BitVec.toNat_ofNat, Nat.mod_eq_of_lt (by omega)]

theorem StoresSizes.fits (stored : StoresSizes fileSize sourceFiles)
    (fits : (sourceFiles.map fileSize).sum < 2 ^ 32) : load SourceFile.bytes sourceFiles < 2 ^ 32 := by
  rw [load_congr (stored.bytes_eq fits), load_coe]
  exact fits

theorem sum_bins {bins : List (Multiset SourceFile)}
    (run : Reaches (Places SourceFile.bytes) (List.replicate threadNum 0) (std.sort sourceFiles) bins) :
    bins.sum = (sourceFiles : Multiset SourceFile) := by
  rw [sum_run run, List.sum_replicate, nsmul_zero, add_zero]
  exact Multiset.coe_eq_coe.mpr (std.sort_perm sourceFiles)

theorem coe_flatMap_sourceFiles (batches : List ThreadSourceBatch) :
    (batches.flatMap ThreadSourceBatch.sourceFiles : Multiset SourceFile) =
      (batches.map ThreadSourceBatch.files).sum := by
  induction batches with
  | nil => rfl
  | cons batch rest ih =>
    rw [List.flatMap_cons, List.map_cons, List.sum_cons, ← ih]
    rfl

/-- The batches are the bins of a run, so together they have the files. -/
theorem perm_of_run {batches : List ThreadSourceBatch} {bins : List (Multiset SourceFile)}
    (split : bins.Perm (batches.map ThreadSourceBatch.files))
    (run : Reaches (Places SourceFile.bytes) (List.replicate threadNum 0) (std.sort sourceFiles) bins) :
    (batches.flatMap ThreadSourceBatch.sourceFiles).Perm sourceFiles := by
  rw [← Multiset.coe_eq_coe, coe_flatMap_sourceFiles, ← split.sum_eq]
  exact sum_bins std run

/-- Every file is in one batch, the loads are the sums of the sizes, and two loads differ
by no more than the size of the largest file. -/
theorem allocateGreedyMinHeap_balanced (someThread : 0 < threadNum) (stored : StoresSizes fileSize sourceFiles)
    (fits : (sourceFiles.map fileSize).sum < 2 ^ 32) :
    ∃ batches, std.allocateGreedyMinHeap threadNum sourceFiles = some batches ∧ batches.length = threadNum ∧
      (batches.flatMap ThreadSourceBatch.sourceFiles).Perm sourceFiles ∧
      (∀ batch ∈ batches, batch.threadLoad.toNat = (batch.sourceFiles.map fileSize).sum) ∧
      ∀ first ∈ batches, ∀ second ∈ batches, first.threadLoad.toNat ≤
        second.threadLoad.toNat + (sourceFiles.map fileSize : Multiset Nat).sup := by
  obtain ⟨batches, allocated, counted, weighed, bins, split, run⟩ :=
    allocateGreedyMinHeap_run std someThread (stored.fits fits)
  have bytes := stored.bytes_eq fits
  have together := perm_of_run std split run
  have balanced : Balanced SourceFile.bytes (sourceFiles.map fileSize : Multiset Nat).sup bins := by
    refine Balanced.run ?_ (fun file listed => ?_) run
    · intro first isFirst second isSecond
      rw [List.eq_of_mem_replicate isFirst, List.eq_of_mem_replicate isSecond]
      exact Nat.le_add_right _ _
    · have listed := (std.sort_perm sourceFiles).mem_iff.mp listed
      rw [bytes file listed]
      exact Multiset.le_sup (Multiset.mem_coe.mpr (List.mem_map_of_mem listed))
  refine ⟨batches, allocated, counted, together, fun batch listed => ?_, fun first isFirst second isSecond => ?_⟩
  · rw [(weighed batch listed).threadLoad_eq, ← load_coe]
    exact load_congr fun file inBatch =>
      bytes file (together.mem_iff.mp (List.mem_flatMap.mpr ⟨batch, listed, inBatch⟩))
  · rw [(weighed first isFirst).threadLoad_eq, (weighed second isSecond).threadLoad_eq]
    exact balanced _ (split.mem_iff.mpr (List.mem_map_of_mem isFirst)) _
      (split.mem_iff.mpr (List.mem_map_of_mem isSecond))

def threeFiles : List SourceFile := [⟨"a.c", 30, 0⟩, ⟨"b.c", 20, 1⟩, ⟨"c.c", 20, 2⟩]

theorem storesSizes_bytes (sourceFiles : List SourceFile) : StoresSizes SourceFile.bytes sourceFiles := by
  intro file _
  rw [SourceFile.bytes, BitVec.ofNat_toNat, BitVec.setWidth_eq]

theorem allocateGreedyMinHeap_balanced_three :
    ∃ batches, StandardLibrary.stable.allocateGreedyMinHeap 2 threeFiles = some batches ∧ batches.length = 2 ∧
      ∀ first ∈ batches, ∀ second ∈ batches, first.threadLoad.toNat ≤ second.threadLoad.toNat + 30 := by
  obtain ⟨batches, allocated, counted, _, _, balanced⟩ := allocateGreedyMinHeap_balanced StandardLibrary.stable
    (by decide : 0 < 2) (storesSizes_bytes threeFiles) (by decide)
  exact ⟨batches, allocated, counted, balanced⟩

/-- There is a batch for each thread, every file is in one of them, and no load exceeds the
least possible maximum by more than a third of it. -/
theorem allocateGreedyMinHeap_approximates (someThread : 0 < threadNum)
    (stored : StoresSizes fileSize sourceFiles) (fits : (sourceFiles.map fileSize).sum < 2 ^ 32) :
    ∃ batches, std.allocateGreedyMinHeap threadNum sourceFiles = some batches ∧ batches.length = threadNum ∧
      (batches.flatMap ThreadSourceBatch.sourceFiles).Perm sourceFiles ∧
      3 * threadNum * (batches.map (·.threadLoad.toNat) : Multiset Nat).sup ≤
        (4 * threadNum - 1) * optimum fileSize sourceFiles threadNum := by
  obtain ⟨batches, allocated, counted, weighed, bins, split, run⟩ :=
    allocateGreedyMinHeap_run std someThread (stored.fits fits)
  have empty : (List.replicate threadNum (0 : Multiset SourceFile)).length = threadNum := List.length_replicate
  have shared := sharedOut_optimum SourceFile.bytes sourceFiles someThread
  have bound := largest_first_bound run (by rw [← List.length_pos_iff, empty]; exact someThread)
    ((std.sort_descending sourceFiles).imp fun notLess => by rw [BitVec.lt_def] at notLess; exact Nat.not_lt.mp notLess)
    (fun other none => by simp at none)
    (by
      rw [empty, List.sum_replicate, nsmul_zero, add_zero, Multiset.coe_eq_coe.mpr (std.sort_perm sourceFiles)]
      exact shared)
    (fun bin isEmpty => by rw [List.eq_of_mem_replicate isEmpty, load_zero, Nat.mul_zero]; exact Nat.zero_le _)
  rw [empty, optimum_congr _ _ (stored.bytes_eq fits)] at bound
  refine ⟨batches, allocated, counted, perm_of_run std split run, ?_⟩
  have positive : 0 < 3 * threadNum := by omega
  rw [Nat.mul_comm, ← Nat.le_div_iff_mul_le positive, Multiset.sup_le]
  intro threadLoad listed
  obtain ⟨batch, isBatch, rfl⟩ := List.mem_map.mp (Multiset.mem_coe.mp listed)
  rw [Nat.le_div_iff_mul_le positive, Nat.mul_comm, (weighed batch isBatch).threadLoad_eq]
  exact bound _ (split.mem_iff.mpr (List.mem_map_of_mem isBatch))

theorem allocateGreedyMinHeap_approximates_three :
    ∃ batches, StandardLibrary.stable.allocateGreedyMinHeap 2 threeFiles = some batches ∧ batches.length = 2 ∧
      (batches.flatMap ThreadSourceBatch.sourceFiles).Perm threeFiles ∧
      6 * (batches.map (·.threadLoad.toNat) : Multiset Nat).sup ≤ 7 * optimum SourceFile.bytes threeFiles 2 :=
  allocateGreedyMinHeap_approximates StandardLibrary.stable (by decide : 0 < 2) (storesSizes_bytes threeFiles)
    (by decide)

end Balance
end CMender.Exporter
