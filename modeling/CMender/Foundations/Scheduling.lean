import Mathlib.Algebra.Order.BigOperators.Group.List
import Mathlib.Algebra.Order.Group.Multiset
import Mathlib.Algebra.BigOperators.Fin
import Mathlib.Algebra.BigOperators.Group.Multiset.Basic
import Mathlib.Order.Lattice.Nat
import Mathlib.Tactic.GCongr
import Mathlib.Tactic.Ring
import CMender.Foundations.Execution

/-! Items put into bins, one after another, each into a bin with the least load. However
the ties are broken, the loads stay within one item of each other. When the items come
from the largest to the smallest, the greatest load is at most a third above the least
that any way of sharing them out has for its own. -/
namespace Foundations.Scheduling
open Foundations.Execution
variable {α : Type}

/-- What the items of a bin weigh together. -/
def load (size : α → Nat) : Multiset α →+ Nat :=
  Multiset.sumAddMonoidHom.comp (Multiset.mapAddMonoidHom size)

variable {size : α → Nat} {item : α} {items : List α} {bins placed : List (Multiset α)}
variable {least most : Nat}

@[simp] theorem load_zero : load size 0 = 0 := map_zero _

@[simp] theorem load_cons (item : α) (bin : Multiset α) : load size (item ::ₘ bin) = size item + load size bin := by
  simp [load]

theorem load_coe (items : List α) : load size items = (items.map size).sum := by
  simp [load]

theorem load_congr {other : α → Nat} {bin : Multiset α} (same : ∀ item ∈ bin, size item = other item) :
    load size bin = load other bin :=
  congrArg Multiset.sum (Multiset.map_congr rfl same)

theorem load_sum_le (below : ∀ bin ∈ bins, load size bin ≤ most) : load size bins.sum ≤ bins.length * most := by
  rw [map_list_sum]
  have bound := List.sum_le_card_nsmul (bins.map (load size)) most (by simpa using below)
  simpa using bound

theorem le_load_sum (above : ∀ bin ∈ bins, least ≤ load size bin) : bins.length * least ≤ load size bins.sum := by
  rw [map_list_sum]
  have bound := List.card_nsmul_le_sum (bins.map (load size)) least (by simpa using above)
  simpa using bound

/-! ### One step -/

/-- An item goes into a bin that no other bin is lighter than. -/
inductive Places (size : α → Nat) (bins : List (Multiset α)) (item : α) : List (Multiset α) → Prop where
  | top {top rest} : bins.Perm (top :: rest) → (∀ bin ∈ rest, load size top ≤ load size bin) →
      Places size bins item ((item ::ₘ top) :: rest)

namespace Places

theorem length_eq (places : Places size bins item placed) : placed.length = bins.length := by
  obtain ⟨split, _⟩ := places
  exact split.length_eq.symm

theorem sum_eq (places : Places size bins item placed) : placed.sum = item ::ₘ bins.sum := by
  obtain ⟨split, _⟩ := places
  rw [split.sum_eq, List.sum_cons, List.sum_cons, Multiset.cons_add]

/-- The bin that was filled was the lightest, and the others are as they were. -/
theorem bins_cases (places : Places size bins item placed) : ∃ top ∈ bins,
    (∀ bin ∈ bins, load size top ≤ load size bin) ∧ ∀ bin ∈ placed, bin = item ::ₘ top ∨ bin ∈ bins := by
  obtain ⟨split, lightest⟩ := places
  rename_i top rest
  refine ⟨top, split.mem_iff.mpr List.mem_cons_self, fun bin listed => ?_, fun bin listed => ?_⟩
  · rcases List.mem_cons.mp (split.mem_iff.mp listed) with rfl | other
    · exact le_rfl
    · exact lightest bin other
  · rcases List.mem_cons.mp listed with rfl | other
    · exact .inl rfl
    · exact .inr (split.mem_iff.mpr (List.mem_cons_of_mem _ other))

end Places

/-! ### Balance -/

/-- Any two loads are within `most` of each other. -/
def Balanced (size : α → Nat) (most : Nat) (bins : List (Multiset α)) : Prop :=
  ∀ first ∈ bins, ∀ second ∈ bins, load size first ≤ load size second + most

theorem Balanced.places (balanced : Balanced size most bins) (within : size item ≤ most)
    (places : Places size bins item placed) : Balanced size most placed := by
  obtain ⟨top, isBin, lightest, others⟩ := places.bins_cases
  intro first firstListed second secondListed
  rcases others first firstListed with rfl | firstBefore
  · rcases others second secondListed with rfl | secondBefore
    · exact Nat.le_add_right _ _
    · have below := lightest second secondBefore
      rw [load_cons]
      omega
  · rcases others second secondListed with rfl | secondBefore
    · have near := balanced first firstBefore top isBin
      rw [load_cons]
      omega
    · exact balanced first firstBefore second secondBefore

theorem Balanced.run (balanced : Balanced size most bins) (within : ∀ item ∈ items, size item ≤ most)
    (run : Reaches (Places size) bins items placed) : Balanced size most placed := by
  induction run with
  | refl => exact balanced
  | next head _ ih =>
    exact ih (balanced.places (within _ List.mem_cons_self) head)
      fun item later => within item (List.mem_cons_of_mem _ later)

theorem sum_run (run : Reaches (Places size) bins items placed) :
    placed.sum = (items : Multiset α) + bins.sum := by
  induction run with
  | refl => exact (zero_add _).symm
  | next head _ ih => rw [ih, head.sum_eq, ← Multiset.cons_coe, Multiset.cons_add, Multiset.add_cons]

/-! ### Sharing out -/

theorem mem_sum_iff {parts : List (Multiset α)} : item ∈ parts.sum ↔ ∃ part ∈ parts, item ∈ part := by
  induction parts with
  | nil => simp
  | cons part rest ih => simp [ih]

/-- The items can be shared out among as many places so that none has more than `most`. -/
def SharedOut (size : α → Nat) (places : Nat) (items : Multiset α) (most : Nat) : Prop :=
  ∃ parts : List (Multiset α), parts.length = places ∧ parts.sum = items ∧ ∀ part ∈ parts, load size part ≤ most

namespace SharedOut
variable {places : Nat} {all some : Multiset α}

theorem of_cons (shared : SharedOut size places (item ::ₘ all) most) : SharedOut size places all most := by
  obtain ⟨parts, sized, total, below⟩ := shared
  obtain ⟨part, isPart, here⟩ := mem_sum_iff.mp (total ▸ Multiset.mem_cons_self item all)
  obtain ⟨front, back, rfl⟩ := List.append_of_mem isPart
  obtain ⟨left, rfl⟩ := Multiset.exists_cons_of_mem here
  refine ⟨front ++ left :: back, by simpa using sized, ?_, fun other listed => ?_⟩
  · rw [List.sum_append, List.sum_cons, Multiset.cons_add, Multiset.add_cons] at total
    rw [List.sum_append, List.sum_cons]
    exact (Multiset.cons_inj_right item).mp total
  · rcases List.mem_append.mp listed with inFront | behind
    · exact below other (List.mem_append_left _ inFront)
    · rcases List.mem_cons.mp behind with rfl | inBack
      · have before := below (item ::ₘ other) (List.mem_append_right _ List.mem_cons_self)
        rw [load_cons] at before
        omega
      · exact below other (List.mem_append_right _ (List.mem_cons_of_mem _ inBack))

theorem of_add (shared : SharedOut size places (some + all) most) : SharedOut size places all most := by
  induction some using Multiset.induction with
  | empty => rwa [zero_add] at shared
  | cons item rest ih =>
    rw [Multiset.cons_add] at shared
    exact ih shared.of_cons

theorem load_le (shared : SharedOut size places all most) : load size all ≤ places * most := by
  obtain ⟨parts, rfl, rfl, below⟩ := shared
  exact load_sum_le below

theorem size_le (shared : SharedOut size places (item ::ₘ all) most) : size item ≤ most := by
  obtain ⟨parts, _, total, below⟩ := shared
  obtain ⟨part, isPart, here⟩ := mem_sum_iff.mp (total ▸ Multiset.mem_cons_self item all)
  obtain ⟨left, rfl⟩ := Multiset.exists_cons_of_mem here
  have before := below _ isPart
  rw [load_cons] at before
  omega

end SharedOut

/-! ### Assignments -/

section Assignments
variable (size) (items)

/-- What one place is given by an assignment. -/
def assignedLoad {places : Nat} (assignment : Fin items.length → Fin places) (place : Fin places) : Nat :=
  ∑ k with assignment k = place, size (items.get k)

def greatestLoad {places : Nat} (assignment : Fin items.length → Fin places) : Nat :=
  Finset.univ.sup (assignedLoad size items assignment)

/-- The least of the greatest loads that an assignment can have. -/
noncomputable def optimum (places : Nat) : Nat :=
  ⨅ assignment : Fin items.length → Fin places, greatestLoad size items assignment

variable {places : Nat}

theorem optimum_congr {other : α → Nat} (same : ∀ item ∈ items, size item = other item) :
    optimum size items places = optimum other items places := by
  refine iInf_congr fun assignment => Finset.sup_congr rfl fun place _ => ?_
  exact Finset.sum_congr rfl fun k _ => same _ (List.get_mem items k)

theorem sharedOut_assignment (assignment : Fin items.length → Fin places) :
    SharedOut size places items (greatestLoad size items assignment) := by
  let part (place : Fin places) : Multiset α := ∑ k with assignment k = place, {items.get k}
  refine ⟨(List.finRange places).map part, by simp, ?_, fun other listed => ?_⟩
  · rw [← Fin.sum_univ_def, Finset.sum_fiberwise]
    calc ∑ k, ({items.get k} : Multiset α) = (items.map fun item => ({item} : Multiset α)).sum :=
          Fin.sum_univ_fun_getElem items _
      _ = items := by
        rw [← Multiset.sum_coe, ← Multiset.map_coe]
        exact Multiset.sum_map_singleton _
  · obtain ⟨place, _, rfl⟩ := List.mem_map.mp listed
    have isLoad : load size (part place) = assignedLoad size items assignment place := by
      rw [map_sum]
      exact Finset.sum_congr rfl fun k _ => load_cons _ 0
    rw [isLoad]
    exact Finset.le_sup (Finset.mem_univ place)

theorem sharedOut_optimum (somePlace : 0 < places) : SharedOut size places items (optimum size items places) := by
  have : Nonempty (Fin items.length → Fin places) := ⟨fun _ => ⟨0, somePlace⟩⟩
  obtain ⟨assignment, attained⟩ :=
    Nat.sInf_mem (Set.range_nonempty fun assignment : Fin items.length → Fin places =>
      greatestLoad size items assignment)
  rw [optimum, iInf, ← attained]
  exact sharedOut_assignment size items assignment

end Assignments

/-! ### Large items first -/

/-- An item counts twice when it leaves no room for one of the given size. -/
def countedBy (size : α → Nat) (most small : Nat) (item : α) : Nat := if most < size item + small then 2 else 1

section Counting
variable {small : Nat} {bin : Multiset α}

theorem countedBy_pos : 1 ≤ countedBy size most small item := by
  unfold countedBy
  split <;> omega

/-- Where all items are larger than a third of `most`, two of them fit, and only one if it
counts twice. -/
theorem counted_part_le (larger : ∀ item ∈ bin, small ≤ size item) (third : most < 3 * small)
    (below : load size bin ≤ most) : load (countedBy size most small) bin ≤ 2 := by
  induction bin using Quotient.inductionOn with
  | h items =>
    change load size (items : Multiset α) ≤ most at below
    change load (countedBy size most small) (items : Multiset α) ≤ 2
    rw [load_coe] at below ⊢
    match items, larger, below with
    | [], _, _ => exact Nat.zero_le _
    | [first], _, _ =>
      simp only [List.map_cons, List.map_nil, List.sum_cons, List.sum_nil, countedBy]
      split <;> omega
    | [first, second], larger, below =>
      have firstLarger : small ≤ size first := larger first List.mem_cons_self
      have secondLarger : small ≤ size second := larger second (List.mem_cons_of_mem _ List.mem_cons_self)
      simp only [List.map_cons, List.map_nil, List.sum_cons, List.sum_nil] at below ⊢
      rw [countedBy, if_neg (by omega), countedBy, if_neg (by omega)]
      omega
    | first :: second :: third :: rest, larger, below =>
      have firstLarger : small ≤ size first := larger first List.mem_cons_self
      have secondLarger : small ≤ size second := larger second (List.mem_cons_of_mem _ List.mem_cons_self)
      have thirdLarger : small ≤ size third :=
        larger third (List.mem_cons_of_mem _ (List.mem_cons_of_mem _ List.mem_cons_self))
      simp only [List.map_cons, List.sum_cons] at below
      omega

/-- A bin that has no room for another item holds two, or one that counts twice. -/
theorem two_le_counted_bin (fits : small ≤ most) (above : least ≤ load size bin) (full : most < least + small) :
    2 ≤ load (countedBy size most small) bin := by
  induction bin using Quotient.inductionOn with
  | h items =>
    change least ≤ load size (items : Multiset α) at above
    change 2 ≤ load (countedBy size most small) (items : Multiset α)
    rw [load_coe] at above ⊢
    match items, above with
    | [], above =>
      simp only [List.map_nil, List.sum_nil] at above
      omega
    | [only], above =>
      simp only [List.map_cons, List.map_nil, List.sum_cons, List.sum_nil] at above ⊢
      rw [countedBy, if_pos (by omega)]
      omega
    | first :: second :: rest, _ =>
      have one : 1 ≤ countedBy size most small first := countedBy_pos
      have two : 1 ≤ countedBy size most small second := countedBy_pos
      simp only [List.map_cons, List.sum_cons]
      omega

end Counting

/-- Where an item larger than a third of `most` comes after larger ones only, there is
room for it: as many bins cannot all be full when the items can be shared out. -/
theorem room_for_large (above : ∀ bin ∈ bins, least ≤ load size bin)
    (larger : ∀ other ∈ bins.sum, size item ≤ size other)
    (shared : SharedOut size bins.length (item ::ₘ bins.sum) most) (third : most < 3 * size item) :
    least + size item ≤ most := by
  by_contra overfull
  have fits := shared.size_le
  obtain ⟨parts, sized, total, below⟩ := shared
  have larger' : ∀ other ∈ parts.sum, size item ≤ size other := by
    intro other listed
    rw [total] at listed
    rcases Multiset.mem_cons.mp listed with rfl | before
    · exact le_rfl
    · exact larger other before
  have few : load (countedBy size most (size item)) parts.sum ≤ parts.length * 2 := by
    refine load_sum_le fun part isPart => counted_part_le (fun other listed => ?_) third (below part isPart)
    exact larger' other (mem_sum_iff.mpr ⟨part, isPart, listed⟩)
  have many : bins.length * 2 ≤ load (countedBy size most (size item)) bins.sum :=
    le_load_sum fun bin isBin => two_le_counted_bin fits (above bin isBin) (by omega)
  have own : 1 ≤ countedBy size most (size item) item := countedBy_pos
  rw [total, load_cons, sized] at few
  omega

/-- The load an item makes when it is put on the lightest of the bins. -/
theorem lightest_bound (above : ∀ bin ∈ bins, least ≤ load size bin)
    (larger : ∀ other ∈ bins.sum, size item ≤ size other)
    (shared : SharedOut size bins.length (item ::ₘ bins.sum) most) (someBin : bins ≠ []) :
    3 * bins.length * (least + size item) ≤ (4 * bins.length - 1) * most := by
  obtain ⟨others, isLength⟩ : ∃ others, bins.length = others + 1 :=
    Nat.exists_eq_add_one.mpr (List.length_pos_iff.mpr someBin)
  have whole : (4 * bins.length - 1) * most = 3 * (bins.length * most) + others * most := by
    rw [isLength]
    have factor : 4 * (others + 1) - 1 = 3 * (others + 1) + others := by omega
    rw [factor]
    ring
  rw [whole]
  by_cases third : 3 * size item ≤ most
  · -- The other items fill the bins up to the least load, and the item is small.
    have total := shared.load_le
    rw [load_cons] at total
    have filled := le_load_sum above
    have extra : others * (3 * size item) ≤ others * most := Nat.mul_le_mul_left others third
    calc 3 * bins.length * (least + size item)
        = 3 * (size item + bins.length * least) + others * (3 * size item) := by
          rw [isLength]
          ring
      _ ≤ 3 * (size item + load size bins.sum) + others * (3 * size item) := by gcongr
      _ ≤ 3 * (bins.length * most) + others * most := by gcongr
  · have room := room_for_large above larger shared (by omega)
    calc 3 * bins.length * (least + size item) ≤ 3 * bins.length * most := Nat.mul_le_mul_left _ room
      _ = 3 * (bins.length * most) := Nat.mul_assoc 3 bins.length most
      _ ≤ 3 * (bins.length * most) + others * most := Nat.le_add_right _ _

/-- From the largest to the smallest item, no load exceeds the bound. -/
theorem largest_first_bound (run : Reaches (Places size) bins items placed) (someBin : bins ≠ [])
    (descending : items.Pairwise fun first second => size second ≤ size first)
    (larger : ∀ other ∈ bins.sum, ∀ item ∈ items, size item ≤ size other)
    (shared : SharedOut size bins.length ((items : Multiset α) + bins.sum) most)
    (below : ∀ bin ∈ bins, 3 * bins.length * load size bin ≤ (4 * bins.length - 1) * most) :
    ∀ bin ∈ placed, 3 * bins.length * load size bin ≤ (4 * bins.length - 1) * most := by
  induction run with
  | refl => exact below
  | @next bins item next rest placed head tail ih =>
    obtain ⟨smaller, laterDescending⟩ := List.pairwise_cons.mp descending
    obtain ⟨top, isBin, lightest, others⟩ := head.bins_cases
    have sameLength := head.length_eq
    have isSum := head.sum_eq
    have split : ((item :: rest : List α) : Multiset α) + bins.sum = (rest : Multiset α) + (item ::ₘ bins.sum) := by
      rw [← Multiset.cons_coe, Multiset.cons_add, Multiset.add_cons]
    rw [split] at shared
    rw [← sameLength]
    refine ih ?_ laterDescending ?_ ?_ ?_
    · rw [← List.length_pos_iff] at someBin ⊢
      omega
    · intro other listed later isLater
      rw [isSum] at listed
      rcases Multiset.mem_cons.mp listed with rfl | before
      · exact smaller later isLater
      · exact larger other before later (List.mem_cons_of_mem _ isLater)
    · rw [sameLength, isSum]
      exact shared
    · intro bin listed
      rw [sameLength]
      rcases others bin listed with rfl | before
      · rw [load_cons, Nat.add_comm]
        exact lightest_bound lightest (fun other before => larger other before item List.mem_cons_self)
          shared.of_add someBin
      · exact below bin before

end Foundations.Scheduling
