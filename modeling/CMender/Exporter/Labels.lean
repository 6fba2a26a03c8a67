import Mathlib.Data.BitVec
import Mathlib.Data.List.Chain

/-! The labels of the diagnostics. Clang numbers the diagnostics of each category from the
category's start, with gaps between the categories, and the table of the labels has no
gaps. The exporter finds the place of a number in the table with a chain of comparisons
in unsigned arithmetic. -/
namespace CMender.Exporter

inductive DiagCategory where
  | common | driver | frontend | serialization | lex | parse | ast | comment | crosstu | sema
  | analysis | refactoring
deriving DecidableEq, Repr

/-- The categories in the order in which the table includes them. -/
def DiagCategory.included : List DiagCategory :=
  [.common, .driver, .frontend, .serialization, .lex, .parse, .ast, .comment, .crosstu, .sema,
    .analysis, .refactoring]

/-- The numbers of `START + 1` up to `START + count` are a category's, and each category
ends before the next one starts. -/
structure DiagLayout where
  start : DiagCategory → Nat
  labels : DiagCategory → List String
  upperLimit : Nat
  ordered : DiagCategory.included.IsChain fun prev next => start prev + (labels prev).length < start next
  below_upperLimit : start .refactoring + (labels .refactoring).length < upperLimit
  upperLimit_lt : upperLimit < 2 ^ 32

/-- The two running numbers of the chain. -/
structure LabelIndex where
  offset : BitVec 32
  id : BitVec 32

namespace DiagLayout
variable (layout : DiagLayout)

def count (category : DiagCategory) : Nat := (layout.labels category).length

def diagStart (category : DiagCategory) : BitVec 32 := BitVec.ofNat 32 (layout.start category)

/-- `NUM_BUILTIN_..._DIAGNOSTICS` closes the enumeration of a category. -/
def numBuiltin (category : DiagCategory) : BitVec 32 :=
  BitVec.ofNat 32 (layout.start category + 1 + layout.count category)

/-- The array has `DIAG_UPPER_LIMIT` entries; those without an initialiser are empty. -/
def diagLabelIdsTable : List String :=
  let labels := DiagCategory.included.flatMap layout.labels
  labels ++ List.replicate (layout.upperLimit - labels.length) ""

def diagsNum : BitVec 32 := BitVec.ofNat 32 layout.diagLabelIdsTable.length

/-- `CATEGORY(NAME, PREV)` -/
def category (diagID : BitVec 32) (index : LabelIndex) (named : DiagCategory × DiagCategory) : LabelIndex :=
  let (name, prev) := named
  if diagID > layout.diagStart name then
    ⟨index.offset + (layout.numBuiltin prev - layout.diagStart prev - 1),
      index.id - (layout.diagStart name - layout.diagStart prev)⟩
  else index

/-- The uses of the macro. -/
def categories : List (DiagCategory × DiagCategory) :=
  [(.driver, .common), (.frontend, .driver), (.serialization, .frontend), (.lex, .serialization),
    (.parse, .lex), (.ast, .parse), (.comment, .ast), (.crosstu, .comment), (.sema, .crosstu),
    (.analysis, .sema), (.refactoring, .analysis)]

def labelIndex (diagID : BitVec 32) : LabelIndex :=
  categories.foldl (layout.category diagID) ⟨0, diagID - layout.diagStart .common - 1⟩

def labelPosition (diagID : BitVec 32) : BitVec 32 :=
  (layout.labelIndex diagID).id + (layout.labelIndex diagID).offset

def getLabelId (diagID : BitVec 32) : Option String :=
  if BitVec.ofNat 32 layout.upperLimit ≤ diagID ∨ diagID ≤ layout.diagStart .common then none
  else if layout.diagsNum ≤ layout.labelPosition diagID then none
  else layout.diagLabelIdsTable[(layout.labelPosition diagID).toNat]?

end DiagLayout

/-! ### The same computation, stopped where it would wrap -/

def add? (x y : BitVec 32) : Option (BitVec 32) := if x.uaddOverflow y then none else some (x + y)

def sub? (x y : BitVec 32) : Option (BitVec 32) := if x.usubOverflow y then none else some (x - y)

namespace DiagLayout
variable (layout : DiagLayout)

def category? (diagID : BitVec 32) (index : LabelIndex) (named : DiagCategory × DiagCategory) :
    Option LabelIndex :=
  let (name, prev) := named
  if diagID > layout.diagStart name then do
    let counted ← sub? (← sub? (layout.numBuiltin prev) (layout.diagStart prev)) 1
    let offset ← add? index.offset counted
    let id ← sub? index.id (← sub? (layout.diagStart name) (layout.diagStart prev))
    return ⟨offset, id⟩
  else some index

def labelIndex? (diagID : BitVec 32) : Option LabelIndex := do
  let id ← sub? (← sub? diagID (layout.diagStart .common)) 1
  categories.foldlM (layout.category? diagID) ⟨0, id⟩

def labelPosition? (diagID : BitVec 32) : Option (BitVec 32) := do
  let index ← layout.labelIndex? diagID
  add? index.id index.offset

end DiagLayout

section Unsigned
variable {x y z : BitVec 32}

theorem add?_eq_some : add? x y = some z ↔ x.toNat + y.toNat < 2 ^ 32 ∧ x + y = z := by
  simp [add?, BitVec.uaddOverflow]

theorem sub?_eq_some : sub? x y = some z ↔ y.toNat ≤ x.toNat ∧ x - y = z := by
  simp [sub?, BitVec.usubOverflow]

theorem add?_fits (fits : x.toNat + y.toNat < 2 ^ 32) : ∃ sum, add? x y = some sum ∧ sum.toNat = x.toNat + y.toNat :=
  ⟨x + y, add?_eq_some.mpr ⟨fits, rfl⟩, BitVec.toNat_add_of_lt fits⟩

theorem sub?_fits (fits : y.toNat ≤ x.toNat) :
    ∃ difference, sub? x y = some difference ∧ difference.toNat = x.toNat - y.toNat :=
  ⟨x - y, sub?_eq_some.mpr ⟨fits, rfl⟩, BitVec.toNat_sub_of_le (BitVec.le_def.mpr fits)⟩

end Unsigned

namespace DiagLayout
variable {layout : DiagLayout} {diagID : BitVec 32} {index : LabelIndex} {name prev here : DiagCategory}

theorem pairwise_included : DiagCategory.included.Pairwise fun prev next =>
    layout.start prev + layout.count prev < layout.start next := by
  have transitive : IsTrans DiagCategory fun prev next =>
      layout.start prev + layout.count prev < layout.start next :=
    ⟨fun first second third before behind => by omega⟩
  exact List.isChain_iff_pairwise.mp layout.ordered

theorem end_lt_upperLimit (category : DiagCategory) :
    layout.start category + layout.count category < layout.upperLimit := by
  have last := layout.below_upperLimit
  have apart : (DiagCategory.included.dropLast ++ [DiagCategory.refactoring]).Pairwise fun prev next =>
      layout.start prev + layout.count prev < layout.start next := layout.pairwise_included
  by_cases isLast : category = .refactoring
  · subst isLast
    exact last
  · have earlier : category ∈ DiagCategory.included.dropLast := by
      cases category with
      | refactoring => exact absurd rfl isLast
      | _ => decide
    have before := (List.pairwise_append.mp apart).2.2 category earlier .refactoring List.mem_cons_self
    omega

theorem end_lt (category : DiagCategory) : layout.start category + layout.count category < 2 ^ 32 - 1 := by
  have ended := layout.end_lt_upperLimit category
  have limit := layout.upperLimit_lt
  omega

theorem toNat_diagStart (category : DiagCategory) : (layout.diagStart category).toNat = layout.start category := by
  have fits := layout.end_lt category
  rw [diagStart, BitVec.toNat_ofNat]
  exact Nat.mod_eq_of_lt (by omega)

theorem toNat_numBuiltin (category : DiagCategory) :
    (layout.numBuiltin category).toNat = layout.start category + 1 + layout.count category := by
  have fits := layout.end_lt category
  rw [numBuiltin, BitVec.toNat_ofNat]
  exact Nat.mod_eq_of_lt (by omega)

/-- A category that starts at the number or behind it leaves the index as it is. -/
theorem category?_behind (behind : diagID.toNat ≤ layout.start name) :
    layout.category? diagID index (name, prev) = some index := by
  rw [category?]
  refine if_neg ?_
  rw [gt_iff_lt, BitVec.lt_def, toNat_diagStart]
  omega

/-- A category that starts before the number moves both numbers on to it. -/
theorem category?_before (ordered : layout.start prev + layout.count prev < layout.start name)
    (before : layout.start name < diagID.toNat) (offset : index.offset.toNat ≤ layout.start prev)
    (id : index.id.toNat = diagID.toNat - layout.start prev - 1) :
    ∃ next, layout.category? diagID index (name, prev) = some next ∧
      next.offset.toNat = index.offset.toNat + layout.count prev ∧
      next.id.toNat = diagID.toNat - layout.start name - 1 := by
  have fits := diagID.isLt
  have taken : diagID > layout.diagStart name := by
    rw [gt_iff_lt, BitVec.lt_def, toNat_diagStart]
    exact before
  obtain ⟨ended, ends, endedAt⟩ : ∃ ended, sub? (layout.numBuiltin prev) (layout.diagStart prev) = some ended ∧
      ended.toNat = layout.count prev + 1 := by
    obtain ⟨ended, ends, endedAt⟩ := sub?_fits (x := layout.numBuiltin prev) (y := layout.diagStart prev)
      (by rw [toNat_numBuiltin, toNat_diagStart]; omega)
    rw [toNat_numBuiltin, toNat_diagStart] at endedAt
    exact ⟨ended, ends, by omega⟩
  obtain ⟨counted, counts, countedAt⟩ := sub?_fits (x := ended) (y := 1) (by rw [endedAt]; exact Nat.le_add_left _ _)
  have counted_eq : counted.toNat = layout.count prev := by
    rw [countedAt, endedAt]
    rfl
  obtain ⟨moved, moves, movedTo⟩ := add?_fits (x := index.offset) (y := counted) (by omega)
  obtain ⟨gap, gaps, gapIs⟩ := sub?_fits (x := layout.diagStart name) (y := layout.diagStart prev)
    (by rw [toNat_diagStart, toNat_diagStart]; omega)
  rw [toNat_diagStart, toNat_diagStart] at gapIs
  obtain ⟨left, lefts, leftIs⟩ := sub?_fits (x := index.id) (y := gap) (by omega)
  have moved_eq : moved.toNat = index.offset.toNat + layout.count prev := by omega
  have left_eq : left.toNat = diagID.toNat - layout.start name - 1 := by omega
  refine ⟨⟨moved, left⟩, ?_, moved_eq, left_eq⟩
  rw [category?]
  simp only [taken, if_true, ends, counts, moves, gaps, lefts, Option.bind_eq_bind, Option.bind_some]
  rfl

/-- The number of diagnostics in the categories in front of a category. -/
def countBefore (layout : DiagLayout) (here : DiagCategory) (categories : List DiagCategory) : Nat :=
  ((categories.takeWhile (· != here)).map layout.count).sum

theorem countBefore_self {rest : List DiagCategory} : layout.countBefore here (here :: rest) = 0 := by
  simp [countBefore]

theorem countBefore_cons {rest : List DiagCategory} (other : here ≠ prev) :
    layout.countBefore here (prev :: rest) = layout.count prev + layout.countBefore here rest := by
  simp [countBefore, Ne.symm other]

/-- The numbers of a category's diagnostics. -/
def Numbers (layout : DiagLayout) (here : DiagCategory) (diagID : BitVec 32) : Prop :=
  layout.start here < diagID.toNat ∧ diagID.toNat ≤ layout.start here + layout.count here

theorem categories?_behind {rest previous : List DiagCategory}
    (behind : ∀ name ∈ rest, diagID.toNat ≤ layout.start name) :
    (rest.zip previous).foldlM (layout.category? diagID) index = some index := by
  induction rest generalizing previous with
  | nil => rfl
  | cons name rest ih =>
    cases previous with
    | nil => rfl
    | cons prev previous =>
      rw [List.zip_cons_cons, List.foldlM_cons, category?_behind (behind name List.mem_cons_self)]
      exact ih fun name listed => behind name (List.mem_cons_of_mem _ listed)

/-- The chain from a category on stops at the category of the number. -/
theorem categories?_run {rest : List DiagCategory}
    (ordered : (prev :: rest).Pairwise fun prev next => layout.start prev + layout.count prev < layout.start next)
    (listed : here ∈ prev :: rest) (valid : layout.Numbers here diagID)
    (offset : index.offset.toNat ≤ layout.start prev) (id : index.id.toNat = diagID.toNat - layout.start prev - 1) :
    ∃ last, (rest.zip (prev :: rest)).foldlM (layout.category? diagID) index = some last ∧
      last.offset.toNat = index.offset.toNat + layout.countBefore here (prev :: rest) ∧
      last.offset.toNat ≤ layout.start here ∧ last.id.toNat = diagID.toNat - layout.start here - 1 := by
  induction rest generalizing prev index with
  | nil =>
    obtain rfl := List.mem_singleton.mp listed
    exact ⟨index, rfl, by rw [countBefore_self, Nat.add_zero], offset, id⟩
  | cons next rest ih =>
    obtain ⟨led, later⟩ := List.pairwise_cons.mp ordered
    by_cases isPrev : here = prev
    · -- Every later category starts behind the number.
      subst isPrev
      refine ⟨index, categories?_behind ?_, by rw [countBefore_self, Nat.add_zero], offset, id⟩
      intro name behind
      exact Nat.le_of_lt (Nat.lt_of_le_of_lt valid.2 (led name behind))
    · have isLater : here ∈ next :: rest := (List.mem_cons.mp listed).resolve_left isPrev
      have before : layout.start next < diagID.toNat := by
        rcases List.mem_cons.mp isLater with rfl | behind
        · exact valid.1
        · have := (List.pairwise_cons.mp later).1 here behind
          have := valid.1
          omega
      have gap := led next List.mem_cons_self
      obtain ⟨moved, moves, movedOffset, movedId⟩ := category?_before gap before offset id
      obtain ⟨last, runs, lastOffset, bounded, lastId⟩ := ih later isLater (by omega) movedId
      refine ⟨last, ?_, ?_, bounded, lastId⟩
      · rw [List.zip_cons_cons, List.foldlM_cons, moves]
        exact runs
      · rw [lastOffset, movedOffset, countBefore_cons isPrev, Nat.add_assoc]

theorem labels_at {categories : List DiagCategory} (listed : here ∈ categories) {i : Nat}
    (inside : i < layout.count here) :
    (categories.flatMap layout.labels)[layout.countBefore here categories + i]? = (layout.labels here)[i]? := by
  induction categories with
  | nil => cases listed
  | cons first rest ih =>
    rw [List.flatMap_cons]
    by_cases isFirst : here = first
    · subst isFirst
      rw [countBefore_self, Nat.zero_add, List.getElem?_append_left inside]
    · have isLater := (List.mem_cons.mp listed).resolve_left isFirst
      have behind : (layout.labels first).length ≤ layout.count first + layout.countBefore here rest + i := by
        rw [count]
        omega
      have shifted : layout.count first + layout.countBefore here rest + i - (layout.labels first).length =
          layout.countBefore here rest + i := by
        rw [count]
        omega
      rw [countBefore_cons isFirst, List.getElem?_append_right behind, shifted]
      exact ih isLater

/-! The exporter's own numbers are those of the computation that does not wrap. -/

theorem category_eq {named : DiagCategory × DiagCategory} {next : LabelIndex}
    (moves : layout.category? diagID index named = some next) : layout.category diagID index named = next := by
  obtain ⟨name, prev⟩ := named
  rw [category?] at moves
  rw [category]
  split at moves
  · rename_i taken
    rw [if_pos taken]
    obtain ⟨_, ends, moves⟩ := Option.bind_eq_some_iff.mp moves
    obtain ⟨_, counts, moves⟩ := Option.bind_eq_some_iff.mp moves
    obtain ⟨_, adds, moves⟩ := Option.bind_eq_some_iff.mp moves
    obtain ⟨_, gaps, moves⟩ := Option.bind_eq_some_iff.mp moves
    obtain ⟨_, lefts, moves⟩ := Option.bind_eq_some_iff.mp moves
    rw [(sub?_eq_some.mp ends).2, (sub?_eq_some.mp counts).2, (add?_eq_some.mp adds).2, (sub?_eq_some.mp gaps).2,
      (sub?_eq_some.mp lefts).2]
    exact Option.some.inj moves
  · rename_i skipped
    rw [if_neg skipped]
    exact Option.some.inj moves

theorem categories_eq {named : List (DiagCategory × DiagCategory)} {last : LabelIndex}
    (runs : named.foldlM (layout.category? diagID) index = some last) :
    named.foldl (layout.category diagID) index = last := by
  induction named generalizing index with
  | nil => exact Option.some.inj runs
  | cons first rest ih =>
    rw [List.foldlM_cons] at runs
    obtain ⟨next, moves, runs⟩ := Option.bind_eq_some_iff.mp runs
    rw [List.foldl_cons, category_eq moves]
    exact ih runs

theorem labelIndex_eq (runs : layout.labelIndex? diagID = some index) : layout.labelIndex diagID = index := by
  obtain ⟨_, starts, runs⟩ := Option.bind_eq_some_iff.mp runs
  obtain ⟨_, ids, runs⟩ := Option.bind_eq_some_iff.mp runs
  rw [labelIndex, (sub?_eq_some.mp starts).2, (sub?_eq_some.mp ids).2]
  exact categories_eq runs

theorem mem_included (category : DiagCategory) : category ∈ DiagCategory.included := by
  cases category <;> decide

theorem start_common_le (category : DiagCategory) : layout.start .common ≤ layout.start category := by
  rcases List.mem_cons.mp (mem_included category) with rfl | later
  · exact Nat.le_refl _
  · have := (List.pairwise_cons.mp layout.pairwise_included).1 category later
    omega

theorem labelIndex?_valid (valid : layout.Numbers here diagID) : ∃ index, layout.labelIndex? diagID = some index ∧
    index.offset.toNat = layout.countBefore here DiagCategory.included ∧
    index.offset.toNat ≤ layout.start here ∧ index.id.toNat = diagID.toNat - layout.start here - 1 := by
  have first := layout.start_common_le here
  have behindFirst := valid.1
  obtain ⟨shifted, shifts, shiftedBy⟩ := sub?_fits (x := diagID) (y := layout.diagStart .common)
    (by rw [toNat_diagStart]; omega)
  rw [toNat_diagStart] at shiftedBy
  obtain ⟨id, ids, idIs⟩ := sub?_fits (x := shifted) (y := 1) (by change 1 ≤ shifted.toNat; omega)
  have idIs : id.toNat = diagID.toNat - layout.start .common - 1 := by
    rw [idIs, shiftedBy]
    rfl
  have notBehind : (LabelIndex.mk 0 id).offset.toNat ≤ layout.start .common := Nat.zero_le _
  obtain ⟨last, runs, lastOffset, bounded, lastId⟩ :=
    categories?_run layout.pairwise_included (mem_included here) valid notBehind idIs
  refine ⟨last, ?_, lastOffset.trans (Nat.zero_add _), bounded, lastId⟩
  rw [labelIndex?, shifts, Option.bind_eq_bind, Option.bind_some, ids]
  exact runs

/-- The labels fit into the array. -/
theorem length_diagLabelIdsTable : layout.diagLabelIdsTable.length = layout.upperLimit := by
  have ordered := layout.ordered
  have last := layout.below_upperLimit
  simp only [DiagCategory.included, List.isChain_cons_cons] at ordered
  have room : (DiagCategory.included.flatMap layout.labels).length ≤ layout.upperLimit := by
    simp only [DiagCategory.included, List.flatMap_cons, List.flatMap_nil, List.length_append, List.length_nil]
    omega
  rw [diagLabelIdsTable, List.length_append, List.length_replicate]
  omega

theorem toNat_diagsNum : layout.diagsNum.toNat = layout.upperLimit := by
  rw [diagsNum, length_diagLabelIdsTable, BitVec.toNat_ofNat]
  exact Nat.mod_eq_of_lt layout.upperLimit_lt

theorem lt_upperLimit (valid : layout.Numbers here diagID) : diagID.toNat < layout.upperLimit :=
  Nat.lt_of_le_of_lt valid.2 (layout.end_lt_upperLimit here)

/-- The guard of the numbers outside the enumeration lets every diagnostic through. -/
theorem guard_valid (valid : layout.Numbers here diagID) :
    ¬ (BitVec.ofNat 32 layout.upperLimit ≤ diagID ∨ diagID ≤ layout.diagStart .common) := by
  have limited := layout.lt_upperLimit valid
  have first := layout.start_common_le here
  have behindFirst := valid.1
  rw [BitVec.le_def, BitVec.le_def, toNat_diagStart, BitVec.toNat_ofNat, Nat.mod_eq_of_lt layout.upperLimit_lt]
  omega

/-- For every layout the number of a diagnostic leads to its label, without wrapping. -/
theorem getLabelId_label (layout : DiagLayout) {here : DiagCategory} {diagID : BitVec 32}
    (valid : layout.Numbers here diagID) : ∃ position label,
      layout.labelPosition? diagID = some position ∧ layout.labelPosition diagID = position ∧
      position.toNat = layout.countBefore here DiagCategory.included + (diagID.toNat - layout.start here - 1) ∧
      (layout.labels here)[diagID.toNat - layout.start here - 1]? = some label ∧
      layout.getLabelId diagID = some label := by
  have behind := valid.1
  have ended := valid.2
  have limited := layout.lt_upperLimit valid
  obtain ⟨index, runs, offset, bounded, id⟩ := layout.labelIndex?_valid valid
  have inCategory : diagID.toNat - layout.start here - 1 < layout.count here := by omega
  obtain ⟨position, adds, added⟩ := add?_fits (x := index.id) (y := index.offset) (by omega)
  have checked : layout.labelPosition? diagID = some position := by
    rw [labelPosition?, runs]
    exact adds
  have computed : layout.labelPosition diagID = position := by
    rw [labelPosition, labelIndex_eq runs]
    exact (add?_eq_some.mp adds).2
  have placed : position.toNat = layout.countBefore here DiagCategory.included +
      (diagID.toNat - layout.start here - 1) := by omega
  obtain ⟨label, labelled⟩ : ∃ label, (layout.labels here)[diagID.toNat - layout.start here - 1]? = some label :=
    ⟨_, List.getElem?_eq_getElem inCategory⟩
  refine ⟨position, label, checked, computed, placed, labelled, ?_⟩
  have inTable : layout.diagLabelIdsTable[position.toNat]? = some label := by
    have found := (layout.labels_at (mem_included here) inCategory).trans labelled
    rw [placed, diagLabelIdsTable, List.getElem?_append_left (List.getElem?_eq_some_iff.mp found).1]
    exact found
  have inBounds : ¬ layout.diagsNum ≤ layout.labelPosition diagID := by
    rw [computed, BitVec.le_def, toNat_diagsNum]
    omega
  rw [getLabelId, if_neg (guard_valid valid), if_neg inBounds, computed]
  exact inTable

/-- A layout in which most of the categories are empty. -/
def fewLabels : DiagLayout where
  start category := 10 * category.ctorIdx
  labels
    | .common => ["fatal_too_many_errors"]
    | .frontend => ["err_fe_error_opening", "err_fe_error_reading"]
    | _ => []
  upperLimit := 120
  ordered := by simp only [DiagCategory.included]; decide
  below_upperLimit := by decide
  upperLimit_lt := by decide

theorem getLabelId_label_few :
    fewLabels.Numbers .frontend 22 ∧ fewLabels.getLabelId 22 = some "err_fe_error_reading" := by
  have valid : fewLabels.Numbers .frontend 22 := by
    rw [Numbers]
    decide
  obtain ⟨_, label, _, _, _, labelled, found⟩ := getLabelId_label fewLabels valid
  refine ⟨valid, found.trans ?_⟩
  rw [← labelled]
  rfl

end DiagLayout
end CMender.Exporter
