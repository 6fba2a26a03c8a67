import CMender.Analysis.Batches
import CMender.Mending.OrdinaryNames
import Mathlib.Data.Set.Card

/-! One declaration for each ordinary identifier. The passes of the analysis compare
undeclared variables and unknown type names with each other, but implicit functions
with nothing, and generated aliases are no names they could know of. -/
namespace CMender
open Foundations Foundations.Execution BasicMultipleErrorsAnalysis

section Batches
variable {sourceResult : DiagExporterSourceResult} {batch : List Diagnostic}

/-- How many aliases the handlers of the batch generate. -/
noncomputable def aliasesNeeded (sourceResult : DiagExporterSourceResult) : Nat :=
  Set.ncard {idx | ∃ diag, FirstOfKind sourceResult idx diag ∧ alwaysAliased diag = true}

theorem wanted_of_ownName {diag : Diagnostic} {name : OrdinaryKind × String} (named : ownName diag = some name) :
    wanted diag = true := by
  cases id : diag.diagnosticID with
  | extImplicitFunctionDeclC99 | errUndeclaredVarUse | errUndeclaredVarUseSuggest | errUnknownTypename
  | errUnknownTypenameSuggest =>
    simp only [wanted, id]
    rfl
  | _ => simp [ownName, id] at named

theorem not_subscript_of_wanted {diag : Diagnostic} (isWanted : wanted diag = true) :
    diag.diagnosticID ≠ .errTypecheckSubscriptValue := by
  intro id
  simp only [wanted, id] at isWanted
  revert isWanted
  decide

/-- A batch in order: its diagnostics are the first of their kinds. -/
structure OrderedBatch (sourceResult : DiagExporterSourceResult) (batch : List Diagnostic) : Prop where
  mem_iff : ∀ diag, diag ∈ batch ↔ ∃ idx, FirstOfKind sourceResult idx diag
  aliases : batch.countP alwaysAliased = aliasesNeeded sourceResult

theorem countP_eq_ncard {idxs : List Nat} (nodup : idxs.Nodup)
    (found : idxs.mapM (getAt sourceResult.diags) = .ok batch) (p : Diagnostic → Bool) :
    batch.countP p = Set.ncard {idx | idx ∈ idxs ∧ ∃ diag, sourceResult.diags[idx]? = some diag ∧ p diag = true} := by
  have same := map_getElem?_of_mapM found
  let holdsAt (idx : Nat) : Bool := (sourceResult.diags[idx]?).any p
  have counted : batch.countP p = (idxs.filter holdsAt).length := by
    calc batch.countP p = (batch.map some).countP (·.any p) := by
          rw [List.countP_map]
          rfl
      _ = (idxs.filter holdsAt).length := by
          rw [← same, List.countP_map, List.countP_eq_length_filter]
          rfl
  have members : {idx | idx ∈ idxs ∧ ∃ diag, sourceResult.diags[idx]? = some diag ∧ p diag = true} =
      ((idxs.filter holdsAt).toFinset : Set Nat) := by
    ext idx
    simp [holdsAt, Option.any_eq_true]
  rw [counted, members, Set.ncard_coe_finset, List.toFinset_card_of_nodup (nodup.filter _)]

/-- With the type names in front, the batch is in order, or nothing was wanted and one
diagnostic was selected that is about no ordinary identifier. -/
theorem orderedBatch_or_single (ordered : TypenamesFirst sourceResult)
    (selects : Selects .basicMultipleErrors sourceResult batch) :
    OrderedBatch sourceResult batch ∨ (∀ idx diag, ¬ FirstOfKind sourceResult idx diag) ∧
      ∀ diag ∈ batch, ownName diag = none := by
  obtain ⟨idxs, selected, found⟩ := selects
  cases selectDiagnostics_ok selected with
  | batch _ increasing _ chosen kept =>
    have listed : ∀ idx, idx ∈ idxs ↔ ∃ diag, FirstOfKind sourceResult idx diag :=
      fun idx => ⟨kept ordered idx, fun ⟨diag, first⟩ => chosen first (.inl ordered)⟩
    left
    constructor
    · intro diag
      rw [mem_of_mapM found]
      constructor
      · rintro ⟨idx, member, present⟩
        obtain ⟨own, first⟩ := (listed idx).mp member
        obtain rfl := Option.some.inj (present.symm.trans first.first.present)
        exact ⟨idx, first⟩
      · rintro ⟨idx, first⟩
        exact ⟨idx, (listed idx).mpr ⟨diag, first⟩, first.first.present⟩
    · rw [countP_eq_ncard (increasing.imp Nat.ne_of_lt) found, aliasesNeeded]
      congr 1
      ext idx
      simp only [Set.mem_ofPred_eq, listed]
      constructor
      · rintro ⟨⟨own, first⟩, diag, present, aliased⟩
        obtain rfl := Option.some.inj (present.symm.trans first.first.present)
        exact ⟨diag, first, aliased⟩
      · rintro ⟨diag, first, aliased⟩
        exact ⟨⟨diag, first⟩, diag, first.first.present, aliased⟩
  | firstError nothing single =>
    have nothing : ∀ idx diag, ¬ FirstOfKind sourceResult idx diag :=
      fun idx diag first => nothing first (.inl ordered)
    refine .inr ⟨nothing, fun diag member => ?_⟩
    obtain ⟨idx, _, present⟩ := (mem_of_mapM found).mp member
    by_contra named
    obtain ⟨name, named⟩ := Option.ne_none_iff_exists'.mp named
    obtain ⟨first, other, kind⟩ := exists_firstOfKind (List.mem_of_getElem? present) (wanted_of_ownName named)
    exact nothing first other kind

end Batches

/-- Diagnostics that are first of their kinds declare no name as two kinds, and no
variable or function has the name of an alias that is generated for the batch. -/
structure NamesApart (names : MendingTypeNameGenerator) (sourceResult : DiagExporterSourceResult) : Prop where
  own : ∀ idx diag later other name kind otherKind, FirstOfKind sourceResult idx diag →
    FirstOfKind sourceResult later other → ownName diag = some (kind, name) →
    ownName other = some (otherKind, name) → kind = otherKind
  generated : ∀ idx diag kind name count, FirstOfKind sourceResult idx diag → ownName diag = some (kind, name) →
    kind ≠ .typedef → count < aliasesNeeded sourceResult →
    name ≠ MendingTypeNameGenerator.typedefAliasName (names.typedefAliasNameCounter + count)

section Mending
variable {includePath : String} {names : MendingTypeNameGenerator} {files : FileSystem} {t : MendingState}
  {sourceResult : DiagExporterSourceResult} {batch : List Diagnostic}

theorem declared_from_empty (run : Reaches (Step includePath) (.initial names files) batch t) (name : String)
    (kind : OrdinaryKind) : t.table.declares name kind = true ↔
      (∃ diag ∈ batch, ownName diag = some (kind, name)) ∨
        kind = .typedef ∧ ∃ count, names.typedefAliasNameCounter ≤ count ∧
          count < t.names.typedefAliasNameCounter ∧ name = MendingTypeNameGenerator.typedefAliasName count := by
  have nothing : ¬ (MendingState.initial names files).table.declares name kind = true := by
    cases kind <;> exact Bool.false_ne_true
  exact ((declaredByRun run).names name kind).trans (or_iff_right nothing)

theorem OrderedBatch.keySetsDisjoint_iff (ordered : OrderedBatch sourceResult batch)
    (run : Reaches (Step includePath) (.initial names files) batch t) :
    t.table.KeySetsDisjoint ↔ NamesApart names sourceResult := by
  have declared := declared_from_empty run
  have counter : t.names.typedefAliasNameCounter =
      names.typedefAliasNameCounter + aliasesNeeded sourceResult := by
    rw [← ordered.aliases]
    refine counter_of_run run fun diag member => ?_
    obtain ⟨idx, kind⟩ := (ordered.mem_iff diag).mp member
    exact not_subscript_of_wanted kind.first.isWanted
  have own {idx : Nat} {diag : Diagnostic} {kind : OrdinaryKind} {name : String}
      (first : FirstOfKind sourceResult idx diag) (named : ownName diag = some (kind, name)) :
      t.table.declares name kind = true :=
    (declared name kind).mpr (.inl ⟨diag, (ordered.mem_iff diag).mpr ⟨idx, first⟩, named⟩)
  rw [MendingTable.keySetsDisjoint_iff]
  constructor
  · intro oneKind
    constructor
    · intro idx diag later other name kind otherKind first second named otherNamed
      exact oneKind name kind otherKind (own first named) (own second otherNamed)
    · rintro idx diag kind name count first named notTypedef few rfl
      have generated := (declared _ .typedef).mpr (.inr ⟨rfl, _, Nat.le_add_right _ count, by omega, rfl⟩)
      exact notTypedef (oneKind _ kind .typedef (own first named) generated)
  · intro apart
    -- A name of a diagnostic and a generated alias are the same only for a typedef.
    have mixed {name : String} {kind : OrdinaryKind} {diag : Diagnostic} {count : Nat} (member : diag ∈ batch)
        (named : ownName diag = some (kind, name)) (low : names.typedefAliasNameCounter ≤ count)
        (high : count < t.names.typedefAliasNameCounter)
        (same : name = MendingTypeNameGenerator.typedefAliasName count) : kind = .typedef := by
      by_contra notTypedef
      obtain ⟨idx, first⟩ := (ordered.mem_iff diag).mp member
      apply apart.generated idx diag kind name (count - names.typedefAliasNameCounter) first named notTypedef (by omega)
      rw [same, Nat.add_sub_cancel' low]
    intro name kind otherKind one two
    rcases (declared name kind).mp one with ⟨diag, member, named⟩ | ⟨rfl, count, low, high, same⟩
    · rcases (declared name otherKind).mp two with ⟨other, otherMember, otherNamed⟩ | ⟨rfl, count, low, high, same⟩
      · obtain ⟨idx, first⟩ := (ordered.mem_iff diag).mp member
        obtain ⟨later, second⟩ := (ordered.mem_iff other).mp otherMember
        exact apart.own idx diag later other name kind otherKind first second named otherNamed
      · exact mixed member named low high same
    · rcases (declared name otherKind).mp two with ⟨other, otherMember, otherNamed⟩ | ⟨rfl, _⟩
      · exact (mixed otherMember otherNamed low high same).symm
      · rfl

/-- The maps of the table are disjoint exactly when every handler of the batch declares
names that are not there under another kind. For a result with its type names in front
of the variables of their names, this is said by the diagnostics of the result. -/
theorem one_kind_per_identifier_iff (includePath : String) (names : MendingTypeNameGenerator)
    (files : FileSystem) (sourceResult : DiagExporterSourceResult) (batch : List Diagnostic) (t : MendingState)
    (selects : Selects .basicMultipleErrors sourceResult batch)
    (mended : mend includePath batch (.initial names files) = .ok () t) :
    (t.table.KeySetsDisjoint ↔ Reaches (ApartStep includePath) (.initial names files) batch t) ∧
      (TypenamesFirst sourceResult → (t.table.KeySetsDisjoint ↔ NamesApart names sourceResult)) := by
  have run := mend_ok.mp mended
  refine ⟨keySetsDisjoint_run_iff run MendingTable.keySetsDisjoint_empty, fun typenamesFirst => ?_⟩
  rcases orderedBatch_or_single typenamesFirst selects with ordered | ⟨nothing, nameless⟩
  · exact ordered.keySetsDisjoint_iff run
  · have disjoint : t.table.KeySetsDisjoint := by
      rw [MendingTable.keySetsDisjoint_iff]
      have onlyAliases {name : String} {kind : OrdinaryKind} (found : t.table.declares name kind = true) :
          kind = .typedef := by
        rcases (declared_from_empty run name kind).mp found with ⟨diag, member, named⟩ | ⟨typedef, _⟩
        · rw [nameless diag member] at named
          cases named
        · exact typedef
      exact fun name kind otherKind one two => (onlyAliases one).trans (onlyAliases two).symm
    have apart : NamesApart names sourceResult :=
      ⟨fun idx diag _ _ _ _ _ first => absurd first (nothing idx diag),
        fun idx diag _ _ _ first => absurd first (nothing idx diag)⟩
    exact ⟨fun _ => apart, fun _ => disjoint⟩

end Mending

section Declarations

theorem BasicMultipleErrorsAnalysis.FirstOfKind.mem {sourceResult : DiagExporterSourceResult} {idx : Nat}
    {diag : Diagnostic}
    (first : FirstOfKind sourceResult idx diag) : diag ∈ sourceResult.diags :=
  List.mem_of_getElem? first.first.present

/-- Where all that a result names is apart, what the passes leave of it is. -/
theorem namesApart_of_forall {names : MendingTypeNameGenerator} {sourceResult : DiagExporterSourceResult}
    (own : ∀ diag ∈ sourceResult.diags, ∀ other ∈ sourceResult.diags, ∀ name ∈ ownName diag,
      ∀ otherName ∈ ownName other, name.2 = otherName.2 → name.1 = otherName.1)
    (written : ∀ diag ∈ sourceResult.diags, ∀ name ∈ ownName diag,
      MendingTypeNameGenerator.isGeneratedTypedefAliasName name.2 = false) : NamesApart names sourceResult := by
  constructor
  · intro idx diag later other name kind otherKind first second named otherNamed
    exact own diag first.mem other second.mem _ named _ otherNamed rfl
  · rintro idx diag kind name count first named _ _ rfl
    cases (written diag first.mem _ named).symm.trans (MendingTypeNameGenerator.typedefAliasName_generated _)

theorem typenamesFirst_of_forall {sourceResult : DiagExporterSourceResult}
    (apart : ∀ diag ∈ sourceResult.diags, ∀ other ∈ sourceResult.diags, isUndeclaredVarUse diag = true →
      isUnknownTypename other = true → holds (sameIdentifier diag other) = false) : TypenamesFirst sourceResult :=
  fun _ diag _ other _ first second =>
    apart diag (List.mem_of_getElem? first.present) other (List.mem_of_getElem? second.present)

/-- A type, a variable that is used twice, and a function. -/
def threeNames : List Diagnostic :=
  [unknownType 1 "T", undeclaredVariable 2 "x", undeclaredVariable 3 "x", implicitFunction 4 "f"]

theorem one_kind_per_identifier_three : ∃ batch t, Selects .basicMultipleErrors (.ofErrors threeNames) batch ∧
    mended batch = some t ∧ t.table.declares "T" .typedef = true ∧ t.table.declares "x" .variable = true ∧
    t.table.declares "f" .function = true ∧ t.table.KeySetsDisjoint := by
  let batch : List Diagnostic := [unknownType 1 "T", undeclaredVariable 2 "x", implicitFunction 4 "f"]
  have selects : Selects .basicMultipleErrors (.ofErrors threeNames) batch := ⟨[0, 1, 3], by decide +kernel, rfl⟩
  obtain ⟨t, ran⟩ : ∃ t, mended batch = some t := Option.isSome_iff_exists.mp (by decide +kernel)
  have declared : ∀ t ∈ mended batch, t.table.declares "T" .typedef = true ∧
      t.table.declares "x" .variable = true ∧ t.table.declares "f" .function = true := by decide +kernel
  have apart : NamesApart .start (.ofErrors threeNames) := namesApart_of_forall (by decide) (by decide)
  have ordered : TypenamesFirst (.ofErrors threeNames) := typenamesFirst_of_forall (by decide)
  obtain ⟨isType, isVariable, isFunction⟩ := declared t ran
  refine ⟨batch, t, selects, ran, isType, isVariable, isFunction, ?_⟩
  exact ((one_kind_per_identifier_iff "/includes" .start .empty (.ofErrors threeNames) batch t selects
    (mend_ok.mpr (mended_iff.mp ran))).2 ordered).mpr apart

/-- `f + 1` and a call of `f` in one file: nothing compares the two. -/
theorem variable_and_function_declared : ∃ batch t,
    Selects .basicMultipleErrors (.ofErrors [undeclaredVariable 1 "f", implicitFunction 2 "f"]) batch ∧
      mended batch = some t ∧ t.table.declares "f" .variable = true ∧ t.table.declares "f" .function = true ∧
      ¬ t.table.KeySetsDisjoint := by
  obtain ⟨t, ran⟩ : ∃ t, mended [undeclaredVariable 1 "f", implicitFunction 2 "f"] = some t :=
    Option.isSome_iff_exists.mp (by decide +kernel)
  have both : ∀ t ∈ mended [undeclaredVariable 1 "f", implicitFunction 2 "f"],
      t.table.declares "f" .variable = true ∧ t.table.declares "f" .function = true := by decide +kernel
  obtain ⟨isVariable, isFunction⟩ := both t ran
  refine ⟨_, t, ⟨[0, 1], by decide +kernel, rfl⟩, ran, isVariable, isFunction, fun disjoint => ?_⟩
  cases MendingTable.keySetsDisjoint_iff.mp disjoint "f" .variable .function isVariable isFunction

end Declarations
end CMender
