import CMender.Mending.Steps

/-! Variables, functions and typedef names are ordinary identifiers of C and share
one name space, while the table keeps a map for each kind. A handler puts the name
of its diagnostic into one of them and a generated alias into the typedefs; the
maps stay disjoint exactly as long as no such name is there already under another
kind. -/
namespace CMender
open Foundations Foundations.Execution MendingState

inductive OrdinaryKind where
  | variable | function | typedef
deriving DecidableEq, Repr

namespace MendingTable

def declares (table : MendingTable) (name : String) : OrdinaryKind → Bool
  | .variable => table.variables.containsKey name
  | .function => table.functions.containsKey name
  | .typedef => table.typedefs.containsKey name

def KeySetsDisjoint (table : MendingTable) : Prop :=
  table.variables.keys.Disjoint table.functions.keys ∧ table.variables.keys.Disjoint table.typedefs.keys ∧
    table.functions.keys.Disjoint table.typedefs.keys

/-- Every name has one kind. -/
theorem keySetsDisjoint_iff {table : MendingTable} : table.KeySetsDisjoint ↔
    ∀ name first second, table.declares name first = true → table.declares name second = true →
      first = second := by
  have listed {α : Type} {map : Map String α} {name : String} : map.containsKey name = true ↔ name ∈ map.keys :=
    Map.containsKey_iff.trans Map.mem_keys.symm
  constructor
  · rintro ⟨functions, variableTypedefs, functionTypedefs⟩ name first second one two
    cases first with
    | «variable» =>
      cases second with
      | «variable» => rfl
      | function => exact (functions (listed.mp one) (listed.mp two)).elim
      | typedef => exact (variableTypedefs (listed.mp one) (listed.mp two)).elim
    | function =>
      cases second with
      | «variable» => exact (functions (listed.mp two) (listed.mp one)).elim
      | function => rfl
      | typedef => exact (functionTypedefs (listed.mp one) (listed.mp two)).elim
    | typedef =>
      cases second with
      | «variable» => exact (variableTypedefs (listed.mp two) (listed.mp one)).elim
      | function => exact (functionTypedefs (listed.mp two) (listed.mp one)).elim
      | typedef => rfl
  · intro oneKind
    refine ⟨fun name one two => ?_, fun name one two => ?_, fun name one two => ?_⟩
    · cases oneKind name .variable .function (listed.mpr one) (listed.mpr two)
    · cases oneKind name .variable .typedef (listed.mpr one) (listed.mpr two)
    · cases oneKind name .function .typedef (listed.mpr one) (listed.mpr two)

section Declarations
variable {table : MendingTable} {own name : String} {kind : OrdinaryKind} {type : Ref TypedefType}

theorem declares_createTypedef {qualType : QualType} {permittedTypes : List TypeKind} :
    (table.createTypedef own qualType permittedTypes).declares name kind = true ↔
      name = own ∧ kind = .typedef ∨ table.declares name kind = true := by
  cases kind with
  | «variable» => simp [declares, createTypedef, putTypedef, newTypedefSymbol]
  | function => simp [declares, createTypedef, putTypedef, newTypedefSymbol]
  | typedef => simp [declares, typedefs_createTypedef, Map.containsKey_insert]

theorem declares_declareVariable : (table.declareVariable own type).declares name kind = true ↔
    name = own ∧ kind = .variable ∨ table.declares name kind = true := by
  cases kind with
  | «variable» =>
    change (table.variables.insert own _).containsKey name = true ↔ _
    simp [declares, Map.containsKey_insert]
  | function => simp [declares, declareVariable, putVariable, newSymbol, putControlledTypedefAliasMapping]
  | typedef => simp [declares, declareVariable, putVariable, newSymbol, putControlledTypedefAliasMapping]

theorem declares_declareFunction : (table.declareFunction own type).declares name kind = true ↔
    name = own ∧ kind = .function ∨ table.declares name kind = true := by
  cases kind with
  | «variable» => simp [declares, declareFunction, putFunction, newSymbol, putControlledTypedefAliasMapping]
  | function =>
    change (table.functions.insert own _).containsKey name = true ↔ _
    simp [declares, Map.containsKey_insert]
  | typedef => simp [declares, declareFunction, putFunction, newSymbol, putControlledTypedefAliasMapping]

end Declarations

theorem keySetsDisjoint_empty : empty.KeySetsDisjoint :=
  ⟨List.disjoint_nil_left _, List.disjoint_nil_left _, List.disjoint_nil_left _⟩

end MendingTable

/-- The ordinary identifier a diagnostic is about, as what its handler declares it. -/
def ownName (diag : Diagnostic) : Option (OrdinaryKind × String) :=
  match diag.diagnosticID with
  | .extImplicitFunctionDeclC99 => (functionArgs diag.args).map (.function, ·)
  | .errUndeclaredVarUse | .errUndeclaredVarUseSuggest => (variableArgs diag.args).map (.variable, ·)
  | .errUnknownTypename | .errUnknownTypenameSuggest => (typedefArgs diag.args).map (.typedef, ·)
  | _ => none

/-- Handlers that generate an alias whatever the table holds. -/
def alwaysAliased (diag : Diagnostic) : Bool :=
  match diag.diagnosticID with
  | .extImplicitFunctionDeclC99 | .errUndeclaredVarUse | .errUndeclaredVarUseSuggest | .errNoMember => true
  | _ => false

/-- The handler of the diagnostic generates an alias. -/
def needsAlias (table : MendingTable) (diag : Diagnostic) : Bool :=
  match diag.diagnosticID with
  | .errTypecheckSubscriptValue => (subscriptTexts diag).any fun texts =>
      (table.arraySubscriptToCorrespondingSymbol.lookup texts.1).isNone
  | _ => alwaysAliased diag

/-- The names a handler declares that is entered in a state. -/
def NewName (s : MendingState) (diag : Diagnostic) (name : String) (kind : OrdinaryKind) : Prop :=
  ownName diag = some (kind, name) ∨ needsAlias s.table diag = true ∧ kind = .typedef ∧ name = s.nextAlias

/-- What is declared after a handler is what was declared before and its new names. -/
structure Declared (s : MendingState) (diag : Diagnostic) (t : MendingState) : Prop where
  names : ∀ name kind, t.table.declares name kind = true ↔
    s.table.declares name kind = true ∨ NewName s diag name kind
  counter : t.names.typedefAliasNameCounter =
    s.names.typedefAliasNameCounter + (needsAlias s.table diag).toNat

section Effects
variable {s t : MendingState} {diag : Diagnostic}

/-- Handlers of the other diagnostics touch none of the three maps. -/
theorem declared_unchanged (nameless : ownName diag = none) (aliasless : needsAlias s.table diag = false)
    (variables' : t.table.variables = s.table.variables) (functions : t.table.functions = s.table.functions)
    (typedefs : t.table.typedefs = s.table.typedefs) (names : t.names.typedefAliasNameCounter =
      s.names.typedefAliasNameCounter) : Declared s diag t := by
  constructor
  · intro name kind
    have same : t.table.declares name kind = s.table.declares name kind := by
      cases kind <;> simp only [MendingTable.declares, variables', functions, typedefs]
    simp [same, NewName, nameless, aliasless]
  · rw [names, aliasless]
    rfl

theorem declaresVariable_iff {id : DiagnosticID} : declaresVariable id = true ↔
    id = .errUndeclaredVarUse ∨ id = .errUndeclaredVarUseSuggest := by
  simp [declaresVariable]

theorem declaresTypedef_iff {id : DiagnosticID} : declaresTypedef id = true ↔
    id = .errUnknownTypename ∨ id = .errUnknownTypenameSuggest := by
  simp [declaresTypedef]

theorem definesTag_iff {id : DiagnosticID} : definesTag id = true ↔
    id = .errTypecheckDeclIncompleteType ∨ id = .errFuncDefIncompleteResult := by
  simp [definesTag]

theorem subscriptTexts_id {texts : String × String} (found : subscriptTexts diag = some texts) :
    diag.diagnosticID = .errTypecheckSubscriptValue := by
  unfold subscriptTexts at found
  split at found
  · assumption
  · cases found

/-- A diagnostic whose handler declares no ordinary identifier. -/
def Unnamed (diag : Diagnostic) : Prop := ownName diag = none ∧ ∀ table, needsAlias table diag = false

theorem unnamed_of_compared {types : QualType × QualType} (args : comparedTypes diag = some types) :
    Unnamed diag := by
  cases id : diag.diagnosticID with
  | errTypecheckConvertIncompatible | errTypecheckInvalidOperands =>
    exact ⟨by simp only [ownName, id], fun table => by simp only [needsAlias, alwaysAliased, id]⟩
  | _ => simp [comparedTypes, id] at args

theorem unnamed_of_plainTarget {type : QualType} (target : plainTarget diag = some type) : Unnamed diag := by
  cases id : diag.diagnosticID with
  | errTypecheckIllegalIncrementDecrement | errArraySizeNonInt | errCallIncompleteArgument =>
    exact ⟨by simp only [ownName, id], fun table => by simp only [needsAlias, alwaysAliased, id]⟩
  | _ => simp [plainTarget, id] at target

theorem unnamed_of_voidArgument {type : QualType} (target : voidArgument diag = some type) : Unnamed diag := by
  cases id : diag.diagnosticID with
  | errCallIncompleteArgument =>
    exact ⟨by simp only [ownName, id], fun table => by simp only [needsAlias, alwaysAliased, id]⟩
  | _ => simp [voidArgument, id] at target

/-- A handler that puts its own name and an alias into the maps. -/
theorem declared_named {kind : OrdinaryKind} {own : String} (named : ownName diag = some (kind, own))
    (aliased : needsAlias s.table diag = true)
    (declared : ∀ name other, t.table.declares name other = true ↔
      name = own ∧ other = kind ∨ name = s.nextAlias ∧ other = .typedef ∨ s.table.declares name other = true)
    (counter : t.names.typedefAliasNameCounter = s.names.typedefAliasNameCounter + 1) : Declared s diag t := by
  constructor
  · intro name other
    rw [declared, NewName, named, aliased]
    simp only [Option.some.injEq, Prod.mk.injEq, true_and]
    tauto
  · rw [counter, aliased]
    rfl

/-- A handler that puts only an alias into the maps. -/
theorem declared_alias (nameless : ownName diag = none) (aliased : needsAlias s.table diag = true)
    (declared : ∀ name other, t.table.declares name other = true ↔
      name = s.nextAlias ∧ other = .typedef ∨ s.table.declares name other = true)
    (counter : t.names.typedefAliasNameCounter = s.names.typedefAliasNameCounter + 1) : Declared s diag t := by
  constructor
  · intro name other
    rw [declared, NewName, nameless, aliased]
    simp only [reduceCtorEq, true_and, false_or]
    tauto
  · rw [counter, aliased]
    rfl

theorem Effect.declared (effect : Effect s diag t) : Declared s diag t := by
  cases effect with
  | idle id | header id | convert id | convertToLocked id | adjustOperand id | adjustToLocked id | keepMember id
  | pointMember id | convertSubscript id =>
    exact declared_unchanged (by simp only [ownName, id]) (by simp only [needsAlias, alwaysAliased, id]) rfl rfl rfl rfl
  | defineRecord id | defineEnum id =>
    rcases definesTag_iff.mp id with id | id <;>
      exact declared_unchanged (by simp only [ownName, id]) (by simp only [needsAlias, alwaysAliased, id])
        rfl rfl rfl rfl
  | settleBoth args =>
    exact declared_unchanged (unnamed_of_compared args).1 ((unnamed_of_compared args).2 _) rfl rfl rfl rfl
  | overwrite target =>
    exact declared_unchanged (unnamed_of_plainTarget target).1 ((unnamed_of_plainTarget target).2 _) rfl rfl rfl rfl
  | structArgument target =>
    exact declared_unchanged (unnamed_of_voidArgument target).1 ((unnamed_of_voidArgument target).2 _) rfl rfl rfl rfl
  | declareFunction id args =>
    exact declared_named (by simp only [ownName, id, args, Option.map_some])
      (by simp only [needsAlias, alwaysAliased, id])
      (fun _ _ => MendingTable.declares_declareFunction.trans (or_congr_right MendingTable.declares_createTypedef)) rfl
  | declareVariable id args =>
    rcases declaresVariable_iff.mp id with id | id <;>
      exact declared_named (by simp only [ownName, id, args, Option.map_some])
        (by simp only [needsAlias, alwaysAliased, id])
        (fun _ _ => MendingTable.declares_declareVariable.trans
          (or_congr_right MendingTable.declares_createTypedef)) rfl
  | declareTypedef id args =>
    rename_i own
    have named : ownName diag = some (.typedef, own) := by
      rcases declaresTypedef_iff.mp id with id | id <;> simp only [ownName, id, args, Option.map_some]
    have aliasless : needsAlias s.table diag = false := by
      rcases declaresTypedef_iff.mp id with id | id <;> simp only [needsAlias, alwaysAliased, id]
    constructor
    · intro name kind
      refine MendingTable.declares_createTypedef.trans ?_
      rw [NewName, named, aliasless]
      simp only [Option.some.injEq, Prod.mk.injEq, Bool.false_eq_true, false_and, or_false]
      change _ ∨ s.table.declares name kind = true ↔ _
      tauto
    · rw [aliasless]
      rfl
  | addMember id args found =>
    refine declared_alias (by simp only [ownName, id]) (by simp only [needsAlias, alwaysAliased, id])
      (fun name kind => ?_) rfl
    change ((s.table.createRecord s.nextTag).createTypedef s.nextAlias _ _).declares name kind = true ↔ _
    exact MendingTable.declares_createTypedef
  | subscript texts mapped typed =>
    have id := subscriptTexts_id texts
    exact declared_unchanged (by simp only [ownName, id]) (by simp [needsAlias, id, texts, mapped]) rfl rfl rfl rfl
  | subscriptVariable texts unmapped identifier found =>
    have id := subscriptTexts_id texts
    refine declared_alias (by simp only [ownName, id]) (by simp [needsAlias, id, texts, unmapped])
      (fun name kind => ?_) rfl
    change (s.table.createTypedef s.nextAlias _ []).declares name kind = true ↔ _
    exact MendingTable.declares_createTypedef

/-- No name the handler declares is there under another kind. -/
def DeclaresApart (s : MendingState) (diag : Diagnostic) : Prop :=
  ∀ name kind, NewName s diag name kind →
    ∀ other, s.table.declares name other = true ∨ NewName s diag name other → other = kind

theorem Declared.keySetsDisjoint_iff (declared : Declared s diag t) (before : s.table.KeySetsDisjoint) :
    t.table.KeySetsDisjoint ↔ DeclaresApart s diag := by
  rw [MendingTable.keySetsDisjoint_iff] at before ⊢
  simp only [declared.names]
  constructor
  · intro after name kind new other found
    exact after name other kind found (.inr new)
  · intro apart name first second one two
    rcases one with old | new
    · rcases two with alsoOld | new
      · exact before name first second old alsoOld
      · exact apart name second new first (.inl old)
    · exact (apart name first new second two).symm

/-- What was declared stays declared, so disjoint maps have always been disjoint. -/
theorem Declared.before (declared : Declared s diag t) (after : t.table.KeySetsDisjoint) :
    s.table.KeySetsDisjoint := by
  rw [MendingTable.keySetsDisjoint_iff] at after ⊢
  intro name first second one two
  exact after name first second ((declared.names name first).mpr (.inl one))
    ((declared.names name second).mpr (.inl two))

end Effects

section Runs
variable {includePath : String} {s t : MendingState} {diag : Diagnostic} {diags : List Diagnostic}

theorem Step.declared (step : Step includePath s diag t) : Declared s diag t := by
  have declared := step.effect.declared
  exact ⟨declared.names, declared.counter⟩

/-- A step whose handler declares nothing that is there under another kind. -/
def ApartStep (includePath : String) (s : MendingState) (diag : Diagnostic) (t : MendingState) : Prop :=
  Step includePath s diag t ∧ DeclaresApart s diag

theorem keySetsDisjoint_before (run : Reaches (Step includePath) s diags t)
    (after : t.table.KeySetsDisjoint) : s.table.KeySetsDisjoint := by
  induction run with
  | refl => exact after
  | next head _ ih => exact head.declared.before (ih after)

/-- A run ends with disjoint maps exactly when all its steps keep them apart. -/
theorem keySetsDisjoint_run_iff (run : Reaches (Step includePath) s diags t)
    (before : s.table.KeySetsDisjoint) :
    t.table.KeySetsDisjoint ↔ Reaches (ApartStep includePath) s diags t := by
  constructor
  · intro after
    induction run with
    | refl s => exact .refl s
    | next head tail ih =>
      have middle := keySetsDisjoint_before tail after
      exact .next ⟨head, (head.declared.keySetsDisjoint_iff before).mp middle⟩ (ih middle after)
  · intro apart
    refine apart.invariant (P := fun s => s.table.KeySetsDisjoint) ?_ before
    exact fun holds step => (step.1.declared.keySetsDisjoint_iff holds).mpr step.2

/-- What a run declares: the names of its diagnostics, and the aliases handed out on the way. -/
structure DeclaredByRun (s : MendingState) (diags : List Diagnostic) (t : MendingState) : Prop where
  counter : s.names.typedefAliasNameCounter ≤ t.names.typedefAliasNameCounter
  names : ∀ name kind, t.table.declares name kind = true ↔ s.table.declares name kind = true ∨
    (∃ diag ∈ diags, ownName diag = some (kind, name)) ∨
      kind = .typedef ∧ ∃ count, s.names.typedefAliasNameCounter ≤ count ∧
        count < t.names.typedefAliasNameCounter ∧ name = MendingTypeNameGenerator.typedefAliasName count

theorem declaredByRun (run : Reaches (Step includePath) s diags t) : DeclaredByRun s diags t := by
  induction run with
  | refl s => exact ⟨le_rfl, fun name kind => by simp; omega⟩
  | @next s diag middle rest t head tail ih =>
    have declared := head.declared
    have counter := declared.counter
    have further := ih.counter
    refine ⟨by omega, fun name kind => ?_⟩
    rw [ih.names, declared.names, NewName]
    simp only [List.mem_cons, exists_eq_or_imp]
    -- The alias of this step is the first one of the range, if there is one.
    have range : kind = .typedef ∧ (∃ count, s.names.typedefAliasNameCounter ≤ count ∧
          count < t.names.typedefAliasNameCounter ∧ name = MendingTypeNameGenerator.typedefAliasName count) ↔
        needsAlias s.table diag = true ∧ kind = .typedef ∧ name = s.nextAlias ∨
          kind = .typedef ∧ ∃ count, middle.names.typedefAliasNameCounter ≤ count ∧
            count < t.names.typedefAliasNameCounter ∧
            name = MendingTypeNameGenerator.typedefAliasName count := by
      cases aliased : needsAlias s.table diag with
      | false =>
        rw [counter, aliased]
        simp
      | true =>
        rw [aliased] at counter
        have counter : middle.names.typedefAliasNameCounter = s.names.typedefAliasNameCounter + 1 := counter
        constructor
        · rintro ⟨rfl, count, low, high, rfl⟩
          by_cases first : count = s.names.typedefAliasNameCounter
          · exact .inl ⟨rfl, rfl, by rw [first]; rfl⟩
          · exact .inr ⟨rfl, count, by omega, high, rfl⟩
        · rintro (⟨_, rfl, rfl⟩ | ⟨rfl, count, low, high, rfl⟩)
          · exact ⟨rfl, s.names.typedefAliasNameCounter, le_rfl, by omega, rfl⟩
          · exact ⟨rfl, count, by omega, high, rfl⟩
    rw [range]
    constructor
    · rintro ((old | own | first) | later | further)
      · exact .inl old
      · exact .inr (.inl (.inl own))
      · exact .inr (.inr (.inl first))
      · exact .inr (.inl (.inr later))
      · exact .inr (.inr (.inr further))
    · rintro (old | (own | later) | first | further)
      · exact .inl (.inl old)
      · exact .inl (.inr (.inl own))
      · exact .inr (.inl later)
      · exact .inl (.inr (.inr first))
      · exact .inr (.inr further)

theorem needsAlias_eq {table : MendingTable} (other : diag.diagnosticID ≠ .errTypecheckSubscriptValue) :
    needsAlias table diag = alwaysAliased diag := by
  unfold needsAlias
  cases id : diag.diagnosticID <;> simp_all

theorem counter_of_run (run : Reaches (Step includePath) s diags t)
    (others : ∀ diag ∈ diags, diag.diagnosticID ≠ .errTypecheckSubscriptValue) :
    t.names.typedefAliasNameCounter = s.names.typedefAliasNameCounter + diags.countP alwaysAliased := by
  induction run with
  | refl => simp
  | next head tail ih =>
    have counter := head.declared.counter
    rw [ih fun diag member => others diag (List.mem_cons_of_mem _ member), counter,
      needsAlias_eq (others _ List.mem_cons_self), List.countP_cons]
    rename_i diag _ _ _
    cases alwaysAliased diag with
    | false => simp
    | true =>
      simp only [Bool.toNat_true, if_true]
      omega

end Runs
end CMender
