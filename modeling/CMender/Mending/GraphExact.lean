import CMender.Mending.Dependencies
import CMender.Mending.Locks

/-! When the dependency graph can be built after a step. The graph has typedefs
and records for keys, so a typedef whose type mentions a controlled enum breaks
it; a step brings one in by aliasing a typedef to a type of the source, or by
defining an enum that an aliased type mentions already. -/
namespace CMender
open Foundations Foundations.Execution MendingState

namespace MendingTable

/-- The graph is built, its keys are the typedefs and records of the table, and
its edges are the direct dependencies. -/
def GraphExact (table : MendingTable) : Prop :=
  ∃ graph, table.buildDependencyGraph = .ok graph ∧
    (∀ symbol, symbol ∈ graph.keys ↔ symbol ∈ table.graphSymbols) ∧
    ∀ symbol ∈ table.graphSymbols, ∀ dep, symbol ∈ graph.targets dep ↔ table.DependsOn symbol dep

theorem graphExact_iff {table : MendingTable} : table.GraphExact ↔ table.Buildable := by
  rw [← buildable_iff]
  constructor
  · rintro ⟨graph, built, _⟩
    exact ⟨graph, built⟩
  · rintro ⟨graph, built⟩
    have represents := buildDependencyGraph_represents built
    refine ⟨graph, built, represents.vertices, fun symbol listed dep => ?_⟩
    rw [represents.edges dep symbol]
    exact ⟨fun edge => edge.2, fun depends => ⟨listed, depends⟩⟩

section Edits
variable {table : MendingTable} {name : String} {type : Ref TypedefType} {qualType : QualType}
  {permittedTypes : List TypeKind} {symbol : Ref TypedefSymbol}

theorem resolvable_structType : table.Resolvable (structType name) := by
  refine ⟨rfl, fun other tagged => ?_⟩
  cases List.mem_singleton.mp tagged

theorem resolvable_of_builtin {kind : BuiltinKind} {text usage spelling : String} :
    table.Resolvable (.spelled text usage (.builtin kind spelling)) :=
  ⟨rfl, fun _ tagged => nomatch tagged⟩

theorem resolvable_pointer {text canonical usage : String} {qual : Qualifiers}
    {space : Option LangAddressSpace} {pointee : QualType} (resolvable : table.Resolvable pointee) :
    table.Resolvable ⟨text, canonical, usage, qual, some (.pointer pointee), space⟩ := resolvable

/-- Only the structure of a type counts. -/
theorem Resolvable.of_type {other : QualType} (resolvable : table.Resolvable qualType)
    (same : other.type = qualType.type) : table.Resolvable other := by
  obtain ⟨_, _, _, _, structure₁, _⟩ := qualType
  obtain ⟨_, _, _, _, structure₂, _⟩ := other
  obtain rfl : structure₂ = structure₁ := same
  cases structure₂ with
  | none => exact absurd resolvable.1 (by simp [QualType.complete])
  | some structural => exact resolvable

theorem buildable_iff_definitions : table.Buildable ↔
    ∀ key type, table.definitionType key = some type → table.Resolvable type := by
  constructor
  · intro buildable key type found
    obtain ⟨symbol, registered, rfl⟩ := definitionType_eq_some.mp found
    exact buildable key symbol registered
  · intro resolvable key symbol registered
    exact resolvable key _ (definitionType_eq_some.mpr ⟨symbol, registered, rfl⟩)

theorem buildable_createTypedef (formed : table.WellFormed) (buildable : table.Buildable) :
    (table.createTypedef name qualType permittedTypes).Buildable ↔ table.Resolvable qualType := by
  simp only [buildable_iff_definitions, definitionType_createTypedef formed]
  constructor
  · intro after
    exact after name qualType (if_pos rfl)
  · intro resolvable key type found
    split at found
    · obtain rfl := Option.some.inj found
      exact resolvable
    · exact buildable_iff_definitions.mp buildable key type found

theorem buildable_setAliasedType (buildable : table.Buildable)
    (resolvable : ∀ name symbol, table.typedefs.lookup name = some symbol →
      table.typedefType symbol = type → table.Resolvable qualType) :
    (table.setAliasedType type qualType).Buildable := by
  refine buildable_iff_definitions.mpr fun key found after => ?_
  rcases definitionType_setAliasedType after with before | ⟨rfl, symbol, registered, same⟩
  · exact buildable_iff_definitions.mp buildable key found before
  · exact resolvable key symbol registered same

theorem buildable_setLocked : (table.setLocked symbol).Buildable ↔ table.Buildable := by
  simp only [buildable_iff_definitions, definitionType_setLocked]
  rfl

/-- Retyping a registered typedef keeps the graph buildable exactly with a
resolvable type. -/
theorem buildable_settle (buildable : table.Buildable) (found : table.typedefs.lookup name = some symbol) :
    (table.settle symbol qualType).Buildable ↔ table.Resolvable qualType := by
  rw [settle, buildable_setLocked]
  constructor
  · intro after
    have resolvable := after name symbol found
    rw [retype, symbolType_setAliasedType, if_pos rfl] at resolvable
    exact resolvable
  · intro resolvable
    exact buildable_setAliasedType buildable fun _ _ _ _ => resolvable

/-- A new enum may be mentioned by no registered typedef. -/
theorem buildable_declareEnum {values : List String} (buildable : table.Buildable) :
    (table.declareEnum name values).Buildable ↔
      ∀ other symbol, table.typedefs.lookup other = some symbol →
        Tag.enum name ∉ (table.symbolType symbol).tags := by
  constructor
  · intro after other symbol found tagged
    have absent := (after other symbol found).2 name tagged
    rw [declareEnum, putEnum, Map.lookup_insert_self] at absent
    cases absent
  · intro unmentioned other symbol found
    obtain ⟨complete, free⟩ := buildable other symbol found
    refine ⟨complete, fun tag tagged => ?_⟩
    rw [declareEnum, putEnum, Map.lookup_insert_of_ne]
    · exact free tag tagged
    · rintro rfl
      exact unmentioned other symbol found tagged

end Edits
end MendingTable

/-- A type that a step gives to a typedef without taking it from a registered one:
the fixed side of a conversion, or the type of a variable that is subscripted for
the first time. -/
def importedType (s : MendingState) (diag : Diagnostic) : Option QualType :=
  match diag.diagnosticID with
  | .errTypecheckConvertIncompatible => do
    let (lhs, rhs) ← conversionArgs diag.args
    let (left, _) ← oneSided s.table lhs rhs
    return if left then lhs else rhs
  | .errTypecheckSubscriptValue => do
    let (base, _) ← subscriptTexts diag
    match s.table.arraySubscriptToCorrespondingSymbol.lookup base with
    | some _ => none
    | none =>
      let symbol ← s.table.variables.lookup (← matchIdentifier base)
      return s.table.aliasedType symbol.type
  | _ => none

/-- The enum that a diagnostic makes the mender define. -/
def definedEnum (diag : Diagnostic) : Option String :=
  if definesTag diag.diagnosticID then
    (typeArgs diag.args).bind fun type =>
      match type.type with
      | some (.enum name) => some name
      | _ => none
  else none

/-- The step brings no controlled enum and no incomplete type into a typedef. -/
def KeepsResolvable (s : MendingState) (diag : Diagnostic) : Prop :=
  (∀ type, importedType s diag = some type → s.table.Resolvable type) ∧
    ∀ tag, definedEnum diag = some tag → ∀ name symbol, s.table.typedefs.lookup name = some symbol →
      Tag.enum tag ∉ (s.table.symbolType symbol).tags

section Steps
open MendingTable
variable {includePath : String} {s t : MendingState} {diag : Diagnostic} {diags : List Diagnostic}

theorem keepsResolvable_of_none (brought : importedType s diag = none ∧ definedEnum diag = none) :
    KeepsResolvable s diag := by
  obtain ⟨imported, defined⟩ := brought
  constructor
  · intro type found
    rw [imported] at found
    cases found
  · intro tag found
    rw [defined] at found
    cases found

theorem buildable_iff_of_none (brought : importedType s diag = none ∧ definedEnum diag = none)
    (buildable : t.table.Buildable) : t.table.Buildable ↔ KeepsResolvable s diag :=
  iff_of_true buildable (keepsResolvable_of_none brought)

/-- The kinds of diagnostics whose handlers bring no type and no enum in. -/
def bringsNothing : DiagnosticID → Bool
  | .errTypecheckConvertIncompatible | .errTypecheckSubscriptValue => false
  | id => !definesTag id

theorem brought_nothing (id : bringsNothing diag.diagnosticID = true) :
    importedType s diag = none ∧ definedEnum diag = none := by
  cases known : diag.diagnosticID <;> simp_all [bringsNothing, importedType, definedEnum, definesTag]

theorem bringsNothing_of_declares (id : declaresVariable diag.diagnosticID = true ∨
    declaresTypedef diag.diagnosticID = true) : bringsNothing diag.diagnosticID = true := by
  revert id
  cases diag.diagnosticID <;> decide

theorem importedType_definesTag (id : definesTag diag.diagnosticID = true) : importedType s diag = none := by
  cases known : diag.diagnosticID <;> simp_all [definesTag, importedType]

/-- Between two sides that can change, a type only goes from one typedef to another. -/
theorem brought_bothControlled {lhs rhs : QualType} {symbols : Ref TypedefSymbol × Ref TypedefSymbol}
    (args : comparedTypes diag = some (lhs, rhs)) (sides : bothControlled s.table lhs rhs = some symbols) :
    importedType s diag = none ∧ definedEnum diag = none := by
  cases known : diag.diagnosticID with
  | errTypecheckConvertIncompatible =>
    have args : conversionArgs diag.args = some (lhs, rhs) := by simpa only [comparedTypes, known] using args
    constructor
    · simp [importedType, known, args, oneSided_of_bothControlled sides]
    · simp [definedEnum, definesTag, known]
  | errTypecheckInvalidOperands => exact brought_nothing (by rw [known]; rfl)
  | _ => simp [comparedTypes, known] at args

theorem brought_plain {target : QualType} (plain : plainTarget diag = some target) :
    importedType s diag = none ∧ definedEnum diag = none := by
  cases known : diag.diagnosticID <;> simp_all [plainTarget, importedType, definesTag, definedEnum]

theorem brought_void {target : QualType} (void : voidArgument diag = some target) :
    importedType s diag = none ∧ definedEnum diag = none := by
  cases known : diag.diagnosticID <;> simp_all [voidArgument, importedType, definesTag, definedEnum]

theorem brought_subscript {base sub : String} (texts : subscriptTexts diag = some (base, sub)) :
    importedType s diag =
      (match s.table.arraySubscriptToCorrespondingSymbol.lookup base with
      | some _ => none
      | none => do
        let symbol ← s.table.variables.lookup (← matchIdentifier base)
        return s.table.aliasedType symbol.type) ∧ definedEnum diag = none := by
  have known : diag.diagnosticID = .errTypecheckSubscriptValue := by
    cases known : diag.diagnosticID <;> simp_all [subscriptTexts]
  constructor
  · simp only [importedType, known, texts]
    rfl
  · simp [definedEnum, definesTag, known]

/-- The types that operands are given are plain numbers and pointers to them. -/
theorem resolvable_operandType {table : MendingTable} {truth type : QualType} {op : String} {left : Bool}
    (written : operandType truth op left = some type) : table.Resolvable type := by
  rcases operandType_int written with rfl | rfl
  · exact resolvable_pointer resolvable_of_builtin
  · exact resolvable_of_builtin

/-- The alias made for a subscripted variable keeps the type the variable had. -/
theorem resolvable_of_subscriptVariable {table : MendingTable} {type : Ref TypedefType} {name : String}
    {qualType written : QualType} (older : table.typedefTypes.Allocated type)
    (after : ((table.createTypedef name qualType []).setAliasedType type written).Buildable) :
    table.Resolvable qualType := by
  have registered : (table.createTypedef name qualType []).typedefs.lookup name =
      some table.typedefSymbols.next := by
    rw [typedefs_createTypedef, Map.lookup_insert_self]
  have resolvable := after name _ registered
  have read : ((table.createTypedef name qualType []).setAliasedType type written).symbolType
      table.typedefSymbols.next = qualType := by
    have typed : ((table.createTypedef name qualType []).setAliasedType type written).typedefType
        table.typedefSymbols.next = table.typedefTypes.next :=
      congrArg TypedefSymbol.typedefType Heap.get_alloc_next
    rw [symbolType, typed, aliasedType_setAliasedType, if_neg older.ne_next.symm, aliasedType_createTypedef]
  rw [read] at resolvable
  exact resolvable

/-- A handler keeps a graph buildable exactly when what it brings in is resolvable. -/
theorem Effect.buildable_iff (formed : s.table.WellFormed) (buildable : s.table.Buildable)
    (effect : Effect s diag t) : t.table.Buildable ↔ KeepsResolvable s diag := by
  have int : s.table.Resolvable intUnqualifiedType := resolvable_of_builtin
  cases effect with
  | idle id =>
    exact buildable_iff_of_none (brought_nothing (by rw [id]; rfl)) buildable
  | header id =>
    exact buildable_iff_of_none (brought_nothing (by rw [id]; rfl)) buildable
  | declareFunction id _ =>
    exact buildable_iff_of_none (brought_nothing (by rw [id]; rfl))
      ((buildable_createTypedef formed buildable).mpr resolvable_of_builtin)
  | declareVariable id _ =>
    exact buildable_iff_of_none (brought_nothing (bringsNothing_of_declares (.inl id)))
      ((buildable_createTypedef formed.createRecord buildable).mpr resolvable_structType)
  | declareTypedef id _ =>
    exact buildable_iff_of_none (brought_nothing (bringsNothing_of_declares (.inr id)))
      ((buildable_createTypedef formed.createRecord buildable).mpr resolvable_structType)
  | addMember id _ _ =>
    exact buildable_iff_of_none (brought_nothing (by rw [id]; rfl))
      ((buildable_createTypedef formed.createRecord buildable).mpr resolvable_structType)
  | defineRecord id args tag =>
    exact buildable_iff_of_none ⟨importedType_definesTag id, by simp [definedEnum, id, args, tag]⟩ buildable
  | defineEnum id args tag =>
    have imported : importedType s diag = none := importedType_definesTag id
    refine (buildable_declareEnum buildable).trans ?_
    simp [KeepsResolvable, imported, definedEnum, id, args, tag]
  | convert id args sides =>
    obtain ⟨name, found⟩ := oneSided_registered sides
    refine (buildable_settle buildable found).trans ?_
    simp [KeepsResolvable, importedType, id, args, sides, definedEnum, definesTag]
  | @convertToLocked lhs rhs _ _ id args sides _ _ =>
    have compared : comparedTypes diag = some (lhs, rhs) := by simpa only [comparedTypes, id] using args
    obtain ⟨⟨_, locked⟩, _, found⟩ := bothControlled_registered_either sides
    obtain ⟨_, both⟩ := bothControlled_of_either sides
    exact buildable_iff_of_none (brought_bothControlled compared both)
      ((buildable_settle buildable found).mpr (buildable _ _ locked))
  | adjustOperand id _ _ sides written =>
    obtain ⟨name, found⟩ := oneSided_registered sides
    exact buildable_iff_of_none (brought_nothing (by rw [id]; rfl))
      ((buildable_settle buildable found).mpr (resolvable_operandType written))
  | adjustToLocked id _ _ sides _ _ written =>
    obtain ⟨_, _, found⟩ := bothControlled_registered_either sides
    exact buildable_iff_of_none (brought_nothing (by rw [id]; rfl))
      ((buildable_settle buildable found).mpr (resolvable_operandType written))
  | settleBoth args sides _ _ =>
    obtain ⟨⟨_, lhsFound⟩, _, rhsFound⟩ := bothControlled_registered sides
    exact buildable_iff_of_none (brought_bothControlled args sides)
      ((buildable_settle ((buildable_settle buildable lhsFound).mpr int) rhsFound).mpr int)
  | keepMember id _ _ =>
    exact buildable_iff_of_none (brought_nothing (by rw [id]; rfl)) buildable
  | pointMember id _ found =>
    exact buildable_iff_of_none (brought_nothing (by rw [id]; rfl))
      ((buildable_settle buildable found).mpr (resolvable_pointer (buildable _ _ found)))
  | subscript texts mapped _ =>
    obtain ⟨imported, defined⟩ := brought_subscript (s := s) texts
    refine buildable_iff_of_none ⟨by simp only [imported, mapped], defined⟩ ?_
    -- The type behind the subscript is the type of the typedef that is registered for it.
    exact buildable_setAliasedType buildable fun name symbol found same =>
      resolvable_pointer (same ▸ buildable name symbol found)
  | @subscriptVariable base sub name symbol texts unmapped identifier found =>
    obtain ⟨imported, defined⟩ := brought_subscript (s := s) texts
    have imported : importedType s diag = some (s.table.aliasedType symbol.type) := by
      simpa only [unmapped, identifier, found, Option.bind_eq_bind, Option.bind_some, Option.pure_def]
        using imported
    constructor
    · intro after
      refine ⟨fun type same => ?_, fun tag same => ?_⟩
      · cases imported.symm.trans same
        exact resolvable_of_subscriptVariable (formed.variableTypes name symbol found) after
      · rw [defined] at same
        cases same
    · intro keeps
      have resolvable := keeps.1 _ imported
      exact buildable_setAliasedType ((buildable_createTypedef formed buildable).mpr resolvable)
        fun _ _ _ _ => resolvable_pointer (resolvable.of_type rfl)
  | convertSubscript id _ _ =>
    exact buildable_iff_of_none (brought_nothing (by rw [id]; rfl))
      (buildable_setAliasedType buildable fun _ _ _ _ => resolvable_of_builtin)
  | overwrite target _ =>
    exact buildable_iff_of_none (brought_plain target)
      (buildable_setAliasedType buildable fun _ _ _ _ => int)
  | structArgument target _ =>
    exact buildable_iff_of_none (brought_void target)
      (buildable_setAliasedType buildable fun _ _ _ _ => resolvable_structType)

theorem buildable_empty : MendingTable.empty.Buildable := by
  intro name symbol found
  cases found

/-- In every run whose steps all bring in resolvable types only, the graph is
exact in every state; and from a state of any run in which it is exact, the next
step keeps it so exactly when it brings in resolvable types only. -/
theorem graph_exact_iff (includePath : String) (names : MendingTypeNameGenerator) (files : FileSystem) :
    (∀ diags s, Reaches (fun s diag t => Step includePath s diag t ∧ KeepsResolvable s diag)
      (.initial names files) diags s → s.table.GraphExact) ∧
    (∀ diags s diag t, Reaches (Step includePath) (.initial names files) diags s → s.table.GraphExact →
      Step includePath s diag t → (t.table.GraphExact ↔ KeepsResolvable s diag)) := by
  have step {s diag t} (formed : s.table.WellFormed) (buildable : s.table.Buildable)
      (returned : Step includePath s diag t) : t.table.Buildable ↔ KeepsResolvable s diag :=
    Effect.buildable_iff (s := s.recorded diag) formed.recorded buildable returned.effect
  simp only [graphExact_iff]
  constructor
  · intro diags s run
    have invariant := run.invariant (P := fun s => s.table.WellFormed ∧ s.table.Buildable)
      (fun holds head => ⟨head.1.wellFormed holds.1, (step holds.1 holds.2 head.1).mpr head.2⟩)
      ⟨wellFormed_empty, buildable_empty⟩
    exact invariant.2
  · intro diags s diag t run exact returned
    exact step (wellFormed_of_reaches run) exact returned

end Steps

section Assignments

/-- `x.a = y;` with nothing declared, up to the types of the two sides. -/
def memberUse : List Diagnostic :=
  [undeclaredVariable 1 "x",
    .errorAt 1 "a" .errNoMember "no member named 'a' in 'struct cmender_tag_type_0'"
      [.declarationName "a", .declContext (some ⟨.struct, "cmender_tag_type_0"⟩)] [],
    undeclaredVariable 1 "y"]

/-- `x.a = 1;` -/
def memberAssignment : Diagnostic :=
  .errorAt 2 "=" .errTypecheckConvertIncompatible "assigning from incompatible type 'int'"
    [.qualType (.aliasOf "cmender_type_alias_1" "struct cmender_tag_type_1"
      (.record "cmender_tag_type_1" .struct)),
     .qualType intUnqualifiedType, .sint 0, .uint 0, .sint 0] []

/-- Three typedefs and three records; the struct of `x` has a member of the second typedef, which
becomes an `int`, and the others are made of their structs. -/
theorem graph_exact_after_assignment : ∃ s t, mended memberUse = some s ∧
    Step "/includes" s memberAssignment t ∧ t.table.graphSymbols.length = 6 ∧
    t.table.DependsOn (.record ⟨0⟩) (.typedef ⟨1⟩) ∧ t.table.DependsOn (.typedef ⟨0⟩) (.record ⟨0⟩) ∧
    t.table.DependsOn (.typedef ⟨2⟩) (.record ⟨2⟩) ∧ s.table.GraphExact ∧ t.table.GraphExact := by
  obtain ⟨t, ran⟩ : ∃ t, mended (memberUse ++ [memberAssignment]) = some t :=
    Option.isSome_iff_exists.mp (by decide +kernel)
  obtain ⟨s, before, step⟩ := mended_snoc.mp ran
  have graph : ∀ t ∈ mended (memberUse ++ [memberAssignment]), t.table.graphSymbols.length = 6 ∧
      t.table.DependsOn (.record ⟨0⟩) (.typedef ⟨1⟩) ∧ t.table.DependsOn (.typedef ⟨0⟩) (.record ⟨0⟩) ∧
      t.table.DependsOn (.typedef ⟨2⟩) (.record ⟨2⟩) := by decide +kernel
  have imported : (mended memberUse).map (importedType · memberAssignment) = some (some intUnqualifiedType) := rfl
  have nothing : ∀ diag ∈ memberUse, bringsNothing diag.diagnosticID = true := by decide
  obtain ⟨always, next⟩ := graph_exact_iff "/includes" .start .empty
  have exactBefore : s.table.GraphExact := always memberUse s <|
    (mended_iff.mp before).mono_mem fun member step =>
      ⟨step, keepsResolvable_of_none (brought_nothing (nothing _ member))⟩
  obtain ⟨size, ofMember, ofX, ofY⟩ := graph t ran
  refine ⟨s, t, before, step, size, ofMember, ofX, ofY, exactBefore, ?_⟩
  refine (next memberUse s memberAssignment t (mended_iff.mp before) exactBefore step).mpr ⟨?_, ?_⟩
  · intro type found
    rw [before, Option.map_some, found, Option.some.injEq, Option.some.injEq] at imported
    rw [imported]
    exact MendingTable.resolvable_of_builtin
  · intro tag defined
    cases defined

end Assignments

section EnumConversion

/-- An `enum color` that is only named. -/
def colorDeclaration : Diagnostic :=
  .errorAt 1 "c" .errTypecheckDeclIncompleteType "variable has incomplete type 'enum color'"
    [.qualType (.spelled "enum color" "enum color diag_exporter_id" (.enum "color"))] []

/-- `x = c;` -/
def colorAssignment : Diagnostic :=
  .errorAt 2 "=" .errTypecheckConvertIncompatible "assigning from incompatible type 'enum color'"
    [.qualType (.aliasOf "cmender_type_alias_0" "struct cmender_tag_type_0"
      (.record "cmender_tag_type_0" .struct)),
     .qualType (.spelled "enum color" "enum color diag_exporter_id" (.enum "color")),
     .sint 0, .uint 0, .sint 0] []

/-- The alias of `x` becomes the enum, which is no key of the graph. -/
theorem enum_alias_breaks_graph : ∃ s t, mended [colorDeclaration, undeclaredVariable 2 "x"] = some s ∧
    Step "/includes" s colorAssignment t ∧ t.table.buildDependencyGraph = .error .nullPointer ∧
      ¬ t.table.GraphExact := by
  obtain ⟨t, ran⟩ : ∃ t, mended ([colorDeclaration, undeclaredVariable 2 "x"] ++ [colorAssignment]) = some t :=
    Option.isSome_iff_exists.mp (by decide +kernel)
  obtain ⟨s, before, step⟩ := mended_snoc.mp ran
  have failed : ∀ t ∈ mended ([colorDeclaration, undeclaredVariable 2 "x"] ++ [colorAssignment]),
      (t.table.buildDependencyGraph).isOk = false := by decide +kernel
  cases built : t.table.buildDependencyGraph with
  | ok graph =>
    have returned := failed t ran
    rw [built] at returned
    cases returned
  | error error =>
    obtain rfl := MendingTable.buildDependencyGraph_error built
    refine ⟨s, t, before, step, built, ?_⟩
    rintro ⟨graph, returned, _⟩
    rw [built] at returned
    cases returned

end EnumConversion
end CMender
