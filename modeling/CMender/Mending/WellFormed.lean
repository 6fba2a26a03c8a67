import CMender.Mending.Steps

/-! What every table made by the handlers satisfies: references lead to objects,
a registered symbol has the name it is registered under, and no two typedef
symbols share their typedef type. -/
namespace CMender
open Foundations Foundations.Execution MendingState

namespace MendingTable

structure WellFormed (table : MendingTable) : Prop where
  typedefs : ∀ name symbol, table.typedefs.lookup name = some symbol →
    table.typedefSymbols.Allocated symbol ∧ table.symbolName symbol = name
  types : ∀ symbol, table.typedefSymbols.Allocated symbol →
    table.typedefTypes.Allocated (table.typedefType symbol) ∧
      table.typedefName (table.typedefType symbol) = table.symbolName symbol
  owned : ∀ a b, table.typedefSymbols.Allocated a → table.typedefSymbols.Allocated b →
    table.typedefType a = table.typedefType b → a = b
  records : ∀ name record, table.records.lookup name = some record →
    table.recordSymbols.Allocated record ∧ table.recordName record = name
  variableTypes : ∀ name symbol, table.variables.lookup name = some symbol →
    table.typedefTypes.Allocated symbol.type
  functionTypes : ∀ name symbol, table.functions.lookup name = some symbol →
    table.typedefTypes.Allocated symbol.returnType
  memberTypes : ∀ record, table.recordSymbols.Allocated record → ∀ member ∈ table.members record,
    table.typedefTypes.Allocated member.type
  subscripts : ∀ code symbol, table.arraySubscriptToCorrespondingSymbol.lookup code = some symbol →
    ∀ type, symbol.subscriptedType = some type → table.typedefTypes.Allocated type

theorem wellFormed_empty : empty.WellFormed := by
  constructor
  · intro name symbol found
    cases found
  · intro symbol allocated
    cases allocated
  · intro a b allocated
    cases allocated
  · intro name record found
    cases found
  · intro name symbol found
    cases found
  · intro name symbol found
    cases found
  · intro record allocated
    cases allocated
  · intro code symbol found
    cases found

section Edits
variable {table : MendingTable} {name : String} {type : Ref TypedefType} {qualType : QualType}
  {permittedTypes : List TypeKind} {symbol : Ref TypedefSymbol} {record : Ref RecordSymbol}

theorem WellFormed.createRecord (formed : table.WellFormed) : (table.createRecord name).WellFormed := by
  refine ⟨formed.typedefs, formed.types, formed.owned, ?_, formed.variableTypes, formed.functionTypes, ?_,
    formed.subscripts⟩
  · intro other record found
    rw [records_createRecord, Map.lookup_insert] at found
    split at found
    · rename_i same
      cases found
      exact ⟨Heap.allocated_next, same ▸ recordName_createRecord⟩
    · obtain ⟨allocated, named⟩ := formed.records other record found
      exact ⟨allocated.alloc, (congrArg RecordSymbol.name (Heap.get_alloc allocated)).trans named⟩
  · intro record allocated member listed
    rcases Heap.allocated_alloc_iff.mp allocated with older | rfl
    · have same : (table.createRecord name).members record = table.members record :=
        congrArg RecordSymbol.members (Heap.get_alloc older)
      exact formed.memberTypes record older member (same ▸ listed)
    · have bare : (table.createRecord name).members table.recordSymbols.next = [] :=
        congrArg RecordSymbol.members Heap.get_alloc_next
      rw [bare] at listed
      cases listed

theorem WellFormed.createTypedef (formed : table.WellFormed) :
    (table.createTypedef name qualType permittedTypes).WellFormed := by
  refine ⟨?_, ?_, ?_, formed.records, fun other symbol found => (formed.variableTypes other symbol found).alloc,
    fun other symbol found => (formed.functionTypes other symbol found).alloc,
    fun record allocated member listed => (formed.memberTypes record allocated member listed).alloc,
    fun code symbol found type typed => (formed.subscripts code symbol found type typed).alloc⟩
  · intro other symbol found
    rw [typedefs_createTypedef, Map.lookup_insert] at found
    split at found
    · rename_i same
      cases found
      exact ⟨Heap.allocated_next, same ▸ symbolName_createTypedef⟩
    · obtain ⟨allocated, named⟩ := formed.typedefs other symbol found
      exact ⟨allocated.alloc,
        (congrArg TypedefSymbol.name (typedefSymbols_createTypedef_of_allocated allocated)).trans named⟩
  · intro symbol allocated
    rcases Heap.allocated_alloc_iff.mp allocated with older | rfl
    · obtain ⟨typed, named⟩ := formed.types symbol older
      rw [typedefType, symbolName, typedefSymbols_createTypedef_of_allocated older]
      exact ⟨typed.alloc, (typedefName_createTypedef_of_allocated typed).trans named⟩
    · rw [typedefType_createTypedef, typedefName_createTypedef, symbolName_createTypedef]
      exact ⟨Heap.allocated_next, rfl⟩
  · intro a b allocatedA allocatedB same
    -- The new symbol's type is new as well, so it is nobody else's.
    rcases Heap.allocated_alloc_iff.mp allocatedA with olderA | rfl <;>
      rcases Heap.allocated_alloc_iff.mp allocatedB with olderB | rfl
    · rw [typedefType, typedefType, typedefSymbols_createTypedef_of_allocated olderA,
        typedefSymbols_createTypedef_of_allocated olderB] at same
      exact formed.owned a b olderA olderB same
    · rw [typedefType_createTypedef, typedefType, typedefSymbols_createTypedef_of_allocated olderA] at same
      exact absurd same (formed.types a olderA).1.ne_next
    · rw [typedefType_createTypedef, typedefType, typedefSymbols_createTypedef_of_allocated olderB] at same
      exact absurd same.symm (formed.types b olderB).1.ne_next
    · rfl

theorem WellFormed.setAliasedType (formed : table.WellFormed) :
    (table.setAliasedType type qualType).WellFormed := by
  refine ⟨formed.typedefs, fun symbol allocated => ?_, formed.owned, formed.records, formed.variableTypes,
    formed.functionTypes, formed.memberTypes, formed.subscripts⟩
  rw [typedefName_setAliasedType]
  exact formed.types symbol allocated

theorem WellFormed.setLocked (formed : table.WellFormed) : (table.setLocked symbol).WellFormed := by
  refine ⟨fun name other found => ?_, fun other allocated => ?_, fun a b allocatedA allocatedB same => ?_,
    formed.records, formed.variableTypes, formed.functionTypes, formed.memberTypes, formed.subscripts⟩
  · rw [symbolName_setLocked]
    exact formed.typedefs name other found
  · rw [symbolName_setLocked, typedefType_setLocked]
    exact formed.types other allocated
  · rw [typedefType_setLocked, typedefType_setLocked] at same
    exact formed.owned a b allocatedA allocatedB same

theorem WellFormed.settle (formed : table.WellFormed) : (table.settle symbol qualType).WellFormed :=
  formed.setAliasedType.setLocked

theorem WellFormed.declareVariable (formed : table.WellFormed) (allocated : table.typedefTypes.Allocated type) :
    (table.declareVariable name type).WellFormed := by
  refine ⟨formed.typedefs, formed.types, formed.owned, formed.records, ?_, formed.functionTypes,
    formed.memberTypes, formed.subscripts⟩
  intro other symbol found
  rw [MendingTable.declareVariable, putControlledTypedefAliasMapping, putVariable, Map.lookup_insert] at found
  split at found
  · cases found
    exact allocated
  · exact formed.variableTypes other symbol found

theorem WellFormed.declareFunction (formed : table.WellFormed) (allocated : table.typedefTypes.Allocated type) :
    (table.declareFunction name type).WellFormed := by
  refine ⟨formed.typedefs, formed.types, formed.owned, formed.records, formed.variableTypes, ?_,
    formed.memberTypes, formed.subscripts⟩
  intro other symbol found
  rw [MendingTable.declareFunction, putControlledTypedefAliasMapping, putFunction, Map.lookup_insert] at found
  split at found
  · cases found
    exact allocated
  · exact formed.functionTypes other symbol found

theorem WellFormed.declareMember (formed : table.WellFormed) (allocated : table.typedefTypes.Allocated type)
    (older : table.recordSymbols.Allocated record) : (table.declareMember record name type).WellFormed := by
  refine ⟨formed.typedefs, formed.types, formed.owned, fun other found registered => ?_, formed.variableTypes,
    formed.functionTypes, ?_, formed.subscripts⟩
  · obtain ⟨known, named⟩ := formed.records other found registered
    exact ⟨known, recordName_addMember.trans named⟩
  · intro other known member listed
    have listed : member ∈ (table.newSymbol.addMember record ⟨table.nextAddress, name, type⟩).members other :=
      listed
    rw [members_addMember] at listed
    split at listed
    · rcases List.mem_append.mp listed with before | new
      · exact formed.memberTypes record older member before
      · cases List.mem_singleton.mp new
        exact allocated
    · exact formed.memberTypes other known member listed

theorem WellFormed.declareEnum (formed : table.WellFormed) {values : List String} :
    (table.declareEnum name values).WellFormed :=
  ⟨formed.typedefs, formed.types, formed.owned, formed.records, formed.variableTypes, formed.functionTypes,
    formed.memberTypes, formed.subscripts⟩

theorem WellFormed.putControlledArraySubscriptMapping (formed : table.WellFormed) {code : String}
    {symbol : Symbol}
    (allocated : ∀ type, symbol.subscriptedType = some type → table.typedefTypes.Allocated type) :
    (table.putControlledArraySubscriptMapping code symbol).WellFormed := by
  refine ⟨formed.typedefs, formed.types, formed.owned, formed.records, formed.variableTypes,
    formed.functionTypes, formed.memberTypes, ?_⟩
  intro other known found
  rw [MendingTable.putControlledArraySubscriptMapping, Map.lookup_insert] at found
  split at found
  · cases found
    exact allocated
  · exact formed.subscripts other known found

end Edits

section Definitions
variable {table : MendingTable} {key name : String} {type written found : QualType}
  {typedefType : Ref TypedefType} {symbol : Ref TypedefSymbol} {permittedTypes : List TypeKind}

/-- The type that the definition of a controlled typedef is written with. -/
def definitionType (table : MendingTable) (name : String) : Option QualType :=
  (table.typedefs.lookup name).map table.symbolType

theorem definitionType_eq_some : table.definitionType key = some type ↔
    ∃ symbol, table.typedefs.lookup key = some symbol ∧ table.symbolType symbol = type :=
  Option.map_eq_some_iff

theorem WellFormed.symbolType_createTypedef (formed : table.WellFormed)
    (older : table.typedefSymbols.Allocated symbol) :
    (table.createTypedef name written permittedTypes).symbolType symbol = table.symbolType symbol := by
  rw [symbolType, typedefType_createTypedef_of_allocated older,
    aliasedType_createTypedef_of_allocated (formed.types symbol older).1]
  rfl

/-- A typedef that replaces another one of its name brings its own type in. -/
theorem definitionType_createTypedef (formed : table.WellFormed) :
    (table.createTypedef name written permittedTypes).definitionType key =
      if key = name then some written else table.definitionType key := by
  rw [definitionType, typedefs_createTypedef, Map.lookup_insert]
  split
  · rw [Option.map_some, MendingTable.symbolType_createTypedef]
  · cases registered : table.typedefs.lookup key with
    | none => simp [definitionType, registered]
    | some symbol =>
      rw [definitionType, registered, Option.map_some, Option.map_some,
        formed.symbolType_createTypedef (formed.typedefs key symbol registered).1]

/-- Writing to a typedef type changes at most the definition it is the type of. -/
theorem definitionType_setAliasedType (after : (table.setAliasedType typedefType written).definitionType key =
    some found) : table.definitionType key = some found ∨
      found = written ∧ ∃ symbol, table.typedefs.lookup key = some symbol ∧ table.typedefType symbol = typedefType := by
  obtain ⟨symbol, registered, read⟩ := definitionType_eq_some.mp after
  rw [symbolType_setAliasedType] at read
  split at read
  · rename_i same
    exact .inr ⟨read.symm, symbol, registered, same⟩
  · exact .inl (definitionType_eq_some.mpr ⟨symbol, registered, read⟩)

theorem definitionType_setLocked : (table.setLocked symbol).definitionType key = table.definitionType key := by
  have read : (table.setLocked symbol).symbolType = table.symbolType := funext fun _ => symbolType_setLocked
  rw [definitionType, read]
  rfl

theorem definitionType_settle (formed : table.WellFormed) (known : table.typedefSymbols.Allocated symbol)
    (after : (table.settle symbol written).definitionType key = some found) :
    table.definitionType key = some found ∨ found = written ∧ key = table.symbolName symbol := by
  rw [settle, definitionType_setLocked] at after
  rcases definitionType_setAliasedType after with before | ⟨rfl, other, registered, same⟩
  · exact .inl before
  · obtain ⟨allocated, named⟩ := formed.typedefs key other registered
    obtain rfl := formed.owned other symbol allocated known same
    exact .inr ⟨rfl, named.symm⟩

end Definitions
end MendingTable

section Runs
variable {includePath : String} {s t : MendingState} {diag : Diagnostic} {diags : List Diagnostic}

theorem Effect.wellFormed (effect : Effect s diag t) (formed : s.table.WellFormed) : t.table.WellFormed := by
  cases effect with
  | idle => exact formed
  | header =>
    exact ⟨formed.typedefs, formed.types, formed.owned, formed.records, formed.variableTypes,
      formed.functionTypes, formed.memberTypes, formed.subscripts⟩
  | declareFunction => exact formed.createTypedef.declareFunction Heap.allocated_next
  | declareVariable => exact formed.createRecord.createTypedef.declareVariable Heap.allocated_next
  | declareTypedef => exact formed.createRecord.createTypedef
  | addMember _ _ found =>
    exact formed.createRecord.createTypedef.declareMember Heap.allocated_next
      (formed.records _ _ found).1.alloc
  | defineRecord => exact formed.createRecord
  | defineEnum => exact formed.declareEnum
  | convert => exact formed.settle
  | convertToLocked => exact formed.settle
  | adjustOperand => exact formed.settle
  | adjustToLocked => exact formed.settle
  | settleBoth => exact formed.settle.settle
  | keepMember => exact formed
  | pointMember => exact formed.settle
  | subscript _ mapped _ =>
    exact formed.setAliasedType.putControlledArraySubscriptMapping (formed.subscripts _ _ mapped)
  | subscriptVariable _ _ _ found =>
    refine formed.createTypedef.setAliasedType.putControlledArraySubscriptMapping ?_
    intro type typed
    cases typed
    exact Nat.lt_succ_of_lt (formed.variableTypes _ _ found)
  | convertSubscript => exact formed.setAliasedType
  | overwrite => exact formed.setAliasedType
  | structArgument => exact formed.createRecord.setAliasedType

theorem MendingTable.WellFormed.recorded (formed : s.table.WellFormed) :
    (s.recorded diag).table.WellFormed :=
  ⟨formed.typedefs, formed.types, formed.owned, formed.records, formed.variableTypes,
    formed.functionTypes, formed.memberTypes, formed.subscripts⟩

theorem Step.wellFormed (step : Step includePath s diag t) (formed : s.table.WellFormed) :
    t.table.WellFormed := step.effect.wellFormed formed.recorded

/-- Every state that handlers reach from the start has a well-formed table. -/
theorem wellFormed_of_reaches {names : MendingTypeNameGenerator} {files : FileSystem}
    (run : Reaches (Step includePath) (.initial names files) diags s) : s.table.WellFormed :=
  run.invariant (P := fun s => s.table.WellFormed) (fun formed step => step.wellFormed formed)
    MendingTable.wellFormed_empty

end Runs
end CMender
