import CMender.Mending.Failures
import CMender.Mending.WellFormed

/-! Generated aliases. Every variable, function and member is declared with a
typedef of its own, under a name made for it; whichever way its type is reached
and changed, it is that one type. -/
namespace CMender
open Foundations Foundations.Execution MendingState MendingTypeNameGenerator

namespace MendingTable

/-- A variable, function or member of the table, with the typedef type it is
declared with. -/
inductive Declared (table : MendingTable) : Symbol → Ref TypedefType → Prop where
  | variable {name : String} {symbol : VariableSymbol} (found : table.variables.lookup name = some symbol) :
      Declared table (.variable symbol) symbol.type
  | function {name : String} {symbol : FunctionSymbol} (found : table.functions.lookup name = some symbol) :
      Declared table (.function symbol) symbol.returnType
  | member {tag : String} {record : Ref RecordSymbol} {symbol : Member}
      (found : table.records.lookup tag = some record) (listed : symbol ∈ table.members record) :
      Declared table (.member symbol) symbol.type

/-- The typedef registered under a name is the one of a typedef type, which has
that name itself. -/
def RegisteredAs (table : MendingTable) (type : Ref TypedefType) (name : String) : Prop :=
  (table.typedefTypes.Allocated type ∧ table.typedefName type = name) ∧
    ∃ typedef, table.typedefs.lookup name = some typedef ∧
      table.typedefSymbols.Allocated typedef ∧ table.typedefType typedef = type

/-- The name is registered for a symbol's typedef type and leads back to the symbol. -/
def OwnsAlias (table : MendingTable) (symbol : Symbol) (type : Ref TypedefType) (name : String) : Prop :=
  table.RegisteredAs type name ∧ table.typeNameToCorrespondingSymbol.lookup name = some symbol

/-- Every symbol owns an alias whose number lies in a range. -/
def AliasesOwned (table : MendingTable) (start stop : Nat) : Prop :=
  ∀ symbol type, table.Declared symbol type →
    ∃ count, start ≤ count ∧ count < stop ∧ table.OwnsAlias symbol type (typedefAliasName count)

section Aliases
variable {table : MendingTable} {symbol : Symbol} {type : Ref TypedefType} {name other : String}
  {qualType : QualType} {permittedTypes : List TypeKind}

theorem RegisteredAs.setLocked {locked : Ref TypedefSymbol} (own : table.RegisteredAs type name) :
    (table.setLocked locked).RegisteredAs type name := by
  obtain ⟨named, typedef, registered, allocated, typed⟩ := own
  exact ⟨named, typedef, registered, allocated, typedefType_setLocked.trans typed⟩

theorem RegisteredAs.setAliasedType {written : Ref TypedefType} (own : table.RegisteredAs type name) :
    (table.setAliasedType written qualType).RegisteredAs type name :=
  ⟨⟨own.1.1, typedefName_setAliasedType.trans own.1.2⟩, own.2⟩

/-- A typedef under another name takes nothing away. -/
theorem RegisteredAs.createTypedef (own : table.RegisteredAs type name) (different : name ≠ other) :
    (table.createTypedef other qualType permittedTypes).RegisteredAs type name := by
  obtain ⟨⟨typeAllocated, named⟩, typedef, registered, allocated, typed⟩ := own
  refine ⟨⟨typeAllocated.alloc, (typedefName_createTypedef_of_allocated typeAllocated).trans named⟩, typedef,
    ?_, allocated.alloc, ?_⟩
  · rw [typedefs_createTypedef, Map.lookup_insert_of_ne different]
    exact registered
  · rw [typedefType, typedefSymbols_createTypedef_of_allocated allocated]
    exact typed

theorem registeredAs_createTypedef :
    (table.createTypedef name qualType permittedTypes).RegisteredAs table.typedefTypes.next name := by
  refine ⟨⟨Heap.allocated_next, typedefName_createTypedef⟩, table.typedefSymbols.next, ?_,
    Heap.allocated_next, typedefType_createTypedef⟩
  rw [typedefs_createTypedef, Map.lookup_insert_self]

end Aliases

section Edits
variable {table later : MendingTable} {start stop : Nat} {name : String} {qualType : QualType}
  {permittedTypes : List TypeKind} {record : Ref RecordSymbol}

theorem Declared.of_same {symbol : Symbol} {type : Ref TypedefType} (declared : later.Declared symbol type)
    (variableNames : later.variables = table.variables) (functions : later.functions = table.functions)
    (records : later.records = table.records) (symbols : later.recordSymbols = table.recordSymbols) :
    table.Declared symbol type := by
  cases declared with
  | «variable» found => exact .variable (variableNames ▸ found)
  | function found => exact .function (functions ▸ found)
  | member found listed =>
    rw [members, symbols] at listed
    exact .member (records ▸ found) listed

/-- No symbol is new, and every alias is still owned. -/
theorem AliasesOwned.kept (owned : table.AliasesOwned start stop)
    (declared : ∀ symbol type, later.Declared symbol type → table.Declared symbol type)
    (own : ∀ count, start ≤ count → count < stop → ∀ symbol type,
      table.OwnsAlias symbol type (typedefAliasName count) →
      later.OwnsAlias symbol type (typedefAliasName count)) : later.AliasesOwned start stop := by
  intro symbol type present
  obtain ⟨count, low, high, owns⟩ := owned symbol type (declared symbol type present)
  exact ⟨count, low, high, own count low high symbol type owns⟩

theorem AliasesOwned.weaken (owned : table.AliasesOwned start stop) : table.AliasesOwned start (stop + 1) := by
  intro symbol type declared
  obtain ⟨count, low, high, owns⟩ := owned symbol type declared
  exact ⟨count, low, high.trans (Nat.lt_succ_self _), owns⟩

theorem AliasesOwned.setAliasedType {type : Ref TypedefType} (owned : table.AliasesOwned start stop) :
    (table.setAliasedType type qualType).AliasesOwned start stop :=
  owned.kept (fun _ _ declared => declared.of_same rfl rfl rfl rfl)
    fun _ _ _ _ _ owns => ⟨owns.1.setAliasedType, owns.2⟩

theorem AliasesOwned.settle {typedef : Ref TypedefSymbol} (owned : table.AliasesOwned start stop) :
    (table.settle typedef qualType).AliasesOwned start stop :=
  owned.setAliasedType.kept (fun _ _ declared => declared.of_same rfl rfl rfl rfl)
    fun _ _ _ _ _ owns => ⟨owns.1.setLocked, owns.2⟩

/-- A typedef under a name that is nobody's alias. -/
theorem AliasesOwned.createTypedef (owned : table.AliasesOwned start stop)
    (free : ∀ count, start ≤ count → count < stop → typedefAliasName count ≠ name) :
    (table.createTypedef name qualType permittedTypes).AliasesOwned start stop :=
  owned.kept (fun _ _ declared => declared.of_same rfl rfl rfl rfl)
    fun count low high _ _ owns => ⟨owns.1.createTypedef (free count low high), owns.2⟩

/-- A new record has no members, and takes those of the record it replaces away. -/
theorem AliasesOwned.createRecord (formed : table.WellFormed) (owned : table.AliasesOwned start stop) :
    (table.createRecord name).AliasesOwned start stop := by
  refine owned.kept ?_ fun _ _ _ _ _ owns => owns
  intro symbol type declared
  cases declared with
  | «variable» found => exact .variable found
  | function found => exact .function found
  | @member tag record member found listed =>
    rw [records_createRecord, Map.lookup_insert] at found
    split at found
    · cases found
      have bare : (table.createRecord name).members table.recordSymbols.next = [] :=
        congrArg RecordSymbol.members Heap.get_alloc_next
      rw [bare] at listed
      cases listed
    · have same : (table.createRecord name).members record = table.members record :=
        congrArg RecordSymbol.members (Heap.get_alloc (formed.records tag record found).1)
      exact .member found (same ▸ listed)

/-- Two aliases of one run have different names. -/
theorem alias_ne {count : Nat} (few : stop < start + 2 ^ 32) (low : start ≤ count) (high : count < stop) :
    typedefAliasName count ≠ typedefAliasName stop := by
  intro same
  have equal := typedefAliasName_injective low (low.trans high.le) (high.trans few) few same
  omega

/-- A symbol declared with a new alias comes to those that own theirs. -/
theorem AliasesOwned.declare (owned : table.AliasesOwned start stop) (few : stop < start + 2 ^ 32)
    (low : start ≤ stop) {new : Symbol} {newType : Ref TypedefType}
    (declared : ∀ symbol type, later.Declared symbol type →
      table.Declared symbol type ∨ symbol = new ∧ type = newType)
    (registered : ∀ type name, table.RegisteredAs type name → later.RegisteredAs type name)
    (recorded : later.typeNameToCorrespondingSymbol =
      table.typeNameToCorrespondingSymbol.insert (typedefAliasName stop) new)
    (fresh : table.RegisteredAs newType (typedefAliasName stop)) : later.AliasesOwned start (stop + 1) := by
  intro symbol type present
  rcases declared symbol type present with older | ⟨rfl, rfl⟩
  · obtain ⟨count, above, below, own, corresponding⟩ := owned symbol type older
    refine ⟨count, above, below.trans (Nat.lt_succ_self _), registered _ _ own, ?_⟩
    rw [recorded, Map.lookup_insert_of_ne (alias_ne few above below)]
    exact corresponding
  · refine ⟨stop, low, Nat.lt_succ_self _, registered _ _ fresh, ?_⟩
    rw [recorded, Map.lookup_insert_self]

theorem declared_declareVariable {type : Ref TypedefType} {symbol : Symbol} {own : Ref TypedefType}
    (declared : (table.declareVariable name type).Declared symbol own) :
    table.Declared symbol own ∨ symbol = .variable ⟨table.nextAddress, name, type⟩ ∧ own = type := by
  cases declared with
  | «variable» found =>
    rw [declareVariable, putControlledTypedefAliasMapping, putVariable, Map.lookup_insert] at found
    split at found
    · cases found
      exact .inr ⟨rfl, rfl⟩
    · exact .inl (.variable found)
  | function found => exact .inl (.function found)
  | member found listed => exact .inl (.member found listed)

theorem declared_declareFunction {type : Ref TypedefType} {symbol : Symbol} {own : Ref TypedefType}
    (declared : (table.declareFunction name type).Declared symbol own) :
    table.Declared symbol own ∨ symbol = .function ⟨table.nextAddress, name, type, []⟩ ∧ own = type := by
  cases declared with
  | «variable» found => exact .inl (.variable found)
  | function found =>
    rw [declareFunction, putControlledTypedefAliasMapping, putFunction, Map.lookup_insert] at found
    split at found
    · cases found
      exact .inr ⟨rfl, rfl⟩
    · exact .inl (.function found)
  | member found listed => exact .inl (.member found listed)

theorem declared_declareMember {type : Ref TypedefType} {symbol : Symbol} {own : Ref TypedefType}
    (declared : (table.declareMember record name type).Declared symbol own) :
    table.Declared symbol own ∨ symbol = .member ⟨table.nextAddress, name, type⟩ ∧ own = type := by
  cases declared with
  | «variable» found => exact .inl (.variable found)
  | function found => exact .inl (.function found)
  | @member tag owner member found listed =>
    have listed : member ∈ (table.newSymbol.addMember record ⟨table.nextAddress, name, type⟩).members owner :=
      listed
    rw [members_addMember] at listed
    split at listed
    · rename_i same
      rcases List.mem_append.mp listed with before | new
      · exact .inl (.member (same ▸ found) before)
      · cases List.mem_singleton.mp new
        exact .inr ⟨rfl, rfl⟩
    · exact .inl (.member found listed)

end Edits
end MendingTable

/-- A typedef that the source names itself is not named like a generated alias. -/
def SourceNamed (diag : Diagnostic) : Prop :=
  declaresTypedef diag.diagnosticID = true →
    ∀ name, typedefArgs diag.args = some name → isGeneratedTypedefAliasName name = false

section Runs
open MendingTable
variable {includePath : String} {s t : MendingState} {diag : Diagnostic} {diags : List Diagnostic} {start : Nat}

/-- How many aliases were generated so far. -/
def MendingState.aliasCount (s : MendingState) : Nat := s.names.typedefAliasNameCounter

/-- Since `start` aliases had been generated, every symbol got its own. -/
structure OwnedSince (start : Nat) (s : MendingState) : Prop where
  formed : s.table.WellFormed
  low : start ≤ s.aliasCount
  owned : s.table.AliasesOwned start s.aliasCount

theorem Effect.aliasCount_le (effect : Effect s diag t) : s.aliasCount ≤ t.aliasCount := by
  cases effect with
  | declareFunction | declareVariable | addMember | subscriptVariable => exact Nat.le_succ _
  | _ => exact Nat.le_refl _

theorem Effect.aliasesOwned (effect : Effect s diag t) (named : SourceNamed diag)
    (few : t.aliasCount ≤ start + 2 ^ 32) (since : OwnedSince start s) :
    t.table.AliasesOwned start t.aliasCount := by
  have formed := since.formed
  have owned := since.owned
  cases effect with
  | idle | keepMember => exact owned
  | header => exact owned.kept (fun _ _ declared => declared.of_same rfl rfl rfl rfl) fun _ _ _ _ _ owns => owns
  | declareFunction =>
    have free count (low : start ≤ count) (high : count < s.aliasCount) := alias_ne few low high
    exact (owned.createTypedef free).declare few since.low (fun _ _ => declared_declareFunction)
      (fun _ _ own => own) (congrArg (Map.insert _ · _) typedefName_createTypedef) registeredAs_createTypedef
  | declareVariable =>
    have free count (low : start ≤ count) (high : count < s.aliasCount) := alias_ne few low high
    exact ((owned.createRecord formed).createTypedef free).declare few since.low
      (fun _ _ => declared_declareVariable) (fun _ _ own => own)
      (congrArg (Map.insert _ · _) typedefName_createTypedef) registeredAs_createTypedef
  | declareTypedef id args =>
    refine (owned.createRecord formed).createTypedef fun count _ _ same => ?_
    have generated := typedefAliasName_generated count
    rw [same, named id _ args] at generated
    cases generated
  | addMember =>
    have free count (low : start ≤ count) (high : count < s.aliasCount) := alias_ne few low high
    exact ((owned.createRecord formed).createTypedef free).declare few since.low
      (fun _ _ => declared_declareMember) (fun _ _ own => own)
      (congrArg (Map.insert _ · _) typedefName_createTypedef) registeredAs_createTypedef
  | defineRecord => exact owned.createRecord formed
  | defineEnum =>
    exact owned.kept (fun _ _ declared => declared.of_same rfl rfl rfl rfl) fun _ _ _ _ _ owns => owns
  | convert | convertToLocked | adjustOperand | adjustToLocked | pointMember => exact owned.settle
  | settleBoth => exact owned.settle.settle
  | subscript =>
    exact owned.setAliasedType.kept (fun _ _ declared => declared.of_same rfl rfl rfl rfl)
      fun _ _ _ _ _ owns => owns
  | subscriptVariable =>
    have free count (low : start ≤ count) (high : count < s.aliasCount) := alias_ne few low high
    exact (owned.createTypedef free).setAliasedType.weaken.kept
      (fun _ _ declared => declared.of_same rfl rfl rfl rfl) fun _ _ _ _ _ owns => owns
  | convertSubscript | overwrite => exact owned.setAliasedType
  | structArgument => exact (owned.createRecord formed).setAliasedType

theorem OwnedSince.recorded (since : OwnedSince start s) : OwnedSince start (s.recorded diag) :=
  ⟨since.formed.recorded, since.low,
    since.owned.kept (fun _ _ declared => declared.of_same rfl rfl rfl rfl) fun _ _ _ _ _ owns => owns⟩

theorem Attempt.aliasCount_le (attempt : Attempt includePath s diag t) : s.aliasCount ≤ t.aliasCount := by
  rcases attempt.effect with effect | ⟨ppFiles, files, rfl⟩
  · exact effect.aliasCount_le
  · exact Nat.le_refl _

theorem Attempt.ownedSince (attempt : Attempt includePath s diag t) (named : SourceNamed diag)
    (few : t.aliasCount ≤ start + 2 ^ 32) (since : OwnedSince start s) : OwnedSince start t := by
  have entered : OwnedSince start (s.recorded diag) := since.recorded
  refine ⟨?_, since.low.trans attempt.aliasCount_le, ?_⟩
  · rcases attempt.effect with effect | ⟨ppFiles, files, rfl⟩
    · exact effect.wellFormed entered.formed
    · obtain ⟨typedefs, types, owned, records, variableTypes, functionTypes, memberTypes, subscripts⟩ :=
        entered.formed
      exact ⟨typedefs, types, owned, records, variableTypes, functionTypes, memberTypes, subscripts⟩
  · rcases attempt.effect with effect | ⟨ppFiles, files, rfl⟩
    · exact effect.aliasesOwned named few entered
    · exact entered.owned.kept (fun _ _ declared => declared.of_same rfl rfl rfl rfl) fun _ _ _ _ _ owns => owns

theorem OwnedSince.run (run : Reaches (Attempt includePath) s diags t)
    (named : ∀ diag ∈ diags, SourceNamed diag) (few : t.aliasCount ≤ start + 2 ^ 32)
    (since : OwnedSince start s) : OwnedSince start t := by
  induction run with
  | refl => exact since
  | @next s diag middle rest t head tail ih =>
    -- The count only grows, so the bound at the end is one for every state before.
    have bound : middle.aliasCount ≤ t.aliasCount :=
      tail.invariant (P := fun u => middle.aliasCount ≤ u.aliasCount)
        (fun below step => below.trans (Attempt.aliasCount_le step)) (Nat.le_refl _)
    exact ih (fun other member => named other (List.mem_cons_of_mem _ member)) few
      (head.ownedSince (named diag List.mem_cons_self) (bound.trans few) since)

theorem ownedSince_initial (names : MendingTypeNameGenerator) (files : FileSystem) :
    OwnedSince names.typedefAliasNameCounter (.initial names files) := by
  refine ⟨wellFormed_empty, Nat.le_refl _, fun symbol type declared => ?_⟩
  cases declared with
  | «variable» found => cases found
  | function found => cases found
  | member found _ => cases found

/-- In every state that handlers reach, whether the last one returned or threw,
each variable, function and member has the typedef registered under the name of
its type, sees that typedef's type, and is what the name leads back to; two of
them never share a name. -/
theorem symbols_own_aliases (includePath : String) (names : MendingTypeNameGenerator) (files : FileSystem)
    (diags : List Diagnostic) (s : MendingState)
    (run : Reaches (Attempt includePath) (.initial names files) diags s)
    (named : ∀ diag ∈ diags, SourceNamed diag)
    (few : s.aliasCount < names.typedefAliasNameCounter + 2 ^ 31) :
    (∀ symbol type, s.table.Declared symbol type →
      (∃ typedef, s.table.typedefs.lookup (s.table.typedefName type) = some typedef ∧
        s.table.typedefType typedef = type ∧ s.table.symbolType typedef = s.table.aliasedType type) ∧
      s.table.typeNameToCorrespondingSymbol.lookup (s.table.typedefName type) = some symbol) ∧
    (∀ a aType b bType, s.table.Declared a aType → s.table.Declared b bType →
      s.table.typedefName aType = s.table.typedefName bType → a = b) := by
  have bound : s.aliasCount ≤ names.typedefAliasNameCounter + 2 ^ 32 := by omega
  have owned := (OwnedSince.run run named bound (ownedSince_initial names files)).owned
  have each {symbol type} (declared : s.table.Declared symbol type) :
      s.table.OwnsAlias symbol type (s.table.typedefName type) := by
    obtain ⟨count, _, _, owns⟩ := owned symbol type declared
    rw [owns.1.1.2]
    exact owns
  constructor
  · intro symbol type declared
    obtain ⟨⟨_, typedef, registered, _, typed⟩, corresponding⟩ := each declared
    exact ⟨⟨typedef, registered, typed, congrArg s.table.aliasedType typed⟩, corresponding⟩
  · intro a aType b bType declaredA declaredB same
    have leadsToA := (each declaredA).2
    rw [same, (each declaredB).2] at leadsToA
    exact Option.some.inj leadsToA.symm

/-- `x.a = f();` with nothing declared, as far as names go. -/
def threeDeclarations : List Diagnostic :=
  [undeclaredVariable 1 "x", implicitFunction 1 "f",
    .errorAt 1 "a" .errNoMember "no member named 'a'"
      [.declarationName "a", .declContext (some ⟨.struct, "cmender_tag_type_0"⟩)] []]

theorem symbols_own_aliases_three : ∃ s, mended threeDeclarations = some s ∧
    ∀ name symbol, s.table.variables.lookup name = some symbol →
      s.table.typeNameToCorrespondingSymbol.lookup (s.table.typedefName symbol.type) =
        some (.variable symbol) := by
  obtain ⟨s, ran⟩ : ∃ s, mended threeDeclarations = some s :=
    Option.isSome_iff_exists.mp (by decide +kernel)
  have counted : ∀ s ∈ mended threeDeclarations, s.aliasCount < 2 ^ 31 := by decide +kernel
  have sourceNamed : ∀ diag ∈ threeDeclarations, declaresTypedef diag.diagnosticID = false := by
    decide +kernel
  have named : ∀ diag ∈ threeDeclarations, SourceNamed diag := by
    intro diag member declares
    rw [sourceNamed diag member] at declares
    cases declares
  have few : s.aliasCount < MendingTypeNameGenerator.start.typedefAliasNameCounter + 2 ^ 31 := by
    have below := counted s ran
    exact below.trans_le (Nat.le_add_left _ _)
  have run : Reaches (Attempt "/includes") (.initial .start .empty) threeDeclarations s :=
    (mended_iff.mp ran).mono .inl
  refine ⟨s, ran, fun name symbol found => ?_⟩
  exact ((symbols_own_aliases "/includes" .start .empty threeDeclarations s run named few).1 _ _
    (.variable found)).2

end Runs
end CMender
