import Mathlib.Data.Finset.Basic
import CMender.Mending.Dependencies

/-! The traversal of a type that returns the set of what it finds. It is written
next to the one that appends to a list and calls it below function types; both
dereference a missing type or parameter list, and nothing else that is null. -/
namespace CMender
open Foundations

section Traversal
variable (table : MendingTable)

def foundSet : Option Symbol → Finset Symbol
  | none => ∅
  | some symbol => {symbol}

mutual
def LangType.getDirectDependencies : LangType → Except JavaException (Finset Symbol)
  | .builtin _ _ => .ok ∅
  | .pointer pointeeType => pointeeType.getDirectDependencies
  | .array _ _ elementType => elementType.getDirectDependencies
  | .record name _ => .ok (foundSet ((table.records.lookup name).map .record))
  | .enum name => .ok (foundSet ((table.enums.lookup name).map .enum))
  -- returnType and paramTypes append to one fresh list
  | .function functionKind returnType paramTypes => do
    let dependencies ←
      (LangType.function functionKind returnType paramTypes).addDirectDependencies table []
    return dependencies.toFinset

def QualType.getDirectDependencies : QualType → Except JavaException (Finset Symbol)
  | ⟨_, _, _, _, none, _⟩ => .error .nullPointer
  | ⟨_, _, _, _, some type, _⟩ => type.getDirectDependencies
end

theorem foundSet_tag (tag : Tag) : foundSet (tag.symbol table) = (foundSymbols table [tag]).toFinset := by
  cases found : tag.symbol table with
  | none => simp [foundSet, foundSymbols, found]
  | some symbol => simp [foundSet, foundSymbols, found]

mutual
theorem LangType.getDirectDependencies_eq : ∀ type : LangType, type.getDirectDependencies table =
    if type.complete then .ok (foundSymbols table type.tags).toFinset else .error .nullPointer
  | .builtin _ _ => by
    simp [LangType.getDirectDependencies, LangType.complete, LangType.tags, foundSymbols]
  | .pointer pointeeType => QualType.getDirectDependencies_eq pointeeType
  | .array _ _ elementType => QualType.getDirectDependencies_eq elementType
  | .record name _ => congrArg Except.ok (foundSet_tag table (.record name))
  | .enum name => congrArg Except.ok (foundSet_tag table (.enum name))
  | .function functionKind returnType paramTypes => by
    rw [LangType.getDirectDependencies, LangType.addDirectDependencies_eq]
    split
    · rfl
    · rfl

theorem QualType.getDirectDependencies_eq : ∀ qualType : QualType,
    qualType.getDirectDependencies table =
      if qualType.complete then .ok (foundSymbols table qualType.tags).toFinset
      else .error .nullPointer
  | ⟨_, _, _, _, none, _⟩ => by simp [QualType.getDirectDependencies, QualType.complete]
  | ⟨_, _, _, _, some type, _⟩ => LangType.getDirectDependencies_eq type
end

end Traversal

/-- No traversal of the type dereferences null, and neither does its name. -/
structure QualType.NullSafe (qualType : QualType) (table : MendingTable) : Prop where
  added : ∀ dependencies, qualType.addDirectDependencies table dependencies ≠ .error .nullPointer
  found : qualType.getDirectDependencies table ≠ .error .nullPointer
  named : qualType.typeName ≠ .error .nullPointer

theorem TypeName.tag_ne_nullPointer (typeName : String) : TypeName.tag typeName ≠ .error .nullPointer := by
  intro thrown
  simp only [TypeName.tag] at thrown
  split at thrown
  · cases thrown
  · unfold TagTypeKind.fromString at thrown
    split at thrown <;> cases thrown

/-- Naming a type that is there can fail, but not on a null. -/
theorem QualType.typeName_ne_nullPointer {qualType : QualType} (there : qualType.type.isSome) :
    qualType.typeName ≠ .error .nullPointer := by
  obtain ⟨type, isType⟩ := Option.isSome_iff_exists.mp there
  intro thrown
  unfold QualType.typeName at thrown
  split at thrown
  · cases thrown
  · rw [isType] at thrown
    simp only [nonNull, orThrow] at thrown
    change (if type.isBuiltinType = true then _ else if type.isTagType = true then _ else _) = _ at thrown
    split at thrown
    · cases thrown
    · split at thrown
      · cases tagged : TypeName.tag qualType.typeAsString with
        | error error =>
          rw [tagged] at thrown
          cases thrown
          exact TypeName.tag_ne_nullPointer _ tagged
        | ok name =>
          rw [tagged] at thrown
          cases thrown
      · cases thrown

theorem QualType.nullSafe_of_complete {qualType : QualType} (complete : qualType.complete)
    (table : MendingTable) : qualType.NullSafe table where
  added dependencies := by
    rw [QualType.addDirectDependencies_eq, if_pos complete]
    exact nofun
  found := by
    rw [QualType.getDirectDependencies_eq, if_pos complete]
    exact nofun
  named := by
    apply QualType.typeName_ne_nullPointer
    obtain ⟨_, _, _, _, type, _⟩ := qualType
    cases type with
    | none => cases complete
    | some type => rfl

/-! ### The symbols at the leaves -/

mutual
/-- A record or an enum stands at a leaf of the type. -/
inductive LangType.HasLeaf : LangType → Tag → Prop where
  | record {name : String} {recordKind : RecordKind} : LangType.HasLeaf (.record name recordKind) (.record name)
  | enum {name : String} : LangType.HasLeaf (.enum name) (.enum name)
  | pointee {pointeeType : QualType} {tag : Tag} (inside : pointeeType.HasLeaf tag) :
      LangType.HasLeaf (.pointer pointeeType) tag
  | element {arrayKind : ArrayKind} {size : Int} {elementType : QualType} {tag : Tag}
      (inside : elementType.HasLeaf tag) : LangType.HasLeaf (.array arrayKind size elementType) tag
  | result {functionKind : FunctionTypeKind} {returnType : QualType} {paramTypes : Option (List QualType)}
      {tag : Tag} (inside : returnType.HasLeaf tag) :
      LangType.HasLeaf (.function functionKind returnType paramTypes) tag
  | parameter {functionKind : FunctionTypeKind} {returnType paramType : QualType} {paramTypes : List QualType}
      {tag : Tag} (listed : paramType ∈ paramTypes) (inside : paramType.HasLeaf tag) :
      LangType.HasLeaf (.function functionKind returnType (some paramTypes)) tag

inductive QualType.HasLeaf : QualType → Tag → Prop where
  | type {qualType : QualType} {type : LangType} {tag : Tag} (there : qualType.type = some type)
      (inside : type.HasLeaf tag) : QualType.HasLeaf qualType tag
end

section Leaves
variable {tag : Tag}

mutual
theorem LangType.mem_tags : ∀ type : LangType, tag ∈ type.tags ↔ type.HasLeaf tag
  | .builtin _ _ => ⟨nofun, nofun⟩
  | .pointer pointeeType => by
    rw [LangType.tags, QualType.mem_tags pointeeType]
    constructor
    · exact .pointee
    · intro leaf
      cases leaf with
      | pointee inside => exact inside
  | .array _ _ elementType => by
    rw [LangType.tags, QualType.mem_tags elementType]
    constructor
    · exact .element
    · intro leaf
      cases leaf with
      | element inside => exact inside
  | .record name _ => by
    rw [LangType.tags, List.mem_singleton]
    constructor
    · rintro rfl
      exact .record
    · rintro ⟨⟩
      rfl
  | .enum name => by
    rw [LangType.tags, List.mem_singleton]
    constructor
    · rintro rfl
      exact .enum
    · rintro ⟨⟩
      rfl
  | .function _ returnType none => by
    rw [LangType.tags, QualType.mem_tags returnType]
    constructor
    · exact .result
    · intro leaf
      cases leaf with
      | result inside => exact inside
  | .function _ returnType (some paramTypes) => by
    rw [LangType.tags, List.mem_append, QualType.mem_tags returnType, QualType.mem_allTags paramTypes]
    constructor
    · rintro (inside | ⟨paramType, listed, inside⟩)
      · exact .result inside
      · exact .parameter listed inside
    · intro leaf
      cases leaf with
      | result inside => exact .inl inside
      | parameter listed inside => exact .inr ⟨_, listed, inside⟩

theorem QualType.mem_tags : ∀ qualType : QualType, tag ∈ qualType.tags ↔ qualType.HasLeaf tag
  | ⟨_, _, _, _, none, _⟩ => by
    refine ⟨nofun, ?_⟩
    rintro ⟨there, _⟩
    cases there
  | ⟨_, _, _, _, some type, _⟩ => by
    rw [QualType.tags, LangType.mem_tags type]
    constructor
    · exact .type rfl
    · rintro ⟨there, inside⟩
      cases there
      exact inside

theorem QualType.mem_allTags : ∀ types : List QualType,
    tag ∈ QualType.allTags types ↔ ∃ type ∈ types, type.HasLeaf tag
  | [] => ⟨nofun, nofun⟩
  | first :: rest => by
    rw [QualType.allTags, List.mem_append, QualType.mem_tags first, QualType.mem_allTags rest,
      List.exists_mem_cons_iff]
end

end Leaves

section Agreement
variable {table : MendingTable}

theorem mem_foundSymbols {tags : List Tag} {symbol : Symbol} :
    symbol ∈ foundSymbols table tags ↔ ∃ tag ∈ tags, tag.symbol table = some symbol := List.mem_filterMap

/-- Records and enums are registered under their own names. -/
structure MendingTable.TagsByName (table : MendingTable) : Prop where
  records : ∀ name record, table.records.lookup name = some record → table.recordName record = name
  enums : ∀ name symbol, table.enums.lookup name = some symbol → symbol.name = name

/-- A record or enum symbol of the table, and the tag that it is the symbol of. -/
inductive MendingTable.Declares (table : MendingTable) : Symbol → Tag → Prop where
  | record {symbol : Ref RecordSymbol} (listed : symbol ∈ table.records.values) :
      table.Declares (.record symbol) (.record (table.recordName symbol))
  | enum {symbol : EnumSymbol} (listed : symbol ∈ table.enums.values) :
      table.Declares (.enum symbol) (.enum symbol.name)

theorem MendingTable.TagsByName.symbol_iff (byName : table.TagsByName) {tag : Tag} {symbol : Symbol} :
    tag.symbol table = some symbol ↔ table.Declares symbol tag := by
  constructor
  · intro found
    cases tag with
    | record name =>
      obtain ⟨record, listed, rfl⟩ := Option.map_eq_some_iff.mp found
      obtain rfl := byName.records name record listed
      exact .record (Map.mem_values.mpr ⟨_, listed⟩)
    | enum name =>
      obtain ⟨enumSymbol, listed, rfl⟩ := Option.map_eq_some_iff.mp found
      obtain rfl := byName.enums name enumSymbol listed
      exact .enum (Map.mem_values.mpr ⟨_, listed⟩)
  · intro declared
    cases declared with
    | record listed =>
      obtain ⟨name, found⟩ := Map.mem_values.mp listed
      rw [Tag.symbol, byName.records name _ found, found]
      rfl
    | enum listed =>
      obtain ⟨name, found⟩ := Map.mem_values.mp listed
      rw [Tag.symbol, byName.enums name _ found, found]
      rfl

/-- Both traversals of a type find the symbols of its leaves: those that the table has under
the names there, which are the symbols with these names. -/
theorem traversals_agree (table : MendingTable) {qualType : QualType} (complete : qualType.complete = true) :
    ∃ found appended, qualType.getDirectDependencies table = .ok found ∧
      (∀ dependencies, qualType.addDirectDependencies table dependencies = .ok (dependencies ++ appended)) ∧
      appended.toFinset = found ∧
      (∀ symbol, symbol ∈ found ↔ ∃ tag, qualType.HasLeaf tag ∧ tag.symbol table = some symbol) ∧
      (table.TagsByName → ∀ symbol, symbol ∈ found ↔ ∃ tag, qualType.HasLeaf tag ∧ table.Declares symbol tag) := by
  have atLeaves : ∀ symbol, symbol ∈ (foundSymbols table qualType.tags).toFinset ↔
      ∃ tag, qualType.HasLeaf tag ∧ tag.symbol table = some symbol := by
    intro symbol
    rw [List.mem_toFinset, mem_foundSymbols]
    simp only [QualType.mem_tags]
  refine ⟨(foundSymbols table qualType.tags).toFinset, foundSymbols table qualType.tags, ?_, ?_, rfl, atLeaves, ?_⟩
  · rw [QualType.getDirectDependencies_eq, if_pos complete]
  · intro dependencies
    rw [QualType.addDirectDependencies_eq, if_pos complete]
  · intro byName symbol
    rw [atLeaves]
    simp only [byName.symbol_iff]

/-- A function that takes a pointer to a registered struct. -/
theorem traversals_agree_struct_parameter :
    let table := { MendingTable.empty with records := Map.empty.insert "s" ⟨0⟩ }
    let pointer := QualType.spelled "struct s *" "struct s *diag_exporter_id" (.pointer (structType "s"))
    let callback := QualType.spelled "int (struct s *)" "int diag_exporter_id(struct s *)"
      (.function .proto intUnqualifiedType (some [pointer]))
    callback.complete = true ∧ ∃ found, callback.getDirectDependencies table = .ok found ∧
      .record ⟨0⟩ ∈ found := by
  intro table pointer callback
  have complete : callback.complete = true := rfl
  obtain ⟨found, _, returned, _, _, atLeaves, _⟩ := traversals_agree table complete
  have leaf : callback.HasLeaf (.record "s") :=
    .type rfl (.parameter List.mem_cons_self (.type rfl (.pointee (.type rfl .record))))
  exact ⟨complete, found, returned, (atLeaves _).mpr ⟨_, leaf, rfl⟩⟩

end Agreement

end CMender
