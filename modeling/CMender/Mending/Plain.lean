import CMender.Mending.Cycles
import CMender.Mending.GraphExact
import CMender.Mending.Missing
import CMender.Mending.Orders

/-! Tables made by declaring what is missing, and nothing else. Every type in them is `void`
or a struct made for its owner, so that records only contain newer records, and the table
can always be written. -/
namespace CMender
open Foundations Foundations.Execution MendingState MendingTypeNameGenerator

theorem QualType.tags_of_record {qualType : QualType} {tag : String} {kind : RecordKind}
    (structural : qualType.type = some (.record tag kind)) : qualType.tags = [.record tag] := by
  cases qualType
  cases structural
  rfl

namespace MendingTable
variable {table : MendingTable} {name : String} {type : Ref TypedefType} {record : Ref RecordSymbol}
  {qualType : QualType} {kinds : List TypeKind} {first next : Nat}

theorem extends_createRecord (formed : table.WellFormed) (absent : table.records.lookup name = none) :
    table.Extends (table.createRecord name) := by
  have other {tag : String} {record : Ref RecordSymbol} (found : table.records.lookup tag = some record) :
      tag ≠ name := by
    rintro rfl
    rw [absent] at found
    cases found
  refine ⟨fun _ => id, fun _ => id, fun _ _ => id, fun tag record found => ?_, fun tag record found => ?_,
    fun _ allocated => ⟨rfl, allocated⟩⟩
  · rw [records_createRecord, Map.lookup_insert_of_ne (other found)]
    exact found
  · exact (members_createRecord (formed.records tag record found).1).symm ▸ List.prefix_rfl

theorem extends_createTypedef : table.Extends (table.createTypedef name qualType kinds) := by
  refine ⟨fun other known => ?_, fun _ => id, fun _ _ => id, fun _ _ => id, fun _ _ _ => List.prefix_rfl,
    fun type allocated => ⟨aliasedType_createTypedef_of_allocated allocated, allocated.alloc⟩⟩
  rw [typedefs_createTypedef, Map.containsKey_insert]
  exact .inr known

theorem extends_declareVariable (absent : table.variables.lookup name = none) :
    table.Extends (table.declareVariable name type) := by
  refine ⟨fun _ => id, fun _ => id, fun other symbol found => ?_, fun _ _ => id, fun _ _ _ => List.prefix_rfl,
    fun _ allocated => ⟨rfl, allocated⟩⟩
  have different : other ≠ name := by
    rintro rfl
    rw [absent] at found
    cases found
  exact (Map.lookup_insert_of_ne different).trans found

theorem extends_declareFunction : table.Extends (table.declareFunction name type) :=
  ⟨fun _ => id, fun _ known => Map.containsKey_insert.mpr (.inr known), fun _ _ => id, fun _ _ => id,
    fun _ _ _ => List.prefix_rfl, fun _ allocated => ⟨rfl, allocated⟩⟩

theorem extends_declareMember : table.Extends (table.declareMember record name type) := by
  refine ⟨fun _ => id, fun _ => id, fun _ _ => id, fun _ _ => id, fun tag other _ => ?_,
    fun _ allocated => ⟨rfl, allocated⟩⟩
  rw [members_declareMember]
  split
  · rename_i same
    subst same
    exact List.prefix_append _ _
  · exact List.prefix_rfl

theorem memberNamed_declareMember (unnamed : table.memberNamed record name = none) :
    (table.declareMember record name type).memberNamed record name = some ⟨table.nextAddress, name, type⟩ := by
  rw [memberNamed, members_declareMember, if_pos rfl, List.find?_append]
  change ((table.memberNamed record name).or _) = _
  rw [unnamed]
  simp

theorem recordOf_type {tag : String} (found : table.recordOf type = some (tag, record)) :
    ∃ kind, (table.aliasedType type).type = some (.record tag kind) := by
  unfold recordOf at found
  split at found
  · rename_i kind structural
    obtain ⟨_, _, same⟩ := Option.map_eq_some_iff.mp found
    cases same
    exact ⟨kind, structural⟩
  · cases found

/-- A tag of the source, or one generated since the start. -/
def TagSince (first next : Nat) (tag : String) : Prop :=
  isGeneratedTagTypeName tag = false ∨ ∃ count, first ≤ count ∧ count < next ∧ tag = tagTypeName count

/-- What declaring leaves behind. -/
structure Plain (first next : Nat) (table : MendingTable) : Prop where
  definitions : ∀ key type, table.definitionType key = some type → type = voidType ∨ ∃ tag, type = structType tag
  tags : ∀ tag record, table.records.lookup tag = some record → TagSince first next tag
  variableNames : ∀ name symbol, table.variables.lookup name = some symbol →
    ∃ place, table.recordOf symbol.type = some place
  members : ∀ tag record, table.records.lookup tag = some record → ∀ member ∈ table.members record,
    ∃ inner other, table.recordOf member.type = some (inner, other) ∧ record.index < other.index
  functions : ∀ name symbol, table.functions.lookup name = some symbol →
    ∃ type, (table.aliasedType symbol.returnType).type = some type

namespace Plain

theorem empty (count : Nat) : empty.Plain count count := by
  refine ⟨?_, ?_, ?_, ?_, ?_⟩
  · rintro key type found
    cases found
  all_goals
    intro _ _ found
    cases found

theorem mono (plain : table.Plain first next) {more : Nat} (le : next ≤ more) : table.Plain first more := by
  refine ⟨plain.definitions, fun tag record found => ?_, plain.variableNames, plain.members, plain.functions⟩
  exact (plain.tags tag record found).imp id fun ⟨count, low, high, same⟩ => ⟨count, low, high.trans_le le, same⟩

/-- The next tag is new as long as the counter has not come round. -/
theorem nextTag_absent (plain : table.Plain first next) (low : first ≤ next) (room : next < first + 2 ^ 32) :
    table.records.lookup (tagTypeName next) = none := by
  cases found : table.records.lookup (tagTypeName next) with
  | none => rfl
  | some record =>
    rcases plain.tags _ record found with named | ⟨count, above, below, same⟩
    · rw [tagTypeName_generated] at named
      cases named
    · have := tagTypeName_injective low above room (below.trans room) same
      omega

theorem createRecord (plain : table.Plain first next) (formed : table.WellFormed)
    (absent : table.records.lookup name = none) {more : Nat} (le : next ≤ more) (own : TagSince first more name) :
    (table.createRecord name).Plain first more := by
  have grown := extends_createRecord formed absent
  refine ⟨plain.definitions, ?_, ?_, ?_, plain.functions⟩
  · intro tag record found
    rw [records_createRecord, Map.lookup_insert] at found
    split at found
    · rename_i same
      rwa [same]
    · exact (plain.mono le).tags tag record found
  · intro other symbol found
    obtain ⟨⟨tag, record⟩, place⟩ := plain.variableNames other symbol found
    exact ⟨_, grown.recordOf (formed.variableTypes other symbol found) place⟩
  · intro tag record found member listed
    rw [records_createRecord, Map.lookup_insert] at found
    split at found
    · cases found
      rw [members_createRecord_next] at listed
      cases listed
    · have allocated := (formed.records tag record found).1
      rw [members_createRecord allocated] at listed
      obtain ⟨inner, other, place, newer⟩ := plain.members tag record found member listed
      exact ⟨inner, other, grown.recordOf (formed.memberTypes record allocated member listed) place, newer⟩

theorem createTypedef (plain : table.Plain first next) (formed : table.WellFormed)
    (written : qualType = voidType ∨ ∃ tag, qualType = structType tag) :
    (table.createTypedef name qualType kinds).Plain first next := by
  have grown : table.Extends (table.createTypedef name qualType kinds) := extends_createTypedef
  refine ⟨?_, plain.tags, ?_, ?_, ?_⟩
  · intro key type found
    rw [definitionType_createTypedef formed] at found
    split at found
    · cases found
      exact written
    · exact plain.definitions key type found
  · intro other symbol found
    obtain ⟨⟨tag, record⟩, place⟩ := plain.variableNames other symbol found
    exact ⟨_, grown.recordOf (formed.variableTypes other symbol found) place⟩
  · intro tag record found member listed
    obtain ⟨inner, other, place, newer⟩ := plain.members tag record found member listed
    have allocated := formed.memberTypes record (formed.records tag record found).1 member listed
    exact ⟨inner, other, grown.recordOf allocated place, newer⟩
  · intro other symbol found
    rw [aliasedType_createTypedef_of_allocated (formed.functionTypes other symbol found)]
    exact plain.functions other symbol found

theorem declareVariable (plain : table.Plain first next) (usable : ∃ place, table.recordOf type = some place) :
    (table.declareVariable name type).Plain first next := by
  refine ⟨plain.definitions, plain.tags, ?_, plain.members, plain.functions⟩
  intro other symbol found
  change (table.variables.insert name _).lookup other = some symbol at found
  rw [Map.lookup_insert] at found
  split at found
  · cases found
    exact usable
  · exact plain.variableNames other symbol found

theorem declareFunction (plain : table.Plain first next)
    (present : ∃ known, (table.aliasedType type).type = some known) :
    (table.declareFunction name type).Plain first next := by
  refine ⟨plain.definitions, plain.tags, plain.variableNames, plain.members, ?_⟩
  intro other symbol found
  change (table.functions.insert name _).lookup other = some symbol at found
  rw [Map.lookup_insert] at found
  split at found
  · cases found
    exact present
  · exact plain.functions other symbol found

theorem declareMember (plain : table.Plain first next) {inner : String} {other : Ref RecordSymbol}
    (place : table.recordOf type = some (inner, other)) (newer : record.index < other.index) :
    (table.declareMember record name type).Plain first next := by
  refine ⟨plain.definitions, plain.tags, plain.variableNames, ?_, plain.functions⟩
  intro tag holder found member listed
  rw [members_declareMember] at listed
  split at listed
  · rename_i same
    subst same
    rcases List.mem_append.mp listed with old | new
    · exact plain.members tag holder found member old
    · obtain rfl := List.mem_singleton.mp new
      exact ⟨inner, other, place, newer⟩
  · exact plain.members tag holder found member listed

/-- A member's record is newer than the one it is in. -/
theorem mentions_newer (plain : table.Plain first next) {start stop : Nat} (owned : table.AliasesOwned start stop)
    {other : Ref RecordSymbol} (known : table.Registered record) (mentions : table.Mentions record other) :
    record.index < other.index := by
  obtain ⟨tag, found⟩ := record_mem_graphSymbols.mp (registered_iff.mp known)
  obtain ⟨typedef, depends, mentioned, isTag, otherFound⟩ := mentions_iff.mp mentions
  obtain ⟨member, listed, registered, lookup, same⟩ := dependsOn_record.mp depends
  cases same
  obtain ⟨inner, newerRecord, place, newer⟩ := plain.members tag record found member listed
  -- The alias of the member is registered for its own type, so it leads to the same record.
  obtain ⟨_, _, _, ⟨⟨_, named⟩, own, ownFound, _, typed⟩, _⟩ := owned _ _ (.member found listed)
  rw [named] at lookup
  obtain rfl := Option.some.inj (lookup.symm.trans ownFound)
  obtain ⟨kind, structural⟩ := recordOf_type place
  rw [symbolType, typed, QualType.tags_of_record structural, List.mem_singleton] at isTag
  cases isTag
  obtain rfl := Option.some.inj (otherFound.symm.trans (recordOf_lookup place))
  exact newer

theorem not_mentionCycle (plain : table.Plain first next) {start stop : Nat}
    (owned : table.AliasesOwned start stop) : ¬ table.MentionCycle := by
  rintro ⟨record, known, chain⟩
  have rises {other : Ref RecordSymbol} (chain : Relation.TransGen table.Mentions record other) :
      table.Registered other ∧ record.index < other.index := by
    induction chain with
    | single mentions => exact ⟨mentions.registered, plain.mentions_newer owned known mentions⟩
    | tail _ mentions ih => exact ⟨mentions.registered, ih.2.trans (plain.mentions_newer owned ih.1 mentions)⟩
  exact Nat.lt_irrefl _ (rises chain).2

theorem buildable (plain : table.Plain first next) : table.Buildable := by
  intro name symbol found
  rcases plain.definitions name _ (definitionType_eq_some.mpr ⟨symbol, found, rfl⟩) with void | ⟨tag, struct⟩
  · rw [void]
    exact resolvable_of_builtin
  · rw [struct]
    exact resolvable_structType

/-- A plain table is written to the end, in any order. -/
theorem written (plain : table.Plain first next) {start stop : Nat} (owned : table.AliasesOwned start stop)
    (order : IterationOrder) : (table.writeSymbolDecls order).failure = none := by
  obtain ⟨graph, built⟩ := buildable_iff.mpr plain.buildable
  cases sorted : table.topologicalSort order graph with
  | none =>
    have circular : (table.writeSymbolDecls order).failure = some circularDependency := by
      simp only [writeSymbolDecls, built, sorted]
    exact absurd (writeSymbolDecls_circular.mp circular).2 (plain.not_mentionCycle owned)
  | some ordering =>
    simp only [writeSymbolDecls, built, sorted]
    apply writeDefs_succeeds
    intro symbol listed
    cases symbol with
    | function symbol =>
      rcases List.mem_append.mp listed with graphed | unsorted
      · have known := ((topologicalSort_order built sorted).complete _).mp graphed
        simp [graphSymbols] at known
      · have member : symbol ∈ table.functions.values := by
          simpa [unsortedSymbols, (order.functionValues_perm _).mem_iff] using unsorted
        obtain ⟨name, found⟩ := Map.mem_values.mp member
        obtain ⟨type, present⟩ := plain.functions name symbol found
        obtain ⟨body, made⟩ := getBody_of_type present
        exact ⟨_, by rw [Symbol.asDefinitionString, FunctionSymbol.asDefinitionString, made]; rfl⟩
    | _ => exact ⟨_, rfl⟩

end Plain
end MendingTable

section Lacking
variable {includePath name : String} {table : MendingTable} {names names' : MendingTypeNameGenerator}
  {files : FileSystem} {other : Missing}

/-- Something else than the name that is added is missing as before. -/
theorem Lacks.createTypedef {qualType : QualType} {kinds : List TypeKind}
    (lacks : Lacks includePath ⟨table, names, files⟩ other) (different : other ≠ .typename name) :
    Lacks includePath ⟨table.createTypedef name qualType kinds, names', files⟩ other := by
  cases other with
  | typename own =>
    have apart : own ≠ name := fun same => different (congrArg _ same)
    change (table.createTypedef name qualType kinds).typedefs.lookup own = none
    rw [MendingTable.typedefs_createTypedef, Map.lookup_insert_of_ne apart]
    exact lacks
  | _ => exact lacks

theorem Lacks.createRecord (lacks : Lacks includePath ⟨table, names, files⟩ other) (formed : table.WellFormed)
    (absent : table.records.lookup name = none) (different : other ≠ .tag name) :
    Lacks includePath ⟨table.createRecord name, names', files⟩ other := by
  cases other with
  | tag own =>
    have apart : own ≠ name := fun same => different (congrArg _ same)
    change (table.createRecord name).records.lookup own = none
    rw [MendingTable.records_createRecord, Map.lookup_insert_of_ne apart]
    exact lacks
  | member own tag =>
    obtain ⟨record, known, unnamed⟩ := lacks
    refine ⟨record, (MendingTable.extends_createRecord formed absent).records tag record known, ?_⟩
    rw [MendingTable.memberNamed, MendingTable.members_createRecord (formed.records tag record known).1]
    exact unnamed
  | _ => exact lacks

theorem Lacks.declareVariable {type : Ref TypedefType} (lacks : Lacks includePath ⟨table, names, files⟩ other)
    (different : other ≠ .variable name) :
    Lacks includePath ⟨table.declareVariable name type, names', files⟩ other := by
  cases other with
  | «variable» own =>
    have apart : own ≠ name := fun same => different (congrArg _ same)
    exact (Map.lookup_insert_of_ne apart).trans lacks
  | _ => exact lacks

theorem Lacks.declareFunction {type : Ref TypedefType} (lacks : Lacks includePath ⟨table, names, files⟩ other)
    (different : other ≠ .function name) :
    Lacks includePath ⟨table.declareFunction name type, names', files⟩ other := by
  cases other with
  | function own =>
    have apart : own ≠ name := fun same => different (congrArg _ same)
    exact (Map.lookup_insert_of_ne apart).trans lacks
  | _ => exact lacks

theorem Lacks.declareMember {type : Ref TypedefType} {record : Ref RecordSymbol} {tag : String}
    (lacks : Lacks includePath ⟨table, names, files⟩ other) (formed : table.WellFormed)
    (known : table.records.lookup tag = some record) (different : other ≠ .member name tag) :
    Lacks includePath ⟨table.declareMember record name type, names', files⟩ other := by
  cases other with
  | member own ownTag =>
    obtain ⟨holder, found, unnamed⟩ := lacks
    refine ⟨holder, found, ?_⟩
    change ((table.declareMember record name type).members holder).find? (·.name == own) = none
    rw [MendingTable.members_declareMember]
    split
    · rename_i same
      subst same
      -- One record has one tag, so it is the member that has another name.
      have sameTag : ownTag = tag :=
        (formed.records ownTag holder found).2.symm.trans (formed.records tag holder known).2
      have apart : name ≠ own := fun same => different (by rw [sameTag, same])
      have unnamed : (table.members holder).find? (·.name == own) = none := unnamed
      simp [unnamed, apart]
    · exact unnamed
  | _ => exact lacks

end Lacking

end CMender
