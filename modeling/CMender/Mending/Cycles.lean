import CMender.Mending.Handlers
import CMender.Mending.Writing

/-! Which tables are rejected as circular. The sort sees every mention of a
record, behind a pointer or in a function type as well as by value, so it rejects
more than the containment cycles that C forbids. -/
namespace CMender
open Foundations

mutual
/-- The record a type holds by value: arrays are entered, pointers are not. -/
def LangType.byValueRecord : LangType → Option String
  | .record name _ => some name
  | .array _ _ elementType => elementType.byValueRecord
  | _ => none

def QualType.byValueRecord : QualType → Option String
  | ⟨_, _, _, _, none, _⟩ => none
  | ⟨_, _, _, _, some type, _⟩ => type.byValueRecord
end

def Tag.recordName : Tag → Option String
  | .record name => some name
  | .enum _ => none

namespace MendingTable

/-- The types of a record's members, as the typedefs registered for them stand. -/
def memberTypes (table : MendingTable) (record : Ref RecordSymbol) : List QualType :=
  (table.members record).filterMap fun member =>
    (table.typedefs.lookup (table.typedefName member.type)).map table.symbolType

/-- The records that a record's members hold by value. -/
def containedRecords (table : MendingTable) (record : Ref RecordSymbol) : List (Ref RecordSymbol) :=
  (table.memberTypes record).filterMap fun type => type.byValueRecord.bind table.records.lookup

/-- The records that the types of a record's members name anywhere. -/
def mentionedRecords (table : MendingTable) (record : Ref RecordSymbol) : List (Ref RecordSymbol) :=
  (table.memberTypes record).flatMap fun type =>
    type.tags.filterMap fun tag => tag.recordName.bind table.records.lookup

def Registered (table : MendingTable) (record : Ref RecordSymbol) : Prop :=
  record ∈ table.records.values

def Contains (table : MendingTable) (record inner : Ref RecordSymbol) : Prop :=
  inner ∈ table.containedRecords record

def Mentions (table : MendingTable) (record other : Ref RecordSymbol) : Prop :=
  other ∈ table.mentionedRecords record

/-- Some record contains itself, directly or through others. -/
def ByValueCycle (table : MendingTable) : Prop :=
  ∃ record, table.Registered record ∧ Relation.TransGen table.Contains record record

/-- Some record mentions itself, directly or through others. -/
def MentionCycle (table : MendingTable) : Prop :=
  ∃ record, table.Registered record ∧ Relation.TransGen table.Mentions record record

variable {table : MendingTable} {order : IterationOrder} {record other : Ref RecordSymbol}
  {typedef : Ref TypedefSymbol}

theorem mentions_iff : table.Mentions record other ↔ ∃ typedef,
    table.DependsOn (.record record) (.typedef typedef) ∧
      ∃ name, Tag.record name ∈ (table.symbolType typedef).tags ∧
        table.records.lookup name = some other := by
  simp only [Mentions, mentionedRecords, memberTypes, List.mem_flatMap, List.mem_filterMap,
    Option.map_eq_some_iff, Option.bind_eq_some_iff, dependsOn_record, Symbol.typedef.injEq]
  constructor
  · rintro ⟨_, ⟨member, listed, typedef, registered, rfl⟩, tag, tagged, name, named, found⟩
    cases tag with
    | record _ =>
      cases named
      exact ⟨typedef, ⟨member, listed, typedef, registered, rfl⟩, name, tagged, found⟩
    | enum _ => cases named
  · rintro ⟨_, ⟨member, listed, typedef, registered, rfl⟩, name, tagged, found⟩
    exact ⟨_, ⟨member, listed, _, registered, rfl⟩, _, tagged, name, rfl, found⟩

theorem registered_iff : table.Registered record ↔ .record record ∈ table.graphSymbols := by
  rw [record_mem_graphSymbols, Registered, Map.mem_values]

theorem Mentions.registered (mentions : table.Mentions record other) : table.Registered other := by
  obtain ⟨_, _, name, _, found⟩ := mentions_iff.mp mentions
  exact Map.mem_values.mpr ⟨name, found⟩

/-- A dependency of a record is a registered typedef. -/
theorem typedef_of_record {dep : Symbol} (depends : table.DependsOn (.record record) dep) :
    ∃ typedef, dep = .typedef typedef ∧ .typedef typedef ∈ table.graphSymbols := by
  obtain ⟨_, _, typedef, registered, rfl⟩ := dependsOn_record.mp depends
  exact ⟨typedef, rfl, typedef_mem_graphSymbols.mpr ⟨_, registered⟩⟩

/-- Two edges of the sort lead from a mentioned record to the one that mentions it. -/
theorem Mentions.path (buildable : table.Buildable) (known : table.Registered record)
    (mentions : table.Mentions record other) :
    Relation.TransGen table.SortEdge (.record other) (.record record) := by
  obtain ⟨typedef, depends, name, tagged, found⟩ := mentions_iff.mp mentions
  obtain ⟨_, same, present⟩ := typedef_of_record depends
  cases same
  obtain ⟨aliasName, registered⟩ := typedef_mem_graphSymbols.mp present
  have complete := (buildable aliasName typedef registered).1
  have inner : table.SortEdge (.record other) (.typedef typedef) :=
    ⟨present, dependsOn_typedef.mpr ⟨complete, .record name, tagged, by simp [Tag.symbol, found]⟩⟩
  exact .tail (.single inner) ⟨registered_iff.mp known, depends⟩

theorem mentions_path (buildable : table.Buildable) (known : table.Registered record)
    (chain : Relation.TransGen table.Mentions record other) :
    Relation.TransGen table.SortEdge (.record other) (.record record) := by
  induction chain using Relation.TransGen.head_induction_on with
  | single mentions => exact mentions.path buildable known
  | head mentions _ ih => exact (ih mentions.registered).trans (mentions.path buildable known)

/-- The sort's edges alternate between records and typedefs, so a path out of a
record follows mentions backwards. -/
inductive PathFrom (table : MendingTable) (record : Ref RecordSymbol) : Symbol → Prop where
  | record {target : Ref RecordSymbol} (chain : Relation.TransGen table.Mentions target record) :
      PathFrom table record (.record target)
  | typedef {middle : Ref RecordSymbol} {typedef : Ref TypedefSymbol}
      (chain : Relation.ReflTransGen table.Mentions middle record)
      (edge : table.SortEdge (.record middle) (.typedef typedef)) : PathFrom table record (.typedef typedef)

theorem sortEdge_target {dep symbol : Symbol} (edge : table.SortEdge dep symbol) :
    (∃ record typedef, dep = .typedef typedef ∧ symbol = .record record) ∨
      ∃ typedef, symbol = .typedef typedef ∧ ∀ other, dep ≠ .typedef other := by
  cases symbol with
  | typedef typedef =>
    refine .inr ⟨typedef, rfl, ?_⟩
    rintro other rfl
    obtain ⟨_, tag, _, found⟩ := dependsOn_typedef.mp edge.2
    cases tag <;> simp [Tag.symbol] at found
  | record record =>
    obtain ⟨typedef, rfl, _⟩ := typedef_of_record edge.2
    exact .inl ⟨record, typedef, rfl, rfl⟩
  | _ => simp [SortEdge, graphSymbols] at edge

/-- A typedef on the way from one record to another makes the second mention the first. -/
theorem mentions_of_edges (first : table.SortEdge (.record record) (.typedef typedef))
    (second : table.SortEdge (.typedef typedef) (.record other)) : table.Mentions other record := by
  obtain ⟨_, tag, tagged, found⟩ := dependsOn_typedef.mp first.2
  cases tag with
  | enum name => simp [Tag.symbol] at found
  | record name =>
    obtain ⟨_, registered, same⟩ := Option.map_eq_some_iff.mp found
    cases same
    exact mentions_iff.mpr ⟨typedef, second.2, name, tagged, registered⟩

theorem pathFrom_step {symbol next : Symbol} (path : table.PathFrom record symbol)
    (edge : table.SortEdge symbol next) : table.PathFrom record next := by
  cases path with
  | record chain =>
    obtain ⟨_, _, impossible, _⟩ | ⟨typedef, rfl, _⟩ := sortEdge_target edge
    · cases impossible
    · exact .typedef chain.to_reflTransGen edge
  | typedef chain first =>
    obtain ⟨target, _, same, rfl⟩ | ⟨_, _, impossible⟩ := sortEdge_target edge
    · cases same
      exact .record (Relation.TransGen.head' (mentions_of_edges first edge) chain)
    · exact absurd rfl (impossible _)

theorem pathFrom_of_path {symbol : Symbol} (path : Relation.TransGen table.SortEdge (.record record) symbol) :
    table.PathFrom record symbol := by
  induction path with
  | single edge =>
    obtain ⟨_, _, impossible, _⟩ | ⟨typedef, rfl, _⟩ := sortEdge_target edge
    · cases impossible
    · exact .typedef .refl edge
  | tail _ edge ih => exact pathFrom_step ih edge

/-- Every cycle of the sort passes through a record. -/
theorem mentionCycle_of_cycle {symbol : Symbol} (known : symbol ∈ table.graphSymbols)
    (cycle : Relation.TransGen table.SortEdge symbol symbol) : table.MentionCycle := by
  have through : ∀ record, .record record ∈ table.graphSymbols →
      Relation.TransGen table.SortEdge (.record record) (.record record) → table.MentionCycle := by
    intro record present around
    cases pathFrom_of_path around with
    | record chain => exact ⟨record, registered_iff.mpr present, chain⟩
  cases symbol with
  | record record => exact through record known cycle
  | typedef typedef =>
    -- The first edge leaves the typedef for a record; start the cycle there.
    obtain ⟨next, first, rest⟩ := Relation.TransGen.head'_iff.mp cycle
    obtain ⟨record, _, _, rfl⟩ | ⟨_, _, impossible⟩ := sortEdge_target first
    · exact through record first.1 (Relation.TransGen.tail' rest first)
    · exact absurd rfl (impossible _)
  | _ => simp [graphSymbols] at known

theorem getBody_of_type {symbol : FunctionSymbol} {type : LangType}
    (present : (table.aliasedType symbol.returnType).type = some type) :
    ∃ body, symbol.getBody table = .ok body := by
  simp only [FunctionSymbol.getBody, present, nonNull, orThrow, bind, Except.bind]
  repeat' split
  all_goals exact ⟨_, rfl⟩

theorem asDefinitionString_error {symbol : Symbol} {error : JavaException}
    (failed : symbol.asDefinitionString table = .error error) : error = .nullPointer := by
  cases symbol with
  | function symbol =>
    rw [Symbol.asDefinitionString, FunctionSymbol.asDefinitionString] at failed
    cases known : (table.aliasedType symbol.returnType).type with
    | none =>
      rw [FunctionSymbol.getBody, known] at failed
      cases failed
      rfl
    | some type =>
      obtain ⟨body, made⟩ := getBody_of_type known
      rw [made] at failed
      cases failed
  | _ => cases failed

theorem writeDefs_failure {symbols : List Symbol} {error : JavaException}
    (failed : (table.writeDefs symbols).failure = some error) : error = .nullPointer := by
  induction symbols with
  | nil => cases failed
  | cons symbol rest ih =>
    rw [writeDefs] at failed
    split at failed
    · rename_i thrown
      cases failed
      exact asDefinitionString_error thrown
    · exact ih failed

/-- The table is rejected as circular exactly when its graph is built and a record
mentions itself, in every iteration order. -/
theorem writeSymbolDecls_circular : (table.writeSymbolDecls order).failure = some circularDependency ↔
    table.Buildable ∧ table.MentionCycle := by
  unfold writeSymbolDecls
  cases built : table.buildDependencyGraph with
  | error error =>
    have unbuildable : ¬ table.Buildable := by
      intro buildable
      obtain ⟨graph, returned⟩ := buildable_iff.mpr buildable
      rw [built] at returned
      cases returned
    refine iff_of_false (fun failed => ?_) (fun both => unbuildable both.1)
    cases buildDependencyGraph_error built
    cases failed
  | ok graph =>
    have buildable := buildable_iff.mp ⟨graph, built⟩
    simp only [buildable, true_and]
    cases sorted : table.topologicalSort order graph with
    | none =>
      obtain ⟨symbol, known, cycle⟩ := (topologicalSort_none built).mp sorted
      exact iff_of_true rfl (mentionCycle_of_cycle known cycle)
    | some ordering =>
      refine iff_of_false (fun failed => ?_) ?_
      · have thrown := writeDefs_failure failed
        cases thrown
      · rintro ⟨record, known, cycle⟩
        have none : table.topologicalSort order graph = none := (topologicalSort_none built).mpr
          ⟨_, registered_iff.mp known, mentions_path buildable known cycle⟩
        rw [sorted] at none
        cases none

/-- Rejection implies a containment cycle exactly for the tables whose graph cannot
be built, in which no record mentions itself, or which have such a cycle. -/
theorem circular_implies_contained_iff (table : MendingTable) (order : IterationOrder) :
    ((table.writeSymbolDecls order).failure = some circularDependency → table.ByValueCycle) ↔
      ¬ table.Buildable ∨ ¬ table.MentionCycle ∨ table.ByValueCycle := by
  rw [writeSymbolDecls_circular]
  tauto

end MendingTable

section LinkedList

/-- What `p->next = p;` reports, one diagnostic after another, for an undeclared `p`. -/
def linkedListDiagnostics : List Diagnostic :=
  [undeclaredVariable 1 "p",
    .errorAt 1 "->" .errTypecheckMemberReferenceSuggestion "member reference type is not a pointer"
      [.qualType (.aliasOf "cmender_type_alias_0" "struct cmender_tag_type_0"
        (.record "cmender_tag_type_0" .struct)), .sint 1] [],
    .errorAt 1 "next" .errNoMember "no member named 'next'"
      [.declarationName "next", .declContext (some ⟨.struct, "cmender_tag_type_0"⟩)] [],
    .errorAt 1 "=" .errTypecheckConvertIncompatible "assigning from incompatible type"
      [.qualType (.aliasOf "cmender_type_alias_1" "struct cmender_tag_type_1"
        (.record "cmender_tag_type_1" .struct)),
       .qualType (.aliasOf "cmender_type_alias_0" "struct cmender_tag_type_0 *"
        (.pointer (structType "cmender_tag_type_0"))), .sint 0, .uint 0, .sint 0] []]

def linkedListTable : MendingTable := (mendedTable linkedListDiagnostics).getD .empty

/-- A list node that only points to its own kind is rejected as circular. -/
theorem linked_list_rejected :
    (linkedListTable.writeSymbolDecls .listed).failure = some MendingTable.circularDependency ∧
      ¬ linkedListTable.ByValueCycle := by
  constructor
  · decide +kernel
  · rintro ⟨record, registered, cycle⟩
    have nothing : ∀ record ∈ linkedListTable.records.values,
        linkedListTable.containedRecords record = [] := by decide +kernel
    obtain ⟨inner, contains, _⟩ := Relation.TransGen.head'_iff.mp cycle
    rw [MendingTable.Contains, nothing record registered] at contains
    cases contains

end LinkedList
end CMender
