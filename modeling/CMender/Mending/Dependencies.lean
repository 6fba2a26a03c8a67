import CMender.Foundations.Digraph
import CMender.Foundations.Execution
import CMender.Mending.Table

/-! Dependencies between symbols and the graph built from them. Types are
searched for tags whatever stands around them, so a pointer counts like a member
by value; typedef names count only through the members that carry them. -/
namespace CMender
open Foundations

section Traversal
variable (table : MendingTable)

/-- `dependencies.add`, when the lookup found something. -/
def addFound (dependencies : List Symbol) : Option Symbol → List Symbol
  | none => dependencies
  | some symbol => dependencies ++ [symbol]

mutual
/-- A function type without a parameter list fails after its return type. -/
def LangType.addDirectDependencies : LangType → List Symbol → Except JavaException (List Symbol)
  | .builtin _ _, dependencies => .ok dependencies
  | .pointer pointeeType, dependencies => pointeeType.addDirectDependencies dependencies
  | .array _ _ elementType, dependencies => elementType.addDirectDependencies dependencies
  | .record name _, dependencies =>
    .ok (addFound dependencies ((table.records.lookup name).map .record))
  | .enum name, dependencies => .ok (addFound dependencies ((table.enums.lookup name).map .enum))
  | .function _ returnType none, dependencies => do
    let _ ← returnType.addDirectDependencies dependencies
    throw .nullPointer
  | .function _ returnType (some paramTypes), dependencies => do
    QualType.addAllDirectDependencies paramTypes (← returnType.addDirectDependencies dependencies)

def QualType.addDirectDependencies : QualType → List Symbol → Except JavaException (List Symbol)
  | ⟨_, _, _, _, none, _⟩, _ => .error .nullPointer
  | ⟨_, _, _, _, some type, _⟩, dependencies => type.addDirectDependencies dependencies

def QualType.addAllDirectDependencies : List QualType → List Symbol → Except JavaException (List Symbol)
  | [], dependencies => .ok dependencies
  | qualType :: rest, dependencies => do
    QualType.addAllDirectDependencies rest (← qualType.addDirectDependencies dependencies)
end

/-- `TypedefType.addDirectDependencies`: the typedef registered under its name. -/
def addTypedefDependencies (dependencies : List Symbol) (type : Ref TypedefType) : List Symbol :=
  addFound dependencies ((table.typedefs.lookup (table.typedefName type)).map .typedef)

/-- What a symbol's own definition refers to. A typedef refers to the tags of its
aliased type, a record to the typedefs of its members. -/
def getDirectDependencies : Symbol → Except JavaException (List Symbol)
  | .typedef symbol => (table.symbolType symbol).addDirectDependencies table []
  | .record symbol => .ok ((table.members symbol).foldl
      (fun dependencies member => addTypedefDependencies table dependencies member.type) [])
  | .enum _ => .ok []
  | .variable symbol => (table.aliasedType symbol.type).addDirectDependencies table []
  | .function symbol => .ok (symbol.parameters.foldl
      (fun dependencies parameter => addTypedefDependencies table dependencies parameter.type)
      (addTypedefDependencies table [] symbol.returnType))
  | .member symbol => (table.aliasedType symbol.type).addDirectDependencies table []

end Traversal

/-! ### What a traversal finds -/

/-- A struct, union or enum named somewhere in a type. -/
inductive Tag where
  | record (name : String)
  | enum (name : String)
deriving DecidableEq, Repr

def Tag.symbol (table : MendingTable) : Tag → Option Symbol
  | .record name => (table.records.lookup name).map .record
  | .enum name => (table.enums.lookup name).map .enum

mutual
def LangType.tags : LangType → List Tag
  | .builtin _ _ => []
  | .pointer pointeeType => pointeeType.tags
  | .array _ _ elementType => elementType.tags
  | .record name _ => [.record name]
  | .enum name => [.enum name]
  | .function _ returnType none => returnType.tags
  | .function _ returnType (some paramTypes) => returnType.tags ++ QualType.allTags paramTypes

def QualType.tags : QualType → List Tag
  | ⟨_, _, _, _, none, _⟩ => []
  | ⟨_, _, _, _, some type, _⟩ => type.tags

def QualType.allTags : List QualType → List Tag
  | [] => []
  | qualType :: rest => qualType.tags ++ QualType.allTags rest
end

mutual
/-- No part of the type is missing: every type is there, and every parameter list. -/
def LangType.complete : LangType → Bool
  | .builtin _ _ | .record _ _ | .enum _ => true
  | .pointer pointeeType => pointeeType.complete
  | .array _ _ elementType => elementType.complete
  | .function _ _ none => false
  | .function _ returnType (some paramTypes) => returnType.complete && QualType.allComplete paramTypes

def QualType.complete : QualType → Bool
  | ⟨_, _, _, _, none, _⟩ => false
  | ⟨_, _, _, _, some type, _⟩ => type.complete

def QualType.allComplete : List QualType → Bool
  | [] => true
  | qualType :: rest => qualType.complete && QualType.allComplete rest
end

section Traversal
variable (table : MendingTable)

/-- The registered symbols of a list of tags. -/
def foundSymbols (tags : List Tag) : List Symbol := tags.filterMap (Tag.symbol table)

theorem foundSymbols_append (front back : List Tag) :
    foundSymbols table (front ++ back) = foundSymbols table front ++ foundSymbols table back :=
  List.filterMap_append

theorem addFound_tag (dependencies : List Symbol) (tag : Tag) :
    addFound dependencies (tag.symbol table) = dependencies ++ foundSymbols table [tag] := by
  cases found : tag.symbol table with
  | none => simp [addFound, foundSymbols, found]
  | some symbol => simp [addFound, foundSymbols, found]

mutual
theorem LangType.addDirectDependencies_eq : ∀ (type : LangType) (dependencies : List Symbol),
    type.addDirectDependencies table dependencies =
      if type.complete then .ok (dependencies ++ foundSymbols table type.tags) else .error .nullPointer
  | .builtin _ _, dependencies => by
    simp [LangType.addDirectDependencies, LangType.complete, LangType.tags, foundSymbols]
  | .pointer pointeeType, dependencies => QualType.addDirectDependencies_eq pointeeType dependencies
  | .array _ _ elementType, dependencies => QualType.addDirectDependencies_eq elementType dependencies
  | .record name _, dependencies => congrArg Except.ok (addFound_tag table dependencies (.record name))
  | .enum name, dependencies => congrArg Except.ok (addFound_tag table dependencies (.enum name))
  | .function _ returnType none, dependencies => by
    simp only [LangType.addDirectDependencies, LangType.complete,
      QualType.addDirectDependencies_eq returnType dependencies]
    cases returnType.complete <;> rfl
  | .function _ returnType (some paramTypes), dependencies => by
    simp only [LangType.addDirectDependencies, LangType.complete, LangType.tags,
      QualType.addDirectDependencies_eq returnType dependencies, foundSymbols_append]
    cases returnType.complete with
    | false => rfl
    | true =>
      change QualType.addAllDirectDependencies table paramTypes
        (dependencies ++ foundSymbols table returnType.tags) = _
      rw [QualType.addAllDirectDependencies_eq paramTypes, List.append_assoc, Bool.true_and]

theorem QualType.addDirectDependencies_eq : ∀ (qualType : QualType) (dependencies : List Symbol),
    qualType.addDirectDependencies table dependencies =
      if qualType.complete then .ok (dependencies ++ foundSymbols table qualType.tags)
      else .error .nullPointer
  | ⟨_, _, _, _, none, _⟩, dependencies => by
    simp [QualType.addDirectDependencies, QualType.complete]
  | ⟨_, _, _, _, some type, _⟩, dependencies => LangType.addDirectDependencies_eq type dependencies

theorem QualType.addAllDirectDependencies_eq : ∀ (types : List QualType) (dependencies : List Symbol),
    QualType.addAllDirectDependencies table types dependencies =
      if QualType.allComplete types then .ok (dependencies ++ foundSymbols table (QualType.allTags types))
      else .error .nullPointer
  | [], dependencies => by
    simp [QualType.addAllDirectDependencies, QualType.allComplete, QualType.allTags, foundSymbols]
  | qualType :: rest, dependencies => by
    simp only [QualType.addAllDirectDependencies, QualType.allComplete, QualType.allTags,
      QualType.addDirectDependencies_eq qualType dependencies, foundSymbols_append]
    cases qualType.complete with
    | false => rfl
    | true =>
      change QualType.addAllDirectDependencies table rest
        (dependencies ++ foundSymbols table qualType.tags) = _
      rw [QualType.addAllDirectDependencies_eq rest, List.append_assoc, Bool.true_and]
end

end Traversal

namespace MendingTable

/-- The symbols the graph is about; enums are not among them. -/
def graphSymbols (table : MendingTable) : List Symbol :=
  table.typedefs.values.map .typedef ++ table.records.values.map .record

/-- `graph.get(dep).add(symbol)` -/
def addDependent (symbol : Symbol) (graph : Foundations.Digraph Symbol) (dep : Symbol) :
    Except JavaException (Foundations.Digraph Symbol) := nonNull (graph.addEdge dep symbol)

/-- Each symbol is entered under everything it depends on. -/
def addDependencies (table : MendingTable) (graph : Foundations.Digraph Symbol) (symbol : Symbol) :
    Except JavaException (Foundations.Digraph Symbol) := do
  (← getDirectDependencies table symbol).foldlM (addDependent symbol) graph

def buildDependencyGraph (table : MendingTable) : Except JavaException (Foundations.Digraph Symbol) :=
  table.graphSymbols.foldlM table.addDependencies (Foundations.Digraph.ofVertices table.graphSymbols)

section Graph
variable {table : MendingTable} {graph after : Foundations.Digraph Symbol} {vertices : List Symbol}
  {edge : Symbol → Symbol → Prop} {symbol : Symbol}

/-- `dep` is in `symbol.getDirectDependencies(table)`. -/
def DependsOn (table : MendingTable) (symbol dep : Symbol) : Prop :=
  ∃ dependencies, getDirectDependencies table symbol = .ok dependencies ∧ dep ∈ dependencies

instance (table : MendingTable) (symbol dep : Symbol) : Decidable (table.DependsOn symbol dep) :=
  decidable_of_iff (∃ dependencies ∈ (getDirectDependencies table symbol).toOption, dep ∈ dependencies) <| by
    cases found : getDirectDependencies table symbol <;> simp [DependsOn, found, Except.toOption]

theorem addDependents_ok (symbol : Symbol) (represents : graph.Represents vertices edge)
    (dependencies : List Symbol) :
    (∃ after, dependencies.foldlM (addDependent symbol) graph = .ok after) ↔
      ∀ dep ∈ dependencies, dep ∈ vertices := by
  induction dependencies generalizing graph edge with
  | nil => simp [pure, Except.pure]
  | cons dep rest ih =>
    rw [List.foldlM_cons]
    simp only [addDependent, List.forall_mem_cons]
    have entered := Foundations.Digraph.addEdge_isSome represents dep symbol
    cases added : graph.addEdge dep symbol with
    | none =>
      have absent : dep ∉ vertices := by simpa [added] using entered
      constructor
      · rintro ⟨after, returned⟩
        cases returned
      · exact fun known => absurd known.1 absent
    | some middle =>
      have present : dep ∈ vertices := entered.mp (by rw [added]; rfl)
      have continued := ih (represents.addEdge added)
      simp only [nonNull, present, true_and]
      exact continued

theorem addDependents_represents (represents : graph.Represents vertices edge)
    {dependencies : List Symbol}
    (added : dependencies.foldlM (addDependent symbol) graph = .ok after) :
    after.Represents vertices fun dep s => edge dep s ∨ (dep ∈ dependencies ∧ s = symbol) := by
  induction dependencies generalizing graph edge with
  | nil =>
    cases added
    exact represents.congr (by simp)
  | cons dep rest ih =>
    rw [List.foldlM_cons] at added
    cases entered : graph.addEdge dep symbol with
    | none =>
      simp only [addDependent, entered, nonNull] at added
      cases added
    | some middle =>
      simp only [addDependent, entered, nonNull] at added
      refine (ih (represents.addEdge entered) added).congr fun d s => ?_
      simp only [List.mem_cons]
      tauto

/-- Everything the symbol depends on is a vertex, and finding it does not fail. -/
def Resolves (table : MendingTable) (vertices : List Symbol) (symbol : Symbol) : Prop :=
  ∃ dependencies, getDirectDependencies table symbol = .ok dependencies ∧
    ∀ dep ∈ dependencies, dep ∈ vertices

theorem addDependencies_ok (table : MendingTable) (symbol : Symbol)
    (represents : graph.Represents vertices edge) :
    (∃ after, table.addDependencies graph symbol = .ok after) ↔ table.Resolves vertices symbol := by
  unfold addDependencies Resolves
  cases getDirectDependencies table symbol with
  | error error =>
    constructor
    · rintro ⟨after, returned⟩
      cases returned
    · rintro ⟨dependencies, found, _⟩
      cases found
  | ok dependencies =>
    have entered := addDependents_ok symbol represents dependencies
    constructor
    · exact fun returned => ⟨dependencies, rfl, entered.mp returned⟩
    · rintro ⟨_, found, known⟩
      cases found
      exact entered.mpr known

theorem addDependencies_represents (represents : graph.Represents vertices edge)
    (added : table.addDependencies graph symbol = .ok after) :
    after.Represents vertices fun dep s => edge dep s ∨ (s = symbol ∧ table.DependsOn s dep) := by
  unfold addDependencies at added
  cases found : getDirectDependencies table symbol with
  | error error =>
    rw [found] at added
    cases added
  | ok dependencies =>
    rw [found] at added
    refine (addDependents_represents represents added).congr fun dep s => ?_
    constructor
    · rintro (old | ⟨member, rfl⟩)
      · exact .inl old
      · exact .inr ⟨rfl, dependencies, found, member⟩
    · rintro (old | ⟨rfl, _, again, member⟩)
      · exact .inl old
      · rw [found] at again
        cases again
        exact .inr ⟨member, rfl⟩

theorem addAllDependencies_ok (represents : graph.Represents vertices edge)
    (symbols : List Symbol) :
    (∃ after, symbols.foldlM table.addDependencies graph = .ok after) ↔
      ∀ symbol ∈ symbols, table.Resolves vertices symbol := by
  induction symbols generalizing graph edge with
  | nil => simp [pure, Except.pure]
  | cons symbol rest ih =>
    have head := addDependencies_ok table symbol represents
    rw [List.foldlM_cons, List.forall_mem_cons, ← head]
    cases added : table.addDependencies graph symbol with
    | error error =>
      constructor
      · rintro ⟨after, returned⟩
        cases returned
      · rintro ⟨⟨after, returned⟩, _⟩
        cases returned
    | ok middle =>
      have tail := ih (addDependencies_represents represents added)
      constructor
      · exact fun returned => ⟨⟨middle, rfl⟩, tail.mp returned⟩
      · exact fun known => tail.mpr known.2

theorem addAllDependencies_represents (represents : graph.Represents vertices edge)
    {symbols : List Symbol} (added : symbols.foldlM table.addDependencies graph = .ok after) :
    after.Represents vertices
      fun dep s => edge dep s ∨ (s ∈ symbols ∧ table.DependsOn s dep) := by
  induction symbols generalizing graph edge with
  | nil =>
    cases added
    exact represents.congr (by simp)
  | cons symbol rest ih =>
    rw [List.foldlM_cons] at added
    cases entered : table.addDependencies graph symbol with
    | error error =>
      rw [entered] at added
      cases added
    | ok middle =>
      rw [entered] at added
      refine (ih (addDependencies_represents represents entered) added).congr fun dep s => ?_
      simp only [List.mem_cons]
      tauto

/-- The graph is built exactly when every dependency of a typedef or a record is
found and is itself one of them. -/
theorem buildDependencyGraph_ok : (∃ graph, table.buildDependencyGraph = .ok graph) ↔
    ∀ symbol ∈ table.graphSymbols, table.Resolves table.graphSymbols symbol :=
  addAllDependencies_ok (Foundations.Digraph.represents_ofVertices _) _

/-- A graph that is built is exact: its vertices are the typedefs and the records,
and a symbol stands under what it depends on. -/
theorem buildDependencyGraph_represents (built : table.buildDependencyGraph = .ok graph) :
    graph.Represents table.graphSymbols
      fun dep s => s ∈ table.graphSymbols ∧ table.DependsOn s dep :=
  (addAllDependencies_represents (Foundations.Digraph.represents_ofVertices _) built).congr (by simp)

end Graph

section Buildable
variable {table : MendingTable}

theorem foldl_addTypedefDependencies (members : List Member) (dependencies : List Symbol) :
    members.foldl (fun dependencies member => addTypedefDependencies table dependencies member.type)
        dependencies =
      dependencies ++ members.filterMap fun member =>
        (table.typedefs.lookup (table.typedefName member.type)).map .typedef := by
  induction members generalizing dependencies with
  | nil => simp
  | cons member rest ih =>
    rw [List.foldl_cons, ih, addTypedefDependencies]
    cases found : table.typedefs.lookup (table.typedefName member.type) with
    | none => simp [addFound, found]
    | some symbol => simp [addFound, found]

theorem dependsOn_typedef {symbol : Ref TypedefSymbol} {dep : Symbol} :
    table.DependsOn (.typedef symbol) dep ↔ (table.symbolType symbol).complete = true ∧
      ∃ tag ∈ (table.symbolType symbol).tags, tag.symbol table = some dep := by
  simp only [DependsOn, getDirectDependencies, QualType.addDirectDependencies_eq, List.nil_append]
  split
  · rename_i complete
    simp [complete, foundSymbols, List.mem_filterMap]
  · rename_i incomplete
    simp [incomplete]

theorem dependsOn_record {symbol : Ref RecordSymbol} {dep : Symbol} :
    table.DependsOn (.record symbol) dep ↔ ∃ member ∈ table.members symbol,
      ∃ typedef, table.typedefs.lookup (table.typedefName member.type) = some typedef ∧
        dep = .typedef typedef := by
  simp only [DependsOn, getDirectDependencies, foldl_addTypedefDependencies, List.nil_append,
    Except.ok.injEq, exists_eq_left', List.mem_filterMap, Option.map_eq_some_iff]
  simp only [eq_comm]

/-- A type the graph can be built with: complete, and without controlled enums. -/
def Resolvable (table : MendingTable) (qualType : QualType) : Prop :=
  qualType.complete = true ∧ ∀ name, Tag.enum name ∈ qualType.tags → table.enums.lookup name = none

/-- Every registered typedef has a type the graph can be built with. -/
def Buildable (table : MendingTable) : Prop :=
  ∀ name symbol, table.typedefs.lookup name = some symbol → table.Resolvable (table.symbolType symbol)

theorem typedef_mem_graphSymbols {symbol : Ref TypedefSymbol} :
    .typedef symbol ∈ table.graphSymbols ↔ ∃ name, table.typedefs.lookup name = some symbol := by
  simp [graphSymbols, Map.mem_values]

theorem record_mem_graphSymbols {symbol : Ref RecordSymbol} :
    .record symbol ∈ table.graphSymbols ↔ ∃ name, table.records.lookup name = some symbol := by
  simp [graphSymbols, Map.mem_values]

theorem enum_notMem_graphSymbols {symbol : EnumSymbol} : .enum symbol ∉ table.graphSymbols := by
  simp [graphSymbols]

theorem resolves_typedef {symbol : Ref TypedefSymbol} :
    table.Resolves table.graphSymbols (.typedef symbol) ↔ table.Resolvable (table.symbolType symbol) := by
  simp only [Resolves, getDirectDependencies, QualType.addDirectDependencies_eq, List.nil_append,
    Resolvable]
  by_cases complete : (table.symbolType symbol).complete = true
  · simp only [complete, if_true, Except.ok.injEq, exists_eq_left', true_and, foundSymbols,
      List.mem_filterMap, forall_exists_index, and_imp]
    constructor
    · intro known name tagged
      by_contra registered
      obtain ⟨enum, found⟩ := Option.ne_none_iff_exists'.mp registered
      exact enum_notMem_graphSymbols (known (.enum enum) (.enum name) tagged (by simp [Tag.symbol, found]))
    · intro free dep tag tagged found
      cases tag with
      | record name =>
        obtain ⟨record, registered, rfl⟩ := Option.map_eq_some_iff.mp found
        exact record_mem_graphSymbols.mpr ⟨name, registered⟩
      | enum name => simp [Tag.symbol, free name tagged] at found
  · simp [complete]

theorem resolves_record {symbol : Ref RecordSymbol} :
    table.Resolves table.graphSymbols (.record symbol) := by
  refine ⟨_, rfl, fun dep listed => ?_⟩
  obtain ⟨_, _, typedef, registered, rfl⟩ := dependsOn_record.mp ⟨_, rfl, listed⟩
  exact typedef_mem_graphSymbols.mpr ⟨_, registered⟩

theorem buildable_iff : (∃ graph, table.buildDependencyGraph = .ok graph) ↔ table.Buildable := by
  rw [buildDependencyGraph_ok]
  constructor
  · intro resolves name symbol registered
    exact resolves_typedef.mp (resolves _ (typedef_mem_graphSymbols.mpr ⟨name, registered⟩))
  · intro buildable symbol listed
    rcases List.mem_append.mp listed with typedef | record
    · obtain ⟨symbol, stored, rfl⟩ := List.mem_map.mp typedef
      obtain ⟨name, registered⟩ := Map.mem_values.mp stored
      exact resolves_typedef.mpr (buildable name symbol registered)
    · obtain ⟨symbol, _, rfl⟩ := List.mem_map.mp record
      exact resolves_record

theorem getDirectDependencies_error {symbol : Symbol} {error : JavaException}
    (failed : getDirectDependencies table symbol = .error error) : error = .nullPointer := by
  cases symbol with
  | typedef | «variable» | member =>
    rw [getDirectDependencies, QualType.addDirectDependencies_eq] at failed
    split at failed
    · cases failed
    · cases failed
      rfl
  | _ => cases failed

/-- Nothing but a null pointer stops the construction of the graph. -/
theorem buildDependencyGraph_error {error : JavaException}
    (failed : table.buildDependencyGraph = .error error) : error = .nullPointer := by
  obtain ⟨graph, symbol, _, thrown⟩ := Execution.foldlM_error failed
  unfold addDependencies at thrown
  cases found : getDirectDependencies table symbol with
  | error _ =>
    rw [found] at thrown
    cases thrown
    exact getDirectDependencies_error found
  | ok dependencies =>
    rw [found] at thrown
    obtain ⟨before, dep, _, missing⟩ := Execution.foldlM_error thrown
    unfold addDependent at missing
    cases entered : before.addEdge dep symbol with
    | none =>
      rw [entered] at missing
      cases missing
      rfl
    | some after =>
      rw [entered] at missing
      cases missing

end Buildable
end MendingTable
end CMender
