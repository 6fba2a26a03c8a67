import CMender.Foundations.DepthFirst
import CMender.Mending.Dependencies

/-! Writing the mendfile's definitions: the texts of the symbols, the order they
are sorted into, and the sequence that is written. Hash maps and hash sets are
iterated in an order of their own, which `IterationOrder` leaves open. -/
namespace CMender
open Foundations

section Texts
variable (table : MendingTable)

/-- `Collectors.joining` with a text before and after, both empty for no items. -/
def joined (separator before after : String) (items : List String) : String :=
  if items = [] then "" else before ++ separator.intercalate items ++ after

def Member.asDefinitionString (member : Member) : String :=
  table.typedefName member.type ++ " " ++ member.name ++ ";"

def Parameter.asDefinitionString (parameter : Parameter) : String :=
  (table.aliasedType parameter.type).substituteTypeUsageId parameter.name

def VariableSymbol.asDefinitionString (symbol : VariableSymbol) : String :=
  table.typedefName symbol.type ++ " " ++ symbol.name ++ ";"

def FunctionSymbol.getBody (symbol : FunctionSymbol) : Except JavaException String := do
  let type ← nonNull (table.aliasedType symbol.returnType).type
  if type.isIntegralType then return "\treturn 0;"
  else if type.isFloatingPointType then return "\treturn 0.0;"
  else if type.isBooleanType then return "\treturn 1;"
  else if type.isVoid then return ""
  else if type.isPointerType then return "\treturn (void *)0;"
  else
    let ret : VariableSymbol := ⟨0, "ret", symbol.returnType⟩
    return "\t" ++ ret.asDefinitionString table ++ "\n" ++ "\treturn ret;"

def FunctionSymbol.asDefinitionString (symbol : FunctionSymbol) : Except JavaException String := do
  let body ← symbol.getBody table
  return table.typedefName symbol.returnType ++ " " ++ symbol.name ++ "(" ++
    ",".intercalate (symbol.parameters.map (·.asDefinitionString table)) ++ ") " ++
    (if body = "" then "\x7b\x7d" else "\x7b\n" ++ body ++ "\n\x7d")

def RecordSymbol.asDefinitionString (symbol : RecordSymbol) : String :=
  "struct " ++ symbol.name ++ " \x7b" ++
    joined "\n\t" "\n\t" "\n" (symbol.members.map (·.asDefinitionString table)) ++ "\x7d;"

def EnumSymbol.asDefinitionString (symbol : EnumSymbol) : String :=
  "enum " ++ symbol.name ++ " \x7b" ++ joined ",\n\t" "\n\t" "\n" symbol.values ++ "\x7d;"

def TypedefSymbol.asDefinitionString (symbol : TypedefSymbol) : String :=
  "typedef " ++ (table.aliasedType symbol.typedefType).substituteTypeUsageId symbol.name ++ ";"

/-- Only a function's body looks at the structure of a type. -/
def Symbol.asDefinitionString : Symbol → Except JavaException String
  | .typedef symbol => .ok ((table.typedefSymbols.get symbol).asDefinitionString table)
  | .record symbol => .ok ((table.recordSymbols.get symbol).asDefinitionString table)
  | .enum symbol => .ok symbol.asDefinitionString
  | .variable symbol => .ok (symbol.asDefinitionString table)
  | .function symbol => symbol.asDefinitionString table
  | .member symbol => .ok (symbol.asDefinitionString table)

end Texts

/-- The orders in which the hash maps and sets of one write are iterated. -/
structure IterationOrder where
  keySet : List Symbol → List Symbol
  dependents : Symbol → List Symbol → List Symbol
  enumValues : List EnumSymbol → List EnumSymbol
  variableValues : List VariableSymbol → List VariableSymbol
  functionValues : List FunctionSymbol → List FunctionSymbol
  keySet_perm : ∀ symbols, (keySet symbols).Perm symbols
  dependents_perm : ∀ symbol symbols, (dependents symbol symbols).Perm symbols
  enumValues_perm : ∀ symbols, (enumValues symbols).Perm symbols
  variableValues_perm : ∀ symbols, (variableValues symbols).Perm symbols
  functionValues_perm : ∀ symbols, (functionValues symbols).Perm symbols

/-- Iteration in the order the model lists its maps in. -/
def IterationOrder.listed : IterationOrder :=
  ⟨id, fun _ => id, id, id, id, fun _ => .refl _, fun _ _ => .refl _, fun _ => .refl _,
    fun _ => .refl _, fun _ => .refl _⟩

/-- Every hash map and set in the other direction. -/
def IterationOrder.reversed : IterationOrder :=
  ⟨List.reverse, fun _ => List.reverse, List.reverse, List.reverse, List.reverse, List.reverse_perm,
    fun _ => List.reverse_perm, List.reverse_perm, List.reverse_perm, List.reverse_perm⟩

structure Definition where
  symbol : Symbol
  text : String

/-- What a write has put out when it ends, and the exception it ended with. -/
structure Written where
  definitions : List Definition
  failure : Option JavaException

namespace MendingTable
variable (table : MendingTable) (order : IterationOrder)

/-- Edges between typedefs of one name are not followed. -/
def sameTypedefName (symbol dep : Symbol) : Bool :=
  match symbol, dep with
  | .typedef symbol, .typedef dep =>
    (table.typedefSymbols.get symbol).name == (table.typedefSymbols.get dep).name
  | _, _ => false

/-- `none` for a graph with a cycle. Every symbol reached is a key of the graph. -/
def topologicalSort (graph : Foundations.Digraph Symbol) : Option (List Symbol) :=
  DepthFirst.sort (fun symbol => order.dependents symbol (graph.targets symbol)) table.sameTypedefName
    (order.keySet graph.keys)

/-- Writing stops at the first definition whose text cannot be made. -/
def writeDefs : List Symbol → Written
  | [] => ⟨[], none⟩
  | symbol :: rest =>
    match symbol.asDefinitionString table with
    | .error error => ⟨[], some error⟩
    | .ok text =>
      let written := writeDefs rest
      ⟨⟨symbol, text⟩ :: written.definitions, written.failure⟩

def circularDependency : JavaException := .fatal .mendfileWriter "Circular dependency detected" 0

/-- The symbols after the sorted ones. -/
def unsortedSymbols : List Symbol :=
  (order.enumValues table.enums.values).map .enum ++
    (order.variableValues table.variables.values).map .variable ++
    (order.functionValues table.functions.values).map .function

def writeSymbolDecls : Written :=
  match table.buildDependencyGraph with
  | .error error => ⟨[], some error⟩
  | .ok graph =>
    match table.topologicalSort order graph with
    | none => ⟨[], some circularDependency⟩
    | some orderedSymbols => table.writeDefs (orderedSymbols ++ table.unsortedSymbols order)

section Sorting
variable {table order} {graph : Foundations.Digraph Symbol}

/-- The edges the sort follows: from what is depended on to what depends on it. -/
def SortEdge (table : MendingTable) (dep symbol : Symbol) : Prop :=
  symbol ∈ table.graphSymbols ∧ table.DependsOn symbol dep

theorem mem_keySet (built : table.buildDependencyGraph = .ok graph) {symbol : Symbol} :
    symbol ∈ order.keySet graph.keys ↔ symbol ∈ table.graphSymbols := by
  rw [(order.keySet_perm _).mem_iff]
  exact (buildDependencyGraph_represents built).vertices symbol

theorem mem_dependents (built : table.buildDependencyGraph = .ok graph) {symbol dep : Symbol} :
    symbol ∈ order.dependents dep (graph.targets dep) ↔ table.SortEdge dep symbol := by
  rw [(order.dependents_perm _ _).mem_iff]
  exact (buildDependencyGraph_represents built).edges dep symbol

/-- A typedef depends on tags and a record on typedefs, so no edge joins two
typedefs and the exception the sort makes for them never applies. -/
theorem sameTypedefName_of_edge {dep symbol : Symbol} (edge : table.SortEdge dep symbol) :
    table.sameTypedefName dep symbol = false := by
  cases symbol with
  | typedef symbol =>
    obtain ⟨_, tag, _, found⟩ := dependsOn_typedef.mp edge.2
    cases tag with
    | record name =>
      obtain ⟨record, _, rfl⟩ := Option.map_eq_some_iff.mp found
      rfl
    | enum name =>
      obtain ⟨enum, _, rfl⟩ := Option.map_eq_some_iff.mp found
      rfl
  | _ => cases dep <;> rfl

theorem sortEdge_iff (built : table.buildDependencyGraph = .ok graph) {dep symbol : Symbol} :
    DepthFirst.Edge (fun symbol => order.dependents symbol (graph.targets symbol))
      table.sameTypedefName dep symbol ↔ table.SortEdge dep symbol := by
  rw [DepthFirst.Edge, mem_dependents built]
  exact ⟨fun edge => edge.1, fun edge => ⟨edge, sameTypedefName_of_edge edge⟩⟩

theorem closed_keySet (built : table.buildDependencyGraph = .ok graph) :
    DepthFirst.Closed (fun symbol => order.dependents symbol (graph.targets symbol))
      (order.keySet graph.keys) := by
  intro dep _ symbol dependent
  exact (mem_keySet built).mpr ((mem_dependents built).mp dependent).1

/-- The sort fails exactly when some typedef or record depends on itself through
others, whatever the iteration order. -/
theorem topologicalSort_none (built : table.buildDependencyGraph = .ok graph) :
    table.topologicalSort order graph = none ↔
      ∃ symbol ∈ table.graphSymbols, Relation.TransGen table.SortEdge symbol symbol := by
  rw [topologicalSort, DepthFirst.sort_none_iff (closed_keySet built)]
  have edges : DepthFirst.Edge (fun symbol => order.dependents symbol (graph.targets symbol))
      table.sameTypedefName = table.SortEdge := by
    funext dep symbol
    exact propext (sortEdge_iff built)
  simp only [DepthFirst.Cyclic, edges, mem_keySet built]

/-- A sorted table lists every typedef and record, once, after all it depends on. -/
structure DependencyOrder (table : MendingTable) (ordering : List Symbol) : Prop where
  complete : ∀ symbol, symbol ∈ ordering ↔ symbol ∈ table.graphSymbols
  nodup : ordering.Nodup
  earlier : ∀ front symbol back, ordering = front ++ symbol :: back →
    ∀ dep, table.DependsOn symbol dep → dep ∈ table.graphSymbols → dep ∈ front

theorem topologicalSort_order (built : table.buildDependencyGraph = .ok graph) {ordering : List Symbol}
    (sorted : table.topologicalSort order graph = some ordering) : table.DependencyOrder ordering := by
  have topological := DepthFirst.sort_topological (closed_keySet built) sorted
  refine ⟨fun symbol => (topological.complete symbol).trans (mem_keySet built), topological.nodup, ?_⟩
  intro front symbol back split dep depends known
  have present : symbol ∈ table.graphSymbols :=
    (mem_keySet built).mp ((topological.complete symbol).mp (by simp [split]))
  exact topological.source_before ((sortEdge_iff built).mpr ⟨present, depends⟩)
    ((mem_keySet built).mpr known) split

theorem writeDefs_returns {symbols : List Symbol} (returned : (table.writeDefs symbols).failure = none) :
    (table.writeDefs symbols).definitions.map Definition.symbol = symbols := by
  induction symbols with
  | nil => rfl
  | cons symbol rest ih =>
    rw [writeDefs] at returned ⊢
    split at returned
    · simp at returned
    · rename_i text made
      simp only [List.map_cons]
      rw [ih returned]

/-- A write that returns has built the graph, sorted it, and put out a definition
of every symbol, the sorted ones first. -/
theorem writeSymbolDecls_returns (returned : (table.writeSymbolDecls order).failure = none) :
    ∃ ordering, table.Buildable ∧ table.DependencyOrder ordering ∧
      (table.writeSymbolDecls order).definitions.map Definition.symbol =
        ordering ++ table.unsortedSymbols order := by
  unfold writeSymbolDecls at returned ⊢
  cases built : table.buildDependencyGraph with
  | error error => simp [built] at returned
  | ok graph =>
    simp only [built] at returned ⊢
    cases sorted : table.topologicalSort order graph with
    | none => simp [sorted] at returned
    | some ordering =>
      simp only [sorted] at returned ⊢
      exact ⟨ordering, buildable_iff.mp ⟨graph, built⟩, topologicalSort_order built sorted,
        writeDefs_returns returned⟩

end Sorting

section AnyGraph
variable {table order} {graph : Foundations.Digraph Symbol}

/-- Every target is a key, so `depGraph.get` finds an adjacency set for each symbol it visits. -/
def ClosedGraph (graph : Foundations.Digraph Symbol) : Prop :=
  ∀ symbol ∈ graph.keys, ∀ dep ∈ graph.targets symbol, dep ∈ graph.keys

/-- Two typedefs of a graph with one name are one typedef. -/
def TypedefsByName (table : MendingTable) (graph : Foundations.Digraph Symbol) : Prop :=
  ∀ a b, Symbol.typedef a ∈ graph.keys → Symbol.typedef b ∈ graph.keys →
    table.symbolName a = table.symbolName b → a = b

/-- The edges of a graph without the loops of typedefs. -/
def ProperEdge (graph : Foundations.Digraph Symbol) (symbol dep : Symbol) : Prop :=
  dep ∈ graph.targets symbol ∧ ¬ ∃ typedef, symbol = .typedef typedef ∧ dep = .typedef typedef

theorem key_of_target {symbol dep : Symbol} (target : dep ∈ graph.targets symbol) : symbol ∈ graph.keys := by
  unfold Digraph.targets at target
  cases found : graph.lookup symbol with
  | none => simp [found] at target
  | some targets => exact Map.mem_keys.mpr ⟨targets, found⟩

/-- Among typedefs that differ by name, the exception of the sort is for loops alone. -/
theorem sameTypedefName_iff (closed : ClosedGraph graph) (byName : TypedefsByName table graph)
    {symbol dep : Symbol} (target : dep ∈ graph.targets symbol) :
    table.sameTypedefName symbol dep = true ↔
      ∃ typedef, symbol = .typedef typedef ∧ dep = .typedef typedef := by
  have key := key_of_target target
  have depKey := closed symbol key dep target
  constructor
  · intro same
    cases symbol with
    | typedef symbol =>
      cases dep with
      | typedef dep =>
        obtain rfl := byName symbol dep key depKey (beq_iff_eq.mp same)
        exact ⟨symbol, rfl, rfl⟩
      | _ => cases same
    | _ => cases same
  · rintro ⟨typedef, rfl, rfl⟩
    exact beq_self_eq_true _

theorem sortEdge_eq_properEdge (order : IterationOrder) (closed : ClosedGraph graph)
    (byName : TypedefsByName table graph) :
    DepthFirst.Edge (fun symbol => order.dependents symbol (graph.targets symbol))
      table.sameTypedefName = ProperEdge graph := by
  funext symbol dep
  rw [DepthFirst.Edge, (order.dependents_perm _ _).mem_iff, ProperEdge, eq_iff_iff]
  apply and_congr_right
  intro target
  rw [← sameTypedefName_iff closed byName target, Bool.not_eq_true]

theorem closed_order (closed : ClosedGraph graph) :
    DepthFirst.Closed (fun symbol => order.dependents symbol (graph.targets symbol))
      (order.keySet graph.keys) := by
  intro symbol key dep dependent
  rw [(order.keySet_perm _).mem_iff] at key ⊢
  exact closed symbol key dep ((order.dependents_perm _ _).mem_iff.mp dependent)

/-- The sort of any closed graph, in any iteration order. The recursion ends within a
depth of one call for each key and one more; there is no answer exactly when a cycle
is left without the loops of typedefs; and an answer lists the keys once each, every
symbol in front of its targets. -/
theorem topologicalSort_correct (order : IterationOrder) (closed : ClosedGraph graph)
    (byName : TypedefsByName table graph) :
    (DepthFirst.sortWith (fun symbol => order.dependents symbol (graph.targets symbol))
      table.sameTypedefName ((order.keySet graph.keys).length + 1) (order.keySet graph.keys)).isSome = true ∧
    (table.topologicalSort order graph = none ↔
      ∃ symbol ∈ graph.keys, Relation.TransGen (ProperEdge graph) symbol symbol) ∧
    ∀ ordering, table.topologicalSort order graph = some ordering →
      ordering.Nodup ∧ (∀ symbol, symbol ∈ ordering ↔ symbol ∈ graph.keys) ∧
        ∀ front symbol back, ordering = front ++ symbol :: back →
          ∀ dep ∈ graph.targets symbol, dep ≠ symbol → dep ∈ back := by
  have edges := sortEdge_eq_properEdge order closed byName
  have keys : ∀ symbol, symbol ∈ order.keySet graph.keys ↔ symbol ∈ graph.keys :=
    fun _ => (order.keySet_perm _).mem_iff
  refine ⟨DepthFirst.sortWith_answers _ (closed_order closed), ?_, ?_⟩
  · rw [topologicalSort, DepthFirst.sort_none_iff (closed_order closed), DepthFirst.Cyclic, edges]
    simp only [keys]
  · intro ordering sorted
    have topological := DepthFirst.sort_topological (closed_order closed) sorted
    refine ⟨topological.nodup, fun symbol => (topological.complete symbol).trans (keys symbol), ?_⟩
    intro front symbol back split dep target other
    apply topological.before front symbol back split
    rw [edges]
    refine ⟨target, ?_⟩
    rintro ⟨typedef, rfl, rfl⟩
    exact other rfl

/-- A typedef with a loop, and a record that depends on it. -/
def loopedTypedef : Foundations.Digraph Symbol :=
  (Map.empty.insert (.typedef ⟨0⟩) [.typedef ⟨0⟩, .record ⟨0⟩]).insert (.record ⟨0⟩) []

theorem topologicalSort_loopedTypedef :
    empty.topologicalSort .listed loopedTypedef = some [.typedef ⟨0⟩, .record ⟨0⟩] ∧
      ¬ ∃ symbol ∈ loopedTypedef.keys, Relation.TransGen (ProperEdge loopedTypedef) symbol symbol := by
  have closed : ClosedGraph loopedTypedef := by
    unfold ClosedGraph
    decide
  have byName : TypedefsByName empty loopedTypedef := by
    intro a b first second _
    have keys : loopedTypedef.keys = [.record ⟨0⟩, .typedef ⟨0⟩] := rfl
    simp only [keys, List.mem_cons, reduceCtorEq, Symbol.typedef.injEq, List.not_mem_nil, or_false,
      false_or] at first second
    rw [first, second]
  have sorted : empty.topologicalSort .listed loopedTypedef = some [.typedef ⟨0⟩, .record ⟨0⟩] := by decide
  refine ⟨sorted, ?_⟩
  rw [← (topologicalSort_correct .listed closed byName).2.1, sorted]
  exact Option.some_ne_none _

end AnyGraph
end MendingTable
end CMender
