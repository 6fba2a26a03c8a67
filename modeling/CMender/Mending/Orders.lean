import CMender.Mending.Writing

/-! The same table written in two iteration orders. Either both writes go through or
neither does, and what they put out differs in nothing but its order. -/
namespace CMender.MendingTable
open Foundations
variable {table : MendingTable} {order other : IterationOrder} {symbols rest : List Symbol}

theorem writeDefs_succeeds (texts : ∀ symbol ∈ symbols, ∃ text, symbol.asDefinitionString table = .ok text) :
    (table.writeDefs symbols).failure = none := by
  induction symbols with
  | nil => rfl
  | cons symbol rest ih =>
    obtain ⟨text, made⟩ := texts symbol List.mem_cons_self
    rw [writeDefs, made]
    exact ih fun other listed => texts other (List.mem_cons_of_mem _ listed)

/-- The definition that is written for a symbol. -/
def definition (table : MendingTable) (symbol : Symbol) : Option Definition :=
  match symbol.asDefinitionString table with
  | .ok text => some ⟨symbol, text⟩
  | .error _ => none

theorem writeDefs_definitions (returned : (table.writeDefs symbols).failure = none) :
    (∀ symbol ∈ symbols, ∃ text, symbol.asDefinitionString table = .ok text) ∧
      (table.writeDefs symbols).definitions = symbols.filterMap table.definition := by
  induction symbols with
  | nil => exact ⟨fun symbol listed => absurd listed List.not_mem_nil, rfl⟩
  | cons symbol rest ih =>
    rw [writeDefs] at returned ⊢
    cases made : symbol.asDefinitionString table with
    | error error =>
      rw [made] at returned
      cases returned
    | ok text =>
      rw [made] at returned
      obtain ⟨texts, definitions⟩ := ih returned
      refine ⟨List.forall_mem_cons.mpr ⟨⟨text, made⟩, texts⟩, ?_⟩
      have first : table.definition symbol = some ⟨symbol, text⟩ := by rw [definition, made]
      rw [List.filterMap_cons_some first, ← definitions]

theorem writeDefs_perm (permuted : symbols.Perm rest) (returned : (table.writeDefs symbols).failure = none) :
    (table.writeDefs rest).failure = none ∧
      (table.writeDefs symbols).definitions.Perm (table.writeDefs rest).definitions := by
  obtain ⟨texts, definitions⟩ := writeDefs_definitions returned
  have again : (table.writeDefs rest).failure = none :=
    writeDefs_succeeds fun symbol listed => texts symbol (permuted.mem_iff.mpr listed)
  refine ⟨again, ?_⟩
  rw [definitions, (writeDefs_definitions again).2]
  exact permuted.filterMap _

theorem unsortedSymbols_perm (table : MendingTable) (order other : IterationOrder) :
    (table.unsortedSymbols order).Perm (table.unsortedSymbols other) := by
  have enumSymbols := (order.enumValues_perm table.enums.values).trans (other.enumValues_perm _).symm
  have variableSymbols := (order.variableValues_perm table.variables.values).trans (other.variableValues_perm _).symm
  have functionSymbols := (order.functionValues_perm table.functions.values).trans (other.functionValues_perm _).symm
  exact ((enumSymbols.map _).append (variableSymbols.map _)).append (functionSymbols.map _)

/-- All sorts of one table list the same symbols. -/
theorem DependencyOrder.perm {ordering another : List Symbol} (sorted : table.DependencyOrder ordering)
    (again : table.DependencyOrder another) : ordering.Perm another :=
  (List.perm_ext_iff_of_nodup sorted.nodup again.nodup).mpr fun symbol =>
    (sorted.complete symbol).trans (again.complete symbol).symm

/-- A table that can be written in one order can be written in all, with the same definitions. -/
theorem writeSymbolDecls_perm (returned : (table.writeSymbolDecls order).failure = none) (other : IterationOrder) :
    (table.writeSymbolDecls other).failure = none ∧
      (table.writeSymbolDecls order).definitions.Perm (table.writeSymbolDecls other).definitions := by
  unfold writeSymbolDecls at returned ⊢
  cases built : table.buildDependencyGraph with
  | error error =>
    rw [built] at returned
    cases returned
  | ok graph =>
    rw [built] at returned
    cases sorted : table.topologicalSort order graph with
    | none =>
      simp only [sorted] at returned
      cases returned
    | some ordering =>
      simp only [sorted] at returned
      cases again : table.topologicalSort other graph with
      | none =>
        have cyclic : table.topologicalSort order graph = none :=
          (topologicalSort_none built).mpr ((topologicalSort_none built).mp again)
        rw [sorted] at cyclic
        cases cyclic
      | some another =>
        have permuted := (topologicalSort_order built sorted).perm (topologicalSort_order built again)
        simp only [sorted, again]
        exact writeDefs_perm (permuted.append (table.unsortedSymbols_perm order other)) returned

theorem writeSymbolDecls_failure_iff (table : MendingTable) (order other : IterationOrder) :
    (table.writeSymbolDecls order).failure = none ↔ (table.writeSymbolDecls other).failure = none :=
  ⟨fun returned => (writeSymbolDecls_perm returned other).1, fun returned => (writeSymbolDecls_perm returned order).1⟩

end CMender.MendingTable
