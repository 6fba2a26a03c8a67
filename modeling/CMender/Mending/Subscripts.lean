import CMender.Mending.Ownership

/-! A variable that is subscripted several times. Each diagnostic gives its type one more
level of pointers: the first one finds the variable by its name and makes a typedef of
what it was, and the next ones find it by the text that the one before has stored. The
name is looked for in the text with a pattern for ASCII identifiers only. -/
namespace CMender
open Foundations Foundations.Execution MendingState

/-- A type with a number of pointers around another one. The innermost pointee has the
structure and the canonical text of the type; its own text may be an alias. -/
def PointerLevels : Nat → QualType → QualType → Prop
  | 0, original, type =>
    type.type = original.type ∧ type.canonicalTypeAsString = original.canonicalTypeAsString
  | levels + 1, original, type =>
    ∃ pointee, type.type = some (.pointer pointee) ∧ PointerLevels levels original pointee

namespace MendingState

/-- What the handler does when the text leads to a variable. -/
def subscriptMapped (s : MendingState) (symbol : VariableSymbol) (code : String) : MendingState :=
  s.withTable fun table => (table.setAliasedType symbol.type
    (table.aliasedType symbol.type).pointerTo).putControlledArraySubscriptMapping code (.variable symbol)

/-- What it does when the text is the name of a variable. -/
def subscriptNamed (s : MendingState) (symbol : VariableSymbol) (code : String) : MendingState :=
  (s.typeAlias (s.table.aliasedType symbol.type) []).withTable fun table =>
    (table.setAliasedType symbol.type (aliasPointerType s.nextAlias
      (s.table.aliasedType symbol.type))).putControlledArraySubscriptMapping code (.variable symbol)

end MendingState

/-- The diagnostics of `base[sub]`, `base[sub][next]` and so on, in this order. -/
inductive SubscriptChain : String → List Diagnostic → Prop where
  | nil {base : String} : SubscriptChain base []
  | cons {base sub : String} {diag : Diagnostic} {rest : List Diagnostic} {more : List DiagnosticSourceRange}
      (ranges : diag.sourceRanges = ⟨base⟩ :: ⟨sub⟩ :: more) (later : SubscriptChain (subscripted base sub) rest) :
      SubscriptChain base (diag :: rest)

namespace MendingTable

/-- Only the type at one reference changes, by a number of pointers. -/
structure Deepened (type : Ref TypedefType) (levels : Nat) (before after : MendingTable) : Prop where
  levels : PointerLevels levels (before.aliasedType type) (after.aliasedType type)
  others : ∀ other, other ≠ type → after.aliasedType other = before.aliasedType other
  typedefs : after.typedefs = before.typedefs
  typedefSymbols : after.typedefSymbols = before.typedefSymbols

/-- What the subscripts of a variable should do to the table, with the typedef type of the
variable: one new typedef for the type it stood for, and a number of pointers. -/
structure SubscriptsMended (type : Ref TypedefType) (levels : Nat) (before after : MendingTable) : Prop where
  levels : PointerLevels levels (before.aliasedType type) (after.aliasedType type)
  added : ∃ aliasName typedef, before.typedefs.lookup aliasName = none ∧
    ¬ before.typedefSymbols.Allocated typedef ∧ after.typedefs = before.typedefs.insert aliasName typedef ∧
    after.typedefType typedef ≠ type ∧ after.symbolType typedef = before.aliasedType type
  others : ∀ other, before.typedefTypes.Allocated other → other ≠ type →
    after.aliasedType other = before.aliasedType other
  symbols : ∀ symbol, before.typedefSymbols.Allocated symbol → after.typedefType symbol = before.typedefType symbol

end MendingTable

section Levels
variable {levels more : Nat} {original type outer : QualType}

theorem PointerLevels.congr (around : PointerLevels levels original type) (same : outer.type = type.type)
    (text : outer.canonicalTypeAsString = type.canonicalTypeAsString) : PointerLevels levels original outer := by
  cases levels with
  | zero => exact ⟨same.trans around.1, text.trans around.2⟩
  | succ levels =>
    obtain ⟨pointee, pointer, inside⟩ := around
    exact ⟨pointee, same.trans pointer, inside⟩

theorem PointerLevels.trans (inner : PointerLevels levels original type) (around : PointerLevels more type outer) :
    PointerLevels (levels + more) original outer := by
  induction more generalizing outer with
  | zero => exact inner.congr around.1 around.2
  | succ more ih =>
    obtain ⟨pointee, pointer, inside⟩ := around
    exact ⟨pointee, pointer, ih inside⟩

theorem pointerLevels_refl : PointerLevels 0 type type := ⟨rfl, rfl⟩

theorem pointerLevels_pointerTo : PointerLevels 1 type type.pointerTo := ⟨type, rfl, pointerLevels_refl⟩

theorem pointerLevels_aliasPointerType {aliasName : String} : PointerLevels 1 type (aliasPointerType aliasName type) :=
  ⟨_, rfl, rfl, rfl⟩

end Levels

namespace MendingTable
variable {type : Ref TypedefType} {levels more : Nat} {table before middle after : MendingTable}

theorem Deepened.refl : table.Deepened type 0 table := ⟨pointerLevels_refl, fun _ _ => rfl, rfl, rfl⟩

theorem Deepened.trans (first : Deepened type levels before middle) (second : Deepened type more middle after) :
    Deepened type (levels + more) before after :=
  ⟨first.levels.trans second.levels,
    fun other different => (second.others other different).trans (first.others other different),
    second.typedefs.trans first.typedefs, second.typedefSymbols.trans first.typedefSymbols⟩

theorem SubscriptsMended.deepen (first : SubscriptsMended type levels before middle)
    (second : Deepened type more middle after) : SubscriptsMended type (levels + more) before after := by
  obtain ⟨aliasName, typedef, fresh, unallocated, registered, own, aliased⟩ := first.added
  have typedefTypes : ∀ symbol, after.typedefType symbol = middle.typedefType symbol := by
    intro symbol
    rw [typedefType, second.typedefSymbols, typedefType]
  refine ⟨first.levels.trans second.levels, ⟨aliasName, typedef, fresh, unallocated, ?_, ?_, ?_⟩, ?_, ?_⟩
  · rw [second.typedefs, registered]
  · rw [typedefTypes]
    exact own
  · rw [symbolType, typedefTypes, second.others _ own]
    exact aliased
  · intro other allocated different
    rw [second.others other different, first.others other allocated different]
  · intro symbol allocated
    rw [typedefTypes, first.symbols symbol allocated]

end MendingTable

section Handler
variable {s t : MendingState} {diag : Diagnostic} {diags : List Diagnostic} {base sub : String}
  {more : List DiagnosticSourceRange} {symbol : VariableSymbol}

theorem adjustSubscriptBaseHeuristic_mapped (ranges : diag.sourceRanges = ⟨base⟩ :: ⟨sub⟩ :: more)
    (mapped : s.table.arraySubscriptToCorrespondingSymbol.lookup base = some (.variable symbol)) :
    adjustSubscriptBaseHeuristic diag s = .ok () (s.subscriptMapped symbol (subscripted base sub)) := by
  simp only [adjustSubscriptBaseHeuristic, bind_ok, raise_ok, getFirst_ok, getAt_ok, getTable_ok]
  refine ⟨⟨base⟩, s, ⟨by rw [ranges]; rfl, rfl⟩, ⟨sub⟩, s, ⟨by rw [ranges]; rfl, rfl⟩, s.table, s, ⟨rfl, rfl⟩, ?_⟩
  simp only [mapped, bind_ok, raise_ok, orThrow_ok, modifyTable_ok]
  exact ⟨symbol.type, s, ⟨rfl, rfl⟩, rfl⟩

theorem adjustSubscriptBaseHeuristic_named (ranges : diag.sourceRanges = ⟨base⟩ :: ⟨sub⟩ :: more)
    (unmapped : s.table.arraySubscriptToCorrespondingSymbol.lookup base = none)
    (identifier : matchIdentifier base = some base) (found : s.table.variables.lookup base = some symbol) :
    adjustSubscriptBaseHeuristic diag s = .ok () (s.subscriptNamed symbol (subscripted base sub)) := by
  simp only [adjustSubscriptBaseHeuristic, bind_ok, raise_ok, getFirst_ok, getAt_ok, getTable_ok]
  refine ⟨⟨base⟩, s, ⟨by rw [ranges]; rfl, rfl⟩, ⟨sub⟩, s, ⟨by rw [ranges]; rfl, rfl⟩, s.table, s, ⟨rfl, rfl⟩, ?_⟩
  simp only [unmapped, bind_ok, raise_ok, orThrow_ok, nonNull_ok, createTypedef_eq, EStateM.Result.ok.injEq,
    modifyTable_ok]
  refine ⟨base, s, ⟨identifier, rfl⟩, symbol, s, ⟨found, rfl⟩, _, _, ⟨rfl, rfl⟩, ?_⟩
  simp only [withTable, typeAlias_typedefType, typeAlias_typedefName, typeAlias_symbolType]
  rfl

theorem adjustSubscriptBaseHeuristic_unnamed (ranges : diag.sourceRanges = ⟨base⟩ :: ⟨sub⟩ :: more)
    (unmapped : s.table.arraySubscriptToCorrespondingSymbol.lookup base = none)
    (noIdentifier : matchIdentifier base = none) :
    adjustSubscriptBaseHeuristic diag s = .error (.runtime "Could not find variable name in subscript value") s := by
  simp only [adjustSubscriptBaseHeuristic, bind_error, raise_ok, getFirst_ok, getAt_ok, getTable_ok]
  refine .inr ⟨⟨base⟩, s, ⟨by rw [ranges]; rfl, rfl⟩, .inr ⟨⟨sub⟩, s, ⟨by rw [ranges]; rfl, rfl⟩,
    .inr ⟨s.table, s, ⟨rfl, rfl⟩, ?_⟩⟩⟩
  simp only [unmapped, noIdentifier, bind_error, raise_error, orThrow_error, and_self, true_or]

theorem deepened_subscriptMapped {code : String} :
    s.table.Deepened symbol.type 1 (s.subscriptMapped symbol code).table := by
  have aliased : ∀ other, (s.subscriptMapped symbol code).table.aliasedType other =
      if other = symbol.type then (s.table.aliasedType symbol.type).pointerTo else s.table.aliasedType other :=
    fun _ => MendingTable.aliasedType_setAliasedType
  refine ⟨?_, fun other different => (aliased other).trans (if_neg different), rfl, rfl⟩
  rw [aliased, if_pos rfl]
  exact pointerLevels_pointerTo

/-- The subscripts behind the first one. -/
theorem deeper_subscripts (chain : SubscriptChain base diags)
    (mapped : s.table.arraySubscriptToCorrespondingSymbol.lookup base = some (.variable symbol)) :
    ∃ t, diags.forM adjustSubscriptBaseHeuristic s = .ok () t ∧
      s.table.Deepened symbol.type diags.length t.table := by
  induction chain generalizing s with
  | nil => exact ⟨s, rfl, .refl⟩
  | @cons base sub diag rest more ranges later ih =>
    have first := adjustSubscriptBaseHeuristic_mapped ranges mapped
    have stored : (s.subscriptMapped symbol (subscripted base sub)).table.arraySubscriptToCorrespondingSymbol.lookup
        (subscripted base sub) = some (.variable symbol) := Map.lookup_insert_self
    obtain ⟨t, run, deepened⟩ := ih stored
    refine ⟨t, forM_ok.mpr (.next first (forM_ok.mp run)), ?_⟩
    have both := deepened_subscriptMapped.trans deepened
    rwa [Nat.add_comm] at both

/-- An identifier is all of its line. -/
theorem matchIdentifier_eq {name : String} (oneLine : ∀ c ∈ name.toList, isLineTerminator c = false) :
    matchIdentifier name = if fitsIdentifierPattern name.toList then some name else none := by
  rw [matchIdentifier]
  split
  · rename_i rest reversed
    have ended : '\n' ∈ name.toList := by
      rw [← List.mem_reverse, reversed]
      exact List.mem_cons_self
    exact absurd (oneLine '\n' ended) (by decide)
  · rename_i last rest _ reversed
    have ended : last ∈ name.toList := by
      rw [← List.mem_reverse, reversed]
      exact List.mem_cons_self
    rw [oneLine last ended]
    simp
  · rename_i reversed
    rw [List.reverse_eq_nil_iff.mp reversed]
    rfl

/-- The first subscript: the new alias stands for what the variable stood for. -/
theorem first_subscript (allocated : s.table.typedefTypes.Allocated symbol.type)
    (fresh : s.table.typedefs.lookup s.nextAlias = none) (code : String) :
    s.table.SubscriptsMended symbol.type 1 (s.subscriptNamed symbol code).table := by
  have aliased : ∀ other, (s.subscriptNamed symbol code).table.aliasedType other =
      if other = symbol.type then aliasPointerType s.nextAlias (s.table.aliasedType symbol.type)
      else (s.typeAlias (s.table.aliasedType symbol.type) []).table.aliasedType other :=
    fun _ => MendingTable.aliasedType_setAliasedType
  have created : (s.typeAlias (s.table.aliasedType symbol.type) []).table.typedefType s.table.typedefSymbols.next =
      s.nextType := typeAlias_typedefType
  have ownType : (s.subscriptNamed symbol code).table.typedefType s.table.typedefSymbols.next = s.nextType := created
  have different : s.nextType ≠ symbol.type := allocated.ne_next.symm
  refine ⟨?_, ⟨s.nextAlias, s.table.typedefSymbols.next, fresh, Nat.lt_irrefl _, ?_, ?_, ?_⟩, ?_, ?_⟩
  · rw [aliased, if_pos rfl]
    exact pointerLevels_aliasPointerType
  · exact MendingTable.typedefs_createTypedef
  · rw [ownType]
    exact different
  · rw [MendingTable.symbolType, ownType, aliased, if_neg different]
    exact MendingTable.aliasedType_createTypedef
  · intro other older notOwn
    rw [aliased, if_neg notOwn]
    exact MendingTable.aliasedType_createTypedef_of_allocated older
  · intro other older
    have kept : (s.typeAlias (s.table.aliasedType symbol.type) []).table.typedefType other =
      s.table.typedefType other := MendingTable.typedefType_createTypedef_of_allocated older
    exact kept

/-- Any number of subscripts make as many levels of pointers, exactly when the variable has
a name of ASCII letters, digits and underscores. -/
theorem subscripts_make_levels_iff {name aliasName : String}
    (oneLine : ∀ c ∈ name.toList, isLineTerminator c = false)
    (found : s.table.variables.lookup name = some symbol)
    (registered : s.table.RegisteredAs symbol.type aliasName)
    (fresh : s.table.typedefs.lookup s.nextAlias = none)
    (unmapped : s.table.arraySubscriptToCorrespondingSymbol.lookup name = none)
    (chain : SubscriptChain name diags) (nonempty : diags ≠ []) :
    (∃ t, diags.forM adjustSubscriptBaseHeuristic s = .ok () t ∧
      s.table.SubscriptsMended symbol.type diags.length t.table) ↔
    fitsIdentifierPattern name.toList = true := by
  cases chain with
  | nil => exact absurd rfl nonempty
  | @cons _ sub diag rest _ ranges later =>
    have identifier := matchIdentifier_eq oneLine
    constructor
    · rintro ⟨t, run, _⟩
      by_contra noIdentifier
      rw [if_neg noIdentifier] at identifier
      have thrown := adjustSubscriptBaseHeuristic_unnamed ranges unmapped identifier
      cases forM_ok.mp run with
      | next first _ =>
        rw [thrown] at first
        cases first
    · intro isIdentifier
      rw [if_pos isIdentifier] at identifier
      have first := adjustSubscriptBaseHeuristic_named ranges unmapped identifier found
      have mended := first_subscript registered.1.1 fresh (subscripted name sub)
      have stored : (s.subscriptNamed symbol (subscripted name sub)).table.arraySubscriptToCorrespondingSymbol.lookup
          (subscripted name sub) = some (.variable symbol) := Map.lookup_insert_self
      obtain ⟨t, run, deepened⟩ := deeper_subscripts later stored
      refine ⟨t, forM_ok.mpr (.next first (forM_ok.mp run)), ?_⟩
      have both := mended.deepen deepened
      rwa [Nat.add_comm] at both

end Handler

section Example

/-- A variable has been declared in a first file. -/
def declaredVariable (name : String) : MendingState :=
  let s := MendingState.initial .start .empty
  s.structAlias.withTable (·.declareVariable name s.nextType)

def subscriptOf (base sub : String) : Diagnostic :=
  .errorAt 1 base .errTypecheckSubscriptValue "subscripted value is not an array, pointer, or vector" [] [base, sub]

theorem declaredVariable_ready (name : String) : ∃ symbol,
    (declaredVariable name).table.variables.lookup name = some symbol ∧
    (declaredVariable name).table.RegisteredAs symbol.type "cmender_type_alias_0" ∧
    (declaredVariable name).table.typedefs.lookup (declaredVariable name).nextAlias = none ∧
    (declaredVariable name).table.arraySubscriptToCorrespondingSymbol.lookup name = none := by
  have named : (MendingState.initial .start .empty).nextAlias = "cmender_type_alias_0" := by decide
  refine ⟨_, Map.lookup_insert_self, ?_, ?_, rfl⟩
  · rw [← named]
    exact MendingTable.registeredAs_createTypedef
  · have next : (declaredVariable name).nextAlias ≠ (MendingState.initial .start .empty).nextAlias := by
      change MendingTypeNameGenerator.typedefAliasName 1 ≠ MendingTypeNameGenerator.typedefAliasName 0
      decide
    exact (Map.lookup_insert_of_ne next).trans Map.lookup_empty

theorem two_subscripts_make_levels :
    ∃ symbol t, (declaredVariable "x").table.variables.lookup "x" = some symbol ∧
      [subscriptOf "x" "0", subscriptOf "x[0]" "1"].forM adjustSubscriptBaseHeuristic (declaredVariable "x") =
        .ok () t ∧
      (declaredVariable "x").table.SubscriptsMended symbol.type 2 t.table := by
  obtain ⟨symbol, found, registered, fresh, unmapped⟩ := declaredVariable_ready "x"
  have chain : SubscriptChain "x" [subscriptOf "x" "0", subscriptOf "x[0]" "1"] := .cons rfl (.cons rfl .nil)
  have oneLine : ∀ c ∈ "x".toList, isLineTerminator c = false := by
    intro c listed
    rw [List.mem_singleton.mp listed]
    decide
  obtain ⟨t, run, mended⟩ := (subscripts_make_levels_iff oneLine found registered fresh unmapped chain
    (List.cons_ne_nil _ _)).mpr (by decide)
  exact ⟨symbol, t, found, run, mended⟩

/-- A variable whose name has a letter outside ASCII is declared, but not found again. -/
theorem accented_name_not_found :
    ∃ symbol, (declaredVariable "é").table.variables.lookup "é" = some symbol ∧
      (declaredVariable "é").table.RegisteredAs symbol.type "cmender_type_alias_0" ∧
      (declaredVariable "é").table.typedefs.lookup (declaredVariable "é").nextAlias = none ∧
      (declaredVariable "é").table.arraySubscriptToCorrespondingSymbol.lookup "é" = none ∧
      adjustSubscriptBaseHeuristic (subscriptOf "é" "0") (declaredVariable "é") =
        .error (.runtime "Could not find variable name in subscript value") (declaredVariable "é") := by
  obtain ⟨symbol, found, registered, fresh, unmapped⟩ := declaredVariable_ready "é"
  exact ⟨symbol, found, registered, fresh, unmapped, adjustSubscriptBaseHeuristic_unnamed rfl unmapped (by decide)⟩

end Example
end CMender
