import CMender.Mending.Cycles
import CMender.Mending.UsedTypes

/-! Declare before use. The definitions are sorted by the structure of types, so what
a record's members and a variable's type need comes first; what the text of a typedef
names comes first only when it names no controlled typedef at all. -/
namespace CMender
open Foundations Foundations.Execution

mutual
/-- A record held by value is one of the tags of a type. -/
theorem LangType.tag_of_byValueRecord {name : String} : ∀ type : LangType,
    type.byValueRecord = some name → Tag.record name ∈ type.tags
  | .record own _, held => by
    obtain rfl : own = name := Option.some.inj held
    exact List.mem_singleton_self _
  | .array _ _ elementType, held => QualType.tag_of_byValueRecord elementType held
  | .builtin .., held => nomatch held
  | .pointer _, held => nomatch held
  | .enum _, held => nomatch held
  | .function .., held => nomatch held

theorem QualType.tag_of_byValueRecord {name : String} : ∀ type : QualType,
    type.byValueRecord = some name → Tag.record name ∈ type.tags
  | ⟨_, _, _, _, none, _⟩, held => nomatch held
  | ⟨_, _, _, _, some type, _⟩, held => LangType.tag_of_byValueRecord type held
end

namespace MendingTable
variable (table : MendingTable)

/-- The names of typedefs that the text of a symbol's definition uses as types, except
for the name a typedef introduces. -/
def UsesAsType : Symbol → String → Prop
  | .typedef symbol, name => name ∈ (table.symbolType symbol).usedTypes ∧ name ≠ table.symbolName symbol
  | .record symbol, name => ∃ member ∈ table.members symbol, table.typedefName member.type = name
  | .enum _, _ => False
  | .variable symbol, name => table.typedefName symbol.type = name
  | .function symbol, name => table.typedefName symbol.returnType = name ∨
      ∃ parameter ∈ symbol.parameters, name ∈ (table.aliasedType parameter.type).usedTypes
  | .member symbol, name => table.typedefName symbol.type = name

/-- The typedef registered for a typedef type resolves to a record by value. -/
def ResolvesTo (type : Ref TypedefType) (name : String) : Prop :=
  ∃ typedef, table.typedefs.lookup (table.typedefName type) = some typedef ∧
    (table.symbolType typedef).byValueRecord = some name

/-- The records a definition needs to be complete: those its members, its variable or
the value its function returns hold by value. -/
def NeedsComplete : Symbol → String → Prop
  | .record symbol, name => ∃ member ∈ table.members symbol, table.ResolvesTo member.type name
  | .variable symbol, name => table.ResolvesTo symbol.type name
  | .function symbol, name => table.ResolvesTo symbol.returnType name
  | _, _ => False

/-- Every controlled typedef a definition uses and every controlled record it needs has
its definition in front. -/
def DeclaredBeforeUse (definitions : List Definition) : Prop :=
  ∀ front definition back, definitions = front ++ definition :: back →
    (∀ name typedef, table.typedefs.lookup name = some typedef → table.UsesAsType definition.symbol name →
      .typedef typedef ∈ front.map Definition.symbol) ∧
    ∀ name record, table.records.lookup name = some record → table.NeedsComplete definition.symbol name →
      .record record ∈ front.map Definition.symbol

variable {table} {order : IterationOrder} {ordering front back : List Symbol} {symbol : Symbol}

/-- A definition is written after all typedefs and records, or it is one of the sorted. -/
theorem sorted_or_after (ordered : table.DependencyOrder ordering) {rest : List Symbol}
    (split : ordering ++ rest = front ++ symbol :: back) :
    (∀ dep ∈ table.graphSymbols, dep ∈ front) ∨ ∃ later, ordering = front ++ symbol :: later := by
  rcases List.append_eq_append_iff.mp split with ⟨middle, frontEq, _⟩ | ⟨middle, orderingEq, restEq⟩
  · left
    intro dep known
    rw [frontEq]
    exact List.mem_append_left _ ((ordered.complete dep).mpr known)
  · cases middle with
    | nil =>
      left
      intro dep known
      have listed := (ordered.complete dep).mpr known
      rwa [orderingEq, List.append_nil] at listed
    | cons first later =>
      obtain ⟨rfl, _⟩ := List.cons.inj restEq
      exact .inr ⟨later, orderingEq⟩

/-- What a typedef in front depends on is in front as well. -/
theorem DependencyOrder.earlier_of_earlier (ordered : table.DependencyOrder ordering)
    (split : ordering = front ++ symbol :: back) {middle dep : Symbol} (earlier : middle ∈ front)
    (depends : table.DependsOn middle dep) (known : dep ∈ table.graphSymbols) : dep ∈ front := by
  obtain ⟨start, finish, rfl⟩ := List.append_of_mem earlier
  have found := ordered.earlier start middle (finish ++ symbol :: back) (by simp [split]) dep depends known
  exact List.mem_append_left _ found

theorem declaredBeforeUse (formed : table.WellFormed) (apart : table.TextsApart)
    (returned : (table.writeSymbolDecls order).failure = none) :
    table.DeclaredBeforeUse (table.writeSymbolDecls order).definitions := by
  obtain ⟨ordering, buildable, ordered, symbols⟩ := writeSymbolDecls_returns returned
  intro front definition back split
  have split : ordering ++ table.unsortedSymbols order =
      front.map Definition.symbol ++ definition.symbol :: back.map Definition.symbol := by
    rw [← symbols, split]
    simp
  have typedefKnown {name : String} {typedef : Ref TypedefSymbol}
      (found : table.typedefs.lookup name = some typedef) : Symbol.typedef typedef ∈ table.graphSymbols :=
    typedef_mem_graphSymbols.mpr ⟨name, found⟩
  have recordKnown {name : String} {record : Ref RecordSymbol}
      (found : table.records.lookup name = some record) : Symbol.record record ∈ table.graphSymbols :=
    record_mem_graphSymbols.mpr ⟨name, found⟩
  rcases sorted_or_after ordered split with all | ⟨later, sorted⟩
  · exact ⟨fun _ _ found _ => all _ (typedefKnown found), fun _ _ found _ => all _ (recordKnown found)⟩
  have listed : definition.symbol ∈ table.graphSymbols := (ordered.complete _).mp (by rw [sorted]; simp)
  cases kind : definition.symbol with
  | typedef own =>
    rw [kind] at listed
    obtain ⟨key, registered⟩ := typedef_mem_graphSymbols.mp listed
    have named := (formed.typedefs key own registered).2
    refine ⟨fun name typedef found uses => ?_, fun _ _ _ needs => needs.elim⟩
    have same := apart key _ (definitionType_eq_some.mpr ⟨own, registered, rfl⟩) name uses.1
      (Map.containsKey_iff.mpr ⟨typedef, found⟩)
    exact absurd (same.trans named.symm) uses.2
  | record own =>
    rw [kind] at sorted
    have earlier {name : String} {typedef : Ref TypedefSymbol} {member : Member}
        (found : table.typedefs.lookup name = some typedef) (listed : member ∈ table.members own)
        (typed : table.typedefName member.type = name) :
        Symbol.typedef typedef ∈ front.map Definition.symbol := by
      refine ordered.earlier _ _ _ sorted _ (dependsOn_record.mpr ⟨member, listed, typedef, ?_, rfl⟩)
        (typedefKnown found)
      rwa [typed]
    constructor
    · rintro name typedef found ⟨member, listed, typed⟩
      exact earlier found listed typed
    · rintro name record found ⟨member, listed, typedef, registered, held⟩
      have depends : table.DependsOn (.typedef typedef) (.record record) := by
        refine dependsOn_typedef.mpr ⟨(buildable _ _ registered).1, .record name,
          QualType.tag_of_byValueRecord _ held, ?_⟩
        simp [Tag.symbol, found]
      exact ordered.earlier_of_earlier sorted (earlier registered listed rfl) depends (recordKnown found)
  | enum own => simp [kind, graphSymbols] at listed
  | «variable» own => simp [kind, graphSymbols] at listed
  | function own => simp [kind, graphSymbols] at listed
  | member own => simp [kind, graphSymbols] at listed

end MendingTable

/-- In every run whose steps keep the texts apart, whatever is written declares before it uses. -/
theorem declared_before_use (includePath : String) (names : MendingTypeNameGenerator) (files : FileSystem)
    (diags : List Diagnostic) (t : MendingState)
    (run : Reaches (TextStep includePath) (.initial names files) diags t) (order : IterationOrder)
    (returned : (t.table.writeSymbolDecls order).failure = none) :
    t.table.DeclaredBeforeUse (t.table.writeSymbolDecls order).definitions := by
  have formed : t.table.WellFormed := wellFormed_of_reaches (run.mono fun step => step.1)
  exact MendingTable.declaredBeforeUse formed (textsApart_of_reaches run) returned

section Subscripts

/-- `x[0]` -/
def subscriptedArray : Diagnostic :=
  .errorAt 1 "x[0]" .errTypecheckSubscriptValue "subscripted value is not an array, pointer, or vector" []
    ["x", "0"]

/-- The first step of a run finds no text, and the declaration of a variable writes none. -/
theorem keepsTextsApart_undeclaredVariable : KeepsTextsApart (.initial .start .empty) (undeclaredVariable 1 "x") := by
  constructor
  · intro key type writes
    cases writes with
    | convert id | convertToLocked id | pointMember id => cases id
    | subscript texts | subscriptVariable texts | subscriptAlias texts => cases texts
  · intro name _ key type found
    cases found

theorem declared_before_use_variable : ∃ t, mended [undeclaredVariable 1 "x"] = some t ∧
    (t.table.writeSymbolDecls .listed).failure = none ∧
      t.table.DeclaredBeforeUse (t.table.writeSymbolDecls .listed).definitions := by
  obtain ⟨t, ran⟩ : ∃ t, mended [undeclaredVariable 1 "x"] = some t := Option.isSome_iff_exists.mp (by decide +kernel)
  have returned : ∀ t ∈ mended [undeclaredVariable 1 "x"], (t.table.writeSymbolDecls .listed).failure = none := by
    decide +kernel
  have step := Reaches.single_iff.mp (mended_iff.mp ran)
  have run : Reaches (TextStep "/includes") (.initial .start .empty) [undeclaredVariable 1 "x"] t :=
    Reaches.single_iff.mpr ⟨step, keepsTextsApart_undeclaredVariable⟩
  exact ⟨t, ran, returned t ran, declared_before_use "/includes" .start .empty _ t run .listed (returned t ran)⟩

/-- The alias of `x` is defined by one that follows it. -/
theorem subscripted_alias_undeclared : ∃ t, mended [undeclaredVariable 1 "x", subscriptedArray] = some t ∧
    (t.table.writeSymbolDecls .reversed).failure = none ∧
    (t.table.writeSymbolDecls .reversed).definitions.map Definition.text =
      ["struct cmender_tag_type_0 \x7b\x7d;", "typedef cmender_type_alias_1 *cmender_type_alias_0;",
        "typedef struct cmender_tag_type_0 cmender_type_alias_1;", "cmender_type_alias_0 x;"] ∧
      ¬ t.table.DeclaredBeforeUse (t.table.writeSymbolDecls .reversed).definitions := by
  obtain ⟨t, ran⟩ : ∃ t, mended [undeclaredVariable 1 "x", subscriptedArray] = some t :=
    Option.isSome_iff_exists.mp (by decide +kernel)
  have written : ∀ t ∈ mended [undeclaredVariable 1 "x", subscriptedArray],
      (t.table.writeSymbolDecls .reversed).failure = none ∧
      (t.table.writeSymbolDecls .reversed).definitions.map Definition.text =
        ["struct cmender_tag_type_0 \x7b\x7d;", "typedef cmender_type_alias_1 *cmender_type_alias_0;",
          "typedef struct cmender_tag_type_0 cmender_type_alias_1;", "cmender_type_alias_0 x;"] := by
    decide +kernel
  -- The second definition is the alias of `x`, and only the record is in front of it.
  have facts : ∀ t ∈ mended [undeclaredVariable 1 "x", subscriptedArray],
      ((t.table.writeSymbolDecls .reversed).definitions.map Definition.symbol).take 2 =
        [.record ⟨0⟩, .typedef ⟨0⟩] ∧
      t.table.typedefs.lookup "cmender_type_alias_1" = some ⟨1⟩ ∧
      "cmender_type_alias_1" ∈ (t.table.symbolType ⟨0⟩).usedTypes ∧
      "cmender_type_alias_1" ≠ t.table.symbolName ⟨0⟩ := by
    decide +kernel
  obtain ⟨symbols, registered, used⟩ := facts t ran
  refine ⟨t, ran, (written t ran).1, (written t ran).2, fun declared => ?_⟩
  rw [← List.map_take] at symbols
  obtain ⟨first, rest, taken, firstSymbol, restSymbols⟩ := List.map_eq_cons_iff.mp symbols
  obtain ⟨second, rest, rfl, secondSymbol, ended⟩ := List.map_eq_cons_iff.mp restSymbols
  obtain rfl := List.map_eq_nil_iff.mp ended
  have split := (List.take_append_drop 2 (t.table.writeSymbolDecls .reversed).definitions).symm
  rw [taken] at split
  have uses : t.table.UsesAsType second.symbol "cmender_type_alias_1" := by
    rw [secondSymbol]
    exact used
  have earlier := (declared [first] second _ split).1 _ _ registered uses
  simp [firstSymbol] at earlier

end Subscripts
end CMender
