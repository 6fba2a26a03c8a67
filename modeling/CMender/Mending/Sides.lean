import CMender.Mending.OrdinaryNames

/-! The two sides that a conversion or an operation compares. A side that is no
source of truth stands for the typedef registered under its name, the other sides
stand for themselves. A conversion makes both stand for one type and touches
nothing else; the typedef is missing only for a struct the mender made up itself. -/
namespace CMender
open Foundations Foundations.Execution MendingState

/-- The typedef that a side names and that can be changed. -/
def changeableTypedef (table : MendingTable) (side : QualType) : Option (Ref TypedefSymbol) :=
  match side.typeName with
  | .ok name => if isSourceOfTruth table name then none else namedTypedef table name
  | .error _ => none

/-- The type a side stands for. -/
def denotedType (table : MendingTable) (side : QualType) : QualType :=
  ((changeableTypedef table side).map table.symbolType).getD side

section Reads
variable {table : MendingTable} {lhs rhs side : QualType} {symbol lhsSymbol rhsSymbol : Ref TypedefSymbol}

theorem denotedType_truth (truth : changeableTypedef table side = none) : denotedType table side = side := by
  rw [denotedType, truth, Option.map_none, Option.getD_none]

theorem denotedType_typedef (named : changeableTypedef table side = some symbol) :
    denotedType table side = table.symbolType symbol := by
  rw [denotedType, named, Option.map_some, Option.getD_some]

/-- The truth of an exclusive comparison is the side that cannot change. -/
theorem oneSided_sides {left : Bool} (sides : oneSided table lhs rhs = some (left, symbol)) :
    changeableTypedef table (if left then lhs else rhs) = none ∧
      changeableTypedef table (if left then rhs else lhs) = some symbol := by
  unfold oneSided at sides
  split at sides
  · rename_i lhsName rhsName lhsNamed rhsNamed
    dsimp only at sides
    split at sides
    · rename_i different
      obtain ⟨found, named, same⟩ := Option.map_eq_some_iff.mp sides
      obtain ⟨rfl, rfl⟩ := Prod.mk.inj same
      cases truth : isSourceOfTruth table lhsName with
      | true =>
        have other : isSourceOfTruth table rhsName = false := by simpa [truth] using different
        simp only [truth, if_true] at named ⊢
        simp [changeableTypedef, lhsNamed, rhsNamed, truth, other, named]
      | false =>
        have other : isSourceOfTruth table rhsName = true := by simpa [truth] using different
        simp only [truth, Bool.false_eq_true, if_false] at named ⊢
        simp [changeableTypedef, lhsNamed, rhsNamed, truth, other, named]
    · cases sides
  · cases sides

theorem bothControlled_sides (sides : bothControlled table lhs rhs = some (lhsSymbol, rhsSymbol)) :
    changeableTypedef table lhs = some lhsSymbol ∧ changeableTypedef table rhs = some rhsSymbol := by
  unfold bothControlled at sides
  split at sides
  · rename_i lhsName rhsName lhsNamed rhsNamed
    split at sides
    · cases sides
    · rename_i neither
      simp only [Bool.or_eq_true, not_or, Bool.not_eq_true] at neither
      split at sides
      · rename_i lhsFound rhsFound
        obtain ⟨rfl, rfl⟩ := Prod.mk.inj (Option.some.inj sides)
        simp [changeableTypedef, lhsNamed, rhsNamed, neither.1, neither.2, lhsFound, rhsFound]
      · cases sides
  · cases sides

/-- Settling a type moves no name, so the sides stay what they are. -/
theorem changeableTypedef_settle {type : QualType} :
    changeableTypedef (table.settle symbol type) side = changeableTypedef table side := rfl

end Reads

/-- The table differs from another one in the types and locks of typedefs only. -/
structure OnlyTypedefsChange (before after : MendingState) : Prop where
  rest : ∃ types symbols, after =
    { before with table := { before.table with typedefTypes := types, typedefSymbols := symbols } }
  typedefTypes : ∀ symbol, after.table.typedefType symbol = before.table.typedefType symbol
  symbolNames : ∀ symbol, after.table.symbolName symbol = before.table.symbolName symbol
  typedefNames : ∀ type, after.table.typedefName type = before.table.typedefName type

/-- What a conversion between two sides has done when it returns. -/
structure ConversionMended (s : MendingState) (lhs rhs : QualType) (t : MendingState) : Prop where
  agree : denotedType t.table lhs = denotedType t.table rhs
  locked : ∀ side symbol, side = lhs ∨ side = rhs → changeableTypedef s.table side = some symbol →
    t.table.isLocked symbol = true
  keepsLocked : ∀ side other symbol otherSymbol, side = lhs ∨ side = rhs → other = lhs ∨ other = rhs →
    changeableTypedef s.table side = some symbol → changeableTypedef s.table other = some otherSymbol →
    s.table.isLocked symbol = true → s.table.isLocked otherSymbol = false →
    t.table.symbolType symbol = s.table.symbolType symbol
  otherTypes : ∀ type, (∀ side symbol, side = lhs ∨ side = rhs → changeableTypedef s.table side = some symbol →
    s.table.typedefType symbol ≠ type) → t.table.aliasedType type = s.table.aliasedType type
  otherLocks : ∀ symbol, (∀ side, side = lhs ∨ side = rhs → changeableTypedef s.table side ≠ some symbol) →
    t.table.isLocked symbol = s.table.isLocked symbol
  frame : OnlyTypedefsChange s t

section Conversions
variable {s t u : MendingState} {lhs rhs type : QualType} {symbol lhsSymbol rhsSymbol : Ref TypedefSymbol}

theorem onlyTypedefsChange_settle : OnlyTypedefsChange s (s.withTable (·.settle symbol type)) :=
  ⟨⟨_, _, rfl⟩, fun _ => MendingTable.typedefType_setLocked, fun _ => MendingTable.symbolName_setLocked,
    fun _ => MendingTable.typedefName_setAliasedType⟩

theorem OnlyTypedefsChange.trans (first : OnlyTypedefsChange s t) (second : OnlyTypedefsChange t u) :
    OnlyTypedefsChange s u := by
  refine ⟨?_, fun symbol => (second.typedefTypes symbol).trans (first.typedefTypes symbol),
    fun symbol => (second.symbolNames symbol).trans (first.symbolNames symbol),
    fun type => (second.typedefNames type).trans (first.typedefNames type)⟩
  obtain ⟨_, _, rfl⟩ := first.rest
  obtain ⟨types, symbols, rfl⟩ := second.rest
  exact ⟨types, symbols, rfl⟩

/-- What a side is when one typedef takes a type: the type itself, that typedef, or a
locked one that has the type already. -/
inductive SettledBy (table : MendingTable) (symbol : Ref TypedefSymbol) (type : QualType) : QualType → Prop where
  | truth : changeableTypedef table type = none → SettledBy table symbol type type
  | changed : changeableTypedef table side = some symbol → SettledBy table symbol type side
  | locked : changeableTypedef table side = some other → table.isLocked other = true →
      table.symbolType other = type → SettledBy table symbol type side

namespace SettledBy
variable {table : MendingTable} {side : QualType} {other : Ref TypedefSymbol}

theorem typedef_cases (settled : SettledBy table symbol type side)
    (named : changeableTypedef table side = some other) :
    other = symbol ∨ table.isLocked other = true ∧ table.symbolType other = type := by
  cases settled with
  | truth stands => cases stands.symm.trans named
  | changed stands => exact .inl (Option.some.inj (named.symm.trans stands))
  | locked stands lock same =>
    obtain rfl := Option.some.inj (named.symm.trans stands)
    exact .inr ⟨lock, same⟩

theorem symbolType_settle (settled : SettledBy table symbol type side)
    (named : changeableTypedef table side = some other) : (table.settle symbol type).symbolType other = type := by
  rw [MendingTable.symbolType_settle]
  split
  · rfl
  · rename_i apart
    rcases settled.typedef_cases named with rfl | ⟨_, same⟩
    · exact absurd rfl apart
    · exact same

theorem isLocked_settle (settled : SettledBy table symbol type side)
    (named : changeableTypedef table side = some other) : (table.settle symbol type).isLocked other = true := by
  rw [MendingTable.isLocked_settle, Bool.or_eq_true, decide_eq_true_eq]
  exact (settled.typedef_cases named).imp_right And.left

theorem denotedType_settle (settled : SettledBy table symbol type side) :
    denotedType (table.settle symbol type) side = type := by
  cases stands : changeableTypedef table side with
  | none =>
    cases settled with
    | truth => exact denotedType_truth (changeableTypedef_settle.trans stands)
    | changed named | locked named => cases stands.symm.trans named
  | some other =>
    rw [denotedType_typedef (changeableTypedef_settle.trans stands), settled.symbolType_settle stands]

end SettledBy

/-- The typedef of one side takes the type that the other side stands for. -/
theorem conversionMended_settle {changed : QualType} (isSide : changed = lhs ∨ changed = rhs)
    (named : changeableTypedef s.table changed = some symbol) (lhsSettled : SettledBy s.table symbol type lhs)
    (rhsSettled : SettledBy s.table symbol type rhs) :
    ConversionMended s lhs rhs (s.withTable (·.settle symbol type)) := by
  have each : ∀ side, side = lhs ∨ side = rhs → SettledBy s.table symbol type side := by
    rintro side (rfl | rfl)
    · exact lhsSettled
    · exact rhsSettled
  constructor
  · exact lhsSettled.denotedType_settle.trans rhsSettled.denotedType_settle.symm
  · intro side other of stands
    exact (each side of).isLocked_settle stands
  · intro side other locked free of otherOf stands otherStands isLocked isFree
    -- The unlocked one is the typedef that changes, so the locked one has the type already.
    have isSymbol : free = symbol := by
      refine ((each other otherOf).typedef_cases otherStands).resolve_right fun known => ?_
      cases isFree.symm.trans known.1
    refine ((each side of).symbolType_settle stands).trans ?_
    rcases (each side of).typedef_cases stands with same | ⟨_, has⟩
    · rw [same, ← isSymbol, isFree] at isLocked
      cases isLocked
    · exact has.symm
  · intro other apart
    change (s.table.settle symbol type).aliasedType other = s.table.aliasedType other
    rw [MendingTable.aliasedType_settle, if_neg (apart changed symbol isSide named).symm]
  · intro other apart
    change (s.table.settle symbol type).isLocked other = s.table.isLocked other
    have different : other ≠ symbol := by
      rintro rfl
      exact apart changed isSide named
    rw [MendingTable.isLocked_settle, decide_eq_false different, Bool.false_or]
  · exact onlyTypedefsChange_settle

/-- Two typedefs that can both change take one type. -/
theorem conversionMended_settleBoth (lhsNamed : changeableTypedef s.table lhs = some lhsSymbol)
    (rhsNamed : changeableTypedef s.table rhs = some rhsSymbol) (lhsFree : s.table.isLocked lhsSymbol = false)
    (rhsFree : s.table.isLocked rhsSymbol = false) : ConversionMended s lhs rhs
      (s.withTable fun table => (table.settle lhsSymbol type).settle rhsSymbol type) := by
  have symbols : ∀ side other, side = lhs ∨ side = rhs → changeableTypedef s.table side = some other →
      other = lhsSymbol ∨ other = rhsSymbol := by
    rintro side other (rfl | rfl) stands
    · exact .inl (Option.some.inj (stands.symm.trans lhsNamed))
    · exact .inr (Option.some.inj (stands.symm.trans rhsNamed))
  have lhsType : ((s.table.settle lhsSymbol type).settle rhsSymbol type).symbolType lhsSymbol = type := by
    rw [MendingTable.symbolType_settle, MendingTable.symbolType_settle, if_pos rfl, ite_self]
  have rhsType : ((s.table.settle lhsSymbol type).settle rhsSymbol type).symbolType rhsSymbol = type := by
    rw [MendingTable.symbolType_settle, if_pos rfl]
  constructor
  · have lhsStands : changeableTypedef ((s.table.settle lhsSymbol type).settle rhsSymbol type) lhs =
        some lhsSymbol := lhsNamed
    have rhsStands : changeableTypedef ((s.table.settle lhsSymbol type).settle rhsSymbol type) rhs =
        some rhsSymbol := rhsNamed
    exact (denotedType_typedef lhsStands).trans (lhsType.trans (rhsType.symm.trans
      (denotedType_typedef rhsStands).symm))
  · intro side other of stands
    change ((s.table.settle lhsSymbol type).settle rhsSymbol type).isLocked other = true
    simp only [MendingTable.isLocked_settle, Bool.or_eq_true, decide_eq_true_eq]
    exact (symbols side other of stands).elim (fun same => .inr (.inl same)) .inl
  · intro side other locked free of otherOf stands otherStands isLocked isFree
    rcases symbols side locked of stands with rfl | rfl
    · rw [isLocked] at lhsFree
      cases lhsFree
    · rw [isLocked] at rhsFree
      cases rhsFree
  · intro other apart
    change ((s.table.settle lhsSymbol type).settle rhsSymbol type).aliasedType other = s.table.aliasedType other
    have pointed : (s.table.settle lhsSymbol type).typedefType rhsSymbol = s.table.typedefType rhsSymbol :=
      MendingTable.typedefType_setLocked
    rw [MendingTable.aliasedType_settle, pointed, if_neg (apart rhs rhsSymbol (.inr rfl) rhsNamed).symm,
      MendingTable.aliasedType_settle, if_neg (apart lhs lhsSymbol (.inl rfl) lhsNamed).symm]
  · intro other apart
    change ((s.table.settle lhsSymbol type).settle rhsSymbol type).isLocked other = s.table.isLocked other
    have notLhs : other ≠ lhsSymbol := by
      rintro rfl
      exact apart lhs (.inl rfl) lhsNamed
    have notRhs : other ≠ rhsSymbol := by
      rintro rfl
      exact apart rhs (.inr rfl) rhsNamed
    rw [MendingTable.isLocked_settle, decide_eq_false notRhs, Bool.false_or, MendingTable.isLocked_settle,
      decide_eq_false notLhs, Bool.false_or]
  · have first : OnlyTypedefsChange s (s.withTable (·.settle lhsSymbol type)) := onlyTypedefsChange_settle
    exact first.trans onlyTypedefsChange_settle

/-- Whatever the two sides are, a conversion that returns leaves them standing for one
type, their typedefs locked, and everything else as it was. -/
theorem adjustConversionTypesHeuristic_agrees {diag : Diagnostic} {result : Unit}
    (returned : adjustConversionTypesHeuristic diag s = .ok result t) :
    ∃ lhs rhs, conversionArgs diag.args = some (lhs, rhs) ∧ ConversionMended s lhs rhs t := by
  obtain ⟨lhs, rhs, args, compared⟩ := adjustConversionTypesHeuristic_compared returned
  refine ⟨lhs, rhs, args, ?_⟩
  cases compared with
  | @oneTruth left symbol type sides written =>
    obtain rfl := Option.some.inj written
    obtain ⟨truth, named⟩ := oneSided_sides sides
    cases left with
    | true => exact conversionMended_settle (.inr rfl) named (.truth truth) (.changed named)
    | false => exact conversionMended_settle (.inl rfl) named (.changed named) (.truth truth)
  | lhsLocked sides lock free written =>
    obtain rfl := Option.some.inj written
    obtain ⟨lhsNamed, rhsNamed⟩ := bothControlled_sides sides
    exact conversionMended_settle (.inr rfl) rhsNamed (.locked lhsNamed lock rfl) (.changed rhsNamed)
  | rhsLocked sides free lock written =>
    obtain rfl := Option.some.inj written
    obtain ⟨lhsNamed, rhsNamed⟩ := bothControlled_sides sides
    exact conversionMended_settle (.inl rfl) lhsNamed (.changed lhsNamed) (.locked rhsNamed lock rfl)
  | bothFree sides lhsFree rhsFree =>
    obtain ⟨lhsNamed, rhsNamed⟩ := bothControlled_sides sides
    exact conversionMended_settleBoth lhsNamed rhsNamed lhsFree rhsFree

/-- An unknown type `T`, and a value of it that an `int` is made from. -/
def typedefT : MendingState := MendingState.structTypedef (.initial .start .empty) "T"

def sideT : QualType := .aliasOf "T" "struct cmender_tag_type_0" (.record "cmender_tag_type_0" .struct)

theorem adjustConversionTypesHeuristic_agrees_int : ∃ t,
    adjustConversionTypesHeuristic (.errorAt 1 "x" .errTypecheckConvertIncompatible
      "initializing 'int' with an expression of incompatible type 'T'"
      [.qualType intUnqualifiedType, .qualType sideT, .sint 0, .uint 0, .sint 0] []) typedefT = .ok () t ∧
    denotedType t.table intUnqualifiedType = denotedType t.table sideT := by
  have returned : adjustConversionTypesHeuristic (.errorAt 1 "x" .errTypecheckConvertIncompatible
      "initializing 'int' with an expression of incompatible type 'T'"
      [.qualType intUnqualifiedType, .qualType sideT, .sint 0, .uint 0, .sint 0] []) typedefT =
        .ok () (typedefT.withTable (·.settle ⟨0⟩ intUnqualifiedType)) := rfl
  obtain ⟨lhs, rhs, args, mended⟩ := adjustConversionTypesHeuristic_agrees returned
  obtain ⟨rfl, rfl⟩ : lhs = intUnqualifiedType ∧ rhs = sideT :=
    Prod.mk.inj (Option.some.inj args).symm
  exact ⟨_, returned, mended.agree⟩

end Conversions

section Names
variable {table : MendingTable} {side : QualType} {name : TypeName}

/-- The name of a tag is spelled in more than one word. -/
theorem tag_ok {text : String} (tagged : TypeName.tag text = .ok name) :
    name.typeName = text ∧ name.kind = .tag ∧ (∃ kind, name.tagKind = some kind) ∧ ' ' ∈ text.toList := by
  unfold TypeName.tag at tagged
  dsimp only at tagged
  split at tagged
  · cases tagged
  · rename_i identifier second
    obtain ⟨kind, _, made⟩ := except_bind_ok.mp tagged
    cases made
    refine ⟨rfl, rfl, ⟨kind, rfl⟩, ?_⟩
    by_contra oneWord
    rw [Text.split_of_notMem oneWord] at second
    cases second

/-- The three kinds of names, all under the spelling of the type. -/
theorem typeName_ok (named : side.typeName = .ok (some name)) :
    name = .typedefAlias side.typeAsString ∨ name = .builtin side.typeAsString ∨
      name.typeName = side.typeAsString ∧ name.kind = .tag ∧ (∃ kind, name.tagKind = some kind) ∧
        ' ' ∈ side.typeAsString.toList := by
  unfold QualType.typeName at named
  split at named
  · cases named
    exact .inl rfl
  · obtain ⟨type, _, named⟩ := except_bind_ok.mp named
    split at named
    · cases named
      exact .inr (.inl rfl)
    · split at named
      · obtain ⟨found, tagged, same⟩ := except_bind_ok.mp named
        cases same
        exact .inr (.inr (tag_ok tagged))
      · cases named

/-- A tag is controlled or not, and that is all there is to it. -/
theorem isUncontrolledTagType_eq (tag : name.kind = .tag) (known : ∃ kind, name.tagKind = some kind) :
    table.isUncontrolledTagType name = !table.isControlledTagType name := by
  obtain ⟨kind, known⟩ := known
  have isTag : name.isTag = true := by rw [TypeName.isTag, tag]; rfl
  simp only [MendingTable.isUncontrolledTagType, MendingTable.isControlledTagType, isTag, known]
  cases kind <;> rfl

/-- Names that are neither a source of truth nor a struct the mender made up lead to a typedef. -/
theorem containsKey_of_changeable (named : side.typeName = .ok (some name))
    (source : table.isControlledAndUnnamedTagType name = false)
    (unnamed : table.isControlledAndNamedTagType name = false) (controlled : table.isUncontrolled name = false) :
    table.typedefs.containsKey name.typeName = true := by
  rcases typeName_ok named with rfl | rfl | ⟨_, tag, kind, _⟩
  · simpa [MendingTable.isUncontrolled, MendingTable.isUncontrolledTypedefAlias, TypeName.typedefAlias,
      TypeName.isBuiltin, TypeName.isTag, TypeName.isTypedefAlias] using controlled
  · cases controlled
  · have notBuiltin : name.isBuiltin = false := by rw [TypeName.isBuiltin, tag]; rfl
    have isTag : name.isTag = true := by rw [TypeName.isTag, tag]; rfl
    simp only [MendingTable.isUncontrolled, notBuiltin, isTag, Bool.false_eq_true, if_false, if_true,
      isUncontrolledTagType_eq tag kind, Bool.not_eq_false'] at controlled
    simp only [MendingTable.isControlledAndUnnamedTagType, controlled, Bool.true_and] at source
    simp only [MendingTable.isControlledAndNamedTagType, controlled, source, Bool.true_and] at unnamed
    cases unnamed

/-- The type names that diagnostics report as unknown are identifiers, which have no blank. -/
def ReportsIdentifiers (diags : List Diagnostic) : Prop :=
  ∀ diag ∈ diags, ∀ name, ownName diag = some (.typedef, name) → ' ' ∉ name.toList

theorem blank_notMem_typedefAliasName (count : Nat) :
    ' ' ∉ (MendingTypeNameGenerator.typedefAliasName count).toList := by
  rw [MendingTypeNameGenerator.typedefAliasName, String.toList_append, List.mem_append]
  rintro (front | back)
  · revert front
    decide
  · exact Text.blank_notMem_toString _ back

variable {includePath : String} {names : MendingTypeNameGenerator} {files : FileSystem}
  {diags : List Diagnostic} {s : MendingState}

/-- So no run registers a typedef under the spelling of a tag. -/
theorem blank_notMem_typedef (run : Reaches (Step includePath) (.initial names files) diags s)
    (identifiers : ReportsIdentifiers diags) {key : String} (registered : s.table.typedefs.containsKey key = true) :
    ' ' ∉ key.toList := by
  have declared : s.table.declares key .typedef = true := registered
  rcases ((declaredByRun run).names key .typedef).mp declared with initial | ⟨diag, member, own⟩ | ⟨_, count, _, _, rfl⟩
  · cases initial
  · exact identifiers diag member key own
  · exact blank_notMem_typedefAliasName count

/-- In every state that handlers reach, a side that is no source of truth is registered
among the typedefs unless it is a struct the mender made up; those never are. -/
theorem changeable_registered (run : Reaches (Step includePath) (.initial names files) diags s)
    (named : side.typeName = .ok (some name)) :
    (s.table.isControlledAndUnnamedTagType name = false →
      s.table.isControlledAndNamedTagType name = false → s.table.isUncontrolled name = false →
        s.table.typedefs.containsKey name.typeName = true) ∧
    (ReportsIdentifiers diags →
      (s.table.isControlledAndNamedTagType name = false → s.table.isUncontrolled name = false →
        s.table.typedefs.containsKey name.typeName = true) →
      s.table.isControlledAndUnnamedTagType name = false) := by
  refine ⟨containsKey_of_changeable named, fun identifiers registered => ?_⟩
  by_contra unnamed
  obtain ⟨controlled, generated⟩ := Bool.and_eq_true_iff.mp (Bool.not_eq_false _ ▸ unnamed)
  rcases typeName_ok named with rfl | rfl | ⟨spelled, tag, kind, blank⟩
  · cases controlled
  · cases controlled
  · have notBuiltin : name.isBuiltin = false := by rw [TypeName.isBuiltin, tag]; rfl
    have isTag : name.isTag = true := by rw [TypeName.isTag, tag]; rfl
    have key := registered (by simp [MendingTable.isControlledAndNamedTagType, generated])
      (by simp [MendingTable.isUncontrolled, notBuiltin, isTag, isUncontrolledTagType_eq tag kind, controlled])
    exact blank_notMem_typedef run identifiers key (spelled ▸ blank)

theorem changeable_registered_unknownT : ∃ s, mended [unknownType 1 "T"] = some s ∧
    s.table.typedefs.containsKey "T" = true := by
  obtain ⟨s, ran⟩ : ∃ s, mended [unknownType 1 "T"] = some s := Option.isSome_iff_exists.mp (by decide +kernel)
  have facts : ∀ s ∈ mended [unknownType 1 "T"], s.table.isControlledAndUnnamedTagType (.typedefAlias "T") = false ∧
      s.table.isControlledAndNamedTagType (.typedefAlias "T") = false ∧
      s.table.isUncontrolled (.typedefAlias "T") = false := by decide +kernel
  obtain ⟨source, unnamed, controlled⟩ := facts s ran
  have named : sideT.typeName = .ok (some (.typedefAlias "T")) := rfl
  exact ⟨s, ran, (changeable_registered (mended_iff.mp ran) named).1 source unnamed controlled⟩

/-- The struct made up for an undeclared variable. -/
def madeUpName : TypeName :=
  ⟨"cmender_tag_type_0", "struct cmender_tag_type_0", .tag, some .struct⟩

/-- An `int` made from a value of that struct: neither side can be looked up. -/
def convertMadeUp : Diagnostic :=
  .errorAt 2 "i" .errTypecheckConvertIncompatible
    "initializing 'int' with an expression of incompatible type 'struct cmender_tag_type_0'"
    [.qualType intUnqualifiedType, .qualType (structType "cmender_tag_type_0"), .sint 0, .uint 0, .sint 0] []

theorem made_up_struct_not_registered : ∃ s, mended [undeclaredVariable 1 "x"] = some s ∧
    (structType "cmender_tag_type_0").typeName = .ok (some madeUpName) ∧
    s.table.isControlledAndNamedTagType madeUpName = false ∧ s.table.isUncontrolled madeUpName = false ∧
    s.table.typedefs.containsKey madeUpName.typeName = false ∧
    adjustConversionTypesHeuristic convertMadeUp s = .error .nullPointer s :=
  ⟨_, rfl, by decide +kernel, by decide +kernel, by decide +kernel, by decide +kernel, rfl⟩

end Names
end CMender
