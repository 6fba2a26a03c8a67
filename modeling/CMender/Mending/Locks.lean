import CMender.Mending.WellFormed

/-! Locks. A locked typedef keeps its type as long as no handler writes it
without asking: the handlers that compare two controlled typedefs test the lock,
the others write whatever typedef they are led to. -/
namespace CMender
open Foundations Foundations.Execution MendingState

/-- The typedef type a handler writes without testing a lock. The type written
is one the diagnostic or the code prescribes, or, when none is given here, a
pointer around the type that was there. -/
def uncheckedWrite (s : MendingState) (diag : Diagnostic) : Option (Ref TypedefType × Option QualType) :=
  match diag.diagnosticID with
  | .errTypecheckConvertIncompatible => do
    let (lhs, rhs) ← conversionArgs diag.args
    let (left, symbol) ← oneSided s.table lhs rhs
    return (s.table.typedefType symbol, some (if left then lhs else rhs))
  | .errTypecheckInvalidOperands => do
    let (lhs, rhs) ← operandArgs diag.args
    let op ← (operatorText diag).toOption
    let (left, symbol) ← oneSided s.table lhs rhs
    let type ← operandType (if left then lhs else rhs) op left
    return (s.table.typedefType symbol, some type)
  | .errTypecheckMemberReferenceSuggestion => do
    let (type, integer) ← typeAndIntArgs diag.args
    let symbol ← s.table.typedefs.lookup type.typeAsString
    if integer = 1 then return (s.table.typedefType symbol, none) else none
  | .errTypecheckSubscriptValue => do
    let (base, _) ← subscriptTexts diag
    match s.table.arraySubscriptToCorrespondingSymbol.lookup base with
    | some symbol => symbol.subscriptedType.map (·, none)
    | none =>
      let symbol ← s.table.variables.lookup (← matchIdentifier base)
      return (symbol.type, none)
  | .errTypecheckSubscriptNotInteger => do
    let range ← diag.sourceRanges.head?
    let symbol ← s.table.variables.lookup range.encompassingCode
    return (symbol.type, some unsignedIntType)
  | _ =>
    match plainTarget diag, voidArgument diag with
    | some type, _ => (s.table.typedefs.lookup type.typeAsString).map fun symbol =>
        (s.table.typedefType symbol, some intUnqualifiedType)
    | none, some type => (s.table.typedefs.lookup type.typeAsString).map fun symbol =>
        (s.table.typedefType symbol, some (structType s.nextTag))
    | none, none => none

/-- A locked typedef is written unchecked only with the type it has already. -/
def WritesUnlocked (s : MendingState) (diag : Diagnostic) : Prop :=
  ∀ type given, uncheckedWrite s diag = some (type, given) →
    ∀ symbol, s.table.typedefSymbols.Allocated symbol → s.table.isLocked symbol = true →
      s.table.typedefType symbol = type → given = some (s.table.aliasedType type)

namespace MendingTable

/-- The locked typedefs of a table have the same type in a later one. -/
def KeepsLocked (before after : MendingTable) : Prop :=
  ∀ symbol, before.typedefSymbols.Allocated symbol → before.isLocked symbol = true →
    after.symbolType symbol = before.symbolType symbol

/-- A later table differs, for the symbols and types there were, in one type at most. -/
structure WritesType (before after : MendingTable) (type : Ref TypedefType) (written : QualType) : Prop where
  symbols : ∀ symbol, before.typedefSymbols.Allocated symbol →
    after.typedefType symbol = before.typedefType symbol
  types : ∀ other, before.typedefTypes.Allocated other →
    after.aliasedType other = if other = type then written else before.aliasedType other

section Writes
variable {table before after : MendingTable} {type : Ref TypedefType} {written : QualType}
  {symbol other : Ref TypedefSymbol}

theorem writesType_setAliasedType : table.WritesType (table.setAliasedType type written) type written :=
  ⟨fun _ _ => rfl, fun _ _ => aliasedType_setAliasedType⟩

theorem writesType_settle :
    table.WritesType (table.settle symbol written) (table.typedefType symbol) written :=
  ⟨fun _ _ => typedefType_setLocked, fun _ _ => aliasedType_setAliasedType⟩

/-- A new typedef is none of those there were. -/
theorem writesType_createTypedef {name : String} {qualType : QualType} {permittedTypes : List TypeKind} :
    table.WritesType ((table.createTypedef name qualType permittedTypes).setAliasedType type written)
      type written := by
  constructor
  · intro symbol allocated
    change (table.createTypedef name qualType permittedTypes).typedefType symbol = _
    exact typedefType_createTypedef_of_allocated allocated
  · intro other allocated
    rw [aliasedType_setAliasedType, aliasedType_createTypedef_of_allocated allocated]

theorem WritesType.putControlledArraySubscriptMapping (writes : before.WritesType after type written)
    {code : String} {subscripted : Symbol} :
    before.WritesType (after.putControlledArraySubscriptMapping code subscripted) type written :=
  ⟨writes.symbols, writes.types⟩

theorem WritesType.keepsLocked_iff (formed : before.WellFormed)
    (writes : before.WritesType after type written) : before.KeepsLocked after ↔
      ∀ symbol, before.typedefSymbols.Allocated symbol → before.isLocked symbol = true →
        before.typedefType symbol = type → written = before.aliasedType type := by
  have read {symbol} (allocated : before.typedefSymbols.Allocated symbol) :
      after.symbolType symbol = if before.typedefType symbol = type then written
        else before.symbolType symbol := by
    rw [symbolType, writes.symbols symbol allocated, writes.types _ (formed.types symbol allocated).1]
    rfl
  constructor
  · intro kept symbol allocated locked same
    have unchanged := kept symbol allocated locked
    rwa [read allocated, if_pos same, symbolType, same] at unchanged
  · intro harmless symbol allocated locked
    rw [read allocated]
    split
    · rename_i same
      rw [harmless symbol allocated locked same, symbolType, same]
    · rfl

theorem symbolType_settle_of_ne (formed : table.WellFormed) (allocated : table.typedefSymbols.Allocated other)
    (known : table.typedefSymbols.Allocated symbol) (different : other ≠ symbol) :
    (table.settle symbol written).symbolType other = table.symbolType other := by
  have apart : table.typedefType other ≠ table.typedefType symbol :=
    fun same => different (formed.owned other symbol allocated known same)
  rw [symbolType, writesType_settle.symbols other allocated,
    writesType_settle.types _ (formed.types other allocated).1, if_neg apart]
  rfl

theorem ne_of_locked (locked : table.isLocked other = true) (free : table.isLocked symbol = false) :
    other ≠ symbol := by
  rintro rfl
  rw [locked] at free
  cases free

theorem keepsLocked_settle (formed : table.WellFormed) (known : table.typedefSymbols.Allocated symbol)
    (free : table.isLocked symbol = false) : table.KeepsLocked (table.settle symbol written) :=
  fun _ allocated locked => symbolType_settle_of_ne formed allocated known (ne_of_locked locked free)

end Writes

theorem bothControlled_registered {table : MendingTable} {lhs rhs : QualType} {a b : Ref TypedefSymbol}
    (sides : bothControlled table lhs rhs = some (a, b)) :
    (∃ name, table.typedefs.lookup name = some a) ∧ ∃ name, table.typedefs.lookup name = some b := by
  unfold bothControlled at sides
  split at sides
  · split at sides
    · cases sides
    · split at sides
      · rename_i lhsFound rhsFound
        cases sides
        obtain ⟨lhsName, _, lhsFound⟩ := Option.bind_eq_some_iff.mp lhsFound
        obtain ⟨rhsName, _, rhsFound⟩ := Option.bind_eq_some_iff.mp rhsFound
        exact ⟨⟨_, lhsFound⟩, ⟨_, rhsFound⟩⟩
      · cases sides
  · cases sides

theorem bothControlled_of_either {table : MendingTable} {lhs rhs : QualType} {a b : Ref TypedefSymbol}
    (sides : bothControlled table lhs rhs = some (a, b) ∨ bothControlled table lhs rhs = some (b, a)) :
    ∃ symbols, bothControlled table lhs rhs = some symbols := by
  rcases sides with sides | sides
  · exact ⟨_, sides⟩
  · exact ⟨_, sides⟩

theorem bothControlled_registered_either {table : MendingTable} {lhs rhs : QualType} {a b : Ref TypedefSymbol}
    (sides : bothControlled table lhs rhs = some (a, b) ∨ bothControlled table lhs rhs = some (b, a)) :
    (∃ name, table.typedefs.lookup name = some a) ∧ ∃ name, table.typedefs.lookup name = some b := by
  rcases sides with sides | sides
  · exact bothControlled_registered sides
  · exact (bothControlled_registered sides).symm

theorem oneSided_registered {table : MendingTable} {lhs rhs : QualType} {left : Bool}
    {symbol : Ref TypedefSymbol} (sides : oneSided table lhs rhs = some (left, symbol)) :
    ∃ name, table.typedefs.lookup name = some symbol := by
  unfold oneSided at sides
  split at sides
  · dsimp only at sides
    split at sides
    · obtain ⟨found, named, same⟩ := Option.map_eq_some_iff.mp sides
      cases same
      obtain ⟨typeName, _, registered⟩ := Option.bind_eq_some_iff.mp named
      exact ⟨_, registered⟩
    · cases sides
  · cases sides

/-- Two sides that can both change are not one side that cannot. -/
theorem oneSided_of_bothControlled {table : MendingTable} {lhs rhs : QualType}
    {symbols : Ref TypedefSymbol × Ref TypedefSymbol} (sides : bothControlled table lhs rhs = some symbols) :
    oneSided table lhs rhs = none := by
  unfold bothControlled at sides
  unfold oneSided
  split at sides
  · split at sides
    · cases sides
    · rename_i neither
      simp only [Bool.or_eq_true, not_or, Bool.not_eq_true] at neither
      simp [neither.1, neither.2]
  · cases sides

end MendingTable

section Pointers
variable {qualType : QualType} {name canonical : String}

/-- No type is a pointer to itself. -/
theorem type_ne_pointer {inner : QualType} (pointer : qualType.type = some (.pointer inner)) :
    inner.type ≠ qualType.type := by
  intro same
  have sizes := congrArg sizeOf (same.trans pointer)
  cases inner
  simp at sizes
  omega

theorem memberPointerType_ne : memberPointerType name canonical qualType ≠ qualType := by
  intro same
  exact type_ne_pointer (congrArg QualType.type same).symm rfl

theorem pointerTo_ne : qualType.pointerTo ≠ qualType := by
  intro same
  exact type_ne_pointer (congrArg QualType.type same).symm rfl

theorem aliasPointerType_ne : aliasPointerType name qualType ≠ qualType := by
  intro same
  exact type_ne_pointer (congrArg QualType.type same).symm rfl

end Pointers

section Steps
open MendingTable
variable {s t : MendingState} {diag : Diagnostic} {type : Ref TypedefType} {given : Option QualType}
  {written : QualType}

theorem keepsLocked_iff_of_write (formed : s.table.WellFormed)
    (unchecked : uncheckedWrite s diag = some (type, given))
    (writes : s.table.WritesType t.table type written)
    (prescribed : given = some written ∨ given = none ∧ written ≠ s.table.aliasedType type) :
    s.table.KeepsLocked t.table ↔ WritesUnlocked s diag := by
  rw [writes.keepsLocked_iff formed]
  constructor
  · intro harmless other otherGiven found symbol allocated locked same
    cases unchecked.symm.trans found
    have unchanged := harmless symbol allocated locked same
    rcases prescribed with rfl | ⟨rfl, different⟩
    · rw [unchanged]
    · exact absurd unchanged different
  · intro unlocked symbol allocated locked same
    have unchanged := unlocked type given unchecked symbol allocated locked same
    rcases prescribed with rfl | ⟨rfl, different⟩
    · exact Option.some.inj unchanged
    · cases unchanged

theorem keepsLocked_iff_of_none (unchecked : uncheckedWrite s diag = none)
    (kept : s.table.KeepsLocked t.table) : s.table.KeepsLocked t.table ↔ WritesUnlocked s diag := by
  refine iff_of_true kept fun type given found => ?_
  rw [unchecked] at found
  cases found

theorem uncheckedWrite_plain {target : QualType} {symbol : Ref TypedefSymbol}
    (plain : plainTarget diag = some target)
    (found : s.table.typedefs.lookup target.typeAsString = some symbol) :
    uncheckedWrite s diag = some (s.table.typedefType symbol, some intUnqualifiedType) := by
  cases known : diag.diagnosticID with
  | errTypecheckIllegalIncrementDecrement | errCallIncompleteArgument | errArraySizeNonInt =>
    simp only [uncheckedWrite, known, plain, found, Option.map_some]
  | _ => simp [plainTarget, known] at plain

theorem uncheckedWrite_void {target : QualType} {symbol : Ref TypedefSymbol}
    (void : voidArgument diag = some target)
    (found : s.table.typedefs.lookup target.typeAsString = some symbol) :
    uncheckedWrite s diag = some (s.table.typedefType symbol, some (structType s.nextTag)) := by
  have known : diag.diagnosticID = .errCallIncompleteArgument := by
    cases known : diag.diagnosticID <;> simp_all [voidArgument]
  simp only [uncheckedWrite, known, plainTarget_of_void void, void, found, Option.map_some]

theorem uncheckedWrite_declares (id : declaresVariable diag.diagnosticID = true ∨
    declaresTypedef diag.diagnosticID = true ∨ definesTag diag.diagnosticID = true) :
    uncheckedWrite s diag = none := by
  cases known : diag.diagnosticID <;>
    simp_all [declaresVariable, declaresTypedef, definesTag, uncheckedWrite, plainTarget, voidArgument]

/-- Where both sides can change, the lock is tested. -/
theorem uncheckedWrite_bothControlled {lhs rhs : QualType} {symbols : Ref TypedefSymbol × Ref TypedefSymbol}
    (args : comparedTypes diag = some (lhs, rhs)) (sides : bothControlled s.table lhs rhs = some symbols) :
    uncheckedWrite s diag = none := by
  have notOne := oneSided_of_bothControlled sides
  cases known : diag.diagnosticID with
  | errTypecheckConvertIncompatible =>
    have args : conversionArgs diag.args = some (lhs, rhs) := by simpa only [comparedTypes, known] using args
    simp [uncheckedWrite, known, args, notOne]
  | errTypecheckInvalidOperands =>
    have args : operandArgs diag.args = some (lhs, rhs) := by simpa only [comparedTypes, known] using args
    simp [uncheckedWrite, known, args, notOne]
  | _ => simp [comparedTypes, known] at args

theorem uncheckedWrite_subscript {base sub : String} (texts : subscriptTexts diag = some (base, sub)) :
    uncheckedWrite s diag =
      match s.table.arraySubscriptToCorrespondingSymbol.lookup base with
      | some symbol => symbol.subscriptedType.map (·, none)
      | none => do
        let symbol ← s.table.variables.lookup (← matchIdentifier base)
        return (symbol.type, none) := by
  have known : diag.diagnosticID = .errTypecheckSubscriptValue := by
    cases known : diag.diagnosticID <;> simp_all [subscriptTexts]
  simp only [uncheckedWrite, known, texts]
  rfl

theorem keepsLocked_createTypedef {table : MendingTable} (formed : table.WellFormed) {name : String}
    {qualType : QualType} {permittedTypes : List TypeKind} :
    table.KeepsLocked (table.createTypedef name qualType permittedTypes) :=
  fun _ allocated _ => formed.symbolType_createTypedef allocated

/-- A handler keeps the types of locked typedefs exactly when its unchecked
write, if it makes one, changes none of them. -/
theorem Effect.keepsLocked_iff (formed : s.table.WellFormed) (effect : Effect s diag t) :
    s.table.KeepsLocked t.table ↔ WritesUnlocked s diag := by
  have known {name symbol} (found : s.table.typedefs.lookup name = some symbol) :
      s.table.typedefSymbols.Allocated symbol := (formed.typedefs name symbol found).1
  cases effect with
  | idle id =>
    exact keepsLocked_iff_of_none (by simp [uncheckedWrite, id, plainTarget, voidArgument]) fun _ _ _ => rfl
  | header id =>
    exact keepsLocked_iff_of_none (by simp [uncheckedWrite, id, plainTarget, voidArgument]) fun _ _ _ => rfl
  | declareFunction id _ =>
    exact keepsLocked_iff_of_none (by simp [uncheckedWrite, id, plainTarget, voidArgument])
      (keepsLocked_createTypedef formed)
  | declareVariable id _ =>
    exact keepsLocked_iff_of_none (uncheckedWrite_declares (.inl id)) (keepsLocked_createTypedef formed.createRecord)
  | declareTypedef id _ =>
    exact keepsLocked_iff_of_none (uncheckedWrite_declares (.inr (.inl id)))
      (keepsLocked_createTypedef formed.createRecord)
  | addMember id _ found =>
    exact keepsLocked_iff_of_none (by simp [uncheckedWrite, id, plainTarget, voidArgument])
      (keepsLocked_createTypedef formed.createRecord)
  | defineRecord id args tag =>
    exact keepsLocked_iff_of_none (uncheckedWrite_declares (.inr (.inr id))) fun _ _ _ => rfl
  | defineEnum id args tag =>
    exact keepsLocked_iff_of_none (uncheckedWrite_declares (.inr (.inr id))) fun _ _ _ => rfl
  | convert id args sides =>
    exact keepsLocked_iff_of_write formed (by simp [uncheckedWrite, id, args, sides]) writesType_settle (.inl rfl)
  | convertToLocked id args sides lock free =>
    obtain ⟨_, _, found⟩ := bothControlled_registered_either sides
    obtain ⟨_, both⟩ := bothControlled_of_either sides
    exact keepsLocked_iff_of_none
      (uncheckedWrite_bothControlled (by simpa only [comparedTypes, id] using args) both)
      (keepsLocked_settle formed (known found) free)
  | adjustOperand id args operator sides written =>
    exact keepsLocked_iff_of_write formed
      (by simp [uncheckedWrite, id, args, operator, sides, written, Except.toOption]) writesType_settle (.inl rfl)
  | adjustToLocked id args operator sides lock free written =>
    obtain ⟨_, _, found⟩ := bothControlled_registered_either sides
    obtain ⟨_, both⟩ := bothControlled_of_either sides
    exact keepsLocked_iff_of_none
      (uncheckedWrite_bothControlled (by simpa only [comparedTypes, id] using args) both)
      (keepsLocked_settle formed (known found) free)
  | settleBoth args sides lhsFree rhsFree =>
    refine keepsLocked_iff_of_none (uncheckedWrite_bothControlled args sides) fun symbol allocated locked => ?_
    obtain ⟨⟨_, lhsFound⟩, _, rhsFound⟩ := bothControlled_registered sides
    exact (symbolType_settle_of_ne formed.settle allocated (known rhsFound) (ne_of_locked locked rhsFree)).trans
      (symbolType_settle_of_ne formed allocated (known lhsFound) (ne_of_locked locked lhsFree))
  | keepMember id args other =>
    exact keepsLocked_iff_of_none (by simp [uncheckedWrite, id, args, other]) fun _ _ _ => rfl
  | pointMember id args found =>
    exact keepsLocked_iff_of_write formed (by simp [uncheckedWrite, id, args, found]) writesType_settle
      (.inr ⟨rfl, memberPointerType_ne⟩)
  | subscript texts mapped typed =>
    have unchecked := uncheckedWrite_subscript (s := s) texts
    simp only [mapped, typed, Option.map_some] at unchecked
    exact keepsLocked_iff_of_write formed unchecked
      writesType_setAliasedType.putControlledArraySubscriptMapping (.inr ⟨rfl, pointerTo_ne⟩)
  | subscriptVariable texts unmapped identifier found =>
    have unchecked := uncheckedWrite_subscript (s := s) texts
    simp only [unmapped, identifier, found, Option.bind_eq_bind, Option.bind_some, Option.pure_def] at unchecked
    exact keepsLocked_iff_of_write formed unchecked
      writesType_createTypedef.putControlledArraySubscriptMapping (.inr ⟨rfl, aliasPointerType_ne⟩)
  | convertSubscript id marked found =>
    exact keepsLocked_iff_of_write formed (by simp [uncheckedWrite, id, marked, found])
      writesType_setAliasedType (.inl rfl)
  | overwrite target found =>
    exact keepsLocked_iff_of_write formed (uncheckedWrite_plain target found) writesType_setAliasedType (.inl rfl)
  | structArgument target found =>
    exact keepsLocked_iff_of_write formed (uncheckedWrite_void target found)
      ⟨fun _ _ => rfl, fun _ _ => aliasedType_setAliasedType⟩ (.inl rfl)

/-- After every run of handlers, a diagnostic whose handler returns keeps the
types of all locked typedefs exactly when the typedef it writes without testing
the lock, if any, is not locked or has the type to be written already. -/
theorem locked_typedefs_kept_iff (includePath : String) (names : MendingTypeNameGenerator)
    (files : FileSystem) (diags : List Diagnostic) (s t : MendingState) (diag : Diagnostic)
    (reached : Reaches (Step includePath) (.initial names files) diags s)
    (returned : Step includePath s diag t) :
    s.table.KeepsLocked t.table ↔ WritesUnlocked s diag :=
  Effect.keepsLocked_iff (s := s.recorded diag) (wellFormed_of_reaches reached).recorded returned.effect

end Steps

section Assignments

/-- `x = 1;` for an undeclared `x`: it gets a struct type first, and then the type
of the constant, for good. -/
def intAssignment : List Diagnostic :=
  [undeclaredVariable 1 "x",
    .errorAt 1 "=" .errTypecheckConvertIncompatible "assigning from incompatible type 'int'"
      [.qualType (.aliasOf "cmender_type_alias_0" "struct cmender_tag_type_0"
        (.record "cmender_tag_type_0" .struct)),
       .qualType intUnqualifiedType, .sint 0, .uint 0, .sint 0] []]

/-- `x = p;` for a `struct point p` that the source declares itself. -/
def structAssignment : Diagnostic :=
  .errorAt 2 "=" .errTypecheckConvertIncompatible "assigning from incompatible type 'struct point'"
    [.qualType (.aliasOf "cmender_type_alias_0" "int" (.builtin .int "int")),
     .qualType (structType "point"), .sint 0, .uint 0, .sint 0] []

theorem locked_typedefs_kept_by_declaration : ∃ s t, mended intAssignment = some s ∧
    Step "/includes" s (undeclaredVariable 2 "y") t ∧ s.table.isLocked ⟨0⟩ = true ∧ s.table.KeepsLocked t.table := by
  obtain ⟨t, ran⟩ : ∃ t, mended (intAssignment ++ [undeclaredVariable 2 "y"]) = some t :=
    Option.isSome_iff_exists.mp (by decide +kernel)
  obtain ⟨s, before, step⟩ := mended_snoc.mp ran
  have locked : ∀ s ∈ mended intAssignment, s.table.isLocked ⟨0⟩ = true := by decide +kernel
  refine ⟨s, t, before, step, locked s before, ?_⟩
  refine (locked_typedefs_kept_iff "/includes" .start .empty intAssignment s t (undeclaredVariable 2 "y")
    (mended_iff.mp before) step).mpr fun type given found => ?_
  cases found

/-- The second assignment overwrites the type the first one locked. -/
theorem second_assignment_overwrites_locked : ∃ s t, mended intAssignment = some s ∧
    Step "/includes" s structAssignment t ∧
    s.table.typedefs.lookup "cmender_type_alias_0" = some ⟨0⟩ ∧ s.table.isLocked ⟨0⟩ = true ∧
    (s.table.symbolType ⟨0⟩).typeAsString = "int" ∧
    (t.table.symbolType ⟨0⟩).typeAsString = "struct point" ∧ ¬ s.table.KeepsLocked t.table := by
  obtain ⟨t, ran⟩ : ∃ t, mended (intAssignment ++ [structAssignment]) = some t :=
    Option.isSome_iff_exists.mp (by decide +kernel)
  obtain ⟨s, before, step⟩ := mended_snoc.mp ran
  have first : ∀ s ∈ mended intAssignment, s.table.typedefSymbols.Allocated ⟨0⟩ ∧
      s.table.typedefs.lookup "cmender_type_alias_0" = some ⟨0⟩ ∧ s.table.isLocked ⟨0⟩ = true ∧
      (s.table.symbolType ⟨0⟩).typeAsString = "int" := by decide +kernel
  have second : ∀ t ∈ mended (intAssignment ++ [structAssignment]),
      (t.table.symbolType ⟨0⟩).typeAsString = "struct point" := by decide +kernel
  obtain ⟨allocated, registered, locked, int⟩ := first s before
  refine ⟨s, t, before, step, registered, locked, int, second t ran, fun kept => ?_⟩
  have same := second t ran
  rw [kept ⟨0⟩ allocated locked, int] at same
  revert same
  decide

end Assignments
end CMender
