import CMender.Lang.Operators
import CMender.Mending.Sides

/-! What the operand handler makes of a binary operation, measured by the rules of C.
It writes `int` or `int *` next to an operand that cannot change, whatever that
operand is exactly; and it gives up on some operations that a type would make valid. -/
namespace CMender
open Foundations MendingState

section Texts
variable (op : BinaryOperator)

theorem isComparison_text : isComparison op.text = true ↔ ∃ comparison, op = .comparing comparison := by
  cases op with
  | computing op => cases op <;> simp [isComparison, BinaryOperator.text, ComputingOperator.text]
  | assigning op => cases op <;> simp [isComparison, BinaryOperator.text, ComputingOperator.text]
  | comparing op => cases op <;> simp [isComparison, BinaryOperator.text, Comparison.text]
  | logicalAnd | logicalOr => simp [isComparison, BinaryOperator.text]

theorem isBinarySum_text : isBinarySum op.text = true ↔ op = .computing .add := by
  cases op with
  | computing op => cases op <;> simp [isBinarySum, BinaryOperator.text, ComputingOperator.text]
  | assigning op => cases op <;> simp [isBinarySum, BinaryOperator.text, ComputingOperator.text]
  | comparing op => cases op <;> simp [isBinarySum, BinaryOperator.text, Comparison.text]
  | logicalAnd | logicalOr => simp [isBinarySum, BinaryOperator.text]

theorem isBinarySub_text : isBinarySub op.text = true ↔ op = .computing .sub := by
  cases op with
  | computing op => cases op <;> simp [isBinarySub, BinaryOperator.text, ComputingOperator.text]
  | assigning op => cases op <;> simp [isBinarySub, BinaryOperator.text, ComputingOperator.text]
  | comparing op => cases op <;> simp [isBinarySub, BinaryOperator.text, Comparison.text]
  | logicalAnd | logicalOr => simp [isBinarySub, BinaryOperator.text]

end Texts

section Soundness
variable (enumKind : String → BuiltinKind)

/-- An operand next to which `int`, or `int *`, is right: a number of the kind the operator
takes, or a pointer. A pointer that is subtracted points to `int`. -/
def SuitsReplacement (op : BinaryOperator) (type : LangType) : Prop :=
  match type.pointee? with
  | some pointee => op = .computing .sub → QualType.SamePointee enumKind intUnqualifiedType pointee
  | none => type.isArithmetic = true ∧ (op.onIntegers = true → type.isInteger = true)

/-- The operand that decides about the other one: a source of truth, or a locked typedef.
Two typedefs that share the object of their type change together. -/
def authoritativeType (table : MendingTable) (lhs rhs : QualType) : Option QualType :=
  match changeableTypedef table lhs, changeableTypedef table rhs with
  | none, none => none
  | none, some _ => some lhs
  | some _, none => some rhs
  | some lhsSymbol, some rhsSymbol =>
    if table.typedefType lhsSymbol = table.typedefType rhsSymbol then none
    else if table.isLocked lhsSymbol then some (table.symbolType lhsSymbol)
    else if table.isLocked rhsSymbol then some (table.symbolType rhsSymbol)
    else none

variable {enumKind} {op : BinaryOperator} {truth type : QualType} {structural : LangType} {left : Bool}

/-- What is written next to a pointer, by operator. -/
theorem operandType_pointer {pointee : QualType} (of : truth.type = some structural)
    (pointer : structural.pointee? = some pointee) (written : operandType truth op.text left = some type) :
    (∃ comparison, op = .comparing comparison) ∧ type = intPointerType ∨
      op = .computing .add ∧ type = intUnqualifiedType ∨
      (op = .computing .sub ∧ left = false) ∧ type = intPointerType := by
  have address : (structural.isPointerType || structural.isArrayType) = true := by
    cases structural with
    | pointer | array => rfl
    | builtin | record | enum | function => cases pointer
  rw [operandType, of, Option.bind_some, if_pos address] at written
  split at written
  · rename_i comparison
    exact .inl ⟨(isComparison_text op).mp comparison, (Option.some.inj written).symm⟩
  · split at written
    · rename_i sum
      exact .inr (.inl ⟨(isBinarySum_text op).mp sum, (Option.some.inj written).symm⟩)
    · split at written
      · rename_i difference
        simp only [Bool.and_eq_true, Bool.not_eq_true'] at difference
        exact .inr (.inr ⟨⟨(isBinarySub_text op).mp difference.1, difference.2⟩, (Option.some.inj written).symm⟩)
      · cases written

/-- What is written next to anything else is `int`. -/
theorem operandType_number (of : truth.type = some structural) (noPointer : structural.pointee? = none)
    (written : operandType truth op.text left = some type) :
    type = intUnqualifiedType ∧ structural.isAddress = false := by
  rw [operandType, of, Option.bind_some] at written
  cases structural with
  | pointer | array => cases noPointer
  | builtin | enum => exact ⟨(Option.some.inj written).symm, rfl⟩
  | record | function => cases written

theorem admitsOperands_iff {lhs rhs : QualType} {lhsType rhsType : LangType} (left : lhs.type = some lhsType)
    (right : rhs.type = some rhsType) :
    op.AdmitsOperands enumKind lhs rhs ↔ op.Admits enumKind lhsType rhsType := by
  constructor
  · rintro ⟨_, _, lhsIs, rhsIs, admits⟩
    obtain rfl := Option.some.inj (left.symm.trans lhsIs)
    obtain rfl := Option.some.inj (right.symm.trans rhsIs)
    exact admits
  · exact fun admits => ⟨_, _, left, right, admits⟩

theorem admits_int_int : op.AdmitsOperands enumKind intUnqualifiedType intUnqualifiedType :=
  (admitsOperands_iff rfl rfl).mpr (.integers rfl rfl)

theorem samePointee_int : QualType.SamePointee enumKind intUnqualifiedType intUnqualifiedType :=
  ⟨_, _, rfl, rfl, .builtin⟩

/-- Next to the operand it was chosen for, the written type is right exactly when the
operand suits it. -/
theorem admits_written (of : truth.type = some structural)
    (written : operandType truth op.text left = some type) :
    op.AdmitsOperands enumKind (if left then truth else type) (if left then type else truth) ↔
      SuitsReplacement enumKind op structural := by
  rw [SuitsReplacement]
  cases pointer : structural.pointee? with
  | none =>
    obtain ⟨rfl, noAddress⟩ := operandType_number of pointer written
    cases left with
    | true =>
      exact ((admitsOperands_iff of rfl).trans (BinaryOperator.admits_numbers noAddress rfl)).trans
        ⟨fun numbers => ⟨numbers.1.1, fun integers => (numbers.2 integers).1⟩,
          fun suits => ⟨⟨suits.1, rfl⟩, fun integers => ⟨suits.2 integers, rfl⟩⟩⟩
    | false =>
      exact ((admitsOperands_iff rfl of).trans (BinaryOperator.admits_numbers rfl noAddress)).trans
        ⟨fun numbers => ⟨numbers.1.2, fun integers => (numbers.2 integers).2⟩,
          fun suits => ⟨⟨rfl, suits.1⟩, fun integers => ⟨rfl, suits.2 integers⟩⟩⟩
  | some pointee =>
    have points : structural.pointee?.isSome = true := Option.isSome_of_mem pointer
    have address : structural.isAddress = true := LangType.isAddress_of_pointee points
    rcases operandType_pointer of pointer written with ⟨⟨comparison, rfl⟩, rfl⟩ | ⟨rfl, rfl⟩ | ⟨⟨rfl, rfl⟩, rfl⟩
    · refine iff_of_true ?_ nofun
      cases left with
      | true => exact (admitsOperands_iff of rfl).mpr (.addresses address rfl)
      | false => exact (admitsOperands_iff rfl of).mpr (.addresses rfl address)
    · refine iff_of_true ?_ nofun
      cases left with
      | true => exact (admitsOperands_iff of rfl).mpr (.pointerAndInteger (.inl rfl) points rfl)
      | false => exact (admitsOperands_iff rfl of).mpr (.integerAndPointer rfl points)
    · exact ((admitsOperands_iff rfl of).trans (BinaryOperator.admits_difference rfl pointer)).trans
        ⟨fun same _ => same, fun suits => suits rfl⟩

/-- Two operands of the written type always go together. -/
theorem admits_written_twice (written : operandType truth op.text left = some type) :
    op.AdmitsOperands enumKind type type := by
  obtain ⟨structural, of, _⟩ := Option.bind_eq_some_iff.mp written
  cases pointer : structural.pointee? with
  | none =>
    obtain ⟨rfl, _⟩ := operandType_number of pointer written
    exact admits_int_int
  | some pointee =>
    rcases operandType_pointer of pointer written with ⟨⟨comparison, rfl⟩, rfl⟩ | ⟨rfl, rfl⟩ | ⟨⟨rfl, rfl⟩, rfl⟩
    · exact (admitsOperands_iff rfl rfl).mpr (.addresses rfl rfl)
    · exact admits_int_int
    · exact (admitsOperands_iff rfl rfl).mpr (.difference rfl rfl samePointee_int)

/-- The locked one of two typedefs decides about the other. -/
theorem admits_locked {s : MendingState} {locked changed : Ref TypedefSymbol} {lockedType : QualType}
    (written : operandType (s.table.symbolType locked) op.text left = some type)
    (after : lockedType = (s.table.settle changed type).symbolType locked) :
    op.AdmitsOperands enumKind (if left then lockedType else type) (if left then type else lockedType) ↔
      (¬ s.table.typedefType locked = s.table.typedefType changed →
        ∀ structural, (s.table.symbolType locked).type = some structural →
          SuitsReplacement enumKind op structural) := by
  obtain ⟨structural, of, _⟩ := Option.bind_eq_some_iff.mp written
  rw [after, MendingTable.symbolType_settle]
  by_cases shared : s.table.typedefType locked = s.table.typedefType changed
  · rw [if_pos shared, ite_self]
    exact iff_of_true (admits_written_twice written) fun apart => absurd shared apart
  · rw [if_neg shared]
    refine (admits_written of written).trans ⟨fun suits _ other same => ?_, fun suits => suits shared _ of⟩
    obtain rfl := Option.some.inj (of.symm.trans same)
    exact suits

section Authority
variable {table : MendingTable} {lhs rhs side : QualType} {symbol lhsSymbol rhsSymbol : Ref TypedefSymbol}

theorem denotedType_settle_truth (symbol : Ref TypedefSymbol) (type : QualType)
    (fixed : changeableTypedef table side = none) : denotedType (table.settle symbol type) side = side :=
  denotedType_truth (changeableTypedef_settle.trans fixed)

theorem denotedType_settle_other (changed : Ref TypedefSymbol) (type : QualType)
    (named : changeableTypedef table side = some symbol) :
    denotedType (table.settle changed type) side = (table.settle changed type).symbolType symbol :=
  denotedType_typedef (changeableTypedef_settle.trans named)

theorem denotedType_settle_self (type : QualType) (named : changeableTypedef table side = some symbol) :
    denotedType (table.settle symbol type) side = type := by
  rw [denotedType_settle_other symbol type named, MendingTable.symbolType_settle, if_pos rfl]

theorem authoritativeType_truth (left : Bool)
    (fixed : changeableTypedef table (if left then lhs else rhs) = none)
    (named : changeableTypedef table (if left then rhs else lhs) = some symbol) :
    authoritativeType table lhs rhs = some (if left then lhs else rhs) := by
  cases left with
  | true =>
    have fixed : changeableTypedef table lhs = none := fixed
    have named : changeableTypedef table rhs = some symbol := named
    rw [authoritativeType, fixed, named]
    rfl
  | false =>
    have fixed : changeableTypedef table rhs = none := fixed
    have named : changeableTypedef table lhs = some symbol := named
    rw [authoritativeType, fixed, named]
    rfl

theorem authoritativeType_typedefs (lhsNamed : changeableTypedef table lhs = some lhsSymbol)
    (rhsNamed : changeableTypedef table rhs = some rhsSymbol) : authoritativeType table lhs rhs =
      if table.typedefType lhsSymbol = table.typedefType rhsSymbol then none
      else if table.isLocked lhsSymbol then some (table.symbolType lhsSymbol)
      else if table.isLocked rhsSymbol then some (table.symbolType rhsSymbol)
      else none := by
  rw [authoritativeType, lhsNamed, rhsNamed]

theorem suits_authoritative (decides : authoritativeType table lhs rhs = some truth)
    (of : truth.type = some structural) :
    (∀ truth structural, authoritativeType table lhs rhs = some truth → truth.type = some structural →
      SuitsReplacement enumKind op structural) ↔ SuitsReplacement enumKind op structural := by
  constructor
  · exact fun suits => suits _ _ decides of
  · intro suits other otherType same typed
    obtain rfl := Option.some.inj (decides.symm.trans same)
    obtain rfl := Option.some.inj (of.symm.trans typed)
    exact suits

theorem suits_unless_shared {shared : Prop} [Decidable shared]
    (decides : authoritativeType table lhs rhs = if shared then none else some truth) :
    (∀ truth structural, authoritativeType table lhs rhs = some truth → truth.type = some structural →
      SuitsReplacement enumKind op structural) ↔
      (¬ shared → ∀ structural, truth.type = some structural → SuitsReplacement enumKind op structural) := by
  by_cases together : shared
  · rw [if_pos together] at decides
    exact iff_of_true (fun _ _ same => nomatch decides.symm.trans same) fun apart => absurd together apart
  · rw [if_neg together] at decides
    constructor
    · exact fun suits _ structural => suits truth structural decides
    · intro suits other structural same
      obtain rfl := Option.some.inj (decides.symm.trans same)
      exact suits together structural

end Authority

/-- When the handler returns, the operands as the new table resolves them go together
exactly when the operand that decided suits the type the handler writes. -/
theorem adjustOperandTypesHeuristic_sound {s t : MendingState} {diag : Diagnostic} {result : Unit}
    {lhs rhs : QualType} (args : operandArgs diag.args = some (lhs, rhs))
    (operator : operatorText diag = .ok op.text) (returned : adjustOperandTypesHeuristic diag s = .ok result t) :
    op.AdmitsOperands enumKind (denotedType t.table lhs) (denotedType t.table rhs) ↔
      ∀ truth structural, authoritativeType s.table lhs rhs = some truth → truth.type = some structural →
        SuitsReplacement enumKind op structural := by
  obtain ⟨lhs', rhs', text, args', operator', compared⟩ := adjustOperandTypesHeuristic_compared returned
  obtain ⟨rfl, rfl⟩ := Prod.mk.inj (Option.some.inj (args.symm.trans args'))
  obtain rfl := Except.ok.inj (operator.symm.trans operator')
  cases compared with
  | @oneTruth left symbol type sides written =>
    obtain ⟨structural, of, _⟩ := Option.bind_eq_some_iff.mp written
    obtain ⟨fixed, named⟩ := oneSided_sides sides
    rw [suits_authoritative (authoritativeType_truth left fixed named) of, ← admits_written of written]
    have kept := denotedType_settle_truth symbol type fixed
    have changed := denotedType_settle_self type named
    cases left with
    | true => exact iff_of_eq (congrArg₂ _ kept changed)
    | false => exact iff_of_eq (congrArg₂ _ changed kept)
  | @lhsLocked lhsSymbol rhsSymbol type sides lock free written =>
    obtain ⟨lhsNamed, rhsNamed⟩ := bothControlled_sides sides
    have decides := authoritativeType_typedefs lhsNamed rhsNamed
    rw [lock, if_pos rfl] at decides
    rw [suits_unless_shared decides, ← admits_locked written (denotedType_settle_other rhsSymbol type lhsNamed)]
    exact iff_of_eq (congrArg _ (denotedType_settle_self type rhsNamed))
  | @rhsLocked lhsSymbol rhsSymbol type sides free lock written =>
    obtain ⟨lhsNamed, rhsNamed⟩ := bothControlled_sides sides
    have decides := authoritativeType_typedefs lhsNamed rhsNamed
    rw [free, lock, if_neg Bool.false_ne_true, if_pos rfl] at decides
    rw [suits_unless_shared decides, eq_comm (a := s.table.typedefType lhsSymbol),
      ← admits_locked written (denotedType_settle_other lhsSymbol type rhsNamed)]
    exact iff_of_eq (congrArg₂ _ (denotedType_settle_self type lhsNamed) rfl)
  | @bothFree lhsSymbol rhsSymbol sides lhsFree rhsFree =>
    obtain ⟨lhsNamed, rhsNamed⟩ := bothControlled_sides sides
    have decides := authoritativeType_typedefs lhsNamed rhsNamed
    rw [lhsFree, rhsFree, if_neg Bool.false_ne_true, if_neg Bool.false_ne_true, ite_self] at decides
    refine iff_of_true ?_ fun truth structural same => nomatch decides.symm.trans same
    have lhsType := denotedType_settle_other rhsSymbol intUnqualifiedType
      (changeableTypedef_settle.trans lhsNamed : changeableTypedef
        (s.table.settle lhsSymbol intUnqualifiedType) lhs = some lhsSymbol)
    rw [MendingTable.symbolType_settle, MendingTable.symbolType_settle, if_pos rfl, ite_self] at lhsType
    have rhsType := denotedType_settle_self intUnqualifiedType
      (changeableTypedef_settle.trans rhsNamed : changeableTypedef
        (s.table.settle lhsSymbol intUnqualifiedType) rhs = some rhsSymbol)
    exact cast (congrArg₂ _ lhsType rhsType).symm admits_int_int

def doubleType : QualType := .spelled "double" "double diag_exporter_id" (.builtin .double "double")

def doublePointerType : QualType := .spelled "double *" "double *diag_exporter_id" (.pointer doubleType)

/-- An operation on two operands that do not go together. -/
def invalidOperands (op : BinaryOperator) (lhs rhs : QualType) : Diagnostic :=
  .errorAt 1 op.text .errTypecheckInvalidOperands "invalid operands to binary expression"
    [.qualType lhs, .qualType rhs] []

theorem adjustOperandTypesHeuristic_sound_comparison : ∃ t,
    adjustOperandTypesHeuristic (invalidOperands (.comparing .lt) doublePointerType sideT) typedefT = .ok () t ∧
    (BinaryOperator.comparing .lt).AdmitsOperands (fun _ => .uint) (denotedType t.table doublePointerType)
      (denotedType t.table sideT) := by
  have returned : adjustOperandTypesHeuristic (invalidOperands (.comparing .lt) doublePointerType sideT) typedefT =
      .ok () (typedefT.withTable (·.settle ⟨0⟩ intPointerType)) := rfl
  refine ⟨_, returned, (adjustOperandTypesHeuristic_sound rfl rfl returned).mpr ?_⟩
  intro truth structural decides of
  obtain rfl := Option.some.inj decides
  obtain rfl := Option.some.inj of
  exact nofun

/-- A remainder of a `double`, and a difference that ends in a `double *`: the handler
returns, and the operands still do not go together. -/
theorem replaced_operand_unsound :
    (∃ t, adjustOperandTypesHeuristic (invalidOperands (.computing .rem) doubleType sideT) typedefT = .ok () t ∧
      ∀ enumKind, ¬ (BinaryOperator.computing .rem).AdmitsOperands enumKind (denotedType t.table doubleType)
        (denotedType t.table sideT)) ∧
    ∃ t, adjustOperandTypesHeuristic (invalidOperands (.computing .sub) sideT doublePointerType) typedefT =
        .ok () t ∧
      ∀ enumKind, ¬ (BinaryOperator.computing .sub).AdmitsOperands enumKind (denotedType t.table sideT)
        (denotedType t.table doublePointerType) := by
  refine ⟨⟨typedefT.withTable (·.settle ⟨0⟩ intUnqualifiedType), rfl, fun enumKind admits => ?_⟩,
    typedefT.withTable (·.settle ⟨0⟩ intPointerType), rfl, fun enumKind admits => ?_⟩
  · have numbers := (BinaryOperator.admits_numbers rfl rfl).mp ((admitsOperands_iff rfl rfl).mp admits)
    cases (numbers.2 rfl).1
  · obtain ⟨type, otherType, typed, otherTyped, same⟩ :=
      (BinaryOperator.admits_difference rfl rfl).mp ((admitsOperands_iff rfl rfl).mp admits)
    obtain rfl := Option.some.inj typed
    obtain rfl := Option.some.inj otherTyped
    cases same

end Soundness

section Completeness
variable (enumKind : String → BuiltinKind)

/-- What the handler for pointers throws. -/
def pointerArithmeticNotSupported : JavaException :=
  .runtime "Pointer arithmetic operation not supported. Something went wrong"

/-- The operations with a pointer on which the handler gives up although a type would do:
a pointer minus something, a logical operation, and a pointer that is moved. -/
def GivenUp (op : BinaryOperator) (type : LangType) (left : Bool) : Prop :=
  op = .computing .sub ∧ left = true ∨ (op = .logicalAnd ∨ op = .logicalOr) ∨
    (left = true ∧ type.isPointerType = true) ∧ (op = .assigning .add ∨ op = .assigning .sub)

variable {enumKind} {op : BinaryOperator} {left : Bool} {symbol : Ref TypedefSymbol} {s : MendingState}

theorem handlePointerSourceOfTruthInInvalidOperands_throws :
    (∃ t, handlePointerSourceOfTruthInInvalidOperands op.text (some symbol) left s =
      .error pointerArithmeticNotSupported t) ↔
      (¬ ∃ comparison, op = .comparing comparison) ∧ op ≠ .computing .add ∧
        ¬ (op = .computing .sub ∧ left = false) := by
  have difference : (isBinarySub op.text && !left) = true ↔ op = .computing .sub ∧ left = false := by
    rw [Bool.and_eq_true, isBinarySub_text, Bool.not_eq_true']
  rw [← isComparison_text, ← difference, ne_eq, ← isBinarySum_text,
    handlePointerSourceOfTruthInInvalidOperands]
  by_cases comparison : isComparison op.text = true
  · rw [if_pos comparison]
    exact iff_of_false nofun fun none => none.1 comparison
  · rw [if_neg comparison]
    by_cases sum : isBinarySum op.text = true
    · rw [if_pos sum]
      exact iff_of_false nofun fun none => none.2.1 sum
    · rw [if_neg sum]
      by_cases sub : (isBinarySub op.text && !left) = true
      · rw [if_pos sub]
        exact iff_of_false nofun fun none => none.2.2 sub
      · rw [if_neg sub]
        exact iff_of_true ⟨s, rfl⟩ ⟨comparison, sum, sub⟩

/-- In those operations `int` would do. -/
theorem admits_int_of_givenUp {type : LangType} (points : type.pointee?.isSome = true)
    (given : GivenUp op type left) :
    op.Admits enumKind (if left then type else .builtin .int "int") (if left then .builtin .int "int" else type) := by
  have address : type.isAddress = true := LangType.isAddress_of_pointee points
  rcases given with ⟨rfl, rfl⟩ | logical | ⟨⟨rfl, pointer⟩, moved⟩
  · exact .pointerAndInteger (.inr rfl) points rfl
  · have scalar : (type.isArithmetic || type.isAddress) = true := by rw [address, Bool.or_true]
    cases left with
    | true => exact .truthValues logical scalar rfl
    | false => exact .truthValues logical rfl scalar
  · rcases moved with rfl | rfl
    · exact .advance (.inl rfl) pointer rfl
    · exact .advance (.inr rfl) pointer rfl

/-- Elsewhere a pointer is admitted only where the handler does not throw. -/
theorem givenUp_of_admits {type other : LangType} (address : type.isAddress = true)
    (admits : op.Admits enumKind (if left then type else other) (if left then other else type)) :
    (∃ comparison, op = .comparing comparison) ∨ op = .computing .add ∨
      op = .computing .sub ∧ left = false ∨ GivenUp op type left := by
  have either : (if left then type else other).isAddress = true ∨ (if left then other else type).isAddress = true := by
    cases left with
    | true => exact .inl address
    | false => exact .inr address
  rcases BinaryOperator.operator_of_address admits either with
    comparison | sum | difference | logical | ⟨pointer, integer, moved⟩
  · exact .inl comparison
  · exact .inr (.inl sum)
  · cases left with
    | true => exact .inr (.inr (.inr (.inl ⟨difference, rfl⟩)))
    | false => exact .inr (.inr (.inl ⟨difference, rfl⟩))
  · exact .inr (.inr (.inr (.inr (.inl logical))))
  · cases left with
    | true => exact .inr (.inr (.inr (.inr (.inr ⟨⟨rfl, pointer⟩, moved⟩))))
    | false => cases (LangType.isInteger_of_isAddress address).symm.trans integer

/-- The handler gives up only where no type would do, except in the operations above. -/
theorem handlePointerSourceOfTruthInInvalidOperands_complete {pointer : QualType} {type : LangType}
    (of : pointer.type = some type) (isPointer : (type.isPointerType || type.isArrayType) = true) :
    ((∃ t, handlePointerSourceOfTruthInInvalidOperands op.text (some symbol) left s =
        .error pointerArithmeticNotSupported t) →
      ∀ other, ¬ op.AdmitsOperands enumKind (if left then pointer else other) (if left then other else pointer)) ↔
      ¬ GivenUp op type left := by
  have points : type.pointee?.isSome = true := by
    cases type with
    | pointer | array => rfl
    | builtin | record | enum | function => cases isPointer
  rw [handlePointerSourceOfTruthInInvalidOperands_throws]
  constructor
  · intro onlyIfNone given
    refine onlyIfNone ?_ intUnqualifiedType ?_
    · rcases given with ⟨rfl, rfl⟩ | (rfl | rfl) | ⟨⟨rfl, _⟩, rfl | rfl⟩ <;> simp
    · have admits : op.Admits enumKind (if left then type else .builtin .int "int")
          (if left then .builtin .int "int" else type) := admits_int_of_givenUp points given
      cases left with
      | true => exact (admitsOperands_iff of rfl).mpr admits
      | false => exact (admitsOperands_iff rfl of).mpr admits
  · rintro kept ⟨noComparison, noSum, noDifference⟩ other ⟨lhsType, rhsType, lhsTyped, rhsTyped, admits⟩
    have known : ∃ otherType, op.Admits enumKind (if left then type else otherType)
        (if left then otherType else type) := by
      cases left with
      | true =>
        obtain rfl := Option.some.inj (of.symm.trans lhsTyped)
        exact ⟨rhsType, admits⟩
      | false =>
        obtain rfl := Option.some.inj (of.symm.trans rhsTyped)
        exact ⟨lhsType, admits⟩
    obtain ⟨otherType, admits⟩ := known
    rcases givenUp_of_admits (LangType.isAddress_of_pointee points) admits with
      comparison | sum | difference | given
    · exact noComparison comparison
    · exact noSum sum
    · exact noDifference difference
    · exact kept given

theorem handlePointerSourceOfTruthInInvalidOperands_complete_product :
    (∃ t, handlePointerSourceOfTruthInInvalidOperands (BinaryOperator.computing .mul).text (some ⟨0⟩) true typedefT =
      .error pointerArithmeticNotSupported t) ∧
    ∀ other, ¬ (BinaryOperator.computing .mul).AdmitsOperands (fun _ => .uint) intPointerType other := by
  have kept : ¬ GivenUp (.computing .mul) (.pointer intUnqualifiedType) true := by simp [GivenUp]
  have throws : ∃ t, handlePointerSourceOfTruthInInvalidOperands (BinaryOperator.computing .mul).text (some ⟨0⟩) true
      typedefT = .error pointerArithmeticNotSupported t := ⟨typedefT, rfl⟩
  have isPointer : intPointerType.type = some (.pointer intUnqualifiedType) := rfl
  exact ⟨throws, (handlePointerSourceOfTruthInInvalidOperands_complete isPointer rfl).mpr kept throws⟩

/-- `p - x` with an `int *` on the left: the handler throws, an `int` would have been right. -/
theorem pointer_minus_integer_given_up :
    (∃ t, handlePointerSourceOfTruthInInvalidOperands (BinaryOperator.computing .sub).text (some ⟨0⟩) true typedefT =
      .error pointerArithmeticNotSupported t) ∧
    (∃ t, adjustOperandTypesHeuristic (invalidOperands (.computing .sub) intPointerType sideT) typedefT =
      .error pointerArithmeticNotSupported t) ∧
    ∀ enumKind, (BinaryOperator.computing .sub).AdmitsOperands enumKind intPointerType intUnqualifiedType :=
  ⟨⟨typedefT, rfl⟩, ⟨typedefT, rfl⟩,
    fun _ => (admitsOperands_iff rfl rfl).mpr (.pointerAndInteger (.inr rfl) rfl rfl)⟩

end Completeness
end CMender
