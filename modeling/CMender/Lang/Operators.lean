import CMender.Lang.Types

/-! What C asks of the operands of a binary operator, over the types a diagnostic
describes (C11, 6.5.5 to 6.5.14 and 6.5.16.2). An array stands for a pointer to its
first element and a function for a pointer to it, except on the left of an
assignment. Whether a pointee is complete is not visible in its type, so it is not
asked for. -/
namespace CMender

inductive ComputingOperator where
  | mul | div | rem | add | sub | shl | shr | bitAnd | bitXor | bitOr
deriving DecidableEq, Repr

inductive Comparison where
  | lt | gt | le | ge | eq | ne
deriving DecidableEq, Repr

/-- The operators whose operands Clang checks together. `=` has the rules of a conversion
and `,` has none. -/
inductive BinaryOperator where
  | computing (op : ComputingOperator)
  | assigning (op : ComputingOperator)
  | comparing (op : Comparison)
  | logicalAnd
  | logicalOr
deriving DecidableEq, Repr

def ComputingOperator.text : ComputingOperator → String
  | .mul => "*"
  | .div => "/"
  | .rem => "%"
  | .add => "+"
  | .sub => "-"
  | .shl => "<<"
  | .shr => ">>"
  | .bitAnd => "&"
  | .bitXor => "^"
  | .bitOr => "|"

/-- The operators that take integers only. -/
def ComputingOperator.onIntegers : ComputingOperator → Bool
  | .rem | .shl | .shr | .bitAnd | .bitXor | .bitOr => true
  | .mul | .div | .add | .sub => false

def Comparison.text : Comparison → String
  | .lt => "<"
  | .gt => ">"
  | .le => "<="
  | .ge => ">="
  | .eq => "=="
  | .ne => "!="

namespace BinaryOperator

def text : BinaryOperator → String
  | .computing op => op.text
  | .assigning op => op.text ++ "="
  | .comparing op => op.text
  | .logicalAnd => "&&"
  | .logicalOr => "||"

def onIntegers : BinaryOperator → Bool
  | .computing op | .assigning op => op.onIntegers
  | .comparing _ | .logicalAnd | .logicalOr => false

end BinaryOperator

namespace LangType

/-- The integer types of C: those of the source's `isIntegralType`, `_Bool` and enumerations. -/
def isInteger (type : LangType) : Bool := type.isIntegralType || type.isBooleanType || type.isEnumType

def isArithmetic (type : LangType) : Bool := type.isInteger || type.isFloatingPointType

/-- What the operand points to once arrays have become pointers. -/
def pointee? : LangType → Option QualType
  | .pointer pointeeType => some pointeeType
  | .array _ _ elementType => some elementType
  | _ => none

/-- A pointer, or what becomes one as an operand. -/
def isAddress : LangType → Bool
  | .pointer _ | .array .. | .function .. => true
  | _ => false

section Classes
variable {type : LangType}

theorem isArithmetic_of_isInteger (integer : type.isInteger = true) : type.isArithmetic = true := by
  rw [isArithmetic, integer, Bool.true_or]

theorem isAddress_of_pointee (pointer : type.pointee?.isSome = true) : type.isAddress = true := by
  cases type with
  | pointer | array => rfl
  | builtin | record | enum | function => cases pointer

theorem isAddress_of_isPointerType (pointer : type.isPointerType = true) : type.isAddress = true := by
  cases type with
  | pointer => rfl
  | builtin | array | record | enum | function => cases pointer

theorem isInteger_of_isAddress (address : type.isAddress = true) : type.isInteger = false := by
  cases type with
  | pointer | array | function => rfl
  | builtin | record | enum => cases address

theorem isArithmetic_of_isAddress (address : type.isAddress = true) : type.isArithmetic = false := by
  cases type with
  | pointer | array | function => rfl
  | builtin | record | enum => cases address

end Classes

end LangType

section Compatibility

-- The integer type an enumeration is compatible with, which C leaves to the compiler.
variable (enumKind : String → BuiltinKind)

mutual
/-- Compatible types (C11, 6.2.7, 6.7.2.2, 6.7.6). -/
inductive LangType.Compatible : LangType → LangType → Prop where
  | builtin {kind : BuiltinKind} {name other : String} :
      LangType.Compatible (.builtin kind name) (.builtin kind other)
  | enum {name : String} : LangType.Compatible (.enum name) (.enum name)
  | enumInteger {name other : String} {kind : BuiltinKind} (chosen : enumKind name = kind) :
      LangType.Compatible (.enum name) (.builtin kind other)
  | integerEnum {name other : String} {kind : BuiltinKind} (chosen : enumKind name = kind) :
      LangType.Compatible (.builtin kind other) (.enum name)
  | record {name : String} {kind : RecordKind} : LangType.Compatible (.record name kind) (.record name kind)
  | pointer {pointee other : QualType} (same : QualType.Compatible pointee other) :
      LangType.Compatible (.pointer pointee) (.pointer other)
  | array {kind otherKind : ArrayKind} {size otherSize : Int} {element other : QualType}
      (same : QualType.Compatible element other)
      (sizes : kind = .constant → otherKind = .constant → size = otherSize) :
      LangType.Compatible (.array kind size element) (.array otherKind otherSize other)
  | function {kind otherKind : FunctionTypeKind} {result otherResult : QualType} {params : List QualType}
      {otherParams : List QualType} (same : QualType.Compatible result otherResult)
      (each : QualType.AllCompatible params otherParams) :
      LangType.Compatible (.function kind result (some params)) (.function otherKind otherResult (some otherParams))
  | noPrototype {kind otherKind : FunctionTypeKind} {result otherResult : QualType}
      {params otherParams : Option (List QualType)} (same : QualType.Compatible result otherResult)
      (unknown : params = none ∨ otherParams = none) :
      LangType.Compatible (.function kind result params) (.function otherKind otherResult otherParams)

/-- Compatible types that are qualified alike. -/
inductive QualType.Compatible : QualType → QualType → Prop where
  | alike {qualType other : QualType} {type otherType : LangType}
      (types : qualType.type = some type ∧ other.type = some otherType)
      (hasConst : qualType.qual.hasConst = other.qual.hasConst)
      (hasVolatile : qualType.qual.hasVolatile = other.qual.hasVolatile)
      (hasRestrict : qualType.qual.hasRestrict = other.qual.hasRestrict)
      (same : LangType.Compatible type otherType) : QualType.Compatible qualType other

inductive QualType.AllCompatible : List QualType → List QualType → Prop where
  | nil : QualType.AllCompatible [] []
  | cons {qualType other : QualType} {rest others : List QualType} (first : QualType.Compatible qualType other)
      (more : QualType.AllCompatible rest others) : QualType.AllCompatible (qualType :: rest) (other :: others)
end

/-- The pointees of a difference: compatible once their own qualifiers are left out. -/
def QualType.SamePointee (pointee other : QualType) : Prop :=
  ∃ type otherType, pointee.type = some type ∧ other.type = some otherType ∧
    LangType.Compatible enumKind type otherType

end Compatibility

namespace BinaryOperator

section Constraints
variable (enumKind : String → BuiltinKind)

/-- The operands an operator admits. Nothing here admits `void`, a structure or a union. -/
inductive Admits : BinaryOperator → LangType → LangType → Prop where
  | integers {op : BinaryOperator} {lhs rhs : LangType} (left : lhs.isInteger = true)
      (right : rhs.isInteger = true) : Admits op lhs rhs
  | numbers {op : BinaryOperator} {lhs rhs : LangType} (any : op.onIntegers = false)
      (left : lhs.isArithmetic = true) (right : rhs.isArithmetic = true) : Admits op lhs rhs
  | pointerAndInteger {op : ComputingOperator} {lhs rhs : LangType} (sum : op = .add ∨ op = .sub)
      (left : lhs.pointee?.isSome = true) (right : rhs.isInteger = true) : Admits (.computing op) lhs rhs
  | integerAndPointer {lhs rhs : LangType} (left : lhs.isInteger = true)
      (right : rhs.pointee?.isSome = true) : Admits (.computing .add) lhs rhs
  | difference {lhs rhs : LangType} {pointee other : QualType} (left : lhs.pointee? = some pointee)
      (right : rhs.pointee? = some other) (same : QualType.SamePointee enumKind pointee other) :
      Admits (.computing .sub) lhs rhs
  | advance {op : ComputingOperator} {lhs rhs : LangType} (sum : op = .add ∨ op = .sub)
      (left : lhs.isPointerType = true) (right : rhs.isInteger = true) : Admits (.assigning op) lhs rhs
  | addresses {op : Comparison} {lhs rhs : LangType} (left : lhs.isAddress = true)
      (right : rhs.isAddress = true) : Admits (.comparing op) lhs rhs
  | addressAndInteger {op : Comparison} {lhs rhs : LangType} (left : lhs.isAddress = true)
      (right : rhs.isInteger = true) : Admits (.comparing op) lhs rhs
  | integerAndAddress {op : Comparison} {lhs rhs : LangType} (left : lhs.isInteger = true)
      (right : rhs.isAddress = true) : Admits (.comparing op) lhs rhs
  | truthValues {op : BinaryOperator} {lhs rhs : LangType} (logical : op = .logicalAnd ∨ op = .logicalOr)
      (left : (lhs.isArithmetic || lhs.isAddress) = true)
      (right : (rhs.isArithmetic || rhs.isAddress) = true) : Admits op lhs rhs

/-- The same for operands as diagnostics describe them; a type that the exporter left out
is admitted by no operator. -/
def AdmitsOperands (op : BinaryOperator) (lhs rhs : QualType) : Prop :=
  ∃ lhsType rhsType, lhs.type = some lhsType ∧ rhs.type = some rhsType ∧ Admits enumKind op lhsType rhsType

variable {enumKind : String → BuiltinKind} {op : BinaryOperator} {lhs rhs : LangType}

/-- Between operands that are no addresses only numbers can be computed with. -/
theorem admits_numbers (left : lhs.isAddress = false) (right : rhs.isAddress = false) :
    Admits enumKind op lhs rhs ↔ (lhs.isArithmetic = true ∧ rhs.isArithmetic = true) ∧
      (op.onIntegers = true → lhs.isInteger = true ∧ rhs.isInteger = true) := by
  constructor
  · intro admits
    cases admits with
    | integers lhsInteger rhsInteger =>
      exact ⟨⟨LangType.isArithmetic_of_isInteger lhsInteger, LangType.isArithmetic_of_isInteger rhsInteger⟩,
        fun _ => ⟨lhsInteger, rhsInteger⟩⟩
    | numbers any lhsNumber rhsNumber =>
      refine ⟨⟨lhsNumber, rhsNumber⟩, fun integers => ?_⟩
      cases any.symm.trans integers
    | pointerAndInteger _ pointer =>
      cases (LangType.isAddress_of_pointee pointer).symm.trans left
    | integerAndPointer _ pointer =>
      cases (LangType.isAddress_of_pointee pointer).symm.trans right
    | difference pointer =>
      cases (LangType.isAddress_of_pointee (Option.isSome_of_mem pointer)).symm.trans left
    | advance _ pointer => cases (LangType.isAddress_of_isPointerType pointer).symm.trans left
    | addresses address => cases address.symm.trans left
    | addressAndInteger address => cases address.symm.trans left
    | integerAndAddress _ address => cases address.symm.trans right
    | truthValues logical lhsScalar rhsScalar =>
      rw [left, Bool.or_false] at lhsScalar
      rw [right, Bool.or_false] at rhsScalar
      refine ⟨⟨lhsScalar, rhsScalar⟩, fun integers => ?_⟩
      rcases logical with rfl | rfl <;> cases integers
  · rintro ⟨⟨lhsNumber, rhsNumber⟩, integers⟩
    cases any : op.onIntegers with
    | true => exact .integers (integers any).1 (integers any).2
    | false => exact .numbers any lhsNumber rhsNumber

/-- Two pointers can be subtracted when their pointees are compatible. -/
theorem admits_difference {pointee other : QualType} (left : lhs.pointee? = some pointee)
    (right : rhs.pointee? = some other) :
    Admits enumKind (.computing .sub) lhs rhs ↔ QualType.SamePointee enumKind pointee other := by
  have address : rhs.isAddress = true := LangType.isAddress_of_pointee (Option.isSome_of_mem right)
  constructor
  · intro admits
    cases admits with
    | integers _ integer => cases (LangType.isInteger_of_isAddress address).symm.trans integer
    | numbers _ _ number => cases (LangType.isArithmetic_of_isAddress address).symm.trans number
    | pointerAndInteger _ _ integer => cases (LangType.isInteger_of_isAddress address).symm.trans integer
    | difference leftPointee rightPointee same =>
      obtain rfl := Option.some.inj (left.symm.trans leftPointee)
      obtain rfl := Option.some.inj (right.symm.trans rightPointee)
      exact same
    | truthValues logical => rcases logical with impossible | impossible <;> cases impossible
  · exact fun same => .difference left right same

/-- The operators that admit an address next to something. -/
theorem operator_of_address (admits : Admits enumKind op lhs rhs)
    (address : lhs.isAddress = true ∨ rhs.isAddress = true) :
    (∃ comparison, op = .comparing comparison) ∨ op = .computing .add ∨ op = .computing .sub ∨
      (op = .logicalAnd ∨ op = .logicalOr) ∨
      lhs.isPointerType = true ∧ rhs.isInteger = true ∧ (op = .assigning .add ∨ op = .assigning .sub) := by
  cases admits with
  | integers left right =>
    rcases address with isAddress | isAddress
    · cases (LangType.isInteger_of_isAddress isAddress).symm.trans left
    · cases (LangType.isInteger_of_isAddress isAddress).symm.trans right
  | numbers _ left right =>
    rcases address with isAddress | isAddress
    · cases (LangType.isArithmetic_of_isAddress isAddress).symm.trans left
    · cases (LangType.isArithmetic_of_isAddress isAddress).symm.trans right
  | pointerAndInteger sum =>
    rcases sum with rfl | rfl
    · exact .inr (.inl rfl)
    · exact .inr (.inr (.inl rfl))
  | integerAndPointer => exact .inr (.inl rfl)
  | difference => exact .inr (.inr (.inl rfl))
  | advance sum left right =>
    refine .inr (.inr (.inr (.inr ⟨left, right, ?_⟩)))
    exact sum.imp (congrArg BinaryOperator.assigning) (congrArg BinaryOperator.assigning)
  | addresses => exact .inl ⟨_, rfl⟩
  | addressAndInteger => exact .inl ⟨_, rfl⟩
  | integerAndAddress => exact .inl ⟨_, rfl⟩
  | truthValues logical => exact .inr (.inr (.inr (.inl logical)))

end Constraints
end BinaryOperator
end CMender
