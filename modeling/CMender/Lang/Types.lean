import CMender.Foundations.Text
import CMender.Runtime

/-! C types as the diagnostics describe them. A qualified type carries its
printed spellings next to its structure, and nothing keeps the two in step.
Fields that the exporter may leave out are optional. -/
namespace CMender

inductive TypeKind where
  | builtin | pointer | array | record | enum | typedef | function
deriving DecidableEq, Repr

inductive BuiltinKind where
  | void | uchar | char | ushort | short | uint | int | ulong | long | ulonglong | longLong
  | float | double | longDouble | bool | dependent | overload
deriving DecidableEq, Repr

inductive RecordKind where
  | struct | cxxClass | union
deriving DecidableEq, Repr

inductive ArrayKind where
  | constant | variable | incomplete
deriving DecidableEq, Repr

inductive FunctionTypeKind where
  | proto | noProto
deriving DecidableEq, Repr

structure Qualifiers where
  spelling : String
  hasQualifiers : Bool
  hasConst : Bool
  hasVolatile : Bool
  hasRestrict : Bool
  hasUnaligned : Bool
deriving DecidableEq, Repr

def Qualifiers.unqualified : Qualifiers := ⟨"", false, false, false, false, false⟩

structure LangAddressSpace where
  addressSpace : String
  targetAddressSpace : Int
deriving DecidableEq, Repr

mutual
/-- The six kinds of type a diagnostic can carry. Typedef types are objects of
the mending table, not part of this tree: no diagnostic and no handler puts one
inside a qualified type. A function type without prototype has no parameter list. -/
inductive LangType where
  | builtin (builtinKind : BuiltinKind) (name : String)
  | pointer (pointeeType : QualType)
  | array (arrayKind : ArrayKind) (size : Int) (elementType : QualType)
  | record (name : String) (recordKind : RecordKind)
  | enum (name : String)
  | function (functionKind : FunctionTypeKind) (returnType : QualType)
      (paramTypes : Option (List QualType))

structure QualType where
  typeAsString : String
  canonicalTypeAsString : String
  typeUsageInDecls : String
  qual : Qualifiers
  type : Option LangType
  langAddressSpace : Option LangAddressSpace
end

namespace LangType

def isBuiltinType : LangType → Bool
  | .builtin .. => true
  | _ => false

def isVoid : LangType → Bool
  | .builtin kind _ => kind == .void
  | _ => false

def isIntegralType : LangType → Bool
  | .builtin kind _ => kind == .char || kind == .short || kind == .int || kind == .long ||
      kind == .longLong || kind == .uchar || kind == .ushort || kind == .uint ||
      kind == .ulong || kind == .ulonglong
  | _ => false

def isFloatingPointType : LangType → Bool
  | .builtin kind _ => kind == .float || kind == .double || kind == .longDouble
  | _ => false

def isBooleanType : LangType → Bool
  | .builtin kind _ => kind == .bool
  | _ => false

def isArrayType : LangType → Bool
  | .array .. => true
  | _ => false

def isPointerType : LangType → Bool
  | .pointer _ => true
  | _ => false

def isTagType : LangType → Bool
  | .record .. | .enum _ => true
  | _ => false

def isEnumType : LangType → Bool
  | .enum _ => true
  | _ => false

end LangType

/-- A type the mender spells itself: one text for both spellings, and the text
that declares the mock identifier with it. -/
def QualType.spelled (text usage : String) (type : LangType) : QualType :=
  ⟨text, text, usage, .unqualified, some type, none⟩

def voidType : QualType := .spelled "void" "void diag_exporter_id" (.builtin .void "void")

def intUnqualifiedType : QualType := .spelled "int" "int diag_exporter_id" (.builtin .int "int")

def intPointerType : QualType :=
  .spelled "int *" "int *diag_exporter_id" (.pointer intUnqualifiedType)

def unsignedIntType : QualType :=
  .spelled "unsigned int" "unsigned int diag_exporter_id" (.builtin .uint "unsigned int")

/-- The type `struct name`, whose structure is the record type of that name. -/
def structType (name : String) : QualType :=
  .spelled ("struct " ++ name) ("struct " ++ name ++ " diag_exporter_id") (.record name .struct)

/-- A type as the exporter describes it when it is spelled with an alias. -/
def QualType.aliasOf (name canonical : String) (type : LangType) : QualType :=
  ⟨name, canonical, canonical ++ " diag_exporter_id", .unqualified, some type, none⟩

instance : Inhabited QualType := ⟨intUnqualifiedType⟩

inductive TagTypeKind where
  | struct | union | enum
deriving DecidableEq, Repr

inductive TypeNameKind where
  | builtin | tag | typedefAlias
deriving DecidableEq, Repr

/-- For tags `typeName` is the full spelling and `identifier` the bare name. -/
structure TypeName where
  identifier : String
  typeName : String
  kind : TypeNameKind
  tagKind : Option TagTypeKind
deriving DecidableEq, Repr

namespace TypeName

def isBuiltin (name : TypeName) : Bool := name.kind == .builtin

def isTag (name : TypeName) : Bool := name.kind == .tag

def isTypedefAlias (name : TypeName) : Bool := name.kind == .typedefAlias

def builtin (typeName : String) : TypeName := ⟨typeName, typeName, .builtin, none⟩

def typedefAlias (typeName : String) : TypeName := ⟨typeName, typeName, .typedefAlias, none⟩

end TypeName

def TagTypeKind.fromString : String → Except JavaException TagTypeKind
  | "struct" => .ok .struct
  | "union" => .ok .union
  | "enum" => .ok .enum
  | other => .error (.illegalArgument ("Unknown tag kind: " ++ other))

/-- The second word is read before the first one is looked up, so a spelling of
one word is an index error and a qualified tag an unknown tag kind. -/
def TypeName.tag (typeName : String) : Except JavaException TypeName := do
  let parts := Foundations.Text.split ' ' typeName
  match parts[1]? with
  | none => throw .arrayIndexOutOfBounds
  | some identifier =>
    return ⟨identifier, typeName, .tag, some (← TagTypeKind.fromString (parts.headD ""))⟩

namespace QualType

def isAliased (type : QualType) : Bool := type.typeAsString != type.canonicalTypeAsString

def typeName (qualType : QualType) : Except JavaException (Option TypeName) :=
  if qualType.isAliased then
    .ok (some (.typedefAlias qualType.typeAsString))
  else do
    let type ← nonNull qualType.type
    if type.isBuiltinType then
      return some (.builtin qualType.typeAsString)
    else if type.isTagType then
      return some (← TypeName.tag qualType.typeAsString)
    else
      return none

def substituteTypeUsageId (qualType : QualType) (replacement : String) : String :=
  Foundations.Text.replace qualType.typeUsageInDecls "diag_exporter_id" replacement

end QualType

end CMender
