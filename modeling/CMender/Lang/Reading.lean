import CMender.Foundations.Json
import CMender.Lang.Types

/-! Types as the mender reads them from the exporter's JSON. Unknown members are
ignored and a missing one is null, which stays behind as a missing type or
parameter list; an unknown class or kind rejects the whole document. Components
that the exporter always writes are required here. -/
namespace CMender
open Foundations

def BuiltinKind.toBuiltinKind : String → Option BuiltinKind
  | "Void" => some .void
  | "Char_U" | "UChar" => some .uchar
  | "Char_S" | "Char" | "SChar" => some .char
  | "UShort" => some .ushort
  | "Short" => some .short
  | "UInt" => some .uint
  | "Int" => some .int
  | "ULong" => some .ulong
  | "Long" => some .long
  | "ULongLong" => some .ulonglong
  | "LongLong" => some .longLong
  | "Float" => some .float
  | "Double" => some .double
  | "LongDouble" => some .longDouble
  | "Bool" => some .bool
  | "Dependent" => some .dependent
  | "Overload" => some .overload
  | _ => none

def RecordKind.toRecordKind : String → Option RecordKind
  | "struct" => some .struct
  | "class" => some .cxxClass
  | "union" => some .union
  | _ => none

def ArrayKind.ofString : String → Option ArrayKind
  | "constant" => some .constant
  | "variable" => some .variable
  | "incomplete" => some .incomplete
  | _ => none

def FunctionTypeKind.ofString : String → Option FunctionTypeKind
  | "proto" => some .proto
  | "no_proto" => some .noProto
  | _ => none

def Qualifiers.read (json : Json) : Option Qualifiers := do
  let members ← json.members
  let flag (key : String) := Json.orDefault false Json.flag (Json.get members key)
  return ⟨← Json.text (Json.get members "spelling"), ← flag "hasQualifiers", ← flag "hasConst",
    ← flag "hasVolatile", ← flag "hasRestrict", ← flag "hasUnaligned"⟩

def LangAddressSpace.read (json : Json) : Option LangAddressSpace := do
  let members ← json.members
  return ⟨← Json.text (Json.get members "addressSpace"),
    ← Json.orDefault 0 (Json.integer 32) (Json.get members "targetAddressSpace")⟩

mutual
/-- The member `class` chooses what the other members are read into. -/
def LangType.read : Json → Option (Option LangType)
  | .null => some none
  | .object members =>
    match Json.get members "class" with
    | .string "builtin" => do
      return some (.builtin
        (← Json.named BuiltinKind.toBuiltinKind (Json.get members "builtinKind"))
        (← Json.text (Json.get members "name")))
    | .string "pointer" => do
      return some (.pointer (← (← QualType.read (Json.get members "pointeeType"))))
    | .string "array" => do
      return some (.array
        (← Json.named ArrayKind.ofString (Json.get members "arrayKind"))
        (← Json.orDefault 0 (Json.integer 64) (Json.get members "size"))
        (← (← QualType.read (Json.get members "elementType"))))
    | .string "record" => do
      return some (.record (← Json.text (Json.get members "name"))
        (← Json.named RecordKind.toRecordKind (Json.get members "recordKind")))
    | .string "enum" => do return some (.enum (← Json.text (Json.get members "name")))
    | .string "function" => do
      return some (.function
        (← Json.named FunctionTypeKind.ofString (Json.get members "functionKind"))
        (← (← QualType.read (Json.get members "returnType")))
        (← QualType.readList (Json.get members "paramTypes")))
    | _ => none
  | _ => none
termination_by json => sizeOf json
decreasing_by all_goals exact Json.sizeOf_get_lt _ _

def QualType.read : Json → Option (Option QualType)
  | .null => some none
  | .object members => do
    return some ⟨← Json.text (Json.get members "typeAsString"),
      ← Json.text (Json.get members "canonicalTypeAsString"),
      ← Json.text (Json.get members "typeUsageInDecls"),
      ← Qualifiers.read (Json.get members "qual"),
      ← LangType.read (Json.get members "type"),
      ← Json.nullable LangAddressSpace.read (Json.get members "langAddressSpace")⟩
  | _ => none
termination_by json => sizeOf json
decreasing_by exact Json.sizeOf_get_lt _ _

def QualType.readList : Json → Option (Option (List QualType))
  | .null => some none
  | .array items => (QualType.readAll items).map some
  | _ => none
termination_by json => sizeOf json

def QualType.readAll : List Json → Option (List QualType)
  | [] => some []
  | item :: rest => do return (← (← QualType.read item)) :: (← QualType.readAll rest)
termination_by items => sizeOf items
end

end CMender
