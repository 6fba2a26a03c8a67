import CMender.Foundations.Json

/-! Clang's canonical types as trees, and the JSON of a type as a function of its tree
alone. -/
namespace CMender.Exporter
open Foundations

/-- The address spaces of Clang. Those the exporter does not list are numbered,
and a target's own number has the 23 bits that qualifiers leave for it. -/
inductive LangAS where
  | default | openclGlobal | openclLocal | openclConstant | openclGeneric | openclPrivate
  | cudaConstant | cudaDevice | cudaShared
  | unlisted (index : Nat)
  | target (number : BitVec 23)
deriving DecidableEq, Repr

structure ClangQualifiers where
  isConst : Bool
  isVolatile : Bool
  isRestrict : Bool
  isUnaligned : Bool
  isObjC : Bool
  addressSpace : LangAS
deriving DecidableEq, Repr

def ClangQualifiers.none : ClangQualifiers := ⟨false, false, false, false, false, .default⟩

def ClangQualifiers.hasQualifiers (qualifiers : ClangQualifiers) : Bool :=
  qualifiers.isConst || qualifiers.isVolatile || qualifiers.isRestrict || qualifiers.isUnaligned ||
    qualifiers.isObjC || qualifiers.addressSpace != .default

inductive TagKind where
  | struct | interface | union | cxxClass | enum
deriving DecidableEq, Repr

mutual
/-- A canonical type; its components are canonical. A builtin kind is known by the
name Clang's list of builtin types gives it. Types that the converter has no visit
method for are told apart by their spelling. -/
inductive ClangType where
  | builtin (kind : String)
  | pointer (pointeeType : ClangQualType)
  | constantArray (size : BitVec 64) (elementType : ClangQualType)
  | variableArray (sizeExpr : String) (elementType : ClangQualType)
  | incompleteArray (elementType : ClangQualType)
  | record (tagKind : TagKind) (name : String)
  | enum (name : String)
  | functionProto (returnType : ClangQualType) (paramTypes : List ClangQualType) (isVariadic : Bool)
  | functionNoProto (returnType : ClangQualType)
  | other (spelling : String)

structure ClangQualType where
  qualifiers : ClangQualifiers
  type : ClangType
end

mutual
def ClangType.same : ClangType → ClangType → Bool
  | .builtin kind, .builtin kind' => kind == kind'
  | .pointer pointee, .pointer pointee' => pointee.same pointee'
  | .constantArray size element, .constantArray size' element' => size == size' && element.same element'
  | .variableArray size element, .variableArray size' element' => size == size' && element.same element'
  | .incompleteArray element, .incompleteArray element' => element.same element'
  | .record kind name, .record kind' name' => kind == kind' && name == name'
  | .enum name, .enum name' => name == name'
  | .functionProto result params variadic, .functionProto result' params' variadic' =>
    result.same result' && ClangQualType.sameAll params params' && variadic == variadic'
  | .functionNoProto result, .functionNoProto result' => result.same result'
  | .other spelling, .other spelling' => spelling == spelling'
  | _, _ => false

def ClangQualType.same : ClangQualType → ClangQualType → Bool
  | ⟨qualifiers, type⟩, ⟨qualifiers', type'⟩ => qualifiers == qualifiers' && type.same type'

def ClangQualType.sameAll : List ClangQualType → List ClangQualType → Bool
  | [], [] => true
  | first :: rest, first' :: rest' => first.same first' && ClangQualType.sameAll rest rest'
  | _, _ => false
end

mutual
theorem ClangType.same_iff : ∀ type other : ClangType, type.same other = true ↔ type = other
  | .builtin _, other => by cases other <;> simp [ClangType.same]
  | .pointer pointee, other => by cases other <;> simp [ClangType.same, ClangQualType.same_iff pointee]
  | .constantArray _ element, other => by
    cases other <;> simp [ClangType.same, ClangQualType.same_iff element]
  | .variableArray _ element, other => by
    cases other <;> simp [ClangType.same, ClangQualType.same_iff element]
  | .incompleteArray element, other => by
    cases other <;> simp [ClangType.same, ClangQualType.same_iff element]
  | .record _ _, other => by cases other <;> simp [ClangType.same]
  | .enum _, other => by cases other <;> simp [ClangType.same]
  | .functionProto result params _, other => by
    cases other <;> simp [ClangType.same, ClangQualType.same_iff result,
      ClangQualType.sameAll_iff params, and_assoc]
  | .functionNoProto result, other => by
    cases other <;> simp [ClangType.same, ClangQualType.same_iff result]
  | .other _, other => by cases other <;> simp [ClangType.same]

theorem ClangQualType.same_iff : ∀ type other : ClangQualType, type.same other = true ↔ type = other
  | ⟨_, type⟩, ⟨_, type'⟩ => by simp [ClangQualType.same, ClangType.same_iff type type']

theorem ClangQualType.sameAll_iff : ∀ types others : List ClangQualType,
    ClangQualType.sameAll types others = true ↔ types = others
  | [], others => by cases others <;> simp [ClangQualType.sameAll]
  | first :: rest, others => by
    cases others <;> simp [ClangQualType.sameAll, ClangQualType.same_iff first,
      ClangQualType.sameAll_iff rest]
end

instance : DecidableEq ClangType := fun type other => decidable_of_iff _ (ClangType.same_iff type other)

/-- A type as the source spells it, possibly through typedefs. -/
structure WrittenType where
  asString : String
  canonicalType : ClangQualType

/-- What Clang's printers give, under the printing policy of the compilation. -/
structure Printing where
  builtinName : String → String
  qualifiers : ClangQualifiers → String
  asString : ClangQualType → String
  usageInDecls : ClangQualType → String

def convertQualifiersToJson (printing : Printing) (qualifiers : ClangQualifiers) : Json :=
  .object [
    ("spelling", .string (printing.qualifiers qualifiers)),
    ("hasQualifiers", .bool qualifiers.hasQualifiers),
    ("hasConst", .bool qualifiers.isConst),
    ("hasVolatile", .bool qualifiers.isVolatile),
    ("hasRestrict", .bool qualifiers.isRestrict),
    ("hasUnaligned", .bool qualifiers.isUnaligned)]

def LangAS.spelling : LangAS → String
  | .default => "none"
  | .openclGlobal => "opencl_global"
  | .openclLocal => "opencl_local"
  | .openclConstant => "opencl_constant"
  | .openclGeneric => "opencl_generic"
  | .openclPrivate => "opencl_private"
  | .cudaConstant => "cuda_constant"
  | .cudaDevice => "cuda_device"
  | .cudaShared => "cuda_shared"
  | .unlisted _ | .target _ => "other"

def LangAS.toTargetAddressSpace : LangAS → Nat
  | .target number => number.toNat
  | _ => 0

def convertAddressSpaceToJson (addressSpace : LangAS) : Json :=
  .object [
    ("addressSpace", .string addressSpace.spelling),
    ("targetAddressSpace", .number addressSpace.toTargetAddressSpace)]

/-- The object of a qualified type around the JSON of its type. -/
def qualTypeObject (printing : Printing) (written : WrittenType) (type : Json) : Json :=
  .object [
    ("typeAsString", .string written.asString),
    ("canonicalTypeAsString", .string (printing.asString written.canonicalType)),
    ("typeUsageInDecls", .string (printing.usageInDecls written.canonicalType)),
    ("qual", convertQualifiersToJson printing written.canonicalType.qualifiers),
    ("type", type),
    ("langAddressSpace", convertAddressSpaceToJson written.canonicalType.qualifiers.addressSpace)]

/-! ### The JSON of a type alone -/

section Alone
variable (printing : Printing)

/-- A component is canonical, so it is spelled like its canonical type. -/
def asComponent (qualType : ClangQualType) : WrittenType := ⟨printing.asString qualType, qualType⟩


mutual
def typeJson : ClangType → Json
  | .builtin kind => .object [("class", .string "builtin"), ("builtinKind", .string kind),
      ("name", .string (printing.builtinName kind))]
  | .pointer pointeeType =>
    .object [("class", .string "pointer"), ("pointeeType", componentJson pointeeType)]
  | .constantArray size elementType => .object [("class", .string "array"),
      ("arrayKind", .string "constant"), ("size", .number size.toNat),
      ("elementType", componentJson elementType)]
  | .variableArray _ elementType => .object [("class", .string "array"),
      ("arrayKind", .string "variable"), ("sizeExpr", .null), ("elementType", componentJson elementType)]
  | .incompleteArray elementType => .object [("class", .string "array"),
      ("arrayKind", .string "incomplete"), ("elementType", componentJson elementType)]
  | .record _ name => .object [("class", .string "record"), ("recordKind", .string "struct"),
      ("name", .string name)]
  | .enum name => .object [("class", .string "enum"), ("name", .string name)]
  | .functionProto returnType paramTypes _ => .object [("class", .string "function"),
      ("functionKind", .string "proto"), ("returnType", componentJson returnType),
      ("paramTypes", .array (componentsJson paramTypes))]
  | .functionNoProto returnType => .object [("class", .string "function"),
      ("functionKind", .string "no_proto"), ("returnType", componentJson returnType)]
  | .other _ => .null

def componentJson : ClangQualType → Json
  | ⟨qualifiers, type⟩ =>
    qualTypeObject printing (asComponent printing ⟨qualifiers, type⟩) (typeJson type)

def componentsJson : List ClangQualType → List Json
  | [] => []
  | qualType :: rest => componentJson qualType :: componentsJson rest
end

def qualTypeJson : Option WrittenType → Json
  | none => .null
  | some written => qualTypeObject printing written (typeJson printing written.canonicalType.type)

end Alone
end CMender.Exporter
