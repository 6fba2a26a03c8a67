import CMender.Exporter.ClangTypes
import CMender.Foundations.Maps
import CMender.Foundations.Memo

/-! The type cache of the exporter, over addresses. Clang's types are objects that point to each
other, and the converter stores the JSON of a type under the address of its object. A stored JSON
is the one that the type has in an empty cache, so the cache cannot be observed. -/
namespace CMender.Exporter
open Foundations Foundations.Memo

/-- A qualified type as Clang passes it: the address of a type, with qualifiers. -/
structure QualTypePtr (Address : Type) where
  qualifiers : ClangQualifiers
  typePtr : Address
deriving DecidableEq

/-- What the visit methods read of a type. -/
inductive TypeNode (Address : Type) where
  | builtin (kind : String)
  | pointer (pointeeType : QualTypePtr Address)
  | constantArray (size : BitVec 64) (elementType : QualTypePtr Address)
  | variableArray (elementType : QualTypePtr Address)
  | incompleteArray (elementType : QualTypePtr Address)
  | record (name : String)
  | enum (name : String)
  | functionProto (returnType : QualTypePtr Address) (paramTypes : List (QualTypePtr Address))
  | functionNoProto (returnType : QualTypePtr Address)
  | other

def TypeNode.components {Address : Type} : TypeNode Address → List (QualTypePtr Address)
  | builtin _ | record _ | enum _ | other => []
  | pointer pointeeType => [pointeeType]
  | constantArray _ elementType | variableArray elementType | incompleteArray elementType => [elementType]
  | functionProto returnType paramTypes => returnType :: paramTypes
  | functionNoProto returnType => [returnType]

/-- The types of a compilation and their printers. A type is built from types that were there
before it. -/
structure ASTContext (Address : Type) where
  node : Address → TypeNode Address
  getCanonicalType : QualTypePtr Address → QualTypePtr Address
  getAsString : QualTypePtr Address → String
  getTypeUsageInDecls : QualTypePtr Address → String
  printing : Printing
  built : WellFounded fun inner outer =>
    ∃ component ∈ (node outer).components, (getCanonicalType component).typePtr = inner

namespace QualTypeJsonConverter
variable {Address : Type} [DecidableEq Address] (context : ASTContext Address)

/-- The JSON of qualified types is stored as well, and never read. -/
structure Caches (Address : Type) where
  trackedTypes : Map Address Json
  trackedQualTypes : Map (QualTypePtr Address) Json

def Caches.empty : Caches Address := ⟨.empty, .empty⟩

def lookupTrackedTypes (typePtr : Address) : StateM (Caches Address) (Option Json) := do
  return (← get).trackedTypes.lookup typePtr

def trackedOrElse (typePtr : Address) (compute : StateM (Caches Address) Json) : StateM (Caches Address) Json :=
  findOr (lookupTrackedTypes typePtr) compute

def track (typePtr : Address) (visited : StateM (Caches Address) Json) : StateM (Caches Address) Json := do
  let typeJson ← visited
  modify fun caches => { caches with trackedTypes := caches.trackedTypes.insert typePtr typeJson }
  return typeJson

/-- The visit method for the class of a type, with the conversion of its components. -/
def visitMethod (node : TypeNode Address)
    (convert : ∀ component ∈ node.components, StateM (Caches Address) Json) : StateM (Caches Address) Json :=
  match node with
  | .builtin kind => return .object [("class", .string "builtin"), ("builtinKind", .string kind),
      ("name", .string (context.printing.builtinName kind))]
  | .pointer pointeeType => do
    return .object [("class", .string "pointer"), ("pointeeType", ← convert pointeeType List.mem_cons_self)]
  | .constantArray size elementType => do
    return .object [("class", .string "array"), ("arrayKind", .string "constant"), ("size", .number size.toNat),
      ("elementType", ← convert elementType List.mem_cons_self)]
  | .variableArray elementType => do
    return .object [("class", .string "array"), ("arrayKind", .string "variable"), ("sizeExpr", .null),
      ("elementType", ← convert elementType List.mem_cons_self)]
  | .incompleteArray elementType => do
    return .object [("class", .string "array"), ("arrayKind", .string "incomplete"),
      ("elementType", ← convert elementType List.mem_cons_self)]
  | .record name => return .object [("class", .string "record"), ("recordKind", .string "struct"),
      ("name", .string name)]
  | .enum name => return .object [("class", .string "enum"), ("name", .string name)]
  | .functionProto returnType paramTypes => do
    let returnType ← convert returnType List.mem_cons_self
    let paramTypes ← paramTypes.attach.mapM fun paramType =>
      convert paramType.val (List.mem_cons_of_mem _ paramType.property)
    return .object [("class", .string "function"), ("functionKind", .string "proto"), ("returnType", returnType),
      ("paramTypes", .array paramTypes)]
  | .functionNoProto returnType => do
    return .object [("class", .string "function"), ("functionKind", .string "no_proto"),
      ("returnType", ← convert returnType List.mem_cons_self)]
  | .other => return .null

def qualTypePtrObject (qualType : QualTypePtr Address) (type : Json) : Json :=
  let canonicalQualType := context.getCanonicalType qualType
  .object [
    ("typeAsString", .string (context.getAsString qualType)),
    ("canonicalTypeAsString", .string (context.getAsString canonicalQualType)),
    ("typeUsageInDecls", .string (context.getTypeUsageInDecls canonicalQualType)),
    ("qual", convertQualifiersToJson context.printing canonicalQualType.qualifiers),
    ("type", type),
    ("langAddressSpace", convertAddressSpaceToJson canonicalQualType.qualifiers.addressSpace)]

/-- The conversion of a type that is not null, with the visit of its canonical type. -/
def convertWith (qualType : QualTypePtr Address) (visited : StateM (Caches Address) Json) :
    StateM (Caches Address) Json := do
  let canonicalQualType := context.getCanonicalType qualType
  let type ← trackedOrElse canonicalQualType.typePtr visited
  let canonicalQualTypeJson := qualTypePtrObject context qualType type
  modify fun caches =>
    { caches with trackedQualTypes := caches.trackedQualTypes.insert canonicalQualType canonicalQualTypeJson }
  return canonicalQualTypeJson

def visit (typePtr : Address) : StateM (Caches Address) Json :=
  trackedOrElse typePtr (track typePtr (visitMethod context (context.node typePtr) fun component _ =>
    convertWith context component (visit (context.getCanonicalType component).typePtr)))
termination_by context.built.wrap typePtr
decreasing_by exact ⟨component, ‹_›, rfl⟩

def convertQualTypeToJson : Option (QualTypePtr Address) → StateM (Caches Address) Json
  | none => return .null
  | some qualType => convertWith context qualType (visit context (context.getCanonicalType qualType).typePtr)

/-! ### The cache cannot be observed -/

/-- The JSON of a type around the JSON of its components. -/
def nodeJson (component : QualTypePtr Address → Json) : TypeNode Address → Json
  | .builtin kind => .object [("class", .string "builtin"), ("builtinKind", .string kind),
      ("name", .string (context.printing.builtinName kind))]
  | .pointer pointeeType => .object [("class", .string "pointer"), ("pointeeType", component pointeeType)]
  | .constantArray size elementType => .object [("class", .string "array"), ("arrayKind", .string "constant"),
      ("size", .number size.toNat), ("elementType", component elementType)]
  | .variableArray elementType => .object [("class", .string "array"), ("arrayKind", .string "variable"),
      ("sizeExpr", .null), ("elementType", component elementType)]
  | .incompleteArray elementType => .object [("class", .string "array"), ("arrayKind", .string "incomplete"),
      ("elementType", component elementType)]
  | .record name => .object [("class", .string "record"), ("recordKind", .string "struct"), ("name", .string name)]
  | .enum name => .object [("class", .string "enum"), ("name", .string name)]
  | .functionProto returnType paramTypes => .object [("class", .string "function"), ("functionKind", .string "proto"),
      ("returnType", component returnType), ("paramTypes", .array (paramTypes.map component))]
  | .functionNoProto returnType => .object [("class", .string "function"), ("functionKind", .string "no_proto"),
      ("returnType", component returnType)]
  | .other => .null

/-- The JSON that a type has in an empty cache. -/
def freshJson (typePtr : Address) : Json := ((visit context typePtr).run Caches.empty).1

def freshComponent (component : QualTypePtr Address) : Json :=
  qualTypePtrObject context component (freshJson context (context.getCanonicalType component).typePtr)

/-- Every stored JSON is the one that its type has in an empty cache. -/
def Transparent (caches : Caches Address) : Prop :=
  ∀ typePtr json, caches.trackedTypes.lookup typePtr = some json → json = freshJson context typePtr

section Cache
variable {context}

theorem transparent_empty : Transparent context (Caches.empty : Caches Address) := by
  intro typePtr json found
  cases Map.lookup_empty.symm.trans found

theorem transparent_insert {caches : Caches Address} (transparent : Transparent context caches) (typePtr : Address) :
    Transparent context
      { caches with trackedTypes := caches.trackedTypes.insert typePtr (freshJson context typePtr) } := by
  intro other json found
  rw [Map.lookup_insert] at found
  split at found
  next same =>
    rw [same]
    exact (Option.some.inj found).symm
  next => exact transparent other json found

omit [DecidableEq Address] in
theorem visitMethod_returns {Inv : Caches Address → Prop} {component : QualTypePtr Address → Json}
    {node : TypeNode Address} {convert : ∀ component ∈ node.components, StateM (Caches Address) Json}
    (each : ∀ part listed, Returns Inv (convert part listed) (component part)) :
    Returns Inv (visitMethod context node convert) (nodeJson context component node) := by
  cases node with
  | builtin kind => exact .pure _
  | pointer pointeeType => exact (each _ _).bind (.pure _)
  | constantArray size elementType => exact (each _ _).bind (.pure _)
  | variableArray elementType => exact (each _ _).bind (.pure _)
  | incompleteArray elementType => exact (each _ _).bind (.pure _)
  | record name => exact .pure _
  | enum name => exact .pure _
  | functionProto returnType paramTypes =>
    have same : paramTypes.attach.map (fun paramType => component paramType.val) = paramTypes.map component := by
      simp
    have params : Returns Inv (paramTypes.attach.mapM fun paramType =>
        convert paramType.val (List.mem_cons_of_mem _ paramType.property)) (paramTypes.map component) := by
      rw [← same]
      exact Returns.mapM fun paramType _ => each paramType.val _
    exact (each _ _).bind (params.bind (.pure _))
  | functionNoProto returnType => exact (each _ _).bind (.pure _)
  | other => exact .pure _

theorem trackedOrElse_returns {typePtr : Address} {compute : StateM (Caches Address) Json}
    (computed : Returns (Transparent context) compute (freshJson context typePtr)) :
    Returns (Transparent context) (trackedOrElse typePtr compute) (freshJson context typePtr) := by
  have finds : ∀ caches : Caches Address,
      lookupTrackedTypes typePtr caches = (caches.trackedTypes.lookup typePtr, caches) := fun _ => rfl
  exact Returns.findOr finds (fun _ transparent stored found => transparent typePtr stored found) computed

theorem convertWith_returns {qualType : QualTypePtr Address} {visited : StateM (Caches Address) Json}
    (visits : Returns (Transparent context) visited (freshJson context (context.getCanonicalType qualType).typePtr)) :
    Returns (Transparent context) (convertWith context qualType visited) (freshComponent context qualType) := by
  refine (trackedOrElse_returns visits).bind ?_
  exact Returns.bind (Returns.modify fun _ transparent => transparent) (Returns.pure _)

/-- A visit returns the same JSON from every transparent cache, and leaves the cache transparent. -/
theorem visit_returns (typePtr : Address) :
    Returns (Transparent context) (visit context typePtr) (freshJson context typePtr) ∧
      freshJson context typePtr = nodeJson context (freshComponent context) (context.node typePtr) := by
  induction typePtr using context.built.induction with
  | _ typePtr ih =>
    have visited : Returns (Transparent context) (visitMethod context (context.node typePtr) fun component _ =>
        convertWith context component (visit context (context.getCanonicalType component).typePtr))
        (nodeJson context (freshComponent context) (context.node typePtr)) :=
      visitMethod_returns fun part listed => convertWith_returns (ih _ ⟨part, listed, rfl⟩).1
    -- In the empty cache nothing is found, and the method is run.
    have fresh : freshJson context typePtr = nodeJson context (freshComponent context) (context.node typePtr) := by
      rw [freshJson, visit]
      exact visited.eq_fst transparent_empty
    refine ⟨?_, fresh⟩
    rw [visit]
    rw [← fresh] at visited
    refine trackedOrElse_returns (visited.bind ?_)
    exact Returns.bind (Returns.modify fun _ transparent => transparent_insert transparent typePtr) (Returns.pure _)

theorem freshJson_eq (typePtr : Address) :
    freshJson context typePtr = nodeJson context (freshComponent context) (context.node typePtr) :=
  (visit_returns typePtr).2

/-- What a call returns does not depend on the calls before it. -/
theorem convertQualTypeToJson_returns (qualType : Option (QualTypePtr Address)) :
    Returns (Transparent context) (convertQualTypeToJson context qualType)
      ((convertQualTypeToJson context qualType).run Caches.empty).1 := by
  have returns : ∃ json, Returns (Transparent context) (convertQualTypeToJson context qualType) json := by
    cases qualType with
    | none => exact ⟨Json.null, .pure _⟩
    | some qualType => exact ⟨_, convertWith_returns (visit_returns _).1⟩
  obtain ⟨json, returned⟩ := returns
  have same : ((convertQualTypeToJson context qualType).run Caches.empty).1 = json := returned.eq_fst transparent_empty
  rwa [same]

end Cache

/-- Each call of one converter returns what a converter with empty caches returns for the same type. -/
theorem cached_conversions (calls : List (Option (QualTypePtr Address))) :
    ((calls.mapM (convertQualTypeToJson context)).run Caches.empty).1 =
      calls.map fun qualType => ((convertQualTypeToJson context qualType).run Caches.empty).1 := by
  have returns : Returns (Transparent context) (calls.mapM (convertQualTypeToJson context)) _ :=
    Returns.mapM fun qualType _ => convertQualTypeToJson_returns qualType
  exact returns.eq_fst transparent_empty

end QualTypeJsonConverter

/-! ### Types as trees -/

section Trees
variable (printing : Printing)
open QualTypeJsonConverter

/-- A tree as an address: the type, and how the source spells it when it is no canonical type. -/
abbrev TreeAddress := ClangType × Option String

def treePtr (qualType : ClangQualType) : QualTypePtr TreeAddress := ⟨qualType.qualifiers, (qualType.type, none)⟩

def writtenPtr (written : WrittenType) : QualTypePtr TreeAddress :=
  ⟨written.canonicalType.qualifiers, (written.canonicalType.type, some written.asString)⟩

def treeNode : ClangType → TypeNode TreeAddress
  | .builtin kind => .builtin kind
  | .pointer pointeeType => .pointer (treePtr pointeeType)
  | .constantArray size elementType => .constantArray size (treePtr elementType)
  | .variableArray _ elementType => .variableArray (treePtr elementType)
  | .incompleteArray elementType => .incompleteArray (treePtr elementType)
  | .record _ name => .record name
  | .enum name => .enum name
  | .functionProto returnType paramTypes _ => .functionProto (treePtr returnType) (paramTypes.map treePtr)
  | .functionNoProto returnType => .functionNoProto (treePtr returnType)
  | .other _ => .other

theorem sizeOf_treeNode {type : ClangType} {component : QualTypePtr TreeAddress}
    (listed : component ∈ (treeNode type).components) : sizeOf component.typePtr.1 < sizeOf type := by
  have inside (qualType : ClangQualType) : sizeOf (treePtr qualType).typePtr.1 < sizeOf qualType := by
    obtain ⟨qualifiers, type⟩ := qualType
    simp only [treePtr, ClangQualType.mk.sizeOf_spec]
    omega
  have single {qualType : ClangQualType} {size : Nat} (listed : component ∈ [treePtr qualType])
      (within : sizeOf qualType < size) : sizeOf component.typePtr.1 < size := by
    rw [List.mem_singleton.mp listed]
    exact (inside qualType).trans within
  cases type with
  | builtin kind => cases listed
  | record kind name => cases listed
  | enum name => cases listed
  | other spelling => cases listed
  | pointer pointeeType => exact single listed (by simp)
  | constantArray size elementType => exact single listed (by simp)
  | variableArray sizeExpr elementType => exact single listed (by simp)
  | incompleteArray elementType => exact single listed (by simp)
  | functionProto returnType paramTypes isVariadic =>
    rw [ClangType.functionProto.sizeOf_spec]
    rcases List.mem_cons.mp listed with rfl | behind
    · have smaller := inside returnType
      omega
    · obtain ⟨paramType, isParam, rfl⟩ := List.mem_map.mp behind
      have smaller := inside paramType
      have within := List.sizeOf_lt_of_mem isParam
      omega
  | functionNoProto returnType => exact single listed (by simp)

/-- The trees as the types of a compilation, each with one address. -/
def treeContext : ASTContext TreeAddress where
  node typePtr := treeNode typePtr.1
  getCanonicalType qualType := ⟨qualType.qualifiers, (qualType.typePtr.1, none)⟩
  getAsString qualType := qualType.typePtr.2.getD (printing.asString ⟨qualType.qualifiers, qualType.typePtr.1⟩)
  getTypeUsageInDecls qualType := printing.usageInDecls ⟨qualType.qualifiers, qualType.typePtr.1⟩
  printing := printing
  built := by
    refine Subrelation.wf ?_ (measure fun typePtr : TreeAddress => sizeOf typePtr.1).wf
    rintro _ outer ⟨component, listed, rfl⟩
    have smaller : sizeOf component.typePtr.1 < sizeOf outer.1 := sizeOf_treeNode listed
    exact smaller

abbrev TypeCaches := Caches TreeAddress

/-- The converter for types as trees. -/
def convertQualTypeToJson (written : Option WrittenType) : StateM TypeCaches Json :=
  QualTypeJsonConverter.convertQualTypeToJson (treeContext printing) (written.map writtenPtr)

/-- The program returns the value, whatever types were converted before it. -/
abbrev Yields {α : Type} (program : StateM TypeCaches α) (value : α) : Prop :=
  Returns (Transparent (treeContext printing)) program value

variable {printing}

mutual
theorem freshJson_tree : ∀ type : ClangType, freshJson (treeContext printing) (type, none) = typeJson printing type
  | .builtin _ => freshJson_eq _
  | .pointer pointeeType => by
    rw [freshJson_eq, typeJson, ← freshComponent_tree pointeeType]
    rfl
  | .constantArray _ elementType => by
    rw [freshJson_eq, typeJson, ← freshComponent_tree elementType]
    rfl
  | .variableArray _ elementType => by
    rw [freshJson_eq, typeJson, ← freshComponent_tree elementType]
    rfl
  | .incompleteArray elementType => by
    rw [freshJson_eq, typeJson, ← freshComponent_tree elementType]
    rfl
  | .record _ _ => freshJson_eq _
  | .enum _ => freshJson_eq _
  | .functionProto returnType paramTypes _ => by
    rw [freshJson_eq, typeJson, ← freshComponent_tree returnType, ← freshComponents_tree paramTypes]
    rfl
  | .functionNoProto returnType => by
    rw [freshJson_eq, typeJson, ← freshComponent_tree returnType]
    rfl
  | .other _ => freshJson_eq _

theorem freshComponent_tree : ∀ qualType : ClangQualType,
    freshComponent (treeContext printing) (treePtr qualType) = componentJson printing qualType
  | ⟨_, type⟩ => by
    rw [componentJson, ← freshJson_tree type]
    rfl

theorem freshComponents_tree : ∀ qualTypes : List ClangQualType,
    (qualTypes.map treePtr).map (freshComponent (treeContext printing)) = componentsJson printing qualTypes
  | [] => rfl
  | qualType :: rest => by
    rw [componentsJson, ← freshComponent_tree qualType, ← freshComponents_tree rest]
    rfl
end

/-- Whatever was converted before, a conversion returns the JSON of its type alone. -/
theorem convertQualTypeToJson_yields (written : Option WrittenType) :
    Yields printing (convertQualTypeToJson printing written) (qualTypeJson printing written) := by
  cases written with
  | none => exact .pure _
  | some written =>
    have same : freshComponent (treeContext printing) (writtenPtr written) = qualTypeJson printing (some written) := by
      obtain ⟨asString, qualifiers, type⟩ := written
      rw [qualTypeJson, ← freshJson_tree]
      rfl
    rw [← same]
    exact convertWith_returns (visit_returns _).1

end Trees
end CMender.Exporter
