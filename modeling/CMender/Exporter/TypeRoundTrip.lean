import CMender.Exporter.TypeCache
import CMender.Lang.Reading
import CMender.Mending.TypeTraversals

/-! What the mender reads back from the JSON of a type. A union comes back as a
struct and a function without prototype without a parameter list, which the
traversals of the mender dereference; every other tree comes back as it was. -/
namespace CMender.Exporter
open Foundations
open QualTypeJsonConverter (Transparent transparent_empty)

section Reading
variable (printing : Printing)

def ClangQualifiers.transcript (qualifiers : ClangQualifiers) : Qualifiers :=
  ⟨printing.qualifiers qualifiers, qualifiers.hasQualifiers, qualifiers.isConst,
    qualifiers.isVolatile, qualifiers.isRestrict, qualifiers.isUnaligned⟩

def LangAS.transcript (addressSpace : LangAS) : LangAddressSpace :=
  ⟨addressSpace.spelling, addressSpace.toTargetAddressSpace⟩

/-- The object of a qualified type around what its type is read as. -/
def qualTypeRecord (written : WrittenType) (type : Option LangType) : QualType :=
  ⟨written.asString, printing.asString written.canonicalType,
    printing.usageInDecls written.canonicalType, written.canonicalType.qualifiers.transcript printing,
    type, some written.canonicalType.qualifiers.addressSpace.transcript⟩

mutual
/-- What the JSON of a type is read as, when it is read. -/
def ClangType.transcript : ClangType → Option LangType
  | .builtin kind =>
    some (.builtin ((BuiltinKind.toBuiltinKind kind).getD .void) (printing.builtinName kind))
  | .pointer pointeeType => some (.pointer pointeeType.transcript)
  | .constantArray size elementType => some (.array .constant size.toNat elementType.transcript)
  | .variableArray _ elementType => some (.array .variable 0 elementType.transcript)
  | .incompleteArray elementType => some (.array .incomplete 0 elementType.transcript)
  | .record _ name => some (.record name .struct)
  | .enum name => some (.enum name)
  | .functionProto returnType paramTypes _ =>
    some (.function .proto returnType.transcript (some (ClangQualType.transcripts paramTypes)))
  | .functionNoProto returnType => some (.function .noProto returnType.transcript none)
  | .other _ => none

def ClangQualType.transcript : ClangQualType → QualType
  | ⟨qualifiers, type⟩ => qualTypeRecord printing (asComponent printing ⟨qualifiers, type⟩) type.transcript

def ClangQualType.transcripts : List ClangQualType → List QualType
  | [] => []
  | qualType :: rest => qualType.transcript :: ClangQualType.transcripts rest
end

def WrittenType.transcript (written : WrittenType) : QualType :=
  qualTypeRecord printing written (written.canonicalType.type.transcript printing)

end Reading

mutual
/-- The mender has every builtin kind of the type, and each array size fits its long. -/
def ClangType.Readable : ClangType → Prop
  | .builtin kind => (BuiltinKind.toBuiltinKind kind).isSome
  | .constantArray size elementType => size.toNat < 2 ^ 63 ∧ elementType.Readable
  | .pointer component | .variableArray _ component | .incompleteArray component
  | .functionNoProto component => component.Readable
  | .functionProto returnType paramTypes _ =>
    returnType.Readable ∧ ClangQualType.AllReadable paramTypes
  | .record _ _ | .enum _ | .other _ => True

def ClangQualType.Readable : ClangQualType → Prop
  | ⟨_, type⟩ => type.Readable

def ClangQualType.AllReadable : List ClangQualType → Prop
  | [] => True
  | qualType :: rest => qualType.Readable ∧ ClangQualType.AllReadable rest
end

section Reading
variable (printing : Printing)

@[simp] theorem read_convertQualifiersToJson (qualifiers : ClangQualifiers) :
    Qualifiers.read (convertQualifiersToJson printing qualifiers) =
      some (qualifiers.transcript printing) := by
  simp [Qualifiers.read, convertQualifiersToJson, ClangQualifiers.transcript]

theorem LangAS.toTargetAddressSpace_lt (addressSpace : LangAS) :
    addressSpace.toTargetAddressSpace < 2 ^ 31 := by
  cases addressSpace with
  | target number =>
    have bound := number.isLt
    simp only [LangAS.toTargetAddressSpace]
    omega
  | _ => simp [LangAS.toTargetAddressSpace]

@[simp] theorem read_convertAddressSpaceToJson (addressSpace : LangAS) :
    LangAddressSpace.read (convertAddressSpaceToJson addressSpace) = some addressSpace.transcript := by
  have number : Json.integer 32 (.number (addressSpace.toTargetAddressSpace : Int)) =
      some (addressSpace.toTargetAddressSpace : Int) :=
    Json.integer_natCast.mpr ⟨by simpa using addressSpace.toTargetAddressSpace_lt, rfl⟩
  simp [-Option.bind_some, LangAddressSpace.read, convertAddressSpaceToJson, LangAS.transcript,
    Option.bind_eq_some_iff, number]

theorem read_qualTypeObject (written : WrittenType) (type : Json) (result : Option QualType) :
    QualType.read (qualTypeObject printing written type) = some result ↔
      ∃ read, LangType.read type = some read ∧ some (qualTypeRecord printing written read) = result := by
  have qualifiers := read_convertQualifiersToJson printing written.canonicalType.qualifiers
  have addressSpace : Json.nullable LangAddressSpace.read
      (convertAddressSpaceToJson written.canonicalType.qualifiers.addressSpace) =
        some (some written.canonicalType.qualifiers.addressSpace.transcript) := by
    rw [← Option.map_some, ← read_convertAddressSpaceToJson]
    rfl
  simp [qualTypeObject, QualType.read, qualifiers, addressSpace, Option.bind_eq_some_iff, qualTypeRecord]

mutual
/-- The converter's JSON of a type is read exactly when the type is readable. -/
theorem read_typeJson : ∀ (type : ClangType) (result : Option LangType),
    LangType.read (typeJson printing type) = some result ↔
      type.Readable ∧ type.transcript printing = result
  | .builtin kind, result => by
    cases known : BuiltinKind.toBuiltinKind kind with
    | none => simp [typeJson, LangType.read, ClangType.Readable, known]
    | some builtinKind =>
      simp [typeJson, LangType.read, ClangType.Readable, ClangType.transcript, known]
  | .pointer pointeeType, result => by
    simp [typeJson, LangType.read, ClangType.Readable, ClangType.transcript,
      Option.bind_eq_some_iff, read_componentJson pointeeType]
  | .constantArray size elementType, result => by
    simp [-Option.bind_some, typeJson, LangType.read, ClangType.Readable, ClangType.transcript,
      ArrayKind.ofString, Option.bind_eq_some_iff, read_componentJson elementType, and_assoc]
  | .variableArray _ elementType, result => by
    simp [typeJson, LangType.read, ClangType.Readable, ClangType.transcript, ArrayKind.ofString,
      Option.bind_eq_some_iff, read_componentJson elementType]
  | .incompleteArray elementType, result => by
    simp [typeJson, LangType.read, ClangType.Readable, ClangType.transcript, ArrayKind.ofString,
      Option.bind_eq_some_iff, read_componentJson elementType]
  | .record _ _, result => by
    simp [typeJson, LangType.read, ClangType.Readable, ClangType.transcript, RecordKind.toRecordKind]
  | .enum _, result => by
    simp [typeJson, LangType.read, ClangType.Readable, ClangType.transcript]
  | .functionProto returnType paramTypes _, result => by
    simp [typeJson, LangType.read, QualType.readList, ClangType.Readable, ClangType.transcript,
      FunctionTypeKind.ofString, Option.bind_eq_some_iff, read_componentJson returnType,
      readAll_componentsJson paramTypes, and_assoc]
  | .functionNoProto returnType, result => by
    simp [typeJson, LangType.read, QualType.readList, ClangType.Readable, ClangType.transcript,
      FunctionTypeKind.ofString, Option.bind_eq_some_iff, read_componentJson returnType]
  | .other _, result => by simp [typeJson, LangType.read, ClangType.Readable, ClangType.transcript]

theorem read_componentJson : ∀ (qualType : ClangQualType) (result : Option QualType),
    QualType.read (componentJson printing qualType) = some result ↔
      qualType.Readable ∧ some (qualType.transcript printing) = result
  | ⟨qualifiers, type⟩, result => by
    simp [componentJson, read_qualTypeObject, ClangQualType.Readable, ClangQualType.transcript,
      read_typeJson type, and_assoc]

theorem readAll_componentsJson : ∀ (types : List ClangQualType) (result : List QualType),
    QualType.readAll (componentsJson printing types) = some result ↔
      ClangQualType.AllReadable types ∧ ClangQualType.transcripts printing types = result
  | [], result => by
    simp [componentsJson, QualType.readAll, ClangQualType.AllReadable, ClangQualType.transcripts]
  | qualType :: rest, result => by
    simp [componentsJson, QualType.readAll, ClangQualType.AllReadable, ClangQualType.transcripts,
      Option.bind_eq_some_iff, read_componentJson qualType, readAll_componentsJson rest, and_assoc]
end

theorem read_qualTypeJson (written : Option WrittenType) (result : Option QualType) :
    QualType.read (qualTypeJson printing written) = some result ↔
      (∀ type ∈ written, type.canonicalType.type.Readable) ∧
        written.map (·.transcript printing) = result := by
  cases written with
  | none => simp [qualTypeJson, QualType.read]
  | some written =>
    simp [qualTypeJson, read_qualTypeObject, read_typeJson, WrittenType.transcript, and_assoc]

end Reading

/-! ### Type trees across the boundary -/

/-- The kind of record that a tag declares, as far as the mender knows it. -/
def TagKind.recordKind : TagKind → Option RecordKind
  | .struct => some .struct
  | .union => some .union
  | .cxxClass => some .cxxClass
  | .interface | .enum => none

section SameTree
variable (printing : Printing)

mutual
/-- The two trees have the same shape and, at every node, the same names, kinds,
sizes and spellings. Without prototype the parameter list is empty. -/
def SameType : ClangType → Option LangType → Prop
  | .builtin kind, some (.builtin builtinKind name) =>
    BuiltinKind.toBuiltinKind kind = some builtinKind ∧ printing.builtinName kind = name
  | .pointer pointeeType, some (.pointer pointeeType') => SameQualType pointeeType pointeeType'
  | .constantArray size elementType, some (.array .constant size' elementType') =>
    (size.toNat : Int) = size' ∧ SameQualType elementType elementType'
  | .variableArray _ elementType, some (.array .variable _ elementType') =>
    SameQualType elementType elementType'
  | .incompleteArray elementType, some (.array .incomplete _ elementType') =>
    SameQualType elementType elementType'
  | .record tagKind name, some (.record name' recordKind) =>
    name = name' ∧ tagKind.recordKind = some recordKind
  | .enum name, some (.enum name') => name = name'
  | .functionProto returnType paramTypes _, some (.function .proto returnType' (some paramTypes')) =>
    SameQualType returnType returnType' ∧ SameQualTypes paramTypes paramTypes'
  | .functionNoProto returnType, some (.function .noProto returnType' (some [])) =>
    SameQualType returnType returnType'
  | _, _ => False

def SameQualType : ClangQualType → QualType → Prop
  | ⟨qualifiers, type⟩, qualType =>
    qualType = qualTypeRecord printing (asComponent printing ⟨qualifiers, type⟩) qualType.type ∧
      SameType type qualType.type

def SameQualTypes : List ClangQualType → List QualType → Prop
  | [], [] => True
  | qualType :: rest, qualType' :: rest' => SameQualType qualType qualType' ∧ SameQualTypes rest rest'
  | _, _ => False
end

def SameTree (written : WrittenType) (tree : QualType) : Prop :=
  tree = qualTypeRecord printing written tree.type ∧
    SameType printing written.canonicalType.type tree.type

end SameTree

mutual
/-- Built from the builtins that the mender has, pointers, arrays, structs and
unions, enums and functions. -/
def ClangType.Supported : ClangType → Prop
  | .builtin kind => (BuiltinKind.toBuiltinKind kind).isSome
  | .record tagKind _ => tagKind = .struct ∨ tagKind = .union
  | .enum _ => True
  | .constantArray _ component | .variableArray _ component | .incompleteArray component
  | .pointer component | .functionNoProto component => component.Supported
  | .functionProto returnType paramTypes _ =>
    returnType.Supported ∧ ClangQualType.AllSupported paramTypes
  | .other _ => False

def ClangQualType.Supported : ClangQualType → Prop
  | ⟨_, type⟩ => type.Supported

def ClangQualType.AllSupported : List ClangQualType → Prop
  | [] => True
  | qualType :: rest => qualType.Supported ∧ ClangQualType.AllSupported rest
end

mutual
/-- No union and no function without prototype stands in the type, and no array
is longer than a long can say. -/
def ClangType.Preserved : ClangType → Prop
  | .record tagKind _ => tagKind ≠ .union
  | .functionNoProto _ => False
  | .constantArray size elementType => size.toNat < 2 ^ 63 ∧ elementType.Preserved
  | .pointer component | .variableArray _ component | .incompleteArray component => component.Preserved
  | .functionProto returnType paramTypes _ =>
    returnType.Preserved ∧ ClangQualType.AllPreserved paramTypes
  | .builtin _ | .enum _ | .other _ => True

def ClangQualType.Preserved : ClangQualType → Prop
  | ⟨_, type⟩ => type.Preserved

def ClangQualType.AllPreserved : List ClangQualType → Prop
  | [] => True
  | qualType :: rest => qualType.Preserved ∧ ClangQualType.AllPreserved rest
end

section Survival
variable (printing : Printing)

mutual
theorem ClangType.same_transcript_iff : ∀ type : ClangType, type.Supported →
    (type.Readable ∧ SameType printing type (type.transcript printing) ↔ type.Preserved)
  | .builtin kind, supported => by
    obtain ⟨builtinKind, known⟩ := Option.isSome_iff_exists.mp supported
    simp [ClangType.Readable, ClangType.transcript, SameType, ClangType.Preserved, known]
  | .pointer pointeeType, supported => pointeeType.same_transcript_iff supported
  | .constantArray size elementType, supported => by
    have element := elementType.same_transcript_iff supported
    simp only [ClangType.Readable, ClangType.transcript, SameType, ClangType.Preserved, ← element,
      true_and, and_assoc]
  | .variableArray _ elementType, supported => elementType.same_transcript_iff supported
  | .incompleteArray elementType, supported => elementType.same_transcript_iff supported
  | .record tagKind _, supported => by
    obtain rfl | rfl := supported
    · simp [ClangType.Readable, ClangType.transcript, SameType, ClangType.Preserved, TagKind.recordKind]
    · simp [ClangType.Readable, ClangType.transcript, SameType, ClangType.Preserved, TagKind.recordKind]
  | .enum _, _ => by simp [ClangType.Readable, ClangType.transcript, SameType, ClangType.Preserved]
  | .functionProto returnType paramTypes _, supported => by
    have result := returnType.same_transcript_iff supported.1
    have params := ClangQualType.same_transcripts_iff paramTypes supported.2
    simp only [ClangType.Readable, ClangType.transcript, SameType, ClangType.Preserved, ← result,
      ← params]
    exact and_and_and_comm
  | .functionNoProto _, _ => by
    simp [ClangType.transcript, SameType, ClangType.Preserved]

theorem ClangQualType.same_transcript_iff : ∀ qualType : ClangQualType, qualType.Supported →
    (qualType.Readable ∧ SameQualType printing qualType (qualType.transcript printing) ↔
      qualType.Preserved)
  | ⟨_, type⟩, supported => by
    have same := type.same_transcript_iff supported
    simp only [ClangQualType.Readable, ClangQualType.transcript, SameQualType,
      ClangQualType.Preserved, ← same]
    constructor
    · rintro ⟨readable, -, sameType⟩
      exact ⟨readable, sameType⟩
    · rintro ⟨readable, sameType⟩
      exact ⟨readable, rfl, sameType⟩

theorem ClangQualType.same_transcripts_iff : ∀ types : List ClangQualType,
    ClangQualType.AllSupported types →
    (ClangQualType.AllReadable types ∧
      SameQualTypes printing types (ClangQualType.transcripts printing types) ↔
      ClangQualType.AllPreserved types)
  | [], _ => by
    simp [ClangQualType.AllReadable, SameQualTypes, ClangQualType.transcripts,
      ClangQualType.AllPreserved]
  | qualType :: rest, supported => by
    have first := qualType.same_transcript_iff supported.1
    have others := ClangQualType.same_transcripts_iff rest supported.2
    simp only [ClangQualType.AllReadable, ClangQualType.transcripts, SameQualTypes,
      ClangQualType.AllPreserved, ← first, ← others]
    exact and_and_and_comm
end

mutual
theorem ClangType.complete_transcript : ∀ type : ClangType, type.Supported → type.Preserved →
    ∃ tree, type.transcript printing = some tree ∧ tree.complete = true
  | .builtin _, _, _ => ⟨_, rfl, rfl⟩
  | .pointer pointeeType, supported, preserved =>
    ⟨_, rfl, pointeeType.complete_transcript supported preserved⟩
  | .constantArray _ elementType, supported, preserved =>
    ⟨_, rfl, elementType.complete_transcript supported preserved.2⟩
  | .variableArray _ elementType, supported, preserved =>
    ⟨_, rfl, elementType.complete_transcript supported preserved⟩
  | .incompleteArray elementType, supported, preserved =>
    ⟨_, rfl, elementType.complete_transcript supported preserved⟩
  | .record _ _, _, _ => ⟨_, rfl, rfl⟩
  | .enum _, _, _ => ⟨_, rfl, rfl⟩
  | .functionProto returnType paramTypes _, supported, preserved => by
    refine ⟨_, rfl, ?_⟩
    simp only [LangType.complete, Bool.and_eq_true]
    exact ⟨returnType.complete_transcript supported.1 preserved.1,
      ClangQualType.allComplete_transcripts paramTypes supported.2 preserved.2⟩

theorem ClangQualType.complete_transcript : ∀ qualType : ClangQualType, qualType.Supported →
    qualType.Preserved → (qualType.transcript printing).complete = true
  | ⟨_, type⟩, supported, preserved => by
    obtain ⟨tree, isTree, complete⟩ := type.complete_transcript supported preserved
    simp only [ClangQualType.transcript, qualTypeRecord, isTree, QualType.complete, complete]

theorem ClangQualType.allComplete_transcripts : ∀ types : List ClangQualType,
    ClangQualType.AllSupported types → ClangQualType.AllPreserved types →
    QualType.allComplete (ClangQualType.transcripts printing types) = true
  | [], _, _ => rfl
  | qualType :: rest, supported, preserved => by
    simp only [ClangQualType.transcripts, QualType.allComplete, Bool.and_eq_true]
    exact ⟨qualType.complete_transcript supported.1 preserved.1,
      ClangQualType.allComplete_transcripts rest supported.2 preserved.2⟩
end

/-- What a converter has stored after converting some types. -/
def storeAfter (earlier : List (Option WrittenType)) : TypeCaches :=
  earlier.foldl (fun caches written => (convertQualTypeToJson printing written caches).2)
    .empty

theorem transparent_storeAfter (earlier : List (Option WrittenType)) :
    Transparent (treeContext printing) (storeAfter printing earlier) := by
  have kept (caches : TypeCaches) (transparent : Transparent (treeContext printing) caches) :
      Transparent (treeContext printing) (earlier.foldl
        (fun caches written => (convertQualTypeToJson printing written caches).2)
        caches) := by
    induction earlier generalizing caches with
    | nil => exact transparent
    | cons written rest ih =>
      obtain ⟨after, ran, transparentAfter⟩ := convertQualTypeToJson_yields written caches transparent
      apply ih
      change Transparent (treeContext printing) (convertQualTypeToJson printing written caches).2
      rw [ran]
      exact transparentAfter
  exact kept .empty transparent_empty

/-- The JSON that a converter returns for a type after it has converted others. -/
def exportedType (earlier : List (Option WrittenType)) (written : WrittenType) : Json :=
  (convertQualTypeToJson printing (some written) (storeAfter printing earlier)).1

theorem exportedType_eq (earlier : List (Option WrittenType)) (written : WrittenType) :
    exportedType printing earlier written = qualTypeJson printing (some written) := by
  obtain ⟨after, ran, -⟩ := convertQualTypeToJson_yields (some written) _ (transparent_storeAfter printing earlier)
  rw [exportedType, ran]

/-- A supported type comes back from its JSON as the same tree, safe to traverse
with any table, exactly when there is no union and no function without prototype
in it and its array sizes fit. -/
theorem type_tree_survives_iff (earlier : List (Option WrittenType)) (written : WrittenType)
    (supported : written.canonicalType.type.Supported) :
    (∃ tree, QualType.read (exportedType printing earlier written) = some (some tree) ∧
      SameTree printing written tree ∧ ∀ table, tree.NullSafe table) ↔
    written.canonicalType.type.Preserved := by
  rw [← written.canonicalType.type.same_transcript_iff printing supported, exportedType_eq]
  constructor
  · rintro ⟨tree, read, ⟨-, same⟩, -⟩
    obtain ⟨readable, transcribed⟩ := (read_qualTypeJson printing _ _).mp read
    obtain rfl : written.transcript printing = tree := Option.some.inj transcribed
    exact ⟨readable written rfl, same⟩
  · rintro ⟨readable, same⟩
    refine ⟨written.transcript printing, ?_, ⟨rfl, same⟩, ?_⟩
    · refine (read_qualTypeJson printing _ _).mpr ⟨?_, rfl⟩
      intro type isWritten
      rw [← Option.some.inj isWritten]
      exact readable
    · have preserved := (written.canonicalType.type.same_transcript_iff printing supported).mp
        ⟨readable, same⟩
      obtain ⟨tree, isTree, complete⟩ :=
        written.canonicalType.type.complete_transcript printing supported preserved
      apply QualType.nullSafe_of_complete
      simp only [WrittenType.transcript, qualTypeRecord, isTree, QualType.complete, complete]

end Survival

/-- Printers for closed examples, which read no spelling. -/
def blankPrinting : Printing := ⟨fun kind => kind, fun _ => "", fun _ => "", fun _ => ""⟩

/-- `struct s *(int)` -/
def structGetter : WrittenType :=
  ⟨"struct s *(int)", ⟨.none, .functionProto ⟨.none, .pointer ⟨.none, .record .struct "s"⟩⟩
    [⟨.none, .builtin "Int"⟩] false⟩⟩

theorem struct_getter_survives : structGetter.canonicalType.type.Supported ∧
    ∃ tree, QualType.read (exportedType blankPrinting [some structGetter] structGetter) =
        some (some tree) ∧
      SameTree blankPrinting structGetter tree ∧ ∀ table, tree.NullSafe table := by
  have supported : structGetter.canonicalType.type.Supported := ⟨.inl rfl, rfl, trivial⟩
  have preserved : structGetter.canonicalType.type.Preserved := ⟨nofun, trivial, trivial⟩
  exact ⟨supported, (type_tree_survives_iff blankPrinting _ _ supported).mpr preserved⟩

/-- `union u` -/
def unionType : WrittenType := ⟨"union u", ⟨.none, .record .union "u"⟩⟩

/-- `int ()` -/
def unprototyped : WrittenType := ⟨"int ()", ⟨.none, .functionNoProto ⟨.none, .builtin "Int"⟩⟩⟩

/-- A union comes back as a struct. A function type without prototype comes back
without parameter list, and collecting its dependencies dereferences that. -/
theorem union_and_prototype_lost :
    (∃ tree, QualType.read (exportedType blankPrinting [] unionType) = some (some tree) ∧
      ¬ SameTree blankPrinting unionType tree) ∧
    (∃ tree, QualType.read (exportedType blankPrinting [] unprototyped) = some (some tree) ∧
      ∀ table, ¬ tree.NullSafe table) := by
  constructor
  · refine ⟨unionType.transcript blankPrinting, ?_, ?_⟩
    · rw [exportedType_eq, read_qualTypeJson]
      refine ⟨?_, rfl⟩
      rintro _ ⟨⟩
      exact trivial
    · rintro ⟨-, -, kind⟩
      cases kind
  · refine ⟨unprototyped.transcript blankPrinting, ?_, ?_⟩
    · rw [exportedType_eq, read_qualTypeJson]
      refine ⟨?_, rfl⟩
      rintro _ ⟨⟩
      exact rfl
    · intro table safe
      apply safe.added []
      rfl

end CMender.Exporter
