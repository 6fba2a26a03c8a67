import CMender.Mending.Locks
import CMender.Mending.OrdinaryNames

/-! Typedef names in the texts of typedefs. The text of a definition is built apart
from the type's structure, and only the structure is searched for dependencies; a
table is safe as long as no registered typedef's text names another controlled
typedef. -/
namespace CMender
open Foundations Foundations.Execution MendingState

section Texts

def tagKeywords : List String := ["struct", "union", "enum"]

/-- Words of a C type that are no names. -/
def typeKeywords : List String :=
  ["void", "char", "short", "int", "long", "float", "double", "signed", "unsigned", "_Bool", "_Complex",
    "_Atomic", "const", "volatile", "restrict", "__restrict"]

/-- The identifiers among the words of a declaration that name typedefs: no keyword, no
tag, and not the word the declared name is put in for. -/
def typeNamesFrom (afterTagKeyword : Bool) : List String → List String
  | [] => []
  | word :: rest =>
    if tagKeywords.contains word then typeNamesFrom true rest
    else if afterTagKeyword || typeKeywords.contains word || word == "diag_exporter_id" ||
        !Text.isIdentifierChars word.toList then typeNamesFrom false rest
    else word :: typeNamesFrom false rest

/-- The typedef names that a definition with this type uses. -/
def QualType.usedTypes (type : QualType) : List String := typeNamesFrom false (Text.words type.typeUsageInDecls)

example : (QualType.spelled "" "foo_t *(*diag_exporter_id)(struct s, unsigned int)" (.enum "")).usedTypes =
    ["foo_t"] := by decide

theorem typeNamesFrom_declared (afterTagKeyword : Bool) :
    typeNamesFrom afterTagKeyword ["diag_exporter_id"] = [] := by
  cases afterTagKeyword <;> decide

theorem typeNamesFrom_struct (afterTagKeyword : Bool) (rest : List String) :
    typeNamesFrom afterTagKeyword ("struct" :: rest) = typeNamesFrom true rest := by
  simp [typeNamesFrom, tagKeywords]

/-- A number is no name, wherever it stands. -/
theorem typeNamesFrom_number (afterTagKeyword : Bool) (number : Nat) :
    typeNamesFrom afterTagKeyword [number.repr, "diag_exporter_id"] = [] := by
  have noName : Text.isIdentifierChars number.repr.toList = false := by
    cases chars : number.repr.toList with
    | nil => rfl
    | cons c rest =>
      have digit : c.isDigit = true := Text.repr_digits number c (by simp [chars])
      simp [Text.isIdentifierChars, Text.isLetter_of_digit digit]
  unfold typeNamesFrom
  split
  · exact typeNamesFrom_declared true
  · simp only [noName, Bool.not_false, Bool.or_true, if_true]
    exact typeNamesFrom_declared false

/-- A generated tag follows its keyword, and what is left of it with a negative counter
is a number. -/
theorem usedTypes_structType (count : Nat) :
    (structType (MendingTypeNameGenerator.tagTypeName count)).usedTypes = [] := by
  have spelled : "struct " ++ MendingTypeNameGenerator.tagTypeName count ++ " diag_exporter_id" =
      "struct" ++ String.ofList (' ' :: (MendingTypeNameGenerator.tagTypeName count ++
        String.ofList (' ' :: "diag_exporter_id".toList)).toList) := by
    apply String.toList_injective
    simp
  have usage : Text.words (structType (MendingTypeNameGenerator.tagTypeName count)).typeUsageInDecls =
      "struct" :: (Text.words (MendingTypeNameGenerator.tagTypeName count) ++ ["diag_exporter_id"]) := by
    rw [structType, QualType.spelled, spelled, Text.words_append_separator (by decide),
      Text.words_append_separator (by decide)]
    rfl
  rw [QualType.usedTypes, usage, typeNamesFrom_struct]
  have letters : MendingTypeNameGenerator.cmenderTagTypeNamePrefix.toList.all Text.isWordChar = true := by
    decide
  rcases Text.words_append_int (List.all_eq_true.mp letters) (by decide) (BitVec.ofNat 32 count).toInt
    with word | ⟨number, words⟩
  · rw [MendingTypeNameGenerator.tagTypeName, MendingTypeNameGenerator.counterText, word]
    simp only [List.cons_append, List.nil_append, typeNamesFrom, Bool.true_or, if_true]
    split
    · exact typeNamesFrom_declared true
    · exact typeNamesFrom_declared false
  · rw [MendingTypeNameGenerator.tagTypeName, MendingTypeNameGenerator.counterText, words]
    change typeNamesFrom false [number.repr, "diag_exporter_id"] = []
    exact typeNamesFrom_number false number

theorem usedTypes_int : intUnqualifiedType.usedTypes = [] := by decide

theorem usedTypes_operandType {truth type : QualType} {op : String} {left : Bool}
    (written : operandType truth op left = some type) : type.usedTypes = [] := by
  rcases operandType_int written with rfl | rfl
  · decide
  · exact usedTypes_int

end Texts

namespace MendingTable

/-- Of the controlled typedefs, the text of a typedef names at most the typedef itself. -/
def TextsApart (table : MendingTable) : Prop :=
  ∀ key type, table.definitionType key = some type → ∀ name ∈ type.usedTypes,
    table.typedefs.containsKey name = true → name = key

end MendingTable

/-- The types handlers write that the mender does not spell itself, and the typedefs
whose definitions they become. -/
inductive Writes (s : MendingState) (diag : Diagnostic) : String → QualType → Prop where
  | convert {lhs rhs : QualType} {left : Bool} {symbol : Ref TypedefSymbol}
      (id : diag.diagnosticID = .errTypecheckConvertIncompatible)
      (args : conversionArgs diag.args = some (lhs, rhs))
      (sides : oneSided s.table lhs rhs = some (left, symbol)) :
      Writes s diag (s.table.symbolName symbol) (if left then lhs else rhs)
  | convertToLocked {lhs rhs : QualType} {symbol locked : Ref TypedefSymbol}
      (id : diag.diagnosticID = .errTypecheckConvertIncompatible)
      (args : conversionArgs diag.args = some (lhs, rhs))
      (sides : bothControlled s.table lhs rhs = some (locked, symbol) ∨
        bothControlled s.table lhs rhs = some (symbol, locked))
      (lock : s.table.isLocked locked = true) (free : s.table.isLocked symbol = false) :
      Writes s diag (s.table.symbolName symbol) (s.table.symbolType locked)
  | pointMember {type : QualType} {symbol : Ref TypedefSymbol}
      (id : diag.diagnosticID = .errTypecheckMemberReferenceSuggestion)
      (args : typeAndIntArgs diag.args = some (type, 1))
      (found : s.table.typedefs.lookup type.typeAsString = some symbol) :
      Writes s diag (s.table.symbolName symbol) (memberPointerType
        (s.table.typedefName (s.table.typedefType symbol)) type.canonicalTypeAsString (s.table.symbolType symbol))
  | subscript {base sub key : String} {symbol : Symbol} {type : Ref TypedefType} {registered : Ref TypedefSymbol}
      (texts : subscriptTexts diag = some (base, sub))
      (mapped : s.table.arraySubscriptToCorrespondingSymbol.lookup base = some symbol)
      (typed : symbol.subscriptedType = some type) (found : s.table.typedefs.lookup key = some registered)
      (same : s.table.typedefType registered = type) : Writes s diag key (s.table.aliasedType type).pointerTo
  | subscriptVariable {base sub name key : String} {symbol : VariableSymbol} {registered : Ref TypedefSymbol}
      (texts : subscriptTexts diag = some (base, sub))
      (unmapped : s.table.arraySubscriptToCorrespondingSymbol.lookup base = none)
      (identifier : matchIdentifier base = some name) (declared : s.table.variables.lookup name = some symbol)
      (found : s.table.typedefs.lookup key = some registered)
      (same : s.table.typedefType registered = symbol.type) :
      Writes s diag key (aliasPointerType s.nextAlias (s.table.aliasedType symbol.type))
  | subscriptAlias {base sub name : String} {symbol : VariableSymbol}
      (texts : subscriptTexts diag = some (base, sub))
      (unmapped : s.table.arraySubscriptToCorrespondingSymbol.lookup base = none)
      (identifier : matchIdentifier base = some name) (declared : s.table.variables.lookup name = some symbol) :
      Writes s diag s.nextAlias (s.table.aliasedType symbol.type)

section Effects
variable {s t : MendingState} {diag : Diagnostic}

/-- The definition has the type it had, one whose text names nothing, or one that
was written from elsewhere. -/
def Explained (s : MendingState) (diag : Diagnostic) (key : String) (type : QualType) : Prop :=
  s.table.definitionType key = some type ∨ type.usedTypes = [] ∨ Writes s diag key type

section Definitions
variable {key : String} {type written : QualType}

theorem explained_settle (formed : s.table.WellFormed) {name : String} {symbol : Ref TypedefSymbol}
    (registered : s.table.typedefs.lookup name = some symbol)
    (found : (s.table.settle symbol written).definitionType key = some type)
    (explained : written.usedTypes = [] ∨ Writes s diag (s.table.symbolName symbol) written) :
    Explained s diag key type := by
  have known := (formed.typedefs name symbol registered).1
  rcases MendingTable.definitionType_settle formed known found with before | ⟨rfl, rfl⟩
  · exact .inl before
  · exact .inr explained

theorem explained_createTypedef {table : MendingTable} (formed : table.WellFormed)
    (same : ∀ key, table.definitionType key = s.table.definitionType key) {name : String}
    {permittedTypes : List TypeKind}
    (found : (table.createTypedef name written permittedTypes).definitionType key = some type)
    (explained : written.usedTypes = [] ∨ Writes s diag name written) : Explained s diag key type := by
  rw [MendingTable.definitionType_createTypedef formed] at found
  split at found
  · rename_i isName
    obtain rfl := Option.some.inj found
    rw [isName]
    exact .inr explained
  · exact .inl ((same key).symm.trans found)

/-- An aliased type is written past the typedef that is registered for it. -/
theorem explained_setAliasedType {aliased : Ref TypedefType}
    (found : (s.table.setAliasedType aliased written).definitionType key = some type)
    (explained : ∀ symbol, s.table.typedefs.lookup key = some symbol →
      s.table.typedefType symbol = aliased → written.usedTypes = [] ∨ Writes s diag key written) :
    Explained s diag key type := by
  rcases MendingTable.definitionType_setAliasedType found with before | ⟨rfl, symbol, known, same⟩
  · exact .inl before
  · exact .inr (explained symbol known same)

/-- A type that is older than a new typedef belongs to a typedef that was there before. -/
theorem MendingTable.registered_of_createTypedef {table : MendingTable} (formed : table.WellFormed)
    {name : String} {qualType : QualType} {symbol : Ref TypedefSymbol} {aliased : Ref TypedefType}
    (older : table.typedefTypes.Allocated aliased)
    (known : (table.createTypedef name qualType []).typedefs.lookup key = some symbol)
    (same : (table.createTypedef name qualType []).typedefType symbol = aliased) :
    table.typedefs.lookup key = some symbol ∧ table.typedefType symbol = aliased := by
  rw [typedefs_createTypedef, Map.lookup_insert] at known
  split at known
  · obtain rfl := Option.some.inj known
    rw [typedefType_createTypedef] at same
    exact absurd same.symm older.ne_next
  · have read : (table.createTypedef name qualType []).typedefType symbol = table.typedefType symbol :=
      typedefType_createTypedef_of_allocated (formed.typedefs _ symbol known).1
    exact ⟨known, read.symm.trans same⟩

end Definitions

theorem Effect.definitionType (formed : s.table.WellFormed) (effect : Effect s diag t) {key : String}
    {type : QualType} (found : t.table.definitionType key = some type) : Explained s diag key type := by
  cases effect with
  | idle | header | defineRecord | defineEnum | keepMember => exact .inl found
  | declareFunction => exact explained_createTypedef formed (fun _ => rfl) found (.inl (by decide))
  | declareVariable | declareTypedef | addMember =>
    exact explained_createTypedef formed.createRecord (fun _ => rfl) found (.inl (usedTypes_structType _))
  | convert id args sides =>
    obtain ⟨name, known⟩ := MendingTable.oneSided_registered sides
    exact explained_settle formed known found (.inr (.convert id args sides))
  | convertToLocked id args sides lock free =>
    obtain ⟨_, name, known⟩ := MendingTable.bothControlled_registered_either sides
    exact explained_settle formed known found (.inr (.convertToLocked id args sides lock free))
  | adjustOperand id args operator sides written =>
    obtain ⟨name, known⟩ := MendingTable.oneSided_registered sides
    exact explained_settle formed known found (.inl (usedTypes_operandType written))
  | adjustToLocked id args operator sides lock free written =>
    obtain ⟨_, name, known⟩ := MendingTable.bothControlled_registered_either sides
    exact explained_settle formed known found (.inl (usedTypes_operandType written))
  | settleBoth args sides lhsFree rhsFree =>
    obtain ⟨⟨_, lhsKnown⟩, rhsName, rhsKnown⟩ := MendingTable.bothControlled_registered sides
    have allocated := (formed.typedefs rhsName _ rhsKnown).1
    rcases MendingTable.definitionType_settle formed.settle allocated found with before | ⟨rfl, _⟩
    · exact explained_settle formed lhsKnown before (.inl usedTypes_int)
    · exact .inr (.inl usedTypes_int)
  | pointMember id args known =>
    exact explained_settle formed known found (.inr (.pointMember id args known))
  | subscript texts mapped typed =>
    apply explained_setAliasedType found
    intro symbol known same
    exact .inr (.subscript texts mapped typed known same)
  | @subscriptVariable _ _ name symbol texts unmapped identifier declared =>
    rcases MendingTable.definitionType_setAliasedType found with before | ⟨rfl, other, known, same⟩
    · exact explained_createTypedef formed (fun _ => rfl) before
        (.inr (.subscriptAlias texts unmapped identifier declared))
    · have older := formed.variableTypes name symbol declared
      obtain ⟨known, same⟩ := MendingTable.registered_of_createTypedef formed older known same
      exact .inr (.inr (.subscriptVariable texts unmapped identifier declared known same))
  | convertSubscript id marked declared =>
    apply explained_setAliasedType found
    intro _ _ _
    exact .inl (by decide)
  | overwrite target known =>
    apply explained_setAliasedType found
    intro _ _ _
    exact .inl usedTypes_int
  | structArgument target known =>
    apply explained_setAliasedType found
    intro _ _ _
    exact .inl (usedTypes_structType _)

/-- No text that the handler writes names another controlled typedef or one the handler
declares, and no text that is there names one the handler declares. -/
structure KeepsTextsApart (s : MendingState) (diag : Diagnostic) : Prop where
  written : ∀ key type, Writes s diag key type → ∀ name ∈ type.usedTypes,
    s.table.typedefs.containsKey name = true ∨ NewName s diag name .typedef → name = key
  declared : ∀ name, NewName s diag name .typedef → ∀ key type, s.table.definitionType key = some type →
    name ∈ type.usedTypes → name = key

theorem Effect.textsApart (formed : s.table.WellFormed) (effect : Effect s diag t)
    (keeps : KeepsTextsApart s diag) (apart : s.table.TextsApart) : t.table.TextsApart := by
  intro key type found name used controlled
  have controlled : s.table.typedefs.containsKey name = true ∨ NewName s diag name .typedef :=
    (effect.declared.names name .typedef).mp controlled
  rcases effect.definitionType formed found with before | plain | writes
  · rcases controlled with old | new
    · exact apart key type before name used old
    · exact keeps.declared name new key type before used
  · rw [plain] at used
    cases used
  · exact keeps.written key type writes name used controlled

/-- The handler is entered after the diagnostic was recorded, which changes no type. -/
theorem Writes.of_recorded {key : String} {type : QualType} (writes : Writes (s.recorded diag) diag key type) :
    Writes s diag key type := by
  cases writes with
  | convert id args sides => exact .convert id args sides
  | convertToLocked id args sides lock free => exact .convertToLocked id args sides lock free
  | pointMember id args found => exact .pointMember id args found
  | subscript texts mapped typed found same => exact .subscript texts mapped typed found same
  | subscriptVariable texts unmapped identifier declared found same =>
    exact .subscriptVariable texts unmapped identifier declared found same
  | subscriptAlias texts unmapped identifier declared => exact .subscriptAlias texts unmapped identifier declared

theorem KeepsTextsApart.recorded (keeps : KeepsTextsApart s diag) : KeepsTextsApart (s.recorded diag) diag :=
  ⟨fun key type writes => keeps.written key type writes.of_recorded, keeps.declared⟩

end Effects

section Runs
variable {includePath : String} {s t : MendingState} {diag : Diagnostic} {diags : List Diagnostic}

/-- A step whose handler keeps the texts apart. -/
def TextStep (includePath : String) (s : MendingState) (diag : Diagnostic) (t : MendingState) : Prop :=
  Step includePath s diag t ∧ KeepsTextsApart s diag

theorem textsApart_of_reaches {names : MendingTypeNameGenerator} {files : FileSystem}
    (run : Reaches (TextStep includePath) (.initial names files) diags t) : t.table.TextsApart := by
  have both : t.table.WellFormed ∧ t.table.TextsApart := by
    refine run.invariant (P := fun s => s.table.WellFormed ∧ s.table.TextsApart) ?_ ⟨MendingTable.wellFormed_empty, ?_⟩
    · rintro s diag t ⟨formed, apart⟩ ⟨step, keeps⟩
      exact ⟨step.wellFormed formed, step.effect.textsApart formed.recorded keeps.recorded apart⟩
    · intro key type found
      cases found
  exact both.2

end Runs
end CMender
