import CMender.Exporter.Spelling

/-! What the mender takes the spelling of an exported type for. Two different spellings
count as an alias, whatever the difference is, and a tag is read off the first two words,
so qualifiers and typedefs inside a type mislead it. -/
namespace CMender.Exporter
open Foundations Foundations.Text

namespace SpelledType
variable {language : Keywords}

/-- The name a type should be given. -/
def NamedRightly : SpelledType language → Option TypeName → Prop
  | .tag _ kind name, found => ∃ named, found = some named ∧ named.kind = .tag ∧
      named.identifier = String.ofList name.chars ∧ named.tagKind = some kind
  | .typedefName _ name _, found => ∃ named, found = some named ∧ named.kind = .typedefAlias ∧
      named.identifier = String.ofList name.chars
  | .pointer .., found | .array .., found | .function .., found | .functionNoProto _, found => found = none
  | .builtin .., _ | .other .., _ => True

/-- Tags and typedefs without qualifiers, and derived types in whose text there is
neither a typedef nor a qualified parameter. Types that are not described have no name. -/
def PlainlySpelled : SpelledType language → Prop
  | .builtin .. => True
  | .tag quals .. | .typedefName quals .. => quals = .none
  | .pointer _ component | .array _ component | .functionNoProto component => component.sugared = false
  | .function result params _ => result.sugared = false ∧ someSugared params = false
  | .other .. => False

/-- The texts of a type and of its canonical type are equal exactly without sugar. -/
theorem print_eq_canonical {builtinName : String → String} (builtins : SpellsBuiltins language builtinName)
    (type : SpelledType language) :
    type.print builtinName [] = type.canonical.print builtinName [] ↔ type.sugared = false := by
  constructor
  · intro same
    by_contra sugar
    exact (type.apart_print builtins false [] [] delimited_nil delimited_nil (.inl (by simpa using sugar))
      (.inl rfl)).ne same
  · intro plain
    rw [type.canonical_eq plain]

section Exported
variable {printing : Printing} {type : SpelledType language} {qualType : QualType}

/-- A type as the mender has read it. -/
structure ReadBack (printing : Printing) (type : SpelledType language) (qualType : QualType) : Prop where
  typeAsString : qualType.typeAsString = String.ofList (type.print printing.builtinName [])
  canonicalTypeAsString :
    qualType.canonicalTypeAsString = String.ofList (type.canonical.print printing.builtinName [])
  structural : qualType.type = type.canonical.toClang.type.transcript printing

theorem isAliased_eq (builtins : SpellsBuiltins language printing.builtinName)
    (back : ReadBack printing type qualType) : qualType.isAliased = type.sugared := by
  rw [QualType.isAliased, back.typeAsString, back.canonicalTypeAsString]
  cases sugar : type.sugared with
  | false =>
    rw [(print_eq_canonical builtins type).mpr sugar]
    exact bne_self_eq_false _
  | true =>
    have different := (print_eq_canonical builtins type).not.mpr (by rw [sugar]; exact Bool.noConfusion)
    exact bne_iff_ne.mpr fun same => different (String.ofList_injective same)

/-- An alias is named by its whole text. -/
theorem typeName_sugared (builtins : SpellsBuiltins language printing.builtinName)
    (back : ReadBack printing type qualType) (sugar : type.sugared = true) :
    qualType.typeName = .ok (some (.typedefAlias qualType.typeAsString)) := by
  rw [QualType.typeName, isAliased_eq builtins back, sugar, if_pos rfl]

theorem typeName_plain (builtins : SpellsBuiltins language printing.builtinName)
    (back : ReadBack printing type qualType) (plain : type.sugared = false) {structural : LangType}
    (described : type.canonical.toClang.type.transcript printing = some structural) :
    qualType.typeName =
      if structural.isBuiltinType then .ok (some (.builtin qualType.typeAsString))
      else if structural.isTagType then (TypeName.tag qualType.typeAsString).map some
      else .ok none := by
  rw [QualType.typeName, isAliased_eq builtins back, plain, if_neg Bool.false_ne_true, back.structural, described]
  change (if structural.isBuiltinType then _ else if structural.isTagType then _ else _) = _
  cases TypeName.tag qualType.typeAsString <;> rfl

theorem tag_kind {text : String} {typeName : TypeName} (tagged : TypeName.tag text = .ok typeName) :
    ∃ kind, TagTypeKind.fromString ((split ' ' text).headD "") = .ok kind := by
  unfold TypeName.tag at tagged
  dsimp only at tagged
  split at tagged
  · cases tagged
  · obtain ⟨kind, known, _⟩ := Execution.except_bind_ok.mp tagged
    exact ⟨kind, known⟩

theorem fromString_qualifier {word : List Char} (qualifier : word ∈ qualifierWords) {kind : TagTypeKind} :
    TagTypeKind.fromString (String.ofList word) ≠ .ok kind := by
  have all : ∀ word ∈ qualifierWords, (TagTypeKind.fromString (String.ofList word)).isOk = false := by decide
  intro known
  have fails := all word qualifier
  rw [known] at fails
  cases fails

/-- A tag is named by its keyword and its identifier, and by nothing in front of them. -/
theorem tag_rightly_iff (quals : Cvr) (kind : TagTypeKind) (name : Name language) {text : String}
    (isText : text = String.ofList (inFront quals.words (tagWord kind ++ ' ' :: name.chars))) :
    (∃ found, (TypeName.tag text).map some = .ok found ∧ (SpelledType.tag quals kind name).NamedRightly found) ↔
      quals = .none := by
  constructor
  · rintro ⟨found, tagged, _⟩
    by_contra qualified
    have some : quals.words ≠ [] := fun none => qualified (Cvr.words_nil none)
    obtain ⟨first, rest, isWords⟩ := List.exists_cons_of_ne_nil some
    have qualifies : first ∈ qualifierWords := quals.words_qualify first (by rw [isWords]; exact List.mem_cons_self)
    obtain ⟨typeName, tagged⟩ : ∃ typeName, TypeName.tag text = .ok typeName := by
      cases known : TypeName.tag text with
      | ok typeName => exact ⟨typeName, rfl⟩
      | error thrown =>
        rw [known] at tagged
        cases tagged
    obtain ⟨tagKind, known⟩ := tag_kind tagged
    rw [isText, isWords] at known
    have firstWord :
        (split ' ' (String.ofList (inFront (first :: rest) (tagWord kind ++ ' ' :: name.chars)))).headD "" =
          String.ofList first :=
      headD_split (blank_notMem (qualifierWord_letters qualifies)) (qualifierWord_nonempty qualifies)
    rw [firstWord] at known
    exact fromString_qualifier qualifies known
  · rintro rfl
    have words : split ' ' text = [String.ofList (tagWord kind), String.ofList name.chars] := by
      rw [isText]
      exact split_two (blank_notMem (tagWord_letters kind))
        (blank_notMem (isIdentifierChars_letters name.identifier)) name.nonempty
    have isKind : TagTypeKind.fromString (String.ofList (tagWord kind)) = .ok kind := by cases kind <;> rfl
    refine ⟨some ⟨String.ofList name.chars, text, .tag, some kind⟩, ?_, _, rfl, rfl, rfl, rfl⟩
    simp only [TypeName.tag, words, List.getElem?_cons_succ, List.getElem?_cons_zero, List.headD_cons, isKind]
    rfl

/-- A derived type is nameless exactly when it is not taken for an alias. -/
theorem nameless_iff (builtins : SpellsBuiltins language printing.builtinName)
    (back : ReadBack printing type qualType) {structural : LangType}
    (described : type.canonical.toClang.type.transcript printing = some structural)
    (noBuiltin : structural.isBuiltinType = false) (noTag : structural.isTagType = false) :
    (∃ found, qualType.typeName = .ok found ∧ found = none) ↔ type.sugared = false := by
  cases sugar : type.sugared with
  | true =>
    rw [typeName_sugared builtins back sugar]
    refine iff_of_false ?_ Bool.noConfusion
    rintro ⟨found, same, rfl⟩
    cases same
  | false =>
    rw [typeName_plain builtins back sugar described, noBuiltin, noTag]
    exact iff_of_true ⟨none, rfl, rfl⟩ rfl

theorem typedefName_rightly_iff (quals : Cvr) (name : Name language) (target : SpelledType language)
    (builtins : SpellsBuiltins language printing.builtinName)
    (back : ReadBack printing (.typedefName quals name target) qualType) :
    (∃ found, qualType.typeName = .ok found ∧ (SpelledType.typedefName quals name target).NamedRightly found) ↔
      quals = .none := by
  have text : qualType.typeAsString = String.ofList (inFront quals.words (name.chars ++ [])) := back.typeAsString
  rw [typeName_sugared builtins back rfl]
  constructor
  · rintro ⟨found, same, named, isNamed, _, identifier⟩
    obtain rfl := Except.ok.inj same
    obtain rfl := Option.some.inj isNamed
    have whole : qualType.typeAsString = String.ofList name.chars := identifier
    by_contra qualified
    have some : quals.words ≠ [] := fun none => qualified (Cvr.words_nil none)
    refine (apart_qualified some quals.words_qualify (isIdentifierChars_letters name.identifier) name.notQualifier
      delimited_nil).ne (String.ofList_injective (text.symm.trans (whole.trans ?_)))
    rw [List.append_nil]
  · rintro rfl
    refine ⟨_, rfl, _, rfl, rfl, ?_⟩
    rw [TypeName.typedefAlias, text, List.append_nil]
    rfl

/-- Whatever was exported before, the mender names a type rightly exactly when it is
spelled plainly. -/
theorem typeName_rightly_iff (builtins : SpellsBuiltins language printing.builtinName)
    (prints : printing.asString type.canonical.toClang =
      String.ofList (type.canonical.print printing.builtinName []))
    {earlier : List (Option WrittenType)}
    (read : QualType.read (exportedType printing earlier (type.written printing)) = some (some qualType)) :
    (∃ found, qualType.typeName = .ok found ∧ type.NamedRightly found) ↔ type.PlainlySpelled := by
  rw [exportedType_eq, read_qualTypeJson, Option.map_some, Option.some.injEq] at read
  obtain ⟨_, rfl⟩ := read
  have back : ReadBack printing type ((type.written printing).transcript printing) := ⟨rfl, prints, rfl⟩
  cases type with
  | builtin quals kind =>
    rw [typeName_plain builtins back rfl rfl]
    exact iff_of_true ⟨_, rfl, trivial⟩ trivial
  | tag quals kind name =>
    have text := back.typeAsString
    rw [print, spaced, List.append_nil] at text
    refine Iff.trans ?_ (tag_rightly_iff quals kind name text)
    cases kind with
    | struct | union | enum =>
      rw [typeName_plain builtins back rfl rfl]
      exact Iff.rfl
  | typedefName quals name target => exact typedefName_rightly_iff quals name target builtins back
  | pointer quals pointee => exact (nameless_iff builtins back rfl rfl rfl).trans Iff.rfl
  | array extent element =>
    cases extent <;> exact (nameless_iff builtins back rfl rfl rfl).trans Iff.rfl
  | function result params isVariadic =>
    refine (nameless_iff builtins back rfl rfl rfl).trans ?_
    exact Bool.or_eq_false_iff
  | functionNoProto result => exact (nameless_iff builtins back rfl rfl rfl).trans Iff.rfl
  | other quals spelling =>
    refine iff_of_false ?_ id
    rintro ⟨found, named, _⟩
    rw [QualType.typeName, isAliased_eq builtins back] at named
    cases named

end Exported

section Example

def someKeywords : Keywords where
  words := ["struct", "union", "enum", "const", "volatile", "restrict", "int", "double", "_Complex"].map String.toList
  tags kind := by cases kind <;> decide
  qualifiers := by decide

/-- Printers of a compilation in which `int` is the only builtin type, for one type. -/
def printingOf (type : SpelledType someKeywords) : Printing :=
  ⟨fun _ => "int", fun _ => "", fun _ => String.ofList (type.canonical.print (fun _ => "int") []), fun _ => ""⟩

theorem spellsBuiltins_int : SpellsBuiltins someKeywords fun _ => "int" := by
  have int : BeginsSpecifier someKeywords "int".toList := ⟨fun _ => by decide, by decide⟩
  exact fun _ => int

/-- The type as the mender reads it from the exporter. -/
def readFrom (type : SpelledType someKeywords) : Option (Option QualType) :=
  QualType.read (exportedType (printingOf type) [] (type.written (printingOf type)))

theorem readFrom_eq {type : SpelledType someKeywords} (readable : type.canonical.toClang.type.Readable) :
    readFrom type = some (some ((type.written (printingOf type)).transcript (printingOf type))) := by
  rw [readFrom, exportedType_eq, read_qualTypeJson]
  refine ⟨?_, rfl⟩
  rintro _ ⟨⟩
  exact readable

def nameT : Name someKeywords := ⟨['T'], by decide, by decide⟩

def structT : SpelledType someKeywords := .tag .none .struct nameT

theorem typeName_rightly_struct : ∃ qualType, readFrom structT = some (some qualType) ∧
    ∃ found, qualType.typeName = .ok found ∧ structT.NamedRightly found := by
  have readable : structT.canonical.toClang.type.Readable := trivial
  have read := readFrom_eq readable
  exact ⟨_, read, (typeName_rightly_iff spellsBuiltins_int rfl read).mpr rfl⟩

def isConst : Cvr := ⟨true, false, false⟩

def aliasT : SpelledType someKeywords := .typedefName .none nameT (.builtin .none "Int")

def complexDouble : SpelledType someKeywords :=
  .other .none ⟨"_Complex double", fun _ => by decide, by decide⟩

/-- `const struct T`, `const T` and `T *` for a typedef `T`, and `_Complex double`. -/
theorem spellings_misread :
    (∃ qualType, readFrom (.tag isConst .struct nameT) = some (some qualType) ∧
      qualType.typeName = .error (.illegalArgument "Unknown tag kind: const")) ∧
    (∃ qualType, readFrom (.typedefName isConst nameT (.builtin .none "Int")) = some (some qualType) ∧
      qualType.typeName = .ok (some (.typedefAlias "const T"))) ∧
    (∃ qualType, readFrom (.pointer .none aliasT) = some (some qualType) ∧
      qualType.typeName = .ok (some (.typedefAlias "T *"))) ∧
    ∃ qualType, readFrom complexDouble = some (some qualType) ∧ qualType.typeName = .error .nullPointer :=
  ⟨⟨_, readFrom_eq trivial, rfl⟩, ⟨_, readFrom_eq rfl, rfl⟩, ⟨_, readFrom_eq rfl, rfl⟩, _, readFrom_eq trivial, rfl⟩

end Example
end SpelledType
end CMender.Exporter
