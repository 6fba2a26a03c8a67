import Mathlib.Data.List.TakeWhile
import CMender.Exporter.TypeRoundTrip
import CMender.Foundations.Delimiters

/-! How Clang spells a C type, and what the mender makes of the spelling. A type is
printed from the inside out around its specifier, with the names of typedefs as they
are written; the canonical type has its typedefs replaced. The mender compares the two
texts and splits the one it is left with. -/
namespace CMender.Exporter
open Foundations Foundations.Text

def qualifierWords : List (List Char) := ["const".toList, "volatile".toList, "restrict".toList]

def tagWord : TagTypeKind → List Char
  | .struct => "struct".toList
  | .union => "union".toList
  | .enum => "enum".toList

/-- The keywords of the language that is compiled, those of types among them. -/
structure Keywords where
  words : List (List Char)
  tags : ∀ kind, tagWord kind ∈ words
  qualifiers : ∀ word ∈ qualifierWords, word ∈ words

/-- An identifier that may name a tag or a typedef. -/
structure Name (language : Keywords) where
  chars : List Char
  identifier : isIdentifierChars chars = true
  notKeyword : chars ∉ language.words

/-- A text that begins like a type specifier: its first word is neither a name nor a
qualifier. -/
structure BeginsSpecifier (language : Keywords) (text : List Char) : Prop where
  notName : isIdentifierChars (text.takeWhile isWordChar) = true → text.takeWhile isWordChar ∈ language.words
  notQualifier : text.takeWhile isWordChar ∉ qualifierWords

/-- Builtin types are spelled with keywords. -/
def SpellsBuiltins (language : Keywords) (builtinName : String → String) : Prop :=
  ∀ kind, BeginsSpecifier language (builtinName kind).toList

structure Specifier (language : Keywords) where
  text : String
  begins : BeginsSpecifier language text.toList

structure Cvr where
  isConst : Bool
  isVolatile : Bool
  isRestrict : Bool
deriving DecidableEq, Repr

namespace Cvr

def none : Cvr := ⟨false, false, false⟩

def union (first second : Cvr) : Cvr :=
  ⟨first.isConst || second.isConst, first.isVolatile || second.isVolatile, first.isRestrict || second.isRestrict⟩

def words (quals : Cvr) : List (List Char) :=
  (if quals.isConst then ["const".toList] else []) ++ (if quals.isVolatile then ["volatile".toList] else []) ++
    if quals.isRestrict then ["restrict".toList] else []

def toClang (quals : Cvr) : ClangQualifiers :=
  ⟨quals.isConst, quals.isVolatile, quals.isRestrict, false, false, .default⟩

end Cvr

/-- Qualifiers in front of what they qualify. -/
def inFront (words : List (List Char)) (text : List Char) : List Char :=
  words.foldr (fun word rest => word ++ ' ' :: rest) text

/-- A declarator behind a specifier: a blank divides them, except in front of a bracket. -/
def spaced : List Char → List Char
  | [] => []
  | '[' :: rest => '[' :: rest
  | c :: rest => ' ' :: c :: rest

/-- Qualifiers of a pointer, between its star and the declarator around it. -/
def behindStar (words : List (List Char)) (inner : List Char) : List Char :=
  if words = [] then inner else [' '].intercalate words ++ spaced inner

inductive Extent where
  | constant (size : BitVec 64)
  | variable (sizeExpr : String)
  | incomplete

def Extent.text : Extent → List Char
  | .constant size => '[' :: (toString size.toNat).toList ++ [']']
  | .variable sizeExpr => '[' :: sizeExpr.toList ++ [']']
  | .incomplete => ['[', ']']

/-- A type as the source spells it. Qualifiers of an array are those of its elements, and
a parameter is already adjusted to a pointer where it was an array or a function. -/
inductive SpelledType (language : Keywords) where
  | builtin (quals : Cvr) (kind : String)
  | tag (quals : Cvr) (kind : TagTypeKind) (name : Name language)
  | typedefName (quals : Cvr) (name : Name language) (target : SpelledType language)
  | pointer (quals : Cvr) (pointee : SpelledType language)
  | array (extent : Extent) (element : SpelledType language)
  | function (result : SpelledType language) (params : List (SpelledType language)) (isVariadic : Bool)
  | functionNoProto (result : SpelledType language)
  /-- A type the exporter has no visit method for. -/
  | other (quals : Cvr) (spelling : Specifier language)

namespace SpelledType
variable {language : Keywords}

def isArrayOrFunction : SpelledType language → Bool
  | .array .. | .function .. | .functionNoProto _ => true
  | _ => false

/-- A pointer to an array or a function stands in parentheses. -/
def enclose (pointee : SpelledType language) (inner : List Char) : List Char :=
  if pointee.isArrayOrFunction then '(' :: (inner ++ [')']) else inner

mutual
/-- The text of a type around the text of the declarator inside it. -/
def print (builtinName : String → String) : SpelledType language → List Char → List Char
  | .builtin quals kind, inner => inFront quals.words ((builtinName kind).toList ++ spaced inner)
  | .tag quals kind name, inner => inFront quals.words (tagWord kind ++ ' ' :: (name.chars ++ spaced inner))
  | .typedefName quals name _, inner => inFront quals.words (name.chars ++ spaced inner)
  | .pointer quals pointee, inner =>
    pointee.print builtinName (pointee.enclose ('*' :: behindStar quals.words inner))
  | .array extent element, inner => element.print builtinName (inner ++ extent.text)
  | .function result params isVariadic, inner =>
    result.print builtinName (inner ++ '(' :: (printParams builtinName params isVariadic ++ [')']))
  | .functionNoProto result, inner => result.print builtinName (inner ++ ['(', ')'])
  | .other quals spelling, inner => inFront quals.words (spelling.text.toList ++ spaced inner)

def printParams (builtinName : String → String) : List (SpelledType language) → Bool → List Char
  | [], isVariadic => if isVariadic then "...".toList else "void".toList
  | param :: rest, isVariadic => param.print builtinName [] ++ printMoreParams builtinName rest isVariadic

def printMoreParams (builtinName : String → String) : List (SpelledType language) → Bool → List Char
  | [], isVariadic => if isVariadic then ", ...".toList else []
  | param :: rest, isVariadic =>
    ',' :: ' ' :: (param.print builtinName [] ++ printMoreParams builtinName rest isVariadic)
end

/-- Qualifiers added to a type; those of an array go to its elements, a function has none. -/
def qualified (added : Cvr) : SpelledType language → SpelledType language
  | .builtin quals kind => .builtin (added.union quals) kind
  | .tag quals kind name => .tag (added.union quals) kind name
  | .typedefName quals name target => .typedefName (added.union quals) name target
  | .pointer quals pointee => .pointer (added.union quals) pointee
  | .array extent element => .array extent (element.qualified added)
  | .other quals spelling => .other (added.union quals) spelling
  | .function result params isVariadic => .function result params isVariadic
  | .functionNoProto result => .functionNoProto result

def unqualified : SpelledType language → SpelledType language
  | .builtin _ kind => .builtin .none kind
  | .tag _ kind name => .tag .none kind name
  | .typedefName _ name target => .typedefName .none name target
  | .pointer _ pointee => .pointer .none pointee
  | .other _ spelling => .other .none spelling
  | type => type

mutual
/-- The type without its typedefs. The parameters of a function lose their qualifiers. -/
def canonical : SpelledType language → SpelledType language
  | .builtin quals kind => .builtin quals kind
  | .tag quals kind name => .tag quals kind name
  | .typedefName quals _ target => target.canonical.qualified quals
  | .pointer quals pointee => .pointer quals pointee.canonical
  | .array extent element => .array extent element.canonical
  | .function result params isVariadic => .function result.canonical (canonicalParams params) isVariadic
  | .functionNoProto result => .functionNoProto result.canonical
  | .other quals spelling => .other quals spelling

def canonicalParams : List (SpelledType language) → List (SpelledType language)
  | [] => []
  | param :: rest => param.canonical.unqualified :: canonicalParams rest
end

mutual
/-- The canonical type among those the exporter converts. -/
def toClang : SpelledType language → ClangQualType
  | .builtin quals kind => ⟨quals.toClang, .builtin kind⟩
  | .tag quals .struct name => ⟨quals.toClang, .record .struct (String.ofList name.chars)⟩
  | .tag quals .union name => ⟨quals.toClang, .record .union (String.ofList name.chars)⟩
  | .tag quals .enum name => ⟨quals.toClang, .enum (String.ofList name.chars)⟩
  | .typedefName _ _ target => target.toClang
  | .pointer quals pointee => ⟨quals.toClang, .pointer pointee.toClang⟩
  | .array (.constant size) element => ⟨.none, .constantArray size element.toClang⟩
  | .array (.variable sizeExpr) element => ⟨.none, .variableArray sizeExpr element.toClang⟩
  | .array .incomplete element => ⟨.none, .incompleteArray element.toClang⟩
  | .function result params isVariadic => ⟨.none, .functionProto result.toClang (allToClang params) isVariadic⟩
  | .functionNoProto result => ⟨.none, .functionNoProto result.toClang⟩
  | .other quals spelling => ⟨quals.toClang, .other spelling.text⟩

def allToClang : List (SpelledType language) → List ClangQualType
  | [] => []
  | param :: rest => param.toClang :: allToClang rest
end

/-- What the exporter is given: the text of the type, and the canonical type. -/
def written (printing : Printing) (type : SpelledType language) : WrittenType :=
  ⟨String.ofList (type.print printing.builtinName []), type.canonical.toClang⟩

end SpelledType

/-! ### Texts that differ -/

section Words

theorem qualifierWord_letters {word : List Char} (qualifier : word ∈ qualifierWords) :
    ∀ c ∈ word, isWordChar c = true := by
  have all : qualifierWords.all (·.all isWordChar) = true := by decide
  exact List.all_eq_true.mp (List.all_eq_true.mp all word qualifier)

theorem qualifierWord_nonempty {word : List Char} (qualifier : word ∈ qualifierWords) : word ≠ [] := by
  rintro rfl
  revert qualifier
  decide

theorem Cvr.words_qualify (quals : Cvr) : ∀ word ∈ quals.words, word ∈ qualifierWords := by
  have all : quals.words.all (fun word => decide (word ∈ qualifierWords)) = true := by
    obtain ⟨isConst, isVolatile, isRestrict⟩ := quals
    cases isConst <;> cases isVolatile <;> cases isRestrict <;> decide
  intro word listed
  exact of_decide_eq_true (List.all_eq_true.mp all word listed)

theorem Cvr.words_nil {quals : Cvr} (none : quals.words = []) : quals = .none := by
  obtain ⟨isConst, isVolatile, isRestrict⟩ := quals
  cases isConst <;> cases isVolatile <;> cases isRestrict <;> first | rfl | cases none

theorem isIdentifierChars_letters {word : List Char} (identifier : isIdentifierChars word = true) :
    ∀ c ∈ word, isWordChar c = true := by
  cases word with
  | nil => exact fun _ none => nomatch none
  | cons first rest =>
    simp only [isIdentifierChars, Bool.and_eq_true, List.all_eq_true] at identifier
    intro c listed
    rcases List.mem_cons.mp listed with rfl | later
    · rw [isWordChar, identifier.1, Bool.true_or]
    · exact identifier.2 c later

theorem tagWord_letters (kind : TagTypeKind) : ∀ c ∈ tagWord kind, isWordChar c = true := by
  have all : (tagWord kind).all isWordChar = true := by cases kind <;> decide
  exact List.all_eq_true.mp all

theorem tagWord_notQualifier (kind : TagTypeKind) : tagWord kind ∉ qualifierWords := by
  cases kind <;> decide

variable {language : Keywords}

theorem Name.nonempty (name : Name language) : name.chars ≠ [] := by
  intro none
  have identifier := name.identifier
  rw [none] at identifier
  cases identifier

theorem Name.notQualifier (name : Name language) : name.chars ∉ qualifierWords :=
  fun qualifier => name.notKeyword (language.qualifiers _ qualifier)

variable {words others : List (List Char)} {word other x y : List Char}

theorem apart_inFront (apart : Apart x y) (words : List (List Char)) : Apart (inFront words x) (inFront words y) := by
  induction words with
  | nil => exact apart
  | cons word rest ih => exact (ih.prepend [' ']).prepend word

/-- Qualifiers or not, different words make different texts. -/
theorem apart_inFront_words (qualify : ∀ word ∈ words, word ∈ qualifierWords)
    (othersQualify : ∀ word ∈ others, word ∈ qualifierWords) (letters : ∀ c ∈ word, isWordChar c = true)
    (otherLetters : ∀ c ∈ other, isWordChar c = true) (notQualifier : word ∉ qualifierWords)
    (otherNotQualifier : other ∉ qualifierWords) (different : word ≠ other) (first : Delimited x)
    (second : Delimited y) : Apart (inFront words (word ++ x)) (inFront others (other ++ y)) := by
  have blank : ∀ text : List Char, Delimited (' ' :: text) := fun _ => delimited_cons rfl
  induction words generalizing others with
  | nil =>
    cases others with
    | nil => exact apart_words letters otherLetters different first second
    | cons qualifier rest =>
      have qualifies := othersQualify qualifier List.mem_cons_self
      exact apart_words letters (qualifierWord_letters qualifies) (fun same => notQualifier (same ▸ qualifies)) first
        (blank _)
  | cons qualifier rest ih =>
    have qualifies := qualify qualifier List.mem_cons_self
    cases others with
    | nil =>
      exact apart_words (qualifierWord_letters qualifies) otherLetters
        (fun same => otherNotQualifier (same ▸ qualifies)) (blank _) second
    | cons otherQualifier more =>
      have otherQualifies := othersQualify otherQualifier List.mem_cons_self
      by_cases same : qualifier = otherQualifier
      · subst same
        exact ((ih (fun word listed => qualify word (List.mem_cons_of_mem _ listed))
          (fun word listed => othersQualify word (List.mem_cons_of_mem _ listed))).prepend [' ']).prepend qualifier
      · exact apart_words (qualifierWord_letters qualifies) (qualifierWord_letters otherQualifies) same (blank _)
          (blank _)

/-- A qualified text is not the text without its qualifiers. -/
theorem apart_qualified (some : words ≠ []) (qualify : ∀ word ∈ words, word ∈ qualifierWords)
    (otherLetters : ∀ c ∈ other, isWordChar c = true) (otherNotQualifier : other ∉ qualifierWords)
    (second : Delimited y) : Apart (inFront words x) (other ++ y) := by
  obtain ⟨qualifier, rest, rfl⟩ := List.exists_cons_of_ne_nil some
  have qualifies := qualify qualifier List.mem_cons_self
  exact apart_words (qualifierWord_letters qualifies) otherLetters (fun same => otherNotQualifier (same ▸ qualifies))
    (delimited_cons rfl) second

end Words

section Declarators
variable {words : List (List Char)} {inner other : List Char}

theorem spaced_cons (c : Char) (rest : List Char) :
    spaced (c :: rest) = if c = '[' then c :: rest else ' ' :: c :: rest := by
  unfold spaced
  split
  · rename_i none
    cases none
  · rename_i same
    cases same
    rfl
  · rename_i bracket same
    cases same
    rw [if_neg bracket]

theorem delimited_spaced (delimited : Delimited inner) : Delimited (spaced inner) := by
  cases inner with
  | nil => exact delimited_nil
  | cons c rest =>
    rw [spaced_cons]
    split
    · exact delimited
    · exact delimited_cons rfl

theorem apart_spaced (delimited : Delimited inner) (otherDelimited : Delimited other) (apart : Apart inner other) :
    Apart (spaced inner) (spaced other) := by
  obtain ⟨some, otherSome⟩ := apart.nonempty delimited otherDelimited
  obtain ⟨c, rest, rfl⟩ := List.exists_cons_of_ne_nil some
  obtain ⟨d, more, rfl⟩ := List.exists_cons_of_ne_nil otherSome
  rw [spaced_cons, spaced_cons]
  by_cases bracket : c = '['
  · by_cases otherBracket : d = '['
    · rw [if_pos bracket, if_pos otherBracket]
      exact apart
    · rw [if_pos bracket, if_neg otherBracket, bracket]
      exact apart_of_heads (by decide)
  · by_cases otherBracket : d = '['
    · rw [if_neg bracket, if_pos otherBracket, otherBracket]
      exact apart_of_heads (by decide)
    · rw [if_neg bracket, if_neg otherBracket]
      exact apart.prepend [' ']

theorem apart_behindStar (delimited : Delimited inner) (otherDelimited : Delimited other)
    (apart : Apart inner other) : Apart (behindStar words inner) (behindStar words other) := by
  by_cases none : words = []
  · rw [behindStar, behindStar, if_pos none, if_pos none]
    exact apart
  · rw [behindStar, behindStar, if_neg none, if_neg none]
    exact (apart_spaced delimited otherDelimited apart).prepend _

/-- Behind a star, qualifiers are told from any declarator. -/
theorem apart_star_qualified {quals : Cvr} (qualified : quals ≠ .none) (otherDelimited : Delimited other) :
    Apart (behindStar quals.words inner) other := by
  have some : quals.words ≠ [] := fun none => qualified (Cvr.words_nil none)
  obtain ⟨first, rest, isWords⟩ := List.exists_cons_of_ne_nil some
  have qualifies : first ∈ qualifierWords := quals.words_qualify first (by rw [isWords]; exact List.mem_cons_self)
  obtain ⟨c, letters, rfl⟩ := List.exists_cons_of_ne_nil (qualifierWord_nonempty qualifies)
  have letter : isWordChar c = true := qualifierWord_letters qualifies c List.mem_cons_self
  rw [behindStar, if_neg some, isWords]
  cases rest with
  | nil => exact apart_of_word letter otherDelimited
  | cons second more => exact apart_of_word letter otherDelimited

end Declarators

namespace SpelledType
variable {language : Keywords} {builtinName : String → String}

/-- The specifier of the type is the name of a typedef. -/
def baseIsTypedef : SpelledType language → Bool
  | .typedefName .. => true
  | .pointer _ component | .array _ component | .function component .. | .functionNoProto component =>
    component.baseIsTypedef
  | .builtin .. | .tag .. | .other .. => false

theorem baseIsTypedef_qualified (added : Cvr) : ∀ type : SpelledType language,
    (type.qualified added).baseIsTypedef = type.baseIsTypedef
  | .builtin .. | .tag .. | .typedefName .. | .pointer .. | .function .. | .functionNoProto _ | .other .. => rfl
  | .array _ element => element.baseIsTypedef_qualified added

theorem baseIsTypedef_unqualified (type : SpelledType language) :
    type.unqualified.baseIsTypedef = type.baseIsTypedef := by
  cases type <;> rfl

theorem baseIsTypedef_canonical : ∀ type : SpelledType language, type.canonical.baseIsTypedef = false
  | .builtin .. | .tag .. | .other .. => rfl
  | .typedefName quals _ target =>
    (baseIsTypedef_qualified quals target.canonical).trans target.baseIsTypedef_canonical
  | .pointer _ pointee => pointee.baseIsTypedef_canonical
  | .array _ element => element.baseIsTypedef_canonical
  | .function result .. => result.baseIsTypedef_canonical
  | .functionNoProto result => result.baseIsTypedef_canonical

/-- Behind qualifiers the text begins with a word that is no name. -/
def BeginsPlainly (language : Keywords) (text : List Char) : Prop :=
  ∃ words word rest, (∀ qualifier ∈ words, qualifier ∈ qualifierWords) ∧ (∀ c ∈ word, isWordChar c = true) ∧
    word ∉ qualifierWords ∧ (isIdentifierChars word = true → word ∈ language.words) ∧ Delimited rest ∧
    text = inFront words (word ++ rest)

theorem beginsPlainly_specifier (quals : Cvr) {text rest : List Char} (begins : BeginsSpecifier language text)
    (delimited : Delimited rest) : BeginsPlainly language (inFront quals.words (text ++ rest)) := by
  refine ⟨quals.words, text.takeWhile isWordChar, text.dropWhile isWordChar ++ rest, quals.words_qualify, ?_,
    begins.notQualifier, begins.notName, ?_, ?_⟩
  · exact fun c listed => List.mem_takeWhile_imp listed
  · exact (delimited_dropWhile text).append delimited
  · rw [← List.append_assoc, List.takeWhile_append_dropWhile]

theorem beginsPlainly_print (builtins : SpellsBuiltins language builtinName) :
    ∀ (type : SpelledType language) (inner : List Char), type.baseIsTypedef = false → Delimited inner →
      BeginsPlainly language (type.print builtinName inner)
  | .builtin quals kind, inner, _, delimited =>
    beginsPlainly_specifier quals (builtins kind) (delimited_spaced delimited)
  | .tag quals kind name, inner, _, _ =>
    ⟨quals.words, tagWord kind, _, quals.words_qualify, tagWord_letters kind, tagWord_notQualifier kind,
      fun _ => language.tags kind, delimited_cons rfl, rfl⟩
  | .other quals spelling, inner, _, delimited =>
    beginsPlainly_specifier quals spelling.begins (delimited_spaced delimited)
  | .pointer quals pointee, inner, plain, delimited => by
    refine pointee.beginsPlainly_print builtins _ plain ?_
    unfold enclose
    split <;> exact delimited_cons rfl
  | .array extent element, inner, plain, delimited => by
    refine element.beginsPlainly_print builtins _ plain (delimited.append ?_)
    cases extent <;> exact delimited_cons rfl
  | .function result .., inner, plain, delimited =>
    result.beginsPlainly_print builtins _ plain (delimited.append (delimited_cons rfl))
  | .functionNoProto result, inner, plain, delimited =>
    result.beginsPlainly_print builtins _ plain (delimited.append (delimited_cons rfl))

/-- So the name of a typedef cannot be read as anything else. -/
theorem apart_typedefName (quals : Cvr) (name : Name language) {rest text : List Char} (delimited : Delimited rest)
    (plain : BeginsPlainly language text) : Apart (inFront quals.words (name.chars ++ rest)) text := by
  obtain ⟨words, word, behind, qualify, letters, notQualifier, keyword, wordEnds, rfl⟩ := plain
  have different : name.chars ≠ word := by
    rintro rfl
    exact name.notKeyword (keyword name.identifier)
  exact apart_inFront_words quals.words_qualify qualify (isIdentifierChars_letters name.identifier) letters
    name.notQualifier notQualifier different delimited wordEnds

def isQualified : SpelledType language → Bool
  | .builtin quals _ | .tag quals .. | .pointer quals _ | .other quals _ => quals != .none
  | .typedefName .. | .array .. | .function .. | .functionNoProto _ => false

mutual
/-- Some part of the text is not what the canonical type would have there: the name of a
typedef, or the qualifiers of a parameter. -/
def sugared : SpelledType language → Bool
  | .typedefName .. => true
  | .pointer _ component | .array _ component | .functionNoProto component => component.sugared
  | .function result params _ => result.sugared || someSugared params
  | .builtin .. | .tag .. | .other .. => false

def someSugared : List (SpelledType language) → Bool
  | [] => false
  | param :: rest => (param.isQualified || param.sugared) || someSugared rest
end

theorem unqualified_eq {type : SpelledType language} (plain : type.sugared = false)
    (unqualified : type.isQualified = false) : type.unqualified = type := by
  cases type with
  | typedefName => cases plain
  | array | function | functionNoProto => rfl
  | builtin quals | tag quals | pointer quals | other quals =>
    have none : quals = .none := by simpa [isQualified] using unqualified
    rw [none]
    rfl

mutual
theorem canonical_eq : ∀ type : SpelledType language, type.sugared = false → type.canonical = type
  | .builtin .., _ | .tag .., _ | .other .., _ => rfl
  | .typedefName .., plain => nomatch plain
  | .pointer quals pointee, plain => congrArg (SpelledType.pointer quals) (pointee.canonical_eq plain)
  | .array extent element, plain => congrArg (SpelledType.array extent) (element.canonical_eq plain)
  | .functionNoProto result, plain => congrArg SpelledType.functionNoProto (result.canonical_eq plain)
  | .function result params isVariadic, plain => by
    rw [sugared, Bool.or_eq_false_iff] at plain
    rw [canonical, result.canonical_eq plain.1, canonicalParams_eq params plain.2]

theorem canonicalParams_eq : ∀ params : List (SpelledType language), someSugared params = false →
    canonicalParams params = params
  | [], _ => rfl
  | param :: rest, plain => by
    rw [someSugared, Bool.or_eq_false_iff, Bool.or_eq_false_iff] at plain
    rw [canonicalParams, param.canonical_eq plain.1.2, unqualified_eq plain.1.2 plain.1.1,
      canonicalParams_eq rest plain.2]
end

/-- The canonical type, as it is or as that of a parameter. -/
def adjusted (param : Bool) (type : SpelledType language) : SpelledType language :=
  if param then type.canonical.unqualified else type.canonical

section Comparing
variable {param : Bool} {quals : Cvr} {inner other : List Char}

theorem quals_kept (kept : ¬ (param = true ∧ quals ≠ .none)) : (if param then Cvr.none else quals) = quals := by
  split
  · rename_i isParam
    exact (not_not.mp fun qualified => kept ⟨isParam, qualified⟩).symm
  · rfl

/-- A specifier tells its qualifiers and what follows it. -/
theorem apart_specifier {text : List Char} (notQualifier : text.takeWhile isWordChar ∉ qualifierWords)
    (delimited : Delimited inner) (otherDelimited : Delimited other)
    (differ : param = true ∧ quals ≠ .none ∨ Apart inner other) :
    Apart (inFront quals.words (text ++ spaced inner))
      (inFront (if param then Cvr.none else quals).words (text ++ spaced other)) := by
  by_cases dropped : param = true ∧ quals ≠ .none
  · have some : quals.words ≠ [] := fun none => dropped.2 (Cvr.words_nil none)
    have divided : text ++ spaced other = text.takeWhile isWordChar ++ (text.dropWhile isWordChar ++ spaced other) := by
      rw [← List.append_assoc, List.takeWhile_append_dropWhile]
    rw [if_pos dropped.1, divided]
    exact apart_qualified some quals.words_qualify (fun c listed => List.mem_takeWhile_imp listed) notQualifier
      ((delimited_dropWhile text).append (delimited_spaced otherDelimited))
  · rw [quals_kept dropped]
    exact apart_inFront ((apart_spaced delimited otherDelimited (differ.resolve_left dropped)).prepend text) _

/-- Behind a star the same holds. -/
theorem related_behindStar (param : Bool) (quals : Cvr) (delimited : Delimited inner) (otherDelimited : Delimited other)
    (related : inner = other ∨ Apart inner other) :
    (behindStar quals.words inner = behindStar (if param then Cvr.none else quals).words other ∧
        ¬ (param = true ∧ quals ≠ .none) ∧ ¬ Apart inner other) ∨
      Apart (behindStar quals.words inner) (behindStar (if param then Cvr.none else quals).words other) := by
  by_cases dropped : param = true ∧ quals ≠ .none
  · rw [if_pos dropped.1]
    exact .inr (apart_star_qualified dropped.2 otherDelimited)
  · rw [quals_kept dropped]
    by_cases apart : Apart inner other
    · exact .inr (apart_behindStar delimited otherDelimited apart)
    · exact .inl ⟨by rw [related.resolve_right apart], dropped, apart⟩

/-- Parentheses that only one of the two has make a difference themselves. -/
theorem apart_enclose (first second : SpelledType language) (apart : Apart inner other) :
    Apart (first.enclose ('*' :: inner)) (second.enclose ('*' :: other)) := by
  have stars : Apart ('*' :: inner) ('*' :: other) := apart.prepend ['*']
  unfold enclose
  split
  · split
    · exact (stars.append (delimited_cons rfl) (delimited_cons rfl)).prepend ['(']
    · exact apart_of_heads (by decide)
  · split
    · exact apart_of_heads (by decide)
    · exact stars

theorem related_enclose (first second : SpelledType language) (related : inner = other ∨ Apart inner other) :
    first.enclose ('*' :: inner) = second.enclose ('*' :: other) ∨
      Apart (first.enclose ('*' :: inner)) (second.enclose ('*' :: other)) := by
  rcases related with rfl | apart
  · unfold enclose
    split
    · split
      · exact .inl rfl
      · exact .inr (apart_of_heads (by decide))
    · split
      · exact .inr (apart_of_heads (by decide))
      · exact .inl rfl
  · exact .inr (apart_enclose first second apart)

theorem delimited_enclose (type : SpelledType language) : Delimited (type.enclose ('*' :: inner)) := by
  unfold enclose
  split <;> exact delimited_cons rfl

theorem delimited_printMoreParams (builtinName : String → String) (params : List (SpelledType language))
    (isVariadic : Bool) :
    Delimited (printMoreParams builtinName params isVariadic) := by
  cases params with
  | nil =>
    rw [printMoreParams]
    split
    · exact delimited_cons rfl
    · exact delimited_nil
  | cons param rest => exact delimited_cons rfl

end Comparing

mutual
/-- Where the text of a type is not that of its canonical type, or what stands inside the
two differs, nothing written behind them makes them equal. -/
theorem apart_print (builtins : SpellsBuiltins language builtinName) :
    ∀ (type : SpelledType language) (param : Bool) (inner outer : List Char),
    Delimited inner → Delimited outer →
    (type.sugared = true ∨ param = true ∧ type.isQualified = true ∨ Apart inner outer) →
    (inner = outer ∨ Apart inner outer) →
    Apart (type.print builtinName inner) ((type.adjusted param).print builtinName outer)
  | .builtin quals kind, param, inner, outer, delimited, otherDelimited, differ, _ => by
    have differ : param = true ∧ quals ≠ .none ∨ Apart inner outer := by simpa [sugared, isQualified] using differ
    have apart := apart_specifier (builtins kind).notQualifier delimited otherDelimited differ
    cases param <;> exact apart
  | .tag quals kind name, param, inner, outer, delimited, otherDelimited, differ, _ => by
    have differ : param = true ∧ quals ≠ .none ∨ Apart inner outer := by simpa [sugared, isQualified] using differ
    have first : (tagWord kind ++ ' ' :: name.chars).takeWhile isWordChar = tagWord kind :=
      takeWhile_word (tagWord_letters kind) (delimited_cons rfl)
    have notQualifier := tagWord_notQualifier kind
    rw [← first] at notQualifier
    have apart := apart_specifier notQualifier delimited otherDelimited differ
    rw [List.append_assoc, List.append_assoc] at apart
    cases param <;> exact apart
  | .other quals spelling, param, inner, outer, delimited, otherDelimited, differ, _ => by
    have differ : param = true ∧ quals ≠ .none ∨ Apart inner outer := by simpa [sugared, isQualified] using differ
    have apart := apart_specifier spelling.begins.notQualifier delimited otherDelimited differ
    cases param <;> exact apart
  | .typedefName quals name target, param, inner, outer, delimited, otherDelimited, _, _ => by
    refine apart_typedefName quals name (delimited_spaced delimited)
      (beginsPlainly_print builtins _ outer ?_ otherDelimited)
    cases param with
    | true => exact (baseIsTypedef_unqualified _).trans (baseIsTypedef_canonical (.typedefName quals name target))
    | false => exact baseIsTypedef_canonical (.typedefName quals name target)
  | .pointer quals pointee, param, inner, outer, delimited, otherDelimited, differ, related => by
    have stars := related_behindStar param quals delimited otherDelimited related
    have apart := pointee.apart_print builtins false _ _ (delimited_enclose pointee)
      (delimited_enclose pointee.canonical) (by
        rcases stars with ⟨_, kept, alike⟩ | apart
        · have differ : pointee.sugared = true ∨ param = true ∧ quals ≠ .none ∨ Apart inner outer := by
            simpa [sugared, isQualified] using differ
          exact .inl ((differ.resolve_right fun rest => rest.elim kept alike))
        · exact .inr (.inr (apart_enclose pointee pointee.canonical apart)))
      (related_enclose pointee pointee.canonical (stars.imp_left And.left))
    cases param <;> exact apart
  | .array extent element, param, inner, outer, delimited, otherDelimited, differ, related => by
    have bracket : Delimited extent.text := by cases extent <;> exact delimited_cons rfl
    have differ : element.sugared = true ∨ Apart inner outer := by simpa [sugared, isQualified] using differ
    have apart := element.apart_print builtins false _ _ (delimited.append bracket) (otherDelimited.append bracket)
      (differ.imp_right fun apart => .inr (apart.append bracket bracket))
      (related_append related (.inl rfl) bracket bracket)
    cases param <;> exact apart
  | .functionNoProto result, param, inner, outer, delimited, otherDelimited, differ, related => by
    have parens : Delimited ['(', ')'] := delimited_cons rfl
    have differ : result.sugared = true ∨ Apart inner outer := by simpa [sugared, isQualified] using differ
    have apart := result.apart_print builtins false _ _ (delimited.append parens) (otherDelimited.append parens)
      (differ.imp_right fun apart => .inr (apart.append parens parens))
      (related_append related (.inl rfl) parens parens)
    cases param <;> exact apart
  | .function result params isVariadic, param, inner, outer, delimited, otherDelimited, differ, related => by
    have parens : ∀ text : List Char, Delimited ('(' :: text) := fun _ => delimited_cons rfl
    have differ : (result.sugared = true ∨ someSugared params = true) ∨ Apart inner outer := by
      simpa [sugared, isQualified] using differ
    have lists : someSugared params = true →
        Apart ('(' :: (printParams builtinName params isVariadic ++ [')']))
          ('(' :: (printParams builtinName (canonicalParams params) isVariadic ++ [')'])) := fun some =>
      ((apart_params builtins params isVariadic some).append (delimited_cons rfl) (delimited_cons rfl)).prepend ['(']
    have apart := result.apart_print builtins false _ _ (delimited.append (parens _)) (otherDelimited.append (parens _))
      (by
        rcases differ with (result | some) | apart
        · exact .inl result
        · exact .inr (.inr (apart_append related (lists some) (parens _) (parens _)))
        · exact .inr (.inr (apart.append (parens _) (parens _))))
      (by
        refine related_append related ?_ (parens _) (parens _)
        cases some : someSugared params with
        | true => exact .inr (lists some)
        | false => exact .inl (by rw [canonicalParams_eq params some]))
    cases param <;> exact apart

theorem apart_params (builtins : SpellsBuiltins language builtinName) :
    ∀ (params : List (SpelledType language)) (isVariadic : Bool), someSugared params = true →
    Apart (printParams builtinName params isVariadic) (printParams builtinName (canonicalParams params) isVariadic)
  | [], _, found => nomatch found
  | param :: rest, isVariadic, found => by
    have more := delimited_printMoreParams builtinName rest isVariadic
    have otherMore := delimited_printMoreParams builtinName (canonicalParams rest) isVariadic
    rw [printParams, canonicalParams, printParams]
    cases first : param.isQualified || param.sugared with
    | true =>
      have apart := param.apart_print builtins true [] [] delimited_nil delimited_nil
        ((Bool.or_eq_true_iff.mp first).symm.imp_right fun qualified => .inl ⟨rfl, qualified⟩) (.inl rfl)
      exact apart.append more otherMore
    | false =>
      have later : someSugared rest = true := by rwa [someSugared, first, Bool.false_or] at found
      rw [Bool.or_eq_false_iff] at first
      rw [param.canonical_eq first.2, unqualified_eq first.2 first.1]
      have apart := apart_params builtins rest isVariadic later
      cases rest with
      | nil => cases later
      | cons second more => exact (apart.prepend [',', ' ']).prepend _
end

end SpelledType
end CMender.Exporter
