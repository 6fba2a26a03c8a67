import CMender.Exporter.TypeNames
import CMender.Foundations.Substitution
import CMender.Foundations.Tokens
import CMender.Mending.Handlers
import CMender.Mending.Writing

/-! The declarations in the mendfile. The exporter prints every type as the declaration of
one made-up variable, and the mender replaces the variable's name by the one it declares,
wherever it stands in the text. -/
namespace CMender.Exporter
open Foundations Foundations.Text

namespace SpelledType
variable {language : Keywords} {builtinName : String → String} {type pointee : SpelledType language}
  {lead back lead₀ back₀ : List Char} {c c₀ : Char}

/-- Nothing but stars and qualifiers stands between the specifier and the declared name. -/
def namedLast : SpelledType language → Bool
  | .pointer _ pointee => pointee.namedLast
  | .array .. | .function .. | .functionNoProto _ => false
  | .builtin .. | .tag .. | .typedefName .. | .other .. => true

/-- What stands behind a declared name ends with a bracket, unless the name is last. -/
def Closes (back : List Char) (last : Bool) : Prop :=
  if last then back = [] else ∃ front bracket, back = front ++ [bracket] ∧ (bracket = ')' ∨ bracket = ']')

theorem Closes.prepend (closes : Closes back false) (front : List Char) : Closes (front ++ back) false := by
  obtain ⟨others, bracket, rfl, kind⟩ := closes
  exact ⟨front ++ others, bracket, (List.append_assoc _ _ _).symm, kind⟩

/-- The text of a type around a declarator: what stands in front of it, a character that
divides the two, and what stands behind. A dividing blank may be missing where there is no
declarator, or one that begins with a bracket. -/
structure Frame (builtinName : String → String) (type : SpelledType language) (lead : List Char) (c : Char)
    (back : List Char) : Prop where
  divides : isWordChar c = false
  delimited : Delimited back
  closes : Closes back type.namedLast
  declarator : ∀ d rest, d ≠ '[' → type.print builtinName (d :: rest) = lead ++ c :: (d :: rest ++ back)
  any : ∀ inner, type.print builtinName inner = lead ++ c :: (inner ++ back) ∨
    c = ' ' ∧ type.print builtinName inner = lead ++ (inner ++ back)

theorem spaced_cases (inner : List Char) : spaced inner = ' ' :: inner ∨ spaced inner = inner := by
  cases inner with
  | nil => exact .inr rfl
  | cons c rest =>
    rw [spaced_cons]
    split
    · exact .inr rfl
    · exact .inl rfl

theorem inFront_append (words : List (List Char)) (text rest : List Char) :
    inFront words (text ++ rest) = inFront words text ++ rest := by
  induction words with
  | nil => rfl
  | cons word others ih =>
    change word ++ ' ' :: inFront others (text ++ rest) = (word ++ ' ' :: inFront others text) ++ rest
    rw [ih, List.append_assoc, List.cons_append]

theorem frame_specifier {text : List Char} (last : type.namedLast = true)
    (printed : ∀ inner, type.print builtinName inner = text ++ spaced inner) :
    Frame builtinName type text ' ' [] := by
  refine ⟨rfl, delimited_nil, ?_, ?_, ?_⟩
  · rw [last]
    rfl
  · intro d rest other
    rw [printed, spaced_cons, if_neg other, List.append_nil]
  · intro inner
    rw [printed, List.append_nil]
    exact (spaced_cases inner).imp (congrArg _) fun tight => ⟨rfl, congrArg _ tight⟩

/-- Something in brackets behind the declarator. -/
theorem Frame.behind (frame : Frame builtinName pointee lead c back) {tail : List Char} (delimited : Delimited tail)
    (closes : Closes tail false) (notLast : type.namedLast = false)
    (printed : ∀ inner, type.print builtinName inner = pointee.print builtinName (inner ++ tail)) :
    Frame builtinName type lead c (tail ++ back) := by
  have closed : Closes (tail ++ back) type.namedLast := by
    have behind := frame.closes
    rw [notLast]
    cases last : pointee.namedLast with
    | true =>
      rw [last] at behind
      obtain rfl : back = [] := behind
      rwa [List.append_nil]
    | false =>
      rw [last] at behind
      exact behind.prepend tail
  refine ⟨frame.divides, delimited.append frame.delimited, closed, ?_, ?_⟩
  · intro d rest other
    rw [printed, List.cons_append, frame.declarator d _ other]
    simp only [List.cons_append, List.append_assoc]
  · intro inner
    rw [printed]
    have both := frame.any (inner ++ tail)
    rwa [List.append_assoc] at both

theorem Frame.pointer (frame : Frame builtinName pointee lead₀ c₀ back₀) (quals : Cvr) :
    ∃ lead c back, Frame builtinName (.pointer quals pointee) lead c back := by
  -- What stands around the star depends on whether it needs parentheses.
  obtain ⟨opening, closing, enclosed, delimited, first, unclosed⟩ : ∃ opening closing, (∀ inner,
      pointee.enclose ('*' :: inner) = opening ++ '*' :: inner ++ closing) ∧ Delimited closing ∧
      (∀ inner, ∃ d rest, d ≠ '[' ∧ opening ++ '*' :: inner ++ closing = d :: rest) ∧
      (pointee.namedLast = true → closing = []) := by
    unfold enclose
    cases enclosed : pointee.isArrayOrFunction with
    | true =>
      refine ⟨['('], [')'], fun _ => rfl, delimited_cons rfl, fun inner => ⟨'(', _, by decide, rfl⟩, fun last => ?_⟩
      cases pointee with
      | array | function | functionNoProto => cases last
      | _ => cases enclosed
    | false =>
      exact ⟨[], [], fun inner => (List.append_nil _).symm, delimited_nil, fun inner => ⟨'*', _, by decide, rfl⟩,
        fun _ => rfl⟩
  have closed : Closes (closing ++ back₀) pointee.namedLast := by
    have behind := frame.closes
    cases last : pointee.namedLast with
    | true =>
      rw [last] at behind
      obtain rfl : back₀ = [] := behind
      rw [unclosed last]
      rfl
    | false =>
      rw [last] at behind
      exact behind.prepend closing
  have printed (inner : List Char) : (SpelledType.pointer quals pointee).print builtinName inner =
      lead₀ ++ c₀ :: (opening ++ '*' :: behindStar quals.words inner ++ closing ++ back₀) := by
    obtain ⟨d, rest, other, same⟩ := first (behindStar quals.words inner)
    rw [print, enclosed, same, frame.declarator d rest other]
  by_cases none : quals.words = []
  · have all (inner : List Char) : (SpelledType.pointer quals pointee).print builtinName inner =
        lead₀ ++ c₀ :: opening ++ '*' :: (inner ++ (closing ++ back₀)) := by
      rw [printed, behindStar, if_pos none]
      simp
    exact ⟨lead₀ ++ c₀ :: opening, '*', closing ++ back₀, by decide, delimited.append frame.delimited, closed,
      fun d rest _ => all _, fun inner => .inl (all inner)⟩
  · have all (inner : List Char) : (SpelledType.pointer quals pointee).print builtinName inner =
        lead₀ ++ c₀ :: opening ++ '*' :: [' '].intercalate quals.words ++ (spaced inner ++ (closing ++ back₀)) := by
      rw [printed, behindStar, if_neg none]
      simp
    refine ⟨lead₀ ++ c₀ :: opening ++ '*' :: [' '].intercalate quals.words, ' ', closing ++ back₀, by decide,
      delimited.append frame.delimited, closed, ?_, ?_⟩
    · intro d rest other
      rw [all, spaced_cons, if_neg other]
      rfl
    · intro inner
      rw [all]
      rcases spaced_cases inner with apart | tight
      · exact .inl (by rw [apart]; rfl)
      · exact .inr ⟨rfl, by rw [tight]⟩

/-- Every type has one place for its declarator. -/
theorem exists_frame (builtinName : String → String) : ∀ type : SpelledType language,
    ∃ lead c back, Frame builtinName type lead c back
  | .builtin quals kind => ⟨_, _, _, frame_specifier rfl fun _ => inFront_append _ _ _⟩
  | .tag quals kind name => by
    refine ⟨inFront quals.words (tagWord kind ++ ' ' :: name.chars), _, _, frame_specifier rfl fun inner => ?_⟩
    rw [← inFront_append, List.append_assoc]
    rfl
  | .typedefName quals name target => ⟨_, _, _, frame_specifier rfl fun _ => inFront_append _ _ _⟩
  | .other quals spelling => ⟨_, _, _, frame_specifier rfl fun _ => inFront_append _ _ _⟩
  | .pointer quals pointee => by
    obtain ⟨_, _, _, frame⟩ := exists_frame builtinName pointee
    exact frame.pointer quals
  | .array extent element => by
    obtain ⟨_, _, _, frame⟩ := exists_frame builtinName element
    have bracket : Delimited extent.text := by cases extent <;> exact delimited_cons rfl
    have closes : Closes extent.text false := by
      cases extent with
      | incomplete => exact ⟨['['], ']', rfl, .inr rfl⟩
      | _ => exact ⟨_ :: _, ']', rfl, .inr rfl⟩
    exact ⟨_, _, _, frame.behind bracket closes rfl fun _ => rfl⟩
  | .function result params isVariadic => by
    obtain ⟨_, _, _, frame⟩ := exists_frame builtinName result
    exact ⟨_, _, _, frame.behind (delimited_cons rfl) ⟨_ :: _, ')', rfl, .inl rfl⟩ rfl fun _ => rfl⟩
  | .functionNoProto result => by
    obtain ⟨_, _, _, frame⟩ := exists_frame builtinName result
    exact ⟨_, _, _, frame.behind (delimited_cons rfl) ⟨['('], ')', rfl, .inl rfl⟩ rfl fun _ => rfl⟩

section Occurrences
variable {word : List Char}

theorem notMem_of_divides (letters : ∀ d ∈ word, isWordChar d = true) (divides : isWordChar c = false) : c ∉ word := by
  intro listed
  rw [letters c listed] at divides
  cases divides

end Occurrences
section Written
variable {printing : Printing} {type : SpelledType language} {qualType : QualType}

theorem isWordChar_of_mem_id : ∀ d ∈ "diag_exporter_id".toList, isWordChar d = true :=
  List.all_eq_true.mp (by decide)

/-- `struct T (*)[3]` -/
def pointerToArray : SpelledType someKeywords := .pointer .none (.array (.constant 3) structT)

/-- A table with one typedef. -/
def oneTypedef : MendingTable := MendingTable.empty.createTypedef "cmender_type_alias_0" voidType []

section Pointers
variable {word name : List Char}

/-- The text of a type with a star and a name appended has the tokens of the declaration of
a pointer exactly when the name would stand last. -/
theorem tokens_appended_star_iff (type : SpelledType language) (identifier : isIdentifierChars name = true)
    {gap : List Char} (blank : gap = [] ∨ gap = [' ']) :
    tokens (type.print builtinName [] ++ ' ' :: '*' :: (gap ++ name)) =
        tokens ((SpelledType.pointer .none type).print builtinName name) ↔ type.namedLast = true := by
  have letters := isIdentifierChars_letters identifier
  have some : name ≠ [] := by
    rintro rfl
    exact Bool.false_ne_true identifier
  have starred (text : List Char) : tokens (text ++ '*' :: name) = tokens text ++ [['*'], name] := by
    rw [tokens_append (delimited_cons rfl), tokens_cons rfl, tokens_word letters some]
    rfl
  have appended (text : List Char) : tokens (text ++ ' ' :: '*' :: (gap ++ name)) = tokens text ++ [['*'], name] := by
    rw [tokens_append (delimited_cons rfl), tokens_cons rfl, tokens_cons rfl]
    rcases blank with rfl | rfl
    · rw [List.nil_append, tokens_word letters some]
      rfl
    · rw [List.singleton_append, tokens_cons rfl, tokens_word letters some]
      rfl
  obtain ⟨lead, c, back, frame⟩ := type.exists_frame builtinName
  have closes := frame.closes
  rw [appended]
  cases last : type.namedLast with
  | true =>
    rw [last] at closes
    obtain rfl : back = [] := closes
    refine iff_of_true ?_ rfl
    have unenclosed : type.isArrayOrFunction = false := by
      cases type with
      | array | function | functionNoProto => cases last
      | _ => rfl
    have pointer : (SpelledType.pointer .none type).print builtinName name = lead ++ [c] ++ '*' :: name := by
      rw [print, enclose, unenclosed, if_neg Bool.false_ne_true]
      change type.print builtinName ('*' :: name) = _
      rw [frame.declarator '*' name (by decide)]
      simp
    rw [pointer, starred]
    rcases frame.any [] with divided | ⟨rfl, tight⟩
    · rw [divided]
      rfl
    · have nothing : tokens [' '] = [] := rfl
      rw [tight, tokens_append (delimited_cons rfl), nothing]
      simp only [List.append_nil]
  | false =>
    rw [last] at closes
    obtain ⟨front, bracket, rfl, kind⟩ := closes
    refine iff_of_false ?_ Bool.false_ne_true
    obtain ⟨d, rest, other, enclosed⟩ : ∃ d rest, d ≠ '[' ∧ type.enclose ('*' :: name) = d :: rest := by
      unfold enclose
      split
      · exact ⟨'(', _, by decide, rfl⟩
      · exact ⟨'*', _, by decide, rfl⟩
    have pointer : (SpelledType.pointer .none type).print builtinName name =
        (lead ++ c :: (d :: rest ++ front)) ++ [bracket] := by
      change type.print builtinName (type.enclose ('*' :: name)) = _
      rw [enclosed, frame.declarator d rest other]
      simp
    have separates : isWordChar bracket = false ∧ punctuation bracket = [[bracket]] := by
      rcases kind with rfl | rfl <;> exact ⟨rfl, rfl⟩
    rw [pointer, tokens_append (delimited_cons separates.1), tokens_cons separates.1, separates.2]
    intro same
    have lasts : name = [bracket] := by
      have ends := congrArg List.getLast? same
      simpa [tokens, tokensFrom, pending] using ends
    have letter := letters bracket (by rw [lasts]; exact List.mem_cons_self)
    rw [separates.1] at letter
    cases letter

/-- Behind a star that is appended to a text, the made-up name is all that is replaced. -/
theorem replaceFrom_appended_star {text : List Char} (letters : ∀ d ∈ word, isWordChar d = true) (some : word ≠ [])
    (absent : ¬ word <:+: text) {gap : List Char} (blank : gap = [] ∨ gap = [' ']) :
    replaceFrom word name 0 (text ++ ' ' :: '*' :: (gap ++ word)) = text ++ ' ' :: '*' :: (gap ++ name) := by
  have space : ' ' ∉ word := notMem_of_divides letters rfl
  have star : '*' ∉ word := notMem_of_divides letters rfl
  have nothing : ¬ word <:+: [] := by simpa using some
  have behindSpace : ¬ word <:+: text ++ [' '] := by
    rw [infix_append_cons space]
    exact not_or.mpr ⟨absent, nothing⟩
  rcases blank with rfl | rfl
  · have replaced := replaceFrom_word some star name (text ++ [' ']) []
    simpa [replaceFrom_of_free behindSpace, replaceFrom] using replaced
  · have behindStar : ¬ word <:+: text ++ [' '] ++ ['*'] := by
      rw [infix_append_cons star]
      exact not_or.mpr ⟨behindSpace, nothing⟩
    have replaced := replaceFrom_word some space name (text ++ [' '] ++ ['*']) []
    rw [replaceFrom_of_free behindStar] at replaced
    simpa [replaceFrom] using replaced

theorem tokens_typedef (text : List Char) :
    tokens ("typedef " ++ String.ofList text ++ ";").toList = "typedef".toList :: (tokens text ++ [[';']]) := by
  have split : ("typedef " ++ String.ofList text ++ ";").toList = "typedef".toList ++ ' ' :: (text ++ [';']) := by
    simp [String.toList_append]
  have keyword : tokens "typedef".toList = ["typedef".toList] := rfl
  rw [split, tokens_append (delimited_cons rfl), tokens_cons rfl, tokens_append (delimited_cons rfl), keyword]
  rfl

/-- The definition of a symbol reads as that of a typedef for a pointer to the type. -/
def DefinesPointer (builtinName : String → String) (type : SpelledType language) (table : MendingTable)
    (symbol : Ref TypedefSymbol) : Prop :=
  ∃ text, (Symbol.typedef symbol).asDefinitionString table = .ok text ∧
    tokens text.toList = tokens ("typedef " ++ String.ofList ((SpelledType.pointer .none type).print builtinName
      (table.symbolName symbol).toList) ++ ";").toList

theorem definesPointer_iff {table : MendingTable} {symbol : Ref TypedefSymbol} (gap : List Char)
    (blank : gap = [] ∨ gap = [' ']) (usage : (table.symbolType symbol).typeUsageInDecls.toList =
      type.print builtinName [] ++ ' ' :: '*' :: (gap ++ "diag_exporter_id".toList))
    (absent : ¬ "diag_exporter_id".toList <:+: type.print builtinName [])
    (identifier : isIdentifierChars (table.symbolName symbol).toList = true) :
    DefinesPointer builtinName type table symbol ↔ type.namedLast = true := by
  have text : (Symbol.typedef symbol).asDefinitionString table =
      .ok ("typedef " ++ String.ofList (type.print builtinName [] ++ ' ' :: '*' ::
        (gap ++ (table.symbolName symbol).toList)) ++ ";") := by
    change Except.ok ("typedef " ++ (table.symbolType symbol).substituteTypeUsageId (table.symbolName symbol) ++
      ";") = _
    rw [QualType.substituteTypeUsageId, Text.replace, usage,
      replaceFrom_appended_star isWordChar_of_mem_id (by decide) absent blank]
  rw [← type.tokens_appended_star_iff identifier blank, DefinesPointer, text]
  constructor
  · rintro ⟨_, ⟨⟩, same⟩
    rw [tokens_typedef, tokens_typedef] at same
    exact List.append_cancel_right (List.cons.inj same).2
  · intro same
    exact ⟨_, rfl, by rw [tokens_typedef, tokens_typedef, same]⟩

/-- The two heuristics that make pointers append a star to the text of the type. What they
have written defines a pointer exactly when no array or function is part of the type's
declarator. -/
theorem appended_star_defines_pointer_iff (builtinName : String → String) (type : SpelledType language)
    (qualType pointee : QualType) (typeAsString : String)
    (spelled : qualType.canonicalTypeAsString = String.ofList (type.print builtinName []))
    (absent : Text.contains qualType.canonicalTypeAsString "diag_exporter_id" = false) (table : MendingTable)
    (symbol : Ref TypedefSymbol) (identifier : isIdentifierChars (table.symbolName symbol).toList = true) :
    (DefinesPointer builtinName type
        (table.settle symbol (memberPointerType typeAsString qualType.canonicalTypeAsString pointee)) symbol ↔
      type.namedLast = true) ∧
    (DefinesPointer builtinName type (table.retype symbol qualType.pointerTo) symbol ↔ type.namedLast = true) := by
  have absent : ¬ "diag_exporter_id".toList <:+: type.print builtinName [] := by
    have text := String.toList_ofList (l := type.print builtinName [])
    rwa [spelled, Text.contains, text, Bool.eq_false_iff, ne_eq, containsChars_iff] at absent
  have settled {other : QualType} : (table.settle symbol other).symbolType symbol = other := by
    rw [MendingTable.symbolType_settle, if_pos rfl]
  have retyped {other : QualType} : (table.retype symbol other).symbolType symbol = other :=
    MendingTable.symbolType_setAliasedType.trans (if_pos rfl)
  have named {other : QualType} : (table.settle symbol other).symbolName symbol = table.symbolName symbol :=
    MendingTable.symbolName_setLocked
  constructor
  · refine definesPointer_iff [] (.inl rfl) ?_ absent (by rw [named]; exact identifier)
    rw [settled]
    change (qualType.canonicalTypeAsString ++ " *diag_exporter_id").toList = _
    rw [spelled, String.toList_append, String.toList_ofList]
    rfl
  · refine definesPointer_iff [' '] (.inr rfl) ?_ absent identifier
    rw [retyped]
    change (qualType.canonicalTypeAsString ++ " * diag_exporter_id").toList = _
    rw [spelled, String.toList_append, String.toList_ofList]
    rfl

/-- A pointer to `struct T`, and what subscripting makes of `struct T (*)[3]`. -/
theorem appended_star_defines_pointer_struct :
    DefinesPointer (fun _ => "int") structT
      (oneTypedef.retype MendingTable.empty.typedefSymbols.next (structType "T").pointerTo)
      MendingTable.empty.typedefSymbols.next ∧
    ¬ DefinesPointer (fun _ => "int") pointerToArray
      (oneTypedef.retype MendingTable.empty.typedefSymbols.next
        (QualType.spelled "struct T (*)[3]" "struct T (*diag_exporter_id)[3]" (.pointer voidType)).pointerTo)
      MendingTable.empty.typedefSymbols.next := by
  constructor
  · exact (appended_star_defines_pointer_iff (fun _ => "int") structT (structType "T") voidType "" (by decide)
      (by decide) oneTypedef _ (by decide)).2.mpr rfl
  · intro defines
    have last := (appended_star_defines_pointer_iff (fun _ => "int") pointerToArray
      (.spelled "struct T (*)[3]" "struct T (*diag_exporter_id)[3]" (.pointer voidType)) voidType "" (by decide)
      (by decide) oneTypedef _ (by decide)).2.mp defines
    cases last

end Pointers

end Written
end SpelledType
end CMender.Exporter
