import Mathlib.Data.List.Basic
import Mathlib.Data.List.DropRight
import Mathlib.Data.Nat.Digits.Defs

/-! Text operations on character lists, each by structural recursion so that
closed texts evaluate: prefix and substring tests, splitting at blanks, replacing
every occurrence of a pattern, and the words of a text. -/
namespace Foundations.Text

def startsWith (text start : String) : Bool := start.toList.isPrefixOf text.toList

def containsChars (part : List Char) : List Char → Bool
  | [] => part.isEmpty
  | c :: rest => part.isPrefixOf (c :: rest) || containsChars part rest

def contains (text part : String) : Bool := containsChars part.toList text.toList

/-- The pieces between separators, empty ones included; there is always one. -/
def pieces (separator : Char) : List Char → List (List Char)
  | [] => [[]]
  | c :: rest => if c = separator then [] :: pieces separator rest else
      match pieces separator rest with
      | [] => [[c]]
      | piece :: more => (c :: piece) :: more

/-- Splitting drops the empty pieces at the end, and only those; a text without
the separator is one piece whatever it is. -/
def split (separator : Char) (text : String) : List String :=
  let parts := (pieces separator text.toList).map String.ofList
  if parts.length ≤ 1 then parts else (parts.reverse.dropWhile (· == "")).reverse

/-- `skip` characters of an occurrence already replaced are still to be passed. -/
def replaceFrom (pattern replacement : List Char) : Nat → List Char → List Char
  | _, [] => []
  | skip + 1, _ :: rest => replaceFrom pattern replacement skip rest
  | 0, c :: rest =>
    if pattern.isPrefixOf (c :: rest) then
      replacement ++ replaceFrom pattern replacement (pattern.length - 1) rest
    else c :: replaceFrom pattern replacement 0 rest

/-- Left to right, every occurrence that does not overlap an earlier one. -/
def replace (text pattern replacement : String) : String :=
  String.ofList (replaceFrom pattern.toList replacement.toList 0 text.toList)

/-- What a compiler may read as the letter of a name. Outside ASCII that is every character. -/
def isLetter (c : Char) : Bool := c.isAlpha || c == '_' || c == '$' || decide (128 ≤ c.toNat)

def isWordChar (c : Char) : Bool := isLetter c || c.isDigit

theorem isLetter_of_digit {c : Char} (digit : c.isDigit = true) : isLetter c = false := by
  simp only [Char.isDigit, Bool.and_eq_true, decide_eq_true_eq, ge_iff_le, UInt32.le_iff_toNat_le] at digit
  have low : 48 ≤ c.val.toNat := digit.1
  have high : c.val.toNat ≤ 57 := digit.2
  have upper : c.isUpper = false := by
    rw [← Bool.not_eq_true]
    delta Char.isUpper
    simp only [decide_eq_true_eq, ge_iff_le, UInt32.le_iff_toNat_le]
    change ¬ (65 ≤ c.val.toNat ∧ c.val.toNat ≤ 90)
    omega
  have lower : c.isLower = false := by
    rw [← Bool.not_eq_true]
    delta Char.isLower
    simp only [Bool.and_eq_true, decide_eq_true_eq, ge_iff_le, UInt32.le_iff_toNat_le]
    change ¬ (97 ≤ c.val.toNat ∧ c.val.toNat ≤ 122)
    omega
  have underscore : c ≠ '_' := by
    rintro rfl
    revert high
    decide
  have dollar : c ≠ '$' := by
    rintro rfl
    revert low
    decide
  have ascii : ¬ 128 ≤ c.toNat := by
    change ¬ 128 ≤ c.val.toNat
    omega
  have alpha : c.isAlpha = false := Bool.or_eq_false_iff.mpr ⟨upper, lower⟩
  simp only [isLetter, alpha, beq_false_of_ne underscore, beq_false_of_ne dollar, decide_eq_false ascii, Bool.or_self]

/-- A letter followed by letters and digits. -/
def isIdentifierChars : List Char → Bool
  | [] => false
  | c :: rest => isLetter c && rest.all isWordChar

/-- Maximal runs of word characters; `current` is the run read so far, reversed. -/
def wordsFrom (current : List Char) : List Char → List (List Char)
  | [] => if current = [] then [] else [current.reverse]
  | c :: rest =>
    if isWordChar c then wordsFrom (c :: current) rest
    else if current = [] then wordsFrom [] rest else current.reverse :: wordsFrom [] rest

def wordChars (text : List Char) : List (List Char) := wordsFrom [] text

def words (text : String) : List String := (wordChars text.toList).map String.ofList

theorem wordsFrom_append_separator {separator : Char} (separates : isWordChar separator = false)
    (current front back : List Char) :
    wordsFrom current (front ++ separator :: back) = wordsFrom current front ++ wordChars back := by
  induction front generalizing current with
  | nil =>
    by_cases none : current = []
    · simp [wordsFrom, wordChars, separates, none]
    · simp [wordsFrom, wordChars, separates, none]
  | cons c rest ih =>
    simp only [List.cons_append, wordsFrom]
    split
    · exact ih (c :: current)
    · split
      · exact ih []
      · rw [ih [], List.cons_append]

theorem words_append_separator {separator : Char} (separates : isWordChar separator = false)
    (front back : String) :
    words (front ++ String.ofList (separator :: back.toList)) = words front ++ words back := by
  simp only [words, String.toList_append, String.toList_ofList, wordChars]
  rw [wordsFrom_append_separator separates, List.map_append]
  rfl

/-- A run of word characters is one word. -/
theorem wordsFrom_all {current text : List Char} (all : ∀ c ∈ text, isWordChar c = true)
    (some : current ++ text ≠ []) : wordsFrom current text = [current.reverse ++ text] := by
  induction text generalizing current with
  | nil =>
    have some : current ≠ [] := by simpa using some
    simp [wordsFrom, some]
  | cons c rest ih =>
    have first : isWordChar c = true := all c List.mem_cons_self
    simp only [wordsFrom, first, if_true]
    rw [ih (fun other member => all other (List.mem_cons_of_mem _ member)) (by simp)]
    simp

theorem words_all {text : String} (all : ∀ c ∈ text.toList, isWordChar c = true) (some : text ≠ "") :
    words text = [text] := by
  have chars : text.toList ≠ [] := by simpa using some
  rw [words, wordChars, wordsFrom_all all (by simpa using chars)]
  simp

theorem startsWith_append (start rest : String) : startsWith (start ++ rest) start = true := by
  simp [startsWith, List.isPrefixOf_iff_prefix]

theorem repr_injective {a b : Nat} (same : a.repr = b.repr) : a = b := by
  rw [Nat.repr_eq_ofList_toDigits, Nat.repr_eq_ofList_toDigits, String.ofList_inj] at same
  calc a = Nat.ofDigitChars 10 (Nat.toDigits 10 a) 0 := Nat.ofDigitChars_ten_toDigits.symm
    _ = Nat.ofDigitChars 10 (Nat.toDigits 10 b) 0 := by rw [same]
    _ = b := Nat.ofDigitChars_ten_toDigits

/-- Digits never look like a minus sign, so a number and a negated one print differently. -/
theorem repr_ne_minus (a b : Nat) : a.repr ≠ "-" ++ b.repr := by
  intro same
  have minus : '-' ∈ Nat.toDigits 10 a := by
    have chars := congrArg String.toList same
    rw [Nat.repr_eq_ofList_toDigits, String.toList_ofList, String.toList_append] at chars
    rw [chars]
    simp
  have digit := Nat.isDigit_of_mem_toDigits (by decide) (by decide) minus
  exact absurd digit (by decide)

theorem repr_digits (a : Nat) : ∀ c ∈ a.repr.toList, c.isDigit = true := by
  intro c member
  rw [Nat.repr_eq_ofList_toDigits, String.toList_ofList] at member
  exact Nat.isDigit_of_mem_toDigits (by decide) (by decide) member

theorem repr_ne_empty (a : Nat) : a.repr ≠ "" := by
  intro empty
  have chars := congrArg String.toList empty
  rw [Nat.repr_eq_ofList_toDigits, String.toList_ofList] at chars
  exact absurd chars Nat.toDigits_ne_nil

theorem toString_int_injective {a b : Int} (same : toString a = toString b) : a = b := by
  simp only [Int.toString_eq_repr, Int.repr_eq_if] at same
  split at same <;> split at same
  · have equal := repr_injective same
    omega
  · exact absurd same (repr_ne_minus _ _)
  · exact absurd same.symm (repr_ne_minus _ _)
  · have equal := repr_injective ((String.append_right_inj _).mp same)
    omega

/-- A word with a number behind it is one word, unless a minus sign divides it. -/
theorem words_append_int {start : String} (letters : ∀ c ∈ start.toList, isWordChar c = true) (some : start ≠ "")
    (i : Int) : words (start ++ toString i) = [start ++ toString i] ∨
      ∃ number : Nat, words (start ++ toString i) = [start, number.repr] := by
  have digits (number : Nat) : ∀ c ∈ number.repr.toList, isWordChar c = true := by
    intro c member
    simp [isWordChar, repr_digits number c member]
  rw [Int.toString_eq_repr, Int.repr_eq_if]
  split
  · left
    apply words_all
    · intro c member
      rw [String.toList_append] at member
      rcases List.mem_append.mp member with front | back
      · exact letters c front
      · exact digits _ c back
    · intro empty
      have chars := congrArg String.toList empty
      rw [String.toList_append] at chars
      have start : start.toList = [] := (List.append_eq_nil_iff.mp chars).1
      exact some (by simpa using start)
  · right
    have minus (digits : String) : "-" ++ digits = String.ofList ('-' :: digits.toList) := by
      apply String.toList_injective
      simp
    rw [minus, words_append_separator (by decide), words_all letters some, words_all (digits _) (repr_ne_empty _)]
    exact ⟨_, rfl⟩

theorem containsChars_iff {part text : List Char} : containsChars part text = true ↔ part <:+: text := by
  induction text with
  | nil => rw [containsChars, List.isEmpty_iff, List.infix_nil]
  | cons c rest ih =>
    rw [containsChars, Bool.or_eq_true, List.isPrefixOf_iff_prefix, ih, List.infix_cons_iff]

theorem pieces_of_notMem {separator : Char} {text : List Char} (free : separator ∉ text) :
    pieces separator text = [text] := by
  induction text with
  | nil => rfl
  | cons c rest ih =>
    obtain ⟨other, later⟩ := not_or.mp (List.mem_cons.not.mp free)
    rw [pieces, if_neg (Ne.symm other), ih later]

theorem pieces_append {separator : Char} {front : List Char} (free : separator ∉ front) (back : List Char) :
    pieces separator (front ++ separator :: back) = front :: pieces separator back := by
  induction front with
  | nil => rw [List.nil_append, pieces, if_pos rfl]
  | cons c rest ih =>
    obtain ⟨other, later⟩ := not_or.mp (List.mem_cons.not.mp free)
    rw [List.cons_append, pieces, if_neg (Ne.symm other), ih later]

theorem split_of_notMem {separator : Char} {text : String} (free : separator ∉ text.toList) :
    split separator text = [text] := by
  simp [split, pieces_of_notMem free]

/-- Where the accepted characters end is determined by the text. -/
theorem append_cons_unique {accepts : Char → Bool} {front other rest left : List Char} {c d : Char}
    (all : ∀ e ∈ front, accepts e = true) (stops : accepts c = false) (allOther : ∀ e ∈ other, accepts e = true)
    (otherStops : accepts d = false) (same : front ++ c :: rest = other ++ d :: left) :
    front = other ∧ c = d ∧ rest = left := by
  have taken := congrArg (List.takeWhile accepts) same
  rw [List.takeWhile_append_of_pos all, List.takeWhile_append_of_pos allOther,
    List.takeWhile_cons_of_neg (by rw [stops]; exact Bool.false_ne_true),
    List.takeWhile_cons_of_neg (by rw [otherStops]; exact Bool.false_ne_true),
    List.append_nil, List.append_nil] at taken
  subst taken
  obtain ⟨rfl, rfl⟩ := List.cons.inj (List.append_cancel_left same)
  exact ⟨rfl, rfl, rfl⟩

/-- A word is not broken by a character that it does not have. -/
theorem infix_append_cons {c : Char} {word front back : List Char} (free : c ∉ word) :
    word <:+: front ++ c :: back ↔ word <:+: front ∨ word <:+: back := by
  constructor
  · intro found
    have stops : ∀ {part : List Char}, c ∉ part → part <+: c :: back → part = [] := by
      intro part absent starts
      cases part with
      | nil => rfl
      | cons d part =>
        obtain rfl := (List.cons_prefix_cons.mp starts).1
        exact absurd List.mem_cons_self absent
    rcases List.infix_append_iff.mp found with inFront | behind | ⟨first, second, rfl, ends, starts⟩
    · exact .inl inFront
    · rcases List.infix_cons_iff.mp behind with starts | inBack
      · rw [stops free starts]
        exact .inl List.nil_infix
      · exact .inr inBack
    · rw [stops (fun listed => free (List.mem_append_right _ listed)) starts, List.append_nil]
      exact .inl ends.isInfix
  · rintro (found | found)
    · exact found.trans (List.prefix_append _ _).isInfix
    · exact found.trans ((List.suffix_cons _ _).trans (List.suffix_append _ _)).isInfix

/-- A word with the separator behind it stands at the end of a piece, or further on. -/
theorem infix_append_separator {separator : Char} {word front back : List Char} (wordFree : separator ∉ word)
    (frontFree : separator ∉ front) :
    word ++ [separator] <:+: front ++ separator :: back ↔ word <:+ front ∨ word ++ [separator] <:+: back := by
  constructor
  · rintro ⟨before, behind, split⟩
    rw [List.append_assoc, List.append_assoc, List.singleton_append, ← List.append_assoc] at split
    rcases List.append_eq_append_iff.mp split with ⟨between, same, rest⟩ | ⟨between, same, rest⟩
    · cases between with
      | nil => exact .inl ⟨before, (same.trans (List.append_nil _)).symm⟩
      | cons c between =>
        obtain ⟨rfl, _⟩ := List.cons.inj rest
        exact absurd (same ▸ List.mem_append_right _ List.mem_cons_self) frontFree
    · cases between with
      | nil => exact .inl ⟨before, same.trans (List.append_nil _)⟩
      | cons c between =>
        obtain ⟨rfl, rfl⟩ := List.cons.inj rest
        -- The word is too short to reach over the separator.
        have long : separator :: between <:+ before ++ word := ⟨front, same.symm⟩
        have short : word <:+ separator :: between := by
          rcases List.suffix_or_suffix_of_suffix (List.suffix_append before word) long with short | reaches
          · exact short
          · exact absurd (reaches.subset List.mem_cons_self) wordFree
        rcases List.suffix_cons_iff.mp short with rfl | ⟨between, rfl⟩
        · exact absurd List.mem_cons_self wordFree
        · exact .inr ⟨between, behind, by simp⟩
  · rintro (⟨before, rfl⟩ | ⟨before, behind, rfl⟩)
    · exact ⟨before, back, by simp⟩
    · exact ⟨front ++ separator :: before, behind, by simp⟩

theorem split_two {front back : List Char} (frontFree : ' ' ∉ front) (backFree : ' ' ∉ back) (some : back ≠ []) :
    split ' ' (String.ofList (front ++ ' ' :: back)) = [String.ofList front, String.ofList back] := by
  have nonempty : (String.ofList back == "") = false := by
    simpa [String.ofList_eq_empty_iff] using some
  simp [split, pieces_append frontFree, pieces_of_notMem backFree, nonempty]

/-- The first word is what stands in front of the first blank. -/
theorem headD_split {front back : List Char} (frontFree : ' ' ∉ front) (some : front ≠ []) :
    (split ' ' (String.ofList (front ++ ' ' :: back))).headD "" = String.ofList front := by
  have nonempty : (String.ofList front == "") = false := by
    simpa [String.ofList_eq_empty_iff] using some
  rw [split, String.toList_ofList, pieces_append frontFree, List.map_cons]
  split
  · rfl
  · -- Only empty words at the end are dropped, and the first word is not empty.
    change (List.rdropWhile (· == "") (String.ofList front :: (pieces ' ' back).map String.ofList)).headD "" = _
    have starts := List.rdropWhile_prefix (· == "") (String.ofList front :: (pieces ' ' back).map String.ofList)
    have left : List.rdropWhile (· == "") (String.ofList front :: (pieces ' ' back).map String.ofList) ≠ [] := by
      intro none
      have all := List.rdropWhile_eq_nil_iff.mp none (String.ofList front) List.mem_cons_self
      cases nonempty.symm.trans all
    obtain ⟨first, rest, same⟩ := List.exists_cons_of_ne_nil left
    rw [same] at starts ⊢
    exact (List.cons_prefix_cons.mp starts).1

theorem blank_notMem {word : List Char} (letters : ∀ c ∈ word, isWordChar c = true) : ' ' ∉ word := by
  intro listed
  have letter := letters ' ' listed
  cases letter

theorem blank_notMem_toString (i : Int) : ' ' ∉ (toString i).toList := by
  have digits (number : Nat) : ' ' ∉ number.repr.toList := by
    intro member
    have digit := repr_digits number ' ' member
    cases digit
  rw [Int.toString_eq_repr, Int.repr_eq_if]
  split
  · exact digits _
  · rw [String.toList_append, List.mem_append]
    rintro (minus | digit)
    · cases minus with
      | tail _ rest => cases rest
    · exact digits _ digit

theorem utf8ByteSize_intercalate_empty (texts : List String) :
    ("".intercalate texts).utf8ByteSize = (texts.map String.utf8ByteSize).sum := by
  induction texts with
  | nil => rfl
  | cons text rest ih =>
    cases rest with
    | nil => simp
    | cons next others =>
      rw [String.intercalate_cons_cons, String.append_empty, String.utf8ByteSize_append, ih]
      simp only [List.map_cons, List.sum_cons]

example : split ' ' "struct S" = ["struct", "S"] := by decide
example : replace "int *id[3]" "id" "x" = "int *x[3]" := by decide
example : words "unsigned f(struct S *)" = ["unsigned", "f", "struct", "S"] := by decide

end Foundations.Text
