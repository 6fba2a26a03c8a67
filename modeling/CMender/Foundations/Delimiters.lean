import CMender.Foundations.Text

/-! Texts that differ whatever follows them. A word ends at the first character that
is no word character, so two texts that begin with different words cannot be made
equal by what is written behind them. -/
namespace Foundations.Text

/-- A word in front of the text ends where the text begins. -/
def Delimited (text : List Char) : Prop := ∀ c ∈ text.head?, isWordChar c = false

/-- The two texts cannot be made equal by what a delimiter begins behind them. -/
def Apart (x y : List Char) : Prop := ∀ r s, Delimited r → Delimited s → x ++ r ≠ y ++ s

variable {x y r s : List Char} {c d : Char}

theorem delimited_nil : Delimited [] := fun _ none => nomatch none

theorem delimited_cons (separates : isWordChar c = false) : Delimited (c :: x) := by
  intro first same
  obtain rfl := Option.some.inj same
  exact separates

theorem Delimited.append (first : Delimited x) (second : Delimited y) : Delimited (x ++ y) := by
  cases x with
  | nil => exact second
  | cons c rest => exact delimited_cons (first c rfl)

theorem Apart.ne (apart : Apart x y) : x ≠ y := by
  have different := apart [] [] delimited_nil delimited_nil
  rwa [List.append_nil, List.append_nil] at different

theorem Apart.prepend (apart : Apart x y) (front : List Char) : Apart (front ++ x) (front ++ y) := by
  intro r s delimited delimited' same
  rw [List.append_assoc, List.append_assoc] at same
  exact apart r s delimited delimited' (List.append_cancel_left same)

theorem Apart.append (apart : Apart x y) (first : Delimited r) (second : Delimited s) :
    Apart (x ++ r) (y ++ s) := by
  intro u v delimited delimited' same
  rw [List.append_assoc, List.append_assoc] at same
  exact apart (r ++ u) (s ++ v) (first.append delimited) (second.append delimited') same

theorem apart_of_heads (different : c ≠ d) : Apart (c :: x) (d :: y) := by
  intro r s _ _ same
  exact different (List.cons.inj same).1

/-- A delimited text does not begin like a word. -/
theorem apart_of_word (word : isWordChar c = true) (delimited : Delimited y) : Apart (c :: x) y := by
  intro r s _ behind same
  have first := delimited.append behind c (by rw [← same]; rfl)
  cases word.symm.trans first

theorem Apart.nonempty (apart : Apart x y) (first : Delimited x) (second : Delimited y) : x ≠ [] ∧ y ≠ [] := by
  constructor
  · rintro rfl
    exact apart y [] second delimited_nil (by rw [List.append_nil, List.nil_append])
  · rintro rfl
    exact apart [] x delimited_nil first (by rw [List.append_nil, List.nil_append])

/-- What follows tells two texts apart, unless they are apart already. -/
theorem apart_append (related : x = y ∨ Apart x y) (behind : Apart r s) (first : Delimited r) (second : Delimited s) :
    Apart (x ++ r) (y ++ s) := by
  rcases related with rfl | apart
  · exact behind.prepend x
  · exact apart.append first second

theorem related_append (related : x = y ∨ Apart x y) (behind : r = s ∨ Apart r s) (first : Delimited r)
    (second : Delimited s) : x ++ r = y ++ s ∨ Apart (x ++ r) (y ++ s) := by
  rcases behind with rfl | behind
  · exact related.imp (congrArg (· ++ r)) fun apart => apart.append first second
  · exact .inr (apart_append related behind first second)

section Words
variable {word other : List Char}

theorem delimited_dropWhile (text : List Char) : Delimited (text.dropWhile isWordChar) := by
  intro c first
  have stops := List.head?_dropWhile_not isWordChar text
  rw [Option.mem_def.mp first] at stops
  exact stops

theorem takeWhile_word (letters : ∀ c ∈ word, isWordChar c = true) (delimited : Delimited r) :
    (word ++ r).takeWhile isWordChar = word := by
  rw [List.takeWhile_append_of_pos letters]
  cases r with
  | nil => exact List.append_nil word
  | cons c rest => rw [List.takeWhile_cons_of_neg (by rw [delimited c rfl]; exact Bool.false_ne_true), List.append_nil]

/-- Two texts that begin with different words. -/
theorem apart_words (letters : ∀ c ∈ word, isWordChar c = true) (otherLetters : ∀ c ∈ other, isWordChar c = true)
    (different : word ≠ other) (first : Delimited x) (second : Delimited y) : Apart (word ++ x) (other ++ y) := by
  intro r s delimited delimited' same
  apply different
  rw [List.append_assoc, List.append_assoc] at same
  rw [← takeWhile_word letters (first.append delimited), same, takeWhile_word otherLetters (second.append delimited')]

end Words
end Foundations.Text
