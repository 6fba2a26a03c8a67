import CMender.Foundations.Delimiters

/-! The tokens of a text: its words, and every other character but blanks by itself. Two
texts with the same tokens differ in blanks only where these do not matter. -/
namespace Foundations.Text
variable {front back word current : List Char} {c : Char}

/-- The word that has been read, if any. -/
def pending (current : List Char) : List (List Char) := if current = [] then [] else [current.reverse]

/-- A character that is not part of a word. -/
def punctuation (c : Char) : List (List Char) := if c = ' ' then [] else [[c]]

def tokensFrom (current : List Char) : List Char → List (List Char)
  | [] => pending current
  | c :: rest =>
    if isWordChar c then tokensFrom (c :: current) rest
    else pending current ++ punctuation c ++ tokensFrom [] rest

def tokens (text : List Char) : List (List Char) := tokensFrom [] text

theorem tokens_cons (separates : isWordChar c = false) : tokens (c :: back) = punctuation c ++ tokens back := by
  rw [tokens, tokensFrom, if_neg (by rw [separates]; exact Bool.false_ne_true)]
  rfl

theorem tokensFrom_append (delimited : Delimited back) :
    tokensFrom current (front ++ back) = tokensFrom current front ++ tokens back := by
  induction front generalizing current with
  | nil =>
    cases back with
    | nil => exact (List.append_nil _).symm
    | cons c rest =>
      have separates : ¬ isWordChar c = true := by
        rw [delimited c rfl]
        exact Bool.false_ne_true
      rw [List.nil_append, tokens_cons (delimited c rfl), tokensFrom, tokensFrom, if_neg separates, List.append_assoc]
      rfl
  | cons c rest ih =>
    rw [List.cons_append, tokensFrom, tokensFrom]
    split
    · exact ih
    · rw [ih]
      simp only [List.append_assoc]

/-- A word ends where the next text begins with something else. -/
theorem tokens_append (delimited : Delimited back) : tokens (front ++ back) = tokens front ++ tokens back :=
  tokensFrom_append delimited

theorem tokensFrom_word (letters : ∀ c ∈ word, isWordChar c = true) :
    tokensFrom current word = pending (word.reverse ++ current) := by
  induction word generalizing current with
  | nil => rfl
  | cons c rest ih =>
    rw [tokensFrom, if_pos (letters c List.mem_cons_self), ih fun d listed => letters d (List.mem_cons_of_mem _ listed),
      List.reverse_cons, List.append_assoc]
    rfl

theorem tokens_word (letters : ∀ c ∈ word, isWordChar c = true) (some : word ≠ []) : tokens word = [word] := by
  rw [tokens, tokensFrom_word letters, List.append_nil, pending, if_neg (List.reverse_eq_nil_iff.not.mpr some),
    List.reverse_reverse]

example : tokens "int (* x)[3]".toList = tokens "int(*x) [3]".toList := by decide

end Foundations.Text
