import Mathlib.Data.List.Basic

/-! Lines as a buffered reader hands them out. A line feed, a carriage return or both
together end a line; an unfinished line at the end of the text is a line if there is
anything on it. What is written line by line is read back as it was. -/
namespace Foundations.Lines

/-- The line that is being read, reversed. After a carriage return a line feed is passed over. -/
def linesFrom (skipLineFeed : Bool) (current : List Char) : List Char → List (List Char)
  | [] => if current = [] then [] else [current.reverse]
  | c :: rest =>
    if skipLineFeed && c == '\n' then linesFrom false current rest
    else if c == '\n' then current.reverse :: linesFrom false [] rest
    else if c == '\r' then current.reverse :: linesFrom true [] rest
    else linesFrom false (c :: current) rest

def lines (text : List Char) : List (List Char) := linesFrom false [] text

/-- Every line with a line feed behind it. -/
def writeLines (written : List (List Char)) : List Char := written.flatMap (· ++ ['\n'])

/-- Lines with line feeds between them, and one more behind the last. -/
theorem intercalate_lineFeed {written : List (List Char)} (some : written ≠ []) :
    ['\n'].intercalate written ++ ['\n'] = writeLines written := by
  induction written with
  | nil => exact absurd rfl some
  | cons line rest ih =>
    cases rest with
    | nil => simp [writeLines]
    | cons next more =>
      rw [List.intercalate_cons_cons, List.append_assoc, List.append_assoc, ih (List.cons_ne_nil _ _)]
      simp [writeLines]

/-- Nothing that ends a line. -/
def Unbroken (line : List Char) : Prop := '\n' ∉ line ∧ '\r' ∉ line

instance (line : List Char) : Decidable (Unbroken line) := inferInstanceAs (Decidable (_ ∧ _))

theorem unbroken_nil : Unbroken [] := ⟨List.not_mem_nil, List.not_mem_nil⟩

theorem unbroken_reverse {line : List Char} (unbroken : Unbroken line) : Unbroken line.reverse :=
  ⟨fun broken => unbroken.1 (List.mem_reverse.mp broken), fun broken => unbroken.2 (List.mem_reverse.mp broken)⟩

theorem unbroken_cons {c : Char} {line : List Char} : Unbroken (c :: line) ↔ c ≠ '\n' ∧ c ≠ '\r' ∧ Unbroken line := by
  simp only [Unbroken, List.mem_cons, not_or, ne_eq, @eq_comm _ c]
  tauto

theorem unbroken_of_mem_linesFrom {skip : Bool} {current text line : List Char} (unbroken : Unbroken current)
    (read : line ∈ linesFrom skip current text) : Unbroken line := by
  induction text generalizing skip current with
  | nil =>
    unfold linesFrom at read
    split at read
    · cases read
    · obtain rfl := List.mem_singleton.mp read
      exact unbroken_reverse unbroken
  | cons c rest ih =>
    unfold linesFrom at read
    split at read
    · exact ih unbroken read
    · split at read
      · rcases List.mem_cons.mp read with rfl | later
        · exact unbroken_reverse unbroken
        · exact ih unbroken_nil later
      · rename_i noLineFeed
        split at read
        · rcases List.mem_cons.mp read with rfl | later
          · exact unbroken_reverse unbroken
          · exact ih unbroken_nil later
        · rename_i noReturn
          refine ih (unbroken_cons.mpr ⟨?_, ?_, unbroken⟩) read
          · rintro rfl
            exact noLineFeed rfl
          · rintro rfl
            exact noReturn rfl

theorem unbroken_of_mem_lines {text line : List Char} (read : line ∈ lines text) : Unbroken line :=
  unbroken_of_mem_linesFrom unbroken_nil read

theorem linesFrom_append_lineFeed {line : List Char} (unbroken : Unbroken line) (current text : List Char) :
    linesFrom false current (line ++ '\n' :: text) = (current.reverse ++ line) :: lines text := by
  induction line generalizing current with
  | nil => simp [linesFrom, lines]
  | cons c rest ih =>
    obtain ⟨noLineFeed, noReturn, later⟩ := unbroken_cons.mp unbroken
    rw [List.cons_append, linesFrom, Bool.false_and, if_neg Bool.false_ne_true,
      if_neg fun same => noLineFeed (beq_iff_eq.mp same), if_neg fun same => noReturn (beq_iff_eq.mp same),
      ih later, List.reverse_cons, List.append_assoc, List.singleton_append]

/-- What is written line by line is read back, whatever comes behind it. -/
theorem lines_writeLines_append {written : List (List Char)} (unbroken : ∀ line ∈ written, Unbroken line)
    (text : List Char) : lines (writeLines written ++ text) = written ++ lines text := by
  induction written with
  | nil => rfl
  | cons line rest ih =>
    have own : writeLines (line :: rest) ++ text = line ++ '\n' :: (writeLines rest ++ text) := by
      simp [writeLines]
    rw [own, lines, linesFrom_append_lineFeed (unbroken line List.mem_cons_self),
      ih fun other later => unbroken other (List.mem_cons_of_mem _ later)]
    rfl

theorem lines_writeLines {written : List (List Char)} (unbroken : ∀ line ∈ written, Unbroken line) :
    lines (writeLines written) = written := by
  have read := lines_writeLines_append unbroken []
  rwa [List.append_nil, show lines [] = [] from rfl, List.append_nil] at read

example : lines "a\r\nb\n\rc".toList = ["a".toList, "b".toList, [], "c".toList] := by decide

end Foundations.Lines
