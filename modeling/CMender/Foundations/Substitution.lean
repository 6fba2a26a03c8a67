import CMender.Foundations.Text

/-! Replacing every occurrence of a pattern. An occurrence never reaches over a character
that the pattern does not have, so a text is replaced piece by piece; and a replaced text
tells by its length, or by its letters, whether anything was replaced. -/
namespace Foundations.Text
variable {pattern replacement front back text : List Char} {c : Char}

theorem isPrefixOf_append_cons (free : c ∉ pattern) (front back : List Char) :
    pattern.isPrefixOf (front ++ c :: back) = pattern.isPrefixOf front := by
  induction front generalizing pattern with
  | nil =>
    cases pattern with
    | nil => rfl
    | cons d rest =>
      have different : (d == c) = false := beq_eq_false_iff_ne.mpr fun same => free (same ▸ List.mem_cons_self)
      rw [List.nil_append, List.isPrefixOf_cons_cons, different]
      rfl
  | cons e others ih =>
    cases pattern with
    | nil => rfl
    | cons d rest =>
      rw [List.cons_append, List.isPrefixOf_cons_cons, List.isPrefixOf_cons_cons,
        ih fun listed => free (List.mem_cons_of_mem _ listed)]

theorem length_le_of_isPrefixOf (starts : pattern.isPrefixOf (c :: text) = true) :
    pattern.length - 1 ≤ text.length := by
  have shorter := (List.isPrefixOf_iff_prefix.mp starts).length_le
  rw [List.length_cons] at shorter
  omega

theorem not_isPrefixOf_nil (some : pattern ≠ []) : pattern.isPrefixOf [] = false := by
  cases pattern with
  | nil => exact absurd rfl some
  | cons d rest => rfl

/-- The text on both sides of a character that the pattern does not have is replaced separately. -/
theorem replaceFrom_append_cons (some : pattern ≠ []) (free : c ∉ pattern) (back : List Char) {skip : Nat}
    (within : skip ≤ front.length) :
    replaceFrom pattern replacement skip (front ++ c :: back) =
      replaceFrom pattern replacement skip front ++ c :: replaceFrom pattern replacement 0 back := by
  induction front generalizing skip with
  | nil =>
    obtain rfl := Nat.le_zero.mp within
    have absent : pattern.isPrefixOf (c :: back) = false :=
      (isPrefixOf_append_cons free [] back).trans (not_isPrefixOf_nil some)
    change replaceFrom pattern replacement 0 (c :: back) = c :: _
    rw [replaceFrom, absent, if_neg Bool.false_ne_true]
  | cons e others ih =>
    cases skip with
    | succ skip => exact ih (Nat.le_of_succ_le_succ within)
    | zero =>
      have same := isPrefixOf_append_cons free (e :: others) back
      rw [List.cons_append] at same ⊢
      rw [replaceFrom, replaceFrom, same]
      cases starts : pattern.isPrefixOf (e :: others) with
      | true => rw [if_pos rfl, if_pos rfl, ih (length_le_of_isPrefixOf starts), List.append_assoc]
      | false => rw [if_neg Bool.false_ne_true, if_neg Bool.false_ne_true, ih (Nat.zero_le _), List.cons_append]

theorem replaceFrom_skip (passed rest : List Char) :
    replaceFrom pattern replacement passed.length (passed ++ rest) = replaceFrom pattern replacement 0 rest := by
  induction passed with
  | nil => rfl
  | cons c others ih => exact ih

theorem replaceFrom_pattern (some : pattern ≠ []) (rest : List Char) :
    replaceFrom pattern replacement 0 (pattern ++ rest) = replacement ++ replaceFrom pattern replacement 0 rest := by
  obtain ⟨c, others, rfl⟩ := List.exists_cons_of_ne_nil some
  have starts : (c :: others).isPrefixOf (c :: (others ++ rest)) = true :=
    List.isPrefixOf_iff_prefix.mpr (List.prefix_append (c :: others) rest)
  rw [List.cons_append, replaceFrom, if_pos starts]
  exact congrArg _ (replaceFrom_skip others rest)

/-- Behind a character that it does not have, the pattern is replaced whatever the text in
front of it is replaced by. -/
theorem replaceFrom_word (some : pattern ≠ []) (free : c ∉ pattern) (replacement front back : List Char) :
    replaceFrom pattern replacement 0 (front ++ c :: (pattern ++ back)) =
      replaceFrom pattern replacement 0 front ++ c :: (replacement ++ replaceFrom pattern replacement 0 back) := by
  rw [replaceFrom_append_cons some free _ (Nat.zero_le _), replaceFrom_pattern some]

theorem replaceFrom_of_free (free : ¬ pattern <:+: text) (replacement : List Char) :
    replaceFrom pattern replacement 0 text = text := by
  induction text with
  | nil => rfl
  | cons c rest ih =>
    rw [List.infix_cons_iff, ← List.isPrefixOf_iff_prefix, not_or] at free
    rw [replaceFrom, if_neg free.1, ih free.2]

end Foundations.Text
