import CMender.Foundations.Looping
import CMender.Foundations.Regex
import CMender.Foundations.Text

/-! How the include directives of the dataset are rewritten. A pattern captures the path
between the delimiters, and a loop takes the parent directories out of it one by one. The
loop asks for `../` anywhere in the path, and takes it out only as a whole component. -/
namespace CMender.Dataset
open Foundations Foundations.Regex

/-- `\s` in a pattern for Unicode texts. -/
def isSpace (c : Char) : Bool :=
  let code := c.toNat
  (9 ≤ code && code ≤ 13) || (28 ≤ code && code ≤ 32) || code == 0x85 || code == 0xA0 || code == 0x1680 ||
    (0x2000 ≤ code && code ≤ 0x200A) || code == 0x2028 || code == 0x2029 || code == 0x202F || code == 0x205F ||
    code == 0x3000

/-- `(# ?include\s+[<"])` -/
def leadPattern : Pattern :=
  .group 1 (.all [.literal "#", .optional (.literal " "), .literal "include", .atLeastOne isSpace, .oneOf "<\""])

/-- `(.*?)([">])` -/
def closingPattern : Pattern := .seq (.group 2 (.lazy (· != '\n'))) (.group 3 (.oneOf "\">"))

/-- `(# ?include\s+[<"])(.*?)([">])` -/
def includePattern : Pattern := .seq leadPattern closingPattern

/-- `(^|/)\.\./` -/
def parentPattern : Pattern := .seq (.group 1 (.alt .start (.literal "/"))) (.literal "../")

/-- One round of the loop: another path, or the end. -/
def removeParentDirectory (path : List Char) : List Char ⊕ List Char :=
  if Text.containsChars "../".toList path then .inl (subFirst parentPattern ['/'] true path) else .inr path

def stripSlashes (path : List Char) : List Char := (path.dropWhile (· == '/')).rdropWhile (· == '/')

/-- What a match is replaced by; the loop has `fuel` rounds. -/
def removeParentDirectories (fuel : Nat) (found : Reading) : Option (List Char) := do
  let path ← Looping.iterate removeParentDirectory fuel (found.group 2)
  return found.group 1 ++ stripSlashes path ++ found.group 3

def convertIncludePath (fuel : Nat) (includeLine : List Char) : Option (List Char) :=
  sub includePattern (removeParentDirectories fuel) includeLine

/-- The conversion ends, with this line. -/
def Converts (includeLine result : List Char) : Prop := ∃ fuel, convertIncludePath fuel includeLine = some result

example : convertIncludePath 3 "# include \"../../a/b.h\" // x\n".toList =
    some "# include \"a/b.h\" // x\n".toList := by
  decide

/-! ### What the pattern captures -/

def isCloser (c : Char) : Bool := c == '"' || c == '>'

/-- What the first group reads. -/
def Lead (lead : List Char) : Prop :=
  ∃ gap spaces opener, (gap = [] ∨ gap = [' ']) ∧ spaces ≠ [] ∧ (∀ c ∈ spaces, isSpace c = true) ∧
    (opener = '<' ∨ opener = '"') ∧ lead = '#' :: (gap ++ ("include".toList ++ (spaces ++ [opener])))

/-- What the second group reads. -/
def Captured (path : List Char) : Prop := ∀ c ∈ path, c ≠ '\n' ∧ isCloser c = false

/-- The match with these three groups. -/
def includeReading (lead path : List Char) (closer : Char) (rest : List Char) : Reading :=
  ⟨lead ++ (path ++ [closer]), [(1, lead), (2, path), (3, [closer])], rest⟩

section Pattern
variable {lead other path rest left input : List Char} {closer : Char} {atStart : Bool} {reading : Reading}

theorem isOpener_iff {c : Char} : "<\"".toList.contains c = true ↔ c = '<' ∨ c = '"' := by
  simp

theorem isCloser_iff {c : Char} : isCloser c = true ↔ c = '"' ∨ c = '>' := by
  simp [isCloser]

theorem mem_readings_lead : reading ∈ readings leadPattern atStart input ↔
    ∃ lead rest, Lead lead ∧ input = lead ++ rest ∧ reading = ⟨lead, [(1, lead)], rest⟩ := by
  have described : Describes (.all [.literal "#", .optional (.literal " "), .literal "include",
      .atLeastOne isSpace, .oneOf "<\""]) _ :=
    (Describes.literal "#").seq (((Describes.literal " ").alt .empty).seq
      ((Describes.literal "include").seq ((Describes.char.seq .greedy).seq (Describes.char.seq .empty))))
  rw [leadPattern, mem_readings_group]
  constructor
  · rintro ⟨_, listed, rfl⟩
    obtain ⟨text, inLanguage, rest, split, rfl⟩ := (described _ _ _).mp listed
    obtain ⟨_, rfl, _, afterHash, rfl⟩ := Language.mem_mul.mp inLanguage
    obtain ⟨gap, isGap, _, afterGap, rfl⟩ := Language.mem_mul.mp afterHash
    obtain ⟨_, rfl, _, afterWord, rfl⟩ := Language.mem_mul.mp afterGap
    obtain ⟨_, isSpaces, _, afterSpaces, rfl⟩ := Language.mem_mul.mp afterWord
    obtain ⟨_, ⟨first, space, rfl⟩, more, spaces, rfl⟩ := Language.mem_mul.mp isSpaces
    obtain ⟨_, ⟨opener, opens, rfl⟩, _, rfl, rfl⟩ := Language.mem_mul.mp afterSpaces
    refine ⟨_, rest, ⟨gap, first :: more, opener, isGap.symm, List.cons_ne_nil _ _, ?_, isOpener_iff.mp opens, rfl⟩,
      split, rfl⟩
    exact List.forall_mem_cons.mpr ⟨space, spaces⟩
  · rintro ⟨_, rest, ⟨gap, spaces, opener, isGap, nonempty, allSpaces, opens, rfl⟩, split, rfl⟩
    obtain ⟨first, more, rfl⟩ := List.exists_cons_of_ne_nil nonempty
    obtain ⟨space, moreSpaces⟩ := List.forall_mem_cons.mp allSpaces
    refine ⟨⟨_, [], rest⟩, (described _ _ _).mpr ⟨_, ?_, rest, split, rfl⟩, rfl⟩
    have hasOpener : [opener] ∈ one ("<\"".toList.contains ·) := ⟨opener, isOpener_iff.mpr opens, rfl⟩
    have hasFirst : [first] ∈ one isSpace := ⟨first, space, rfl⟩
    have hasMore : more ∈ many isSpace := moreSpaces
    have hasGap : gap ∈ ({" ".toList} + 1 : Language Char) := isGap.symm
    have hash : "#".toList ∈ ({"#".toList} : Language Char) := rfl
    have word : "include".toList ∈ ({"include".toList} : Language Char) := rfl
    exact Language.append_mem_mul hash (Language.append_mem_mul hasGap (Language.append_mem_mul word
      (Language.append_mem_mul (Language.append_mem_mul hasFirst hasMore)
        (Language.append_mem_mul hasOpener Language.nil_mem_one))))

theorem Lead.hash (isLead : Lead lead) : ∃ tail, lead = '#' :: tail ∧ '#' ∉ tail := by
  obtain ⟨gap, spaces, opener, isGap, _, allSpaces, opens, rfl⟩ := isLead
  refine ⟨_, rfl, ?_⟩
  have noGap : '#' ∉ gap := by
    rcases isGap with rfl | rfl <;> decide
  have noSpace : '#' ∉ spaces := fun listed => by
    have space := allSpaces '#' listed
    revert space
    decide
  have noOpener : '#' ∉ [opener] := by
    rcases opens with rfl | rfl <;> decide
  simp only [List.mem_append, not_or]
  exact ⟨noGap, by decide, noSpace, noOpener⟩

theorem isSpace_opener {c : Char} (opens : c = '<' ∨ c = '"') : isSpace c = false := by
  rcases opens with rfl | rfl <;> decide

/-- The spaces on both sides of the word are determined by the text. -/
theorem start_unique {gap otherGap spaces otherSpaces : List Char} {opener otherOpener : Char}
    (gapSpaces : ∀ c ∈ gap, isSpace c = true) (otherGapSpaces : ∀ c ∈ otherGap, isSpace c = true)
    (allSpaces : ∀ c ∈ spaces, isSpace c = true) (allOtherSpaces : ∀ c ∈ otherSpaces, isSpace c = true)
    (opens : opener = '<' ∨ opener = '"') (otherOpens : otherOpener = '<' ∨ otherOpener = '"')
    (same : '#' :: (gap ++ ("include".toList ++ (spaces ++ opener :: rest))) =
      '#' :: (otherGap ++ ("include".toList ++ (otherSpaces ++ otherOpener :: left)))) :
    gap = otherGap ∧ spaces = otherSpaces ∧ opener = otherOpener ∧ rest = left := by
  have letter : isSpace 'i' = false := by decide
  obtain ⟨sameGap, _, afterWord⟩ :=
    Text.append_cons_unique gapSpaces letter otherGapSpaces letter (List.cons.inj same).2
  have behind := @List.append_cancel_left _ "nclude".toList _ _ afterWord
  obtain ⟨sameSpaces, sameOpener, sameRest⟩ := Text.append_cons_unique allSpaces (isSpace_opener opens)
    allOtherSpaces (isSpace_opener otherOpens) behind
  exact ⟨sameGap, sameSpaces, sameOpener, sameRest⟩

theorem isSpace_gap {gap : List Char} (isGap : gap = [] ∨ gap = [' ']) : ∀ c ∈ gap, isSpace c = true := by
  intro c listed
  rcases isGap with rfl | rfl
  · cases listed
  · rw [List.mem_singleton.mp listed]
    decide

/-- A text has one beginning that the first group reads. -/
theorem Lead.unique (isLead : Lead lead) (isOther : Lead other) (same : lead ++ rest = other ++ left) :
    lead = other ∧ rest = left := by
  obtain ⟨gap, spaces, opener, isGap, _, allSpaces, opens, rfl⟩ := isLead
  obtain ⟨otherGap, otherSpaces, otherOpener, isOtherGap, _, allOtherSpaces, otherOpens, rfl⟩ := isOther
  simp only [List.cons_append, List.append_assoc, List.nil_append] at same
  obtain ⟨rfl, rfl, rfl, rfl⟩ := start_unique (isSpace_gap isGap) (isSpace_gap isOtherGap) allSpaces allOtherSpaces
    opens otherOpens same
  exact ⟨rfl, rfl⟩

theorem find?_closing : find? closingPattern atStart input = some reading ↔
    ∃ path closer rest, Captured path ∧ isCloser closer = true ∧ input = path ++ closer :: rest ∧
      reading = ⟨path ++ [closer], [(2, path), (3, [closer])], rest⟩ := by
  have closers : ("\">".toList.contains ·) = isCloser := by
    funext c
    rw [Bool.eq_iff_iff, isCloser_iff]
    simp
  rw [closingPattern, Pattern.oneOf, closers, find?_lazy_until]
  simp only [Captured, bne_iff_ne]

theorem find?_behind_lead (isLead : Lead lead) : find? includePattern atStart (lead ++ rest) =
    (find? closingPattern (atStart && lead.isEmpty) rest).map (Reading.followedBy ⟨lead, [(1, lead)], rest⟩) := by
  refine find?_seq (mem_readings_lead.mpr ⟨lead, rest, isLead, rfl, rfl⟩) ?_
  intro other isOther
  obtain ⟨otherLead, left, isOtherLead, same, rfl⟩ := mem_readings_lead.mp isOther
  obtain ⟨rfl, rfl⟩ := isLead.unique isOtherLead same
  rfl

/-- The pattern is found where a lead is followed by a closing delimiter on the same line. -/
theorem find?_include : find? includePattern atStart input = some reading ↔
    ∃ lead path closer rest, Lead lead ∧ Captured path ∧ isCloser closer = true ∧
      input = lead ++ (path ++ closer :: rest) ∧ reading = includeReading lead path closer rest := by
  constructor
  · intro found
    by_cases reads : ∃ one, one ∈ readings leadPattern atStart input
    · obtain ⟨one, isOne⟩ := reads
      obtain ⟨lead, rest, isLead, rfl, rfl⟩ := mem_readings_lead.mp isOne
      rw [find?_behind_lead isLead, Option.map_eq_some_iff] at found
      obtain ⟨two, isTwo, rfl⟩ := found
      obtain ⟨path, closer, rest, captured, closes, rfl, rfl⟩ := find?_closing.mp isTwo
      exact ⟨lead, path, closer, rest, isLead, captured, closes, rfl, rfl⟩
    · rw [includePattern, find?_seq_none (not_exists.mp reads)] at found
      cases found
  · rintro ⟨lead, path, closer, rest, isLead, captured, closes, rfl, rfl⟩
    rw [find?_behind_lead isLead, Option.map_eq_some_iff]
    exact ⟨_, find?_closing.mpr ⟨path, closer, rest, captured, closes, rfl, rfl⟩, rfl⟩

end Pattern

/-! ### A line, match by match -/

/-- The text of a match, with the captured path changed. -/
def rewritten (change : List Char → List Char) (reading : Reading) : List Char :=
  reading.group 1 ++ change (reading.group 2) ++ reading.group 3

/-- The line with each captured path changed. -/
def withPaths (change : List Char → List Char) (line : List Char) : List Char :=
  (segments includePattern line).flatMap (Segment.text (rewritten change))

def capturedPath : Segment → Option (List Char)
  | .plain _ => none
  | .found reading => some (reading.group 2)

def capturedPaths (line : List Char) : List (List Char) := (segments includePattern line).filterMap capturedPath

section Lines
variable {lead path rest line result : List Char} {closer c : Char} {atStart : Bool}
  {change : List Char → List Char} {fuel : Nat}

theorem find?_include_anywhere (atStart : Bool) (input : List Char) :
    find? includePattern atStart input = find? includePattern true input := by
  refine Option.ext fun reading => ?_
  rw [find?_include, find?_include]

theorem segmentsFrom_anywhere (line : List Char) :
    segmentsFrom includePattern false 0 line = segments includePattern line := by
  cases line with
  | nil => rfl
  | cons c rest => rw [segments, segmentsFrom, segmentsFrom, find?_include_anywhere false]

theorem segments_plain (fails : find? includePattern true (c :: rest) = none) :
    segments includePattern (c :: rest) = .plain c :: segments includePattern rest := by
  rw [segments, segmentsFrom_plain fails, segmentsFrom_anywhere]

theorem segments_found (isLead : Lead lead) (captured : Captured path) (closes : isCloser closer = true) :
    segments includePattern (lead ++ (path ++ closer :: rest)) =
      .found (includeReading lead path closer rest) :: segments includePattern rest := by
  have found : find? includePattern true (lead ++ (path ++ closer :: rest)) = _ :=
    find?_include.mpr ⟨lead, path, closer, rest, isLead, captured, closes, rfl, rfl⟩
  have reads : (includeReading lead path closer rest).text ≠ [] := by simp [includeReading]
  rw [segments, segmentsFrom_found found reads, segmentsFrom_anywhere]
  rfl

/-- A line is read character by character, or over a whole match. -/
@[elab_as_elim]
theorem lineInduction {motive : List Char → Prop} (nil : motive [])
    (plain : ∀ c rest, find? includePattern true (c :: rest) = none → motive rest → motive (c :: rest))
    (found : ∀ lead path closer rest, Lead lead → Captured path → isCloser closer = true → motive rest →
      motive (lead ++ (path ++ closer :: rest))) (line : List Char) : motive line := by
  induction size : line.length using Nat.strong_induction_on generalizing line with
  | _ n ih =>
    subst size
    cases line with
    | nil => exact nil
    | cons c rest =>
      cases matched : find? includePattern true (c :: rest) with
      | none => exact plain c rest matched (ih rest.length (Nat.lt_succ_self _) rest rfl)
      | some reading =>
        obtain ⟨lead, path, closer, left, isLead, captured, closes, split, _⟩ := find?_include.mp matched
        rw [split] at ih ⊢
        refine found lead path closer left isLead captured closes (ih left.length ?_ left rfl)
        simp only [List.length_append, List.length_cons]
        omega

theorem withPaths_nil : withPaths change [] = [] := rfl

theorem withPaths_plain (fails : find? includePattern true (c :: rest) = none) :
    withPaths change (c :: rest) = c :: withPaths change rest := by
  rw [withPaths, segments_plain fails]
  rfl

theorem withPaths_found (isLead : Lead lead) (captured : Captured path) (closes : isCloser closer = true) :
    withPaths change (lead ++ (path ++ closer :: rest)) = lead ++ (change path ++ closer :: withPaths change rest) := by
  rw [withPaths, segments_found isLead captured closes, List.flatMap_cons]
  change (lead ++ change path ++ [closer]) ++ withPaths change rest = _
  rw [List.append_assoc, List.append_assoc, List.singleton_append]

theorem capturedPaths_plain (fails : find? includePattern true (c :: rest) = none) :
    capturedPaths (c :: rest) = capturedPaths rest := by
  rw [capturedPaths, segments_plain fails]
  rfl

theorem capturedPaths_found (isLead : Lead lead) (captured : Captured path) (closes : isCloser closer = true) :
    capturedPaths (lead ++ (path ++ closer :: rest)) = path :: capturedPaths rest := by
  rw [capturedPaths, segments_found isLead captured closes]
  rfl

/-- Outside the captured paths nothing is lost. -/
theorem withPaths_id (line : List Char) : withPaths id line = line := by
  induction line using lineInduction with
  | nil => rfl
  | plain c rest fails ih => rw [withPaths_plain fails, ih]
  | found lead path closer rest isLead captured closes ih => rw [withPaths_found isLead captured closes, ih, id]

theorem mem_capturedPaths : path ∈ capturedPaths line ↔
    ∃ reading, .found reading ∈ segments includePattern line ∧ reading.group 2 = path := by
  rw [capturedPaths, List.mem_filterMap]
  constructor
  · rintro ⟨segment, listed, captured⟩
    cases segment with
    | plain c => cases captured
    | found reading => exact ⟨reading, listed, Option.some.inj captured⟩
  · rintro ⟨reading, listed, rfl⟩
    exact ⟨.found reading, listed, rfl⟩

theorem length_le_of_captured (listed : path ∈ capturedPaths line) : path.length ≤ line.length := by
  induction line using lineInduction with
  | nil => cases listed
  | plain c rest fails ih =>
    rw [capturedPaths_plain fails] at listed
    exact Nat.le_succ_of_le (ih listed)
  | found lead other closer rest isLead captured closes ih =>
    rw [capturedPaths_found isLead captured closes] at listed
    simp only [List.length_append, List.length_cons]
    rcases List.mem_cons.mp listed with rfl | behind
    · omega
    · have := ih behind
      omega

/-- The conversion ends when the loop ends on each captured path. -/
theorem convertIncludePath_of_forall (ends : ∀ path ∈ capturedPaths line, ∃ last,
      Looping.iterate removeParentDirectory fuel path = some last ∧ stripSlashes last = change path) :
    convertIncludePath fuel line = some (withPaths change line) := by
  refine sub_of_forall fun reading listed => ?_
  obtain ⟨last, ended, stripped⟩ := ends _ (mem_capturedPaths.mpr ⟨reading, listed, rfl⟩)
  rw [removeParentDirectories, ended, rewritten, ← stripped]
  rfl

theorem forall_of_converts (converts : Converts line result) :
    ∀ path ∈ capturedPaths line, ∃ fuel last, Looping.iterate removeParentDirectory fuel path = some last := by
  obtain ⟨fuel, returned⟩ := converts
  intro path isCaptured
  obtain ⟨reading, listed, rfl⟩ := mem_capturedPaths.mp isCaptured
  obtain ⟨text, replaced⟩ := forall_of_sub returned reading listed
  obtain ⟨last, ended, _⟩ := Option.bind_eq_some_iff.mp replaced
  exact ⟨fuel, last, ended⟩

theorem Converts.unique {other : List Char} (converts : Converts line result) (again : Converts line other) :
    result = other := by
  obtain ⟨fuel, returned⟩ := converts
  obtain ⟨more, repeated⟩ := again
  refine sub_unique (fun reading text next computed recomputed => ?_) returned repeated
  obtain ⟨last, ended, isText⟩ := Option.bind_eq_some_iff.mp computed
  obtain ⟨_, endedAgain, isNext⟩ := Option.bind_eq_some_iff.mp recomputed
  obtain rfl := Looping.iterate_unique ended endedAgain
  exact Option.some.inj (isText.symm.trans isNext)

/-! ### The match in the changed line -/

/-- What ends a captured path, or the line it has to be on. -/
def isStop (c : Char) : Bool := isCloser c || c == '\n'

theorem captured_iff : Captured path ↔ ∀ c ∈ path, isStop c = false := by
  simp only [Captured, isStop, Bool.or_eq_false_iff, beq_eq_false_iff_ne, and_comm]

theorem find?_isStop_captured (captured : Captured path) (closes : isCloser closer = true) :
    (path ++ closer :: rest).find? isStop = some closer := by
  have stops : isStop closer = true := by rw [isStop, closes, Bool.true_or]
  rw [List.find?_append, List.find?_eq_none.mpr ?_, Option.none_or, List.find?_cons_of_pos stops]
  intro c listed
  rw [captured_iff.mp captured c listed]
  exact Bool.false_ne_true

theorem captured_of_find?_isStop (found : line.find? isStop = some closer) :
    ∃ path rest, Captured path ∧ line = path ++ closer :: rest := by
  obtain ⟨_, path, rest, split, before⟩ := List.find?_eq_some_iff_append.mp found
  exact ⟨path, rest, captured_iff.mpr fun c listed => by simpa using before c listed, split⟩

variable (keeps : ∀ path, Captured path → Captured (change path))
include keeps

theorem find?_isStop_withPaths (line : List Char) : (withPaths change line).find? isStop = line.find? isStop := by
  induction line using lineInduction with
  | nil => rfl
  | plain c rest fails ih =>
    rw [withPaths_plain fails, List.find?_cons, List.find?_cons, ih]
  | found lead path closer rest isLead captured closes ih =>
    rw [withPaths_found isLead captured closes, List.find?_append,
      find?_isStop_captured (keeps path captured) closes, List.find?_append, find?_isStop_captured captured closes]

omit keeps in
/-- A beginning without `#` has no match in it. -/
theorem split_of_withPaths {front back : List Char} (noHash : '#' ∉ front)
    (split : withPaths change line = front ++ back) : ∃ left, line = front ++ left ∧ back = withPaths change left := by
  induction front generalizing line with
  | nil => exact ⟨line, rfl, split.symm⟩
  | cons c front ih =>
    obtain ⟨other, later⟩ := not_or.mp (List.mem_cons.not.mp noHash)
    induction line using lineInduction with
    | nil => cases split
    | plain d rest fails _ =>
      rw [withPaths_plain fails] at split
      obtain ⟨rfl, behind⟩ := List.cons.inj split
      obtain ⟨left, rfl, rfl⟩ := ih later behind
      exact ⟨left, rfl, rfl⟩
    | found lead path closer rest isLead captured closes _ =>
      rw [withPaths_found isLead captured closes] at split
      obtain ⟨tail, rfl, _⟩ := isLead.hash
      exact absurd (List.cons.inj split).1 other

/-- Where there was no match, the changed line has none. -/
theorem find?_withPaths_none (fails : find? includePattern true (c :: rest) = none) :
    find? includePattern true (c :: withPaths change rest) = none := by
  rw [Option.eq_none_iff_forall_ne_some]
  intro reading found
  obtain ⟨lead, path, closer, left, isLead, captured, closes, split, _⟩ := find?_include.mp found
  obtain ⟨tail, rfl, noHash⟩ := isLead.hash
  obtain ⟨rfl, behind⟩ := List.cons.inj split
  obtain ⟨right, rfl, isRight⟩ := split_of_withPaths noHash behind
  have stopped : right.find? isStop = some closer := by
    rw [← find?_isStop_withPaths keeps right, ← isRight, find?_isStop_captured captured closes]
  obtain ⟨path, after, captured, rfl⟩ := captured_of_find?_isStop stopped
  have matched : find? includePattern true ('#' :: tail ++ (path ++ closer :: after)) = _ :=
    find?_include.mpr ⟨_, path, closer, after, isLead, captured, closes, rfl, rfl⟩
  rw [List.cons_append, fails] at matched
  cases matched

/-- The changed line has its matches where the line has them. -/
theorem capturedPaths_withPaths (line : List Char) :
    capturedPaths (withPaths change line) = (capturedPaths line).map change := by
  induction line using lineInduction with
  | nil => rfl
  | plain c rest fails ih =>
    rw [withPaths_plain fails, capturedPaths_plain (find?_withPaths_none keeps fails), ih, capturedPaths_plain fails]
  | found lead path closer rest isLead captured closes ih =>
    rw [withPaths_found isLead captured closes, capturedPaths_found isLead (keeps path captured) closes, ih,
      capturedPaths_found isLead captured closes, List.map_cons]

end Lines
end CMender.Dataset
