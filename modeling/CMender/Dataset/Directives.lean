import CMender.Dataset.ParentDirectories

/-! Include directives as the language writes them. The pattern of the conversion asks for at
most one blank behind the hash and for at least one behind the word, and it ends a header name
at either closing delimiter. What it does not capture keeps its parent directories. -/
namespace CMender.Dataset
open Foundations Foundations.Regex

def isBlank (c : Char) : Bool := c == ' ' || c == '\t'

inductive Delimiters where
  | quotes
  | angles

namespace Delimiters

def opener : Delimiters → Char
  | quotes => '"'
  | angles => '<'

def closer : Delimiters → Char
  | quotes => '"'
  | angles => '>'

end Delimiters

/-- The characters of a header name. -/
def InHeader (closer : Char) (header : List Char) : Prop := ∀ c ∈ header, c ≠ '\n' ∧ c ≠ closer

structure IncludeDirective where
  gap : List Char
  spaces : List Char
  delimiters : Delimiters
  header : List Char
  rest : List Char
  gap_blank : ∀ c ∈ gap, isBlank c = true
  spaces_blank : ∀ c ∈ spaces, isBlank c = true
  inHeader : InHeader delimiters.closer header

namespace IncludeDirective

/-- Up to the opening delimiter. -/
def start (directive : IncludeDirective) : List Char :=
  '#' :: (directive.gap ++ ("include".toList ++ (directive.spaces ++ [directive.delimiters.opener])))

def text (directive : IncludeDirective) : List Char :=
  directive.start ++ (directive.header ++ directive.delimiters.closer :: directive.rest)

end IncludeDirective

/-- The text up to a closing delimiter on the same line. -/
def upTo (closer : Char) (text : List Char) : Option (List Char) :=
  let header := text.takeWhile fun c => c != '\n' && c != closer
  if (text.drop header.length).head? = some closer then some header else none

/-- The header name of a line that is an include directive. -/
def headerName : List Char → Option (List Char)
  | [] => none
  | hash :: line =>
    let word := line.dropWhile isBlank
    if hash = '#' ∧ "include".toList.isPrefixOf word then
      match (word.drop "include".toList.length).dropWhile isBlank with
      | [] => none
      | opener :: text =>
        if opener = '"' then upTo '"' text else if opener = '<' then upTo '>' text else none
    else none

example : headerName "#  include\t<../a.h> // b".toList = some "../a.h".toList := by decide

theorem upTo_closer {closer : Char} {header rest : List Char} (inHeader : InHeader closer header) :
    upTo closer (header ++ closer :: rest) = some header := by
  have taken : (header ++ closer :: rest).takeWhile (fun c => c != '\n' && c != closer) = header := by
    rw [List.takeWhile_append_of_pos, List.takeWhile_cons_of_neg (by simp), List.append_nil]
    intro c listed
    simpa using inHeader c listed
  rw [upTo, taken, List.drop_left]
  exact if_pos rfl

theorem headerName_text (directive : IncludeDirective) : headerName directive.text = some directive.header := by
  obtain ⟨gap, spaces, delimiters, header, rest, gapBlank, spacesBlank, inHeader⟩ := directive
  have afterGap (line : List Char) :
      (gap ++ ("include".toList ++ line)).dropWhile isBlank = "include".toList ++ line := by
    rw [List.dropWhile_append_of_pos gapBlank]
    rfl
  have afterSpaces (line : List Char) : (spaces ++ delimiters.opener :: line).dropWhile isBlank =
      delimiters.opener :: line := by
    rw [List.dropWhile_append_of_pos spacesBlank, List.dropWhile_cons_of_neg]
    cases delimiters <;> decide
  have starts (line : List Char) : "include".toList.isPrefixOf ("include".toList ++ line) = true :=
    List.isPrefixOf_iff_prefix.mpr (List.prefix_append _ _)
  simp only [IncludeDirective.text, IncludeDirective.start, List.cons_append, List.append_assoc, List.nil_append]
  simp only [headerName, afterGap, starts, and_self, if_true, List.drop_left, afterSpaces]
  cases delimiters with
  | quotes => exact upTo_closer inHeader
  | angles => exact upTo_closer inHeader

/-! ### Parent directories in a text -/

section Parents
variable {path word rest : List Char} {c : Char}

theorem parent_infix_append (free : '/' ∉ word) : "/../".toList <:+: word ++ rest ↔ "/../".toList <:+: rest := by
  induction word with
  | nil => rfl
  | cons c word ih =>
    obtain ⟨other, later⟩ := not_or.mp (List.mem_cons.not.mp free)
    rw [List.cons_append, List.infix_cons_iff, ih later]
    exact or_iff_right (noSlash_of_ne other)

open IncludePath in
/-- A parent directory that a slash follows. -/
theorem parent_infix_text (path : IncludePath) : "/../".toList <:+: '/' :: path.text ↔ .parent ∈ path.directories := by
  obtain ⟨directories, name⟩ := path
  induction directories with
  | nil =>
    refine iff_of_false (fun found => ?_) nofun
    rcases List.infix_cons_iff.mp found with starts | inside
    · exact name.property ((List.cons_prefix_cons.mp starts).2.subset (by decide))
    · exact name.property (inside.subset (by decide))
  | cons first more ih =>
    have behind : "/../".toList <:+: '/' :: text ⟨more, name⟩ ↔ .parent ∈ more := ih
    have first_iff : "/../".toList <+: '/' :: (first.val ++ '/' :: text ⟨more, name⟩) ↔ .parent = first := by
      rw [show "/../".toList = '/' :: "../".toList from rfl, List.cons_prefix_cons]
      constructor
      · rintro ⟨_, starts⟩
        exact (eq_parent_of_dots starts).symm
      · rintro rfl
        exact ⟨rfl, List.prefix_append _ _⟩
    rw [text_cons, List.infix_cons_iff, first_iff, parent_infix_append first.property, behind, List.mem_cons]

theorem parent_infix_iff (path : List Char) :
    "/../".toList <:+: '/' :: path ↔ "..".toList ∈ (components path).dropLast := by
  obtain ⟨path, rfl⟩ := IncludePath.exists_text path
  rw [parent_infix_text, IncludePath.components_text, List.dropLast_concat]
  constructor
  · exact fun listed => List.mem_map_of_mem listed
  · intro listed
    obtain ⟨directory, isDirectory, same⟩ := List.mem_map.mp listed
    rwa [show directory = Component.parent from Subtype.ext same] at isDirectory

theorem components_append (path : List Char) (name : Component) :
    components (path ++ '/' :: name.val) = components path ++ [name.val] := by
  obtain ⟨path, rfl⟩ := IncludePath.exists_text path
  have longer : path.text ++ '/' :: name.val = IncludePath.text ⟨path.directories ++ [path.name], name⟩ := by
    simp [IncludePath.text]
  rw [longer, IncludePath.components_text, IncludePath.components_text, List.map_append]
  rfl

theorem components_slash (path : List Char) : components (path ++ ['/']) = components path ++ [[]] :=
  components_append path .empty

theorem mem_components_iff (path : List Char) :
    "..".toList ∈ components path ↔ "/../".toList <:+: '/' :: (path ++ ['/']) := by
  rw [parent_infix_iff, components_slash, List.dropLast_concat]

/-- Behind a character that is in no parent directory only what follows counts. -/
theorem mem_components_behind {front text : List Char} (closes : c ∉ "/../".toList)
    (free : ¬ "/../".toList <:+: '/' :: front) :
    "..".toList ∈ components (front ++ ([c] ++ text)) ↔ "/../".toList <:+: text ++ ['/'] := by
  have split : '/' :: (front ++ ([c] ++ text) ++ ['/']) = ('/' :: front) ++ c :: (text ++ ['/']) := by simp
  rw [mem_components_iff, split, Text.infix_append_cons closes]
  exact or_iff_right free

theorem not_suffix_of_named (named : (components path).getLast? ≠ some "..".toList) : ¬ "/..".toList <:+ path := by
  rintro ⟨front, rfl⟩
  have split : components (front ++ "/..".toList) = components front ++ ["..".toList] := components_append front .parent
  rw [split, List.getLast?_concat] at named
  exact named rfl

theorem dropWhile_within (path : List Char) : '/' :: path.dropWhile (· == '/') <:+ '/' :: path := by
  induction path with
  | nil => exact List.suffix_rfl
  | cons c path ih =>
    by_cases slash : c = '/'
    · subst slash
      exact ih.trans (List.suffix_cons _ _)
    · rw [List.dropWhile_cons_of_neg (by simpa using slash)]

theorem rdropWhile_within (path : List Char) : path.rdropWhile (· == '/') ++ ['/'] <+: path ++ ['/'] := by
  have within := dropWhile_within path.reverse
  rw [← List.reverse_prefix] at within
  simpa [List.rdropWhile] using within

theorem stripSlashes_within (path : List Char) : '/' :: stripSlashes path <:+: '/' :: path :=
  (List.prefix_cons_inj _ |>.mpr (List.rdropWhile_prefix _ _)).isInfix.trans (dropWhile_within path).isInfix

theorem stripSlashes_within_slashes (path : List Char) :
    '/' :: (stripSlashes path ++ ['/']) <:+: '/' :: (path ++ ['/']) := by
  have front : '/' :: (stripSlashes path ++ ['/']) <+: '/' :: (path.dropWhile (· == '/') ++ ['/']) :=
    List.prefix_cons_inj _ |>.mpr (rdropWhile_within _)
  obtain ⟨slashes, same⟩ := dropWhile_within path
  have back : '/' :: (path.dropWhile (· == '/') ++ ['/']) <:+ '/' :: (path ++ ['/']) :=
    ⟨slashes, by rw [← List.cons_append, ← List.append_assoc, same, List.cons_append]⟩
  exact front.isInfix.trans back.isInfix

theorem tidied_noParent (path : List Char) : ¬ "/../".toList <:+: '/' :: tidied path := by
  obtain ⟨path, rfl⟩ := IncludePath.exists_text path
  rw [tidied_text]
  intro found
  have listed := (parent_infix_text _).mp (found.trans (stripSlashes_within _))
  exact of_decide_eq_true (List.mem_filter.mp listed).2 rfl

/-- The last component of a path is kept. -/
theorem tidied_noParent_last (named : (components path).getLast? ≠ some "..".toList) :
    ¬ "/../".toList <:+: '/' :: (tidied path ++ ['/']) := by
  obtain ⟨path, rfl⟩ := IncludePath.exists_text path
  rw [IncludePath.components_text, List.getLast?_concat] at named
  rw [tidied_text]
  intro found
  have listed := (mem_components_iff _).mpr (found.trans (stripSlashes_within_slashes _))
  rw [IncludePath.components_text, List.mem_append, List.mem_singleton] at listed
  rcases listed with inDirectories | isName
  · obtain ⟨directory, isDirectory, same⟩ := List.mem_map.mp inDirectories
    exact of_decide_eq_true (List.mem_filter.mp isDirectory).2 (Subtype.ext same)
  · exact named (congrArg some isName.symm)

/-- Behind another character the first component counts for nothing. -/
theorem tidied_noParent_behind (named : ¬ "/..".toList <:+ path) : ¬ "/../".toList <:+: tidied path ++ ['/'] := by
  by_cases last : (components path).getLast? = some "..".toList
  · obtain ⟨⟨directories, name⟩, rfl⟩ := IncludePath.exists_text path
    rw [IncludePath.components_text, List.getLast?_concat, Option.some.injEq] at last
    obtain rfl : name = Component.parent := Subtype.ext last
    rcases List.eq_nil_or_concat directories with rfl | ⟨others, directory, rfl⟩
    · decide
    · have ends : "/..".toList <:+ IncludePath.text ⟨others.concat directory, .parent⟩ :=
        ⟨others.flatMap (fun directory => directory.val ++ ['/']) ++ directory.val,
          by simp [IncludePath.text, Component.parent]⟩
      exact absurd ends named
  · exact fun found => tidied_noParent_last last (found.trans (List.suffix_cons _ _).isInfix)

/-- The two texts have parent directories at the same places behind any text. -/
def Alike (one other : List Char) : Prop :=
  ∀ front, "/../".toList <:+: front ++ (one ++ ['/']) ↔ "/../".toList <:+: front ++ (other ++ ['/'])

theorem Alike.refl (text : List Char) : Alike text text := fun _ => Iff.rfl

theorem Alike.append_left {one other : List Char} (alike : Alike one other) (front : List Char) :
    Alike (front ++ one) (front ++ other) := by
  intro before
  have shifted := alike (before ++ front)
  simpa only [List.append_assoc] using shifted

/-- Texts without parent directories, each between characters that are in none. -/
theorem Alike.between {opener closer : Char} {first second one other : List Char} (alike : Alike one other)
    (opens : opener ∉ "/../".toList) (closes : closer ∉ "/../".toList) (firstFree : ¬ "/../".toList <:+: first)
    (secondFree : ¬ "/../".toList <:+: second) :
    Alike (opener :: (first ++ closer :: one)) (opener :: (second ++ closer :: other)) := by
  intro front
  have behind := alike []
  simp only [List.cons_append, List.append_assoc, Text.infix_append_cons opens, Text.infix_append_cons closes]
  simp only [List.nil_append] at behind
  simp only [behind, firstFree, secondFree]

theorem Alike.last {opener : Char} {first second : List Char} (opens : opener ∉ "/../".toList)
    (firstFree : ¬ "/../".toList <:+: first ++ ['/']) (secondFree : ¬ "/../".toList <:+: second ++ ['/']) :
    Alike (opener :: first) (opener :: second) := by
  intro front
  simp only [List.cons_append, Text.infix_append_cons opens, firstFree, secondFree]

end Parents

/-! ### The directive after the conversion -/

section Scanning
variable {closer : Char} {header path rest lead line : List Char} {change : List Char → List Char}

theorem Captured.inHeader (captured : Captured path) (closes : isCloser closer = true) : InHeader closer path := by
  intro c listed
  obtain ⟨sameLine, other⟩ := captured c listed
  refine ⟨sameLine, ?_⟩
  rintro rfl
  cases closes.symm.trans other

theorem closer_notMem (closes : isCloser closer = true) : closer ∉ "/../".toList := by
  rcases isCloser_iff.mp closes with rfl | rfl <;> decide

theorem Lead.opener (isLead : Lead lead) : ∃ front opener, lead = front ++ [opener] ∧ opener ∉ "/../".toList := by
  obtain ⟨gap, spaces, opener, _, _, _, opens, rfl⟩ := isLead
  refine ⟨'#' :: (gap ++ ("include".toList ++ spaces)), opener, by simp, ?_⟩
  rcases opens with rfl | rfl <;> decide

/-- The text goes up to the first closing delimiter of its kind. -/
def EndsAt (closer : Char) (text header : List Char) : Prop :=
  InHeader closer header ∧ ∃ tail, text = header ++ closer :: tail

theorem EndsAt.append {front text : List Char} (ends : EndsAt closer text header) (inHeader : InHeader closer front) :
    EndsAt closer (front ++ text) (front ++ header) := by
  obtain ⟨rest, tail, rfl⟩ := ends
  refine ⟨fun c listed => ?_, tail, (List.append_assoc _ _ _).symm⟩
  rcases List.mem_append.mp listed with inFront | behind
  · exact inHeader c inFront
  · exact rest c behind

theorem InHeader.of_subset {part : List Char} (inHeader : InHeader closer header) (fewer : part ⊆ header) :
    InHeader closer part := fun c listed => inHeader c (fewer listed)

/-- The closing delimiter of the pattern is the one of the header name, or comes before it. -/
theorem captured_or_before {other : Char} {left : List Char} (captured : Captured path)
    (closes : isCloser closer = true)
    (split : path ++ other :: left = header ++ closer :: rest) :
    (header = path ∧ closer = other ∧ left = rest) ∨
      ∃ more, header = path ++ other :: more ∧ left = more ++ closer :: rest := by
  rcases List.append_eq_append_iff.mp split with ⟨more, rfl, behind⟩ | ⟨more, rfl, behind⟩
  · cases more with
    | nil =>
      obtain ⟨rfl, rfl⟩ := List.cons.inj behind
      exact .inl ⟨List.append_nil _, rfl, rfl⟩
    | cons c more =>
      obtain ⟨rfl, rfl⟩ := List.cons.inj behind
      exact .inr ⟨more, rfl, rfl⟩
  · cases more with
    | nil =>
      obtain ⟨rfl, rfl⟩ := List.cons.inj behind
      exact .inl ⟨(List.append_nil _).symm, rfl, rfl⟩
    | cons c more =>
      obtain ⟨rfl, _⟩ := List.cons.inj behind
      have inPath := captured closer (List.mem_append_right _ List.mem_cons_self)
      cases closes.symm.trans inPath.2

theorem lead_or_inside {text : List Char} (split : lead ++ text = header ++ closer :: rest) :
    (∃ more, lead = header ++ closer :: more) ∨
      ∃ inside, header = lead ++ inside ∧ text = inside ++ closer :: rest := by
  rcases List.append_eq_append_iff.mp split with ⟨inside, rfl, behind⟩ | ⟨more, rfl, behind⟩
  · exact .inr ⟨inside, rfl, behind⟩
  · cases more with
    | nil => exact .inr ⟨[], by simp, behind.symm⟩
    | cons c more =>
      obtain ⟨rfl, _⟩ := List.cons.inj behind
      exact .inl ⟨more, rfl⟩

theorem exists_captured (closes : isCloser closer = true) (inHeader : InHeader closer header) :
    ∃ path other, Captured path ∧ isCloser other = true ∧
      (header = path ∧ closer = other ∨ ∃ more, header = path ++ other :: more) := by
  induction header with
  | nil => exact ⟨[], closer, nofun, closes, .inl ⟨rfl, rfl⟩⟩
  | cons c header ih =>
    cases stops : isCloser c with
    | true => exact ⟨[], c, nofun, stops, .inr ⟨header, rfl⟩⟩
    | false =>
      obtain ⟨path, other, captured, otherCloses, split⟩ := ih (inHeader.of_subset (List.subset_cons_self _ _))
      have first := (inHeader c List.mem_cons_self).1
      refine ⟨c :: path, other, List.forall_mem_cons.mpr ⟨⟨first, stops⟩, captured⟩, otherCloses, ?_⟩
      rcases split with ⟨rfl, same⟩ | ⟨more, rfl⟩
      · exact .inl ⟨rfl, same⟩
      · exact .inr ⟨more, rfl⟩

def erased (_ : List Char) : List Char := []

/-- A header name, or the end of one, whose last component is no parent directory. -/
structure Named (closer : Char) (header : List Char) : Prop where
  inHeader : InHeader closer header
  notParent : ¬ "/..".toList <:+ header

theorem Named.behind {front : List Char} (named : Named closer (front ++ header)) : Named closer header :=
  ⟨named.inHeader.of_subset (List.subset_append_right _ _),
    fun ends => named.notParent (ends.trans (List.suffix_append _ _))⟩

theorem Named.front {front : List Char} (named : Named closer (front ++ header)) : InHeader closer front :=
  named.inHeader.of_subset (List.subset_append_left _ _)

/-- Two texts begin with header names that have their parent directories at the same places. -/
def BothEnd (closer : Char) (one other : List Char) : Prop :=
  ∃ left right, EndsAt closer one left ∧ EndsAt closer other right ∧ Alike left right

section BothEnd
variable {one other : List Char}

theorem BothEnd.here (inHeader : InHeader closer header) (tail more : List Char) :
    BothEnd closer (header ++ closer :: tail) (header ++ closer :: more) :=
  ⟨header, header, ⟨inHeader, tail, rfl⟩, ⟨inHeader, more, rfl⟩, Alike.refl header⟩

theorem BothEnd.append {front : List Char} (ends : BothEnd closer one other) (inHeader : InHeader closer front) :
    BothEnd closer (front ++ one) (front ++ other) := by
  obtain ⟨left, right, endsLeft, endsRight, alike⟩ := ends
  exact ⟨_, _, endsLeft.append inHeader, endsRight.append inHeader, alike.append_left front⟩

/-- A captured path that the delimiter of the header name closes. -/
theorem BothEnd.last (isLead : Lead lead) (captured : Captured path) (closes : isCloser closer = true)
    (named : Named closer (lead ++ path)) (tail more : List Char) :
    BothEnd closer (lead ++ (tidied path ++ closer :: tail)) (lead ++ (erased path ++ closer :: more)) := by
  obtain ⟨front, opener, isFront, opens⟩ := isLead.opener
  have alike : Alike (opener :: tidied path) (opener :: []) :=
    Alike.last opens (tidied_noParent_behind named.behind.notParent) (by decide)
  refine ⟨lead ++ tidied path, lead ++ [], ?_, ?_, ?_⟩
  · exact EndsAt.append ⟨(captured_tidied captured).inHeader closes, _, rfl⟩ named.front
  · exact EndsAt.append ⟨nofun, _, rfl⟩ named.front
  · rw [isFront, List.append_assoc, List.append_assoc]
    exact alike.append_left front

/-- A captured path that another delimiter closes. -/
theorem BothEnd.before {c : Char} (isLead : Lead lead) (captured : Captured path) (closes : isCloser closer = true)
    (otherCloses : isCloser c = true) (inLead : InHeader closer lead) (inOther : InHeader closer [c])
    (ends : BothEnd closer one other) :
    BothEnd closer (lead ++ (tidied path ++ c :: one)) (lead ++ (erased path ++ c :: other)) := by
  obtain ⟨left, right, endsLeft, endsRight, alike⟩ := ends
  obtain ⟨front, opener, isFront, opens⟩ := isLead.opener
  have free : ¬ "/../".toList <:+: tidied path := fun found =>
    tidied_noParent path (found.trans (List.suffix_cons _ _).isInfix)
  have between := alike.between opens (closer_notMem otherCloses) free (by decide : ¬ "/../".toList <:+: [])
  refine ⟨lead ++ (tidied path ++ ([c] ++ left)), lead ++ ([c] ++ right), ?_, ?_, ?_⟩
  · exact ((endsLeft.append inOther).append ((captured_tidied captured).inHeader closes)).append inLead
  · exact (endsRight.append inOther).append inLead
  · rw [isFront, List.append_assoc, List.append_assoc]
    exact between.append_left front

end BothEnd

/-- Inside a header name the captured paths keep no parent directory, whatever stands in front. -/
theorem bothEnd_withPaths (closes : isCloser closer = true) (named : Named closer header) :
    BothEnd closer (withPaths tidied (header ++ closer :: rest)) (withPaths erased (header ++ closer :: rest)) := by
  generalize isLine : header ++ closer :: rest = line
  induction line using lineInduction generalizing header rest with
  | nil => simp at isLine
  | plain c behind fails ih =>
    rw [withPaths_plain fails, withPaths_plain fails]
    cases header with
    | nil =>
      obtain ⟨rfl, rfl⟩ := List.cons.inj isLine
      exact .here named.inHeader _ _
    | cons d header =>
      obtain ⟨rfl, rfl⟩ := List.cons.inj isLine
      have named : Named closer ([d] ++ header) := named
      exact (ih named.behind rfl).append named.front
  | found lead path other behind isLead captured otherCloses ih =>
    rw [withPaths_found isLead captured otherCloses, withPaths_found isLead captured otherCloses]
    rcases lead_or_inside isLine.symm with ⟨more, isStart⟩ | ⟨inside, rfl, split⟩
    · -- The delimiter that closes the header name opens the one of the match.
      rw [isStart, List.append_assoc, List.append_assoc]
      exact .here named.inHeader _ _
    · rcases captured_or_before captured closes split with ⟨rfl, rfl, rfl⟩ | ⟨more, rfl, rfl⟩
      · exact .last isLead captured closes named _ _
      · have inLead := named.front
        have named : Named closer ([other] ++ more) := named.behind.behind
        exact (ih named.behind rfl).before isLead captured closes otherCloses inLead named.front

/-- A match begins with a hash. -/
theorem find?_include_none {c : Char} (other : '#' ≠ c) : find? includePattern true (c :: line) = none := by
  rw [Option.eq_none_iff_forall_ne_some]
  intro reading found
  obtain ⟨lead, path, closer, left, isLead, _, _, split, _⟩ := find?_include.mp found
  obtain ⟨tail, rfl, _⟩ := isLead.hash
  exact other (List.cons.inj split).1.symm

theorem withPaths_append {front : List Char} (noHash : '#' ∉ front) :
    withPaths change (front ++ line) = front ++ withPaths change line := by
  induction front with
  | nil => rfl
  | cons c front ih =>
    obtain ⟨other, later⟩ := not_or.mp (List.mem_cons.not.mp noHash)
    rw [List.cons_append, withPaths_plain (find?_include_none other), ih later, List.cons_append]

theorem capturedPaths_append {front : List Char} (noHash : '#' ∉ front) :
    capturedPaths (front ++ line) = capturedPaths line := by
  induction front with
  | nil => rfl
  | cons c front ih =>
    obtain ⟨other, later⟩ := not_or.mp (List.mem_cons.not.mp noHash)
    rw [List.cons_append, capturedPaths_plain (find?_include_none other), ih later]

end Scanning

namespace IncludeDirective

section Conversion
variable (directive : IncludeDirective) {change : List Char → List Char}

theorem isCloser_closer : isCloser directive.delimiters.closer = true := by
  cases directive.delimiters <;> rfl

theorem opens : directive.delimiters.opener = '<' ∨ directive.delimiters.opener = '"' := by
  cases directive.delimiters
  · exact .inr rfl
  · exact .inl rfl

theorem isSpace_of_isBlank {c : Char} (blank : isBlank c = true) : isSpace c = true := by
  have either : c = ' ' ∨ c = '\t' := by simpa [isBlank] using blank
  rcases either with rfl | rfl <;> decide

theorem start_hash : ∃ tail, directive.start = '#' :: tail ∧ '#' ∉ tail := by
  refine ⟨_, rfl, ?_⟩
  have notBlank : isBlank '#' = false := by decide
  have noGap : '#' ∉ directive.gap := fun listed => by cases notBlank.symm.trans (directive.gap_blank _ listed)
  have noSpace : '#' ∉ directive.spaces := fun listed => by cases notBlank.symm.trans (directive.spaces_blank _ listed)
  have noOpener : '#' ∉ [directive.delimiters.opener] := by
    cases directive.delimiters <;> decide
  simp only [List.mem_append, not_or]
  exact ⟨noGap, by decide, noSpace, noOpener⟩

/-- The pattern is found at the directive only when it reads its beginning. -/
theorem lead_of_found {reading : Reading} (found : find? includePattern true directive.text = some reading) :
    Lead directive.start := by
  obtain ⟨_, path, closer, left, isLead, _, _, split, _⟩ := find?_include.mp found
  obtain ⟨gap, spaces, opener, isGap, nonempty, allSpaces, opens, rfl⟩ := isLead
  simp only [text, start, List.cons_append, List.append_assoc, List.nil_append] at split
  obtain ⟨rfl, rfl, rfl, _⟩ := start_unique (fun c listed => isSpace_of_isBlank (directive.gap_blank c listed))
    (isSpace_gap isGap) (fun c listed => isSpace_of_isBlank (directive.spaces_blank c listed)) allSpaces
    directive.opens opens split
  exact ⟨_, _, _, isGap, nonempty, allSpaces, opens, rfl⟩

theorem find?_missed (missed : ¬ Lead directive.start) : find? includePattern true directive.text = none := by
  rw [Option.eq_none_iff_forall_ne_some]
  exact fun reading found => missed (directive.lead_of_found found)

theorem withPaths_missed (missed : ¬ Lead directive.start) :
    withPaths change directive.text =
      directive.start ++ withPaths change (directive.header ++ directive.delimiters.closer :: directive.rest) := by
  have fails := directive.find?_missed missed
  obtain ⟨tail, isStart, noHash⟩ := directive.start_hash
  rw [text, isStart, List.cons_append] at fails
  rw [text, isStart, List.cons_append, withPaths_plain fails, withPaths_append noHash, List.cons_append]

theorem capturedPaths_missed (missed : ¬ Lead directive.start) : capturedPaths directive.text =
    capturedPaths (directive.header ++ directive.delimiters.closer :: directive.rest) := by
  have fails := directive.find?_missed missed
  obtain ⟨tail, isStart, noHash⟩ := directive.start_hash
  rw [text, isStart, List.cons_append] at fails
  rw [text, isStart, List.cons_append, capturedPaths_plain fails, capturedPaths_append noHash]

/-- The directive with another header name and what comes behind it. -/
def WithHeader (text header : List Char) : Prop :=
  ∃ converted : IncludeDirective, text = converted.text ∧ converted.header = header

theorem withHeader_of_endsAt {behind header : List Char} (ends : EndsAt directive.delimiters.closer behind header) :
    WithHeader (directive.start ++ behind) header := by
  obtain ⟨inHeader, tail, rfl⟩ := ends
  exact ⟨{ directive with header := header, rest := tail, inHeader := inHeader }, rfl, rfl⟩

/-- The conversion leaves a directive, with the parent directories that are left when the captured
paths are erased. -/
theorem exists_converted (named : (components directive.header).getLast? ≠ some "..".toList) :
    ∃ header left, WithHeader (withPaths tidied directive.text) header ∧
      WithHeader (withPaths erased directive.text) left ∧
      ("..".toList ∈ components header ↔ "..".toList ∈ components left) := by
  have closes := directive.isCloser_closer
  by_cases isLead : Lead directive.start
  · obtain ⟨path, other, captured, otherCloses, split⟩ := exists_captured closes directive.inHeader
    rcases split with ⟨rfl, _⟩ | ⟨more, isHeader⟩
    · -- The whole header name is captured.
      have whole (change : List Char → List Char) := @withPaths_found _ _ directive.rest _ change isLead captured closes
      refine ⟨tidied directive.header, [], ?_, ?_, iff_of_false (fun listed => ?_) (by decide)⟩
      · rw [text, whole]
        exact directive.withHeader_of_endsAt ⟨(captured_tidied captured).inHeader closes, _, rfl⟩
      · rw [text, whole]
        exact directive.withHeader_of_endsAt ⟨nofun, _, rfl⟩
      · exact tidied_noParent_last named ((mem_components_iff _).mp listed)
    · -- The other closing delimiter comes first.
      have named : Named directive.delimiters.closer directive.header := ⟨directive.inHeader, not_suffix_of_named named⟩
      rw [isHeader] at named
      have named : Named directive.delimiters.closer ([other] ++ more) := named.behind
      obtain ⟨left, right, endsLeft, endsRight, alike⟩ := @bothEnd_withPaths _ more directive.rest closes named.behind
      have part (change : List Char → List Char) : withPaths change directive.text = directive.start ++ (change path ++
          ([other] ++ withPaths change (more ++ directive.delimiters.closer :: directive.rest))) := by
        rw [text, isHeader, List.append_assoc, List.cons_append]
        exact withPaths_found isLead captured otherCloses
      refine ⟨tidied path ++ ([other] ++ left), [other] ++ right, ?_, ?_, ?_⟩
      · rw [part]
        have tidy := (captured_tidied captured).inHeader closes
        exact directive.withHeader_of_endsAt ((endsLeft.append named.front).append tidy)
      · rw [part]
        exact directive.withHeader_of_endsAt (endsRight.append named.front)
      · have inTidied := @mem_components_behind _ _ left (closer_notMem otherCloses) (tidied_noParent path)
        have inErased := @mem_components_behind _ [] right (closer_notMem otherCloses) (by decide)
        exact inTidied.trans ((alike []).trans inErased.symm)
  · obtain ⟨header, left, ends, endsLeft, alike⟩ :=
      bothEnd_withPaths closes ⟨directive.inHeader, not_suffix_of_named named⟩
    refine ⟨header, left, ?_, ?_, ?_⟩
    · rw [directive.withPaths_missed isLead]
      exact directive.withHeader_of_endsAt ends
    · rw [directive.withPaths_missed isLead]
      exact directive.withHeader_of_endsAt endsLeft
    · rw [mem_components_iff, mem_components_iff]
      exact alike ['/']

/-- The spellings that the pattern accepts. -/
theorem lead_start_iff : Lead directive.start ↔
    (directive.gap = [] ∨ directive.gap = [' ']) ∧ directive.spaces ≠ [] := by
  have blankSpaces : ∀ c ∈ directive.spaces, isSpace c = true := fun c listed =>
    isSpace_of_isBlank (directive.spaces_blank c listed)
  constructor
  · rintro ⟨gap, spaces, opener, isGap, nonempty, allSpaces, opens, same⟩
    simp only [start] at same
    obtain ⟨rfl, rfl, _, _⟩ := start_unique (fun c listed => isSpace_of_isBlank (directive.gap_blank c listed))
      (isSpace_gap isGap) blankSpaces allSpaces directive.opens opens same
    exact ⟨isGap, nonempty⟩
  · rintro ⟨isGap, nonempty⟩
    exact ⟨_, _, _, isGap, nonempty, blankSpaces, directive.opens, rfl⟩

/-- An ordinary directive is tidied in these spellings, and left as it is in the others. -/
theorem converts_plain (captured : Captured directive.header) (dots : DotsOnly (components directive.header))
    (noHash : '#' ∉ directive.header) (noHashBehind : '#' ∉ directive.rest) :
    (Lead directive.start → Converts directive.text
      (directive.start ++ (tidied directive.header ++ directive.delimiters.closer :: directive.rest))) ∧
    (¬ Lead directive.start → Converts directive.text directive.text) := by
  have closes := directive.isCloser_closer
  have unchanged : withPaths tidied directive.rest = directive.rest := by
    have kept := @withPaths_append [] tidied _ noHashBehind
    rwa [withPaths_nil, List.append_nil] at kept
  have nothing : capturedPaths directive.rest = [] := by
    have none := @capturedPaths_append [] _ noHashBehind
    rwa [List.append_nil] at none
  constructor
  · intro isLead
    have converts : Converts directive.text (withPaths tidied directive.text) := by
      refine converts_tidied ?_
      rw [text, capturedPaths_found isLead captured closes, nothing]
      intro path listed part isPart
      rw [List.mem_singleton.mp listed] at isPart
      exact dots part (List.mem_of_mem_dropLast isPart)
    rwa [text, withPaths_found isLead captured closes, unchanged, ← text] at converts
  · intro missed
    have noHash : '#' ∉ directive.header ++ directive.delimiters.closer :: directive.rest := by
      have noCloser : '#' ≠ directive.delimiters.closer := by
        cases directive.delimiters <;> decide
      simp [noHash, noCloser, noHashBehind]
    have converts : Converts directive.text (withPaths tidied directive.text) := by
      refine converts_tidied ?_
      rw [directive.capturedPaths_missed missed, ← List.append_nil (_ ++ _), capturedPaths_append noHash]
      exact nofun
    rwa [directive.withPaths_missed missed, ← List.append_nil (directive.header ++ _), withPaths_append noHash,
      withPaths_nil, List.append_nil] at converts

/-- The conversion ends and leaves a header name without parent directories. -/
def Freed : Prop :=
  ∃ result header, Converts directive.text result ∧ headerName result = some header ∧ "..".toList ∉ components header

theorem freed_iff (named : (components directive.header).getLast? ≠ some "..".toList) :
    directive.Freed ↔ (∀ path ∈ capturedPaths directive.text, DotsOnly (components path).dropLast) ∧
      ∃ left, headerName (withPaths erased directive.text) = some left ∧ "..".toList ∉ components left := by
  obtain ⟨_, _, ⟨converted, isConverted, rfl⟩, ⟨left, isLeft, rfl⟩, same⟩ := directive.exists_converted named
  rw [isLeft, headerName_text]
  constructor
  · rintro ⟨result, header, converts, isHeader, free⟩
    have proper := proper_of_converts converts
    rw [converts.unique (converts_tidied proper), isConverted, headerName_text] at isHeader
    obtain rfl := Option.some.inj isHeader
    exact ⟨proper, left.header, rfl, mt same.mpr free⟩
  · rintro ⟨proper, _, isHeader, free⟩
    obtain rfl := Option.some.inj isHeader
    refine ⟨_, converted.header, converts_tidied proper, ?_, mt same.mp free⟩
    rw [isConverted, headerName_text]

theorem freed_iff_of_converts {converted : IncludeDirective} (converts : Converts directive.text converted.text) :
    directive.Freed ↔ "..".toList ∉ components converted.header := by
  constructor
  · rintro ⟨result, header, converts', isHeader, free⟩
    rw [converts'.unique converts, headerName_text] at isHeader
    obtain rfl := Option.some.inj isHeader
    exact free
  · exact fun free => ⟨_, _, converts, headerName_text converted, free⟩

theorem freed_plain_iff (named : (components directive.header).getLast? ≠ some "..".toList)
    (captured : Captured directive.header) (dots : DotsOnly (components directive.header))
    (noHash : '#' ∉ directive.header) (noHashBehind : '#' ∉ directive.rest) :
    directive.Freed ↔ (directive.gap = [] ∨ directive.gap = [' ']) ∧ directive.spaces ≠ [] ∨
      "..".toList ∉ components directive.header := by
  rw [← lead_start_iff]
  obtain ⟨accepted, missed⟩ := directive.converts_plain captured dots noHash noHashBehind
  by_cases isLead : Lead directive.start
  · let converted : IncludeDirective := { directive with
      header := tidied directive.header
      inHeader := (captured_tidied captured).inHeader directive.isCloser_closer }
    have converts : Converts directive.text converted.text := accepted isLead
    have free : "..".toList ∉ components converted.header := fun listed =>
      tidied_noParent_last named ((mem_components_iff _).mp listed)
    exact iff_of_true ((directive.freed_iff_of_converts converts).mpr free) (.inl isLead)
  · rw [directive.freed_iff_of_converts (missed isLead)]
    exact (or_iff_right isLead).symm

end Conversion
end IncludeDirective

/-- The header name of a converted directive is free of parent directories when the loops end and no
parent directory is outside the captured paths. An ordinary header name is captured in the spellings
with at most one blank behind the hash and some behind the word. -/
theorem converted_header_iff (directive : IncludeDirective)
    (named : (components directive.header).getLast? ≠ some "..".toList) :
    (directive.Freed ↔ (∀ path ∈ capturedPaths directive.text, DotsOnly (components path).dropLast) ∧
      ∃ left, headerName (withPaths erased directive.text) = some left ∧ "..".toList ∉ components left) ∧
    (Captured directive.header → DotsOnly (components directive.header) → '#' ∉ directive.header →
      '#' ∉ directive.rest → (directive.Freed ↔
        (directive.gap = [] ∨ directive.gap = [' ']) ∧ directive.spaces ≠ [] ∨
          "..".toList ∉ components directive.header)) :=
  ⟨directive.freed_iff named, directive.freed_plain_iff named⟩

def oneBlank : IncludeDirective where
  gap := " ".toList
  spaces := "\t".toList
  delimiters := .angles
  header := "a/../../x.h".toList
  rest := "\n".toList
  gap_blank := by simp [isBlank]
  spaces_blank := by simp [isBlank]
  inHeader := by simp [InHeader, Delimiters.closer]

theorem converted_header_iff_oneBlank : (components oneBlank.header).getLast? ≠ some "..".toList ∧
    "..".toList ∈ components oneBlank.header ∧ oneBlank.Freed := by
  have named : (components oneBlank.header).getLast? ≠ some "..".toList := by decide
  have captured : Captured oneBlank.header := by simp [Captured, oneBlank, isCloser]
  have freed : oneBlank.Freed := ((converted_header_iff oneBlank named).2 captured (by decide) (by decide)
    (by decide)).mpr (.inl ⟨.inr rfl, by decide⟩)
  exact ⟨named, by decide, freed⟩

def twoBlanks : IncludeDirective where
  gap := "  ".toList
  spaces := " ".toList
  delimiters := .quotes
  header := "../x.h".toList
  rest := []
  gap_blank := by simp [isBlank]
  spaces_blank := by simp [isBlank]
  inHeader := by simp [InHeader, Delimiters.closer]

example : twoBlanks.text = "#  include \"../x.h\"".toList := by decide

/-- A second blank behind the hash is enough for a parent directory to stay. -/
theorem twoBlanks_keeps_parent : DotsOnly (components twoBlanks.header) ∧
    (components twoBlanks.header).getLast? ≠ some "..".toList ∧ ¬ twoBlanks.Freed := by
  refine ⟨by decide, by decide, ?_⟩
  have unchanged : Converts twoBlanks.text twoBlanks.text := ⟨1, by decide⟩
  rw [twoBlanks.freed_iff_of_converts unchanged]
  decide

end CMender.Dataset
