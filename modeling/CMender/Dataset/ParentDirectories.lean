import CMender.Dataset.Includes
import Mathlib.Data.List.Flatten

/-! The loop that takes the parent directories out of a path, seen as a loop over the
components. A round takes out the first parent directory that something follows; the loop goes
on as long as some directory ends in two dots. It ends when only the parent directory does. -/
namespace CMender.Dataset
open Foundations Foundations.Regex

def components (path : List Char) : List (List Char) := Text.pieces '/' path

/-- Of these components only the parent directory ends in two dots. -/
def DotsOnly (parts : List (List Char)) : Prop := ∀ part ∈ parts, "..".toList <:+ part → part = "..".toList

instance (parts : List (List Char)) : Decidable (DotsOnly parts) := inferInstanceAs (Decidable (∀ _ ∈ _, _ → _))

/-- A part of a path between slashes. -/
abbrev Component := {text : List Char // '/' ∉ text}

namespace Component

def parent : Component := ⟨"..".toList, by decide⟩

def empty : Component := ⟨[], nofun⟩

/-- The component looks like the parent directory to the guard of the loop. -/
def EndsInDots (component : Component) : Prop := "..".toList <:+ component.val

instance (component : Component) : Decidable component.EndsInDots := inferInstanceAs (Decidable (_ <:+ _))

end Component

/-- A directory is what a slash follows. -/
structure IncludePath where
  directories : List Component
  name : Component

namespace IncludePath

def text (path : IncludePath) : List Char :=
  path.directories.flatMap (fun directory => directory.val ++ ['/']) ++ path.name.val

/-- Only the parent directory itself ends in two dots. -/
def Proper (path : IncludePath) : Prop := ∀ directory ∈ path.directories, directory.EndsInDots → directory = .parent

/-- Without a first parent directory the path begins with a slash. -/
def withoutParent (path : IncludePath) : IncludePath :=
  match path.directories with
  | [] => path
  | first :: more =>
    if first = .parent then { path with directories := .empty :: more }
    else { path with directories := first :: more.erase .parent }

def withoutParents (path : IncludePath) : IncludePath :=
  { path with directories := path.directories.filter (· ≠ .parent) }

def nextPath (path : IncludePath) : IncludePath ⊕ IncludePath :=
  if ∃ directory ∈ path.directories, directory.EndsInDots then .inl path.withoutParent else .inr path

section Texts
variable {name directory : Component} {directories more : List Component} {path : IncludePath}

theorem text_nil : text ⟨[], name⟩ = name.val := rfl

theorem text_cons : text ⟨directory :: more, name⟩ = directory.val ++ '/' :: text ⟨more, name⟩ := by
  rw [text, List.flatMap_cons, List.append_assoc, List.append_assoc]
  rfl

theorem exists_text (characters : List Char) : ∃ path : IncludePath, path.text = characters := by
  induction characters with
  | nil => exact ⟨⟨[], .empty⟩, rfl⟩
  | cons c rest ih =>
    obtain ⟨⟨directories, name⟩, rfl⟩ := ih
    by_cases slash : c = '/'
    · subst slash
      exact ⟨⟨.empty :: directories, name⟩, text_cons⟩
    · have longer (component : Component) : '/' ∉ c :: component.val :=
        List.not_mem_cons_of_ne_of_not_mem (Ne.symm slash) component.property
      cases directories with
      | nil => exact ⟨⟨[], ⟨c :: name.val, longer name⟩⟩, rfl⟩
      | cons first more => exact ⟨⟨⟨c :: first.val, longer first⟩ :: more, name⟩, by rw [text_cons, text_cons]; rfl⟩

theorem components_text (path : IncludePath) :
    components path.text = path.directories.map Subtype.val ++ [path.name.val] := by
  obtain ⟨directories, name⟩ := path
  induction directories with
  | nil => exact Text.pieces_of_notMem name.property
  | cons first more ih =>
    rw [text_cons, components, Text.pieces_append first.property]
    exact congrArg (first.val :: ·) ih

theorem length_directories_le (path : IncludePath) : path.directories.length ≤ path.text.length := by
  obtain ⟨directories, name⟩ := path
  induction directories with
  | nil => exact Nat.zero_le _
  | cons first more ih =>
    have shorter : more.length ≤ (text ⟨more, name⟩).length := ih
    rw [text_cons, List.length_append, List.length_cons, List.length_cons]
    omega

/-- The guard of the loop. -/
theorem containsChars_text (path : IncludePath) :
    Text.containsChars "../".toList path.text = true ↔ ∃ directory ∈ path.directories, directory.EndsInDots := by
  rw [Text.containsChars_iff]
  obtain ⟨directories, name⟩ := path
  induction directories with
  | nil =>
    refine iff_of_false (fun found => ?_) nofun
    exact name.property (found.subset (by decide))
  | cons first more ih =>
    have split : "..".toList ++ ['/'] <:+: first.val ++ '/' :: text ⟨more, name⟩ ↔ _ :=
      Text.infix_append_separator (by decide) first.property
    rw [List.exists_mem_cons_iff, ← ih, text_cons]
    exact split

end Texts
end IncludePath

/-! ### One round -/

section Rounds
variable {rest input : List Char} {atStart : Bool} {reading : Reading}

theorem mem_readings_parent : reading ∈ readings parentPattern atStart input ↔
    (atStart = true ∧ ∃ rest, input = "../".toList ++ rest ∧ reading = ⟨"../".toList, [(1, [])], rest⟩) ∨
      ∃ rest, input = "/../".toList ++ rest ∧ reading = ⟨"/../".toList, [(1, ['/'])], rest⟩ := by
  have slash := Describes.literal "/"
  have dots := Describes.literal "../"
  rw [parentPattern, mem_readings_seq]
  constructor
  · rintro ⟨_, inGroup, _, isTwo, rfl⟩
    obtain ⟨one, isOne, rfl⟩ := mem_readings_group.mp inGroup
    obtain ⟨_, rfl, rest, split, rfl⟩ := (dots _ _ _).mp isTwo
    rcases mem_readings_alt.mp isOne with isStart | isSlash
    · rw [readings, List.mem_ite_nil_right, List.mem_singleton] at isStart
      obtain ⟨rfl, rfl⟩ := isStart
      exact .inl ⟨rfl, rest, split, rfl⟩
    · obtain ⟨_, rfl, _, rfl, rfl⟩ := (slash _ _ _).mp isSlash
      exact .inr ⟨rest, congrArg ('/' :: ·) split, rfl⟩
  · rintro (⟨rfl, rest, rfl, rfl⟩ | ⟨rest, rfl, rfl⟩)
    · refine ⟨_, mem_readings_group.mpr ⟨⟨[], [], "../".toList ++ rest⟩, ?_, rfl⟩, ⟨"../".toList, [], rest⟩, ?_, rfl⟩
      · exact mem_readings_alt.mpr (.inl List.mem_cons_self)
      · exact (dots _ _ _).mpr ⟨_, rfl, rest, rfl, rfl⟩
    · refine ⟨_, mem_readings_group.mpr ⟨⟨"/".toList, [], "../".toList ++ rest⟩, ?_, rfl⟩,
        ⟨"../".toList, [], rest⟩, ?_, rfl⟩
      · exact mem_readings_alt.mpr (.inr ((slash _ _ _).mpr ⟨_, rfl, "../".toList ++ rest, rfl, rfl⟩))
      · exact (dots _ _ _).mpr ⟨_, rfl, rest, rfl, rfl⟩

theorem find?_parent_none (noStart : atStart = true → ¬ "../".toList <+: input) (noSlash : ¬ "/../".toList <+: input) :
    find? parentPattern atStart input = none := by
  rw [find?, List.head?_eq_none_iff, List.eq_nil_iff_forall_not_mem]
  intro reading listed
  rcases mem_readings_parent.mp listed with ⟨starts, rest, rfl, _⟩ | ⟨rest, rfl, _⟩
  · exact noStart starts ⟨rest, rfl⟩
  · exact noSlash ⟨rest, rfl⟩

theorem subFirst_parent_start (rest : List Char) :
    subFirst parentPattern ['/'] true ("../".toList ++ rest) = '/' :: rest := rfl

theorem subFirst_parent_slash (atStart : Bool) (rest : List Char) :
    subFirst parentPattern ['/'] atStart ("/../".toList ++ rest) = '/' :: rest := by
  cases atStart <;> rfl

theorem subFirst_parent_step {c : Char} (noStart : atStart = true → ¬ "../".toList <+: c :: rest)
    (noSlash : ¬ "/../".toList <+: c :: rest) :
    subFirst parentPattern ['/'] atStart (c :: rest) = c :: subFirst parentPattern ['/'] false rest := by
  rw [subFirst, find?_parent_none noStart noSlash]

theorem noSlash_of_ne {c : Char} (other : '/' ≠ c) : ¬ "/../".toList <+: c :: rest :=
  fun starts => other (List.cons_prefix_cons.mp starts).1

theorem eq_parent_of_dots {component : Component} (starts : "../".toList <+: component.val ++ '/' :: rest) :
    component = .parent := by
  obtain ⟨behind, split⟩ := starts
  have parts : Text.pieces '/' ("..".toList ++ '/' :: behind) = Text.pieces '/' (component.val ++ '/' :: rest) :=
    congrArg _ split
  rw [Text.pieces_append (by decide), Text.pieces_append component.property] at parts
  exact Subtype.ext (List.cons.inj parts).1.symm

/-- Inside a path, only a slash can begin a match. -/
theorem subFirst_parent_inside {word : List Char} (free : '/' ∉ word) :
    subFirst parentPattern ['/'] false (word ++ rest) = word ++ subFirst parentPattern ['/'] false rest := by
  induction word with
  | nil => rfl
  | cons c word ih =>
    obtain ⟨other, later⟩ := not_or.mp (List.mem_cons.not.mp free)
    have noStart : false = true → ¬ "../".toList <+: c :: (word ++ rest) :=
      fun starts => absurd starts Bool.false_ne_true
    rw [List.cons_append, subFirst_parent_step noStart (noSlash_of_ne other), ih later, List.cons_append]

theorem subFirst_parent_component {component : Component} (noStart : ¬ "../".toList <+: component.val ++ rest) :
    subFirst parentPattern ['/'] true (component.val ++ rest) =
      component.val ++ subFirst parentPattern ['/'] component.val.isEmpty rest := by
  obtain ⟨word, free⟩ := component
  cases word with
  | nil => rfl
  | cons c word =>
    obtain ⟨other, later⟩ := not_or.mp (List.mem_cons.not.mp free)
    have noDots : true = true → ¬ "../".toList <+: c :: (word ++ rest) := fun _ => noStart
    rw [List.cons_append, subFirst_parent_step noDots (noSlash_of_ne other), subFirst_parent_inside later]
    rfl

open IncludePath

theorem subFirst_parent_behind (directories : List Component) (name : Component) :
    subFirst parentPattern ['/'] atStart ('/' :: text ⟨directories, name⟩) =
      '/' :: text ⟨directories.erase .parent, name⟩ := by
  have noDots {rest : List Char} : ¬ "../".toList <+: '/' :: rest := fun starts =>
    absurd (List.cons_prefix_cons.mp starts).1 (by decide)
  induction directories generalizing atStart with
  | nil =>
    have noSlash : ¬ "/../".toList <+: '/' :: name.val := fun starts =>
      name.property ((List.cons_prefix_cons.mp starts).2.subset (by decide))
    have passed := @subFirst_parent_inside [] name.val name.property
    rw [List.append_nil] at passed
    rw [text_nil, subFirst_parent_step (fun _ => noDots) noSlash, passed]
    exact congrArg _ (List.append_nil _)
  | cons first more ih =>
    by_cases parent : first = .parent
    · subst parent
      rw [List.erase_cons_head, text_cons]
      exact subFirst_parent_slash atStart _
    · have noSlash : ¬ "/../".toList <+: '/' :: (first.val ++ '/' :: text ⟨more, name⟩) := fun starts =>
        parent (eq_parent_of_dots (List.cons_prefix_cons.mp starts).2)
      rw [text_cons, subFirst_parent_step (fun _ => noDots) noSlash, subFirst_parent_inside first.property, ih,
        List.erase_cons_tail (mt eq_of_beq parent), text_cons]

/-- The pattern takes out a whole component. -/
theorem subFirst_parent (path : IncludePath) :
    subFirst parentPattern ['/'] true path.text = path.withoutParent.text := by
  obtain ⟨directories, name⟩ := path
  cases directories with
  | nil =>
    have noDots : ¬ "../".toList <+: name.val ++ [] := fun starts => by
      rw [List.append_nil] at starts
      exact name.property (starts.subset (by decide))
    have passed := subFirst_parent_component noDots
    rw [List.append_nil] at passed
    exact passed.trans (List.append_nil _)
  | cons first more =>
    by_cases parent : first = .parent
    · subst parent
      rw [text_cons, withoutParent]
      exact subFirst_parent_start _
    · have noDots : ¬ "../".toList <+: first.val ++ '/' :: text ⟨more, name⟩ := fun starts =>
        parent (eq_parent_of_dots starts)
      rw [text_cons, subFirst_parent_component noDots, subFirst_parent_behind, withoutParent]
      simp only [if_neg parent, text_cons]

/-- The loop over the characters runs as the loop over the components. -/
theorem removeParentDirectory_text (path : IncludePath) :
    removeParentDirectory path.text = path.nextPath.map text text := by
  rw [removeParentDirectory, nextPath]
  by_cases goesOn : ∃ directory ∈ path.directories, directory.EndsInDots
  · rw [if_pos ((containsChars_text path).mpr goesOn), if_pos goesOn, subFirst_parent, Sum.map_inl]
  · rw [if_neg (mt (containsChars_text path).mp goesOn), if_neg goesOn, Sum.map_inr]

end Rounds

/-! ### The whole loop -/

namespace IncludePath

section Loop
variable {path next last : IncludePath} {fuel : Nat}

theorem nextPath_inl (goesOn : path.nextPath = .inl next) :
    (∃ directory ∈ path.directories, directory.EndsInDots) ∧ path.withoutParent = next := by
  rw [nextPath] at goesOn
  split at goesOn
  next dots => exact ⟨dots, Sum.inl.inj goesOn⟩
  next => cases goesOn

theorem nextPath_inr (ends : path.nextPath = .inr last) :
    (¬ ∃ directory ∈ path.directories, directory.EndsInDots) ∧ path = last := by
  rw [nextPath] at ends
  split at ends
  next => cases ends
  next noDots => exact ⟨noDots, Sum.inr.inj ends⟩

/-- A round changes only parent directories, and puts nothing that ends in dots in their place. -/
theorem mem_withoutParent {directory : Component} (dots : directory.EndsInDots) (other : directory ≠ .parent) :
    directory ∈ path.withoutParent.directories ↔ directory ∈ path.directories := by
  have notEmpty : directory ≠ .empty := by
    rintro rfl
    exact absurd dots (by decide)
  obtain ⟨directories, name⟩ := path
  cases directories with
  | nil => rfl
  | cons first more =>
    by_cases parent : first = .parent
    · simp only [withoutParent, if_pos parent, List.mem_cons]
      subst parent
      simp only [other, notEmpty]
    · simp only [withoutParent, if_neg parent, List.mem_cons, List.mem_erase_of_ne other]

theorem proper_withoutParent : path.withoutParent.Proper ↔ path.Proper := by
  constructor
  · intro proper directory listed dots
    by_contra other
    exact other (proper directory ((mem_withoutParent dots other).mpr listed) dots)
  · intro proper directory listed dots
    by_contra other
    exact other (proper directory ((mem_withoutParent dots other).mp listed) dots)

theorem count_withoutParent (listed : Component.parent ∈ path.directories) :
    path.withoutParent.directories.count .parent < path.directories.count .parent := by
  obtain ⟨directories, name⟩ := path
  cases directories with
  | nil => cases listed
  | cons first more =>
    by_cases parent : first = .parent
    · simp only [withoutParent, if_pos parent]
      subst parent
      rw [List.count_cons_self, List.count_cons_of_ne (by decide)]
      exact Nat.lt_succ_self _
    · have later : Component.parent ∈ more := (List.mem_cons.mp listed).resolve_left (Ne.symm parent)
      have positive := List.count_pos_iff.mpr later
      simp only [withoutParent, if_neg parent]
      rw [List.count_cons_of_ne parent, List.count_cons_of_ne parent, List.count_erase_self]
      omega

/-- The loop ends on a proper path. -/
theorem ends_of_proper (proper : path.Proper) (enough : path.text.length < fuel) :
    ∃ last, Looping.iterate nextPath fuel path = some last := by
  let parents (path : IncludePath) : Nat := path.directories.count .parent
  have progress : ∀ path next : IncludePath, path.Proper → path.nextPath = .inl next →
      next.Proper ∧ parents next < parents path := by
    intro path next proper goesOn
    obtain ⟨⟨directory, listed, dots⟩, rfl⟩ := nextPath_inl goesOn
    obtain rfl := proper directory listed dots
    exact ⟨proper_withoutParent.mpr proper, count_withoutParent listed⟩
  have few : parents path ≤ path.text.length := List.count_le_length.trans path.length_directories_le
  exact Looping.iterate_answers progress fuel path proper (Nat.lt_of_le_of_lt few enough)

/-- A component that only looks like the parent directory keeps the loop going. -/
theorem proper_of_ends (ended : Looping.iterate nextPath fuel path = some last) : path.Proper := by
  have keeps : ∀ path next : IncludePath, ¬ path.Proper → path.nextPath = .inl next → ¬ next.Proper := by
    intro path next improper goesOn
    obtain ⟨_, rfl⟩ := nextPath_inl goesOn
    exact mt proper_withoutParent.mp improper
  have ends : ∀ path last : IncludePath, ¬ path.Proper → path.nextPath = .inr last → False := by
    intro path last improper stops
    obtain ⟨noDots, _⟩ := nextPath_inr stops
    exact improper fun directory listed dots => absurd ⟨directory, listed, dots⟩ noDots
  by_contra improper
  exact Looping.iterate_result keeps ends improper ended

theorem withoutParents_of_noDots (noDots : ¬ ∃ directory ∈ path.directories, directory.EndsInDots) :
    path.withoutParents = path := by
  obtain ⟨directories, name⟩ := path
  have kept : directories.filter (· ≠ .parent) = directories := by
    refine List.filter_eq_self.mpr fun directory listed => decide_eq_true ?_
    rintro rfl
    exact noDots ⟨_, listed, List.suffix_rfl⟩
  rw [withoutParents, kept]

theorem noDots_withoutParents (proper : path.Proper) :
    ¬ ∃ directory ∈ path.withoutParents.directories, directory.EndsInDots := by
  rintro ⟨directory, listed, dots⟩
  obtain ⟨listed, other⟩ := List.mem_filter.mp listed
  exact of_decide_eq_true other (proper directory listed dots)

theorem stripSlashes_cons (characters : List Char) : stripSlashes ('/' :: characters) = stripSlashes characters := rfl

/-- What is left in the end does not change in a round, up to the slash at the beginning. -/
theorem stripSlashes_withoutParent (path : IncludePath) :
    stripSlashes path.withoutParent.withoutParents.text = stripSlashes path.withoutParents.text := by
  obtain ⟨directories, name⟩ := path
  cases directories with
  | nil => rfl
  | cons first more =>
    by_cases parent : first = .parent
    · have dropped : (Component.parent :: more).filter (· ≠ .parent) = more.filter (· ≠ .parent) :=
        List.filter_cons_of_neg (by decide)
      have kept : (Component.empty :: more).filter (· ≠ .parent) = .empty :: more.filter (· ≠ .parent) :=
        List.filter_cons_of_pos (by decide)
      simp only [withoutParent, if_pos parent]
      subst parent
      rw [withoutParents, kept, withoutParents, dropped, text_cons]
      exact stripSlashes_cons _
    · have absent : Component.parent ∉ more.filter (· ≠ .parent) := fun listed =>
        of_decide_eq_true (List.mem_filter.mp listed).2 rfl
      simp only [withoutParent, if_neg parent, withoutParents, List.filter_cons]
      rw [← List.erase_filter, List.erase_of_not_mem absent]

/-- What the loop leaves. -/
theorem stripSlashes_of_ends (ended : Looping.iterate nextPath fuel path = some last) :
    stripSlashes last.text = stripSlashes path.withoutParents.text := by
  let Leaves (earlier : IncludePath) : Prop :=
    stripSlashes earlier.withoutParents.text = stripSlashes path.withoutParents.text
  have keeps : ∀ earlier next : IncludePath, Leaves earlier → earlier.nextPath = .inl next → Leaves next := by
    intro earlier next same goesOn
    obtain ⟨_, rfl⟩ := nextPath_inl goesOn
    exact (stripSlashes_withoutParent earlier).trans same
  have ends : ∀ earlier last : IncludePath, Leaves earlier → earlier.nextPath = .inr last →
      stripSlashes last.text = stripSlashes path.withoutParents.text := by
    intro earlier last same stops
    obtain ⟨noDots, rfl⟩ := nextPath_inr stops
    rw [← same, withoutParents_of_noDots noDots]
  exact Looping.iterate_result keeps ends rfl ended

end Loop

/-! ### The paths of a line -/

theorem iterate_text (fuel : Nat) (path : IncludePath) :
    Looping.iterate removeParentDirectory fuel path.text = (Looping.iterate nextPath fuel path).map text :=
  Looping.iterate_simulates removeParentDirectory_text fuel path

theorem proper_iff (path : IncludePath) : path.Proper ↔ DotsOnly (components path.text).dropLast := by
  rw [components_text, List.dropLast_concat]
  constructor
  · intro proper part listed dots
    obtain ⟨directory, isDirectory, rfl⟩ := List.mem_map.mp listed
    exact congrArg Subtype.val (proper directory isDirectory dots)
  · intro proper directory isDirectory dots
    exact Subtype.ext (proper _ (List.mem_map_of_mem isDirectory) dots)

theorem intercalate_text (path : IncludePath) :
    ['/'].intercalate (path.directories.map Subtype.val ++ [path.name.val]) = path.text := by
  obtain ⟨directories, name⟩ := path
  induction directories with
  | nil => exact List.intercalate_singleton
  | cons first more ih =>
    obtain ⟨second, others, same⟩ := List.exists_cons_of_ne_nil
      (List.append_ne_nil_of_right_ne_nil (more.map Subtype.val) (List.cons_ne_nil name.val []))
    dsimp only at ih same ⊢
    rw [text_cons, ← ih, List.map_cons, List.cons_append, same, List.intercalate_cons_cons, List.append_assoc]
    rfl

end IncludePath

/-- The components without the parent directories that a slash follows. -/
def tidied (path : List Char) : List Char :=
  stripSlashes (['/'].intercalate
    ((components path).dropLast.filter (· ≠ "..".toList) ++ (components path).getLast?.toList))

theorem tidied_text (path : IncludePath) : tidied path.text = stripSlashes path.withoutParents.text := by
  have filtered : (path.directories.map Subtype.val).filter (· ≠ "..".toList) =
      path.withoutParents.directories.map Subtype.val := by
    rw [List.filter_map]
    refine congrArg (List.map Subtype.val) (List.filter_congr fun directory _ => ?_)
    have same : directory.val = "..".toList ↔ directory = Component.parent :=
      ⟨fun equal => Subtype.ext equal, fun equal => congrArg Subtype.val equal⟩
    exact decide_eq_decide.mpr (not_congr same)
  rw [tidied, IncludePath.components_text, List.dropLast_concat, List.getLast?_concat, filtered]
  exact congrArg stripSlashes path.withoutParents.intercalate_text

section Lines
variable {path line result : List Char}

theorem ends_of_proper (proper : DotsOnly (components path).dropLast) {fuel : Nat} (enough : path.length < fuel) :
    ∃ last, Looping.iterate removeParentDirectory fuel path = some last ∧ stripSlashes last = tidied path := by
  obtain ⟨path, rfl⟩ := IncludePath.exists_text path
  obtain ⟨last, ended⟩ := IncludePath.ends_of_proper (path.proper_iff.mpr proper) enough
  refine ⟨last.text, by rw [IncludePath.iterate_text, ended, Option.map_some], ?_⟩
  rw [tidied_text, IncludePath.stripSlashes_of_ends ended]

/-- As many rounds as the line has characters are enough. -/
theorem convertIncludePath_tidied (proper : ∀ path ∈ capturedPaths line, DotsOnly (components path).dropLast)
    {fuel : Nat} (enough : line.length < fuel) : convertIncludePath fuel line = some (withPaths tidied line) :=
  convertIncludePath_of_forall fun path listed =>
    ends_of_proper (proper path listed) (Nat.lt_of_le_of_lt (length_le_of_captured listed) enough)

theorem converts_tidied (proper : ∀ path ∈ capturedPaths line, DotsOnly (components path).dropLast) :
    Converts line (withPaths tidied line) :=
  ⟨line.length + 1, convertIncludePath_tidied proper (Nat.lt_succ_self _)⟩

theorem proper_of_converts (converts : Converts line result) :
    ∀ path ∈ capturedPaths line, DotsOnly (components path).dropLast := by
  intro path listed
  obtain ⟨fuel, _, ended⟩ := forall_of_converts converts path listed
  obtain ⟨path, rfl⟩ := IncludePath.exists_text path
  rw [IncludePath.iterate_text, Option.map_eq_some_iff] at ended
  obtain ⟨_, ended, _⟩ := ended
  exact path.proper_iff.mp (IncludePath.proper_of_ends ended)

/-- The conversion ends on the lines whose captured paths have no directory that ends in two
dots beside the parent directory. -/
theorem converts_iff (line : List Char) : (∃ result, Converts line result) ↔
    ∀ path ∈ capturedPaths line, DotsOnly (components path).dropLast := by
  constructor
  · rintro ⟨result, converts⟩
    exact proper_of_converts converts
  · intro proper
    exact ⟨_, converts_tidied proper⟩

/-- The guard finds `../` in the path, and the pattern does not. -/
theorem not_converts_dots_behind_letter : ¬ ∃ result, Converts "#include \"a../b.h\"".toList result := by
  rintro ⟨result, converts⟩
  have captured : "a../b.h".toList ∈ capturedPaths "#include \"a../b.h\"".toList := by decide
  have proper := proper_of_converts converts _ captured "a..".toList (by decide) (by decide)
  exact absurd proper (by decide)

/-! ### Converting twice -/

theorem isInfix_stripSlashes (path : List Char) : stripSlashes path <:+: path :=
  (List.rdropWhile_prefix _ _).isInfix.trans (List.dropWhile_suffix _).isInfix

theorem stripSlashes_stripSlashes (path : List Char) : stripSlashes (stripSlashes path) = stripSlashes path := by
  have noSlash : (stripSlashes path).dropWhile (· == '/') = stripSlashes path := by
    cases left : stripSlashes path with
    | nil => rfl
    | cons c rest =>
      have starts : c :: rest <+: path.dropWhile (· == '/') := left ▸ List.rdropWhile_prefix _ _
      obtain ⟨more, split⟩ := starts
      have other := List.head?_dropWhile_not (· == '/') path
      rw [← split] at other
      exact List.dropWhile_cons_of_neg (by rw [other]; exact Bool.false_ne_true)
  rw [stripSlashes, noSlash]
  exact List.rdropWhile_idempotent _ _

/-- A tidied path has nothing left for the loop. -/
theorem removeParentDirectory_tidied (proper : DotsOnly (components path).dropLast) :
    removeParentDirectory (tidied path) = .inr (tidied path) := by
  obtain ⟨path, rfl⟩ := IncludePath.exists_text path
  have noDots := mt (IncludePath.containsChars_text _).mp
    (IncludePath.noDots_withoutParents (path.proper_iff.mpr proper))
  rw [removeParentDirectory, if_neg]
  intro found
  rw [tidied_text, Text.containsChars_iff] at found
  exact noDots (Text.containsChars_iff.mpr (found.trans (isInfix_stripSlashes _)))

theorem captured_tidied (captured : Captured path) : Captured (tidied path) := by
  obtain ⟨path, rfl⟩ := IncludePath.exists_text path
  rw [tidied_text]
  intro c listed
  have fewer : path.withoutParents.text.Sublist path.text :=
    (List.Sublist.flatMap List.filter_sublist _).append_right _
  exact captured c (fewer.subset ((isInfix_stripSlashes _).subset listed))

/-- Each captured path is replaced by its components without the parent directories, the rest of
the line stays, and a second conversion changes nothing. -/
theorem converts_paths (line : List Char) (dotsOnly : ∀ path ∈ capturedPaths line, DotsOnly (components path)) :
    (∀ result, Converts line result ↔ result = withPaths tidied line) ∧ withPaths id line = line ∧
      ∀ result, Converts line result → Converts result result := by
  have proper : ∀ path ∈ capturedPaths line, DotsOnly (components path).dropLast :=
    fun path listed part isPart => dotsOnly path listed part (List.mem_of_mem_dropLast isPart)
  have converts := converts_tidied proper
  have again : Converts (withPaths tidied line) (withPaths tidied line) := by
    have ends : ∀ path ∈ capturedPaths (withPaths tidied line), ∃ last,
        Looping.iterate removeParentDirectory 1 path = some last ∧ stripSlashes last = id path := by
      intro path listed
      rw [capturedPaths_withPaths (fun _ => captured_tidied)] at listed
      obtain ⟨original, isCaptured, rfl⟩ := List.mem_map.mp listed
      refine ⟨tidied original, ?_, stripSlashes_stripSlashes _⟩
      rw [Looping.iterate, removeParentDirectory_tidied (proper original isCaptured)]
    have unchanged := convertIncludePath_of_forall ends
    rw [withPaths_id] at unchanged
    exact ⟨1, unchanged⟩
  refine ⟨fun result => ⟨fun other => other.unique converts, fun same => same ▸ converts⟩, withPaths_id line, ?_⟩
  intro result other
  rwa [other.unique converts]

theorem converts_paths_nested_parents :
    (∀ path ∈ capturedPaths "#include <../a/../../b.h> // x".toList, DotsOnly (components path)) ∧
      Converts "#include <../a/../../b.h> // x".toList "#include <a/b.h> // x".toList := by
  have dotsOnly : ∀ path ∈ capturedPaths "#include <../a/../../b.h> // x".toList, DotsOnly (components path) := by
    decide
  exact ⟨dotsOnly, ((converts_paths _ dotsOnly).1 _).mpr (by decide)⟩

end Lines
end CMender.Dataset
