import CMender.Foundations.Looping
import Mathlib.Computability.Language

/-! Patterns as a backtracking matcher reads them. A pattern has its readings at a place in
the order in which the matcher tries them, and the first one is the match: a greedy
repetition tries the longest text first, a lazy one the shortest. Substitution goes from
left to right over matches that do not overlap. -/
namespace Foundations.Regex

/-- Repetitions are those of single characters. -/
inductive Pattern where
  | empty
  | start
  | char (accepts : Char → Bool)
  | greedy (accepts : Char → Bool)
  | lazy (accepts : Char → Bool)
  | seq (first second : Pattern)
  | alt (first second : Pattern)
  | group (index : Nat) (inner : Pattern)

namespace Pattern

def all : List Pattern → Pattern := List.foldr seq empty

def literal (text : String) : Pattern := all (text.toList.map fun c => char (· == c))

def optional (inner : Pattern) : Pattern := alt inner empty

def oneOf (characters : String) : Pattern := char (characters.toList.contains ·)

/-- At least one character, and as many as possible. -/
def atLeastOne (accepts : Char → Bool) : Pattern := seq (char accepts) (greedy accepts)

end Pattern

/-- What has been read, the texts of the groups, and what is left to read. -/
structure Reading where
  text : List Char
  groups : List (Nat × List Char)
  rest : List Char

namespace Reading

def followedBy (first second : Reading) : Reading :=
  ⟨first.text ++ second.text, first.groups ++ second.groups, second.rest⟩

def named (index : Nat) (reading : Reading) : Reading :=
  { reading with groups := reading.groups ++ [(index, reading.text)] }

def group (reading : Reading) (index : Nat) : List Char := (reading.groups.lookup index).getD []

end Reading

/-- The beginnings of a text whose characters are all accepted, the shortest first. -/
def runs (accepts : Char → Bool) : List Char → List Reading
  | [] => [⟨[], [], []⟩]
  | c :: rest => ⟨[], [], c :: rest⟩ ::
      if accepts c then (runs accepts rest).map (Reading.followedBy ⟨[c], [], rest⟩) else []

/-- The readings of a pattern, in the order in which they are tried. -/
def readings : Pattern → Bool → List Char → List Reading
  | .empty, _, input => [⟨[], [], input⟩]
  | .start, atStart, input => if atStart then [⟨[], [], input⟩] else []
  | .char _, _, [] => []
  | .char accepts, _, c :: rest => if accepts c then [⟨[c], [], rest⟩] else []
  | .greedy accepts, _, input => (runs accepts input).reverse
  | .lazy accepts, _, input => runs accepts input
  | .seq first second, atStart, input => (readings first atStart input).flatMap fun reading =>
      (readings second (atStart && reading.text.isEmpty) reading.rest).map reading.followedBy
  | .alt first second, atStart, input => readings first atStart input ++ readings second atStart input
  | .group index inner, atStart, input => (readings inner atStart input).map (·.named index)

def find? (pattern : Pattern) (atStart : Bool) (input : List Char) : Option Reading :=
  (readings pattern atStart input).head?

/-- A character between the matches, or a match. -/
inductive Segment where
  | plain (c : Char)
  | found (reading : Reading)

/-- Left to right; `skip` characters belong to a match that has been found. A match that reads
nothing is passed over. -/
def segmentsFrom (pattern : Pattern) : Bool → Nat → List Char → List Segment
  | _, _, [] => []
  | _, skip + 1, _ :: rest => segmentsFrom pattern false skip rest
  | atStart, 0, c :: rest =>
    match find? pattern atStart (c :: rest) with
    | none => .plain c :: segmentsFrom pattern false 0 rest
    | some reading =>
      if reading.text = [] then .plain c :: segmentsFrom pattern false 0 rest
      else .found reading :: segmentsFrom pattern false (reading.text.length - 1) rest

def segments (pattern : Pattern) (input : List Char) : List Segment := segmentsFrom pattern true 0 input

def Segment.replaced (replace : Reading → Option (List Char)) : Segment → Option (List Char)
  | plain c => some [c]
  | found reading => replace reading

def Segment.text (replace : Reading → List Char) : Segment → List Char
  | plain c => [c]
  | found reading => replace reading

/-- Every match is replaced; the replacement may fail to be computed. -/
def sub (pattern : Pattern) (replace : Reading → Option (List Char)) (input : List Char) : Option (List Char) := do
  return (← (segments pattern input).mapM (Segment.replaced replace)).flatten

/-- Only the first match is replaced. -/
def subFirst (pattern : Pattern) (replacement : List Char) : Bool → List Char → List Char
  | _, [] => []
  | atStart, c :: rest =>
    match find? pattern atStart (c :: rest) with
    | none => c :: subFirst pattern replacement false rest
    | some reading => replacement ++ reading.rest

/-! ### What the readings are -/

section Readings
attribute [local simp] runs readings
variable {pattern first second inner : Pattern} {atStart : Bool} {input : List Char} {reading : Reading}
  {accepts : Char → Bool}

theorem mem_runs : reading ∈ runs accepts input ↔
    ∃ read rest, (∀ c ∈ read, accepts c = true) ∧ input = read ++ rest ∧ reading = ⟨read, [], rest⟩ := by
  induction input generalizing reading with
  | nil =>
    rw [runs, List.mem_singleton]
    constructor
    · rintro rfl
      exact ⟨[], [], nofun, rfl, rfl⟩
    · rintro ⟨read, rest, _, split, rfl⟩
      obtain ⟨rfl, rfl⟩ := List.append_eq_nil_iff.mp split.symm
      rfl
  | cons c rest ih =>
    rw [runs, List.mem_cons]
    constructor
    · rintro (rfl | listed)
      · exact ⟨[], c :: rest, nofun, rfl, rfl⟩
      · obtain ⟨accepted, listed⟩ := (List.mem_ite_nil_right.mp listed)
        obtain ⟨later, isLater, rfl⟩ := List.mem_map.mp listed
        obtain ⟨read, left, all, rfl, rfl⟩ := ih.mp isLater
        exact ⟨c :: read, left, List.forall_mem_cons.mpr ⟨accepted, all⟩, rfl, rfl⟩
    · rintro ⟨read, left, all, split, rfl⟩
      cases read with
      | nil =>
        obtain rfl : c :: rest = left := split
        exact .inl rfl
      | cons d read =>
        obtain ⟨rfl, rfl⟩ := List.cons.inj split
        obtain ⟨accepted, all⟩ := List.forall_mem_cons.mp all
        refine .inr (List.mem_ite_nil_right.mpr ⟨accepted, List.mem_map.mpr ⟨⟨read, [], left⟩, ?_, rfl⟩⟩)
        exact ih.mpr ⟨read, left, all, rfl, rfl⟩

theorem mem_readings_empty : reading ∈ readings .empty atStart input ↔ reading = ⟨[], [], input⟩ := by
  rw [readings, List.mem_singleton]

theorem mem_readings_char : reading ∈ readings (.char accepts) atStart input ↔
    ∃ c rest, accepts c = true ∧ input = c :: rest ∧ reading = ⟨[c], [], rest⟩ := by
  cases input with
  | nil => simp
  | cons c rest =>
    rw [readings, List.mem_ite_nil_right, List.mem_singleton]
    constructor
    · rintro ⟨accepted, rfl⟩
      exact ⟨c, rest, accepted, rfl, rfl⟩
    · rintro ⟨d, left, accepted, split, rfl⟩
      obtain ⟨rfl, rfl⟩ := List.cons.inj split
      exact ⟨accepted, rfl⟩

theorem mem_readings_greedy : reading ∈ readings (.greedy accepts) atStart input ↔
    ∃ read rest, (∀ c ∈ read, accepts c = true) ∧ input = read ++ rest ∧ reading = ⟨read, [], rest⟩ := by
  rw [readings, List.mem_reverse, mem_runs]

theorem mem_readings_seq : reading ∈ readings (.seq first second) atStart input ↔
    ∃ one ∈ readings first atStart input, ∃ two ∈ readings second (atStart && one.text.isEmpty) one.rest,
      reading = one.followedBy two := by
  simp only [readings, List.mem_flatMap, List.mem_map, eq_comm]

theorem mem_readings_alt : reading ∈ readings (.alt first second) atStart input ↔
    reading ∈ readings first atStart input ∨ reading ∈ readings second atStart input := by
  rw [readings, List.mem_append]

theorem mem_readings_group {index : Nat} : reading ∈ readings (.group index inner) atStart input ↔
    ∃ one ∈ readings inner atStart input, reading = one.named index := by
  simp only [readings, List.mem_map, eq_comm]

/-- A reading is a beginning of the text. -/
theorem text_append_rest (pattern : Pattern) (listed : reading ∈ readings pattern atStart input) :
    reading.text ++ reading.rest = input := by
  induction pattern generalizing atStart input reading with
  | empty =>
    obtain rfl := mem_readings_empty.mp listed
    rfl
  | start =>
    rw [readings, List.mem_ite_nil_right, List.mem_singleton] at listed
    obtain ⟨_, rfl⟩ := listed
    rfl
  | char accepts =>
    obtain ⟨c, rest, _, rfl, rfl⟩ := mem_readings_char.mp listed
    rfl
  | greedy accepts =>
    obtain ⟨read, rest, _, rfl, rfl⟩ := mem_readings_greedy.mp listed
    rfl
  | lazy accepts =>
    obtain ⟨read, rest, _, rfl, rfl⟩ := mem_runs.mp listed
    rfl
  | seq first second firstReads secondReads =>
    obtain ⟨one, isOne, two, isTwo, rfl⟩ := mem_readings_seq.mp listed
    rw [Reading.followedBy, List.append_assoc, secondReads isTwo, firstReads isOne]
  | alt first second firstReads secondReads =>
    rcases mem_readings_alt.mp listed with isFirst | isSecond
    · exact firstReads isFirst
    · exact secondReads isSecond
  | group index inner reads =>
    obtain ⟨one, isOne, rfl⟩ := mem_readings_group.mp listed
    have read : one.text ++ one.rest = input := reads isOne
    exact read

/-! ### Patterns without groups -/

def one (accepts : Char → Bool) : Language Char := {text | ∃ c, accepts c = true ∧ text = [c]}

def many (accepts : Char → Bool) : Language Char := {text | ∀ c ∈ text, accepts c = true}

/-- The readings are the beginnings that are in the language. -/
def Describes (pattern : Pattern) (language : Language Char) : Prop :=
  ∀ atStart input reading, reading ∈ readings pattern atStart input ↔
    ∃ text ∈ language, ∃ rest, input = text ++ rest ∧ reading = ⟨text, [], rest⟩

section Describes
variable {front back : Language Char}

theorem Describes.empty : Describes .empty 1 := by
  intro atStart input reading
  rw [mem_readings_empty]
  constructor
  · rintro rfl
    exact ⟨[], Language.nil_mem_one, input, rfl, rfl⟩
  · rintro ⟨text, isEmpty, rest, rfl, rfl⟩
    obtain rfl := Language.mem_one text |>.mp isEmpty
    rfl

theorem Describes.char : Describes (.char accepts) (one accepts) := by
  intro atStart input reading
  rw [mem_readings_char]
  constructor
  · rintro ⟨c, rest, accepted, rfl, rfl⟩
    exact ⟨[c], ⟨c, accepted, rfl⟩, rest, rfl, rfl⟩
  · rintro ⟨_, ⟨c, accepted, rfl⟩, rest, rfl, rfl⟩
    exact ⟨c, rest, accepted, rfl, rfl⟩

theorem Describes.greedy : Describes (.greedy accepts) (many accepts) := by
  intro atStart input reading
  rw [mem_readings_greedy]
  constructor
  · rintro ⟨read, rest, all, split, rfl⟩
    exact ⟨read, all, rest, split, rfl⟩
  · rintro ⟨read, all, rest, split, rfl⟩
    exact ⟨read, rest, all, split, rfl⟩

theorem Describes.seq (describesFirst : Describes first front) (describesSecond : Describes second back) :
    Describes (.seq first second) (front * back) := by
  intro atStart input reading
  rw [mem_readings_seq]
  constructor
  · rintro ⟨_, isOne, _, isTwo, rfl⟩
    obtain ⟨text, inOne, _, rfl, rfl⟩ := (describesFirst _ _ _).mp isOne
    obtain ⟨more, inTwo, rest, rfl, rfl⟩ := (describesSecond _ _ _).mp isTwo
    exact ⟨text ++ more, Language.append_mem_mul inOne inTwo, rest, (List.append_assoc _ _ _).symm, rfl⟩
  · rintro ⟨_, inBoth, rest, rfl, rfl⟩
    obtain ⟨text, inOne, more, inTwo, rfl⟩ := Language.mem_mul.mp inBoth
    refine ⟨⟨text, [], more ++ rest⟩, (describesFirst _ _ _).mpr ⟨text, inOne, _, List.append_assoc _ _ _, rfl⟩, ?_⟩
    exact ⟨⟨more, [], rest⟩, (describesSecond _ _ _).mpr ⟨more, inTwo, rest, rfl, rfl⟩, rfl⟩

theorem Describes.alt (describesFirst : Describes first front) (describesSecond : Describes second back) :
    Describes (.alt first second) (front + back) := by
  intro atStart input reading
  rw [mem_readings_alt, describesFirst, describesSecond]
  simp only [Language.mem_add, or_and_right, exists_or]

theorem Describes.literal (text : String) : Describes (.literal text) {text.toList} := by
  rw [Pattern.literal]
  generalize text.toList = characters
  induction characters with
  | nil => exact Describes.empty
  | cons c characters ih =>
    have same : one (· == c) * {characters} = ({c :: characters} : Language Char) := by
      ext text
      constructor
      · intro listed
        obtain ⟨_, ⟨d, equal, rfl⟩, _, rfl, rfl⟩ := Language.mem_mul.mp listed
        rw [eq_of_beq equal]
        rfl
      · rintro rfl
        have first : [c] ∈ one (· == c) := ⟨c, beq_self_eq_true c, rfl⟩
        exact Language.append_mem_mul first rfl
    have described : Describes (.seq (.char (· == c)) _) _ := Describes.char.seq ih
    rw [same] at described
    exact described

end Describes

/-! ### The first reading -/

/-- When a pattern can be read in one way only, the match goes on behind it. -/
theorem find?_seq {one : Reading} (reads : one ∈ readings first atStart input)
    (only : ∀ other ∈ readings first atStart input, other = one) :
    find? (.seq first second) atStart input =
      (find? second (atStart && one.text.isEmpty) one.rest).map one.followedBy := by
  rw [find?, readings]
  cases listed : readings first atStart input with
  | nil =>
    rw [listed] at reads
    cases reads
  | cons head others =>
    rw [listed] at only
    obtain rfl : head = one := only head List.mem_cons_self
    rw [List.flatMap_cons, find?]
    cases tried : readings second (atStart && head.text.isEmpty) head.rest with
    | cons next later => rfl
    | nil =>
      -- The other readings are the same one and fail in the same way.
      rw [List.map_nil, List.nil_append, List.head?_nil, Option.map_none, List.head?_eq_none_iff,
        List.flatMap_eq_nil_iff]
      intro other isOther
      rw [only other (List.mem_cons_of_mem _ isOther), tried, List.map_nil]

theorem find?_seq_none (fails : ∀ one, one ∉ readings first atStart input) :
    find? (.seq first second) atStart input = none := by
  rw [find?, readings, List.eq_nil_iff_forall_not_mem.mpr fails]
  rfl

/-- The first place where a repetition stops is here, or behind an accepted character. -/
theorem exists_stop_cons {stops : Char → Bool} {c : Char} {rest : List Char}
    {Found : List Char → Char → List Char → Prop} :
    (∃ read d left, (∀ e ∈ read, accepts e = true ∧ stops e = false) ∧ stops d = true ∧ c :: rest = read ++ d :: left ∧
      Found read d left) ↔
    stops c = true ∧ Found [] c rest ∨ (accepts c = true ∧ stops c = false) ∧
      ∃ read d left, (∀ e ∈ read, accepts e = true ∧ stops e = false) ∧ stops d = true ∧ rest = read ++ d :: left ∧
        Found (c :: read) d left := by
  constructor
  · rintro ⟨read, d, left, passed, stop, split, found⟩
    cases read with
    | nil =>
      obtain ⟨rfl, rfl⟩ := List.cons.inj split
      exact .inl ⟨stop, found⟩
    | cons first read =>
      obtain ⟨rfl, rfl⟩ := List.cons.inj split
      obtain ⟨here, later⟩ := List.forall_mem_cons.mp passed
      exact .inr ⟨here, read, d, left, later, stop, rfl, found⟩
  · rintro (⟨stop, found⟩ | ⟨here, read, d, left, passed, stop, rfl, found⟩)
    · exact ⟨[], c, rest, nofun, stop, rfl, found⟩
    · exact ⟨c :: read, d, left, List.forall_mem_cons.mpr ⟨here, passed⟩, stop, rfl, found⟩

theorem head?_runs_until {stops : Char → Bool} {i j : Nat} {before : List Char} :
    ((runs accepts input).flatMap fun read => (readings (.char stops) atStart read.rest).map fun stop =>
      Reading.mk (before ++ read.text ++ stop.text) [(i, before ++ read.text), (j, stop.text)] stop.rest).head? =
        some reading ↔
    ∃ read c rest, (∀ d ∈ read, accepts d = true ∧ stops d = false) ∧ stops c = true ∧ input = read ++ c :: rest ∧
      reading = ⟨before ++ read ++ [c], [(i, before ++ read), (j, [c])], rest⟩ := by
  induction input generalizing before with
  | nil => simp
  | cons c rest ih =>
    rw [runs, List.flatMap_cons, readings, exists_stop_cons]
    cases stopped : stops c with
    | true =>
      rw [if_pos rfl]
      simp only [List.map_cons, List.map_nil, List.cons_append, List.nil_append, List.head?_cons, Option.some.injEq,
        List.append_nil, true_and, Bool.true_eq_false, and_false, false_and, or_false]
      exact eq_comm
    | false =>
      rw [if_neg Bool.false_ne_true, List.map_nil, List.nil_append]
      cases accepted : accepts c with
      | true =>
        have shifted := @ih (before ++ [c])
        rw [if_pos rfl, List.flatMap_map]
        simp only [Reading.followedBy, List.append_assoc, List.cons_append, List.nil_append] at shifted ⊢
        simp [shifted]
      | false => simp

/-- A lazy repetition stops at the first character that the next pattern accepts. -/
theorem find?_lazy_until {stops : Char → Bool} {i j : Nat} :
    find? (.seq (.group i (.lazy accepts)) (.group j (.char stops))) atStart input = some reading ↔
      ∃ read c rest, (∀ d ∈ read, accepts d = true ∧ stops d = false) ∧ stops c = true ∧
        input = read ++ c :: rest ∧ reading = ⟨read ++ [c], [(i, read), (j, [c])], rest⟩ := by
  have tried := @head?_runs_until atStart input reading accepts stops i j []
  simp only [List.nil_append] at tried
  rw [← tried, find?, readings, readings, List.flatMap_map, readings]
  refine Eq.congr_left (congrArg List.head? (List.flatMap_congr fun read isRun => ?_))
  obtain ⟨text, rest, _, _, rfl⟩ := mem_runs.mp isRun
  rw [readings, List.map_map]
  cases rest with
  | nil => rfl
  | cons c rest =>
    cases accepted : stops c with
    | false => simp only [Reading.named, readings, accepted, Bool.false_eq_true, if_false, List.map_nil]
    | true =>
      simp only [Reading.named, readings, accepted, if_true]
      rfl

end Readings

/-! ### Substitution -/

section Segments
variable {pattern : Pattern} {atStart : Bool} {c : Char} {rest input : List Char} {reading : Reading}

theorem segmentsFrom_skip {skipped : List Char} :
    segmentsFrom pattern atStart skipped.length (skipped ++ rest) =
      segmentsFrom pattern (if skipped = [] then atStart else false) 0 rest := by
  induction skipped generalizing atStart with
  | nil => rfl
  | cons c skipped ih =>
    rw [List.length_cons, List.cons_append, segmentsFrom, ih, if_neg (List.cons_ne_nil _ _)]
    split <;> rfl

theorem segmentsFrom_plain (fails : find? pattern atStart (c :: rest) = none) :
    segmentsFrom pattern atStart 0 (c :: rest) = .plain c :: segmentsFrom pattern false 0 rest := by
  rw [segmentsFrom, fails]

theorem segmentsFrom_found (found : find? pattern atStart input = some reading) (reads : reading.text ≠ []) :
    segmentsFrom pattern atStart 0 input = .found reading :: segmentsFrom pattern false 0 reading.rest := by
  have split := text_append_rest pattern (List.mem_of_head? found)
  obtain ⟨c, text, isText⟩ := List.exists_cons_of_ne_nil reads
  rw [isText, List.cons_append] at split
  have skipped := @segmentsFrom_skip pattern false reading.rest text
  subst split
  rw [segmentsFrom, found]
  dsimp only
  rw [if_neg reads, isText, List.length_cons, Nat.add_sub_cancel, skipped]
  split <;> rfl

section Replacing
variable {replace : Reading → Option (List Char)} {result : List Char}

theorem sub_of_forall {total : Reading → List Char}
    (computed : ∀ reading, .found reading ∈ segments pattern input → replace reading = some (total reading)) :
    sub pattern replace input = some ((segments pattern input).flatMap (Segment.text total)) := by
  have all : ∀ segment ∈ segments pattern input, segment.replaced replace = some (segment.text total) := by
    intro segment listed
    cases segment with
    | plain c => rfl
    | found reading => exact computed reading listed
  rw [sub, Looping.mapM_of_forall all]
  rfl

theorem forall_of_sub (returned : sub pattern replace input = some result) :
    ∀ reading, .found reading ∈ segments pattern input → ∃ text, replace reading = some text := by
  obtain ⟨parts, computed, _⟩ := Option.bind_eq_some_iff.mp returned
  exact fun reading listed => Looping.forall_of_mapM computed (.found reading) listed

/-- A substitution that returns has one result, whatever its replacements needed to be computed. -/
theorem sub_unique {again : Reading → Option (List Char)} {other : List Char}
    (agree : ∀ reading text more, replace reading = some text → again reading = some more → text = more)
    (returned : sub pattern replace input = some result) (repeated : sub pattern again input = some other) :
    result = other := by
  let total (reading : Reading) : List Char := (replace reading).getD []
  have first : ∀ reading, .found reading ∈ segments pattern input → replace reading = some (total reading) := by
    intro reading listed
    obtain ⟨text, computed⟩ := forall_of_sub returned reading listed
    simp only [total, computed, Option.getD_some]
  have second : ∀ reading, .found reading ∈ segments pattern input → again reading = some (total reading) := by
    intro reading listed
    obtain ⟨text, computed⟩ := forall_of_sub repeated reading listed
    rw [computed, agree reading _ _ (first reading listed) computed]
  rw [sub_of_forall first] at returned
  rw [sub_of_forall second] at repeated
  exact Option.some.inj (returned.symm.trans repeated)

end Replacing

end Segments
end Foundations.Regex
