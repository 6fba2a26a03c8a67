import CMender.Dataset.ParentDirectories
import CMender.Foundations.Maps
import Mathlib.Algebra.Order.BigOperators.Group.List

/-! The preparation of a project. Each source file is converted and written under its flattened
name, in which every slash has become an underscore; what the compiler accepts is removed again.
Two source files may have one flattened name. -/
namespace CMender.Dataset
open Foundations

/-! ### The source files -/

/-- A file of a directory; the directory of the project itself has no name. -/
def joinPath (root file : String) : String := if root = "" then file else root ++ "/" ++ file

def isReached (limit : Option Nat) (found : List String) : Bool :=
  match limit with
  | none => false
  | some size => size ≤ found.length

/-- The inner loop; it breaks when there are enough files. -/
def addCFiles (maxFiles : Option Nat) (root : String) : List String → List String → List String
  | found, [] => found
  | found, file :: files =>
    if isReached maxFiles found then found
    else if ".c".toList.isSuffixOf file.toList then addCFiles maxFiles root (found.insert (joinPath root file)) files
    else addCFiles maxFiles root found files

/-- The set of source files below a directory, with the files of each directory as they are walked. -/
def getCFiles (walk : List (String × List String)) (maxFiles : Option Nat) : List String :=
  walk.foldl (fun found directory => addCFiles maxFiles directory.1 found directory.2) []

theorem nodup_addCFiles {maxFiles : Option Nat} {root : String} {found files : List String} (distinct : found.Nodup) :
    (addCFiles maxFiles root found files).Nodup := by
  induction files generalizing found with
  | nil => exact distinct
  | cons file files ih =>
    rw [addCFiles]
    split
    · exact distinct
    · split
      · exact ih distinct.insert
      · exact ih distinct

theorem nodup_getCFiles (walk : List (String × List String)) (maxFiles : Option Nat) :
    (getCFiles walk maxFiles).Nodup := by
  rw [getCFiles]
  generalize start : ([] : List String) = found
  have distinct : found.Nodup := start ▸ List.nodup_nil
  clear start
  induction walk generalizing found with
  | nil => exact distinct
  | cons directory walk ih => exact ih _ (nodup_addCFiles distinct)

/-- The paths in the order in which they are handled: those of the set, or of a sample of it. A file
whose contents cannot be decoded has no lines. -/
structure Project where
  paths : List String
  distinct : paths.Nodup
  lines : String → Option (List (List Char))
  sampleSize : Option Nat

/-- Neither the order of the set nor the choice of the sample is known. -/
def Project.ofWalk (walk : List (String × List String)) (paths : List String)
    (chosen : paths.Subperm (getCFiles walk none)) (lines : String → Option (List (List Char)))
    (sampleSize : Option Nat) : Project where
  paths := paths
  distinct := by
    obtain ⟨others, same, fewer⟩ := chosen
    exact same.nodup_iff.mp (fewer.nodup (nodup_getCFiles walk none))
  lines := lines
  sampleSize := sampleSize

/-! ### The loop -/

/-- The compiler was run, or could not be. -/
inductive CompileCheck where
  | returned (code : Int)
  | raised

/-- The files that have been written, and the paths that have been recorded. -/
structure Prepared where
  outputs : Map String (List Char)
  files : List String

def flattenedName (path : String) : String := Text.replace path "/" "_"

/-- A file is written and checked; it is recorded, or removed again. -/
def Prepared.record (state : Prepared) (path : String) (text : List Char) (answer : CompileCheck) : Prepared :=
  let outputs := state.outputs.insert (flattenedName path) text
  match answer with
  | .returned code =>
    if code ≠ 0 then ⟨outputs, state.files ++ [path]⟩ else ⟨outputs.erase (flattenedName path), state.files⟩
  | .raised => ⟨outputs, state.files⟩

section Loop
variable (fuel : Nat) (project : Project) (check : String → CompileCheck)

/-- Reading stands before the `try`: what cannot be decoded ends the program, and there is no result. -/
def prepareFile (state : Prepared) (path : String) : Option Prepared := do
  let lines ← project.lines path
  let modifiedLines ← lines.mapM (convertIncludePath fuel)
  return state.record path modifiedLines.flatten (check path)

def prepareFiles : Prepared → List String → Option Prepared
  | state, [] => some state
  | state, path :: rest =>
    if isReached project.sampleSize state.files then some state
    else do prepareFiles (← prepareFile fuel project check state path) rest

def prepareProject : Option Prepared := prepareFiles fuel project check ⟨.empty, []⟩ project.paths

end Loop

/-- The loop ends in this state. -/
def Prepares (project : Project) (check : String → CompileCheck) (final : Prepared) : Prop :=
  ∃ fuel, prepareProject fuel project check = some final

/-- The text that a file is converted to. -/
def ConvertedText (lines : List (List Char)) (text : List Char) : Prop :=
  ∃ results, List.Forall₂ Converts lines results ∧ text = results.flatten

/-- The paths that are handled before the sample is complete. -/
def handledPaths (sampleSize : Option Nat) (codes : String → Int) : List String → List String → List String
  | _, [] => []
  | files, path :: rest =>
    if isReached sampleSize files then []
    else path :: handledPaths sampleSize codes (if codes path ≠ 0 then files ++ [path] else files) rest

namespace Project

def handled (project : Project) (codes : String → Int) : List String :=
  handledPaths project.sampleSize codes [] project.paths

/-- The file can be decoded, and each of its lines is converted. -/
def convertible (project : Project) (path : String) : Prop :=
  ∃ lines, project.lines path = some lines ∧ ∀ line ∈ lines, ∃ result, Converts line result

def text (project : Project) (path : String) : List Char :=
  (((project.lines path).getD []).map (withPaths tidied)).flatten

section Runs
variable {project : Project} {codes : String → Int} {fuel : Nat} {state final : Prepared} {path : String}
  {rest : List String}

variable {lines : List (List Char)}

theorem text_of_lines (decoded : project.lines path = some lines) :
    project.text path = (lines.map (withPaths tidied)).flatten := by
  rw [text, decoded, Option.getD_some]

theorem convertedText_text (converts : project.convertible path) :
    ∃ lines, project.lines path = some lines ∧ ConvertedText lines (project.text path) := by
  obtain ⟨lines, decoded, converts⟩ := converts
  refine ⟨lines, decoded, _, List.forall₂_map_right_iff.mpr (List.forall₂_same.mpr fun line listed => ?_),
    text_of_lines decoded⟩
  obtain ⟨result, converted⟩ := converts line listed
  exact converts_tidied (proper_of_converts converted)

theorem prepareFile_of_convertible {check : String → CompileCheck} (converts : project.convertible path)
    (enough : ∀ lines, project.lines path = some lines → ∀ line ∈ lines, line.length < fuel) :
    prepareFile fuel project check state path = some (state.record path (project.text path) (check path)) := by
  obtain ⟨lines, decoded, converts⟩ := converts
  have converted : ∀ line ∈ lines, convertIncludePath fuel line = some (withPaths tidied line) := by
    intro line listed
    obtain ⟨result, ends⟩ := converts line listed
    exact convertIncludePath_tidied (proper_of_converts ends) (enough lines decoded line listed)
  rw [prepareFile, decoded, text_of_lines decoded, Option.bind_eq_bind, Option.bind_some,
    Looping.mapM_of_forall converted]
  rfl

/-- A file that has been prepared could be converted, and to this text. -/
theorem prepareFile_returned {check : String → CompileCheck}
    (returned : prepareFile fuel project check state path = some final) :
    project.convertible path ∧ state.record path (project.text path) (check path) = final := by
  obtain ⟨lines, decoded, returned⟩ := Option.bind_eq_some_iff.mp returned
  obtain ⟨modified, converted, isFinal⟩ := Option.bind_eq_some_iff.mp returned
  have converts : project.convertible path := by
    refine ⟨lines, decoded, fun line listed => ?_⟩
    obtain ⟨result, ends⟩ := Looping.forall_of_mapM converted line listed
    exact ⟨result, fuel, ends⟩
  have tidy : ∀ line ∈ lines, convertIncludePath fuel line = some (withPaths tidied line) := by
    intro line listed
    obtain ⟨result, ends⟩ := Looping.forall_of_mapM converted line listed
    have ended : Converts line result := ⟨fuel, ends⟩
    rw [ends, ended.unique (converts_tidied (proper_of_converts ended))]
  rw [Looping.mapM_of_forall tidy] at converted
  obtain rfl := Option.some.inj converted
  rw [text_of_lines decoded]
  exact ⟨converts, Option.some.inj isFinal⟩

theorem files_record {text : List Char} : (state.record path text (.returned (codes path))).files =
    if codes path ≠ 0 then state.files ++ [path] else state.files := by
  simp only [Prepared.record]
  split <;> rfl

/-- The handled files are recorded one after the other. -/
def recordAll (project : Project) (codes : String → Int) : Prepared → List String → Prepared :=
  List.foldl fun state path => state.record path (project.text path) (.returned (codes path))

theorem recordAll_cons : recordAll project codes state (path :: rest) =
    recordAll project codes (state.record path (project.text path) (.returned (codes path))) rest := rfl

theorem mem_files_recordAll {other : String} (listed : other ∈ (recordAll project codes state rest).files) :
    other ∈ state.files ∨ other ∈ rest := by
  induction rest generalizing state with
  | nil => exact .inl listed
  | cons path rest ih =>
    rcases ih listed with before | later
    · rw [files_record] at before
      split at before
      · rcases List.mem_append.mp before with earlier | isPath
        · exact .inl earlier
        · exact .inr (List.mem_singleton.mp isPath ▸ List.mem_cons_self)
      · exact .inl before
    · exact .inr (List.mem_cons_of_mem _ later)

theorem prepareFiles_of_convertible
    (converts : ∀ path ∈ handledPaths project.sampleSize codes state.files rest, project.convertible path)
    (enough : ∀ path ∈ rest, ∀ lines, project.lines path = some lines → ∀ line ∈ lines, line.length < fuel) :
    prepareFiles fuel project (fun path => .returned (codes path)) state rest =
      some (recordAll project codes state (handledPaths project.sampleSize codes state.files rest)) := by
  induction rest generalizing state with
  | nil => rfl
  | cons path rest ih =>
    rw [prepareFiles]
    rw [handledPaths] at converts ⊢
    by_cases reached : isReached project.sampleSize state.files = true
    · rw [if_pos reached, if_pos reached]
      rfl
    · rw [if_neg reached] at converts ⊢
      rw [if_neg reached]
      obtain ⟨here, later⟩ := List.forall_mem_cons.mp converts
      obtain ⟨enoughHere, enoughLater⟩ := List.forall_mem_cons.mp enough
      rw [prepareFile_of_convertible here enoughHere, recordAll_cons]
      rw [← @files_record codes state path (project.text path)] at later ⊢
      exact ih later enoughLater

theorem prepareFiles_returned
    (returned : prepareFiles fuel project (fun path => .returned (codes path)) state rest = some final) :
    (∀ path ∈ handledPaths project.sampleSize codes state.files rest, project.convertible path) ∧
      recordAll project codes state (handledPaths project.sampleSize codes state.files rest) = final := by
  induction rest generalizing state with
  | nil => exact ⟨nofun, Option.some.inj returned⟩
  | cons path rest ih =>
    rw [prepareFiles] at returned
    rw [handledPaths]
    split at returned
    next reached =>
      rw [if_pos reached]
      exact ⟨nofun, Option.some.inj returned⟩
    next notReached =>
      rw [if_neg notReached]
      obtain ⟨next, prepared, returned⟩ := Option.bind_eq_some_iff.mp returned
      obtain ⟨converts, rfl⟩ := prepareFile_returned prepared
      obtain ⟨later, recorded⟩ := ih returned
      rw [files_record] at later recorded
      exact ⟨List.forall_mem_cons.mpr ⟨converts, later⟩, recorded⟩

theorem exists_enough (project : Project) :
    ∃ fuel, ∀ path ∈ project.paths, ∀ lines, project.lines path = some lines → ∀ line ∈ lines, line.length < fuel := by
  let all := project.paths.flatMap fun path => (project.lines path).getD []
  refine ⟨(all.map List.length).sum + 1, fun path listed lines decoded line isLine => ?_⟩
  have among : line ∈ all := List.mem_flatMap.mpr ⟨path, listed, by rwa [decoded]⟩
  exact Nat.lt_succ_of_le (List.le_sum_of_mem (List.mem_map_of_mem among))

/-- What the loop does, without the rounds it needs. -/
theorem prepares_iff : Prepares project (fun path => .returned (codes path)) final ↔
    (∀ path ∈ project.handled codes, project.convertible path) ∧
      recordAll project codes ⟨.empty, []⟩ (project.handled codes) = final := by
  constructor
  · rintro ⟨fuel, returned⟩
    exact prepareFiles_returned returned
  · rintro ⟨converts, rfl⟩
    obtain ⟨fuel, enough⟩ := project.exists_enough
    exact ⟨fuel, prepareFiles_of_convertible converts enough⟩

end Runs
end Project

/-! ### One name for two files -/

/-- Every recorded path has its own output, with this text. -/
structure Complete (text : String → List Char) (state : Prepared) : Prop where
  keys : state.outputs.keys.Perm (state.files.map flattenedName)
  written : ∀ path ∈ state.files, state.outputs.lookup (flattenedName path) = some (text path)

/-- An output has been overwritten or removed. -/
def Lost (state : Prepared) : Prop := state.outputs.keys.length < state.files.length

/-- No handled path takes the name of a path that has been recorded. -/
def Clear (codes : String → Int) (files handled : List String) : Prop :=
  (∀ earlier ∈ files, ∀ later ∈ handled, flattenedName earlier ≠ flattenedName later) ∧
    handled.Pairwise fun earlier later => codes earlier ≠ 0 → flattenedName earlier ≠ flattenedName later

section Names
variable {text : String → List Char} {state : Prepared} {path : String} {content : List Char} {code : Int}
  {codes : String → Int} {files handled : List String}

theorem record_failed (fails : code ≠ 0) : state.record path content (.returned code) =
    ⟨state.outputs.insert (flattenedName path) content, state.files ++ [path]⟩ := if_pos fails

theorem record_compiled : state.record path content (.returned 0) =
    ⟨(state.outputs.insert (flattenedName path) content).erase (flattenedName path), state.files⟩ := rfl

theorem keys_record_compiled : (state.record path content (.returned 0)).outputs.keys =
    state.outputs.keys.erase (flattenedName path) := by
  rw [record_compiled, Map.keys_erase, Map.keys_insert, List.erase_cons_head]

theorem lost_record (lost : Lost state) : Lost (state.record path content (.returned code)) := by
  by_cases compiled : code = 0
  · subst compiled
    rw [Lost, keys_record_compiled]
    exact Nat.lt_of_le_of_lt List.length_erase_le lost
  · rw [record_failed compiled, Lost, Map.keys_insert, List.length_cons, List.length_append]
    exact Nat.succ_lt_succ (Nat.lt_of_le_of_lt List.length_erase_le lost)

/-- The name of a recorded path is taken: its output is lost. -/
theorem Complete.lost (complete : Complete text state) (taken : ∃ earlier ∈ state.files,
    flattenedName earlier = flattenedName path) : Lost (state.record path content (.returned code)) := by
  obtain ⟨earlier, listed, same⟩ := taken
  have isKey : flattenedName path ∈ state.outputs.keys :=
    complete.keys.mem_iff.mpr (List.mem_map.mpr ⟨earlier, listed, same⟩)
  have count : state.outputs.keys.length = state.files.length := by
    rw [complete.keys.length_eq, List.length_map]
  have fewer := List.length_erase_of_mem isKey
  have positive := List.length_pos_of_mem isKey
  by_cases compiled : code = 0
  · subst compiled
    rw [Lost, keys_record_compiled]
    change _ < state.files.length
    omega
  · rw [record_failed compiled, Lost, Map.keys_insert, List.length_cons, List.length_append, List.length_singleton]
    omega

theorem Complete.record (complete : Complete text state)
    (free : ∀ earlier ∈ state.files, flattenedName earlier ≠ flattenedName path) :
    Complete text (state.record path (text path) (.returned code)) := by
  have noKey : flattenedName path ∉ state.outputs.keys := by
    rw [complete.keys.mem_iff, List.mem_map]
    rintro ⟨earlier, listed, same⟩
    exact free earlier listed same
  by_cases compiled : code = 0
  · subst compiled
    constructor
    · rw [keys_record_compiled, List.erase_of_not_mem noKey]
      exact complete.keys
    · intro earlier listed
      rw [record_compiled, Map.lookup_erase_of_ne (free earlier listed), Map.lookup_insert_of_ne (free earlier listed)]
      exact complete.written earlier listed
  · rw [record_failed compiled]
    constructor
    · rw [Map.keys_insert, List.erase_of_not_mem noKey, List.map_append]
      exact (complete.keys.cons _).trans (List.perm_append_singleton _ _).symm
    · intro earlier listed
      rcases List.mem_append.mp listed with before | isPath
      · rw [Map.lookup_insert_of_ne (free earlier before)]
        exact complete.written earlier before
      · rw [List.mem_singleton.mp isPath]
        exact Map.lookup_insert_self

theorem clear_cons : Clear codes files (path :: handled) ↔
    (∀ earlier ∈ files, flattenedName earlier ≠ flattenedName path) ∧
      Clear codes (if codes path ≠ 0 then files ++ [path] else files) handled := by
  simp only [Clear, List.forall_mem_cons, List.pairwise_cons]
  split
  next fails =>
    simp only [List.forall_mem_append, List.forall_mem_singleton]
    constructor
    · rintro ⟨before, own, later⟩
      exact ⟨fun earlier listed => (before earlier listed).1,
        ⟨fun earlier listed => (before earlier listed).2, fun other listed => own other listed fails⟩, later⟩
    · rintro ⟨here, ⟨before, own⟩, later⟩
      exact ⟨fun earlier listed => ⟨here earlier listed, before earlier listed⟩, fun other listed _ => own other listed,
        later⟩
  next compiled =>
    constructor
    · rintro ⟨before, _, later⟩
      exact ⟨fun earlier listed => (before earlier listed).1, fun earlier listed => (before earlier listed).2, later⟩
    · rintro ⟨here, before, later⟩
      exact ⟨fun earlier listed => ⟨here earlier listed, before earlier listed⟩,
        fun other listed fails => absurd fails compiled, later⟩

variable {project : Project}

theorem lost_recordAll (lost : Lost state) : Lost (project.recordAll codes state handled) := by
  induction handled generalizing state with
  | nil => exact lost
  | cons path handled ih => exact ih (lost_record lost)

/-- A run keeps the outputs, or loses one for good. -/
theorem complete_recordAll (complete : Complete project.text state) :
    (Clear codes state.files handled → Complete project.text (project.recordAll codes state handled)) ∧
      (¬ Clear codes state.files handled → Lost (project.recordAll codes state handled)) := by
  induction handled generalizing state with
  | nil => exact ⟨fun _ => complete, fun clash => absurd ⟨fun _ _ => nofun, List.Pairwise.nil⟩ clash⟩
  | cons path handled ih =>
    rw [clear_cons, Project.recordAll_cons]
    by_cases free : ∀ earlier ∈ state.files, flattenedName earlier ≠ flattenedName path
    · obtain ⟨kept, lost⟩ := ih (complete.record free)
      rw [Project.files_record] at kept lost
      exact ⟨fun clear => kept clear.2, fun clash => lost fun clear => clash ⟨free, clear⟩⟩
    · have taken : ∃ earlier ∈ state.files, flattenedName earlier = flattenedName path := by
        simpa using free
      exact ⟨fun clear => absurd clear.1 free, fun _ => lost_recordAll (complete.lost taken)⟩

theorem complete_empty : Complete text ⟨.empty, []⟩ := ⟨List.Perm.nil, nofun⟩

theorem clear_nil : Clear codes [] handled ↔
    handled.Pairwise fun earlier later => codes earlier ≠ 0 → flattenedName earlier ≠ flattenedName later :=
  and_iff_right nofun

/-- When there are as many outputs as recorded paths, no name was used again. -/
theorem clear_of_counted {final : Prepared} (prepared : Prepares project (fun path => .returned (codes path)) final)
    (counted : final.outputs.keys.length = final.files.length) : Clear codes [] (project.handled codes) := by
  obtain ⟨_, rfl⟩ := Project.prepares_iff.mp prepared
  by_contra clash
  exact absurd counted ((complete_recordAll complete_empty).2 clash).ne

/-- The prepared dataset has every recorded file when all files are decoded, all lines convert and no
later file takes the flattened name of a recorded one. -/
theorem prepared_files_iff (project : Project) (codes : String → Int) :
    (∃ final, Prepares project (fun path => .returned (codes path)) final ∧
      (∀ path ∈ final.files, ∃ lines text, project.lines path = some lines ∧ ConvertedText lines text ∧
        final.outputs.lookup (flattenedName path) = some text) ∧
      final.outputs.keys.length = final.files.length) ↔
    (∀ path ∈ project.handled codes, ∃ lines, project.lines path = some lines ∧
      ∀ line ∈ lines, ∃ result, Converts line result) ∧
      (project.handled codes).Pairwise fun earlier later =>
        codes earlier ≠ 0 → flattenedName earlier ≠ flattenedName later := by
  rw [← clear_nil]
  constructor
  · rintro ⟨final, prepared, _, counted⟩
    exact ⟨(Project.prepares_iff.mp prepared).1, clear_of_counted prepared counted⟩
  · rintro ⟨converts, clear⟩
    have complete : Complete project.text _ := (complete_recordAll complete_empty).1 clear
    refine ⟨_, Project.prepares_iff.mpr ⟨converts, rfl⟩, fun path listed => ?_, ?_⟩
    · have handled : path ∈ project.handled codes := (Project.mem_files_recordAll listed).resolve_left nofun
      obtain ⟨lines, decoded, converted⟩ := Project.convertedText_text (converts path handled)
      exact ⟨lines, _, decoded, converted, complete.written path listed⟩
    · rw [complete.keys.length_eq, List.length_map]

/-- Two files with one flattened name; the second one compiles. -/
def underscores : Project where
  paths := ["a/b_c.c", "a_b/c.c"]
  distinct := by decide
  lines := fun path => some (if path = "a/b_c.c" then ["#include \"x.h\"\n".toList] else ["int x;\n".toList])
  sampleSize := none

/-- The recorded file is overwritten, and its output removed. -/
theorem underscores_loses_output : ¬ ∃ final,
    Prepares underscores (fun path => .returned (if path = "a/b_c.c" then 1 else 0)) final ∧
      (∀ path ∈ final.files, ∃ lines text, underscores.lines path = some lines ∧ ConvertedText lines text ∧
        final.outputs.lookup (flattenedName path) = some text) ∧
      final.outputs.keys.length = final.files.length := by
  rintro ⟨final, prepared, _, counted⟩
  obtain ⟨_, apart⟩ := clear_of_counted prepared counted
  have different := (List.pairwise_cons.mp apart).1 "a_b/c.c" (by decide) (by decide)
  exact different (by decide)

end Names
end CMender.Dataset
