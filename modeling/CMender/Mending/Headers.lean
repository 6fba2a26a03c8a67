import CMender.Mending.Failures

/-! Where missing headers are created. The path of a header is the include directory with
the text of the directive behind it, normalised, and nothing keeps a text with `..` from
climbing out of the directory. A path is noted before its file is created, so however the
creation ends it is not tried again. -/
namespace CMender
open Foundations Foundations.Execution

namespace Path

/-- Components read from a directory: how often they climb out of it, and where they end. -/
def climb : Nat → Path → Path → Nat × Path
  | ups, reversed, [] => (ups, reversed.reverse)
  | ups, reversed, component :: rest =>
    if component = "." then climb ups reversed rest
    else if component = ".." then climb (if reversed = [] then ups + 1 else ups) reversed.tail rest
    else climb ups (component :: reversed) rest

/-- The components stay in the directory, or come back the way they left it. -/
def ComesBack (directory components : Path) : Prop :=
  directory.drop (directory.length - (climb 0 [] components).1) <+: (climb 0 [] components).2

instance (directory components : Path) : Decidable (ComesBack directory components) :=
  inferInstanceAs (Decidable (_ <+: _))

/-- The directory in the form that paths below it have. -/
def directory (text : String) : Path := canonical text ""

variable {reversed first second : Path} {ups : Nat}

theorem normalise_append :
    normalise reversed (first ++ second) = normalise (normalise reversed first).reverse second := by
  induction first generalizing reversed with
  | nil => rw [List.nil_append, normalise, List.reverse_reverse]
  | cons component rest ih =>
    rw [List.cons_append, normalise, normalise]
    split
    · exact ih
    · split
      · exact ih
      · exact ih

theorem tail_append_drop (above : Path) :
    (reversed ++ above.drop ups).tail = reversed.tail ++ above.drop (if reversed = [] then ups + 1 else ups) := by
  cases reversed with
  | nil => rw [List.nil_append, List.tail_drop, if_pos rfl, List.tail_nil, List.nil_append]
  | cons component behind => rw [if_neg (List.cons_ne_nil _ _), List.cons_append, List.tail_cons, List.tail_cons]

/-- From a directory, normalising is climbing out of it and then down. -/
theorem normalise_climb (above components : Path) :
    normalise (reversed ++ above.drop ups) components =
      (above.drop (climb ups reversed components).1).reverse ++ (climb ups reversed components).2 := by
  induction components generalizing ups reversed with
  | nil => rw [normalise, climb, List.reverse_append]
  | cons component rest ih =>
    rw [normalise, climb]
    by_cases here : component = "."
    · rw [if_pos here, if_pos here, ih]
    · rw [if_neg here, if_neg here]
      by_cases up : component = ".."
      · rw [if_pos up, if_pos up, tail_append_drop, ih]
      · rw [if_neg up, if_neg up, ← List.cons_append, ih]

theorem canonical_eq (includePath text : String) :
    canonical includePath text = normalise (directory includePath).reverse (components text) := by
  have nothing : components "" = [] := by decide
  rw [directory, canonical, normalise_append, canonical, nothing, List.append_nil]

/-- A text leads into the directory exactly when it comes back to it. -/
theorem inside_iff (includePath text : String) :
    directory includePath <+: canonical includePath text ↔ ComesBack (directory includePath) (components text) := by
  have split : normalise ([] ++ (directory includePath).reverse.drop 0) (components text) = _ := normalise_climb _ _
  rw [List.nil_append, List.drop_zero] at split
  rw [canonical_eq, split, List.drop_reverse, List.reverse_reverse, ComesBack]
  nth_rewrite 1 [← List.take_append_drop ((directory includePath).length - (climb 0 [] (components text)).1)
    (directory includePath)]
  exact List.prefix_append_right_inj _

end Path

/-! ### The operations of the handler -/

inductive FileOperation where
  | createDirectories (path : Path)
  | createFile (path : Path)
deriving DecidableEq, Repr

namespace FileOperation

def perform : FileOperation → FileSystem → Except String FileSystem
  | createDirectories path, files => files.createDirectories path
  | createFile path, files => files.createFile path

/-- Operations one after another, up to the first that fails. -/
def performed : List FileOperation → FileSystem → FileSystem
  | [], files => files
  | operation :: rest, files =>
    match operation.perform files with
    | .ok next => performed rest next
    | .error _ => files

/-- The files that operations are asked to create. -/
def requested : List FileOperation → List Path := List.filterMap fun
  | createFile path => some path
  | createDirectories _ => none

end FileOperation

open FileOperation

/-- What the handler asks the file system for, when it has the path. -/
def pathOperations (s : MendingState) (headerFilePath : Path) : List FileOperation :=
  if s.table.ppFileExists headerFilePath ∨ headerFilePath = [] then []
  else .createDirectories headerFilePath.dropLast ::
    match s.files.createDirectories headerFilePath.dropLast with
    | .ok _ => [.createFile headerFilePath]
    | .error _ => []

def headerOperations (includePath : String) (s : MendingState) (diag : Diagnostic) : List FileOperation :=
  match headerArgs diag.args with
  | none => []
  | some string =>
    if string.toList.contains '\x00' then [] else pathOperations s (Path.canonical includePath string)

/-- The state that a handler leaves, whether it returns or throws. -/
def leftState {α : Type} : EStateM.Result JavaException MendingState α → MendingState
  | .ok _ s => s
  | .error _ s => s

section Operations
variable {s : MendingState} {includePath : String} {diag : Diagnostic} {path : Path}

theorem createHeaderFile_left (failed : String → JavaException) :
    leftState (createHeaderFile failed path s) =
      { s with
        table := if s.table.ppFileExists path then s.table else s.table.addPPFile path
        files := performed (pathOperations s path) s.files } := by
  rw [createHeaderFile, pathOperations]
  change leftState ((if s.table.ppFileExists path = true then (return : Mend Unit) else _) s) = _
  by_cases known : s.table.ppFileExists path = true
  · rw [if_pos known, if_pos known, if_pos (.inl known)]
    rfl
  · rw [if_neg known, if_neg known]
    change leftState ((if path = [] then (throw (failed "null") : Mend Unit) else _)
      { s with table := s.table.addPPFile path }) = _
    by_cases root : path = []
    · rw [if_pos root, if_pos (.inr root)]
      rfl
    · rw [if_neg root, if_neg (not_or.mpr ⟨known, root⟩)]
      change leftState ((raise ((s.files.createDirectories path.dropLast).mapError failed) >>= fun files => _)
        { s with table := s.table.addPPFile path }) = _
      cases directories : s.files.createDirectories path.dropLast with
      | error message =>
        simp only [performed, perform, directories]
        rfl
      | ok files =>
        simp only [performed, perform, directories]
        change leftState ((raise ((files.createFile path).mapError failed) >>= fun files => _)
          { s with table := s.table.addPPFile path, files := files }) = _
        cases files.createFile path with
        | error message => rfl
        | ok created => rfl

/-- At most one file is asked for, and it has not been noted before. -/
theorem requested_pathOperations : requested (pathOperations s path) = [] ∨
    requested (pathOperations s path) = [path] ∧ s.table.ppFileExists path = false := by
  rw [pathOperations]
  split
  · exact .inl rfl
  · rename_i unknown
    cases s.files.createDirectories path.dropLast with
    | error message => exact .inl rfl
    | ok files => exact .inr ⟨rfl, by simpa using (not_or.mp unknown).1⟩

/-- The handler goes as far as the path, or does nothing. -/
theorem createHeaderFileHeuristic_cases (includePath : String) (s : MendingState) (diag : Diagnostic) :
    headerOperations includePath s diag = [] ∧ leftState (createHeaderFileHeuristic includePath diag s) = s ∨
    ∃ string failed, headerArgs diag.args = some string ∧
      headerOperations includePath s diag = pathOperations s (Path.canonical includePath string) ∧
      leftState (createHeaderFileHeuristic includePath diag s) =
        leftState (createHeaderFile failed (Path.canonical includePath string) s) := by
  rw [createHeaderFileHeuristic, headerOperations]
  cases args : headerArgs diag.args with
  | none => exact .inl ⟨rfl, rfl⟩
  | some string =>
    by_cases nul : string.toList.contains '\x00' = true
    · refine .inl ⟨if_pos nul, ?_⟩
      change leftState (ite (string.toList.contains '\x00' = true) (throw _ : Mend Unit) _ s) = s
      rw [if_pos nul]
      rfl
    · refine .inr ⟨string, fun message => .runtime ("Failed to handle missing pp file: " ++ message), rfl,
        if_neg nul, ?_⟩
      change leftState (ite (string.toList.contains '\x00' = true) _ (createHeaderFile _ _) s) = _
      rw [if_neg nul]

/-- What the handler does: it performs its operations, forgets no path, and asks at most
for the file of its own path, which is new and noted from now on. -/
structure HeaderHandled (includePath : String) (s : MendingState) (diag : Diagnostic) (t : MendingState) : Prop where
  files : t.files = performed (headerOperations includePath s diag) s.files
  noted : ∀ path ∈ s.table.ppFiles, path ∈ t.table.ppFiles
  one : requested (headerOperations includePath s diag) = [] ∨ ∃ string, headerArgs diag.args = some string ∧
    requested (headerOperations includePath s diag) = [Path.canonical includePath string] ∧
    Path.canonical includePath string ∉ s.table.ppFiles ∧ Path.canonical includePath string ∈ t.table.ppFiles

theorem headerHandled (includePath : String) (s : MendingState) (diag : Diagnostic) :
    HeaderHandled includePath s diag (leftState (createHeaderFileHeuristic includePath diag s)) := by
  rcases createHeaderFileHeuristic_cases includePath s diag with
    ⟨nothing, same⟩ | ⟨string, failed, args, operations, left⟩
  · rw [same]
    exact ⟨by rw [nothing]; rfl, fun _ noted => noted, .inl (by rw [nothing]; rfl)⟩
  · rw [left, createHeaderFile_left]
    refine ⟨by rw [operations], fun path noted => ?_, ?_⟩
    · dsimp only
      split
      · exact noted
      · exact List.mem_insert_of_mem noted
    · rw [operations]
      refine requested_pathOperations.imp id ?_
      rintro ⟨asked, new⟩
      refine ⟨string, args, asked, by simpa [MendingTable.ppFileExists] using new, ?_⟩
      rw [new]
      exact List.mem_insert_self

end Operations

section Runs
variable {includePath : String} {s : MendingState}

/-- The files that the handler asks for on a sequence of diagnostics, from the states that
the calls before leave. -/
def headerRequests (includePath : String) : MendingState → List Diagnostic → List Path
  | _, [] => []
  | s, diag :: rest =>
    requested (headerOperations includePath s diag) ++
      headerRequests includePath (leftState (createHeaderFileHeuristic includePath diag s)) rest

theorem headerRequests_new (diags : List Diagnostic) :
    (headerRequests includePath s diags).Nodup ∧
      ∀ path ∈ headerRequests includePath s diags, path ∉ s.table.ppFiles := by
  induction diags generalizing s with
  | nil => exact ⟨List.nodup_nil, nofun⟩
  | cons diag rest ih =>
    have handled := headerHandled includePath s diag
    obtain ⟨once, later⟩ := @ih (leftState (createHeaderFileHeuristic includePath diag s))
    have unnoted : ∀ path ∈ headerRequests includePath (leftState (createHeaderFileHeuristic includePath diag s)) rest,
        path ∉ s.table.ppFiles := fun path asked noted => later path asked (handled.noted path noted)
    rw [headerRequests]
    rcases handled.one with nothing | ⟨string, _, asked, new, nowNoted⟩
    · rw [nothing]
      exact ⟨once, unnoted⟩
    · rw [asked]
      refine ⟨List.nodup_cons.mpr ⟨fun again => later _ again nowNoted, once⟩, ?_⟩
      intro path listed
      rcases List.mem_cons.mp listed with rfl | behind
      · exact new
      · exact unnoted path behind

/-- The path of a header lies in the include directory exactly when the text of the directive
comes back to it; and no file is asked for twice, whatever the diagnostics are. -/
theorem headers_inside_iff_once (includePath : String) :
    (∀ s diag path, path ∈ requested (headerOperations includePath s diag) →
      ∃ string, headerArgs diag.args = some string ∧ path = Path.canonical includePath string) ∧
    (∀ string, Path.directory includePath <+: Path.canonical includePath string ↔
      Path.ComesBack (Path.directory includePath) (Path.components string)) ∧
    ∀ s diags, (headerRequests includePath s diags).Nodup := by
  refine ⟨?_, Path.inside_iff includePath, fun s diags => (headerRequests_new diags).1⟩
  intro s diag path asked
  rcases (headerHandled includePath s diag).one with nothing | ⟨string, args, only, _, _⟩
  · rw [nothing] at asked
    cases asked
  · rw [only] at asked
    exact ⟨string, args, List.mem_singleton.mp asked⟩

/-- `#include "../x.h"` makes a file next to the include directory. -/
theorem header_outside :
    let missing : Diagnostic := .errorAt 1 "x" .errPPFileNotFound "'../x.h' file not found" [.stdString "../x.h"] []
    headerOperations "/m/includes" (.initial .start .empty) missing =
      [.createDirectories ["m"], .createFile ["m", "x.h"]] ∧
    (leftState (createHeaderFileHeuristic "/m/includes" missing (.initial .start .empty))).files.regularFiles =
      [["m", "x.h"]] ∧
    ¬ Path.directory "/m/includes" <+: ["m", "x.h"] := by
  decide

end Runs
end CMender
