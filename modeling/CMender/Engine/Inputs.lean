import Mathlib.Data.List.Dedup
import Mathlib.Data.List.Pairwise
import CMender.Mending.Files

/-! The files that are mended. The arguments are made absolute and put in a set as texts,
before anything is resolved; a file is then listed under its canonical path, and the files
of a directory under the directory's own text. So two spellings of one file, or a file and
its directory, are listed twice. -/
namespace CMender
open Foundations

inductive Node where
  | regularFile (readable : Bool)
  /-- The listing fails for some directories. -/
  | directory (names : Option (List String))
  | other
deriving DecidableEq, Repr

/-- Absolute paths, of which `resolve` follows `.`, `..` and links to what they denote. Asking
for a canonical path may fail. -/
structure FileTree where
  resolve : Path → Option Path
  node : Path → Node
  getCanonicalPath : Path → Option Path
  resolve_resolved : ∀ path target, resolve path = some target → resolve target = some target
  resolve_canonical : ∀ path target, getCanonicalPath path = some target → resolve path = some target
  names_nodup : ∀ path names, node path = .directory (some names) → names.Nodup

/-- The order in which a `HashSet` is iterated. -/
structure HashOrder where
  order : List Path → List Path
  order_perm : ∀ paths, (order paths).Perm paths

def absolutePath (workingDirectory : Path) (file : String) : Option Path :=
  if file.toList.contains '\x00' then none
  else if file.toList.head? = some '/' then some (Path.components file)
  else some (workingDirectory ++ Path.components file)

/-- The paths are not normalised; an invalid one is only reported. -/
def getAbsolutePaths (hashSet : HashOrder) (workingDirectory : Path) (files : List String) : List Path :=
  hashSet.order (files.filterMap (absolutePath workingDirectory)).dedup

namespace FileTree
variable (tree : FileTree)

def isFile (path : Path) : Bool :=
  match tree.resolve path with
  | none => false
  | some target => match tree.node target with
    | .regularFile _ => true
    | _ => false

/-- What one path adds to the list. -/
def validFiles (path : Path) : List Path :=
  match tree.resolve path with
  | none => []
  | some target => match tree.node target with
    | .regularFile readable => if !readable then [] else (tree.getCanonicalPath path).toList
    | .directory (some names) => (names.map fun name => path ++ [name]).filter tree.isFile
    | .directory none => []
    | .other => []

def getExistingValidFiles (paths : List Path) : List Path := paths.flatMap tree.validFiles

/-- No two entries of a list denote the same file. -/
def NoFileTwice (entries : List Path) : Prop :=
  entries.Pairwise fun first second => tree.resolve first ≠ tree.resolve second

/-- The files that an argument stands for: itself, or those in the directory. -/
inductive Covers (path file : Path) : Prop where
  | file (resolved : tree.resolve path = some file) (regular : tree.node file = .regularFile true)
      (named : tree.getCanonicalPath path = some file)
  | listed {directory : Path} {names : List String} {name : String} {readable : Bool}
      (resolved : tree.resolve path = some directory) (listing : tree.node directory = .directory (some names))
      (member : name ∈ names) (entry : tree.resolve (path ++ [name]) = some file)
      (regular : tree.node file = .regularFile readable)

/-- A directory has no two names for one file. -/
def ListsOnce (path : Path) : Prop :=
  ∀ directory names, tree.resolve path = some directory → tree.node directory = .directory (some names) →
    ∀ first ∈ names, ∀ second ∈ names, first ≠ second →
      tree.isFile (path ++ [first]) = true → tree.resolve (path ++ [first]) ≠ tree.resolve (path ++ [second])

end FileTree

section Paths
variable {hashSet : HashOrder} {workingDirectory : Path} {files : List String}

theorem mem_getAbsolutePaths {path : Path} : path ∈ getAbsolutePaths hashSet workingDirectory files ↔
    ∃ file ∈ files, absolutePath workingDirectory file = some path := by
  rw [getAbsolutePaths, (hashSet.order_perm _).mem_iff, List.mem_dedup, List.mem_filterMap]

theorem nodup_getAbsolutePaths : (getAbsolutePaths hashSet workingDirectory files).Nodup := by
  rw [getAbsolutePaths, (hashSet.order_perm _).nodup_iff]
  exact List.nodup_dedup _

end Paths

theorem pairwise_iff_of_nodup {α : Type} {R : α → α → Prop} {items : List α} (distinct : items.Nodup)
    (symmetric : ∀ a b, R a b → R b a) :
    items.Pairwise R ↔ ∀ a ∈ items, ∀ b ∈ items, a ≠ b → R a b := by
  have symm : Std.Symm R := ⟨symmetric⟩
  constructor
  · intro apart a aListed b bListed different
    exact apart.forall aListed bListed different
  · exact distinct.pairwise_of_forall_ne

namespace FileTree
variable {tree : FileTree} {path file : Path}

theorem isFile_iff : tree.isFile path = true ↔
    ∃ file readable, tree.resolve path = some file ∧ tree.node file = .regularFile readable := by
  rw [isFile]
  cases tree.resolve path with
  | none => simp
  | some target => cases kind : tree.node target <;> simp [kind]

theorem validFiles_file {readable : Bool} (resolved : tree.resolve path = some file)
    (regular : tree.node file = .regularFile readable) :
    tree.validFiles path = if !readable then [] else (tree.getCanonicalPath path).toList := by
  rw [validFiles, resolved]
  dsimp only
  rw [regular]

theorem validFiles_directory {directory : Path} {names : List String} (resolved : tree.resolve path = some directory)
    (listing : tree.node directory = .directory (some names)) :
    tree.validFiles path = (names.map fun name => path ++ [name]).filter tree.isFile := by
  rw [validFiles, resolved]
  dsimp only
  rw [listing]

/-- An entry is a canonical path, or a name in a directory. -/
theorem mem_validFiles {entry : Path} : entry ∈ tree.validFiles path ↔
    (tree.resolve path = some entry ∧ tree.node entry = .regularFile true ∧
      tree.getCanonicalPath path = some entry) ∨
    ∃ directory names name, tree.resolve path = some directory ∧ tree.node directory = .directory (some names) ∧
      name ∈ names ∧ entry = path ++ [name] ∧ tree.isFile entry = true := by
  constructor
  · intro listed
    rw [validFiles] at listed
    cases resolved : tree.resolve path with
    | none => simp [resolved] at listed
    | some target =>
      cases kind : tree.node target with
      | regularFile readable =>
        simp only [resolved, kind, List.mem_ite_nil_left, Option.mem_toList] at listed
        obtain ⟨isReadable, named⟩ := listed
        obtain rfl : target = entry :=
          Option.some.inj (resolved.symm.trans (tree.resolve_canonical path entry named))
        exact .inl ⟨rfl, by simpa [kind] using isReadable, named⟩
      | directory listing =>
        cases listing with
        | none => simp [resolved, kind] at listed
        | some names =>
          simp only [resolved, kind, List.mem_filter, List.mem_map] at listed
          obtain ⟨⟨name, member, rfl⟩, isFile⟩ := listed
          exact .inr ⟨target, names, name, rfl, kind, member, rfl, isFile⟩
      | other => simp [resolved, kind] at listed
  · rintro (⟨resolved, regular, named⟩ | ⟨directory, names, name, resolved, listing, member, rfl, isFile⟩)
    · rw [validFiles_file resolved regular, named]
      simp
    · rw [validFiles_directory resolved listing, List.mem_filter]
      exact ⟨List.mem_map_of_mem member, isFile⟩

/-- The entries of an argument denote the files that it covers. -/
theorem covers_iff : tree.Covers path file ↔ ∃ entry ∈ tree.validFiles path, tree.resolve entry = some file := by
  simp only [mem_validFiles]
  constructor
  · intro covers
    cases covers with
    | file resolved regular named =>
      exact ⟨file, .inl ⟨resolved, regular, named⟩, tree.resolve_resolved path file resolved⟩
    | listed resolved listing member entry regular =>
      exact ⟨_, .inr ⟨_, _, _, resolved, listing, member, rfl, isFile_iff.mpr ⟨file, _, entry, regular⟩⟩, entry⟩
  · rintro ⟨entry,
      ⟨resolved, regular, named⟩ | ⟨directory, names, name, resolved, listing, member, rfl, isFile⟩, denotes⟩
    · obtain rfl : entry = file :=
        Option.some.inj ((tree.resolve_resolved path entry resolved).symm.trans denotes)
      exact .file resolved regular named
    · obtain ⟨own, readable, ownDenotes, regular⟩ := isFile_iff.mp isFile
      obtain rfl : own = file := Option.some.inj (ownDenotes.symm.trans denotes)
      exact .listed resolved listing member denotes regular

/-- Every entry denotes a file. -/
theorem resolve_of_mem_validFiles {entry : Path} (listed : entry ∈ tree.validFiles path) :
    ∃ file, tree.resolve entry = some file := by
  rcases mem_validFiles.mp listed with ⟨resolved, _, _⟩ | ⟨_, _, _, _, _, _, _, isFile⟩
  · exact ⟨entry, tree.resolve_resolved path entry resolved⟩
  · obtain ⟨file, _, denotes, _⟩ := isFile_iff.mp isFile
    exact ⟨file, denotes⟩

theorem nodup_validFiles : (tree.validFiles path).Nodup := by
  rw [validFiles]
  split
  · exact List.nodup_nil
  · rename_i target _
    split
    · split
      · exact List.nodup_nil
      · cases tree.getCanonicalPath path with
        | none => exact List.nodup_nil
        | some canonical => exact List.nodup_singleton canonical
    · rename_i names listing
      have distinct := tree.names_nodup target names listing
      refine (distinct.map ?_).filter _
      intro first second same
      exact (List.cons.inj (List.append_cancel_left same)).1
    · exact List.nodup_nil
    · exact List.nodup_nil

/-- One argument alone lists a file twice only as a directory with two names for it. -/
theorem noFileTwice_validFiles : tree.NoFileTwice (tree.validFiles path) ↔ tree.ListsOnce path := by
  rw [NoFileTwice, pairwise_iff_of_nodup nodup_validFiles fun _ _ => Ne.symm]
  constructor
  · intro once directory names resolved listing first firstListed second secondListed different isFile same
    have secondIsFile : tree.isFile (path ++ [second]) = true := by
      rw [FileTree.isFile, ← same]
      exact isFile
    have entries : path ++ [first] ≠ path ++ [second] :=
      fun equal => different (List.cons.inj (List.append_cancel_left equal)).1
    refine once _ ?_ _ ?_ entries same
    · exact mem_validFiles.mpr (.inr ⟨directory, names, first, resolved, listing, firstListed, rfl, isFile⟩)
    · exact mem_validFiles.mpr (.inr ⟨directory, names, second, resolved, listing, secondListed, rfl, secondIsFile⟩)
  · intro once first firstListed second secondListed different
    rcases mem_validFiles.mp firstListed with ⟨resolved, regular, _⟩ |
      ⟨directory, names, name, resolved, listing, member, rfl, isFile⟩
    · rcases mem_validFiles.mp secondListed with ⟨again, _, _⟩ | ⟨directory, names, _, again, listing, _⟩
      · exact absurd (Option.some.inj (resolved.symm.trans again)) different
      · obtain rfl := Option.some.inj (resolved.symm.trans again)
        cases regular.symm.trans listing
    · rcases mem_validFiles.mp secondListed with ⟨again, regular, _⟩ |
        ⟨sameDirectory, sameNames, other, again, sameListing, otherMember, rfl, _⟩
      · obtain rfl := Option.some.inj (resolved.symm.trans again)
        cases listing.symm.trans regular
      · obtain rfl := Option.some.inj (resolved.symm.trans again)
        cases listing.symm.trans sameListing
        refine once directory names resolved listing name member other otherMember ?_ isFile
        rintro rfl
        exact different rfl

/-- The entries of two arguments denote different files when no file is covered by both. -/
theorem apart_iff {other : Path} :
    (∀ entry ∈ tree.validFiles path, ∀ otherEntry ∈ tree.validFiles other,
      tree.resolve entry ≠ tree.resolve otherEntry) ↔ ∀ file, tree.Covers path file → ¬ tree.Covers other file := by
  constructor
  · intro apart file covers otherCovers
    obtain ⟨entry, listed, denotes⟩ := covers_iff.mp covers
    obtain ⟨otherEntry, otherListed, otherDenotes⟩ := covers_iff.mp otherCovers
    exact apart entry listed otherEntry otherListed (denotes.trans otherDenotes.symm)
  · intro apart entry listed otherEntry otherListed same
    obtain ⟨file, denotes⟩ := resolve_of_mem_validFiles listed
    exact apart file (covers_iff.mpr ⟨entry, listed, denotes⟩)
      (covers_iff.mpr ⟨otherEntry, otherListed, same.symm.trans denotes⟩)

/-- An argument of the command line, as an absolute path. -/
def Given (workingDirectory : Path) (files : List String) (path : Path) : Prop :=
  ∃ file ∈ files, absolutePath workingDirectory file = some path

/-- No file is listed twice exactly when every directory among the arguments has one name for
each file, and no two arguments that differ as absolute texts cover the same file. -/
theorem no_file_twice_iff (tree : FileTree) (hashSet : HashOrder) (workingDirectory : Path) (files : List String) :
    tree.NoFileTwice (tree.getExistingValidFiles (getAbsolutePaths hashSet workingDirectory files)) ↔
      (∀ path, Given workingDirectory files path → tree.ListsOnce path) ∧
      ∀ first, Given workingDirectory files first → ∀ second, Given workingDirectory files second →
        first ≠ second → ∀ file, tree.Covers first file → ¬ tree.Covers second file := by
  have given : ∀ path, Given workingDirectory files path ↔ path ∈ getAbsolutePaths hashSet workingDirectory files :=
    fun _ => mem_getAbsolutePaths.symm
  simp only [given, ← apart_iff]
  rw [NoFileTwice, getExistingValidFiles, List.pairwise_flatMap]
  refine and_congr (forall₂_congr fun path _ => noFileTwice_validFiles) ?_
  refine pairwise_iff_of_nodup nodup_getAbsolutePaths ?_
  intro first second apart entry listed otherEntry otherListed same
  exact apart otherEntry otherListed entry listed same.symm

/-- A working directory with one source file. -/
def workTree : FileTree where
  resolve path := if Path.normalise [] path ∈ [["w"], ["w", "a.c"]] then some (Path.normalise [] path) else none
  node path := if path = ["w"] then .directory (some ["a.c"]) else .regularFile true
  getCanonicalPath path :=
    if Path.normalise [] path ∈ [["w"], ["w", "a.c"]] then some (Path.normalise [] path) else none
  resolve_resolved path target resolved := by
    obtain ⟨present, isTarget⟩ := Option.ite_none_right_eq_some.mp resolved
    obtain rfl := Option.some.inj isTarget
    generalize Path.normalise [] path = target at present
    simp only [List.mem_cons, List.not_mem_nil, or_false] at present
    rcases present with rfl | rfl <;> decide
  resolve_canonical path target named := named
  names_nodup path names listing := by
    split at listing
    · cases listing
      decide
    · cases listing

/-- One file is given with two spellings, or with its directory. -/
theorem file_listed_twice :
    let hashSet : HashOrder := ⟨id, fun _ => .refl _⟩
    workTree.getExistingValidFiles (getAbsolutePaths hashSet ["w"] ["a.c", "./a.c"]) = [["w", "a.c"], ["w", "a.c"]] ∧
    workTree.getExistingValidFiles (getAbsolutePaths hashSet ["w"] ["a.c", "."]) =
      [["w", "a.c"], ["w", ".", "a.c"]] ∧
    ¬ workTree.NoFileTwice [["w", "a.c"], ["w", "a.c"]] ∧ ¬ workTree.NoFileTwice [["w", "a.c"], ["w", ".", "a.c"]] := by
  refine ⟨by decide, by decide, fun once => ?_, fun once => ?_⟩
  · exact (List.pairwise_cons.mp once).1 _ List.mem_cons_self rfl
  · exact (List.pairwise_cons.mp once).1 ["w", ".", "a.c"] List.mem_cons_self (by decide)

end FileTree
end CMender
