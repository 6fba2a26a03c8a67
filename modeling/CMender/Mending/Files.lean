import CMender.Foundations.Text
import CMender.Runtime

/-! The files a header diagnostic creates. Paths are absolute and normalised as
texts are, without symbolic links: `.` disappears and `..` drops the component
before it, if there is one. -/
namespace CMender
open Foundations

/-- Components below the root. -/
abbrev Path := List String

namespace Path

def components (text : String) : Path :=
  ((Text.pieces '/' text.toList).map String.ofList).filter (· ≠ "")

def normalise : Path → Path → Path
  | reversed, [] => reversed.reverse
  | reversed, component :: rest =>
    if component = "." then normalise reversed rest
    else if component = ".." then normalise reversed.tail rest
    else normalise (component :: reversed) rest

/-- `Paths.get(directory, text)` in its canonical form; an absolute-looking text
is still taken below the directory. -/
def canonical (directory text : String) : Path := normalise [] (components directory ++ components text)

def text (path : Path) : String := "/" ++ "/".intercalate path

def ancestors (path : Path) : List Path := path.inits.filter (· ≠ [])

end Path

structure FileSystem where
  regularFiles : List Path
  directories : List Path
deriving DecidableEq, Repr

namespace FileSystem

def empty : FileSystem := ⟨[], []⟩

/-- Creates the directory and its missing ancestors, unless one of them is a file. -/
def createDirectories (files : FileSystem) (path : Path) : Except String FileSystem :=
  match path.ancestors.find? (files.regularFiles.contains ·) with
  | some file => .error file.text
  | none => .ok { files with directories := path.ancestors ++ files.directories }

/-- The root always exists. -/
def createFile (files : FileSystem) (path : Path) : Except String FileSystem :=
  if path = [] || files.regularFiles.contains path || files.directories.contains path then
    .error path.text
  else .ok { files with regularFiles := path :: files.regularFiles }

end FileSystem

example : Path.canonical "/inc" "../usr/./x.h" = ["usr", "x.h"] := by decide

end CMender
