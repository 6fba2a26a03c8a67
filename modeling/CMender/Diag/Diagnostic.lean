import CMender.Lang.Types

/-! Diagnostics as the exporter hands them over, with the fields the mender
reads. A location that the exporter could not resolve is missing, and comparing
or inspecting it throws. -/
namespace CMender

inductive DiagnosticLevel where
  | ignored | note | remark | warning | error | fatal
deriving DecidableEq, Repr

structure SourceLocation where
  line : Int
  column : Int
  file : String
  path : String
  encompassingCode : String
deriving DecidableEq, Repr

/-- The code around a location is not compared. One object has equal fields, so the
test for identity changes nothing here. -/
def SourceLocation.equals (location : SourceLocation) : Option SourceLocation → Bool
  | none => false
  | some other => location.line == other.line && location.column == other.column &&
      location.file == other.file && location.path == other.path

inductive DiagnosticLocationType where
  | none | file | macroLoc
deriving DecidableEq, Repr

structure DiagnosticLocation where
  type : DiagnosticLocationType
  presumedLoc : Option SourceLocation
  expansionLoc : Option SourceLocation
  spellingLocs : Option (List (Option SourceLocation))
  fileOffset : Int
deriving DecidableEq, Repr

namespace DiagnosticLocation

def isFileLoc (location : DiagnosticLocation) : Bool := location.type == .file

/-- The location that comparison and reporting look at: the presumed one in a
file, the expansion of a macro otherwise. -/
def reportedLoc (location : DiagnosticLocation) : Option SourceLocation :=
  if location.isFileLoc then location.presumedLoc else location.expansionLoc

/-- `identical` is the test `this == obj`: only one and the same object is compared
without a look at its fields. -/
def equals (location other : DiagnosticLocation) (identical : Bool) : Except JavaException Bool :=
  if identical then .ok true
  else if location.type != other.type then .ok false
  else if location.isFileLoc then do
    return (← nonNull location.presumedLoc).equals other.presumedLoc
  else do
    return (← nonNull location.expansionLoc).equals other.expansionLoc

end DiagnosticLocation

structure DiagnosticSourceRange where
  encompassingCode : String
deriving DecidableEq, Repr

/-- The only declaration context the mender knows is a record. -/
structure RecordDecl where
  tagKind : RecordKind
  name : String
deriving DecidableEq, Repr

inductive DiagnosticArg where
  | stdString (string : String)
  | cString
  | sint (integer : Int)
  | uint (integer : Int)
  | tokenKind
  | identifier (name : String)
  | addrSpace
  | qual
  | qualType (qualType : QualType)
  | declarationName (name : String)
  | namedDecl
  | nestedNameSpec
  | declContext (declContext : Option RecordDecl)
  | qualTypePair
  | attr

structure DiagnosticDescription where
  message : String
  args : List DiagnosticArg

structure Diagnostic where
  id : Int
  labelId : Option String
  level : DiagnosticLevel
  description : DiagnosticDescription
  location : DiagnosticLocation
  sourceRanges : List DiagnosticSourceRange

/-- What two diagnostics are to each other as objects: one object, two objects that
refer to one location, or two objects with a location each. -/
inductive Identity where
  | same | sameLocation | separate
deriving DecidableEq, Repr

namespace Diagnostic

def isErrorOrFatal (diag : Diagnostic) : Bool := diag.level == .error || diag.level == .fatal

def message (diag : Diagnostic) : String := diag.description.message

def args (diag : Diagnostic) : List DiagnosticArg := diag.description.args

/-- One and the same object is equal to itself; of two objects identifier, message and
location decide, in this order. -/
def equals (diag other : Diagnostic) (identity : Identity) : Except JavaException Bool :=
  if identity == .same then .ok true
  else if diag.id == other.id && diag.message == other.message then
    diag.location.equals other.location (identity == .sameLocation)
  else .ok false

end Diagnostic

inductive DiagnosticID where
  | unknown | errPPFileNotFound | errArraySizeNonInt | errCallIncompleteArgument
  | errFuncDefIncompleteResult | errNoMember | errTypecheckConvertIncompatible
  | errTypecheckDeclIncompleteType | errTypecheckIllegalIncrementDecrement
  | errTypecheckInvalidOperands | errTypecheckMemberReferenceSuggestion
  | errTypecheckSubscriptNotInteger | errTypecheckSubscriptValue | errUndeclaredVarUse
  | errUndeclaredVarUseSuggest | errUnknownTypename | errUnknownTypenameSuggest
  | extImplicitFunctionDeclC99
deriving DecidableEq, Repr

namespace DiagnosticID

def id : DiagnosticID → Int
  | unknown => -1
  | errPPFileNotFound => 975
  | errArraySizeNonInt => 2616
  | errCallIncompleteArgument => 2881
  | errFuncDefIncompleteResult => 3309
  | errNoMember => 3681
  | errTypecheckConvertIncompatible => 4598
  | errTypecheckDeclIncompleteType => 4609
  | errTypecheckIllegalIncrementDecrement => 4617
  | errTypecheckInvalidOperands => 4628
  | errTypecheckMemberReferenceSuggestion => 4639
  | errTypecheckSubscriptNotInteger => 4657
  | errTypecheckSubscriptValue => 4658
  | errUndeclaredVarUse => 4694
  | errUndeclaredVarUseSuggest => 4695
  | errUnknownTypename => 4719
  | errUnknownTypenameSuggest => 4720
  | extImplicitFunctionDeclC99 => 4912

def values : List DiagnosticID :=
  [unknown, errPPFileNotFound, errArraySizeNonInt, errCallIncompleteArgument,
    errFuncDefIncompleteResult, errNoMember, errTypecheckConvertIncompatible,
    errTypecheckDeclIncompleteType, errTypecheckIllegalIncrementDecrement,
    errTypecheckInvalidOperands, errTypecheckMemberReferenceSuggestion,
    errTypecheckSubscriptNotInteger, errTypecheckSubscriptValue, errUndeclaredVarUse,
    errUndeclaredVarUseSuggest, errUnknownTypename, errUnknownTypenameSuggest,
    extImplicitFunctionDeclC99]

def fromIntID (id : Int) : DiagnosticID := (values.find? (·.id == id)).getD unknown

def isUnknown (id : DiagnosticID) : Bool := id == unknown

/-- An identifier that is known came from its own number, and only from it. -/
theorem fromIntID_iff {id : Int} {known : DiagnosticID} (listed : known ≠ unknown) :
    fromIntID id = known ↔ id = known.id := by
  constructor
  · intro found
    unfold fromIntID at found
    cases search : values.find? (·.id == id) with
    | none =>
      rw [search] at found
      exact absurd found.symm listed
    | some first =>
      rw [search] at found
      have number := List.find?_some search
      obtain rfl : first = known := found
      exact (beq_iff_eq.mp number).symm
  · rintro rfl
    cases known <;> decide

end DiagnosticID

def Diagnostic.diagnosticID (diag : Diagnostic) : DiagnosticID := .fromIntID diag.id

/-- An error at a line of `source.c`, with the code at it and the ranges it marks. -/
def Diagnostic.errorAt (line : Int) (code : String) (id : DiagnosticID) (message : String)
    (args : List DiagnosticArg) (ranges : List String) : Diagnostic :=
  ⟨id.id, none, .error, ⟨message, args⟩,
    ⟨.file, some ⟨line, 1, "source.c", "source.c", code⟩, none, none, line⟩, ranges.map (⟨·⟩)⟩

def undeclaredVariable (line : Int) (name : String) : Diagnostic :=
  .errorAt line name .errUndeclaredVarUse ("use of undeclared identifier '" ++ name ++ "'")
    [.declarationName name] []

def implicitFunction (line : Int) (name : String) : Diagnostic :=
  .errorAt line name .extImplicitFunctionDeclC99 ("call to undeclared function '" ++ name ++ "'")
    [.identifier name] []

def unknownType (line : Int) (name : String) : Diagnostic :=
  .errorAt line name .errUnknownTypename ("unknown type name '" ++ name ++ "'") [.identifier name] []

/-- A diagnostic without a handler. -/
def unhandled : Diagnostic :=
  ⟨1, some "err_unsupported", .error, ⟨"unsupported", []⟩,
    ⟨.file, some ⟨3, 1, "source.c", "source.c", ""⟩, none, none, 20⟩, []⟩

/-- What a result reports about a diagnostic. -/
structure DiagnosticShortInfo where
  id : Int
  labelId : Option String
  level : DiagnosticLevel
  line : Int
  column : Int
  message : String
deriving DecidableEq, Repr

def DiagnosticShortInfo.ofDiagnostic (diag : Diagnostic) : Except JavaException DiagnosticShortInfo := do
  let location ← nonNull diag.location.reportedLoc
  return ⟨diag.id, diag.labelId, diag.level, location.line, location.column, diag.message⟩

/-- The result for one file; the counts of the other levels are read by no one. -/
structure DiagExporterSourceResult where
  file : String
  size : Int
  errorCount : Int
  fatalCount : Int
  diags : List Diagnostic

namespace DiagExporterSourceResult

/-- A result with nothing but errors. -/
def ofErrors (diags : List Diagnostic) : DiagExporterSourceResult := ⟨"source.c", 100, diags.length, 0, diags⟩

def hasErrorsOrFatals (result : DiagExporterSourceResult) : Bool :=
  decide (result.errorCount > 0) || decide (result.fatalCount > 0)

def getFirstOrFatalIdx (result : DiagExporterSourceResult) : Option Nat :=
  result.diags.findIdx? Diagnostic.isErrorOrFatal

/-- The indices of the diagnostics whose identifier is wanted, in order. -/
def getDiagIdxs (result : DiagExporterSourceResult) (wanted : Diagnostic → Bool) : List Nat :=
  (List.range result.diags.length).filter fun i => (result.diags[i]?).any wanted

/-- The diagnostics are inspected in order up to the first error of the file, so
an error without location throws only when it is reached. -/
def firstErrorOrFatalIn (sourceFile : String) : List Diagnostic → Except JavaException (Option Diagnostic)
  | [] => .ok none
  | diag :: rest =>
    if diag.isErrorOrFatal then do
      let location ← nonNull diag.location.reportedLoc
      if location.file == sourceFile then return some diag else firstErrorOrFatalIn sourceFile rest
    else firstErrorOrFatalIn sourceFile rest

def getFirstErrorOrFatalInSource (result : DiagExporterSourceResult) (sourceFile : String) :
    Except JavaException (Option Diagnostic) := firstErrorOrFatalIn sourceFile result.diags

end DiagExporterSourceResult
end CMender
