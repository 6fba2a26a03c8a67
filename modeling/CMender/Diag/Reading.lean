import CMender.Diag.Diagnostic
import CMender.Lang.Reading

/-! The exporter's results as the mender reads them, with all their components.
An unknown kind of argument, declaration context, level or location and a number
that does not fit its int or long reject the whole document. -/
namespace CMender

def DiagnosticLevel.ofString : String → Option DiagnosticLevel
  | "ignored" => some .ignored
  | "note" => some .note
  | "remark" => some .remark
  | "warning" => some .warning
  | "error" => some .error
  | "fatal" => some .fatal
  | _ => none

def DiagnosticLocationType.ofString : String → Option DiagnosticLocationType
  | "none" => some .none
  | "file" => some .file
  | "macro" => some .macroLoc
  | _ => none

namespace Exported
open Foundations

/-- Components of primitive type. -/
def readInt (json : Json) : Option Int := Json.orDefault 0 (Json.integer 32) json

def readLong (json : Json) : Option Int := Json.orDefault 0 (Json.integer 64) json

def readBoolean (json : Json) : Option Bool := Json.orDefault false Json.flag json

structure SourceLocation where
  line : Int
  column : Int
  file : String
  path : String
  encompassingCode : Option String
deriving DecidableEq, Repr

def SourceLocation.read (json : Json) : Option SourceLocation := do
  let members ← json.members
  return ⟨← readInt (Json.get members "line"), ← readInt (Json.get members "column"),
    ← Json.text (Json.get members "file"), ← Json.text (Json.get members "path"),
    ← Json.nullable Json.text (Json.get members "encompassingCode")⟩

structure DiagnosticLocation where
  type : DiagnosticLocationType
  presumedLoc : Option SourceLocation
  expansionLoc : Option SourceLocation
  spellingLocs : Option (List (Option SourceLocation))
  fileOffset : Int
deriving DecidableEq, Repr

def DiagnosticLocation.readSpellingLocs (json : Json) : Option (List (Option SourceLocation)) := do
  (← json.items).mapM (Json.nullable SourceLocation.read)

def DiagnosticLocation.read (json : Json) : Option DiagnosticLocation := do
  let members ← json.members
  return ⟨← Json.named DiagnosticLocationType.ofString (Json.get members "type"),
    ← Json.nullable SourceLocation.read (Json.get members "presumedLoc"),
    ← Json.nullable SourceLocation.read (Json.get members "expansionLoc"),
    ← Json.nullable readSpellingLocs (Json.get members "spellingLocs"),
    ← readLong (Json.get members "fileOffset")⟩

structure DiagnosticSourceRange where
  beginLoc : Option SourceLocation
  endLoc : Option SourceLocation
  encompassingCode : String
deriving DecidableEq, Repr

def DiagnosticSourceRange.read (json : Json) : Option DiagnosticSourceRange := do
  let members ← json.members
  return ⟨← Json.nullable SourceLocation.read (Json.get members "begin"),
    ← Json.nullable SourceLocation.read (Json.get members "end"),
    ← Json.text (Json.get members "encompassingCode")⟩

structure TokenID where
  name : String
  spelling : Option String
  category : Option String
deriving DecidableEq, Repr

def TokenID.readMembers (members : List (String × Json)) : Option TokenID := do
  return ⟨← Json.text (Json.get members "name"), ← Json.nullable Json.text (Json.get members "spelling"),
    ← Json.nullable Json.text (Json.get members "category")⟩

structure IdentifierArg where
  name : String
  isReserved : Bool
  hadMacroDef : Bool
  hasMacroDef : Bool
  isFinalMacro : Bool
  isModulesImport : Bool
  isRestrictExpansion : Bool
  builtinID : Int
  tokenID : TokenID
  interestingIdentifier : String
  isCppKeyword : Bool
  isCppOperatorKeyword : Bool
deriving DecidableEq, Repr

def IdentifierArg.readMembers (members : List (String × Json)) : Option IdentifierArg := do
  let flag (key : String) := readBoolean (Json.get members key)
  return ⟨← Json.text (Json.get members "name"), ← flag "isReserved", ← flag "hadMacroDef",
    ← flag "hasMacroDef", ← flag "isFinalMacro", ← flag "isModulesImport",
    ← flag "isRestrictExpansion", ← readInt (Json.get members "builtinID"),
    ← TokenID.readMembers (← (Json.get members "tokenID").members),
    ← Json.text (Json.get members "interestingIdentifier"), ← flag "isCppKeyword",
    ← flag "isCppOperatorKeyword"⟩

/-- A record is the only kind of declaration context that has a class. -/
def readDeclContext (json : Json) : Option RecordDecl := do
  let members ← json.members
  match Json.get members "kind" with
  | .string "record" =>
    return ⟨← Json.named RecordKind.toRecordKind (Json.get members "tagKind"),
      ← Json.text (Json.get members "name")⟩
  | _ => none

/-- `addrSpace` is read from a member of that name. -/
inductive DiagnosticArg where
  | stdString (string : String)
  | cString (string : String)
  | sint (integer : Int)
  | uint (integer : Int)
  | tokenKind (token : TokenID)
  | identifier (identifier : IdentifierArg)
  | addrSpace (addrSpace : Option String)
  | qual (qual : Qualifiers)
  | qualType (qualType : Option QualType)
  | declarationName (name : String)
  | namedDecl (idName readableName qualName : String)
  | nestedNameSpec
  | declContext (declContext : Option RecordDecl)
  | qualTypePair
  | attr (spelling : String)

def DiagnosticArg.read (json : Json) : Option DiagnosticArg := do
  let members ← json.members
  let text (key : String) := Json.text (Json.get members key)
  match Json.get members "kind" with
  | .string "std_string" => return .stdString (← text "string")
  | .string "c_string" => return .cString (← text "string")
  | .string "sint" => return .sint (← readInt (Json.get members "integer"))
  | .string "uint" => return .uint (← readInt (Json.get members "integer"))
  | .string "token_kind" => return .tokenKind (← TokenID.readMembers members)
  | .string "identifier" => return .identifier (← IdentifierArg.readMembers members)
  | .string "addr_space" => return .addrSpace (← Json.nullable Json.text (Json.get members "addrSpace"))
  | .string "qual" => return .qual (← Qualifiers.read (Json.get members "qual"))
  | .string "qualtype" => return .qualType (← QualType.read (Json.get members "qualType"))
  | .string "declaration_name" => return .declarationName (← text "name")
  | .string "named_decl" =>
    return .namedDecl (← text "idName") (← text "readableName") (← text "qualName")
  | .string "nested_name_spec" => return .nestedNameSpec
  | .string "decl_context" =>
    return .declContext (← Json.nullable readDeclContext (Json.get members "declContext"))
  | .string "qualtype_pair" => return .qualTypePair
  | .string "attr" => return .attr (← text "spelling")
  | _ => none

structure DiagnosticDescription where
  message : String
  format : String
  args : List DiagnosticArg

def DiagnosticDescription.read (json : Json) : Option DiagnosticDescription := do
  let members ← json.members
  return ⟨← Json.text (Json.get members "message"), ← Json.text (Json.get members "format"),
    ← (← (Json.get members "args").items).mapM DiagnosticArg.read⟩

structure Diagnostic where
  id : Int
  labelId : Option String
  level : DiagnosticLevel
  category : String
  group : Int
  description : DiagnosticDescription
  location : DiagnosticLocation
  sourceRanges : List DiagnosticSourceRange
  codeSnippet : Option String

def Diagnostic.read (json : Json) : Option Diagnostic := do
  let members ← json.members
  return ⟨← readInt (Json.get members "id"), ← Json.nullable Json.text (Json.get members "labelId"),
    ← Json.named DiagnosticLevel.ofString (Json.get members "level"),
    ← Json.text (Json.get members "category"), ← readInt (Json.get members "group"),
    ← DiagnosticDescription.read (Json.get members "description"),
    ← DiagnosticLocation.read (Json.get members "location"),
    ← (← (Json.get members "sourceRanges").items).mapM DiagnosticSourceRange.read,
    ← Json.nullable Json.text (Json.get members "codeSnippet")⟩

structure SourceResult where
  file : Option String
  size : Int
  totalDiagsCount : Int
  ignoredCount : Int
  noteCount : Int
  remarkCount : Int
  warningCount : Int
  errorCount : Int
  fatalCount : Int
  diags : List Diagnostic

def SourceResult.read (json : Json) : Option SourceResult := do
  let members ← json.members
  let count (key : String) := readInt (Json.get members key)
  return ⟨← Json.nullable Json.text (Json.get members "file"), ← readLong (Json.get members "size"),
    ← count "totalDiagsCount", ← count "ignoredCount", ← count "noteCount", ← count "remarkCount",
    ← count "warningCount", ← count "errorCount", ← count "fatalCount",
    ← (← (Json.get members "diags").items).mapM Diagnostic.read⟩

/-- One result for each source file of the invocation. -/
def readResults (json : Json) : Option (List SourceResult) := do
  (← json.items).mapM SourceResult.read

/-! ### What the mender looks at -/

def SourceLocation.view (location : SourceLocation) : CMender.SourceLocation :=
  ⟨location.line, location.column, location.file, location.path, location.encompassingCode.getD ""⟩

def DiagnosticLocation.view (location : DiagnosticLocation) : CMender.DiagnosticLocation :=
  ⟨location.type, location.presumedLoc.map SourceLocation.view,
    location.expansionLoc.map SourceLocation.view,
    location.spellingLocs.map fun locations => locations.map fun location =>
      location.map SourceLocation.view,
    location.fileOffset⟩

/-- A type argument without a type throws where its type is used, like a type
that has no structure. -/
def missingType : QualType := ⟨"", "", "", .unqualified, none, none⟩

def DiagnosticArg.view : DiagnosticArg → CMender.DiagnosticArg
  | .stdString string => .stdString string
  | .cString _ => .cString
  | .sint integer => .sint integer
  | .uint integer => .uint integer
  | .tokenKind _ => .tokenKind
  | .identifier info => .identifier info.name
  | .addrSpace _ => .addrSpace
  | .qual _ => .qual
  | .qualType type => .qualType (type.getD missingType)
  | .declarationName name => .declarationName name
  | .namedDecl _ _ _ => .namedDecl
  | .nestedNameSpec => .nestedNameSpec
  | .declContext context => .declContext context
  | .qualTypePair => .qualTypePair
  | .attr _ => .attr

def Diagnostic.view (diag : Diagnostic) : CMender.Diagnostic :=
  ⟨diag.id, diag.labelId, diag.level,
    ⟨diag.description.message, diag.description.args.map DiagnosticArg.view⟩, diag.location.view,
    diag.sourceRanges.map fun range => ⟨range.encompassingCode⟩⟩

def SourceResult.view (result : SourceResult) : DiagExporterSourceResult :=
  ⟨result.file.getD "", result.size, result.errorCount, result.fatalCount,
    result.diags.map Diagnostic.view⟩

end Exported
end CMender
