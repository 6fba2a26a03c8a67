import CMender.Diag.Diagnostic
import CMender.Exporter.TypeCache

/-! The consumer that Clang hands its diagnostics to. Each one is counted and
appended as JSON; the counts reach the JSON when the source file ends. -/
namespace CMender.Exporter
open Foundations
open QualTypeJsonConverter (Transparent transparent_empty)

/-- What the compilation knows beside the diagnostics. Only Clang's own
diagnostics have a group; its number takes 15 bits. -/
structure Compilation extends Printing where
  openCL : Bool
  labelId : BitVec 32 → Option String
  category : BitVec 32 → String
  group : BitVec 32 → Option (BitVec 15)
  format : BitVec 32 → String

structure PresumedLoc where
  line : BitVec 32
  column : BitVec 32
  filename : String
deriving DecidableEq, Repr

/-- Where a diagnostic points, with the source text around it. A location in a
macro lists the spellings on the way out of it, innermost first. -/
inductive ClangLocation where
  | invalid
  | fileID (presumed : Option PresumedLoc) (sourceText : String) (offset : BitVec 32)
      (lineText : String)
  | macroID (expansion : Option PresumedLoc) (sourceText : String) (offset : BitVec 32)
      (spellings : List (Option PresumedLoc × String))
deriving DecidableEq, Repr

structure ClangRange where
  beginLoc : Option PresumedLoc
  endLoc : Option PresumedLoc
  sourceText : String
deriving DecidableEq, Repr

structure TokenKind where
  name : String
  punctuatorSpelling : Option String
  keywordSpelling : Option String
  isAnyIdentifier : Bool
  isLiteral : Bool
  isStringLiteral : Bool
  isAnnotation : Bool
  isPragmaAnnotation : Bool
deriving DecidableEq, Repr

/-- `isReserved` is one of six statuses, of which the first is "not reserved". -/
structure IdentifierInfo where
  name : String
  isReserved : Fin 6
  hadMacroDef : Bool
  hasMacroDef : Bool
  isFinalMacro : Bool
  isModulesImport : Bool
  isRestrictExpansion : Bool
  builtinID : BitVec 16
  tokenID : TokenKind
  interestingIdentifier : String
  isCppKeyword : Bool
  isCppOperatorKeyword : Bool
deriving DecidableEq, Repr

/-- The tag and the name are those of the declaration when it is a tag. -/
structure ClangDeclContext where
  declKindName : String
  tagKind : TagKind
  name : String
deriving DecidableEq, Repr

inductive ClangArg where
  | stdString (string : String)
  | cString (string : String)
  | sint (integer : BitVec 64)
  | uint (integer : BitVec 64)
  | tokenKind (token : TokenKind)
  | identifierInfo (identifier : IdentifierInfo)
  | addrSpace (spelling : String)
  | qual (qualifiers : ClangQualifiers)
  | qualType (type : Option WrittenType)
  | declarationName (name : String)
  | namedDecl (idName readableName qualName : String)
  | nestedNameSpec
  | declContext (declContext : Option ClangDeclContext)
  | qualTypePair
  | attr (spelling : String)

structure ClangDiagnostic where
  level : DiagnosticLevel
  id : BitVec 32
  message : String
  args : List ClangArg
  location : ClangLocation
  /-- Ranges without source text are missing. -/
  ranges : List (Option ClangRange)

def getLevelAsString : DiagnosticLevel → String
  | .ignored => "ignored"
  | .note => "note"
  | .remark => "remark"
  | .warning => "warning"
  | .error => "error"
  | .fatal => "fatal"

/-! ### Arguments -/

def getTokenCategory (token : TokenKind) : Option String :=
  if token.punctuatorSpelling.isSome then some "punctuator"
  else if token.keywordSpelling.isSome then some "keyword"
  else if token.isAnyIdentifier then some "identifier"
  else if token.isLiteral then some "literal"
  else if token.isStringLiteral then some "string_literal"
  else if token.isAnnotation then some "annotation"
  else if token.isPragmaAnnotation then some "pragma_annotation"
  else none

def getTokenKindSpelling (token : TokenKind) : Option String :=
  token.punctuatorSpelling <|> token.keywordSpelling <|>
    if token.isAnyIdentifier then some "identifier" else none

def tokenMembers (token : TokenKind) : List (String × Json) :=
  [("name", .string token.name), ("spelling", .ofText (getTokenKindSpelling token)),
    ("category", .ofText (getTokenCategory token))]

def TagKind.spelling : TagKind → String
  | .struct => "struct"
  | .union => "union"
  | .cxxClass => "class"
  | .interface => "interface"
  | .enum => "enum"

/-- The kind of a declaration context is written as Clang names it, in lower case. -/
def ClangDeclContext.declKind (declContext : ClangDeclContext) : String :=
  .ofList (declContext.declKindName.toList.map Char.toLower)

def getDeclContextInfo : Option ClangDeclContext → Json
  | none => .null
  | some declContext =>
    let kind := declContext.declKind
    .object (("kind", .string kind) ::
      if kind = "record" then
        [("tagKind", .string declContext.tagKind.spelling), ("name", .string declContext.name)]
      else if kind = "enum" then [("tagKind", .string "enum"), ("name", .string declContext.name)]
      else [])

section Arguments
variable (clang : Compilation)

/-- An address space without a name of its own depends on the language. -/
def addrSpaceAsString (spelling : String) : String :=
  if spelling.isEmpty then if clang.openCL then "default" else "generic" else spelling

/-- One case of the loop over the arguments in `getDescriptionInfo`. -/
def argInfo : ClangArg → StateM TypeCaches Json
  | .stdString string => return .object [("kind", .string "std_string"), ("string", .string string)]
  | .cString string => return .object [("kind", .string "c_string"), ("string", .string string)]
  | .sint integer => return .object [("kind", .string "sint"), ("integer", .number integer.toInt)]
  | .uint integer => return .object [("kind", .string "uint"), ("integer", .number integer.toNat)]
  | .tokenKind token => return .object (("kind", .string "token_kind") :: tokenMembers token)
  | .identifierInfo identifier => return .object [
      ("kind", .string "identifier"),
      ("name", .string identifier.name),
      ("isReserved", .number identifier.isReserved.val),
      ("hadMacroDef", .bool identifier.hadMacroDef),
      ("hasMacroDef", .bool identifier.hasMacroDef),
      ("isFinalMacro", .bool identifier.isFinalMacro),
      ("isModulesImport", .bool identifier.isModulesImport),
      ("isRestrictExpansion", .bool identifier.isRestrictExpansion),
      ("builtinID", .number identifier.builtinID.toNat),
      ("tokenID", .object (tokenMembers identifier.tokenID)),
      ("interestingIdentifier", .string identifier.interestingIdentifier),
      ("isCppKeyword", .bool identifier.isCppKeyword),
      ("isCppOperatorKeyword", .bool identifier.isCppOperatorKeyword)]
  | .addrSpace spelling => return .object [("kind", .string "addr_space"),
      ("langAddressSpace", .string (addrSpaceAsString clang spelling))]
  | .qual qualifiers => return .object [("kind", .string "qual"),
      ("qual", convertQualifiersToJson clang.toPrinting qualifiers)]
  | .qualType type => return .object [("kind", .string "qualtype"),
      ("qualType", ← convertQualTypeToJson clang.toPrinting type)]
  | .declarationName name => return .object [("kind", .string "declaration_name"), ("name", .string name)]
  | .namedDecl idName readableName qualName => return .object [("kind", .string "named_decl"),
      ("idName", .string idName), ("readableName", .string readableName), ("qualName", .string qualName)]
  | .nestedNameSpec => return .object [("kind", .string "nested_name_spec")]
  | .declContext declContext => return .object [("kind", .string "decl_context"),
      ("declContext", getDeclContextInfo declContext)]
  | .qualTypePair => return .object [("kind", .string "qualtype_pair")]
  | .attr spelling => return .object [("kind", .string "attr"), ("spelling", .string spelling)]

def descriptionObject (diag : ClangDiagnostic) (args : List Json) : Json :=
  .object [("message", .string diag.message), ("format", .string (clang.format diag.id)),
    ("args", .array args)]

def getDescriptionInfo (diag : ClangDiagnostic) : StateM TypeCaches Json :=
  return descriptionObject clang diag (← diag.args.mapM (argInfo clang))

end Arguments

/-! ### Locations -/

def presumedLocMembers (location : PresumedLoc) : List (String × Json) :=
  [("line", .number location.line.toNat), ("column", .number location.column.toNat),
    ("file", .string location.filename),
    ("path", .string (location.filename ++ ":" ++ toString location.line.toNat ++ ":" ++
      toString location.column.toNat))]

def getPresumedLocInfo : Option PresumedLoc → Json
  | none => .null
  | some location => .object (presumedLocMembers location)

/-- A presumed location with the code that the diagnostic is about added to it. -/
def encompassed (location : Option PresumedLoc) (sourceText : String) : Json :=
  match location with
  | none => .null
  | some location =>
    .object (presumedLocMembers location ++ [("encompassingCode", .string sourceText)])

/-- The offset of a location that could not be resolved stays at -1. -/
def fileOffset (location : Option PresumedLoc) (offset : BitVec 32) : Int :=
  if location.isSome then offset.toNat else -1

def locationObject (type : String) (presumedLoc expansionLoc spellingLocs : Json) (fileOffset : Int) :
    Json :=
  .object [("type", .string type), ("presumedLoc", presumedLoc), ("expansionLoc", expansionLoc),
    ("spellingLocs", spellingLocs), ("fileOffset", .number fileOffset)]

-- each spelling is inserted before those already there
def spellingLocs (spellings : List (Option PresumedLoc × String)) : List Json :=
  spellings.foldl (fun locations spelling => encompassed spelling.1 spelling.2 :: locations) []

def getLocationInfo : ClangLocation → Json
  | .invalid => locationObject "none" .null .null .null (-1)
  | .fileID presumed sourceText offset _ =>
    locationObject "file" (encompassed presumed sourceText) .null .null (fileOffset presumed offset)
  | .macroID expansion sourceText offset spellings =>
    locationObject "macro" .null (encompassed expansion sourceText)
      (.array (spellingLocs spellings)) (fileOffset expansion offset)

def rangeInfo (range : ClangRange) : Json :=
  .object [("begin", getPresumedLocInfo range.beginLoc), ("end", getPresumedLocInfo range.endLoc),
    ("encompassingCode", .string range.sourceText)]

def availableRanges (ranges : List (Option ClangRange)) : List ClangRange := ranges.filterMap id

def getSourceRanges (ranges : List (Option ClangRange)) : Json :=
  .array ((availableRanges ranges).map rangeInfo)

def getCodeSnippet : ClangLocation → Option String
  | .invalid | .macroID .. => none
  | .fileID _ _ _ lineText => some lineText

/-! ### The consumer -/

/-- Unsigned counters, which wrap. -/
structure DiagnosticCounts where
  totalDiagsCount : BitVec 32
  ignoredCount : BitVec 32
  noteCount : BitVec 32
  remarkCount : BitVec 32
  warningCount : BitVec 32
  errorCount : BitVec 32
  fatalCount : BitVec 32
deriving DecidableEq, Repr

namespace DiagnosticCounts

def zero : DiagnosticCounts := ⟨0, 0, 0, 0, 0, 0, 0⟩

def updateDiagnosticCounts (counts : DiagnosticCounts) (level : DiagnosticLevel) : DiagnosticCounts :=
  let counts := { counts with totalDiagsCount := counts.totalDiagsCount + 1 }
  match level with
  | .ignored => { counts with ignoredCount := counts.ignoredCount + 1 }
  | .note => { counts with noteCount := counts.noteCount + 1 }
  | .remark => { counts with remarkCount := counts.remarkCount + 1 }
  | .warning => { counts with warningCount := counts.warningCount + 1 }
  | .error => { counts with errorCount := counts.errorCount + 1 }
  | .fatal => { counts with fatalCount := counts.fatalCount + 1 }

def members (counts : DiagnosticCounts) : List (String × Json) :=
  [("totalDiagsCount", .number counts.totalDiagsCount.toNat),
    ("ignoredCount", .number counts.ignoredCount.toNat), ("noteCount", .number counts.noteCount.toNat),
    ("remarkCount", .number counts.remarkCount.toNat), ("warningCount", .number counts.warningCount.toNat),
    ("errorCount", .number counts.errorCount.toNat), ("fatalCount", .number counts.fatalCount.toNat)]

end DiagnosticCounts

/-- The JSON entry of a source file, before it is written out. -/
structure DiagsInfo where
  file : Option String
  size : BitVec 32
  actionTimeNs : BitVec 32
  counts : DiagnosticCounts
  diags : List Json

def DiagsInfo.toJson (info : DiagsInfo) : Json :=
  .object ([("file", .ofText info.file), ("size", .number info.size.toNat),
    ("actionTimeNs", .number info.actionTimeNs.toNat)] ++ info.counts.members ++
    [("diags", .array info.diags)])

/-- The main file of a compilation: its name and its length, where they are known. -/
structure MainFile where
  name : Option String
  size : Option (BitVec 32)

structure JsonDiagnosticConsumer where
  caches : TypeCaches
  diagsInfo : DiagsInfo
  counts : DiagnosticCounts

namespace JsonDiagnosticConsumer

/-- An unknown size is written as the unsigned value of -1. -/
def new (main : MainFile) : JsonDiagnosticConsumer where
  caches := .empty
  diagsInfo := ⟨main.name, main.size.getD (-1), 0, .zero, []⟩
  counts := .zero

variable (clang : Compilation)

def diagnosticObject (diag : ClangDiagnostic) (group : BitVec 15) (description : Json) : Json :=
  .object [("id", .number diag.id.toNat), ("labelId", .ofText (clang.labelId diag.id)),
    ("level", .string (getLevelAsString diag.level)), ("category", .string (clang.category diag.id)),
    ("group", .number group.toNat), ("description", description),
    ("location", getLocationInfo diag.location), ("sourceRanges", getSourceRanges diag.ranges),
    ("codeSnippet", .ofText (getCodeSnippet diag.location))]

/-- A diagnostic without a group ends the process. -/
def handleDiagnostic (consumer : JsonDiagnosticConsumer) (diag : ClangDiagnostic) :
    Option JsonDiagnosticConsumer := do
  let group ← clang.group diag.id
  let (description, caches) := getDescriptionInfo clang diag consumer.caches
  let diags := consumer.diagsInfo.diags ++ [diagnosticObject clang diag group description]
  return { caches, diagsInfo := { consumer.diagsInfo with diags },
           counts := consumer.counts.updateDiagnosticCounts diag.level }

def endSourceFile (consumer : JsonDiagnosticConsumer) : JsonDiagnosticConsumer :=
  { consumer with diagsInfo := { consumer.diagsInfo with counts := consumer.counts } }

def setActionTimeNanos (consumer : JsonDiagnosticConsumer) (actionTimeNs : BitVec 32) :
    JsonDiagnosticConsumer :=
  { consumer with diagsInfo := { consumer.diagsInfo with actionTimeNs } }

/-- The consumer after a source file with the given diagnostics has ended. -/
def consume (main : MainFile) (diags : List ClangDiagnostic) : Option JsonDiagnosticConsumer := do
  return (← diags.foldlM (handleDiagnostic clang) (new main)).endSourceFile

end JsonDiagnosticConsumer

/-! ### What a source file leaves behind -/

section Entries
variable (clang : Compilation)

/-- The JSON of an argument, which does not depend on the types seen before it. -/
def argJson (arg : ClangArg) : Json := (argInfo clang arg .empty).1

theorem argJson_qualType (type : Option WrittenType) : argJson clang (.qualType type) =
    .object [("kind", .string "qualtype"), ("qualType", qualTypeJson clang.toPrinting type)] := by
  obtain ⟨after, ran, -⟩ := convertQualTypeToJson_yields type .empty transparent_empty
  change Json.object [_, ("qualType", (convertQualTypeToJson clang.toPrinting type .empty).1)] = _
  rw [ran]

theorem argInfo_yields (arg : ClangArg) :
    Yields clang.toPrinting (argInfo clang arg) (argJson clang arg) := by
  cases arg with
  | qualType type =>
    rw [argJson_qualType]
    exact (convertQualTypeToJson_yields type).bind (.pure _)
  | _ => exact .pure _

theorem argInfos_yield (args : List ClangArg) :
    Yields clang.toPrinting (args.mapM (argInfo clang)) (args.map (argJson clang)) :=
  Memo.Returns.mapM fun arg _ => argInfo_yields clang arg

def descriptionJson (diag : ClangDiagnostic) : Json :=
  descriptionObject clang diag (diag.args.map (argJson clang))

theorem getDescriptionInfo_yields (diag : ClangDiagnostic) :
    Yields clang.toPrinting (getDescriptionInfo clang diag) (descriptionJson clang diag) :=
  (argInfos_yield clang diag.args).bind (.pure _)

/-- The JSON of a diagnostic that has a group. -/
def diagnosticJson (diag : ClangDiagnostic) : Json :=
  JsonDiagnosticConsumer.diagnosticObject clang diag ((clang.group diag.id).getD 0)
    (descriptionJson clang diag)

/-- The counters after some diagnostics, from the values they had before. -/
def DiagnosticCounts.after (counts : DiagnosticCounts) (diags : List ClangDiagnostic) : DiagnosticCounts :=
  diags.foldl (fun counts diag => counts.updateDiagnosticCounts diag.level) counts

def Grouped (diags : List ClangDiagnostic) : Prop := ∀ diag ∈ diags, (clang.group diag.id).isSome

namespace JsonDiagnosticConsumer
variable {clang} {consumer next final : JsonDiagnosticConsumer} {diag : ClangDiagnostic}
  {diags : List ClangDiagnostic} {main : MainFile}

/-- What a consumer becomes when it has taken some diagnostics and stored some types. -/
def taking (clang : Compilation) (consumer : JsonDiagnosticConsumer) (diags : List ClangDiagnostic)
    (caches : TypeCaches) : JsonDiagnosticConsumer where
  caches := caches
  diagsInfo :=
    { consumer.diagsInfo with diags := consumer.diagsInfo.diags ++ diags.map (diagnosticJson clang) }
  counts := consumer.counts.after diags

theorem handleDiagnostic_grouped (transparent : Transparent (treeContext clang.toPrinting) consumer.caches)
    (grouped : (clang.group diag.id).isSome) : ∃ caches, Transparent (treeContext clang.toPrinting) caches ∧
      consumer.handleDiagnostic clang diag = some (consumer.taking clang [diag] caches) := by
  obtain ⟨group, found⟩ := Option.isSome_iff_exists.mp grouped
  obtain ⟨caches, ran, transparentAfter⟩ := getDescriptionInfo_yields clang diag _ transparent
  refine ⟨caches, transparentAfter, ?_⟩
  simp only [handleDiagnostic, found, ran, taking, diagnosticJson, Option.bind_eq_bind,
    Option.bind_some, Option.pure_def, Option.getD_some, List.map_cons, List.map_nil,
    DiagnosticCounts.after, List.foldl_cons, List.foldl_nil]

theorem handleDiagnostic_ungrouped (ungrouped : ¬ (clang.group diag.id).isSome) :
    consumer.handleDiagnostic clang diag = none := by
  rw [Option.not_isSome_iff_eq_none] at ungrouped
  simp [handleDiagnostic, ungrouped]

theorem taking_taking (first : ClangDiagnostic) (middle last : TypeCaches) :
    (consumer.taking clang [first] middle).taking clang diags last =
      consumer.taking clang (first :: diags) last := by
  simp [taking, DiagnosticCounts.after]

/-- The diagnostics of a file are all taken when each has a group. -/
theorem handleDiagnostics_grouped (transparent : Transparent (treeContext clang.toPrinting) consumer.caches)
    (grouped : Grouped clang diags) : ∃ caches,
      diags.foldlM (handleDiagnostic clang) consumer = some (consumer.taking clang diags caches) := by
  induction diags generalizing consumer with
  | nil => exact ⟨consumer.caches, by simp [taking, DiagnosticCounts.after]⟩
  | cons diag rest ih =>
    obtain ⟨middle, tracksMiddle, handled⟩ :=
      handleDiagnostic_grouped transparent (grouped diag List.mem_cons_self)
    have transparentTaken : Transparent (treeContext clang.toPrinting) (consumer.taking clang [diag] middle).caches :=
      tracksMiddle
    obtain ⟨last, ran⟩ := ih transparentTaken
      fun other inside => grouped other (List.mem_cons_of_mem _ inside)
    refine ⟨last, ?_⟩
    rw [List.foldlM_cons, handled, ← taking_taking diag middle last]
    exact ran

theorem handleDiagnostics_ungrouped (ungrouped : ¬ Grouped clang diags) :
    diags.foldlM (handleDiagnostic clang) consumer = none := by
  induction diags generalizing consumer with
  | nil => exact absurd (fun _ inside => nomatch inside) ungrouped
  | cons diag rest ih =>
    rw [List.foldlM_cons]
    cases handled : consumer.handleDiagnostic clang diag with
    | none => rfl
    | some next =>
      apply ih
      intro grouped
      apply ungrouped
      rintro other (_ | ⟨_, inside⟩)
      · by_contra missing
        rw [handleDiagnostic_ungrouped missing] at handled
        cases handled
      · exact grouped other inside

/-- The entry of a source file: its diagnostics in order, and the counts that
handling them reached. -/
def entry (clang : Compilation) (main : MainFile) (actionTimeNs : BitVec 32)
    (diags : List ClangDiagnostic) : DiagsInfo :=
  ⟨main.name, main.size.getD (-1), actionTimeNs, DiagnosticCounts.zero.after diags,
    diags.map (diagnosticJson clang)⟩

/-- `getDiagsInfo` after the source file has ended and its time has been set. -/
def exported (clang : Compilation) (main : MainFile) (actionTimeNs : BitVec 32)
    (diags : List ClangDiagnostic) : Option DiagsInfo := do
  return ((← consume clang main diags).setActionTimeNanos actionTimeNs).diagsInfo

/-- A source file is exported exactly when each of its diagnostics has a group. -/
theorem exported_iff {actionTimeNs : BitVec 32} {info : DiagsInfo} :
    exported clang main actionTimeNs diags = some info ↔
      Grouped clang diags ∧ entry clang main actionTimeNs diags = info := by
  by_cases grouped : Grouped clang diags
  · have transparent : Transparent (treeContext clang.toPrinting) (new main).caches := transparent_empty
    obtain ⟨caches, handled⟩ := handleDiagnostics_grouped transparent grouped
    simp only [exported, consume, handled, grouped, true_and]
    simp [entry, taking, endSourceFile, setActionTimeNanos, new]
  · simp [exported, consume, handleDiagnostics_ungrouped grouped, grouped]

end JsonDiagnosticConsumer
end Entries
end CMender.Exporter
