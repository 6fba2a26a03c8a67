import CMender.Diag.Reading
import CMender.Exporter.Counts
import CMender.Exporter.TypeRoundTrip

/-! Which diagnostics the mender can read back from the exporter's JSON. One
that it rejects takes the whole document with it: a declaration context that is
not a record, a builtin type it has no kind for, or a number that does not fit.
An address space is written and read under different names, and is lost. -/
namespace CMender.Exporter
open Foundations

/-! ### Numbers -/

theorem readInt_natCast {n : Nat} {value : Int} :
    Exported.readInt (.number n) = some value ↔ n < 2 ^ 31 ∧ (n : Int) = value := by
  rw [Exported.readInt, Json.orDefault_number, Json.integer_natCast]

theorem readInt_number {n value : Int} :
    Exported.readInt (.number n) = some value ↔ (-2 ^ 31 ≤ n ∧ n < 2 ^ 31) ∧ n = value := by
  rw [Exported.readInt, Json.orDefault_number, Json.integer_number]

theorem readLong_natCast {n : Nat} {value : Int} :
    Exported.readLong (.number n) = some value ↔ n < 2 ^ 63 ∧ (n : Int) = value := by
  rw [Exported.readLong, Json.orDefault_number, Json.integer_natCast]

/-- A narrow unsigned number always fits. -/
theorem readInt_toNat {width : Nat} (narrow : width ≤ 31) (number : BitVec width) :
    Exported.readInt (.number number.toNat) = some (number.toNat : Int) := by
  have bound : 2 ^ width ≤ 2 ^ 31 := Nat.pow_le_pow_right (by decide) narrow
  exact readInt_natCast.mpr ⟨Nat.lt_of_lt_of_le number.isLt bound, rfl⟩

/-! ### Locations -/

namespace PresumedLoc

/-- The line and the column fit an int. -/
def Fits (location : PresumedLoc) : Prop := location.line.toNat < 2 ^ 31 ∧ location.column.toNat < 2 ^ 31

def value (encompassingCode : Option String) (location : PresumedLoc) : Exported.SourceLocation :=
  ⟨location.line.toNat, location.column.toNat, location.filename,
    location.filename ++ ":" ++ toString location.line.toNat ++ ":" ++ toString location.column.toNat,
    encompassingCode⟩

theorem read_presumedLocMembers (location : PresumedLoc) (code : Option String)
    (rest : List (String × Json)) (codeRead : Json.nullable Json.text (Json.get rest "encompassingCode") =
      some code) (result : Exported.SourceLocation) :
    Exported.SourceLocation.read (.object (presumedLocMembers location ++ rest)) = some result ↔
      location.Fits ∧ location.value code = result := by
  simp [-Option.bind_some, Exported.SourceLocation.read, presumedLocMembers, codeRead,
    Option.bind_eq_some_iff, readInt_natCast, Fits, value, and_assoc]

end PresumedLoc

theorem read_getPresumedLocInfo (location : Option PresumedLoc)
    (result : Option Exported.SourceLocation) :
    Json.nullable Exported.SourceLocation.read (getPresumedLocInfo location) = some result ↔
      (∀ loc ∈ location, loc.Fits) ∧ location.map (PresumedLoc.value none) = result := by
  cases location with
  | none => simp [getPresumedLocInfo]
  | some location =>
    have read := location.read_presumedLocMembers none [] rfl
    rw [List.append_nil] at read
    simp [getPresumedLocInfo, read, and_assoc]

theorem read_encompassed (location : Option PresumedLoc) (code : String)
    (result : Option Exported.SourceLocation) :
    Json.nullable Exported.SourceLocation.read (encompassed location code) = some result ↔
      (∀ loc ∈ location, loc.Fits) ∧ location.map (PresumedLoc.value (some code)) = result := by
  cases location with
  | none => simp [encompassed]
  | some location =>
    have read := location.read_presumedLocMembers (some code) [("encompassingCode", .string code)] rfl
    simp [encompassed, read, and_assoc]

theorem readLong_fileOffset (location : Option PresumedLoc) (offset : BitVec 32) (result : Int) :
    Exported.readLong (.number (fileOffset location offset)) = some result ↔
      fileOffset location offset = result := by
  have bound := offset.isLt
  rw [Exported.readLong, Json.orDefault_number, Json.integer_number]
  unfold fileOffset
  split
  · simp
    omega
  · simp

theorem spellingLocs_eq (spellings : List (Option PresumedLoc × String)) :
    spellingLocs spellings = spellings.reverse.map fun spelling => encompassed spelling.1 spelling.2 := by
  rw [List.map_reverse]
  induction spellings using List.reverseRecOn with
  | nil => rfl
  | append_singleton rest last ih =>
    rw [List.map_append, List.reverse_append, ← ih]
    simp [spellingLocs, List.foldl_append]

namespace ClangLocation

def Fits : ClangLocation → Prop
  | .invalid => True
  | .fileID presumed _ _ _ => ∀ loc ∈ presumed, loc.Fits
  | .macroID expansion _ _ spellings =>
    (∀ loc ∈ expansion, loc.Fits) ∧ ∀ spelling ∈ spellings, ∀ loc ∈ spelling.1, loc.Fits

def value : ClangLocation → Exported.DiagnosticLocation
  | .invalid => ⟨.none, none, none, none, -1⟩
  | .fileID presumed sourceText offset _ =>
    ⟨.file, presumed.map (PresumedLoc.value (some sourceText)), none, none, fileOffset presumed offset⟩
  | .macroID expansion sourceText offset spellings =>
    ⟨.macroLoc, none, expansion.map (PresumedLoc.value (some sourceText)),
      some (spellings.reverse.map fun spelling => spelling.1.map (PresumedLoc.value (some spelling.2))),
      fileOffset expansion offset⟩

end ClangLocation

theorem read_spellingLocs (spellings : List (Option PresumedLoc × String))
    (result : List (Option Exported.SourceLocation)) :
    Exported.DiagnosticLocation.readSpellingLocs (.array (spellingLocs spellings)) = some result ↔
      (∀ spelling ∈ spellings, ∀ loc ∈ spelling.1, loc.Fits) ∧
        (spellings.reverse.map fun spelling => spelling.1.map (PresumedLoc.value (some spelling.2))) =
          result := by
  have read := Json.mapM_map_iff spellings.reverse
    (fun spelling _ => read_encompassed spelling.1 spelling.2) result
  simp only [List.mem_reverse] at read
  simp only [Exported.DiagnosticLocation.readSpellingLocs, Json.items_array, spellingLocs_eq]
  exact read

theorem read_getLocationInfo (location : ClangLocation) (result : Exported.DiagnosticLocation) :
    Exported.DiagnosticLocation.read (getLocationInfo location) = some result ↔
      location.Fits ∧ location.value = result := by
  cases location with
  | invalid =>
    have offset : Exported.readLong (.number (-1)) = some (-1) := rfl
    simp [Exported.DiagnosticLocation.read, getLocationInfo, locationObject,
      DiagnosticLocationType.ofString, ClangLocation.Fits, ClangLocation.value, offset]
  | fileID presumed sourceText offset lineText =>
    simp [-Option.bind_some, Exported.DiagnosticLocation.read, getLocationInfo, locationObject,
      DiagnosticLocationType.ofString, Option.bind_eq_some_iff, read_encompassed,
      readLong_fileOffset, ClangLocation.Fits, ClangLocation.value, and_assoc]
  | macroID expansion sourceText offset spellings =>
    simp [-Option.bind_some, Exported.DiagnosticLocation.read, getLocationInfo, locationObject,
      DiagnosticLocationType.ofString, Option.bind_eq_some_iff, read_encompassed, read_spellingLocs,
      readLong_fileOffset, ClangLocation.Fits, ClangLocation.value, and_assoc]

/-! ### Source ranges -/

namespace ClangRange

def Fits (range : ClangRange) : Prop :=
  (∀ loc ∈ range.beginLoc, loc.Fits) ∧ ∀ loc ∈ range.endLoc, loc.Fits

def value (range : ClangRange) : Exported.DiagnosticSourceRange :=
  ⟨range.beginLoc.map (PresumedLoc.value none), range.endLoc.map (PresumedLoc.value none),
    range.sourceText⟩

end ClangRange

theorem read_rangeInfo (range : ClangRange) (result : Exported.DiagnosticSourceRange) :
    Exported.DiagnosticSourceRange.read (rangeInfo range) = some result ↔
      range.Fits ∧ range.value = result := by
  simp [-Option.bind_some, Exported.DiagnosticSourceRange.read, rangeInfo, Option.bind_eq_some_iff,
    read_getPresumedLocInfo, ClangRange.Fits, ClangRange.value, and_assoc]

/-! ### Arguments -/

def TokenKind.value (token : TokenKind) : Exported.TokenID :=
  ⟨token.name, getTokenKindSpelling token, getTokenCategory token⟩

/-- Any status but the first is a reserved identifier. -/
def IdentifierInfo.value (identifier : IdentifierInfo) : Exported.IdentifierArg :=
  ⟨identifier.name, identifier.isReserved != 0, identifier.hadMacroDef, identifier.hasMacroDef,
    identifier.isFinalMacro, identifier.isModulesImport, identifier.isRestrictExpansion,
    identifier.builtinID.toNat, identifier.tokenID.value, identifier.interestingIdentifier,
    identifier.isCppKeyword, identifier.isCppOperatorKeyword⟩

def ClangDeclContext.value (declContext : ClangDeclContext) : RecordDecl :=
  ⟨(RecordKind.toRecordKind declContext.tagKind.spelling).getD .struct, declContext.name⟩

namespace ClangArg
variable (clang : Compilation)

/-- The argument that was written, as the mender has it. A type is the tree that
its JSON describes. -/
def value : ClangArg → Exported.DiagnosticArg
  | .stdString string => .stdString string
  | .cString string => .cString string
  | .sint integer => .sint integer.toInt
  | .uint integer => .uint integer.toNat
  | .tokenKind token => .tokenKind token.value
  | .identifierInfo identifier => .identifier identifier.value
  | .addrSpace spelling => .addrSpace (some (addrSpaceAsString clang spelling))
  | .qual qualifiers => .qual (qualifiers.transcript clang.toPrinting)
  | .qualType type => .qualType (type.map (·.transcript clang.toPrinting))
  | .declarationName name => .declarationName name
  | .namedDecl idName readableName qualName => .namedDecl idName readableName qualName
  | .nestedNameSpec => .nestedNameSpec
  | .declContext context? => .declContext (context?.map ClangDeclContext.value)
  | .qualTypePair => .qualTypePair
  | .attr spelling => .attr spelling

/-- The argument that is read, when it is: an address space is not. -/
def received : ClangArg → Exported.DiagnosticArg
  | .addrSpace _ => .addrSpace none
  | arg => arg.value clang

/-- The mender accepts the argument. -/
def Readable : ClangArg → Prop
  | .sint integer => -2 ^ 31 ≤ integer.toInt ∧ integer.toInt < 2 ^ 31
  | .uint integer => integer.toNat < 2 ^ 31
  | .qualType type => ∀ written ∈ type, written.canonicalType.type.Readable
  | .declContext context? => ∀ context ∈ context?,
      context.declKind = "record" ∧ (RecordKind.toRecordKind context.tagKind.spelling).isSome
  | _ => True

def IsAddrSpace : ClangArg → Prop
  | .addrSpace _ => True
  | _ => False

theorem received_eq_value_iff (arg : ClangArg) :
    arg.received clang = arg.value clang ↔ ¬ arg.IsAddrSpace := by
  cases arg <;> simp [received, value, IsAddrSpace]

end ClangArg

theorem read_tokenMembers (token : TokenKind) (members : List (String × Json))
    (name : Json.get members "name" = .string token.name)
    (spelling : Json.get members "spelling" = .ofText (getTokenKindSpelling token))
    (category : Json.get members "category" = .ofText (getTokenCategory token)) :
    Exported.TokenID.readMembers members = some token.value := by
  simp [Exported.TokenID.readMembers, name, spelling, category, TokenKind.value]

theorem read_identifierInfo (identifier : IdentifierInfo) (members : List (String × Json))
    (isMembers : ∃ clang, argJson clang (.identifierInfo identifier) = .object members) :
    Exported.IdentifierArg.readMembers members = some identifier.value := by
  obtain ⟨clang, isMembers⟩ := isMembers
  obtain rfl := Json.object.inj isMembers
  have token := read_tokenMembers identifier.tokenID (tokenMembers identifier.tokenID) rfl rfl rfl
  have reserved : ((identifier.isReserved.val : Int) != 0) = (identifier.isReserved != 0) := by
    generalize identifier.isReserved = status
    revert status
    decide
  have builtinID := readInt_toNat (by decide) identifier.builtinID
  simp [Exported.IdentifierArg.readMembers, Exported.readBoolean, builtinID, token, reserved,
    IdentifierInfo.value]

/-- A declaration context of another kind has no class to be read into. -/
theorem readDeclContext_other {context : ClangDeclContext} (other : context.declKind ≠ "record") :
    Json.nullable Exported.readDeclContext (getDeclContextInfo (some context)) = none := by
  simp only [getDeclContextInfo, Json.nullable_object, Exported.readDeclContext, Json.members_object,
    Json.get_cons, Option.bind_eq_bind, Option.bind_some, if_true]
  split
  · rename_i isKind
    exact absurd (Json.string.inj isKind) other
  · rfl

theorem read_getDeclContextInfo (context? : Option ClangDeclContext) (result : Option RecordDecl) :
    Json.nullable Exported.readDeclContext (getDeclContextInfo context?) = some result ↔
      (∀ context ∈ context?,
        context.declKind = "record" ∧ (RecordKind.toRecordKind context.tagKind.spelling).isSome) ∧
      context?.map ClangDeclContext.value = result := by
  cases context? with
  | none => simp [getDeclContextInfo]
  | some context =>
    by_cases isRecord : context.declKind = "record"
    · cases known : RecordKind.toRecordKind context.tagKind.spelling with
      | none => simp [getDeclContextInfo, Exported.readDeclContext, isRecord, known]
      | some recordKind =>
        simp [getDeclContextInfo, Exported.readDeclContext, isRecord, known, ClangDeclContext.value]
    · simp [readDeclContext_other isRecord, isRecord]

theorem read_argJson (clang : Compilation) (arg : ClangArg) (result : Exported.DiagnosticArg) :
    Exported.DiagnosticArg.read (argJson clang arg) = some result ↔
      arg.Readable ∧ arg.received clang = result := by
  -- an argument that stores no type is written without looking at the caches
  have written (json : Json) (caches : TypeCaches) : ((pure json : StateM TypeCaches Json) caches).1 = json := rfl
  cases arg with
  | sint integer =>
    simp [-Option.bind_some, argJson, argInfo, written, Exported.DiagnosticArg.read, ClangArg.Readable,
      ClangArg.received, ClangArg.value, Option.bind_eq_some_iff, readInt_number, and_assoc]
  | uint integer =>
    simp [-Option.bind_some, argJson, argInfo, written, Exported.DiagnosticArg.read, ClangArg.Readable,
      ClangArg.received, ClangArg.value, Option.bind_eq_some_iff, readInt_natCast, and_assoc]
  | tokenKind token =>
    have read := read_tokenMembers token (("kind", .string "token_kind") :: tokenMembers token) rfl rfl rfl
    simp [argJson, argInfo, written, Exported.DiagnosticArg.read, ClangArg.Readable, ClangArg.received,
      ClangArg.value, read]
  | identifierInfo identifier =>
    have read := read_identifierInfo identifier _ ⟨clang, rfl⟩
    simp [-Option.bind_some, argJson, argInfo, written, Exported.DiagnosticArg.read, ClangArg.Readable,
      ClangArg.received, ClangArg.value, Option.bind_eq_some_iff, read]
  | qualType type =>
    simp [argJson_qualType, Exported.DiagnosticArg.read, ClangArg.Readable, ClangArg.received,
      ClangArg.value, Option.bind_eq_some_iff, read_qualTypeJson, and_assoc]
  | declContext context? =>
    simp [argJson, argInfo, written, Exported.DiagnosticArg.read, ClangArg.Readable, ClangArg.received,
      ClangArg.value, Option.bind_eq_some_iff, read_getDeclContextInfo, and_assoc]
  | _ =>
    -- nothing in the other kinds can be rejected
    exact Json.accepted_iff rfl

/-! ### Diagnostics -/

namespace ClangDiagnostic
variable (clang : Compilation)

/-- A diagnostic of the mender, with the arguments that the given reading has. -/
def withArgs (reading : ClangArg → Exported.DiagnosticArg) (diag : ClangDiagnostic) :
    Exported.Diagnostic where
  id := diag.id.toNat
  labelId := clang.labelId diag.id
  level := diag.level
  category := clang.category diag.id
  group := ((clang.group diag.id).getD 0).toNat
  description := ⟨diag.message, clang.format diag.id, diag.args.map reading⟩
  location := diag.location.value
  sourceRanges := (availableRanges diag.ranges).map ClangRange.value
  codeSnippet := getCodeSnippet diag.location

/-- The mender accepts the diagnostic: its numbers fit, and so do its arguments. -/
@[mk_iff] structure Readable (diag : ClangDiagnostic) : Prop where
  id : diag.id.toNat < 2 ^ 31
  args : ∀ arg ∈ diag.args, arg.Readable
  location : diag.location.Fits
  ranges : ∀ range ∈ availableRanges diag.ranges, range.Fits

theorem withArgs_inj_iff {first second : ClangArg → Exported.DiagnosticArg} (diag : ClangDiagnostic) :
    diag.withArgs clang first = diag.withArgs clang second ↔
      ∀ arg ∈ diag.args, first arg = second arg := by
  simp [withArgs]

end ClangDiagnostic

theorem level_ofString (level : DiagnosticLevel) :
    DiagnosticLevel.ofString (getLevelAsString level) = some level := by
  cases level <;> rfl

theorem read_descriptionJson (clang : Compilation) (diag : ClangDiagnostic)
    (result : Exported.DiagnosticDescription) :
    Exported.DiagnosticDescription.read (descriptionJson clang diag) = some result ↔
      (∀ arg ∈ diag.args, arg.Readable) ∧
        ⟨diag.message, clang.format diag.id, diag.args.map (·.received clang)⟩ = result := by
  have args := Json.mapM_map_iff diag.args fun arg _ => read_argJson clang arg
  simp [-List.mapM_map, Exported.DiagnosticDescription.read, descriptionJson, descriptionObject,
    Option.bind_eq_some_iff, args, and_assoc]

theorem read_diagnosticObject (id labelId level category group description location ranges snippet : Json) :
    Exported.Diagnostic.read (.object [("id", id), ("labelId", labelId), ("level", level),
      ("category", category), ("group", group), ("description", description), ("location", location),
      ("sourceRanges", ranges), ("codeSnippet", snippet)]) = do
    return ⟨← Exported.readInt id, ← Json.nullable Json.text labelId,
      ← Json.named DiagnosticLevel.ofString level, ← Json.text category, ← Exported.readInt group,
      ← Exported.DiagnosticDescription.read description, ← Exported.DiagnosticLocation.read location,
      ← (← ranges.items).mapM Exported.DiagnosticSourceRange.read,
      ← Json.nullable Json.text snippet⟩ := rfl

theorem read_diagnosticJson (clang : Compilation) (diag : ClangDiagnostic)
    (result : Exported.Diagnostic) :
    Exported.Diagnostic.read (diagnosticJson clang diag) = some result ↔
      diag.Readable ∧ diag.withArgs clang (·.received clang) = result := by
  have ranges := Json.mapM_map_iff (availableRanges diag.ranges) fun range _ => read_rangeInfo range
  have narrow : 15 ≤ 31 := by decide
  rw [diagnosticJson, JsonDiagnosticConsumer.diagnosticObject, read_diagnosticObject,
    Json.bind_iff fun _ => readInt_natCast, Json.nullable_ofText, Json.some_bind, Json.named_string,
    level_ofString, Json.some_bind, Json.text_string, Json.some_bind, readInt_toNat narrow, Json.some_bind,
    Json.bind_iff (read_descriptionJson clang diag), Json.bind_iff (read_getLocationInfo diag.location),
    getSourceRanges, Json.items_array, Json.some_bind, Json.bind_iff ranges, Json.nullable_ofText,
    Json.some_bind, ClangDiagnostic.readable_iff]
  simp only [Option.pure_def, Option.some.injEq, and_assoc]
  rfl

/-! ### The document -/

/-- Every counter fits an int, after it has wrapped. -/
structure CountsFit (diags : List ClangDiagnostic) : Prop where
  total : diags.length % 2 ^ 32 < 2 ^ 31
  levels : ∀ level, levelCount diags level % 2 ^ 32 < 2 ^ 31

theorem countsFit_iff (diags : List ClangDiagnostic) : CountsFit diags ↔
    (DiagnosticCounts.zero.after diags).totalDiagsCount.toNat < 2 ^ 31 ∧
    (DiagnosticCounts.zero.after diags).ignoredCount.toNat < 2 ^ 31 ∧
    (DiagnosticCounts.zero.after diags).noteCount.toNat < 2 ^ 31 ∧
    (DiagnosticCounts.zero.after diags).remarkCount.toNat < 2 ^ 31 ∧
    (DiagnosticCounts.zero.after diags).warningCount.toNat < 2 ^ 31 ∧
    (DiagnosticCounts.zero.after diags).errorCount.toNat < 2 ^ 31 ∧
    (DiagnosticCounts.zero.after diags).fatalCount.toNat < 2 ^ 31 := by
  have level (level : DiagnosticLevel) := DiagnosticCounts.zero_after_ofLevel diags level
  constructor
  · intro fits
    refine ⟨?_, ?_, ?_, ?_, ?_, ?_, ?_⟩
    · rw [DiagnosticCounts.zero_after_total]
      exact fits.total
    · exact (level .ignored).trans_lt (fits.levels .ignored)
    · exact (level .note).trans_lt (fits.levels .note)
    · exact (level .remark).trans_lt (fits.levels .remark)
    · exact (level .warning).trans_lt (fits.levels .warning)
    · exact (level .error).trans_lt (fits.levels .error)
    · exact (level .fatal).trans_lt (fits.levels .fatal)
  · rintro ⟨total, ignored, note, remark, warning, error, fatal⟩
    refine ⟨?_, ?_⟩
    · rw [← DiagnosticCounts.zero_after_total]
      exact total
    · intro counted
      rw [← level counted]
      cases counted
      · exact ignored
      · exact note
      · exact remark
      · exact warning
      · exact error
      · exact fatal

/-- The result that the mender reads from the entry of a source file. -/
def receivedResult (clang : Compilation) (main : MainFile) (diags : List ClangDiagnostic) :
    Exported.SourceResult :=
  let counts := DiagnosticCounts.zero.after diags
  ⟨main.name, (main.size.getD (-1)).toNat, counts.totalDiagsCount.toNat, counts.ignoredCount.toNat,
    counts.noteCount.toNat, counts.remarkCount.toNat, counts.warningCount.toNat,
    counts.errorCount.toNat, counts.fatalCount.toNat,
    diags.map (·.withArgs clang (·.received clang))⟩

theorem readLong_size (size : BitVec 32) :
    Exported.readLong (.number size.toNat) = some (size.toNat : Int) := by
  have bound := size.isLt
  exact readLong_natCast.mpr ⟨by omega, rfl⟩

theorem read_entryObject
    (file size time total ignored note remark warning error fatal diags : Json) :
    Exported.SourceResult.read (.object [("file", file), ("size", size), ("actionTimeNs", time),
      ("totalDiagsCount", total), ("ignoredCount", ignored), ("noteCount", note),
      ("remarkCount", remark), ("warningCount", warning), ("errorCount", error),
      ("fatalCount", fatal), ("diags", diags)]) = do
    return ⟨← Json.nullable Json.text file, ← Exported.readLong size, ← Exported.readInt total,
      ← Exported.readInt ignored, ← Exported.readInt note, ← Exported.readInt remark,
      ← Exported.readInt warning, ← Exported.readInt error, ← Exported.readInt fatal,
      ← (← diags.items).mapM Exported.Diagnostic.read⟩ := rfl

theorem read_entry (clang : Compilation) (main : MainFile) (actionTimeNs : BitVec 32)
    (diags : List ClangDiagnostic) (result : Exported.SourceResult) :
    Exported.SourceResult.read (JsonDiagnosticConsumer.entry clang main actionTimeNs diags).toJson =
      some result ↔
    (CountsFit diags ∧ ∀ diag ∈ diags, diag.Readable) ∧ receivedResult clang main diags = result := by
  have readDiags := Json.mapM_map_iff diags fun diag _ => read_diagnosticJson clang diag
  have readCount {α : Type} {next : Int → Option α} {n : Nat} {a : α} :
      (Exported.readInt (.number n) >>= next) = some a ↔ n < 2 ^ 31 ∧ next n = some a :=
    Json.bind_iff fun _ => readInt_natCast
  simp only [DiagsInfo.toJson, JsonDiagnosticConsumer.entry, DiagnosticCounts.members,
    List.cons_append, List.nil_append, read_entryObject]
  rw [Json.nullable_ofText, Json.some_bind, readLong_size, Json.some_bind, readCount, readCount,
    readCount, readCount, readCount, readCount, readCount, Json.items_array, Json.some_bind,
    Json.bind_iff readDiags, countsFit_iff]
  simp only [Option.pure_def, Option.some.injEq, and_assoc]
  rfl

theorem readResults_single (json : Json) :
    Exported.readResults (.array [json]) = (Exported.SourceResult.read json).map ([·]) := by
  cases read : Exported.SourceResult.read json with
  | none => simp [Exported.readResults, read]
  | some result => simp [Exported.readResults, read]

theorem readResults_singleton (json : Json) (result : Exported.SourceResult) :
    Exported.readResults (.array [json]) = some [result] ↔
      Exported.SourceResult.read json = some result := by
  rw [readResults_single]
  simp

/-- The exporter writes the diagnostics of a source file, and the mender reads
the same diagnostics with the same arguments, in the same order. -/
def ReadBack (clang : Compilation) (main : MainFile) (actionTimeNs : BitVec 32)
    (diags : List ClangDiagnostic) : Prop :=
  ∃ info result, JsonDiagnosticConsumer.exported clang main actionTimeNs diags = some info ∧
    Exported.readResults (.array [info.toJson]) = some [result] ∧
    result.diags = diags.map (·.withArgs clang (·.value clang))

/-- The diagnostic has a group, the mender accepts it, and it names no address space. -/
structure Transferable (clang : Compilation) (diag : ClangDiagnostic) : Prop where
  grouped : (clang.group diag.id).isSome
  readable : diag.Readable
  named : ∀ arg ∈ diag.args, ¬ arg.IsAddrSpace

theorem receivedResult_diags_iff (clang : Compilation) (main : MainFile) (diags : List ClangDiagnostic) :
    (receivedResult clang main diags).diags = diags.map (·.withArgs clang (·.value clang)) ↔
      ∀ diag ∈ diags, ∀ arg ∈ diag.args, ¬ arg.IsAddrSpace := by
  simp only [receivedResult, List.map_inj_left, ClangDiagnostic.withArgs_inj_iff,
    ClangArg.received_eq_value_iff]

/-- The diagnostics of a source file are read back exactly when each of them is
transferable and the counters fit. -/
theorem diagnostics_read_back_iff (clang : Compilation) (main : MainFile) (actionTimeNs : BitVec 32)
    (diags : List ClangDiagnostic) : ReadBack clang main actionTimeNs diags ↔
      CountsFit diags ∧ ∀ diag ∈ diags, Transferable clang diag := by
  constructor
  · rintro ⟨info, result, isExported, read, same⟩
    obtain ⟨grouped, rfl⟩ := JsonDiagnosticConsumer.exported_iff.mp isExported
    rw [readResults_singleton, read_entry] at read
    obtain ⟨⟨fits, readable⟩, rfl⟩ := read
    have named := (receivedResult_diags_iff clang main diags).mp same
    exact ⟨fits, fun diag inside => ⟨grouped diag inside, readable diag inside, named diag inside⟩⟩
  · rintro ⟨fits, transferable⟩
    refine ⟨_, receivedResult clang main diags, JsonDiagnosticConsumer.exported_iff.mpr
      ⟨fun diag inside => (transferable diag inside).grouped, rfl⟩, ?_, ?_⟩
    · rw [readResults_singleton, read_entry]
      exact ⟨⟨fits, fun diag inside => (transferable diag inside).readable⟩, rfl⟩
    · apply (receivedResult_diags_iff clang main diags).mpr
      exact fun diag inside => (transferable diag inside).named

/-- One diagnostic that the mender does not accept rejects its whole document. -/
theorem readResults_eq_none {clang : Compilation} {main : MainFile} {actionTimeNs : BitVec 32}
    {diags : List ClangDiagnostic} {diag : ClangDiagnostic} (inside : diag ∈ diags)
    (unreadable : ¬ diag.Readable) :
    Exported.readResults (.array [(JsonDiagnosticConsumer.entry clang main actionTimeNs diags).toJson]) =
      none := by
  have rejected : Exported.SourceResult.read
      (JsonDiagnosticConsumer.entry clang main actionTimeNs diags).toJson = none := by
    rw [Option.eq_none_iff_forall_ne_some]
    intro result read
    exact unreadable (((read_entry clang main actionTimeNs diags result).mp read).1.2 diag inside)
  rw [readResults_single, rejected]
  rfl

/-- A compilation for closed examples: the diagnostics have a group and no texts. -/
def blankClang : Compilation :=
  ⟨blankPrinting, false, fun _ => none, fun _ => "", fun _ => some 0, fun _ => ""⟩

/-- `int f(__int128 v) { return v.x; }`: the base of the member access is no struct. -/
def int128Member : ClangDiagnostic :=
  ⟨.error, 4641, "member reference base type '__int128' is not a structure or union",
    [.qualType (some ⟨"__int128", ⟨.none, .builtin "Int128"⟩⟩)], .invalid, []⟩

/-- The context that a name was not found in is an enum. -/
def enumContext : ClangDiagnostic :=
  ⟨.error, 3681, "no member named 'x' in 'e'",
    [.stdString "x", .declContext (some ⟨"Enum", .enum, "e"⟩)], .invalid, []⟩

/-- The exporter writes both diagnostics and the mender reads neither document. -/
theorem exported_diagnostics_rejected :
    (∃ info, JsonDiagnosticConsumer.exported blankClang ⟨some "source.c", none⟩ 0 [int128Member] =
      some info ∧ Exported.readResults (.array [info.toJson]) = none) ∧
    (∃ info, JsonDiagnosticConsumer.exported blankClang ⟨some "source.c", none⟩ 0 [enumContext] =
      some info ∧ Exported.readResults (.array [info.toJson]) = none) := by
  have grouped (diags : List ClangDiagnostic) : Grouped blankClang diags := fun _ _ => rfl
  constructor
  · refine ⟨_, JsonDiagnosticConsumer.exported_iff.mpr ⟨grouped _, rfl⟩, ?_⟩
    apply readResults_eq_none List.mem_cons_self
    intro readable
    have builtin : (BuiltinKind.toBuiltinKind "Int128").isSome := readable.args _ List.mem_cons_self _ rfl
    exact absurd builtin (by decide)
  · refine ⟨_, JsonDiagnosticConsumer.exported_iff.mpr ⟨grouped _, rfl⟩, ?_⟩
    apply readResults_eq_none List.mem_cons_self
    intro readable
    have context := readable.args _ (List.mem_cons_of_mem _ List.mem_cons_self) _ rfl
    exact absurd context.1 (by decide)

end CMender.Exporter
