import CMender.Analysis.Selecting
import CMender.Exporter.RoundTrip

/-! Termination is decided from the counts of the exporter and selection works on
its list of diagnostics. The two agree for as long as the counters do not wrap,
so a run that goes on always finds something to mend. -/
namespace CMender
open Foundations Exporter

/-- The level of a diagnostic as it stands in its JSON. -/
def exportedLevel (json : Json) : Option DiagnosticLevel := do
  Json.named DiagnosticLevel.ofString (Json.get (← json.members) "level")

section Counts
variable {clang : Compilation} {main : MainFile} {actionTimeNs : BitVec 32} {diags : List ClangDiagnostic}

@[simp] theorem exportedLevel_diagnosticJson (diag : ClangDiagnostic) :
    exportedLevel (diagnosticJson clang diag) = some diag.level := by
  simp [exportedLevel, diagnosticJson, JsonDiagnosticConsumer.diagnosticObject, level_ofString]

theorem countP_exportedLevel (level : DiagnosticLevel) :
    (diags.map (diagnosticJson clang)).countP (exportedLevel · == some level) = levelCount diags level := by
  simp [List.countP_map, levelCount, Function.comp_def]

theorem total_eq (few : diags.length < 2 ^ 32) :
    (DiagnosticCounts.zero.after diags).totalDiagsCount.toNat = diags.length := by
  rw [DiagnosticCounts.zero_after_total, Nat.mod_eq_of_lt few]

theorem ofLevel_eq (few : diags.length < 2 ^ 32) (level : DiagnosticLevel) :
    ((DiagnosticCounts.zero.after diags).ofLevel level).toNat = levelCount diags level := by
  rw [DiagnosticCounts.zero_after_ofLevel]
  exact Nat.mod_eq_of_lt (Nat.lt_of_le_of_lt (levelCount_le diags level) few)

theorem hasErrorsOrFatals_iff (few : diags.length < 2 ^ 32) :
    (receivedResult clang main diags).view.hasErrorsOrFatals = true ↔
      ∃ diag ∈ diags, diag.level = .error ∨ diag.level = .fatal := by
  have errors : (receivedResult clang main diags).view.errorCount = levelCount diags .error :=
    congrArg Int.ofNat (ofLevel_eq few .error)
  have fatals : (receivedResult clang main diags).view.fatalCount = levelCount diags .fatal :=
    congrArg Int.ofNat (ofLevel_eq few .fatal)
  simp only [DiagExporterSourceResult.hasErrorsOrFatals, errors, fatals, Bool.or_eq_true,
    decide_eq_true_eq, gt_iff_lt, Int.natCast_pos, levelCount, List.countP_pos_iff, beq_iff_eq]
  constructor
  · rintro (⟨diag, inside, level⟩ | ⟨diag, inside, level⟩)
    · exact ⟨diag, inside, .inl level⟩
    · exact ⟨diag, inside, .inr level⟩
  · rintro ⟨diag, inside, level | level⟩
    · exact .inl ⟨diag, inside, level⟩
    · exact .inr ⟨diag, inside, level⟩

theorem getFirstOrFatalIdx_isSome_iff :
    (receivedResult clang main diags).view.getFirstOrFatalIdx.isSome ↔
      ∃ diag ∈ diags, diag.level = .error ∨ diag.level = .fatal := by
  simp [DiagExporterSourceResult.getFirstOrFatalIdx, receivedResult, Exported.SourceResult.view,
    Diagnostic.isErrorOrFatal, Exported.Diagnostic.view, ClangDiagnostic.withArgs]

end Counts

/-- The entry of a file with fewer diagnostics than its counters can count has
the right counts. The mender therefore finds errors in the counts exactly when it
finds one in the list, and each analysis selects something whenever the check
does not report success. -/
theorem exported_counts_agree (clang : Compilation) (main : MainFile) (actionTimeNs : BitVec 32)
    (diags : List ClangDiagnostic) (few : diags.length < 2 ^ 32) (info : DiagsInfo)
    (isExported : JsonDiagnosticConsumer.exported clang main actionTimeNs diags = some info) :
    info.counts.totalDiagsCount.toNat = info.diags.length ∧
    (∀ level, (info.counts.ofLevel level).toNat =
      info.diags.countP (exportedLevel · == some level)) ∧
    ∀ result, Exported.readResults (.array [info.toJson]) = some [result] →
      (result.view.hasErrorsOrFatals = true ↔ result.view.getFirstOrFatalIdx.isSome) ∧
      ((∀ diag ∈ result.view.diags, diag.CarriesIdentifier) →
        ∀ sourceFile s, ¬ ReportsSuccess result.view sourceFile s → ∀ analysis : DiagnosticAnalysis,
          ∃ idxs, analysis.selectDiagnostics result.view = .ok idxs ∧ Selection result.view idxs) := by
  obtain ⟨-, rfl⟩ := JsonDiagnosticConsumer.exported_iff.mp isExported
  refine ⟨?_, ?_, ?_⟩
  · rw [JsonDiagnosticConsumer.entry, List.length_map]
    exact total_eq few
  · intro level
    rw [JsonDiagnosticConsumer.entry, countP_exportedLevel]
    exact ofLevel_eq few level
  · intro result read
    rw [readResults_singleton, read_entry] at read
    obtain ⟨-, rfl⟩ := read
    have agree : (receivedResult clang main diags).view.hasErrorsOrFatals = true ↔
        (receivedResult clang main diags).view.getFirstOrFatalIdx.isSome :=
      (hasErrorsOrFatals_iff few).trans getFirstOrFatalIdx_isSome_iff.symm
    refine ⟨agree, ?_⟩
    intro carries sourceFile s notSuccess analysis
    apply selectDiagnostics_returns _ carries
    apply agree.mp
    by_contra noErrors
    exact notSuccess (reportsSuccess_iff.mpr (by simpa using noErrors))

section Example

/-- `T x;`, where nothing is called `T`. -/
def unknownTypename : ClangDiagnostic :=
  ⟨.error, 4719, "unknown type name 'T'",
    [.identifierInfo ⟨"T", ⟨0, by decide⟩, false, false, false, false, false, 0,
      ⟨"identifier", none, none, true, false, false, false, false⟩, "not_interesting", false, false⟩],
    .fileID (some ⟨1, 1, "source.c"⟩) "T" 0 "T x;", []⟩

def secondLine : String := "int main() { 1; x = y; }"

def unusedResult : ClangDiagnostic :=
  ⟨.warning, 6696, "expression result unused", [], .fileID (some ⟨2, 14, "source.c"⟩) "1" 18 secondLine,
    [some ⟨some ⟨2, 14, "source.c"⟩, some ⟨2, 14, "source.c"⟩, "1"⟩]⟩

def undeclaredUse : ClangDiagnostic :=
  ⟨.error, 4694, "use of undeclared identifier 'y'", [.declarationName "y"],
    .fileID (some ⟨2, 21, "source.c"⟩) "y" 25 secondLine, []⟩

/-- `T x;` and then `secondLine`. -/
def twoErrorsOneWarning : List ClangDiagnostic := [unknownTypename, unusedResult, undeclaredUse]

theorem twoErrorsOneWarning_readable : ∀ diag ∈ twoErrorsOneWarning, diag.Readable := by
  have fits {line column : BitVec 32} {filename : String} (small : line.toNat < 2 ^ 31 ∧ column.toNat < 2 ^ 31) :
      PresumedLoc.Fits ⟨line, column, filename⟩ := small
  simp [twoErrorsOneWarning, unknownTypename, unusedResult, undeclaredUse, ClangDiagnostic.readable_iff,
    ClangArg.Readable, ClangLocation.Fits, availableRanges, ClangRange.Fits, fits]

theorem twoErrorsOneWarning_countsFit : CountsFit twoErrorsOneWarning :=
  ⟨by decide, by intro level; cases level <;> decide⟩

theorem twoErrorsOneWarning_carry (clang : Compilation) (main : MainFile) :
    ∀ diag ∈ (receivedResult clang main twoErrorsOneWarning).view.diags, diag.CarriesIdentifier := by
  intro diag listed
  simp only [receivedResult, Exported.SourceResult.view, twoErrorsOneWarning, List.map_cons, List.map_nil,
    List.mem_cons, List.not_mem_nil, or_false] at listed
  rcases listed with rfl | rfl | rfl
  · refine ⟨?_, ?_, fun _ => ⟨"T", rfl⟩, ?_⟩ <;> rintro ⟨⟩
  · refine ⟨?_, ?_, ?_, ?_⟩ <;> rintro ⟨⟩
  · refine ⟨fun _ => ⟨"y", rfl⟩, ?_, ?_, ?_⟩ <;> rintro ⟨⟩

theorem exported_counts_agree_three : ∃ info result,
    JsonDiagnosticConsumer.exported blankClang ⟨some "source.c", some 30⟩ 0 twoErrorsOneWarning = some info ∧
    Exported.readResults (.array [info.toJson]) = some [result] ∧
    info.counts.totalDiagsCount.toNat = 3 ∧ info.diags.length = 3 ∧
    (∀ level, (info.counts.ofLevel level).toNat = info.diags.countP (exportedLevel · == some level)) ∧
    (info.counts.ofLevel .error).toNat = 2 ∧
    ∀ s : MendingState, ¬ ReportsSuccess result.view "source.c" s ∧
      ∀ analysis : DiagnosticAnalysis, ∃ idxs,
        analysis.selectDiagnostics result.view = .ok idxs ∧ Selection result.view idxs := by
  have isExported : JsonDiagnosticConsumer.exported blankClang ⟨some "source.c", some 30⟩ 0
      twoErrorsOneWarning = some (JsonDiagnosticConsumer.entry blankClang _ 0 twoErrorsOneWarning) :=
    JsonDiagnosticConsumer.exported_iff.mpr ⟨fun _ _ => rfl, rfl⟩
  have read : Exported.readResults (.array [(JsonDiagnosticConsumer.entry blankClang
      ⟨some "source.c", some 30⟩ 0 twoErrorsOneWarning).toJson]) =
      some [receivedResult blankClang ⟨some "source.c", some 30⟩ twoErrorsOneWarning] := by
    rw [readResults_singleton, read_entry]
    exact ⟨⟨twoErrorsOneWarning_countsFit, twoErrorsOneWarning_readable⟩, rfl⟩
  obtain ⟨total, levels, mended⟩ := exported_counts_agree blankClang ⟨some "source.c", some 30⟩ 0
    twoErrorsOneWarning (by decide) _ isExported
  refine ⟨_, _, isExported, read, total, rfl, levels, by decide, ?_⟩
  intro s
  have notSuccess : ¬ ReportsSuccess
      (receivedResult blankClang ⟨some "source.c", some 30⟩ twoErrorsOneWarning).view "source.c" s := by
    rw [reportsSuccess_iff]
    decide
  exact ⟨notSuccess, (mended _ read).2 (twoErrorsOneWarning_carry _ _) "source.c" s notSuccess⟩

end Example
end CMender
