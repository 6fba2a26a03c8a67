import CMender.Analysis.SimilarNames

/-! The two passes that are what they look like. The removal of exact repetitions is one
pass over the messages, and the removal in the tag space one over the tags, on any list
of places: both compare by something that a diagnostic has, so the first one that has it
is never removed by a later one. -/
namespace CMender
open Foundations Foundations.Removal Foundations.Execution

section Keys
variable (sourceResult : DiagExporterSourceResult)

def messageAt (idx : Nat) : Option String := (sourceResult.diags[idx]?).map (·.message)

/-- What a diagnostic of the two ids about incomplete tags is compared by. -/
def tagIdentifier (diag : Diagnostic) : Option String :=
  if isIncompleteTag diag then (getIdentifier diag).toOption else none

def tagAt (idx : Nat) : Option String := (sourceResult.diags[idx]?).bind tagIdentifier

variable {sourceResult} {identifier : String}

theorem repeats_sameKey (a b : Nat) :
    takesOutAt sourceResult repeats a b = sameKey (messageAt sourceResult) a b := by
  rw [Bool.eq_iff_iff, takesOutAt_iff]
  cases present : sourceResult.diags[a]? with
  | none => simp [sameKey, messageAt, present]
  | some diag =>
    cases otherPresent : sourceResult.diags[b]? with
    | none => simp [sameKey, messageAt, present, otherPresent]
    | some other => simp [sameKey, messageAt, present, otherPresent, repeats_iff]

theorem tagIdentifier_iff {diag : Diagnostic} : tagIdentifier diag = some identifier ↔
    isIncompleteTag diag = true ∧ getIdentifier diag = .ok identifier := by
  unfold tagIdentifier
  cases isIncompleteTag diag with
  | false => simp
  | true =>
    cases getIdentifier diag with
    | error error => simp [Except.toOption]
    | ok name => simp [Except.toOption]

theorem tagAt_iff {idx : Nat} : tagAt sourceResult idx = some identifier ↔
    ∃ diag, sourceResult.diags[idx]? = some diag ∧ isIncompleteTag diag = true ∧
      getIdentifier diag = .ok identifier := by
  rw [tagAt, Option.bind_eq_some_iff]
  simp only [tagIdentifier_iff]

theorem tagTakesOut_sameKey (a b : Nat) :
    takesOutAt sourceResult tagTakesOut a b = sameKey (tagAt sourceResult) a b := by
  rw [Bool.eq_iff_iff, takesOutAt_iff, sameKey_iff]
  simp only [tagAt_iff, tagTakesOut_iff, holds_sameIdentifier]
  constructor
  · rintro ⟨diag, other, present, otherPresent, tag, otherTag, name, own, theirs⟩
    exact ⟨name, ⟨diag, present, tag, own⟩, other, otherPresent, otherTag, theirs⟩
  · rintro ⟨name, ⟨diag, present, tag, own⟩, other, otherPresent, otherTag, theirs⟩
    exact ⟨diag, other, present, otherPresent, tag, otherTag, name, own, theirs⟩

end Keys

section Messages
variable {sourceResult : DiagExporterSourceResult} {idxs : List Nat}

theorem removeExactlyRepeatedDiagnostics_eq (valid : Valid sourceResult idxs) :
    removeExactlyRepeatedDiagnostics sourceResult idxs = .ok (firstOfEach (messageAt sourceResult) [] idxs) := by
  obtain ⟨result, returned, _⟩ := removeExactlyRepeatedDiagnostics_returns valid
  rw [returned, removeExactlyRepeatedDiagnostics_ok returned, keepFirst_eq_firstOfEach repeats_sameKey]

/-- The first error or fatal error of a result. -/
def FirstError (sourceResult : DiagExporterSourceResult) (first : Nat) : Prop :=
  (∃ diag, sourceResult.diags[first]? = some diag ∧ diag.isErrorOrFatal = true) ∧
    ∀ earlier < first, ∀ diag, sourceResult.diags[earlier]? = some diag → diag.isErrorOrFatal = false

theorem firstError_of_getFirstOrFatalIdx {first : Nat} (found : sourceResult.getFirstOrFatalIdx = some first) :
    FirstError sourceResult first := by
  obtain ⟨inside, isError, before⟩ := List.findIdx?_eq_some_iff_getElem.mp found
  refine ⟨⟨_, List.getElem?_eq_getElem inside, isError⟩, ?_⟩
  intro earlier smaller diag present
  obtain ⟨_, rfl⟩ := List.getElem?_eq_some_iff.mp present
  simpa using before earlier smaller

theorem getFirstOrFatalIdx_returns (hasError : ∃ diag ∈ sourceResult.diags, diag.isErrorOrFatal = true) :
    ∃ first, sourceResult.getFirstOrFatalIdx = some first := by
  rw [← Option.isSome_iff_exists, DiagExporterSourceResult.getFirstOrFatalIdx, List.findIdx?_isSome, List.any_eq_true]
  exact hasError

/-- Repetitions are never all of a list. -/
theorem firstPass_eq_nil {wanted : Diagnostic → Bool} {result : List Nat}
    (returned : removeExactlyRepeatedDiagnostics sourceResult (sourceResult.getDiagIdxs wanted) = .ok result) :
    result = [] ↔ ¬ ∃ diag ∈ sourceResult.diags, wanted diag = true := by
  rw [removeExactlyRepeatedDiagnostics_ok returned, keepFirst_eq_nil, List.eq_nil_iff_forall_not_mem]
  simp only [mem_getDiagIdxs]
  constructor
  · rintro nowhere ⟨diag, listed, isWanted⟩
    obtain ⟨idx, present⟩ := List.mem_iff_getElem?.mp listed
    exact nowhere idx ⟨diag, present, isWanted⟩
  · rintro nothing idx ⟨diag, present, isWanted⟩
    exact nothing ⟨diag, List.mem_of_getElem? present, isWanted⟩

/-- The removal leaves the first place of each message, and the analysis selects with it the
first missing file of each message if one is missing, and the first error otherwise. -/
theorem exactRepeats_removed (hasError : ∃ diag ∈ sourceResult.diags, diag.isErrorOrFatal = true) :
    ((∃ diag ∈ sourceResult.diags, diag.hasID .errPPFileNotFound = true) →
      ∃ selected, BasicMultiplePPErrorsAnalysis.selectDiagnostics sourceResult = .ok selected ∧
        selected.Pairwise (· < ·) ∧ ∀ idx, idx ∈ selected ↔
          ∃ diag, FirstOfMessage (·.hasID .errPPFileNotFound) sourceResult idx diag) ∧
    ((¬ ∃ diag ∈ sourceResult.diags, diag.hasID .errPPFileNotFound = true) →
      ∃ first, BasicMultiplePPErrorsAnalysis.selectDiagnostics sourceResult = .ok [first] ∧
        FirstError sourceResult first) ∧
    ∀ idxs, Valid sourceResult idxs →
      removeExactlyRepeatedDiagnostics sourceResult idxs = .ok (firstOfEach (messageAt sourceResult) [] idxs) := by
  obtain ⟨missing, returned, _⟩ :=
    removeExactlyRepeatedDiagnostics_returns (valid_getDiagIdxs (·.hasID .errPPFileNotFound))
  obtain ⟨increasing, listed⟩ := firstPass returned
  have empty_iff := firstPass_eq_nil returned
  refine ⟨fun someMissing => ?_, fun noneMissing => ?_, fun idxs => removeExactlyRepeatedDiagnostics_eq⟩
  · refine ⟨missing, except_bind_ok.mpr ⟨missing, returned, ?_⟩, increasing, listed⟩
    have nonempty : missing ≠ [] := fun empty => empty_iff.mp empty someMissing
    rw [if_pos (by simpa using nonempty)]
    rfl
  · obtain ⟨first, found⟩ := getFirstOrFatalIdx_returns hasError
    refine ⟨first, except_bind_ok.mpr ⟨missing, returned, ?_⟩, firstError_of_getFirstOrFatalIdx found⟩
    rw [if_neg (by simpa using empty_iff.mpr noneMissing)]
    exact except_bind_ok.mpr ⟨first, nonNull_ok.mpr found, rfl⟩

def absentHeader (line : Int) (header : String) : Diagnostic :=
  .errorAt line header .errPPFileNotFound header [.stdString header] []

theorem exactRepeats_removed_headers :
    let headers : DiagExporterSourceResult :=
      .ofErrors [absentHeader 1 "a.h", absentHeader 2 "a.h", absentHeader 3 "b.h"]
    (∃ selected, BasicMultiplePPErrorsAnalysis.selectDiagnostics headers = .ok selected ∧
      selected.Pairwise (· < ·)) ∧ removeExactlyRepeatedDiagnostics headers [1, 2, 0] = .ok [1, 2] := by
  intro headers
  have hasError : ∃ diag ∈ headers.diags, diag.isErrorOrFatal = true :=
    ⟨absentHeader 1 "a.h", List.mem_cons_self, rfl⟩
  obtain ⟨missing, _, removed⟩ := exactRepeats_removed hasError
  obtain ⟨selected, returned, increasing, _⟩ := missing ⟨absentHeader 1 "a.h", List.mem_cons_self, by decide⟩
  refine ⟨⟨selected, returned, increasing⟩, (removed [1, 2, 0] ?_).trans (by decide)⟩
  unfold Valid
  decide

end Messages

section Tags
variable {sourceResult : DiagExporterSourceResult} {idxs : List Nat}

/-- A listed diagnostic that is about a tag has the tag as its argument. -/
def TagsNamed (sourceResult : DiagExporterSourceResult) (idxs : List Nat) : Prop :=
  ∀ idx ∈ idxs, ∀ diag, sourceResult.diags[idx]? = some diag → isIncompleteTag diag = true →
    ∃ identifier, getIdentifier diag = .ok identifier

theorem removeTagSpaceSimilarDiagnostics_returns (valid : Valid sourceResult idxs)
    (named : TagsNamed sourceResult idxs) :
    ∃ result, removeTagSpaceSimilarDiagnostics sourceResult idxs = .ok result := by
  have comparable : ∀ idx ∈ idxs, ∃ diag, getAt sourceResult.diags idx = .ok diag ∧
      (isIncompleteTag diag = true →
        ∀ other ∈ idxs, ∃ b, compareSelected sourceResult tagSimilar diag other = .ok b) := by
    intro idx listed
    obtain ⟨diag, _, taken⟩ := getAt_inside (valid idx listed)
    refine ⟨diag, taken, fun tag other otherListed => ?_⟩
    obtain ⟨otherDiag, _, otherTaken⟩ := getAt_inside (valid other otherListed)
    obtain ⟨b, compared⟩ : ∃ b, tagSimilar diag otherDiag = .ok b := by
      unfold tagSimilar
      split
      · exact ⟨false, rfl⟩
      · rename_i otherTag
        exact sameIdentifier_returns (named idx listed diag (getAt_ok.mp taken) tag)
          (named other otherListed otherDiag (getAt_ok.mp otherTaken) (by simpa using otherTag))
    exact ⟨b, except_bind_ok.mpr ⟨otherDiag, otherTaken, compared⟩⟩
  obtain ⟨result, returned, _⟩ :=
    rounds_return (removeSimilarTo_returns comparable) idxs.length 0 idxs fun _ listed => listed
  exact ⟨result, returned⟩

/-- Of the diagnostics about a tag the pass leaves the first, and it leaves all others. -/
theorem removeTagSpaceSimilarDiagnostics_eq (valid : Valid sourceResult idxs) (named : TagsNamed sourceResult idxs) :
    ∃ result, removeTagSpaceSimilarDiagnostics sourceResult idxs = .ok result ∧
      result = firstOfEach (tagAt sourceResult) [] idxs ∧
      (∀ identifier, result.filter (tagAt sourceResult · == some identifier) =
        (idxs.filter (tagAt sourceResult · == some identifier)).take 1) ∧
      result.filter (tagAt sourceResult · == none) = idxs.filter (tagAt sourceResult · == none) := by
  obtain ⟨result, returned⟩ := removeTagSpaceSimilarDiagnostics_returns valid named
  have result_eq : result = firstOfEach (tagAt sourceResult) [] idxs :=
    (removeTagSpaceSimilarDiagnostics_ok returned).trans (keepFirst_eq_firstOfEach tagTakesOut_sameKey idxs)
  refine ⟨result, returned, result_eq, fun identifier => ?_, ?_⟩
  · rw [result_eq, firstOfEach_filter_key]
  · rw [result_eq, firstOfEach_filter_none]

def incompleteStruct (line : Int) (id : DiagnosticID) : Diagnostic :=
  .errorAt line "s" id "incomplete type 'struct s'"
    [.qualType (structType "s")] []

theorem removeTagSpaceSimilarDiagnostics_eq_struct :
    let tags : DiagExporterSourceResult := .ofErrors [incompleteStruct 1 .errTypecheckDeclIncompleteType, memberY,
      incompleteStruct 3 .errFuncDefIncompleteResult]
    Valid tags [0, 1, 2] ∧ TagsNamed tags [0, 1, 2] ∧
      removeTagSpaceSimilarDiagnostics tags [0, 1, 2] = .ok [0, 1] := by
  intro tags
  have valid : Valid tags [0, 1, 2] := by
    unfold Valid
    decide
  have named : TagsNamed tags [0, 1, 2] := by
    intro idx listed diag present tag
    simp only [List.mem_cons, List.not_mem_nil, or_false] at listed
    rcases listed with rfl | rfl | rfl
    · obtain rfl := Option.some.inj present
      exact ⟨"s", by decide⟩
    · obtain rfl := Option.some.inj present
      cases tag
    · obtain rfl := Option.some.inj present
      exact ⟨"s", by decide⟩
  obtain ⟨result, returned, result_eq, _⟩ := removeTagSpaceSimilarDiagnostics_eq valid named
  refine ⟨valid, named, returned.trans ?_⟩
  rw [result_eq]
  decide

end Tags
end CMender
