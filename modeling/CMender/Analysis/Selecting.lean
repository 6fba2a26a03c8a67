import CMender.Analysis.Batches

/-! An analysis always selects something from a result with an error in it. The
passes compare places of diagnostics that are there, so they can only throw in
the casts of `getIdentifier`. Whether mending goes on at all is decided from the
counts of the result. -/
namespace CMender
open Foundations Foundations.Removal Foundations.Execution

/-- The first argument has the kind that `getIdentifier` casts it to. -/
structure Diagnostic.CarriesIdentifier (diag : Diagnostic) : Prop where
  undeclared : diag.hasID .errUndeclaredVarUse = true →
    ∃ name, diag.args.head? = some (.declarationName name)
  suggested : diag.hasID .errUndeclaredVarUseSuggest = true →
    ∃ name, diag.args.head? = some (.declarationName name) ∨ diag.args.head? = some (.identifier name)
  typename : isUnknownTypename diag = true → ∃ name, diag.args.head? = some (.identifier name)
  tag : isIncompleteTag diag = true →
    ∃ qualType type, diag.args.head? = some (.qualType qualType) ∧ qualType.type = some type

section Identifiers
variable {diag other : Diagnostic}

theorem getIdentifier_std (carries : diag.CarriesIdentifier) (std : isStdIdentifier diag = true) :
    ∃ name, getIdentifier diag = .ok name := by
  by_cases undeclared : diag.hasID .errUndeclaredVarUse = true
  · obtain ⟨name, first⟩ := carries.undeclared undeclared
    refine ⟨name, except_bind_ok.mpr ⟨_, getFirst_ok.mpr first, ?_⟩⟩
    rw [if_pos undeclared]
    rfl
  by_cases suggested : diag.hasID .errUndeclaredVarUseSuggest = true
  · obtain ⟨name, first⟩ := carries.suggested suggested
    rcases first with first | first
    · refine ⟨name, except_bind_ok.mpr ⟨_, getFirst_ok.mpr first, ?_⟩⟩
      rw [if_neg undeclared, if_pos suggested]
      rfl
    · refine ⟨name, except_bind_ok.mpr ⟨_, getFirst_ok.mpr first, ?_⟩⟩
      rw [if_neg undeclared, if_pos suggested]
      rfl
  · have typename : isUnknownTypename diag = true := by
      simpa [isStdIdentifier, isUndeclaredVarUse, undeclared, suggested] using std
    have noTag : ¬ isIncompleteTag diag = true := by
      intro tag
      rw [BasicMultipleErrorsAnalysis.not_stdIdentifier_of_tag tag] at std
      cases std
    obtain ⟨name, first⟩ := carries.typename typename
    refine ⟨name, except_bind_ok.mpr ⟨_, getFirst_ok.mpr first, ?_⟩⟩
    rw [if_neg undeclared, if_neg suggested, if_neg (by rwa [isIncompleteTag, Bool.or_comm] at noTag)]
    rfl

theorem getIdentifier_tag (carries : diag.CarriesIdentifier) (tag : isIncompleteTag diag = true) :
    ∃ name, getIdentifier diag = .ok name := by
  have noStd := BasicMultipleErrorsAnalysis.not_stdIdentifier_of_tag tag
  simp only [isStdIdentifier, isUndeclaredVarUse, Bool.or_eq_false_iff] at noStd
  obtain ⟨⟨undeclared, suggested⟩, -⟩ := noStd
  obtain ⟨qualType, type, first, there⟩ := carries.tag tag
  have incomplete : (diag.hasID .errFuncDefIncompleteResult || diag.hasID .errTypecheckDeclIncompleteType) =
      true := by rwa [isIncompleteTag, Bool.or_comm] at tag
  cases type with
  | record name _ | enum name =>
    refine ⟨name, except_bind_ok.mpr ⟨_, getFirst_ok.mpr first, ?_⟩⟩
    rw [if_neg (by simp [undeclared]), if_neg (by simp [suggested]), if_pos incomplete]
    exact except_bind_ok.mpr ⟨_, nonNull_ok.mpr there, rfl⟩
  | _ =>
    refine ⟨"", except_bind_ok.mpr ⟨_, getFirst_ok.mpr first, ?_⟩⟩
    rw [if_neg (by simp [undeclared]), if_neg (by simp [suggested]), if_pos incomplete]
    exact except_bind_ok.mpr ⟨_, nonNull_ok.mpr there, rfl⟩

/-- Two diagnostics that both name something can be compared by what they name. -/
theorem sameIdentifier_returns (first : ∃ name, getIdentifier diag = .ok name)
    (second : ∃ name, getIdentifier other = .ok name) : ∃ b, sameIdentifier diag other = .ok b := by
  obtain ⟨name, own⟩ := first
  obtain ⟨otherName, theirs⟩ := second
  exact ⟨name == otherName, except_bind_ok.mpr ⟨name, own, except_bind_ok.mpr ⟨otherName, theirs, rfl⟩⟩⟩

theorem stdIdentifierSimilar_returns (carries : diag.CarriesIdentifier)
    (otherCarries : other.CarriesIdentifier) (std : isStdIdentifier diag = true) :
    ∃ b, stdIdentifierSimilar diag other = .ok b := by
  unfold stdIdentifierSimilar
  split
  · exact ⟨false, rfl⟩
  · rename_i otherStd
    split
    · exact ⟨false, rfl⟩
    · apply sameIdentifier_returns (getIdentifier_std carries std)
      exact getIdentifier_std otherCarries (by simpa using otherStd)

theorem tagSimilar_returns (carries : diag.CarriesIdentifier) (otherCarries : other.CarriesIdentifier)
    (tag : isIncompleteTag diag = true) : ∃ b, tagSimilar diag other = .ok b := by
  unfold tagSimilar
  split
  · exact ⟨false, rfl⟩
  · rename_i otherTag
    apply sameIdentifier_returns (getIdentifier_tag carries tag)
    exact getIdentifier_tag otherCarries (by simpa using otherTag)

end Identifiers

section Passes
variable {sourceResult : DiagExporterSourceResult} {idxs : List Nat}

/-- Every place is that of a diagnostic. -/
def Valid (sourceResult : DiagExporterSourceResult) (idxs : List Nat) : Prop :=
  ∀ idx ∈ idxs, idx < sourceResult.diags.length

theorem getAt_inside {α : Type} {items : List α} {idx : Nat} (inside : idx < items.length) :
    ∃ item ∈ items, getAt items idx = .ok item :=
  ⟨_, List.getElem_mem inside, getAt_ok.mpr (List.getElem?_eq_getElem inside)⟩

section Comparisons
variable {similar : Diagnostic → Diagnostic → Except JavaException Bool} {diag : Diagnostic} {allowed : Nat → Prop}

theorem compareSelected_returns {idx : Nat} (compares : ∀ other ∈ sourceResult.diags, ∃ b, similar diag other = .ok b)
    (inside : idx < sourceResult.diags.length) : ∃ b, compareSelected sourceResult similar diag idx = .ok b := by
  obtain ⟨other, present, taken⟩ := getAt_inside inside
  obtain ⟨b, returned⟩ := compares other present
  exact ⟨b, except_bind_ok.mpr ⟨other, taken, returned⟩⟩

/-- Sweeping over places ends when each of them can be compared. -/
theorem sweep_places (compares : ∀ idx, allowed idx → ∃ b, compareSelected sourceResult similar diag idx = .ok b)
    (place : Nat) (kept items : List Nat) (all : ∀ idx ∈ kept.reverse ++ items, allowed idx) :
    ∃ result, sweep (compareSelected sourceResult similar diag) place kept items = .ok result ∧
      ∀ idx ∈ result, allowed idx := by
  obtain ⟨result, swept⟩ := sweep_returns fun idx listed => compares idx (all idx (List.mem_append_right _ listed))
  exact ⟨result, swept, fun idx member => all idx ((sweep_sublist swept).subset member)⟩

theorem removeRepeated_returns (place : Nat) (items : List Nat) (valid : Valid sourceResult items)
    (inside : place < items.length) :
    ∃ result, removeRepeated sourceResult place items = .ok result ∧ Valid sourceResult result := by
  obtain ⟨idx, listed, here⟩ := getAt_inside inside
  obtain ⟨diag, _, taken⟩ := getAt_inside (valid idx listed)
  have around : (items.take (place + 1)).reverse.reverse ++ items.drop (place + 1) = items := by
    rw [List.reverse_reverse, List.take_append_drop]
  have compares : ∀ other ∈ sourceResult.diags, ∃ b, sameMessage diag other = .ok b :=
    fun other _ => ⟨_, rfl⟩
  obtain ⟨result, swept, stillValid⟩ := sweep_places (fun _ => compareSelected_returns compares) place
    (items.take (place + 1)).reverse (items.drop (place + 1)) (by rwa [around])
  exact ⟨result, except_bind_ok.mpr ⟨idx, here, except_bind_ok.mpr ⟨diag, taken, swept⟩⟩, stillValid⟩

/-- A round of the other passes ends when the relevant places can be compared. -/
theorem removeSimilarTo_returns {relevant : Diagnostic → Bool}
    (comparable : ∀ idx, allowed idx → ∃ diag, getAt sourceResult.diags idx = .ok diag ∧
      (relevant diag = true → ∀ other, allowed other → ∃ b, compareSelected sourceResult similar diag other = .ok b))
    (place : Nat) (items : List Nat) (all : ∀ idx ∈ items, allowed idx) (inside : place < items.length) :
    ∃ result, removeSimilarTo sourceResult relevant similar place items = .ok result ∧
      ∀ idx ∈ result, allowed idx := by
  obtain ⟨idx, listed, here⟩ := getAt_inside inside
  obtain ⟨diag, taken, compares⟩ := comparable idx (all idx listed)
  cases applies : relevant diag with
  | false =>
    refine ⟨items, except_bind_ok.mpr ⟨idx, here, except_bind_ok.mpr ⟨diag, taken, ?_⟩⟩, all⟩
    rw [if_pos (by simp [applies])]
    rfl
  | true =>
    obtain ⟨result, swept, stillAll⟩ := sweep_places (compares applies) place [] items all
    refine ⟨result, except_bind_ok.mpr ⟨idx, here, except_bind_ok.mpr ⟨diag, taken, ?_⟩⟩, stillAll⟩
    simpa [applies] using swept

theorem comparable_of_diags {relevant : Diagnostic → Bool}
    (compares : ∀ diag ∈ sourceResult.diags, relevant diag = true →
      ∀ other ∈ sourceResult.diags, ∃ b, similar diag other = .ok b) (idx : Nat)
    (inside : idx < sourceResult.diags.length) :
    ∃ diag, getAt sourceResult.diags idx = .ok diag ∧ (relevant diag = true →
      ∀ other < sourceResult.diags.length, ∃ b, compareSelected sourceResult similar diag other = .ok b) := by
  obtain ⟨diag, present, taken⟩ := getAt_inside inside
  exact ⟨diag, taken, fun applies _ => compareSelected_returns (compares diag present applies)⟩

end Comparisons

theorem valid_getDiagIdxs (wanted : Diagnostic → Bool) :
    Valid sourceResult (sourceResult.getDiagIdxs wanted) := by
  intro idx listed
  obtain ⟨diag, present, _⟩ := mem_getDiagIdxs.mp listed
  obtain ⟨inside, _⟩ := List.getElem?_eq_some_iff.mp present
  exact inside

theorem removeExactlyRepeatedDiagnostics_returns (valid : Valid sourceResult idxs) :
    ∃ result, removeExactlyRepeatedDiagnostics sourceResult idxs = .ok result ∧
      Valid sourceResult result :=
  rounds_return removeRepeated_returns idxs.length 0 idxs valid

theorem removeStdIdentifierSpaceSimilarDiagnostics_returns
    (carries : ∀ diag ∈ sourceResult.diags, diag.CarriesIdentifier) (valid : Valid sourceResult idxs) :
    ∃ result, removeStdIdentifierSpaceSimilarDiagnostics sourceResult idxs = .ok result ∧
      Valid sourceResult result := by
  have compares : ∀ diag ∈ sourceResult.diags, isStdIdentifier diag = true →
      ∀ other ∈ sourceResult.diags, ∃ b, stdIdentifierSimilar diag other = .ok b :=
    fun diag present applies other otherPresent =>
      stdIdentifierSimilar_returns (carries diag present) (carries other otherPresent) applies
  exact rounds_return (removeSimilarTo_returns (comparable_of_diags compares)) idxs.length 0 idxs valid

theorem removeSimilarDiagnostics_returns
    (carries : ∀ diag ∈ sourceResult.diags, diag.CarriesIdentifier) (valid : Valid sourceResult idxs) :
    ∃ result, removeSimilarDiagnostics sourceResult idxs = .ok result ∧ Valid sourceResult result := by
  have compares : ∀ diag ∈ sourceResult.diags, isIncompleteTag diag = true →
      ∀ other ∈ sourceResult.diags, ∃ b, tagSimilar diag other = .ok b :=
    fun diag present applies other otherPresent =>
      tagSimilar_returns (carries diag present) (carries other otherPresent) applies
  obtain ⟨stdRemoved, first, stillValid⟩ := removeStdIdentifierSpaceSimilarDiagnostics_returns carries valid
  obtain ⟨result, second, validResult⟩ :=
    rounds_return (removeSimilarTo_returns (comparable_of_diags compares)) stdRemoved.length 0 stdRemoved stillValid
  exact ⟨result, except_bind_ok.mpr ⟨stdRemoved, first, second⟩, validResult⟩

end Passes

section Selection
variable {sourceResult : DiagExporterSourceResult}

/-- What mending relies on: something is selected, in the order of the places. -/
structure Selection (sourceResult : DiagExporterSourceResult) (idxs : List Nat) : Prop where
  nonempty : idxs ≠ []
  increasing : idxs.Pairwise (· < ·)
  valid : Valid sourceResult idxs

theorem firstError_returns (hasError : sourceResult.getFirstOrFatalIdx.isSome) :
    ∃ idxs, BasicFirstErrorAnalysis.selectDiagnostics sourceResult = .ok idxs ∧
      Selection sourceResult idxs := by
  obtain ⟨idx, found⟩ := Option.isSome_iff_exists.mp hasError
  refine ⟨[idx], except_bind_ok.mpr ⟨idx, nonNull_ok.mpr found, rfl⟩, by simp, by simp, ?_⟩
  intro other listed
  obtain rfl := List.mem_singleton.mp listed
  obtain ⟨inside, _⟩ := List.findIdx?_eq_some_iff_getElem.mp found
  exact inside

theorem multiplePPErrors_returns (hasError : sourceResult.getFirstOrFatalIdx.isSome) :
    ∃ idxs, BasicMultiplePPErrorsAnalysis.selectDiagnostics sourceResult = .ok idxs ∧
      Selection sourceResult idxs := by
  obtain ⟨missing, returned, valid⟩ :=
    removeExactlyRepeatedDiagnostics_returns (valid_getDiagIdxs (·.hasID .errPPFileNotFound))
  obtain ⟨increasing, _⟩ := firstPass returned
  cases empty : missing.isEmpty with
  | false =>
    refine ⟨missing, except_bind_ok.mpr ⟨missing, returned, ?_⟩, by simpa using empty, increasing, valid⟩
    rw [empty]
    rfl
  | true =>
    obtain ⟨idxs, single, selection⟩ := firstError_returns hasError
    refine ⟨idxs, except_bind_ok.mpr ⟨missing, returned, ?_⟩, selection⟩
    rw [empty]
    exact single

theorem multipleErrors_returns (hasError : sourceResult.getFirstOrFatalIdx.isSome)
    (carries : ∀ diag ∈ sourceResult.diags, diag.CarriesIdentifier) :
    ∃ idxs, BasicMultipleErrorsAnalysis.selectDiagnostics sourceResult = .ok idxs ∧
      Selection sourceResult idxs := by
  obtain ⟨repeated, one, valid⟩ := removeExactlyRepeatedDiagnostics_returns
    (valid_getDiagIdxs BasicMultipleErrorsAnalysis.wanted)
  obtain ⟨selected, both, validSelected⟩ := removeSimilarDiagnostics_returns carries valid
  cases empty : selected.isEmpty with
  | false =>
    have returned : BasicMultipleErrorsAnalysis.selectDiagnostics sourceResult = .ok selected := by
      refine except_bind_ok.mpr ⟨repeated, one, except_bind_ok.mpr ⟨selected, both, ?_⟩⟩
      rw [empty]
      rfl
    obtain ⟨increasing, _⟩ := firstPass one
    obtain ⟨stdRemoved, two, three⟩ := except_bind_ok.mp both
    have shorter : selected.Sublist repeated :=
      (rounds_sublist three).trans (rounds_sublist two)
    exact ⟨selected, returned, by simpa using empty, increasing.sublist shorter, validSelected⟩
  | true =>
    obtain ⟨idxs, single, selection⟩ := firstError_returns hasError
    refine ⟨idxs, except_bind_ok.mpr ⟨repeated, one, except_bind_ok.mpr ⟨selected, both, ?_⟩⟩, selection⟩
    rw [empty]
    exact single

/-- From a result with an error in it, every analysis selects something. -/
theorem selectDiagnostics_returns (hasError : sourceResult.getFirstOrFatalIdx.isSome)
    (carries : ∀ diag ∈ sourceResult.diags, diag.CarriesIdentifier) (analysis : DiagnosticAnalysis) :
    ∃ idxs, analysis.selectDiagnostics sourceResult = .ok idxs ∧ Selection sourceResult idxs := by
  cases analysis with
  | basicFirstError => exact firstError_returns hasError
  | basicMultiplePPErrors => exact multiplePPErrors_returns hasError
  | basicMultipleErrors => exact multipleErrors_returns hasError carries

end Selection

/-- `checkTermination` returns, and says that no errors are left. -/
def ReportsSuccess (sourceResult : DiagExporterSourceResult) (sourceFile : String) (s : MendingState) :
    Prop :=
  ∃ status t, checkTermination sourceResult sourceFile s = .ok status t ∧ status.success = true

theorem checkTermination_of_none {sourceResult : DiagExporterSourceResult}
    (none : sourceResult.hasErrorsOrFatals = false) (sourceFile : String) (s : MendingState) :
    checkTermination sourceResult sourceFile s = .ok ⟨.noMoreErrorsOrFatals, ⟨1, 1⟩, []⟩ s :=
  checkTermination_iff.mpr (.inl ⟨none, rfl, rfl⟩)

/-- The counts alone decide whether the check reports success. -/
theorem reportsSuccess_iff {sourceResult : DiagExporterSourceResult} {sourceFile : String}
    {s : MendingState} :
    ReportsSuccess sourceResult sourceFile s ↔ sourceResult.hasErrorsOrFatals = false := by
  constructor
  · rintro ⟨status, t, checked, success⟩
    rcases checkTermination_iff.mp checked with ⟨none, _⟩ | ⟨_, idx, firstError, _, cycle, _, _, _, _, rfl, _⟩
    · exact none
    · -- a run with errors ends in one of the other three types
      rcases statusOf_cases with other | ⟨_, other⟩ | other <;> rw [other] at success <;> cases success
  · intro none
    exact ⟨_, s, checkTermination_of_none none sourceFile s, rfl⟩

end CMender
