import CMender.Analysis.Selecting

/-! What every analysis hands over: some of the diagnostics, in their order, of different
messages. -/
namespace CMender
open Foundations Foundations.Execution

/-- Items at increasing places. -/
theorem mapM_getAt_sublist {α : Type} {items : List α} {places : List Nat} (increasing : places.Pairwise (· < ·))
    (inside : ∀ place ∈ places, place < items.length) {start : Nat} (behind : ∀ place ∈ places, start ≤ place) :
    ∃ values, places.mapM (getAt items) = .ok values ∧ values.Sublist (items.drop start) := by
  induction places generalizing start with
  | nil => exact ⟨[], rfl, List.nil_sublist _⟩
  | cons place rest ih =>
    obtain ⟨later, increasing⟩ := List.pairwise_cons.mp increasing
    have here := inside place List.mem_cons_self
    obtain ⟨values, collected, shorter⟩ := ih increasing
      (fun other listed => inside other (List.mem_cons_of_mem _ listed)) later
    have taken : getAt items place = .ok (items.get ⟨place, here⟩) :=
      getAt_ok.mpr (List.getElem?_eq_getElem here)
    refine ⟨items.get ⟨place, here⟩ :: values, ?_, ?_⟩
    · rw [List.mapM_cons, taken, collected]
      rfl
    · have dropped : (items.get ⟨place, here⟩ :: values).Sublist (items.drop place) := by
        rw [List.drop_eq_getElem_cons here]
        exact shorter.cons_cons _
      exact dropped.trans (List.drop_sublist_drop_left _ (behind place List.mem_cons_self))

/-- A batch as the handlers get it. -/
structure HandedOver (sourceResult : DiagExporterSourceResult) (batch : List Diagnostic) : Prop where
  nonempty : batch ≠ []
  ordered : batch.Sublist sourceResult.diags
  messages : (batch.map Diagnostic.message).Nodup
  known : ∀ diag ∈ batch, diag.isErrorOrFatal = true ∨ diag.diagnosticID ≠ .unknown

theorem BasicMultipleErrorsAnalysis.known_of_wanted {diag : Diagnostic} (isWanted : wanted diag = true) :
    diag.diagnosticID ≠ .unknown := by
  intro id
  simp only [wanted, id] at isWanted
  revert isWanted
  decide

theorem BasicMultiplePPErrorsAnalysis.known_of_wanted {diag : Diagnostic} (isWanted : wanted diag = true) :
    diag.diagnosticID ≠ .unknown := by
  have id : diag.id = DiagnosticID.errPPFileNotFound.id := beq_iff_eq.mp isWanted
  rw [Diagnostic.diagnosticID, id]
  decide

section Batch
variable {sourceResult : DiagExporterSourceResult} {idxs : List Nat} {batch : List Diagnostic}
  {wanted : Diagnostic → Bool}

/-- The analyses select the first of each message, or the first error alone. -/
theorem selectDiagnostics_cases {analysis : DiagnosticAnalysis}
    (returned : analysis.selectDiagnostics sourceResult = .ok idxs) :
    (∃ wanted : Diagnostic → Bool, (∀ diag, wanted diag = true → diag.diagnosticID ≠ .unknown) ∧
      ∀ idx ∈ idxs, ∃ diag, FirstOfMessage wanted sourceResult idx diag) ∨
    ∃ idx, idxs = [idx] ∧ sourceResult.getFirstOrFatalIdx = some idx := by
  have single (returned : BasicFirstErrorAnalysis.selectDiagnostics sourceResult = .ok idxs) :
      ∃ idx, idxs = [idx] ∧ sourceResult.getFirstOrFatalIdx = some idx := by
    obtain ⟨idx, found, ended⟩ := except_bind_ok.mp returned
    exact ⟨idx, (Except.ok.inj ended).symm, nonNull_ok.mp found⟩
  cases analysis with
  | basicFirstError => exact .inr (single returned)
  | basicMultiplePPErrors =>
    rcases BasicMultiplePPErrorsAnalysis.selectDiagnostics_ok returned with ⟨_, listed⟩ | ⟨_, alone⟩
    · exact .inl ⟨_, fun _ => BasicMultiplePPErrorsAnalysis.known_of_wanted, fun idx => (listed idx).mp⟩
    · exact .inr (single alone)
  | basicMultipleErrors =>
    cases BasicMultipleErrorsAnalysis.selectDiagnostics_ok returned with
    | batch _ _ listed => exact .inl ⟨_, fun _ => BasicMultipleErrorsAnalysis.known_of_wanted, listed⟩
    | firstError _ alone => exact .inr (single alone)

theorem messages_of_first (increasing : idxs.Pairwise (· < ·))
    (collected : idxs.mapM (getAt sourceResult.diags) = .ok batch)
    (first : ∀ idx ∈ idxs, ∃ diag, FirstOfMessage wanted sourceResult idx diag) :
    (batch.map Diagnostic.message).Nodup := by
  have same := map_getElem?_of_mapM collected
  have apart : (idxs.map fun idx => sourceResult.diags[idx]?).Pairwise fun one two =>
      one.map Diagnostic.message ≠ two.map Diagnostic.message := by
    rw [List.pairwise_map]
    refine increasing.imp_of_mem fun {idx later} listed laterListed before => ?_
    obtain ⟨diag, firstDiag⟩ := first idx listed
    obtain ⟨other, firstOther⟩ := first later laterListed
    rw [firstDiag.present, firstOther.present]
    exact fun equal => firstOther.first idx diag before firstDiag.present firstDiag.isWanted (Option.some.inj equal)
  rw [same, List.pairwise_map] at apart
  rw [List.Nodup, List.pairwise_map]
  exact apart.imp fun different equal => different (congrArg some equal)

/-- Every analysis returns when there is an error and every name can be read. -/
theorem selects_handedOver (hasError : sourceResult.getFirstOrFatalIdx.isSome)
    (carries : ∀ diag ∈ sourceResult.diags, diag.CarriesIdentifier) (analysis : DiagnosticAnalysis) :
    ∃ idxs batch, analysis.selectDiagnostics sourceResult = .ok idxs ∧
      idxs.mapM (getAt sourceResult.diags) = .ok batch ∧ HandedOver sourceResult batch := by
  obtain ⟨idxs, returned, selection⟩ := selectDiagnostics_returns hasError carries analysis
  obtain ⟨batch, collected, ordered⟩ := mapM_getAt_sublist selection.increasing selection.valid
    fun place _ => Nat.zero_le place
  have same := map_getElem?_of_mapM collected
  refine ⟨idxs, batch, returned, collected, ?_, ordered, ?_, ?_⟩
  · rintro rfl
    exact selection.nonempty (List.map_eq_nil_iff.mp same)
  · rcases selectDiagnostics_cases returned with ⟨wanted, _, first⟩ | ⟨idx, rfl, _⟩
    · exact messages_of_first selection.increasing collected first
    · have length := congrArg List.length same
      simp only [List.length_map, List.length_singleton] at length
      obtain ⟨diag, rfl⟩ := List.length_eq_one_iff.mp length.symm
      exact List.nodup_singleton _
  · intro diag listed
    obtain ⟨idx, selected, present⟩ : ∃ idx ∈ idxs, sourceResult.diags[idx]? = some diag := by
      have member : some diag ∈ batch.map some := List.mem_map_of_mem listed
      rw [← same] at member
      exact List.mem_map.mp member
    rcases selectDiagnostics_cases returned with ⟨wanted, known, first⟩ | ⟨only, rfl, found⟩
    · obtain ⟨other, firstOther⟩ := first idx selected
      obtain rfl := Option.some.inj (present.symm.trans firstOther.present)
      exact .inr (known _ firstOther.isWanted)
    · obtain rfl := List.mem_singleton.mp selected
      obtain ⟨inside, isError, _⟩ := List.findIdx?_eq_some_iff_getElem.mp found
      rw [List.getElem?_eq_getElem inside] at present
      obtain rfl := Option.some.inj present
      exact .inl isError

end Batch
end CMender
