import CMender.Analysis.Batches
import CMender.Engine.Termination

/-! When the mending loop ends with the analyses that select batches. The
termination check looks at the first error while the batch may be without it, so a
round is sure to get ahead only if something new is in the batch itself. -/
namespace CMender
open Foundations Foundations.Execution

/-- What makes up the batch of an analysis. -/
def DiagnosticAnalysis.wanted : DiagnosticAnalysis → Diagnostic → Bool
  | .basicFirstError => fun _ => false
  | .basicMultiplePPErrors => BasicMultiplePPErrorsAnalysis.wanted
  | .basicMultipleErrors => BasicMultipleErrorsAnalysis.wanted

/-- A diagnostic that is in the batch: of its message it is the first, and of its
name or tag as well; the second pass does not disturb it. -/
def DiagnosticAnalysis.Keeps (sourceResult : DiagExporterSourceResult) (idx : Nat) (diag : Diagnostic) :
    DiagnosticAnalysis → Prop
  | .basicFirstError => False
  | .basicMultiplePPErrors => FirstOfMessage BasicMultiplePPErrorsAnalysis.wanted sourceResult idx diag
  | .basicMultipleErrors => BasicMultipleErrorsAnalysis.FirstOfKind sourceResult idx diag ∧
      (BasicMultipleErrorsAnalysis.TypenamesFirst sourceResult ∨
        BasicMultipleErrorsAnalysis.OnlyOfName sourceResult idx diag)

/-- When the first error is new, there is no batch, or something new in it. -/
def GetsAhead (analysis : DiagnosticAnalysis) (handled : List Diagnostic)
    (sourceResult : DiagExporterSourceResult) : Prop :=
  ∀ firstError, NewFirstError handled sourceResult firstError →
    (∀ diag ∈ sourceResult.diags, analysis.wanted diag = false) ∨
      ∃ idx diag, analysis.Keeps sourceResult idx diag ∧ New handled diag

section Rounds
variable {analysis : DiagnosticAnalysis} {handled batch : List Diagnostic}
  {sourceResult : DiagExporterSourceResult} {idxs : List Nat}

theorem FirstOfMessage.not_unwanted {wanted : Diagnostic → Bool} {idx : Nat} {diag : Diagnostic}
    (first : FirstOfMessage wanted sourceResult idx diag) :
    ¬ ∀ diag ∈ sourceResult.diags, wanted diag = false := by
  intro unwanted
  have absent := unwanted diag (List.mem_of_getElem? first.present)
  rw [first.isWanted] at absent
  cases absent

/-- Without a batch the first error is selected. -/
theorem firstError_selected {idx : Nat} (first : sourceResult.getFirstOrFatalIdx = some idx)
    (selected : BasicFirstErrorAnalysis.selectDiagnostics sourceResult = .ok idxs) : idx ∈ idxs := by
  simp only [BasicFirstErrorAnalysis.selectDiagnostics, first] at selected
  obtain rfl := Except.ok.inj selected
  exact List.mem_singleton_self idx

/-- The batch holds what is kept, and the first error is selected where nothing is wanted. -/
theorem selectDiagnostics_covers (selected : analysis.selectDiagnostics sourceResult = .ok idxs) :
    (∀ idx diag, analysis.Keeps sourceResult idx diag → idx ∈ idxs ∧ sourceResult.diags[idx]? = some diag) ∧
      ((∀ diag ∈ sourceResult.diags, analysis.wanted diag = false) →
        BasicFirstErrorAnalysis.selectDiagnostics sourceResult = .ok idxs) := by
  cases analysis with
  | basicFirstError => exact ⟨fun _ _ kept => kept.elim, fun _ => selected⟩
  | basicMultiplePPErrors =>
    rcases BasicMultiplePPErrorsAnalysis.selectDiagnostics_ok selected with ⟨nonempty, listed⟩ | ⟨nothing, single⟩
    · refine ⟨fun idx diag kept => ⟨(listed idx).mpr ⟨diag, kept⟩, kept.present⟩, fun unwanted => ?_⟩
      obtain ⟨idx, member⟩ := List.exists_mem_of_ne_nil idxs nonempty
      obtain ⟨diag, first⟩ := (listed idx).mp member
      exact absurd unwanted first.not_unwanted
    · exact ⟨fun idx diag kept => absurd kept (nothing idx diag), fun _ => single⟩
  | basicMultipleErrors =>
    cases BasicMultipleErrorsAnalysis.selectDiagnostics_ok selected with
    | batch nonempty _ listed chosen _ =>
      refine ⟨fun idx diag kept => ⟨chosen kept.1 kept.2, kept.1.first.present⟩, fun unwanted => ?_⟩
      obtain ⟨idx, member⟩ := List.exists_mem_of_ne_nil idxs nonempty
      obtain ⟨diag, first⟩ := listed idx member
      exact absurd unwanted first.not_unwanted
    | firstError nothing single => exact ⟨fun idx diag kept => absurd kept.2 (nothing kept.1), fun _ => single⟩

theorem GetsAhead.handover (ahead : GetsAhead analysis handled sourceResult)
    (handover : Handover analysis handled sourceResult batch) : ∃ diag ∈ batch, New handled diag := by
  obtain ⟨⟨firstError, new⟩, idxs, selected, found⟩ := handover
  obtain ⟨kept, single⟩ := selectDiagnostics_covers selected
  rcases ahead firstError new with unwanted | ⟨idx, diag, keeps, newDiag⟩
  · obtain ⟨idx, first, present⟩ := new.first
    have member := firstError_selected first (single unwanted)
    exact ⟨firstError, (mem_of_mapM found).mpr ⟨idx, member, present⟩, new.located, new.fresh⟩
  · obtain ⟨member, present⟩ := kept idx diag keeps
    exact ⟨diag, (mem_of_mapM found).mpr ⟨idx, member, present⟩, newDiag⟩

/-- In a run whose iterations all get ahead, there are as many as classes and one
more, and each that does not stop the run hands over something new. -/
theorem batch_mending_terminates (surroundings : Surroundings) (invocation : CMenderInvocation)
    (representatives : List Diagnostic) (drawn : DrawnFrom representatives surroundings)
    (names : MendingTypeNameGenerator) (files : FileSystem) (frequency : Map String Nat)
    (ahead : ∀ s sourceResult, Reached surroundings invocation (.initial names files frequency) s →
      Answers surroundings (s.currentIteration + 1) s.engine sourceResult →
      GetsAhead invocation.diagnosticAnalysis s.handled sourceResult)
    (fuel : Nat) (enough : representatives.length + 2 ≤ fuel) :
    (∃ outcome, mendLoop surroundings invocation fuel (.initial names files frequency) = some outcome ∧
      outcome.iterations ≤ representatives.length + 1) ∧
    ∀ s next, Reached surroundings invocation (.initial names files frequency) s →
      loopStep surroundings invocation s = .inl next → next.stopped = false →
      ∃ diag ∈ next.handled, New s.handled diag := by
  have novel : ∀ s batch, Reached surroundings invocation (.initial names files frequency) s →
      RoundHandover surroundings invocation s batch → ∃ diag ∈ batch, New s.handled diag := by
    rintro s batch reached ⟨sourceResult, answers, handover⟩
    exact (ahead s sourceResult reached answers).handover handover
  refine ⟨mendLoop_bounded drawn novel rfl enough, fun s next reached stepped running => ?_⟩
  rcases (loopStep_inl stepped).handled with ⟨_, stopped⟩ | ⟨batch, handover, handled⟩
  · rw [running] at stopped
    cases stopped
  · obtain ⟨diag, member, new⟩ := novel s batch reached handover
    rw [handled]
    exact ⟨diag, List.mem_append_right _ member, new⟩

/-- The missing header is the first error and the batch. -/
theorem missingHeader_getsAhead {iteration : Nat} {s : EngineState}
    (answers : Answers (.repeating [missingHeader 1]) iteration s sourceResult) :
    GetsAhead .basicMultiplePPErrors handled sourceResult := by
  obtain ⟨results, answered, head⟩ := answers
  cases answered
  cases head
  intro firstError new
  obtain ⟨idx, first, present⟩ := new.first
  cases first
  cases present
  refine .inr ⟨0, missingHeader 1, ⟨rfl, by decide, ?_⟩, new.located, new.fresh⟩
  intro earlier other smaller
  exact absurd smaller (Nat.not_lt_zero earlier)

theorem batch_mending_terminates_header :
    ∃ outcome, mendLoop (.repeating [missingHeader 1]) ⟨.basicMultiplePPErrors, false, false, false⟩ 3
        (.initial .start .empty .empty) = some outcome ∧ outcome.iterations ≤ 2 :=
  (batch_mending_terminates (.repeating [missingHeader 1]) ⟨.basicMultiplePPErrors, false, false, false⟩
    [missingHeader 1] (drawnFrom_repeating _ (by decide)) .start .empty .empty
    (fun _ _ _ answers => missingHeader_getsAhead answers) 3 (by decide)).1

/-- `int n = s;` -/
def structConversion : Diagnostic :=
  .errorAt 1 "=" .errTypecheckConvertIncompatible
    "initializing 'int' with an expression of incompatible type 'struct s'" [] []

/-- The header stays missing behind an error that is never selected, and the loop goes
on beyond its three iterations. -/
theorem missing_header_never_handled_anew :
    DrawnFrom [structConversion, missingHeader 2] (.repeating [structConversion, missingHeader 2]) ∧
      ∀ analysis ∈ [DiagnosticAnalysis.basicMultiplePPErrors, .basicMultipleErrors],
        (mendLoop (.repeating [structConversion, missingHeader 2]) ⟨analysis, false, false, false⟩ 6
          (.initial .start .empty .empty)).isNone = true :=
  ⟨drawnFrom_repeating _ (by decide), by decide +kernel⟩

end Rounds
end CMender
