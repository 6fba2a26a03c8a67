import CMender.Engine.Iterations
import Mathlib.Logic.Relation

/-! When the mending loop ends. An exporter that draws its located diagnostics
from finitely many classes bounds the iterations, as long as each of them hands
over something new; with the analysis that selects the first error, it does. -/
namespace CMender
open Foundations Foundations.Execution Foundations.Looping

section Bound
variable {surroundings : Surroundings} {invocation : CMenderInvocation} {sourceResult : DiagExporterSourceResult}
  {representatives : List Diagnostic}

theorem Selects.mem {analysis : DiagnosticAnalysis} {batch : List Diagnostic} {diag : Diagnostic}
    (selects : Selects analysis sourceResult batch) (selected : diag ∈ batch) : diag ∈ sourceResult.diags := by
  obtain ⟨idxs, _, found⟩ := selects
  obtain ⟨idx, _, present⟩ := (mem_of_mapM found).mp selected
  exact List.mem_of_getElem? present

/-- The exporter's located diagnostics equal ones of a list, whatever it answers. -/
def DrawnFrom (representatives : List Diagnostic) (surroundings : Surroundings) : Prop :=
  ∀ iteration s sourceResult, Answers surroundings iteration s sourceResult →
    ∀ diag ∈ sourceResult.diags, diag.Located →
      ∃ representative ∈ representatives, diag.equals representative .separate = .ok true

theorem drawnFrom_repeating (diags : List Diagnostic)
    (reflexive : ∀ diag ∈ diags, diag.equals diag .separate = .ok true) : DrawnFrom diags (.repeating diags) := by
  rintro _ _ sourceResult ⟨results, answered, first⟩ diag member _
  cases answered
  cases first
  exact ⟨diag, member, reflexive diag member⟩

theorem DrawnFrom.key_mem (drawn : DrawnFrom representatives surroundings) {iteration : Nat} {s : EngineState}
    (answers : Answers surroundings iteration s sourceResult) {diag : Diagnostic}
    (member : diag ∈ sourceResult.diags) (located : diag.Located) :
    diag.key ∈ (representatives.map Diagnostic.key).toFinset := by
  obtain ⟨representative, represents, equal⟩ := drawn iteration s sourceResult answers diag member located
  obtain ⟨key, own⟩ := Diagnostic.located_iff.mp located
  rw [Diagnostic.equals_of_key own] at equal
  have same : representative.key = some key := of_decide_eq_true (Except.ok.inj equal)
  rw [List.mem_toFinset, own, ← same]
  exact List.mem_map_of_mem represents

/-- The states at the beginning of the rounds of a loop. -/
def Reached (surroundings : Surroundings) (invocation : CMenderInvocation) : LoopState → LoopState → Prop :=
  Relation.ReflTransGen fun s next => loopStep surroundings invocation s = .inl next

/-- A diagnostic that no handled one is equal to. -/
def New (handled : List Diagnostic) (diag : Diagnostic) : Prop :=
  diag.Located ∧ ∀ other ∈ handled, other.key ≠ diag.key

/-- Where every round hands over something new, there are as many iterations as
classes, and one that finds the loop to be over. -/
theorem mendLoop_bounded {start : LoopState} (drawn : DrawnFrom representatives surroundings)
    (novel : ∀ s batch, Reached surroundings invocation start s →
      RoundHandover surroundings invocation s batch → ∃ diag ∈ batch, New s.handled diag)
    (fresh : start.currentIteration = 0) {fuel : Nat} (enough : representatives.length + 2 ≤ fuel) :
    ∃ outcome, mendLoop surroundings invocation fuel start = some outcome ∧
      outcome.iterations ≤ representatives.length + 1 := by
  let classes := (representatives.map Diagnostic.key).toFinset
  let remaining (s : LoopState) : Nat := unseen classes (s.handled.map Diagnostic.key)
  have atMost : remaining start ≤ representatives.length := by
    have card := List.toFinset_card_le (representatives.map Diagnostic.key)
    rw [List.length_map] at card
    exact unseen_le_card.trans card
  have goesOn : ∀ s next, Reached surroundings invocation start s →
      loopStep surroundings invocation s = .inl next →
      Reached surroundings invocation start next ∧ ¬ s.stopped = true ∧
        next.currentIteration = s.currentIteration + 1 ∧
        (next.stopped = true ∨ remaining next < remaining s) := by
    intro s next reached stepped
    have round := loopStep_inl stepped
    refine ⟨reached.tail stepped, by simp [round.running], round.counted, ?_⟩
    rcases round.handled with ⟨_, stopped⟩ | ⟨batch, handover, handled⟩
    · exact .inl stopped
    · obtain ⟨diag, selected, located, new⟩ := novel s batch reached handover
      obtain ⟨sourceResult, answers, given⟩ := handover
      right
      simp only [remaining, handled, List.map_append]
      apply unseen_lt (drawn.key_mem answers (given.selects.mem selected) located)
      · intro seen
        obtain ⟨other, before, same⟩ := List.mem_map.mp seen
        exact new other before same
      · exact List.mem_map_of_mem selected
  have ends : ∀ s outcome, loopStep surroundings invocation s = .inr outcome →
      outcome.iterations = s.currentIteration ∨
        ¬ s.stopped = true ∧ outcome.iterations = s.currentIteration + 1 := by
    intro s outcome stepped
    rcases (loopStep_inr stepped).counted with same | ⟨running, more⟩
    · exact .inl same
    · exact .inr ⟨by simp [running], more⟩
  exact iterate_bounded goesOn ends .refl fresh atMost enough

end Bound

section FirstError
variable {surroundings : Surroundings} {invocation : CMenderInvocation} {s : LoopState} {batch : List Diagnostic}

/-- The first error is all that is selected, and the check has found it new. -/
theorem RoundHandover.single (firstErrors : invocation.diagnosticAnalysis = .basicFirstError)
    (handover : RoundHandover surroundings invocation s batch) : ∃ diag, batch = [diag] ∧ New s.handled diag := by
  obtain ⟨sourceResult, _, ⟨diag, ⟨idx, first, present⟩, located, fresh⟩, idxs, selected, found⟩ := handover
  refine ⟨diag, ?_, located, fresh⟩
  rw [firstErrors] at selected
  have single : idxs = [idx] := by
    simp only [DiagnosticAnalysis.selectDiagnostics, BasicFirstErrorAnalysis.selectDiagnostics, first] at selected
    exact (Except.ok.inj selected).symm
  have same := map_getElem?_of_mapM found
  rw [single] at same
  simpa [present] using same.symm

/-- No diagnostic equals an earlier one. -/
def Unrepeated (handled : List Diagnostic) : Prop :=
  handled.Pairwise fun earlier later => later.equals earlier .separate = .ok false

theorem Unrepeated.append {handled given : List Diagnostic} {diag : Diagnostic} (apart : Unrepeated handled)
    (new : New handled diag) (start : given <+: [diag]) : Unrepeated (handled ++ given) := by
  obtain ⟨located, fresh⟩ := new
  obtain ⟨key, own⟩ := Diagnostic.located_iff.mp located
  have different : ∀ other ∈ handled, diag.equals other .separate = .ok false := by
    intro other member
    rw [Diagnostic.equals_of_key own, decide_eq_false]
    exact fun same => fresh other member (same.trans own.symm)
  rcases given with _ | ⟨first, others⟩
  · rwa [List.append_nil]
  · obtain ⟨rfl, rest⟩ := List.cons_prefix_cons.mp start
    obtain rfl := List.prefix_nil.mp rest
    refine List.pairwise_append.mpr ⟨apart, List.pairwise_singleton _ _, ?_⟩
    rintro other member _ (_ | _)
    · exact different other member
    · contradiction

/-- With the first error selected, the loop ends within one iteration more than there
are classes, and nothing is handed over twice. -/
theorem first_error_mending_terminates (surroundings : Surroundings) (invocation : CMenderInvocation)
    (firstErrors : invocation.diagnosticAnalysis = .basicFirstError) (representatives : List Diagnostic)
    (drawn : DrawnFrom representatives surroundings) (names : MendingTypeNameGenerator) (files : FileSystem)
    (frequency : Map String Nat) (fuel : Nat) (enough : representatives.length + 2 ≤ fuel) :
    ∃ outcome, mendLoop surroundings invocation fuel (.initial names files frequency) = some outcome ∧
      outcome.iterations ≤ representatives.length + 1 ∧ Unrepeated outcome.engine.handled := by
  have novel : ∀ s batch, Reached surroundings invocation (.initial names files frequency) s →
      RoundHandover surroundings invocation s batch → ∃ diag ∈ batch, New s.handled diag := by
    intro s batch _ handover
    obtain ⟨diag, rfl, new⟩ := handover.single firstErrors
    exact ⟨diag, List.mem_singleton_self diag, new⟩
  obtain ⟨outcome, ended, bounded⟩ := mendLoop_bounded drawn novel rfl enough
  refine ⟨outcome, ended, bounded, ?_⟩
  -- The handled diagnostics stay apart from round to round, and through the last one.
  have keeps : ∀ s next, Unrepeated s.handled → loopStep surroundings invocation s = .inl next →
      Unrepeated next.handled := by
    intro s next apart stepped
    rcases (loopStep_inl stepped).handled with ⟨same, _⟩ | ⟨batch, handover, handled⟩
    · rwa [same]
    · obtain ⟨diag, rfl, new⟩ := handover.single firstErrors
      rw [handled]
      exact apart.append new List.prefix_rfl
  have last : ∀ s outcome, Unrepeated s.handled → loopStep surroundings invocation s = .inr outcome →
      Unrepeated outcome.engine.handled := by
    intro s outcome apart stepped
    rcases (loopStep_inr stepped).handled with same | ⟨batch, given, handover, start, handled⟩
    · rwa [same]
    · obtain ⟨diag, rfl, new⟩ := handover.single firstErrors
      rw [handled]
      exact apart.append new start
  have start : Unrepeated (LoopState.initial names files frequency).handled := List.Pairwise.nil
  exact iterate_result keeps last start ended

/-- A header below the root, which no include directory provides. -/
def missingHeader (line : Int) : Diagnostic :=
  .errorAt line "#include \"/opt/conf.h\"" .errPPFileNotFound "'/opt/conf.h' file not found"
    [.stdString "/opt/conf.h"] []

theorem first_error_mending_terminates_header :
    ∃ outcome, mendLoop (.repeating [missingHeader 1]) ⟨.basicFirstError, false, false, false⟩ 3
        (.initial .start .empty .empty) = some outcome ∧
      outcome.iterations ≤ 2 ∧ Unrepeated outcome.engine.handled :=
  first_error_mending_terminates (.repeating [missingHeader 1]) ⟨.basicFirstError, false, false, false⟩ rfl
    [missingHeader 1] (drawnFrom_repeating _ (by decide)) .start .empty .empty 3 (by decide)

end FirstError
end CMender
