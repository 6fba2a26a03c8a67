import CMender.Analysis.OneKind
import CMender.Engine.OnDisk
import CMender.Foundations.Lockstep
import CMender.Mending.Orders

/-! The iteration orders of hash maps, over whole runs. They decide how the mendfile is
arranged and what a failed write leaves of it. A compiler that reads the declarations of
a mendfile whatever their arrangement leads every run to the same end. -/
namespace CMender
open Foundations Foundations.Execution Foundations.Lockstep Foundations.Looping MendingState

section Mendfiles
variable {noDisclaimer : Bool} {table : MendingTable} {mendfile other : String} {order : IterationOrder}

/-- A write of the table in some order left the mendfile; the empty one that mending begins
with is taken for that of a table without definitions. -/
def WrittenFrom (noDisclaimer : Bool) (table : MendingTable) (mendfile : String) : Prop := ∃ order,
  (table.writeSymbolDecls order).failure = none ∧
    (mendfile = "".intercalate (mendfileWrites noDisclaimer (table.writeSymbolDecls order).definitions) ∨
      mendfile = "" ∧ (table.writeSymbolDecls order).definitions = [])

/-- Two mendfiles of one table. -/
def SameDeclarations (noDisclaimer : Bool) (mendfile other : String) : Prop :=
  ∃ table, WrittenFrom noDisclaimer table mendfile ∧ WrittenFrom noDisclaimer table other

/-- The exporter sees what the mendfile declares and which headers there are. -/
def ReadsDeclarations (noDisclaimer : Bool) (surroundings : Surroundings) : Prop :=
  ∀ i j s t, SameDeclarations noDisclaimer s.mendfile t.mendfile → s.mending.files = t.mending.files →
    surroundings.exporter i s = surroundings.exporter j t

theorem writtenFrom_empty (noDisclaimer : Bool) : WrittenFrom noDisclaimer .empty "" :=
  ⟨.listed, rfl, .inr ⟨rfl, rfl⟩⟩

theorem size_of_perm {definitions others : List Definition} (permuted : definitions.Perm others) :
    ("".intercalate (mendfileWrites noDisclaimer definitions)).utf8ByteSize =
      ("".intercalate (mendfileWrites noDisclaimer others)).utf8ByteSize := by
  have texts : (mendfileWrites noDisclaimer definitions).Perm (mendfileWrites noDisclaimer others) :=
    (permuted.flatMap_right _).append_left _
  rw [Text.utf8ByteSize_intercalate_empty, Text.utf8ByteSize_intercalate_empty]
  exact (texts.map _).sum_nat

end Mendfiles

/-- Two runs at the same point: one table, and mendfiles of one size with the same declarations. -/
structure Reordered (noDisclaimer : Bool) (s t : EngineState) : Prop where
  mending : s.mending = t.mending
  size : s.mendfile.utf8ByteSize = t.mendfile.utf8ByteSize
  declarations : SameDeclarations noDisclaimer s.mendfile t.mendfile

/-- The same surroundings, with other iteration orders and other buffers. -/
def Surroundings.reordered (surroundings : Surroundings) (order : Nat → IterationOrder) (buffering : Buffering) :
    Surroundings :=
  { surroundings with order := order, buffering := buffering }

section Iterations
variable {surroundings : Surroundings} {invocation : CMenderInvocation} {order : Nat → IterationOrder}
  {buffering : Buffering} {iteration : Nat} {s t : EngineState}

/-- Both runs have failed, perhaps for different reasons. -/
def FailedAlike (_ : JavaException) (s : EngineState) (_ : JavaException) (t : EngineState) : Prop :=
  s.mending = t.mending

/-- Both runs have failed for the same reason. -/
def FailedEqually (e : JavaException) (s : EngineState) (f : JavaException) (t : EngineState) : Prop :=
  e = f ∧ s.mending = t.mending

theorem abreast_onMending {α : Type} {noDisclaimer : Bool} (program : Mend α) :
    Abreast Eq (Reordered noDisclaimer) FailedEqually (onMending program) (onMending program) := by
  intro s t related
  unfold onMending
  rw [← related.mending]
  cases program s.mending with
  | ok a mending => exact .returned rfl ⟨rfl, related.size, related.declarations⟩
  | error e mending => exact .thrown ⟨rfl, rfl⟩

theorem abreast_weaken {α : Type} {noDisclaimer : Bool} {program other : Engine α}
    (abreast : Abreast Eq (Reordered noDisclaimer) FailedEqually program other) :
    Abreast Eq (Reordered noDisclaimer) FailedAlike program other := by
  intro s t related
  have ended := abreast s t related
  generalize program s = here, other t = there at ended
  cases ended with
  | returned value after => exact .returned value after
  | thrown failed => exact .thrown failed.2

theorem rewriteMendfile_failed (surroundings : Surroundings) (invocation : CMenderInvocation) {error : JavaException}
    (failed : (s.mending.table.writeSymbolDecls (surroundings.order iteration)).failure = some error) :
    ∃ mendfile, rewriteMendfile surroundings invocation iteration s = .error error { s with mendfile := mendfile } := by
  refine ⟨(writeMendfile surroundings.buffering (surroundings.order iteration) invocation.noDisclaimer
    s.mending.table s.mendfile).content, ?_⟩
  simp only [rewriteMendfile, bind_error, get_error, set_error, raise_error, get_ok, set_ok, writeMendfile_failure]
  refine .inr ⟨s, s, ⟨rfl, rfl⟩, .inr ⟨(), _, rfl, ?_, rfl⟩⟩
  rw [failed]

/-- The two writes go through together, and leave two mendfiles of one table. -/
theorem abreast_rewriteMendfile :
    Abreast Eq (Reordered invocation.noDisclaimer) FailedAlike (rewriteMendfile surroundings invocation iteration)
      (rewriteMendfile (surroundings.reordered order buffering) invocation iteration) := by
  intro s t related
  have tables : s.mending.table = t.mending.table := congrArg _ related.mending
  cases failure : (s.mending.table.writeSymbolDecls (surroundings.order iteration)).failure with
  | none =>
    obtain ⟨again, permuted⟩ := MendingTable.writeSymbolDecls_perm failure (order iteration)
    have returned : rewriteMendfile surroundings invocation iteration s = .ok () _ :=
      rewriteMendfile_ok.mpr ⟨failure, rfl⟩
    have returnedAgain : rewriteMendfile (surroundings.reordered order buffering) invocation iteration t = .ok () _ :=
      rewriteMendfile_ok.mpr ⟨tables ▸ again, rfl⟩
    rw [returned, returnedAgain]
    refine .returned rfl ⟨related.mending, ?_, s.mending.table, ⟨_, failure, .inl rfl⟩, ⟨_, again, .inl ?_⟩⟩
    · rw [← tables]
      exact size_of_perm permuted
    · rw [tables]
      rfl
  | some error =>
    cases failureAgain : (t.mending.table.writeSymbolDecls (order iteration)).failure with
    | none =>
      have contrary := (MendingTable.writeSymbolDecls_failure_iff _ _ (surroundings.order iteration)).mp failureAgain
      rw [← tables, failure] at contrary
      cases contrary
    | some errorAgain =>
      obtain ⟨_, thrown⟩ := rewriteMendfile_failed surroundings invocation failure
      obtain ⟨_, thrownAgain⟩ := rewriteMendfile_failed (surroundings.reordered order buffering) invocation
        failureAgain
      rw [thrown, thrownAgain]
      exact .thrown related.mending

theorem abreast_mendSelected (sourceResult : DiagExporterSourceResult) :
    Abreast Eq (Reordered invocation.noDisclaimer) FailedAlike
      (mendSelected surroundings invocation iteration sourceResult)
      (mendSelected (surroundings.reordered order buffering) invocation iteration sourceResult) := by
  unfold mendSelected
  refine .bind (abreast_raise _ fun _ _ _ related => related.mending) ?_
  rintro idxs _ rfl
  refine .bind (abreast_raise _ fun _ _ _ related => related.mending) ?_
  rintro batch _ rfl
  refine .bind (abreast_weaken (abreast_onMending _)) ?_
  rintro _ _ rfl
  split
  · exact abreast_pure rfl
  · exact .bind abreast_rewriteMendfile fun _ _ _ => abreast_pure rfl

theorem abreast_processDiagnostics (sourceResult : DiagExporterSourceResult) :
    Abreast Eq (Reordered invocation.noDisclaimer) FailedAlike
      (processDiagnostics surroundings invocation iteration sourceResult)
      (processDiagnostics (surroundings.reordered order buffering) invocation iteration sourceResult) := by
  unfold processDiagnostics
  refine .bind (abreast_weaken (abreast_onMending _)) ?_
  rintro termination _ rfl
  refine .bind abreast_get ?_
  intro before beforeAgain related
  refine .bind (abreast_weaken (abreast_onMending _)) ?_
  rintro _ _ rfl
  rw [related.size]
  split
  · exact abreast_pure rfl
  · refine .bind (abreast_mendSelected sourceResult) ?_
    rintro idxs _ rfl
    exact abreast_pure rfl

theorem abreast_callDiagExporter (reads : ReadsDeclarations invocation.noDisclaimer surroundings) :
    Abreast Eq (Reordered invocation.noDisclaimer) FailedEqually (callDiagExporter surroundings iteration)
      (callDiagExporter (surroundings.reordered order buffering) iteration) := by
  unfold callDiagExporter
  refine .bind abreast_get ?_
  intro before beforeAgain related
  have same : surroundings.exporter iteration before =
      (surroundings.reordered order buffering).exporter iteration beforeAgain :=
    reads _ _ _ _ related.declarations (congrArg _ related.mending)
  rw [← same]
  cases surroundings.exporter iteration before with
  | ok results => exact abreast_pure rfl
  | error failure =>
    cases failure with
    | run => exact fun s t related => .thrown ⟨rfl, related.mending⟩
    | deserialization => exact fun s t related => .thrown ⟨rfl, related.mending⟩

theorem abreast_mendingIteration (reads : ReadsDeclarations invocation.noDisclaimer surroundings)
    (order : Nat → IterationOrder) (buffering : Buffering) (iteration : Nat) :
    Abreast Eq (Reordered invocation.noDisclaimer) FailedEqually (mendingIteration surroundings invocation iteration)
      (mendingIteration (surroundings.reordered order buffering) invocation iteration) := by
  unfold mendingIteration
  refine .bind (abreast_callDiagExporter reads) ?_
  rintro sourceResults _ rfl
  refine .bind (abreast_raise _ fun _ _ _ related => ⟨rfl, related.mending⟩) ?_
  rintro sourceResult _ rfl
  refine .bind (abreast_onMending _) ?_
  rintro _ _ rfl
  exact (abreast_processDiagnostics sourceResult).rethrow fun _ _ _ _ failed => ⟨rfl, failed⟩

end Iterations

section Runs
variable {surroundings : Surroundings} {invocation : CMenderInvocation} {order : Nat → IterationOrder}
  {buffering : Buffering} {noDisclaimer : Bool}

/-- Two loops in the same round, with nothing but their files apart. -/
def SideBySide (noDisclaimer : Bool) (s t : LoopState) : Prop :=
  ∃ engine, Reordered noDisclaimer s.engine engine ∧ t = { s with engine := engine }

/-- Two ends that tell the same: the report is the same, and so is the table. Only what a
fatal exception leaves of the mendfile may differ. -/
structure EndedAlike (noDisclaimer : Bool) (outcome other : MendOutcome) : Prop where
  result : outcome.result = other.result
  iterations : outcome.iterations = other.iterations
  mending : outcome.engine.mending = other.engine.mending
  mendfile : ∀ result, outcome.result = .ok result → result.fatalException = none →
    Reordered noDisclaimer outcome.engine other.engine

theorem SideBySide.ended {s t : LoopState} (beside : SideBySide noDisclaimer s t) (timeout : Bool) :
    EndedAlike noDisclaimer ⟨s.engine, s.currentIteration, .ok (s.sourceResult timeout)⟩
      ⟨t.engine, t.currentIteration, .ok (t.sourceResult timeout)⟩ := by
  obtain ⟨engine, related, rfl⟩ := beside
  refine ⟨?_, rfl, related.mending, fun _ _ _ => related⟩
  simp only [LoopState.sourceResult, related.mending]

theorem SideBySide.step (reads : ReadsDeclarations invocation.noDisclaimer surroundings)
    (order : Nat → IterationOrder) (buffering : Buffering) {s t : LoopState}
    (beside : SideBySide invocation.noDisclaimer s t) :
    Sum.LiftRel (SideBySide invocation.noDisclaimer) (EndedAlike invocation.noDisclaimer)
      (loopStep surroundings invocation s) (loopStep (surroundings.reordered order buffering) invocation t) := by
  have stoppedEnd := beside.ended false
  have timeoutEnd := beside.ended true
  obtain ⟨engine, related, rfl⟩ := beside
  have iterated := abreast_mendingIteration reads order buffering (s.currentIteration + 1) s.engine engine related
  have clock : (surroundings.reordered order buffering).timedOut = surroundings.timedOut := rfl
  unfold loopStep
  dsimp only
  rw [clock]
  cases s.finished || s.detectedLoop with
  | true => exact .inr stoppedEnd
  | false =>
    cases surroundings.timedOut s.currentIteration with
    | true => exact .inr timeoutEnd
    | false =>
      simp only [Bool.false_eq_true, if_false]
      generalize mendingIteration surroundings invocation (s.currentIteration + 1) s.engine = here,
        mendingIteration (surroundings.reordered order buffering) invocation (s.currentIteration + 1) engine = there
        at iterated ⊢
      cases iterated with
      | @returned result _ after afterAgain value later =>
        subst value
        dsimp only
        rw [← later.mending]
        cases after.mending.table.unknownDiags.foldlM countUnknownDiag s.unknownDiagsFrequency with
        | error error => exact .inr ⟨rfl, rfl, later.mending, fun _ returned => nomatch returned⟩
        | ok frequency => exact .inl ⟨afterAgain, later, rfl⟩
      | @thrown e _ after afterAgain failed =>
        obtain ⟨rfl, same⟩ := failed
        cases e with
        | fatal type message iteration =>
          refine .inr ⟨?_, rfl, same, ?_⟩
          · simp only [LoopState.sourceResult, same]
          · rintro result returned uneventful
            cases returned
            cases uneventful
        | _ => exact .inr ⟨rfl, rfl, same, fun _ returned => nomatch returned⟩

theorem sideBySide_refl (noDisclaimer : Bool) (names : MendingTypeNameGenerator) (files : FileSystem)
    (frequency : Map String Nat) :
    SideBySide noDisclaimer (.initial names files frequency) (.initial names files frequency) :=
  ⟨_, ⟨rfl, rfl, .empty, writtenFrom_empty _, writtenFrom_empty _⟩, rfl⟩

/-- Whatever the orders hash maps are iterated in, and whatever the buffers pass on, a run
takes the same number of iterations and ends with the same report and the same table. -/
theorem runs_end_alike_in_any_order (surroundings : Surroundings) (invocation : CMenderInvocation)
    (reads : ReadsDeclarations invocation.noDisclaimer surroundings) (order : Nat → IterationOrder)
    (buffering : Buffering) (names : MendingTypeNameGenerator) (files : FileSystem) (frequency : Map String Nat)
    (fuel : Nat) :
    Option.Rel (EndedAlike invocation.noDisclaimer)
      (mendLoop surroundings invocation fuel (.initial names files frequency))
      (mendLoop (surroundings.reordered order buffering) invocation fuel (.initial names files frequency)) :=
  iterate_abreast (fun _ _ beside => beside.step reads order buffering) fuel
    (sideBySide_refl invocation.noDisclaimer names files frequency)

theorem runs_end_alike_backwards : ∃ outcome other,
    mendLoop (.repeating [undeclaredVariable 1 "x", undeclaredVariable 2 "y"])
      ⟨.basicMultipleErrors, false, false, true⟩ 3 (.initial .start .empty .empty) = some outcome ∧
    mendLoop (Surroundings.reordered (.repeating [undeclaredVariable 1 "x", undeclaredVariable 2 "y"])
      (fun _ => .reversed) .unbounded) ⟨.basicMultipleErrors, false, false, true⟩ 3 (.initial .start .empty .empty) =
        some other ∧
    EndedAlike true outcome other ∧ outcome.engine.mendfile ≠ other.engine.mendfile := by
  have alike := runs_end_alike_in_any_order (.repeating [undeclaredVariable 1 "x", undeclaredVariable 2 "y"])
    ⟨.basicMultipleErrors, false, false, true⟩ (fun _ _ _ _ _ _ => rfl) (fun _ => .reversed) .unbounded .start .empty
    .empty 3
  refine ⟨_, _, rfl, rfl, ?_, by decide +kernel⟩
  cases alike with
  | some alike => exact alike

end Runs
end CMender
