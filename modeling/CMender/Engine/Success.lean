import CMender.Analysis.Messages
import CMender.Engine.Unchanged
import CMender.Mending.Supply

/-! When mending succeeds. A source whose only errors are things that are not declared is
mended with every analysis: whichever of them the compiler reports, each iteration supplies
what it hands over, nothing that is there goes away again, and so the number of things that
are missing bounds the iterations. -/
namespace CMender
open Foundations Foundations.Execution Foundations.Looping MendingState

/-- A compiler's way of saying that something is missing, at a place. -/
structure Frontend where
  message : Missing → String
  diagnose : Int → Missing → Diagnostic
  message_injective : ∀ what other, message what = message other → what = other
  describes : ∀ place what, (diagnose place what).message = message what
  reports : ∀ place what, Reports (diagnose place what) what
  located : ∀ place what, (diagnose place what).Located
  isError : ∀ place what, (diagnose place what).isErrorOrFatal = true
  carries : ∀ place what, (diagnose place what).CarriesIdentifier

/-- What a source uses, and where. -/
abbrev Source := List (Int × Use)

namespace Frontend

/-- What the uses miss first, with the diagnostics for it. -/
def missing (frontend : Frontend) (includePath : String) (s : MendingState) (source : Source) :
    List (Diagnostic × Missing) :=
  source.filterMap fun (place, use) =>
    match resolve includePath s use with
    | .missing what _ => some (frontend.diagnose place what, what)
    | _ => none

/-- A report about a source: its errors are some of those that there are, in order, and at
least one if there is any; the other diagnostics are of no concern. -/
structure Describes (missing : List (Diagnostic × Missing)) (sourceResult : DiagExporterSourceResult) : Prop where
  errors : (sourceResult.diags.filter Diagnostic.isErrorOrFatal).Sublist (missing.map Prod.fst)
  anyError : missing ≠ [] → ∃ diag ∈ sourceResult.diags, diag.isErrorOrFatal = true
  counts : sourceResult.CountsAgree
  others : ∀ diag ∈ sourceResult.diags, diag.isErrorOrFatal = false → diag.diagnosticID = .unknown

/-- The exporter runs this compiler on the source and the mendfile. What is used as a record
has to be one. -/
def Compiles (frontend : Frontend) (source : Source) (surroundings : Surroundings) (noDisclaimer : Bool) : Prop :=
  ∀ iteration s, OnDisk noDisclaimer s →
    (∀ place use, (place, use) ∈ source → resolve surroundings.includePath s.mending use ≠ .unusable) →
    ∃ sourceResult, Answers surroundings iteration s sourceResult ∧
      Describes (frontend.missing surroundings.includePath s.mending source) sourceResult

end Frontend

/-- How many declarations a source needs, and how many of them are not there. -/
def Source.size (source : Source) : Nat := (source.map fun (_, use) => use.size).sum

def Source.left (source : Source) (includePath : String) (s : MendingState) : Nat :=
  (source.map fun (_, use) => (resolve includePath s use).left).sum

def Use.Named (setting : Setting) : Use → Prop
  | .header text => text ∈ setting.headers
  | .typename name => MendingTypeNameGenerator.isGeneratedTypedefAliasName name = false
  | .tag name => MendingTypeNameGenerator.isGeneratedTagTypeName name = false
  | _ => True

section Uses
variable {setting : Setting} {frontend : Frontend} {includePath : String} {s t : MendingState} {use : Use}
  {what : Missing} {left : Nat} {source : Source} {place : Int} {diag : Diagnostic}

theorem Frontend.mem_missing : (diag, what) ∈ frontend.missing includePath s source ↔
    ∃ place use left, (place, use) ∈ source ∧ resolve includePath s use = .missing what left ∧
      diag = frontend.diagnose place what := by
  simp only [missing, List.mem_filterMap, Prod.exists]
  constructor
  · rintro ⟨place, use, listed, found⟩
    split at found
    · rename_i what left resolved
      cases found
      exact ⟨place, use, left, listed, resolved, rfl⟩
    · cases found
  · rintro ⟨place, use, left, listed, resolved, rfl⟩
    exact ⟨place, use, listed, by rw [resolved]⟩

theorem named_of_missing (named : use.Named setting) (resolved : resolve includePath s use = .missing what left) :
    what.Named setting := by
  cases use with
  | header text | typename name | tag name | call name =>
    obtain ⟨_, rfl, _⟩ := Resolution.ofKnown_missing.mp resolved
    exact named
  | access name members =>
    rw [resolve] at resolved
    split at resolved
    · cases resolved
      trivial
    · obtain ⟨name, tag, record, rfl, _⟩ := resolveMembers_missing resolved
      trivial

/-- Variables and members are records, all the way down. -/
theorem MendingTable.Plain.usable {table : MendingTable} {first next : Nat} (plain : table.Plain first next)
    {type : Ref TypedefType} (isRecord : ∃ place, table.recordOf type = some place) (members : List String) :
    table.resolveMembers type members ≠ .unusable := by
  induction members generalizing type with
  | nil => exact Resolution.noConfusion
  | cons name rest ih =>
    obtain ⟨⟨tag, record⟩, found⟩ := isRecord
    simp only [MendingTable.resolveMembers, found]
    cases named : table.memberNamed record name with
    | none => exact Resolution.noConfusion
    | some member =>
      obtain ⟨inner, other, place, _⟩ := plain.members tag record (recordOf_lookup found) member
        (List.mem_of_find?_eq_some named)
      exact ih ⟨_, place⟩

theorem Tidy.usable (tidy : Tidy setting s) (use : Use) : resolve includePath s use ≠ .unusable := by
  have known {isDeclared : Bool} {what : Missing} : Resolution.ofKnown isDeclared what ≠ .unusable := by
    cases isDeclared <;> exact Resolution.noConfusion
  cases use with
  | access name members =>
    rw [resolve]
    split
    · exact Resolution.noConfusion
    · rename_i symbol found
      exact tidy.plain.usable (tidy.plain.variableNames name symbol found) members
  | _ => exact known

theorem declared_of_left (usable : resolve includePath s use ≠ .unusable)
    (nothing : (resolve includePath s use).left = 0) : resolve includePath s use = .declared := by
  cases resolved : resolve includePath s use with
  | declared => rfl
  | missing what left =>
    rw [resolved] at nothing
    have := left_pos resolved
    exact absurd nothing (by simp only [Resolution.left]; omega)
  | unusable => exact absurd resolved usable

/-- Every use that gets what it misses counts for one. -/
theorem Source.left_add_length_le (grown : Extends s t) (formed : s.table.WellFormed)
    (usable : ∀ place use, (place, use) ∈ source → resolve includePath s use ≠ .unusable)
    {batch : List (Diagnostic × Missing)} (chosen : batch.Sublist (frontend.missing includePath s source))
    (supplied : ∀ diag what, (diag, what) ∈ batch → Supplied includePath t what) :
    source.left includePath t + batch.length ≤ source.left includePath s := by
  induction source generalizing batch with
  | nil =>
    obtain rfl := List.sublist_nil.mp chosen
    exact Nat.le_refl _
  | cons first rest ih =>
    obtain ⟨place, use⟩ := first
    have behind : ∀ place use, (place, use) ∈ rest → resolve includePath s use ≠ .unusable :=
      fun place use listed => usable place use (List.mem_cons_of_mem _ listed)
    have own : (resolve includePath t use).left ≤ (resolve includePath s use).left :=
      grown.left_le formed (usable place use List.mem_cons_self)
    simp only [Source.left, List.map_cons, List.sum_cons] at ih ⊢
    cases resolved : resolve includePath s use with
    | missing what left =>
      have listed : frontend.missing includePath s ((place, use) :: rest) =
          (frontend.diagnose place what, what) :: frontend.missing includePath s rest := by
        simp only [Frontend.missing, List.filterMap_cons, resolved]
      rw [listed] at chosen
      rcases List.sublist_cons_iff.mp chosen with later | ⟨others, rfl, later⟩
      · have := ih behind later supplied
        rw [resolved] at own
        omega
      · have less := grown.left_lt formed resolved (supplied _ _ List.mem_cons_self)
        have := ih behind later fun diag what listed => supplied diag what (List.mem_cons_of_mem _ listed)
        have one : (Resolution.missing what left).left = left := rfl
        rw [List.length_cons]
        omega
    | declared | unusable =>
      have skipped : frontend.missing includePath s ((place, use) :: rest) = frontend.missing includePath s rest := by
        simp only [Frontend.missing, List.filterMap_cons, resolved]
      rw [skipped] at chosen
      have := ih behind chosen supplied
      rw [resolved] at own
      omega

theorem Source.length_missing_le : (frontend.missing includePath s source).length ≤ source.left includePath s := by
  induction source with
  | nil => exact Nat.le_refl _
  | cons first rest ih =>
    obtain ⟨place, use⟩ := first
    simp only [Source.left, List.map_cons, List.sum_cons, Frontend.missing, List.filterMap_cons] at ih ⊢
    cases resolved : resolve includePath s use with
    | missing what left =>
      have positive := left_pos resolved
      have one : (Resolution.missing what left).left = left := rfl
      rw [List.length_cons]
      omega
    | declared | unusable => exact ih.trans (Nat.le_add_left _ _)

end Uses

section Bookkeeping
variable {setting : Setting} {includePath : String} {s t : MendingState} {what : Missing}

theorem Bookkept.extends (kept : Bookkept s t) : Extends s t := by
  obtain ⟨_, _, _, rfl⟩ := kept
  exact ⟨⟨fun _ => id, fun _ => id, fun _ _ => id, fun _ _ => id, fun _ _ _ => List.prefix_rfl,
    fun _ allocated => ⟨rfl, allocated⟩⟩, fun _ => id⟩

theorem Bookkept.lacks (kept : Bookkept s t) (lacks : Lacks includePath s what) : Lacks includePath t what := by
  obtain ⟨_, _, _, rfl⟩ := kept
  cases what <;> exact lacks

theorem Tidy.bookkept (tidy : Tidy setting s) (kept : Bookkept s t) : Tidy setting t := by
  obtain ⟨_, _, _, rfl⟩ := kept
  obtain ⟨⟨formed, low, owned⟩, plain, lowTag, noted, sprouted⟩ := tidy
  obtain ⟨typedefs, types, ownedTypes, records, variableTypes, functionTypes, memberTypes, subscripts⟩ := formed
  refine ⟨⟨⟨typedefs, types, ownedTypes, records, variableTypes, functionTypes, memberTypes, subscripts⟩, low, ?_⟩,
    ⟨plain.definitions, plain.tags, plain.variableNames, plain.members, plain.functions⟩, lowTag, noted, sprouted⟩
  exact owned.kept (fun _ _ declared => declared.of_same rfl rfl rfl rfl) fun _ _ _ _ _ owns => owns

theorem Bookkept.counts (kept : Bookkept s t) : t.tagCount = s.tagCount ∧ t.aliasCount = s.aliasCount := by
  obtain ⟨_, _, _, rfl⟩ := kept
  exact ⟨rfl, rfl⟩

end Bookkeeping

section Reporting
variable {frontend : Frontend} {includePath : String} {s : MendingState} {source : Source} {diag : Diagnostic}
  {what : Missing} {missing : List (Diagnostic × Missing)} {sourceResult : DiagExporterSourceResult}

theorem Reports.known (reports : Reports diag what) : diag.diagnosticID ≠ .unknown := by
  cases what with
  | header text | function name | member name tag =>
    rw [reports.1]
    decide
  | typename name =>
    rcases declaresTypedef_iff.mp reports.1 with id | id <;> rw [id] <;> decide
  | tag name =>
    rcases definesTag_iff.mp reports.1 with id | id <;> rw [id] <;> decide
  | «variable» name =>
    rcases declaresVariable_iff.mp reports.1 with id | id <;> rw [id] <;> decide

theorem carriesIdentifier_of_unknown (unknown : diag.diagnosticID = .unknown) : diag.CarriesIdentifier := by
  have never {id : DiagnosticID} (listed : id ≠ .unknown) : diag.hasID id = false := by
    refine Bool.eq_false_iff.mpr fun same => ?_
    have found := (DiagnosticID.fromIntID_iff listed).mpr (beq_iff_eq.mp same)
    exact listed (found.symm.trans unknown)
  constructor
  · intro is
    rw [never (by decide)] at is
    cases is
  · intro is
    rw [never (by decide)] at is
    cases is
  · intro is
    rw [isUnknownTypename, never (by decide), never (by decide)] at is
    cases is
  · intro is
    rw [isIncompleteTag, never (by decide), never (by decide)] at is
    cases is

/-- Only errors are asked for their location. -/
theorem firstErrorOrFatalIn_errors (sourceFile : String) {diags : List Diagnostic}
    (located : ∀ diag ∈ diags, diag.isErrorOrFatal = true → diag.Located) :
    ∃ found, DiagExporterSourceResult.firstErrorOrFatalIn sourceFile diags = .ok found := by
  induction diags with
  | nil => exact ⟨none, rfl⟩
  | cons head rest ih =>
    obtain ⟨found, later⟩ := ih fun diag member => located diag (List.mem_cons_of_mem _ member)
    unfold DiagExporterSourceResult.firstErrorOrFatalIn
    split
    · rename_i isError
      obtain ⟨location, reported⟩ := Option.isSome_iff_exists.mp (located head List.mem_cons_self isError)
      rw [reported]
      by_cases same : (location.file == sourceFile) = true
      · exact ⟨some head, by simp [nonNull, orThrow, bind, Except.bind, same, pure, Except.pure]⟩
      · exact ⟨found, by simp [nonNull, orThrow, bind, Except.bind, same, later]⟩
    · exact ⟨found, later⟩

namespace Frontend.Describes

theorem of_error (describes : Describes missing sourceResult) (listed : diag ∈ sourceResult.diags)
    (isError : diag.isErrorOrFatal = true) : ∃ what, (diag, what) ∈ missing := by
  have member := describes.errors.subset (List.mem_filter.mpr ⟨listed, isError⟩)
  obtain ⟨⟨_, what⟩, found, rfl⟩ := List.mem_map.mp member
  exact ⟨what, found⟩

theorem done (describes : Describes [] sourceResult) : sourceResult.hasErrorsOrFatals = false := by
  rw [describes.counts, List.any_eq_false]
  intro diag listed isError
  obtain ⟨what, member⟩ := describes.of_error listed isError
  cases member

/-- The first error is there, and it is about something missing. -/
theorem first (describes : Describes missing sourceResult) (something : missing ≠ []) :
    sourceResult.hasErrorsOrFatals = true ∧ ∃ idx firstError what, sourceResult.getFirstOrFatalIdx = some idx ∧
      sourceResult.diags[idx]? = some firstError ∧ (firstError, what) ∈ missing := by
  obtain ⟨diag, listed, isError⟩ := describes.anyError something
  refine ⟨describes.counts.trans (List.any_eq_true.mpr ⟨diag, listed, isError⟩), ?_⟩
  obtain ⟨idx, found⟩ := Option.isSome_iff_exists.mp
    (List.findIdx?_isSome.trans (List.any_eq_true.mpr ⟨diag, listed, isError⟩))
  obtain ⟨inside, isFirst, _⟩ := List.findIdx?_eq_some_iff_getElem.mp found
  obtain ⟨what, member⟩ := describes.of_error (List.getElem_mem inside) isFirst
  exact ⟨idx, _, what, found, List.getElem?_eq_getElem inside, member⟩

theorem carries (describes : Describes (frontend.missing includePath s source) sourceResult) :
    ∀ diag ∈ sourceResult.diags, diag.CarriesIdentifier := by
  intro diag listed
  cases isError : diag.isErrorOrFatal with
  | false => exact carriesIdentifier_of_unknown (describes.others diag listed isError)
  | true =>
    obtain ⟨what, member⟩ := describes.of_error listed isError
    obtain ⟨place, _, _, _, _, rfl⟩ := mem_missing.mp member
    exact frontend.carries place what

/-- The batch is about different things that are missing, whichever analysis selects it. -/
theorem batch (describes : Describes (frontend.missing includePath s source) sourceResult)
    (something : frontend.missing includePath s source ≠ []) (analysis : DiagnosticAnalysis) :
    ∃ idxs batch, analysis.selectDiagnostics sourceResult = .ok idxs ∧
      idxs.mapM (getAt sourceResult.diags) = .ok (batch.map Prod.fst) ∧ batch ≠ [] ∧
      batch.Sublist (frontend.missing includePath s source) ∧ (batch.map Prod.snd).Nodup := by
  obtain ⟨_, idx, _, _, found, _⟩ := describes.first something
  obtain ⟨idxs, diags, selected, collected, handedOver⟩ :=
    selects_handedOver (Option.isSome_iff_exists.mpr ⟨idx, found⟩) describes.carries analysis
  have errors : ∀ diag ∈ diags, diag.isErrorOrFatal = true := by
    intro diag listed
    rcases handedOver.known diag listed with isError | known
    · exact isError
    · by_contra harmless
      exact known (describes.others diag (handedOver.ordered.subset listed) (Bool.eq_false_iff.mpr harmless))
  have chosen : diags.Sublist ((frontend.missing includePath s source).map Prod.fst) := by
    rw [← List.filter_eq_self.mpr errors]
    exact (handedOver.ordered.filter _).trans describes.errors
  obtain ⟨batch, shorter, rfl⟩ := List.sublist_map_iff.mp chosen
  refine ⟨idxs, batch, selected, collected, fun none => handedOver.nonempty (by rw [none]; rfl), shorter, ?_⟩
  -- One thing is always reported with one message.
  have messages : (batch.map Prod.fst).map Diagnostic.message = (batch.map Prod.snd).map frontend.message := by
    simp only [List.map_map]
    refine List.map_congr_left fun ⟨diag, what⟩ listed => ?_
    obtain ⟨place, _, _, _, _, rfl⟩ := mem_missing.mp (shorter.subset listed)
    exact frontend.describes place what
  have different := handedOver.messages
  rw [messages] at different
  exact different.of_map _

end Frontend.Describes
end Reporting

/-- Mending goes on: all that was handled is there, and there are names and iterations for
all that is missing. -/
structure Underway (setting : Setting) (frontend : Frontend) (source : Source) (noDisclaimer : Bool)
    (s : LoopState) : Prop where
  running : s.stopped = false
  tidy : Tidy setting s.engine.mending
  onDisk : OnDisk noDisclaimer s.engine
  supplied : ∀ diag ∈ s.handled, ∃ place what, diag = frontend.diagnose place what ∧
    Supplied setting.includePath s.engine.mending what
  unknowns : s.unknownDiags = []
  room : Room setting s.engine.mending (source.left setting.includePath s.engine.mending)
  count : s.currentIteration + source.left setting.includePath s.engine.mending ≤ source.size

/-- Mending is over, and nothing is missing. -/
structure Mended (setting : Setting) (source : Source) (noDisclaimer : Bool) (s : LoopState) : Prop where
  stopped : s.stopped = true
  success : s.success = true
  onDisk : OnDisk noDisclaimer s.engine
  declared : ∀ place use, (place, use) ∈ source → resolve setting.includePath s.engine.mending use = .declared
  count : s.currentIteration ≤ source.size + 1

section Rounds
variable {setting : Setting} {frontend : Frontend} {source : Source} {surroundings : Surroundings}
  {invocation : CMenderInvocation} {s : LoopState} {sourceResult : DiagExporterSourceResult}

theorem Underway.finish (underway : Underway setting frontend source invocation.noDisclaimer s)
    (inTime : surroundings.timedOut s.currentIteration = false)
    (answers : Answers surroundings (s.currentIteration + 1) s.engine sourceResult)
    (nothing : frontend.missing setting.includePath s.engine.mending source = [])
    (describes : Frontend.Describes [] sourceResult) :
    ∃ next, loopStep surroundings invocation s = .inl next ∧
      Mended setting source invocation.noDisclaimer next := by
  let sized := s.engine.mending.withTable fun table => { table with fileSize := sourceResult.size }
  have kept : Bookkept s.engine.mending sized := bookkept_fileSize _ _
  have checked := checkTermination_of_none describes.done surroundings.sourceFile sized
  let result : MendingIterationResult := ⟨⟨.noMoreErrorsOrFatals, ⟨1, 1⟩, []⟩, [], sourceResult.errorCount,
    sourceResult.fatalCount, s.engine.mendfile.utf8ByteSize⟩
  have iterated : mendingIteration surroundings invocation (s.currentIteration + 1) s.engine =
      .ok result { s.engine with mending := sized } :=
    mendingIteration_iff.mpr ⟨sourceResult, answers, processDiagnostics_iff.mpr
      ⟨sized, sized, checked, rfl, ⟨rfl, rfl, rfl⟩, .inl ⟨rfl, rfl, rfl⟩⟩⟩
  have counted : sized.table.unknownDiags.foldlM countUnknownDiag s.unknownDiagsFrequency =
      .ok s.unknownDiagsFrequency := by
    rw [show sized.table.unknownDiags = [] from underway.unknowns]
    rfl
  refine ⟨_, loopStep_inl_iff.mpr ⟨underway.running, inTime, result, _, _, iterated, counted, rfl⟩, rfl, rfl,
    underway.onDisk.bookkept kept, ?_, ?_⟩
  · intro place use listed
    have usable : resolve setting.includePath s.engine.mending use ≠ .unusable := underway.tidy.usable use
    have here : (resolve setting.includePath s.engine.mending use).left = 0 := by
      cases resolved : resolve setting.includePath s.engine.mending use with
      | missing what left =>
        have member : (frontend.diagnose place what, what) ∈
            frontend.missing setting.includePath s.engine.mending source :=
          Frontend.mem_missing.mpr ⟨place, use, left, listed, resolved, rfl⟩
        rw [nothing] at member
        cases member
      | _ => rfl
    have later := kept.extends.left_le underway.tidy.since.formed usable
    refine declared_of_left ((underway.tidy.bookkept kept).usable use) ?_
    exact Nat.le_zero.mp (here ▸ later)
  · have := underway.count
    change s.currentIteration + 1 ≤ source.size + 1
    omega

/-- What is missing was not reported before. -/
theorem Underway.fresh (underway : Underway setting frontend source invocation.noDisclaimer s) {place : Int}
    {what : Missing} (absent : ¬ Supplied setting.includePath s.engine.mending what) :
    containsDiagnostic (frontend.diagnose place what) s.handled = .ok false := by
  obtain ⟨key, own⟩ := Diagnostic.located_iff.mp (frontend.located place what)
  rw [containsDiagnostic_of_key own, Except.ok.injEq, List.any_eq_false]
  intro other listed same
  obtain ⟨otherPlace, otherWhat, rfl, supplied⟩ := underway.supplied other listed
  have message {place what} {key : DiagnosticKey} (own : (frontend.diagnose place what).key = some key) :
      frontend.message what = key.message := by
    obtain ⟨location, _, rfl⟩ := Option.map_eq_some_iff.mp own
    exact (frontend.describes place what).symm
  obtain rfl : otherWhat = what := frontend.message_injective _ _
    ((message (of_decide_eq_true same)).trans (message own).symm)
  exact absent supplied

/-- The check finds a first error that is known and new. -/
theorem Underway.check (underway : Underway setting frontend source invocation.noDisclaimer s)
    (something : frontend.missing setting.includePath s.engine.mending source ≠ [])
    (describes : Frontend.Describes (frontend.missing setting.includePath s.engine.mending source) sourceResult)
    {between : MendingState} (kept : Bookkept s.engine.mending between) (sourceFile : String) :
    ∃ progress checked, checkTermination sourceResult sourceFile between =
      .ok ⟨.noTermination, progress, []⟩ checked ∧ Bookkept s.engine.mending checked := by
  obtain ⟨errors, idx, firstError, what, found, present, member⟩ := describes.first something
  obtain ⟨place, use, left, _, resolved, rfl⟩ := Frontend.mem_missing.mp member
  have contained : containsDiagnostic (frontend.diagnose place what) between.handled = .ok false := by
    rw [kept.handled]
    exact underway.fresh (resolve_missing resolved).2
  obtain ⟨inSource, searched⟩ : ∃ inSource, sourceResult.getFirstErrorOrFatalInSource sourceFile = .ok inSource := by
    apply firstErrorOrFatalIn_errors
    intro diag listed isError
    obtain ⟨_, member⟩ := describes.of_error listed isError
    obtain ⟨_, _, _, _, _, rfl⟩ := Frontend.mem_missing.mp member
    exact frontend.located _ _
  have known : (frontend.diagnose place what).diagnosticID.isUnknown = false := by
    simpa [DiagnosticID.isUnknown] using (frontend.reports place what).known
  have checked := checkTermination_iff.mpr (.inr ⟨errors, idx, _, inSource, false, found, present, searched, contained,
    (statusOf_known known).symm, rfl⟩)
  exact ⟨_, _, checked, kept.trans (bookkept_checkTermination.returned checked)⟩

/-- A batch has been handled: all of it is there, and less is missing. -/
structure BatchMended (setting : Setting) (frontend : Frontend) (source : Source) (s between mending : MendingState)
    (batch : List (Diagnostic × Missing)) : Prop where
  ran : mend setting.includePath (batch.map Prod.fst) between = .ok () mending
  tidy : Tidy setting mending
  grown : Extends s mending
  supplied : ∀ diag what, (diag, what) ∈ batch → ∃ place, diag = frontend.diagnose place what ∧
    Supplied setting.includePath mending what
  less : source.left setting.includePath mending + batch.length ≤ source.left setting.includePath s
  room : Room setting mending (source.left setting.includePath mending)

theorem Underway.mendBatch (underway : Underway setting frontend source invocation.noDisclaimer s)
    (fit : setting.Fit) (named : ∀ place use, (place, use) ∈ source → use.Named setting)
    {between : MendingState} (kept : Bookkept s.engine.mending between) {batch : List (Diagnostic × Missing)}
    (chosen : batch.Sublist (frontend.missing setting.includePath s.engine.mending source))
    (once : (batch.map Prod.snd).Nodup) :
    ∃ mending, BatchMended setting frontend source s.engine.mending between mending batch := by
  obtain ⟨sameTags, sameAliases⟩ := kept.counts
  have roomTags := underway.room.tags
  have roomAliases := underway.room.aliases
  have few := chosen.length_le.trans Source.length_missing_le
  have room : Room setting between batch.length := ⟨by omega, by omega⟩
  have origin {diag what} (listed : (diag, what) ∈ batch) := Frontend.mem_missing.mp (chosen.subset listed)
  obtain ⟨mending, run, tidy, grown, supplied, tags, aliases⟩ := (underway.tidy.bookkept kept).batch fit room
    (fun diag what listed => by
      obtain ⟨place, _, _, _, _, rfl⟩ := origin listed
      exact frontend.reports place what)
    (fun diag what listed => by
      obtain ⟨place, use, _, used, resolved, _⟩ := origin listed
      exact named_of_missing (named place use used) resolved)
    (fun diag what listed => by
      obtain ⟨_, _, _, _, resolved, _⟩ := origin listed
      exact kept.lacks (resolve_missing resolved).1)
    once
  have grown := kept.extends.trans grown
  have less := Source.left_add_length_le grown underway.tidy.since.formed
    (fun _ use _ => underway.tidy.usable use) chosen supplied
  refine ⟨mending, mend_ok.mpr run, tidy, grown, fun diag what listed => ?_, less, ⟨by omega, by omega⟩⟩
  obtain ⟨place, _, _, _, _, rfl⟩ := origin listed
  exact ⟨place, rfl, supplied _ _ listed⟩

/-- An iteration with something missing supplies what it hands over. -/
theorem Underway.goOn (underway : Underway setting frontend source invocation.noDisclaimer s) (fit : setting.Fit)
    (path : surroundings.includePath = setting.includePath)
    (always : invocation.createMendfileOnlyOnAlterations = false)
    (named : ∀ place use, (place, use) ∈ source → use.Named setting)
    (inTime : surroundings.timedOut s.currentIteration = false)
    (answers : Answers surroundings (s.currentIteration + 1) s.engine sourceResult)
    (something : frontend.missing setting.includePath s.engine.mending source ≠ [])
    (describes : Frontend.Describes (frontend.missing setting.includePath s.engine.mending source) sourceResult) :
    ∃ next, loopStep surroundings invocation s = .inl next ∧
      Underway setting frontend source invocation.noDisclaimer next ∧
      source.left setting.includePath next.engine.mending < source.left setting.includePath s.engine.mending := by
  obtain ⟨progress, checked, terminated, kept⟩ :=
    underway.check something describes (bookkept_fileSize _ sourceResult.size) surroundings.sourceFile
  obtain ⟨idxs, batch, selected, collected, nonempty, chosen, once⟩ :=
    describes.batch something invocation.diagnosticAnalysis
  obtain ⟨mending, mended⟩ := underway.mendBatch fit named kept chosen once
  -- Whatever the order of the maps is, the table can be written.
  have written := mended.tidy.plain.written mended.tidy.since.owned (surroundings.order (s.currentIteration + 1))
  let engine : EngineState := ⟨mending, "".intercalate (mendfileWrites invocation.noDisclaimer
    (mending.table.writeSymbolDecls (surroundings.order (s.currentIteration + 1))).definitions)⟩
  have rewritten : Rewritten surroundings invocation (s.currentIteration + 1) s.engine.mendfile mending engine := by
    rw [Rewritten, if_neg (by rw [always]; decide)]
    exact ⟨written, rfl⟩
  let result : MendingIterationResult := ⟨⟨.noTermination, progress, []⟩, idxs, sourceResult.errorCount,
    sourceResult.fatalCount, s.engine.mendfile.utf8ByteSize⟩
  have goesOn : result.terminationStatus.stops invocation.continueOnUnknownDiagnostic = false :=
    MendingTerminationStatus.stops_eq_false.mpr (.inl rfl)
  have iterated : mendingIteration surroundings invocation (s.currentIteration + 1) s.engine = .ok result engine :=
    mendingIteration_iff.mpr ⟨sourceResult, answers, processDiagnostics_iff.mpr
      ⟨checked, checked, terminated, rfl, ⟨rfl, rfl, rfl⟩, .inr ⟨goesOn, mendSelected_iff.mpr
        ⟨_, mending, selected, collected, path ▸ mend_ok.mp mended.ran, rewritten⟩⟩⟩⟩
  have unknowns : mending.unknownDiags = [] := ((keepsUnknown_mend _).returned mended.ran).trans
    ((keepsUnknown_checkTermination.returned terminated).trans underway.unknowns)
  have counted : engine.mending.table.unknownDiags.foldlM countUnknownDiag s.unknownDiagsFrequency =
      .ok s.unknownDiagsFrequency := by
    rw [show engine.mending.table.unknownDiags = [] from unknowns]
    rfl
  have handled : mending.handled = s.handled ++ batch.map Prod.fst :=
    (mend_handled mended.ran).trans (congrArg (· ++ batch.map Prod.fst) kept.handled)
  have some : mending.handled ≠ [] := handled_ne_nil ⟨idxs, selected, collected⟩ (mend_ok.mp mended.ran)
  have less := mended.less
  have positive := List.length_pos_iff.mpr nonempty
  refine ⟨_, loopStep_inl_iff.mpr ⟨underway.running, inTime, result, engine, _, iterated, counted, rfl⟩,
    ⟨stopped_recorded.trans goesOn, mended.tidy, onDisk_of_rewritten always some rewritten, ?_, unknowns, mended.room,
      ?_⟩, ?_⟩
  · intro diag listed
    have listed : diag ∈ s.handled ++ batch.map Prod.fst := handled ▸ listed
    rcases List.mem_append.mp listed with old | new
    · obtain ⟨place, what, rfl, there⟩ := underway.supplied diag old
      exact ⟨place, what, rfl, mended.grown.supplied there⟩
    · obtain ⟨⟨_, what⟩, member, rfl⟩ := List.mem_map.mp new
      obtain ⟨place, same, there⟩ := mended.supplied _ what member
      exact ⟨place, what, same, there⟩
  · have := underway.count
    change s.currentIteration + 1 + source.left setting.includePath mending ≤ source.size
    omega
  · change source.left setting.includePath mending < _
    omega

theorem Underway.succeeds (fit : setting.Fit) (path : surroundings.includePath = setting.includePath)
    (always : invocation.createMendfileOnlyOnAlterations = false)
    (inTime : ∀ iteration, surroundings.timedOut iteration = false)
    (compiles : frontend.Compiles source surroundings invocation.noDisclaimer)
    (named : ∀ place use, (place, use) ∈ source → use.Named setting) (fuel : Nat)
    (underway : Underway setting frontend source invocation.noDisclaimer s)
    (enough : source.left setting.includePath s.engine.mending + 2 ≤ fuel) :
    ∃ last, Mended setting source invocation.noDisclaimer last ∧ mendLoop surroundings invocation fuel s =
      some ⟨last.engine, last.currentIteration, .ok (last.sourceResult false)⟩ := by
  induction fuel generalizing s with
  | zero => omega
  | succ fuel ih =>
    obtain ⟨sourceResult, answers, describes⟩ := compiles (s.currentIteration + 1) s.engine underway.onDisk
      fun _ use _ => underway.tidy.usable use
    rw [path] at describes
    by_cases nothing : frontend.missing setting.includePath s.engine.mending source = []
    · rw [nothing] at describes
      obtain ⟨last, stepped, mended⟩ := underway.finish (inTime _) answers nothing describes
      have ends : loopStep surroundings invocation last =
          .inr ⟨last.engine, last.currentIteration, .ok (last.sourceResult false)⟩ := loopStep_stopped mended.stopped
      obtain ⟨fuel, rfl⟩ : ∃ more, fuel = more + 1 := ⟨fuel - 1, by omega⟩
      exact ⟨last, mended, by rw [mendLoop, iterate_inl stepped, iterate_inr ends]⟩
    · obtain ⟨next, stepped, still, less⟩ :=
        underway.goOn fit path always named (inTime _) answers nothing describes
      obtain ⟨last, mended, ended⟩ := ih still (by omega)
      exact ⟨last, mended, by rw [mendLoop, iterate_inl stepped]; exact ended⟩

end Rounds

section Witness

/-- A compiler whose messages spell out what is missing. -/
def spelledOut : Missing → List Char
  | .header text => 'h' :: text.toList
  | .typename name => 't' :: name.toList
  | .tag name => 's' :: name.toList
  | .function name => 'f' :: name.toList
  | .variable name => 'v' :: name.toList
  | .member name tag => 'm' :: (List.replicate name.length '.' ++ ' ' :: (name.toList ++ tag.toList))

theorem replicate_inj {first second : Nat} {rest other : List Char}
    (same : List.replicate first '.' ++ ' ' :: rest = List.replicate second '.' ++ ' ' :: other) :
    first = second ∧ rest = other := by
  induction first generalizing second with
  | zero =>
    cases second with
    | zero => exact ⟨rfl, (List.cons.inj same).2⟩
    | succ second => cases (List.cons.inj same).1
  | succ first ih =>
    cases second with
    | zero => cases (List.cons.inj same).1
    | succ second =>
      obtain ⟨equal, rest⟩ := ih (List.cons.inj same).2
      exact ⟨congrArg Nat.succ equal, rest⟩

theorem spelledOut_injective {what other : Missing} (same : spelledOut what = spelledOut other) : what = other := by
  cases what <;> cases other
  all_goals try exact absurd (List.cons.inj same).1 (by decide)
  all_goals try exact congrArg _ (String.toList_inj.mp (List.cons.inj same).2)
  obtain ⟨length, texts⟩ := replicate_inj (List.cons.inj same).2
  obtain ⟨names, tags⟩ := List.append_inj texts (by rw [String.length_toList, length, String.length_toList])
  exact congrArg₂ _ (String.toList_inj.mp names) (String.toList_inj.mp tags)

def Missing.diagnosticID : Missing → DiagnosticID
  | .header _ => .errPPFileNotFound
  | .typename _ => .errUnknownTypename
  | .tag _ => .errTypecheckDeclIncompleteType
  | .function _ => .extImplicitFunctionDeclC99
  | .variable _ => .errUndeclaredVarUse
  | .member _ _ => .errNoMember

def Missing.args : Missing → List DiagnosticArg
  | .header text => [.stdString text]
  | .typename name | .function name => [.identifier name]
  | .tag name => [.qualType (structType name)]
  | .variable name => [.declarationName name]
  | .member name record => [.declarationName name, .declContext (some ⟨.struct, record⟩)]

theorem diagnosticID_errorAt {line : Int} {code message : String} {id : DiagnosticID} {args : List DiagnosticArg}
    {ranges : List String} : (Diagnostic.errorAt line code id message args ranges).diagnosticID = id := by
  cases id <;> rfl

def Frontend.plain : Frontend where
  message what := .ofList (spelledOut what)
  diagnose place what := .errorAt place "" what.diagnosticID (.ofList (spelledOut what)) what.args []
  message_injective what other same := spelledOut_injective (String.ofList_inj.mp same)
  describes _ _ := rfl
  reports place what := by
    cases what with
    | header text | function name => exact ⟨diagnosticID_errorAt, rfl⟩
    | typename name | «variable» name => exact ⟨by rw [diagnosticID_errorAt]; rfl, rfl⟩
    | tag name => exact ⟨by rw [diagnosticID_errorAt]; rfl, structType name, .struct, rfl, rfl⟩
    | member name tag => exact ⟨diagnosticID_errorAt, .struct, .inl rfl, rfl⟩
  located _ _ := rfl
  isError _ _ := rfl
  carries place what := by
    cases what with
    | header text | function name | member name tag => constructor <;> intro never <;> cases never
    | typename name =>
      refine ⟨fun never => ?_, fun never => ?_, fun _ => ⟨name, rfl⟩, fun never => ?_⟩ <;> cases never
    | tag name =>
      refine ⟨fun never => ?_, fun never => ?_, fun never => ?_, fun _ => ⟨structType name, _, rfl, rfl⟩⟩ <;>
        cases never
    | «variable» name =>
      refine ⟨fun _ => ⟨name, rfl⟩, fun never => ?_, fun never => ?_, fun never => ?_⟩ <;> cases never

end Witness
end CMender
