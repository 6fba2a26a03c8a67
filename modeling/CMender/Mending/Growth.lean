import CMender.Mending.Steps

/-! Mending adds. No step removes a name from a map; a step can lose the members
of a record only by registering a new record under its name. -/
namespace CMender
open Foundations Foundations.Execution MendingState

namespace MendingTable

/-- The registered records are objects of the table. -/
def RecordsAllocated (table : MendingTable) : Prop :=
  ∀ name record, table.records.lookup name = some record → table.recordSymbols.Allocated record

/-- Every name is kept, and every record keeps its members in front. -/
structure Grows (before after : MendingTable) : Prop where
  variableNames : ∀ name, before.variables.containsKey name = true → after.variables.containsKey name = true
  functions : ∀ name, before.functions.containsKey name = true → after.functions.containsKey name = true
  typedefs : ∀ name, before.typedefs.containsKey name = true → after.typedefs.containsKey name = true
  enums : ∀ name, before.enums.containsKey name = true → after.enums.containsKey name = true
  records : ∀ name record, before.records.lookup name = some record →
    ∃ kept, after.records.lookup name = some kept ∧ before.members record <+: after.members kept

variable {table before middle after : MendingTable} {name : String} {record : Ref RecordSymbol}

theorem Grows.refl (table : MendingTable) : table.Grows table :=
  ⟨fun _ has => has, fun _ has => has, fun _ has => has, fun _ has => has,
    fun _ record found => ⟨record, found, List.prefix_rfl⟩⟩

theorem Grows.trans (first : before.Grows middle) (second : middle.Grows after) : before.Grows after := by
  refine ⟨fun name has => second.variableNames name (first.variableNames name has),
    fun name has => second.functions name (first.functions name has),
    fun name has => second.typedefs name (first.typedefs name has),
    fun name has => second.enums name (first.enums name has), fun name record found => ?_⟩
  obtain ⟨kept, foundKept, start⟩ := first.records name record found
  obtain ⟨last, foundLast, rest⟩ := second.records name kept foundKept
  exact ⟨last, foundLast, start.trans rest⟩

/-- A table that keeps its maps and whose records keep their members. -/
theorem Grows.of_members (variableNames : after.variables = before.variables)
    (functions : after.functions = before.functions) (typedefs : after.typedefs = before.typedefs)
    (enums : after.enums = before.enums) (records : after.records = before.records)
    (members : ∀ record, before.members record <+: after.members record) : before.Grows after := by
  refine ⟨by simp [variableNames], by simp [functions], by simp [typedefs], by simp [enums], ?_⟩
  intro name record found
  exact ⟨record, records ▸ found, members record⟩

/-- Changing types and locks leaves names and members as they are. -/
theorem grows_setAliasedType {type : Ref TypedefType} {qualType : QualType} :
    table.Grows (table.setAliasedType type qualType) :=
  .of_members rfl rfl rfl rfl rfl fun _ => List.prefix_rfl

theorem grows_settle {symbol : Ref TypedefSymbol} {qualType : QualType} :
    table.Grows (table.settle symbol qualType) :=
  .of_members rfl rfl rfl rfl rfl fun _ => List.prefix_rfl

theorem grows_putControlledArraySubscriptMapping {code : String} {symbol : Symbol} :
    table.Grows (table.putControlledArraySubscriptMapping code symbol) :=
  .of_members rfl rfl rfl rfl rfl fun _ => List.prefix_rfl

theorem grows_createTypedef {type : QualType} {permittedTypes : List TypeKind} :
    table.Grows (table.createTypedef name type permittedTypes) := by
  refine ⟨fun _ has => has, fun _ has => has, ?_, fun _ has => has,
    fun _ record found => ⟨record, found, List.prefix_rfl⟩⟩
  intro other has
  rw [typedefs_createTypedef, Map.containsKey_insert]
  exact .inr has

theorem grows_declareVariable {type : Ref TypedefType} : table.Grows (table.declareVariable name type) :=
  ⟨fun _ has => Map.containsKey_insert.mpr (.inr has), fun _ has => has, fun _ has => has,
    fun _ has => has, fun _ record found => ⟨record, found, List.prefix_rfl⟩⟩

theorem grows_declareFunction {type : Ref TypedefType} : table.Grows (table.declareFunction name type) :=
  ⟨fun _ has => has, fun _ has => Map.containsKey_insert.mpr (.inr has), fun _ has => has,
    fun _ has => has, fun _ record found => ⟨record, found, List.prefix_rfl⟩⟩

theorem grows_declareEnum {values : List String} : table.Grows (table.declareEnum name values) :=
  ⟨fun _ has => has, fun _ has => has, fun _ has => has,
    fun _ has => Map.containsKey_insert.mpr (.inr has),
    fun _ record found => ⟨record, found, List.prefix_rfl⟩⟩

theorem members_declareMember {type : Ref TypedefType} {other : Ref RecordSymbol} :
    (table.declareMember record name type).members other =
      if other = record then table.members record ++ [⟨table.nextAddress, name, type⟩]
      else table.members other :=
  members_addMember

theorem grows_declareMember {type : Ref TypedefType} :
    table.Grows (table.declareMember record name type) := by
  refine .of_members rfl rfl rfl rfl rfl fun other => ?_
  rw [members_declareMember]
  split
  · rename_i same
    rw [same]
    exact List.prefix_append _ _
  · exact List.prefix_rfl

theorem members_createRecord_next : (table.createRecord name).members table.recordSymbols.next = [] := by
  simp [createRecord, putRecord, newRecordSymbol, members]

theorem members_createRecord (allocated : table.recordSymbols.Allocated record) :
    (table.createRecord name).members record = table.members record := by
  simp only [createRecord, putRecord, newRecordSymbol, members]
  rw [Heap.get_alloc allocated]

theorem recordsAllocated_createRecord (allocated : table.RecordsAllocated) :
    (table.createRecord name).RecordsAllocated := by
  intro other record found
  rw [records_createRecord, Map.lookup_insert] at found
  split at found
  · cases found
    exact Heap.allocated_next
  · exact (allocated other record found).alloc

/-- A new record takes the place of one without members, or of none. -/
theorem grows_createRecord (allocated : table.RecordsAllocated)
    (bare : ∀ record, table.records.lookup name = some record → table.members record = []) :
    table.Grows (table.createRecord name) := by
  refine ⟨fun _ has => has, fun _ has => has, fun _ has => has, fun _ has => has, ?_⟩
  intro other record found
  rw [records_createRecord]
  by_cases same : other = name
  · subst same
    refine ⟨_, Map.lookup_insert_self, ?_⟩
    rw [bare record found]
    exact List.nil_prefix
  · refine ⟨record, (Map.lookup_insert_of_ne same).trans found, ?_⟩
    have kept : (table.createRecord name).members record = table.members record :=
      members_createRecord (allocated other record found)
    exact ⟨[], (List.append_nil _).trans kept.symm⟩

/-- What a new record without members does to growth. -/
theorem Grows.bare (grows : before.Grows after) {fresh : Ref RecordSymbol}
    (created : after.records.lookup name = some fresh) (empty : after.members fresh = []) :
    ∀ record, before.records.lookup name = some record → before.members record = [] := by
  intro record found
  obtain ⟨kept, foundKept, start⟩ := grows.records name record found
  rw [created] at foundKept
  cases foundKept
  rw [empty] at start
  exact List.prefix_nil.mp start

end MendingTable

open MendingTable

/-- The name of the record that a diagnostic makes the mender register, if it does. -/
def createdRecord (s : MendingState) (diag : Diagnostic) : Option String :=
  match diag.diagnosticID with
  | .errUndeclaredVarUse | .errUndeclaredVarUseSuggest | .errUnknownTypename
  | .errUnknownTypenameSuggest | .errNoMember => some s.nextTag
  | .errCallIncompleteArgument => (voidArgument diag).map fun _ => s.nextTag
  | .errTypecheckDeclIncompleteType | .errFuncDefIncompleteResult =>
    (typeArgs diag.args).bind fun type =>
      match type.type with
      | some (.record name _) => some name
      | _ => none
  | _ => none

/-- The record that a diagnostic makes the mender register takes no other
record's members away. -/
def KeepsMembers (s : MendingState) (diag : Diagnostic) : Prop :=
  ∀ name, createdRecord s diag = some name →
    ∀ record, s.table.records.lookup name = some record → s.table.members record = []

section Growth
variable {includePath : String} {s t : MendingState} {diag : Diagnostic} {diags : List Diagnostic}

/-- A state that grew out of one in which the record `name` was registered anew,
and in which that record still has no members. -/
structure CreatesRecord (s : MendingState) (name : String) (t : MendingState) : Prop where
  grows : (s.table.createRecord name).Grows t.table
  registered : t.table.records.lookup name = some s.table.recordSymbols.next
  bare : t.table.members s.table.recordSymbols.next = []
  allocated : (s.table.createRecord name).RecordsAllocated → t.table.RecordsAllocated

theorem CreatesRecord.of_records {name : String}
    (grows : (s.table.createRecord name).Grows t.table)
    (records : t.table.records = (s.table.createRecord name).records)
    (symbols : t.table.recordSymbols = (s.table.createRecord name).recordSymbols) :
    CreatesRecord s name t := by
  refine ⟨grows, ?_, ?_, ?_⟩
  · rw [records, records_createRecord, Map.lookup_insert_self]
  · rw [members, symbols]
    exact members_createRecord_next
  · intro allocated other record found
    rw [records] at found
    rw [symbols]
    exact allocated other record found

theorem createdRecord_declaresVariable (id : declaresVariable diag.diagnosticID = true) :
    createdRecord s diag = some s.nextTag := by
  cases known : diag.diagnosticID <;> simp_all [declaresVariable, createdRecord]

theorem createdRecord_declaresTypedef (id : declaresTypedef diag.diagnosticID = true) :
    createdRecord s diag = some s.nextTag := by
  cases known : diag.diagnosticID <;> simp_all [declaresTypedef, createdRecord]

theorem createdRecord_definesTag {type : QualType} (id : definesTag diag.diagnosticID = true)
    (args : typeArgs diag.args = some type) : createdRecord s diag =
      match type.type with
      | some (.record name _) => some name
      | _ => none := by
  cases known : diag.diagnosticID <;> simp_all [definesTag, createdRecord]

theorem createdRecord_compared {types : QualType × QualType} (args : comparedTypes diag = some types) :
    createdRecord s diag = none := by
  cases known : diag.diagnosticID <;> simp_all [comparedTypes, createdRecord]

theorem createdRecord_subscript {texts : String × String} (marked : subscriptTexts diag = some texts) :
    createdRecord s diag = none := by
  cases known : diag.diagnosticID <;> simp_all [subscriptTexts, createdRecord]

theorem createdRecord_plain {type : QualType} (target : plainTarget diag = some type) :
    createdRecord s diag = none := by
  cases known : diag.diagnosticID with
  | errCallIncompleteArgument =>
    simp only [plainTarget, known, Option.filter_eq_some_iff] at target
    obtain ⟨args, notVoid⟩ := target
    have other : type.type.any LangType.isVoid = false := by
      cases structural : type.type <;> simp_all
    simp [createdRecord, known, voidArgument, args, Option.filter, other]
  | _ => simp_all [plainTarget, createdRecord]

theorem createdRecord_void {type : QualType} (target : voidArgument diag = some type) :
    createdRecord s diag = some s.nextTag := by
  have known : diag.diagnosticID = .errCallIncompleteArgument := by
    cases known : diag.diagnosticID <;> simp_all [voidArgument]
  simp only [createdRecord, known, target, Option.map_some]

/-- A step registers a record that it tells beforehand, or none. -/
theorem Effect.creates (allocated : s.table.RecordsAllocated) (effect : Effect s diag t) :
    (createdRecord s diag = none ∧ s.table.Grows t.table ∧ t.table.RecordsAllocated) ∨
      ∃ name, createdRecord s diag = some name ∧ CreatesRecord s name t := by
  cases effect with
  | idle id => exact .inl ⟨by simp only [createdRecord, id], .refl _, allocated⟩
  | header id =>
    exact .inl ⟨by simp only [createdRecord, id],
      .of_members rfl rfl rfl rfl rfl fun _ => List.prefix_rfl, allocated⟩
  | declareFunction id _ =>
    exact .inl ⟨by simp only [createdRecord, id], grows_createTypedef.trans grows_declareFunction, allocated⟩
  | declareVariable id _ =>
    exact .inr ⟨s.nextTag, createdRecord_declaresVariable id,
      .of_records (grows_createTypedef.trans grows_declareVariable) rfl rfl⟩
  | declareTypedef id _ =>
    exact .inr ⟨s.nextTag, createdRecord_declaresTypedef id, .of_records grows_createTypedef rfl rfl⟩
  | addMember id _ found =>
    refine .inr ⟨s.nextTag, by simp only [createdRecord, id], ?_⟩
    -- The record that gets the member is an older object than the new one.
    have older := (allocated _ _ found).ne_next
    refine ⟨grows_createTypedef.trans grows_declareMember, ?_, ?_, ?_⟩
    · exact congrArg (·.lookup s.nextTag) records_createRecord |>.trans Map.lookup_insert_self
    · exact (members_declareMember.trans (if_neg older.symm)).trans members_createRecord_next
    · exact fun kept => kept
  | @defineRecord type name kind id args tag =>
    exact .inr ⟨name, by rw [createdRecord_definesTag id args, tag], .of_records (.refl _) rfl rfl⟩
  | defineEnum id args tag =>
    exact .inl ⟨by rw [createdRecord_definesTag id args, tag], grows_declareEnum, allocated⟩
  | convert id _ _ => exact .inl ⟨by simp only [createdRecord, id], grows_settle, allocated⟩
  | convertToLocked id _ _ _ _ => exact .inl ⟨by simp only [createdRecord, id], grows_settle, allocated⟩
  | adjustOperand id _ _ _ _ => exact .inl ⟨by simp only [createdRecord, id], grows_settle, allocated⟩
  | adjustToLocked id _ _ _ _ _ _ => exact .inl ⟨by simp only [createdRecord, id], grows_settle, allocated⟩
  | settleBoth args _ _ _ => exact .inl ⟨createdRecord_compared args, grows_settle.trans grows_settle, allocated⟩
  | keepMember id _ _ => exact .inl ⟨by simp only [createdRecord, id], .refl _, allocated⟩
  | pointMember id _ _ => exact .inl ⟨by simp only [createdRecord, id], grows_settle, allocated⟩
  | subscript texts _ _ =>
    exact .inl ⟨createdRecord_subscript texts,
      grows_setAliasedType.trans grows_putControlledArraySubscriptMapping, allocated⟩
  | subscriptVariable texts _ _ _ =>
    exact .inl ⟨createdRecord_subscript texts, (grows_createTypedef.trans grows_setAliasedType).trans
      grows_putControlledArraySubscriptMapping, allocated⟩
  | convertSubscript id _ _ => exact .inl ⟨by simp only [createdRecord, id], grows_setAliasedType, allocated⟩
  | overwrite target _ => exact .inl ⟨createdRecord_plain target, grows_setAliasedType, allocated⟩
  | structArgument target _ =>
    exact .inr ⟨s.nextTag, createdRecord_void target, .of_records grows_setAliasedType rfl rfl⟩

theorem Effect.recordsAllocated (allocated : s.table.RecordsAllocated) (effect : Effect s diag t) :
    t.table.RecordsAllocated := by
  rcases effect.creates allocated with ⟨_, _, kept⟩ | ⟨name, _, creates⟩
  · exact kept
  · exact creates.allocated (recordsAllocated_createRecord allocated)

theorem Effect.grows_iff (allocated : s.table.RecordsAllocated) (effect : Effect s diag t) :
    s.table.Grows t.table ↔ KeepsMembers s diag := by
  rcases effect.creates allocated with ⟨none, grows, _⟩ | ⟨name, created, creates⟩
  · refine iff_of_true grows fun name created => ?_
    rw [none] at created
    cases created
  · constructor
    · intro grows other created'
      rw [created] at created'
      cases created'
      exact grows.bare creates.registered creates.bare
    · intro keeps
      exact (grows_createRecord allocated (keeps name created)).trans creates.grows

theorem grows_recorded : s.table.Grows (s.recorded diag).table ∧ (s.recorded diag).table.Grows s.table :=
  ⟨.of_members rfl rfl rfl rfl rfl fun _ => List.prefix_rfl,
    .of_members rfl rfl rfl rfl rfl fun _ => List.prefix_rfl⟩

theorem Step.recordsAllocated (allocated : s.table.RecordsAllocated) (step : Step includePath s diag t) :
    t.table.RecordsAllocated :=
  Effect.recordsAllocated (s := s.recorded diag) allocated step.effect

theorem recordsAllocated_empty : MendingTable.empty.RecordsAllocated := by
  intro name record found
  cases found

/-- Handling a diagnostic keeps every name and every member exactly when the
record it registers, if any, takes the place of no record with members; so a run
of such steps keeps them all. -/
theorem mending_grows_iff (includePath : String) :
    (∀ s diag t, s.table.RecordsAllocated → Step includePath s diag t →
      (s.table.Grows t.table ↔ KeepsMembers s diag)) ∧
    (∀ s diags t, s.table.RecordsAllocated →
      Reaches (fun s diag t => Step includePath s diag t ∧ KeepsMembers s diag) s diags t →
      s.table.Grows t.table) := by
  have step {s diag t} (allocated : s.table.RecordsAllocated) (step : Step includePath s diag t) :
      s.table.Grows t.table ↔ KeepsMembers s diag := by
    have handled := Effect.grows_iff (s := s.recorded diag) allocated step.effect
    exact ⟨fun grows => handled.mp (grows_recorded.2.trans grows),
      fun keeps => grows_recorded.1.trans (handled.mpr keeps)⟩
  refine ⟨fun s diag t => step, fun s diags t allocated run => ?_⟩
  induction run with
  | refl => exact .refl _
  | @next s diag _ _ _ head _ ih =>
    exact ((step allocated head.1).mpr head.2).trans (ih (head.1.recordsAllocated allocated))

end Growth

section Redeclaration

def nodeType : QualType := structType "node"

/-- The first use of an incomplete `struct node`, and a member of it. -/
def nodeDiagnostics : List Diagnostic :=
  [.errorAt 1 "n" .errTypecheckDeclIncompleteType "variable has incomplete type 'struct node'"
      [.qualType nodeType] [],
    .errorAt 2 "value" .errNoMember "no member named 'value' in 'struct node'"
      [.declarationName "value", .declContext (some ⟨.struct, "node"⟩)] []]

/-- An inner block declares a `struct node` of its own. -/
def innerNode : Diagnostic :=
  .errorAt 3 "m" .errTypecheckDeclIncompleteType "variable has incomplete type 'struct node'"
    [.qualType nodeType] []

def nodeMembers (s : MendingState) : Option (List String) :=
  (s.table.records.lookup "node").map fun record => (s.table.members record).map (·.name)

/-- `n.next` beside `n.value`. -/
def nextMember : Diagnostic :=
  .errorAt 3 "next" .errNoMember "no member named 'next' in 'struct node'"
    [.declarationName "next", .declContext (some ⟨.struct, "node"⟩)] []

theorem mending_grows_second_member : ∃ s t, mended nodeDiagnostics = some s ∧ Step "/includes" s nextMember t ∧
    nodeMembers s = some ["value"] ∧ nodeMembers t = some ["value", "next"] ∧ s.table.Grows t.table := by
  obtain ⟨t, ran⟩ : ∃ t, mended (nodeDiagnostics ++ [nextMember]) = some t :=
    Option.isSome_iff_exists.mp (by decide +kernel)
  obtain ⟨s, before, step⟩ := mended_snoc.mp ran
  have named : ∀ s ∈ mended nodeDiagnostics, nodeMembers s = some ["value"] ∧
      ((createdRecord s nextMember).bind s.table.records.lookup).isNone = true := by decide +kernel
  have more : ∀ t ∈ mended (nodeDiagnostics ++ [nextMember]), nodeMembers t = some ["value", "next"] := by
    decide +kernel
  obtain ⟨one, unregistered⟩ := named s before
  have allocated : s.table.RecordsAllocated :=
    (mended_iff.mp before).invariant (P := fun s => s.table.RecordsAllocated) Step.recordsAllocated
      recordsAllocated_empty
  refine ⟨s, t, before, step, one, more t ran, ?_⟩
  refine ((mending_grows_iff "/includes").1 s nextMember t allocated step).mpr fun name created record found => ?_
  rw [created, Option.bind_some, found] at unregistered
  cases unregistered

/-- The struct of the inner block replaces the outer one, and its member is gone. -/
theorem inner_struct_loses_members : ∃ s t, mended nodeDiagnostics = some s ∧
    Step "/includes" s innerNode t ∧ nodeMembers s = some ["value"] ∧ nodeMembers t = some [] ∧
      ¬ s.table.Grows t.table := by
  obtain ⟨t, ran⟩ : ∃ t, mended (nodeDiagnostics ++ [innerNode]) = some t :=
    Option.isSome_iff_exists.mp (by decide +kernel)
  obtain ⟨s, before, step⟩ := mended_snoc.mp ran
  have named : ∀ s ∈ mended nodeDiagnostics, nodeMembers s = some ["value"] := by decide +kernel
  have lost : ∀ t ∈ mended (nodeDiagnostics ++ [innerNode]), nodeMembers t = some [] := by decide +kernel
  refine ⟨s, t, before, step, named s before, lost t ran, fun grows => ?_⟩
  obtain ⟨record, found, names⟩ := Option.map_eq_some_iff.mp (named s before)
  obtain ⟨kept, foundKept, start⟩ := grows.records "node" record found
  obtain ⟨after, foundAfter, noNames⟩ := Option.map_eq_some_iff.mp (lost t ran)
  cases foundKept.symm.trans foundAfter
  rw [List.map_eq_nil_iff.mp noNames] at start
  rw [List.prefix_nil.mp start] at names
  cases names

end Redeclaration
end CMender
