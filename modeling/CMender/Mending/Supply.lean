import Mathlib.Data.List.Infix
import CMender.Mending.Headers
import CMender.Mending.OrdinaryNames
import CMender.Mending.Plain

/-! Handling what is missing. As long as no counter has come round, the handler of a missing
thing returns, supplies it, takes nothing away and leaves everything else that is missing to
the diagnostics that report it. -/
namespace CMender
open Foundations Foundations.Execution MendingState MendingTypeNameGenerator

/-- The diagnostic is about something that is missing, and carries what its handler reads. -/
def Reports (diag : Diagnostic) : Missing → Prop
  | .header text => diag.diagnosticID = .errPPFileNotFound ∧ headerArgs diag.args = some text
  | .typename name => declaresTypedef diag.diagnosticID = true ∧ typedefArgs diag.args = some name
  | .tag name => definesTag diag.diagnosticID = true ∧
      ∃ type kind, typeArgs diag.args = some type ∧ type.type = some (.record name kind)
  | .function name => diag.diagnosticID = .extImplicitFunctionDeclC99 ∧ functionArgs diag.args = some name
  | .variable name => declaresVariable diag.diagnosticID = true ∧ variableArgs diag.args = some name
  | .member name tag => diag.diagnosticID = .errNoMember ∧
      ∃ kind, (kind = .struct ∨ kind = .union) ∧ memberArgs diag.args = some (name, some ⟨kind, tag⟩)

section Dispatch
variable {includePath name : String} {diag : Diagnostic} {s : MendingState}

theorem dispatch_variable (reports : Reports diag (.variable name)) :
    dispatch includePath diag s = .ok () (s.structAlias.withTable (·.declareVariable name s.nextType)) := by
  have ran : declareVariableOrTypedefHeuristic diag s =
      .ok () (s.structAlias.withTable (·.declareVariable name s.nextType)) := by
    refine bind_ok.mpr ⟨name, s, matched_ok.mpr ⟨reports.2, rfl⟩, ?_⟩
    refine bind_ok.mpr ⟨_, _, createTypedefOfGeneratedStructType_eq, modifyTable_ok.mpr ?_⟩
    simp only [withTable, structAlias_typedefType]
  rcases declaresVariable_iff.mp reports.1 with id | id <;> simpa only [dispatch, id] using ran

theorem dispatch_function (reports : Reports diag (.function name)) : dispatch includePath diag s =
    .ok () ((s.typeAlias voidType allTypeKinds).withTable (·.declareFunction name s.nextType)) := by
  simp only [dispatch, reports.1]
  refine bind_ok.mpr ⟨name, s, matched_ok.mpr ⟨reports.2, rfl⟩, ?_⟩
  refine bind_ok.mpr ⟨_, _, createTypedef_eq, modifyTable_ok.mpr ?_⟩
  simp only [withTable, typeAlias_typedefType]

theorem dispatch_typename (reports : Reports diag (.typename name)) :
    dispatch includePath diag s = .ok () (s.structTypedef name) := by
  have ran : declareTypedefTypeAliasHeuristic diag s = .ok () (s.structTypedef name) :=
    bind_ok.mpr ⟨name, s, matched_ok.mpr ⟨reports.2, rfl⟩,
      bind_ok.mpr ⟨_, _, createTypedefOfGeneratedStructTypeNamed_eq, rfl⟩⟩
  rcases declaresTypedef_iff.mp reports.1 with id | id <;> simpa only [dispatch, id] using ran

theorem dispatch_tag (reports : Reports diag (.tag name)) :
    dispatch includePath diag s = .ok () (s.withTable (·.createRecord name)) := by
  obtain ⟨defines, type, kind, args, structural⟩ := reports
  have ran : defineTagTypeHeuristic diag s = .ok () (s.withTable (·.createRecord name)) :=
    bind_ok.mpr ⟨type, s, matched_ok.mpr ⟨args, rfl⟩,
      bind_ok.mpr ⟨.record name kind, s, raise_ok.mpr ⟨nonNull_ok.mpr structural, rfl⟩, rfl⟩⟩
  rcases definesTag_iff.mp defines with id | id <;> simpa only [dispatch, id] using ran

theorem dispatch_member {tag : String} {record : Ref RecordSymbol} (reports : Reports diag (.member name tag))
    (known : s.table.records.lookup tag = some record) : dispatch includePath diag s =
      .ok () (s.structAlias.withTable (·.declareMember record name s.nextType)) := by
  obtain ⟨id, kind, isRecord, args⟩ := reports
  simp only [dispatch, id]
  refine bind_ok.mpr ⟨_, s, matched_ok.mpr ⟨args, rfl⟩, ?_⟩
  refine bind_ok.mpr ⟨⟨kind, tag⟩, s, raise_ok.mpr ⟨nonNull_ok.mpr rfl, rfl⟩, guard_ok.mpr ⟨?_, ?_⟩⟩
  · rcases isRecord with rfl | rfl <;> exact of_decide_eq_true rfl
  refine bind_ok.mpr ⟨s.table, s, rfl, bind_ok.mpr ⟨record, s, raise_ok.mpr ⟨orThrow_ok.mpr known, rfl⟩, ?_⟩⟩
  refine bind_ok.mpr ⟨_, _, createTypedefOfGeneratedStructType_eq, modifyTable_ok.mpr ?_⟩
  simp only [withTable, structAlias_typedefType]

end Dispatch

/-- Where mending starts, and the headers that the source includes. -/
structure Setting where
  includePath : String
  headers : List String
  names : MendingTypeNameGenerator
  files : FileSystem

namespace Setting

/-- The path of a header. -/
def path (setting : Setting) (text : String) : Path := .canonical setting.includePath text

/-- Every header can be created next to the others and to what is there. -/
structure Fit (setting : Setting) : Prop where
  readable : ∀ text ∈ setting.headers, text.toList.contains '\x00' = false
  named : ∀ text ∈ setting.headers, setting.path text ≠ []
  apart : ∀ text ∈ setting.headers, ∀ other ∈ setting.headers,
    setting.path other <+: setting.path text → setting.path other = setting.path text
  directories : ∀ text ∈ setting.headers, setting.path text ∉ setting.files.directories
  regularFiles : ∀ text ∈ setting.headers, ∀ path ∈ setting.files.regularFiles,
    path <+: setting.path text → path = setting.path text

/-- The files are those of the start and headers, in directories of headers. -/
structure Sprouted (setting : Setting) (files : FileSystem) : Prop where
  regularFiles : ∀ path ∈ files.regularFiles,
    path ∈ setting.files.regularFiles ∨ ∃ text ∈ setting.headers, path = setting.path text
  directories : ∀ path ∈ files.directories,
    path ∈ setting.files.directories ∨ ∃ text ∈ setting.headers, path <+: (setting.path text).dropLast

end Setting

section Headers
variable {setting : Setting} {files : FileSystem} {text : String}

theorem not_begins_dropLast {path : Path} (nonempty : path ≠ []) : ¬ path <+: path.dropLast := by
  intro begins
  have shorter := begins.length_le
  rw [List.length_dropLast] at shorter
  have := List.length_pos_iff.mpr nonempty
  omega

/-- The directory of a file and those above it are there. -/
def FileSystem.withParents (files : FileSystem) (path : Path) : FileSystem :=
  { files with directories := Path.ancestors path.dropLast ++ files.directories }

def FileSystem.withHeader (files : FileSystem) (path : Path) : FileSystem :=
  { files.withParents path with regularFiles := path :: files.regularFiles }

theorem Path.mem_ancestors {path ancestor : Path} (listed : ancestor ∈ path.ancestors) : ancestor <+: path :=
  (List.mem_inits _ _).mp (List.mem_of_mem_filter listed)

/-- No part of the way to a header is a file. -/
theorem Setting.Sprouted.createDirectories (sprouted : setting.Sprouted files) (fit : setting.Fit)
    (included : text ∈ setting.headers) :
    files.createDirectories (setting.path text).dropLast = .ok (files.withParents (setting.path text)) := by
  have nothing : (Path.ancestors (setting.path text).dropLast).find? (files.regularFiles.contains ·) = none := by
    rw [List.find?_eq_none]
    intro ancestor listed isFile
    have begins := Path.mem_ancestors listed
    have above : ancestor <+: setting.path text := begins.trans (List.dropLast_prefix _)
    have same : ancestor = setting.path text := by
      rcases sprouted.regularFiles ancestor (by simpa using isFile) with old | ⟨other, included', rfl⟩
      · exact fit.regularFiles text included ancestor old above
      · exact fit.apart text included other included' above
    exact not_begins_dropLast (fit.named text included) (same ▸ begins)
  simp only [FileSystem.createDirectories, nothing, FileSystem.withParents]

theorem Setting.Sprouted.createFile (sprouted : setting.Sprouted files) (fit : setting.Fit)
    (included : text ∈ setting.headers) (absent : setting.path text ∉ files.regularFiles) :
    (files.withParents (setting.path text)).createFile (setting.path text) =
      .ok (files.withHeader (setting.path text)) := by
  have noDirectory : setting.path text ∉ (files.withParents (setting.path text)).directories := by
    intro listed
    rcases List.mem_append.mp listed with ancestor | old
    · exact not_begins_dropLast (fit.named text included) (Path.mem_ancestors ancestor)
    · rcases sprouted.directories _ old with initial | ⟨other, included', begins⟩
      · exact fit.directories text included initial
      · have same := fit.apart other included' text included (begins.trans (List.dropLast_prefix _))
        exact not_begins_dropLast (fit.named text included) (by rwa [← same] at begins)
  rw [FileSystem.createFile, if_neg]
  · rfl
  simp only [Bool.or_eq_true, decide_eq_true_eq, List.contains_iff_mem, not_or]
  exact ⟨⟨fit.named text included, absent⟩, noDirectory⟩

theorem Setting.Sprouted.grow (sprouted : setting.Sprouted files) (included : text ∈ setting.headers) :
    setting.Sprouted (files.withHeader (setting.path text)) := by
  constructor
  · intro path listed
    rcases List.mem_cons.mp listed with rfl | old
    · exact .inr ⟨text, included, rfl⟩
    · exact sprouted.regularFiles path old
  · intro path listed
    rcases List.mem_append.mp listed with ancestor | old
    · exact .inr ⟨text, included, Path.mem_ancestors ancestor⟩
    · exact sprouted.directories path old

end Headers

/-- A name that the source may use: no name that is generated. -/
def Missing.Named (setting : Setting) : Missing → Prop
  | .header text => text ∈ setting.headers
  | .typename name => isGeneratedTypedefAliasName name = false
  | .tag name => isGeneratedTagTypeName name = false
  | _ => True

/-- How many tags were generated so far. -/
def MendingState.tagCount (s : MendingState) : Nat := s.names.tagTypeNameCounter

/-- What holds while only missing things are handled. -/
structure Tidy (setting : Setting) (s : MendingState) : Prop where
  since : OwnedSince setting.names.typedefAliasNameCounter s
  plain : s.table.Plain setting.names.tagTypeNameCounter s.tagCount
  lowTag : setting.names.tagTypeNameCounter ≤ s.tagCount
  noted : ∀ path ∈ s.table.ppFiles, path ∈ s.files.regularFiles
  sprouted : setting.Sprouted s.files

/-- A number of names can be generated before a counter comes round. -/
structure Room (setting : Setting) (s : MendingState) (count : Nat) : Prop where
  tags : s.tagCount + count ≤ setting.names.tagTypeNameCounter + 2 ^ 32
  aliases : s.aliasCount + count ≤ setting.names.typedefAliasNameCounter + 2 ^ 32

/-- The missing thing is there, and nothing else has changed for the source. -/
structure Supplies (setting : Setting) (s : MendingState) (what : Missing) (t : MendingState) : Prop where
  plain : t.table.Plain setting.names.tagTypeNameCounter t.tagCount
  noted : ∀ path ∈ t.table.ppFiles, path ∈ t.files.regularFiles
  sprouted : setting.Sprouted t.files
  grown : Extends s t
  supplied : Supplied setting.includePath t what
  others : ∀ other, other ≠ what → other.Named setting → Lacks setting.includePath s other →
    Lacks setting.includePath t other
  tagCount : s.tagCount ≤ t.tagCount ∧ t.tagCount ≤ s.tagCount + 1
  aliasCount : t.aliasCount ≤ s.aliasCount + 1

/-- A generated struct under a typedef, before anything is declared with it. -/
structure NewStruct (setting : Setting) (s : MendingState) (name : String) : Prop where
  plain : (s.structTypedef name).table.Plain setting.names.tagTypeNameCounter (s.tagCount + 1)
  formed : (s.structTypedef name).table.WellFormed
  grown : s.table.Extends (s.structTypedef name).table
  place : (s.structTypedef name).table.recordOf s.nextType = some (s.nextTag, s.table.recordSymbols.next)
  others : ∀ other, other ≠ .typename name → other.Named setting → Lacks setting.includePath s other →
    Lacks setting.includePath (s.structTypedef name) other

section Supplying
variable {setting : Setting} {s t : MendingState} {diag : Diagnostic} {name tag text : String} {what : Missing}
  {count : Nat}

theorem Missing.Named.ne_nextTag (named : what.Named setting) : what ≠ .tag s.nextTag := by
  rintro rfl
  have generated : isGeneratedTagTypeName s.nextTag = true := tagTypeName_generated _
  cases named.symm.trans generated

theorem Missing.Named.ne_nextAlias (named : what.Named setting) : what ≠ .typename s.nextAlias := by
  rintro rfl
  have generated : isGeneratedTypedefAliasName s.nextAlias = true := typedefAliasName_generated _
  cases named.symm.trans generated

theorem Tidy.nextTag_absent (tidy : Tidy setting s) (room : Room setting s (count + 1)) :
    s.table.records.lookup s.nextTag = none :=
  tidy.plain.nextTag_absent tidy.lowTag (by have := room.tags; omega)

theorem Tidy.newStruct (tidy : Tidy setting s) (room : Room setting s (count + 1)) (name : String) :
    NewStruct setting s name := by
  have formed := tidy.since.formed
  have absent := tidy.nextTag_absent room
  have own : MendingTable.TagSince setting.names.tagTypeNameCounter (s.tagCount + 1) s.nextTag :=
    .inr ⟨s.tagCount, tidy.lowTag, Nat.lt_succ_self _, rfl⟩
  refine ⟨?_, formed.createRecord.createTypedef, ?_, ?_, ?_⟩
  · exact (tidy.plain.createRecord formed absent (Nat.le_succ _) own).createTypedef formed.createRecord (.inr ⟨_, rfl⟩)
  · exact (MendingTable.extends_createRecord formed absent).trans MendingTable.extends_createTypedef
  · have typed : (s.structTypedef name).table.aliasedType s.nextType = structType s.nextTag :=
      MendingTable.aliasedType_createTypedef
    have registered : (s.structTypedef name).table.records.lookup s.nextTag = some s.table.recordSymbols.next := by
      change (s.table.createRecord s.nextTag).records.lookup s.nextTag = _
      rw [MendingTable.records_createRecord, Map.lookup_insert_self]
    rw [MendingTable.recordOf, typed]
    exact Option.map_eq_some_iff.mpr ⟨_, registered, rfl⟩
  · intro other different named lacks
    have still : Lacks setting.includePath (s.withTable (·.createRecord s.nextTag)) other :=
      lacks.createRecord formed absent named.ne_nextTag
    exact still.createTypedef different

theorem Tidy.recorded (tidy : Tidy setting s) : Tidy setting (s.recorded diag) :=
  ⟨tidy.since.recorded, ⟨tidy.plain.definitions, tidy.plain.tags, tidy.plain.variableNames, tidy.plain.members,
    tidy.plain.functions⟩, tidy.lowTag, tidy.noted, tidy.sprouted⟩

theorem Tidy.supplies_variable (tidy : Tidy setting s) (room : Room setting s (count + 1))
    (lacks : Lacks setting.includePath s (.variable name)) :
    Supplies setting s (.variable name) (s.structAlias.withTable (·.declareVariable name s.nextType)) := by
  have made := tidy.newStruct room s.nextAlias
  have absent : (s.structTypedef s.nextAlias).table.variables.lookup name = none := lacks
  refine ⟨made.plain.declareVariable ⟨_, made.place⟩, tidy.noted, tidy.sprouted, ⟨?_, fun _ => id⟩, ?_, ?_,
    ⟨Nat.le_succ _, Nat.le_refl _⟩, Nat.le_refl _⟩
  · exact made.grown.trans (MendingTable.extends_declareVariable absent)
  · exact ⟨_, Map.lookup_insert_self⟩
  · intro other different named lacked
    exact (made.others other named.ne_nextAlias named lacked).declareVariable different

theorem Tidy.supplies_function (tidy : Tidy setting s) :
    Supplies setting s (.function name)
      ((s.typeAlias voidType allTypeKinds).withTable (·.declareFunction name s.nextType)) := by
  have typed : (s.typeAlias voidType allTypeKinds).table.aliasedType s.nextType = voidType :=
    MendingTable.aliasedType_createTypedef
  have plain : (s.typeAlias voidType allTypeKinds).table.Plain setting.names.tagTypeNameCounter s.tagCount :=
    tidy.plain.createTypedef tidy.since.formed (.inl rfl)
  refine ⟨plain.declareFunction ⟨_, congrArg QualType.type typed⟩, tidy.noted, tidy.sprouted, ⟨?_, fun _ => id⟩, ?_,
    ?_, ⟨Nat.le_refl _, Nat.le_succ _⟩, Nat.le_refl _⟩
  · exact MendingTable.extends_createTypedef.trans MendingTable.extends_declareFunction
  · exact ⟨_, Map.lookup_insert_self⟩
  · intro other different named lacked
    have still : Lacks setting.includePath (s.typeAlias voidType allTypeKinds) other :=
      lacked.createTypedef named.ne_nextAlias
    exact still.declareFunction different

theorem Tidy.supplies_typename (tidy : Tidy setting s) (room : Room setting s (count + 1)) :
    Supplies setting s (.typename name) (s.structTypedef name) := by
  have made := tidy.newStruct room name
  refine ⟨made.plain, tidy.noted, tidy.sprouted, ⟨made.grown, fun _ => id⟩, ?_, made.others,
    ⟨Nat.le_succ _, Nat.le_refl _⟩, Nat.le_succ _⟩
  exact ⟨_, (congrArg (Map.lookup · name) MendingTable.typedefs_createTypedef).trans Map.lookup_insert_self⟩

theorem Tidy.supplies_tag (tidy : Tidy setting s) (lacks : Lacks setting.includePath s (.tag name))
    (named : Missing.Named setting (.tag name)) :
    Supplies setting s (.tag name) (s.withTable (·.createRecord name)) := by
  have formed := tidy.since.formed
  refine ⟨tidy.plain.createRecord formed lacks (Nat.le_refl _) (.inl named), tidy.noted, tidy.sprouted,
    ⟨MendingTable.extends_createRecord formed lacks, fun _ => id⟩, ?_, ?_,
    ⟨Nat.le_refl _, Nat.le_succ _⟩, Nat.le_succ _⟩
  · exact ⟨_, (congrArg (Map.lookup · name) MendingTable.records_createRecord).trans Map.lookup_insert_self⟩
  · exact fun other different _ lacked => lacked.createRecord formed lacks different

theorem Tidy.supplies_member (tidy : Tidy setting s) (room : Room setting s (count + 1)) {record : Ref RecordSymbol}
    (known : s.table.records.lookup tag = some record) (unnamed : s.table.memberNamed record name = none) :
    Supplies setting s (.member name tag) (s.structAlias.withTable (·.declareMember record name s.nextType)) := by
  have made := tidy.newStruct room s.nextAlias
  have still := made.grown.records tag record known
  have allocated := (tidy.since.formed.records tag record known).1
  refine ⟨made.plain.declareMember made.place allocated, tidy.noted, tidy.sprouted,
    ⟨made.grown.trans MendingTable.extends_declareMember, fun _ => id⟩, ?_, ?_,
    ⟨Nat.le_succ _, Nat.le_refl _⟩, Nat.le_refl _⟩
  · have before : (s.structTypedef s.nextAlias).table.memberNamed record name = none := by
      change ((s.table.createRecord s.nextTag).members record).find? (·.name == name) = none
      rw [MendingTable.members_createRecord allocated]
      exact unnamed
    exact ⟨record, still, _, MendingTable.memberNamed_declareMember before⟩
  · intro other different named lacked
    exact (made.others other named.ne_nextAlias named lacked).declareMember made.formed still different

/-- A header that was noted is there already. -/
theorem dispatch_noted_header {includePath : String} (reports : Reports diag (.header text))
    (readable : text.toList.contains '\x00' = false) (noted : Path.canonical includePath text ∈ s.table.ppFiles) :
    dispatch includePath diag s = .ok () s := by
  have known : s.table.ppFileExists (Path.canonical includePath text) = true := by
    simpa [MendingTable.ppFileExists] using noted
  simp only [dispatch, reports.1]
  refine bind_ok.mpr ⟨text, s, raise_ok.mpr ⟨orThrow_ok.mpr reports.2, rfl⟩, ?_⟩
  rw [readable]
  refine bind_ok.mpr ⟨s.table, s, rfl, ?_⟩
  rw [if_pos known]
  rfl

theorem Tidy.dispatch_header (fit : setting.Fit) (tidy : Tidy setting s) (reports : Reports diag (.header text))
    (included : text ∈ setting.headers) (absent : setting.path text ∉ s.files.regularFiles) :
    dispatch setting.includePath diag s = .ok () { s with
      table := s.table.addPPFile (setting.path text)
      files := s.files.withHeader (setting.path text) } := by
  have new : s.table.ppFileExists (setting.path text) ≠ true := by
    intro known
    exact absent (tidy.noted _ (by simpa [MendingTable.ppFileExists] using known))
  have directories := tidy.sprouted.createDirectories fit included
  have created := tidy.sprouted.createFile fit included absent
  simp only [dispatch, reports.1]
  refine bind_ok.mpr ⟨text, s, raise_ok.mpr ⟨orThrow_ok.mpr reports.2, rfl⟩, ?_⟩
  rw [fit.readable text included]
  refine bind_ok.mpr ⟨s.table, s, rfl, ?_⟩
  change (if s.table.ppFileExists (setting.path text) = true then _ else _ : Mend Unit) s = _
  rw [if_neg new]
  refine bind_ok.mpr ⟨(), s.withTable (·.addPPFile (setting.path text)), rfl, ?_⟩
  change (if setting.path text = [] then _ else _ : Mend Unit) _ = _
  rw [if_neg (fit.named text included)]
  refine bind_ok.mpr ⟨_, _, rfl, bind_ok.mpr ⟨s.files.withParents (setting.path text), _,
    raise_ok.mpr ⟨congrArg (Except.mapError _) directories, rfl⟩, bind_ok.mpr ⟨(), _, rfl, ?_⟩⟩⟩
  exact bind_ok.mpr ⟨s.files.withHeader (setting.path text), _,
    raise_ok.mpr ⟨congrArg (Except.mapError _) created, rfl⟩, rfl⟩

theorem Tidy.supplies_header (tidy : Tidy setting s) (included : text ∈ setting.headers) :
    Supplies setting s (.header text) { s with
      table := s.table.addPPFile (setting.path text)
      files := s.files.withHeader (setting.path text) } := by
  refine ⟨⟨tidy.plain.definitions, tidy.plain.tags, tidy.plain.variableNames, tidy.plain.members,
    tidy.plain.functions⟩, ?_, tidy.sprouted.grow included, ⟨?_, fun _ => List.mem_cons_of_mem _⟩,
    List.mem_cons_self, ?_, ⟨Nat.le_refl _, Nat.le_succ _⟩, Nat.le_succ _⟩
  · intro path listed
    rcases List.mem_insert_iff.mp listed with rfl | old
    · exact List.mem_cons_self
    · exact List.mem_cons_of_mem _ (tidy.noted path old)
  · exact ⟨fun _ => id, fun _ => id, fun _ _ => id, fun _ _ => id, fun _ _ _ => List.prefix_rfl,
      fun _ allocated => ⟨rfl, allocated⟩⟩
  · intro other different named lacked
    cases other with
    | header own =>
      -- Two texts may have one path, and then both headers are there now.
      by_cases same : setting.path own = setting.path text
      · exact .inl (same ▸ List.mem_insert_self)
      · refine lacked.imp List.mem_insert_of_mem fun absent listed => ?_
        exact (List.mem_cons.mp listed).elim same absent
    | _ => exact lacked

/-- The handler of a missing thing supplies it. -/
theorem Tidy.dispatch_supplies (fit : setting.Fit) (tidy : Tidy setting s) (room : Room setting s (count + 1))
    (reports : Reports diag what) (named : what.Named setting) (lacks : Lacks setting.includePath s what) :
    ∃ t, dispatch setting.includePath diag s = .ok () t ∧ Supplies setting s what t := by
  cases what with
  | header text =>
    rcases lacks with noted | absent
    · refine ⟨s, dispatch_noted_header reports (fit.readable text named) noted, tidy.plain, tidy.noted, tidy.sprouted,
        .refl s, tidy.noted _ noted, fun _ _ _ => id, ⟨Nat.le_refl _, Nat.le_succ _⟩, Nat.le_succ _⟩
    · exact ⟨_, tidy.dispatch_header fit reports named absent, tidy.supplies_header named⟩
  | typename name => exact ⟨_, dispatch_typename reports, tidy.supplies_typename room⟩
  | tag name => exact ⟨_, dispatch_tag reports, tidy.supplies_tag lacks named⟩
  | function name => exact ⟨_, dispatch_function reports, tidy.supplies_function⟩
  | «variable» name => exact ⟨_, dispatch_variable reports, tidy.supplies_variable room lacks⟩
  | member name tag =>
    obtain ⟨record, known, unnamed⟩ := lacks
    exact ⟨_, dispatch_member reports known, tidy.supplies_member room known unnamed⟩

theorem extends_recorded : Extends s (s.recorded diag) :=
  ⟨⟨fun _ => id, fun _ => id, fun _ _ => id, fun _ _ => id, fun _ _ _ => List.prefix_rfl,
    fun _ allocated => ⟨rfl, allocated⟩⟩, fun _ => id⟩

theorem Lacks.recorded {includePath : String} (lacks : Lacks includePath s what) :
    Lacks includePath (s.recorded diag) what := by
  cases what <;> exact lacks

theorem Supplies.of_recorded (supplies : Supplies setting (s.recorded diag) what t) : Supplies setting s what t :=
  { supplies with
    grown := extends_recorded.trans supplies.grown
    others := fun other different named lacks => supplies.others other different named lacks.recorded }

theorem Reports.sourceNamed (reports : Reports diag what) (named : what.Named setting) : SourceNamed diag := by
  intro declares name args
  cases what with
  | typename own =>
    obtain rfl := Option.some.inj (reports.2.symm.trans args)
    exact named
  | header text =>
    rw [reports.1] at declares
    cases declares
  | tag own =>
    rcases definesTag_iff.mp reports.1 with id | id <;> rw [id] at declares <;> cases declares
  | function own =>
    rw [reports.1] at declares
    cases declares
  | «variable» own =>
    rcases declaresVariable_iff.mp reports.1 with id | id <;> rw [id] at declares <;> cases declares
  | member own tag =>
    rw [reports.1] at declares
    cases declares

/-- Handling a missing thing is a step that keeps the state tidy and supplies it. -/
theorem Tidy.supply (fit : setting.Fit) (tidy : Tidy setting s) (room : Room setting s (count + 1))
    (reports : Reports diag what) (named : what.Named setting) (lacks : Lacks setting.includePath s what) :
    ∃ t, Step setting.includePath s diag t ∧ Tidy setting t ∧ Supplies setting s what t := by
  have entered : Tidy setting (s.recorded diag) := tidy.recorded
  obtain ⟨t, ran, supplies⟩ := entered.dispatch_supplies fit ⟨room.tags, room.aliases⟩ reports named lacks.recorded
  have supplies := supplies.of_recorded
  have step : Step setting.includePath s diag t := bind_ok.mpr ⟨(), _, rfl, ran⟩
  have few : t.aliasCount ≤ setting.names.typedefAliasNameCounter + 2 ^ 32 := by
    have := supplies.aliasCount
    have := room.aliases
    omega
  have attempt : Attempt setting.includePath s diag t := .inl step
  exact ⟨t, step, ⟨attempt.ownedSince (reports.sourceNamed named) few tidy.since, supplies.plain,
    tidy.lowTag.trans supplies.tagCount.1, supplies.noted, supplies.sprouted⟩, supplies⟩

/-- Handling a batch in which nothing is reported twice. -/
theorem Tidy.batch (fit : setting.Fit) (tidy : Tidy setting s) {batch : List (Diagnostic × Missing)}
    (room : Room setting s batch.length) (reports : ∀ diag what, (diag, what) ∈ batch → Reports diag what)
    (named : ∀ diag what, (diag, what) ∈ batch → what.Named setting)
    (lacks : ∀ diag what, (diag, what) ∈ batch → Lacks setting.includePath s what)
    (once : (batch.map Prod.snd).Nodup) :
    ∃ t, Reaches (Step setting.includePath) s (batch.map Prod.fst) t ∧ Tidy setting t ∧ Extends s t ∧
      (∀ diag what, (diag, what) ∈ batch → Supplied setting.includePath t what) ∧
      t.tagCount ≤ s.tagCount + batch.length ∧ t.aliasCount ≤ s.aliasCount + batch.length := by
  induction batch generalizing s with
  | nil =>
    exact ⟨s, .refl s, tidy, .refl s, fun _ _ listed => absurd listed List.not_mem_nil, Nat.le_refl _, Nat.le_refl _⟩
  | cons first rest ih =>
    obtain ⟨diag, what⟩ := first
    have own : (diag, what) ∈ (diag, what) :: rest := List.mem_cons_self
    obtain ⟨unlike, once⟩ := List.nodup_cons.mp once
    obtain ⟨middle, step, tidied, supplies⟩ :=
      tidy.supply fit room (reports _ _ own) (named _ _ own) (lacks _ _ own)
    have behind {diag' what'} (listed : (diag', what') ∈ rest) : (diag', what') ∈ (diag, what) :: rest :=
      List.mem_cons_of_mem _ listed
    have roomLeft : Room setting middle rest.length := by
      have := supplies.tagCount.2
      have := supplies.aliasCount
      have := room.tags
      have := room.aliases
      rw [List.length_cons] at *
      exact ⟨by omega, by omega⟩
    have lackStill : ∀ diag' what', (diag', what') ∈ rest → Lacks setting.includePath middle what' := by
      intro diag' what' listed
      refine supplies.others what' ?_ (named _ _ (behind listed)) (lacks _ _ (behind listed))
      rintro rfl
      exact unlike (List.mem_map.mpr ⟨_, listed, rfl⟩)
    obtain ⟨t, run, tidy', grown, supplied, tags, aliases⟩ := ih tidied roomLeft
      (fun _ _ listed => reports _ _ (behind listed)) (fun _ _ listed => named _ _ (behind listed)) lackStill once
    refine ⟨t, .next step run, tidy', supplies.grown.trans grown, ?_, ?_, ?_⟩
    · intro diag' what' listed
      rcases List.mem_cons.mp listed with same | later
      · cases same
        exact grown.supplied supplies.supplied
      · exact supplied diag' what' later
    · have := supplies.tagCount.2
      rw [List.length_cons]
      omega
    · have := supplies.aliasCount
      rw [List.length_cons]
      omega

end Supplying
end CMender
