import CMender.Mending.Growth
import CMender.Mending.Ownership

/-! What a source needs declared. A use of a name is resolved against the table the way a
compiler resolves it against the mendfile: a chain of members is followed as far as it
goes, and the first thing that is not there is what is missing. Tables that only grow
resolve more of every use, never less. -/
namespace CMender
open Foundations Foundations.Execution

inductive Use where
  | header (text : String)
  | typename (name : String)
  | tag (name : String)
  | call (name : String)
  /-- `name.member.member` and so on. -/
  | access (name : String) (members : List String)

/-- How many declarations a use needs. -/
def Use.size : Use → Nat
  | .access _ members => members.length + 1
  | _ => 1

inductive Missing where
  | header (text : String)
  | typename (name : String)
  | tag (name : String)
  | function (name : String)
  | variable (name : String)
  | member (name tag : String)
deriving DecidableEq

/-- A use that is not declared lacks one thing now, and a number of things in all. What is
not a record has no members. -/
inductive Resolution where
  | declared
  | missing (what : Missing) (left : Nat)
  | unusable

namespace Resolution

def ofKnown (declared : Bool) (what : Missing) : Resolution := if declared then .declared else .missing what 1

def left : Resolution → Nat
  | .missing _ left => left
  | _ => 0

theorem ofKnown_missing {isDeclared : Bool} {what other : Missing} {left : Nat} :
    ofKnown isDeclared what = .missing other left ↔ isDeclared = false ∧ what = other ∧ left = 1 := by
  cases isDeclared <;> simp [ofKnown, eq_comm]

theorem left_ofKnown {isDeclared : Bool} {what : Missing} :
    (ofKnown isDeclared what).left = if isDeclared then 0 else 1 := by
  cases isDeclared <;> rfl

end Resolution

namespace MendingTable

/-- The record behind a typedef type, with its tag. -/
def recordOf (table : MendingTable) (type : Ref TypedefType) : Option (String × Ref RecordSymbol) :=
  match (table.aliasedType type).type with
  | some (.record tag _) => (table.records.lookup tag).map (tag, ·)
  | _ => none

def memberNamed (table : MendingTable) (record : Ref RecordSymbol) (name : String) : Option Member :=
  (table.members record).find? (·.name == name)

def resolveMembers (table : MendingTable) : Ref TypedefType → List String → Resolution
  | _, [] => .declared
  | type, name :: rest =>
    match table.recordOf type with
    | none => .unusable
    | some (tag, record) =>
      match table.memberNamed record name with
      | none => .missing (.member name tag) (rest.length + 1)
      | some member => table.resolveMembers member.type rest

end MendingTable

def resolve (includePath : String) (s : MendingState) : Use → Resolution
  | .header text => .ofKnown (s.files.regularFiles.contains (Path.canonical includePath text)) (.header text)
  | .typename name => .ofKnown (s.table.typedefs.containsKey name) (.typename name)
  | .tag name => .ofKnown (s.table.records.containsKey name) (.tag name)
  | .call name => .ofKnown (s.table.functions.containsKey name) (.function name)
  | .access name members =>
    match s.table.variables.lookup name with
    | none => .missing (.variable name) (members.length + 1)
    | some symbol => s.table.resolveMembers symbol.type members

/-- The table has what was missing. -/
def Supplied (includePath : String) (s : MendingState) : Missing → Prop
  | .header text => Path.canonical includePath text ∈ s.files.regularFiles
  | .typename name => ∃ symbol, s.table.typedefs.lookup name = some symbol
  | .tag name => ∃ record, s.table.records.lookup name = some record
  | .function name => ∃ symbol, s.table.functions.lookup name = some symbol
  | .variable name => ∃ symbol, s.table.variables.lookup name = some symbol
  | .member name tag => ∃ record, s.table.records.lookup tag = some record ∧
      ∃ member, s.table.memberNamed record name = some member

/-- The table lacks it, and there is a place for it. A header that was noted may also be there. -/
def Lacks (includePath : String) (s : MendingState) : Missing → Prop
  | .header text => Path.canonical includePath text ∈ s.table.ppFiles ∨
      Path.canonical includePath text ∉ s.files.regularFiles
  | .typename name => s.table.typedefs.lookup name = none
  | .tag name => s.table.records.lookup name = none
  | .function name => s.table.functions.lookup name = none
  | .variable name => s.table.variables.lookup name = none
  | .member name tag => ∃ record, s.table.records.lookup tag = some record ∧
      s.table.memberNamed record name = none

section Resolving
variable {includePath : String} {s t : MendingState} {table later : MendingTable} {type : Ref TypedefType}
  {record : Ref RecordSymbol} {tag name : String} {what : Missing} {left : Nat}

theorem recordOf_lookup (found : table.recordOf type = some (tag, record)) :
    table.records.lookup tag = some record := by
  unfold MendingTable.recordOf at found
  split at found
  · obtain ⟨_, known, same⟩ := Option.map_eq_some_iff.mp found
    cases same
    exact known
  · cases found

theorem containsKey_false {α : Type} {map : Map String α} {key : String} :
    map.containsKey key = false ↔ map.lookup key = none := by
  rw [Map.containsKey, Option.isSome_eq_false_iff, Option.isNone_iff_eq_none]

theorem resolveMembers_missing {members : List String}
    (resolved : table.resolveMembers type members = .missing what left) :
    ∃ name tag record, what = .member name tag ∧ table.records.lookup tag = some record ∧
      table.memberNamed record name = none := by
  induction members generalizing type with
  | nil => cases resolved
  | cons name rest ih =>
    rw [MendingTable.resolveMembers] at resolved
    split at resolved
    · cases resolved
    rename_i tag record found
    split at resolved
    · rename_i absent
      cases resolved
      exact ⟨name, tag, record, rfl, recordOf_lookup found, absent⟩
    · exact ih resolved

/-- What a use misses is not there. -/
theorem resolve_missing {use : Use} (resolved : resolve includePath s use = .missing what left) :
    Lacks includePath s what ∧ ¬ Supplied includePath s what := by
  have none_of {α : Type} {map : Map String α} {key : String} (absent : map.lookup key = none) :
      ¬ ∃ value, map.lookup key = some value := by
    rintro ⟨_, found⟩
    rw [absent] at found
    cases found
  cases use with
  | header text =>
    obtain ⟨absent, rfl, _⟩ := Resolution.ofKnown_missing.mp resolved
    have absent : Path.canonical includePath text ∉ s.files.regularFiles := by simpa using absent
    exact ⟨.inr absent, absent⟩
  | typename name | tag name | call name =>
    obtain ⟨absent, rfl, _⟩ := Resolution.ofKnown_missing.mp resolved
    have absent := containsKey_false.mp absent
    exact ⟨absent, none_of absent⟩
  | access name members =>
    rw [resolve] at resolved
    split at resolved
    · rename_i absent
      cases resolved
      exact ⟨absent, none_of absent⟩
    · obtain ⟨name, tag, record, rfl, known, absent⟩ := resolveMembers_missing resolved
      refine ⟨⟨record, known, absent⟩, ?_⟩
      rintro ⟨other, sameTag, member, found⟩
      rw [known] at sameTag
      cases sameTag
      rw [absent] at found
      cases found

theorem left_resolveMembers_le {members : List String} :
    (table.resolveMembers type members).left ≤ members.length := by
  induction members generalizing type with
  | nil => exact Nat.le_refl _
  | cons name rest ih =>
    rw [MendingTable.resolveMembers]
    split
    · exact Nat.zero_le _
    · split
      · exact Nat.le_refl _
      · exact ih.trans (Nat.le_succ _)

theorem left_pos {use : Use} (resolved : resolve includePath s use = .missing what left) : 0 < left := by
  have chain {type : Ref TypedefType} {members : List String}
      (resolved : s.table.resolveMembers type members = .missing what left) : 0 < left := by
    induction members generalizing type with
    | nil => cases resolved
    | cons name rest ih =>
      rw [MendingTable.resolveMembers] at resolved
      split at resolved
      · cases resolved
      · split at resolved
        · cases resolved
          exact Nat.succ_pos _
        · exact ih resolved
  cases use with
  | access name members =>
    rw [resolve] at resolved
    split at resolved
    · cases resolved
      exact Nat.succ_pos _
    · exact chain resolved
  | _ =>
    obtain ⟨_, _, rfl⟩ := Resolution.ofKnown_missing.mp resolved
    exact Nat.one_pos

end Resolving

/-- Nothing that was there is gone or has changed, except that records may have more members. -/
structure MendingTable.Extends (table later : MendingTable) : Prop where
  typedefs : ∀ name, table.typedefs.containsKey name = true → later.typedefs.containsKey name = true
  functions : ∀ name, table.functions.containsKey name = true → later.functions.containsKey name = true
  variableNames : ∀ name symbol, table.variables.lookup name = some symbol →
    later.variables.lookup name = some symbol
  records : ∀ tag record, table.records.lookup tag = some record → later.records.lookup tag = some record
  members : ∀ tag record, table.records.lookup tag = some record → table.members record <+: later.members record
  types : ∀ type, table.typedefTypes.Allocated type → later.aliasedType type = table.aliasedType type ∧
    later.typedefTypes.Allocated type

namespace MendingTable.Extends
variable {table later last : MendingTable} {type : Ref TypedefType} {record : Ref RecordSymbol}
  {tag name : String} {what : Missing} {left : Nat}

theorem refl (table : MendingTable) : table.Extends table :=
  ⟨fun _ => id, fun _ => id, fun _ _ => id, fun _ _ => id, fun _ _ _ => List.prefix_rfl,
    fun _ allocated => ⟨rfl, allocated⟩⟩

theorem trans (first : table.Extends later) (second : later.Extends last) : table.Extends last where
  typedefs name known := second.typedefs name (first.typedefs name known)
  functions name known := second.functions name (first.functions name known)
  variableNames name symbol found := second.variableNames name symbol (first.variableNames name symbol found)
  records tag record found := second.records tag record (first.records tag record found)
  members tag record found := (first.members tag record found).trans
    (second.members tag record (first.records tag record found))
  types type allocated :=
    have ⟨same, still⟩ := first.types type allocated
    have ⟨again, afterwards⟩ := second.types type still
    ⟨again.trans same, afterwards⟩

theorem recordOf (grown : table.Extends later) (allocated : table.typedefTypes.Allocated type)
    (found : table.recordOf type = some (tag, record)) : later.recordOf type = some (tag, record) := by
  have known := grown.records tag record (recordOf_lookup found)
  unfold MendingTable.recordOf at found ⊢
  rw [(grown.types type allocated).1]
  split at found
  · obtain ⟨_, _, same⟩ := Option.map_eq_some_iff.mp found
    cases same
    exact Option.map_eq_some_iff.mpr ⟨record, known, rfl⟩
  · cases found

theorem memberNamed (grown : table.Extends later) (known : table.records.lookup tag = some record) {member : Member}
    (found : table.memberNamed record name = some member) : later.memberNamed record name = some member :=
  (grown.members tag record known).find?_eq_some found

/-- The member of a registered record has a typedef type of the table. -/
theorem memberType (formed : table.WellFormed) (known : table.records.lookup tag = some record)
    {member : Member} (found : table.memberNamed record name = some member) :
    table.typedefTypes.Allocated member.type :=
  formed.memberTypes record (formed.records tag record known).1 member (List.mem_of_find?_eq_some found)

theorem left_le (grown : table.Extends later) (formed : table.WellFormed) {members : List String}
    (allocated : table.typedefTypes.Allocated type) (usable : table.resolveMembers type members ≠ .unusable) :
    (later.resolveMembers type members).left ≤ (table.resolveMembers type members).left := by
  induction members generalizing type with
  | nil => exact Nat.le_refl _
  | cons name rest ih =>
    cases found : table.recordOf type with
    | none =>
      rw [MendingTable.resolveMembers, found] at usable
      exact absurd rfl usable
    | some place =>
      obtain ⟨tag, record⟩ := place
      have known := recordOf_lookup found
      simp only [MendingTable.resolveMembers, found, grown.recordOf allocated found] at usable ⊢
      cases named : table.memberNamed record name with
      | some member =>
        simp only [named, grown.memberNamed known named] at usable ⊢
        exact ih (memberType formed known named) usable
      | none =>
        cases later.memberNamed record name with
        | none => exact Nat.le_refl _
        | some member => exact left_resolveMembers_le.trans (Nat.le_succ _)

theorem left_lt (grown : table.Extends later) (formed : table.WellFormed) {members : List String}
    (allocated : table.typedefTypes.Allocated type)
    (missing : table.resolveMembers type members = .missing what left)
    (supplied : ∀ name tag, what = .member name tag → ∃ record, later.records.lookup tag = some record ∧
      ∃ member, later.memberNamed record name = some member) :
    (later.resolveMembers type members).left < left := by
  induction members generalizing type with
  | nil => cases missing
  | cons name rest ih =>
    cases found : table.recordOf type with
    | none =>
      rw [MendingTable.resolveMembers, found] at missing
      cases missing
    | some place =>
      obtain ⟨tag, record⟩ := place
      have known := recordOf_lookup found
      simp only [MendingTable.resolveMembers, found, grown.recordOf allocated found] at missing ⊢
      cases named : table.memberNamed record name with
      | some member =>
        simp only [named, grown.memberNamed known named] at missing ⊢
        exact ih (memberType formed known named) missing
      | none =>
        simp only [named, Resolution.missing.injEq] at missing
        obtain ⟨rfl, rfl⟩ := missing
        obtain ⟨other, sameTag, member, found⟩ := supplied name tag rfl
        rw [grown.records tag record known] at sameTag
        cases sameTag
        simp only [found]
        exact Nat.lt_succ_of_le left_resolveMembers_le

end MendingTable.Extends

/-- The table extends the one before, and no header is gone. -/
structure Extends (s t : MendingState) : Prop where
  table : s.table.Extends t.table
  files : ∀ path ∈ s.files.regularFiles, path ∈ t.files.regularFiles

namespace Extends
variable {includePath : String} {s t u : MendingState} {what : Missing} {left : Nat} {use : Use}

theorem refl (s : MendingState) : Extends s s := ⟨.refl _, fun _ => id⟩

theorem trans (first : Extends s t) (second : Extends t u) : Extends s u :=
  ⟨first.table.trans second.table, fun path member => second.files path (first.files path member)⟩

theorem supplied (grown : Extends s t) (supplied : Supplied includePath s what) : Supplied includePath t what := by
  cases what with
  | header text => exact grown.files _ supplied
  | typename name => exact Map.containsKey_iff.mp (grown.table.typedefs name (Map.containsKey_iff.mpr supplied))
  | tag name => exact supplied.imp fun record => grown.table.records name record
  | function name => exact Map.containsKey_iff.mp (grown.table.functions name (Map.containsKey_iff.mpr supplied))
  | «variable» name => exact supplied.imp fun symbol => grown.table.variableNames name symbol
  | member name tag =>
    obtain ⟨record, known, member, found⟩ := supplied
    exact ⟨record, grown.table.records tag record known, member, grown.table.memberNamed known found⟩

/-- No use lacks more than before. -/
theorem left_le (grown : Extends s t) (formed : s.table.WellFormed)
    (usable : resolve includePath s use ≠ .unusable) :
    (resolve includePath t use).left ≤ (resolve includePath s use).left := by
  have known_le {before after : Bool} {what : Missing} (kept : before = true → after = true) :
      (Resolution.ofKnown after what).left ≤ (Resolution.ofKnown before what).left := by
    revert kept
    cases before <;> cases after <;> simp [Resolution.left_ofKnown]
  cases use with
  | header text =>
    apply known_le
    simpa using grown.files _
  | typename name => exact known_le (grown.table.typedefs name)
  | tag name =>
    apply known_le
    simp only [Map.containsKey_iff]
    exact Exists.imp fun record => grown.table.records name record
  | call name => exact known_le (grown.table.functions name)
  | access name members =>
    cases found : s.table.variables.lookup name with
    | none =>
      simp only [resolve, found]
      split
      · exact Nat.le_refl _
      · exact left_resolveMembers_le.trans (Nat.le_succ _)
    | some symbol =>
      simp only [resolve, found, grown.table.variableNames name symbol found] at usable ⊢
      exact grown.table.left_le formed (formed.variableTypes name symbol found) usable

/-- A use that gets what it misses lacks less. -/
theorem left_lt (grown : Extends s t) (formed : s.table.WellFormed)
    (missing : resolve includePath s use = .missing what left) (supplied : Supplied includePath t what) :
    (resolve includePath t use).left < left := by
  cases use with
  | header text =>
    obtain ⟨_, rfl, rfl⟩ := Resolution.ofKnown_missing.mp missing
    have supplied : Path.canonical includePath text ∈ t.files.regularFiles := supplied
    simp [resolve, Resolution.left_ofKnown, supplied]
  | typename name | tag name | call name =>
    obtain ⟨_, rfl, rfl⟩ := Resolution.ofKnown_missing.mp missing
    have known := Map.containsKey_iff.mpr supplied
    simp [resolve, Resolution.left_ofKnown, known]
  | access name members =>
    cases found : s.table.variables.lookup name with
    | none =>
      simp only [resolve, found, Resolution.missing.injEq] at missing
      obtain ⟨rfl, rfl⟩ := missing
      obtain ⟨symbol, later⟩ := supplied
      simp only [resolve, later]
      exact Nat.lt_succ_of_le left_resolveMembers_le
    | some symbol =>
      simp only [resolve, found, grown.table.variableNames name symbol found] at missing ⊢
      refine grown.table.left_lt formed (formed.variableTypes name symbol found) missing ?_
      rintro name tag rfl
      exact supplied

end Extends
end CMender
