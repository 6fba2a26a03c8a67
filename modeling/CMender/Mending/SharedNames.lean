import CMender.Mending.Names
import CMender.Foundations.Interleaving

/-! The name generator as the workers of several files share it. Its counters are
plain integers, and a `counter++` reads one in one step and writes it back, one
larger, in another. A worker that writes after others have done so more than once
sets the counter back, and names are handed out again. -/
namespace CMender
open Foundations Foundations.Execution Foundations.Interleaving

inductive NameKind where
  | typedefAlias | tagType | enumConstant
deriving DecidableEq, Repr

namespace MendingTypeNameGenerator

def generatedName : NameKind → BitVec 32 → String
  | .typedefAlias, counter => typedefAliasName counter.toNat
  | .tagType, counter => tagTypeName counter.toNat
  | .enumConstant, counter => enumConstantName counter.toNat

def newName (generator : MendingTypeNameGenerator) : NameKind → String × MendingTypeNameGenerator
  | .typedefAlias => generator.newTypedefAliasName
  | .tagType => generator.newTagTypeName
  | .enumConstant => generator.newEnumConstantName

/-- What the counters hold after the generator has handed out its names. -/
def cells (generator : MendingTypeNameGenerator) : NameKind → BitVec 32
  | .typedefAlias => .ofNat 32 generator.typedefAliasNameCounter
  | .tagType => .ofNat 32 generator.tagTypeNameCounter
  | .enumConstant => .ofNat 32 generator.enumConstantNameCounter

theorem counterText_toNat (counter : BitVec 32) : counterText counter.toNat = toString counter.toInt := by
  rw [counterText, BitVec.ofNat_toNat, BitVec.setWidth_eq]

theorem counterText_ofNat (count : Nat) : counterText (BitVec.ofNat 32 count).toNat = counterText count :=
  counterText_toNat _

theorem newName_fst (generator : MendingTypeNameGenerator) (kind : NameKind) :
    (generator.newName kind).1 = generatedName kind (generator.cells kind) := by
  cases kind with
  | typedefAlias =>
    simp only [newName, newTypedefAliasName, cells, generatedName, typedefAliasName, counterText_ofNat]
  | tagType => simp only [newName, newTagTypeName, cells, generatedName, tagTypeName, counterText_ofNat]
  | enumConstant =>
    simp only [newName, newEnumConstantName, cells, generatedName, enumConstantName, counterText_ofNat]

theorem newName_cells (generator : MendingTypeNameGenerator) (kind : NameKind) :
    (generator.newName kind).2.cells = Function.update generator.cells kind (generator.cells kind + 1) := by
  funext other
  by_cases same : other = kind
  · subst same
    rw [Function.update_self]
    cases other with
    | typedefAlias => exact BitVec.ofNat_add _ 1
    | tagType => exact BitVec.ofNat_add _ 1
    | enumConstant => exact BitVec.ofNat_add _ 1
  · rw [Function.update_of_ne same]
    cases kind <;> cases other <;> first | rfl | exact absurd rfl same

/-- The kinds differ in the tenth character of their names. -/
theorem tenth_character (kind : NameKind) (counter : BitVec 32) : (generatedName kind counter).toList[9]? =
    match kind with
    | .typedefAlias => some 'y'
    | .tagType => some 'a'
    | .enumConstant => some 'n' := by
  cases kind with
  | typedefAlias =>
    simp [generatedName, typedefAliasName, cmenderTypedefAliasNamePrefix, String.toList_append]
  | tagType => simp [generatedName, tagTypeName, cmenderTagTypeNamePrefix, String.toList_append]
  | enumConstant => simp [generatedName, enumConstantName, cmenderEnumConstantNamePrefix, String.toList_append]

theorem generatedName_injective {kind kind' : NameKind} {counter counter' : BitVec 32}
    (same : generatedName kind counter = generatedName kind' counter') : kind = kind' ∧ counter = counter' := by
  have tenth := congrArg (fun name : String => name.toList[9]?) same
  simp only [tenth_character] at tenth
  have kinds : kind = kind' := by
    cases kind <;> cases kind' <;> first | rfl | exact absurd tenth (by decide)
  subst kinds
  have texts : counterText counter.toNat = counterText counter'.toNat := by
    cases kind with
    | typedefAlias => exact (String.append_right_inj _).mp same
    | tagType => exact (String.append_right_inj _).mp same
    | enumConstant => exact (String.append_right_inj _).mp same
  rw [counterText_toNat, counterText_toNat] at texts
  exact ⟨rfl, BitVec.toInt_inj.mp (Text.toString_int_injective texts)⟩

end MendingTypeNameGenerator

open MendingTypeNameGenerator

/-- The calls a worker still has to make, the counter it has read for the first of
them, and the names it has received. -/
structure NameWorker where
  calls : List NameKind
  read : Option (BitVec 32)
  names : List String
deriving DecidableEq

def nameStep (cells : NameKind → BitVec 32) : NameWorker → Option ((NameKind → BitVec 32) × NameWorker)
  | ⟨[], _, _⟩ => none
  | ⟨kind :: rest, none, names⟩ => some (cells, ⟨kind :: rest, some (cells kind), names⟩)
  | ⟨kind :: rest, some value, names⟩ =>
    some (Function.update cells kind (value + 1), ⟨rest, none, names ++ [generatedName kind value]⟩)

/-- A worker that writes does not set its counter back. -/
def WritesForward (cells : NameKind → BitVec 32) : NameWorker → Prop
  | ⟨kind :: _, some value, _⟩ => (cells kind).toNat ≤ (value + 1).toNat
  | _ => True

instance (cells : NameKind → BitVec 32) : DecidablePred (WritesForward cells)
  | ⟨[], _, _⟩ => .isTrue trivial
  | ⟨_ :: _, none, _⟩ => .isTrue trivial
  | ⟨kind :: _, some value, _⟩ => inferInstanceAs (Decidable ((cells kind).toNat ≤ (value + 1).toNat))

/-- Two steps in a row are the call of a worker that has the generator for itself. -/
theorem newName_eq_steps (generator : MendingTypeNameGenerator) (kind : NameKind) (rest : List NameKind)
    (names : List String) :
    ((nameStep generator.cells ⟨kind :: rest, none, names⟩).bind fun next => nameStep next.1 next.2) =
      some ((generator.newName kind).2.cells, ⟨rest, none, names ++ [(generator.newName kind).1]⟩) := by
  rw [newName_fst, newName_cells]
  rfl

section Workers
variable {cells next : NameKind → BitVec 32} {worker worker' other : NameWorker}

theorem nameStep_iff : nameStep cells worker = some (next, worker') ↔
    (∃ kind rest names, worker = ⟨kind :: rest, none, names⟩ ∧ next = cells ∧
      worker' = ⟨kind :: rest, some (cells kind), names⟩) ∨
    ∃ kind rest value names, worker = ⟨kind :: rest, some value, names⟩ ∧
      next = Function.update cells kind (value + 1) ∧
      worker' = ⟨rest, none, names ++ [generatedName kind value]⟩ := by
  obtain ⟨calls, read, names⟩ := worker
  cases calls with
  | nil => simp [nameStep]
  | cons kind rest =>
    cases read with
    | none =>
      constructor
      · intro stepped
        cases stepped
        exact .inl ⟨kind, rest, names, rfl, rfl, rfl⟩
      · rintro (⟨_, _, _, same, rfl, rfl⟩ | ⟨_, _, _, _, same, _⟩)
        · cases same
          rfl
        · cases same
    | some value =>
      constructor
      · intro stepped
        cases stepped
        exact .inr ⟨kind, rest, value, names, rfl, rfl, rfl⟩
      · rintro (⟨_, _, _, same, _⟩ | ⟨_, _, _, _, same, rfl, rfl⟩)
        · cases same
        · cases same
          rfl

/-- The names received are pairwise different and show counters below the cells, and
below the counter that is about to be used. -/
structure NamesFresh (cells : NameKind → BitVec 32) (worker : NameWorker) : Prop where
  nodup : worker.names.Nodup
  below : ∀ kind value, generatedName kind value ∈ worker.names → value.toNat < (cells kind).toNat
  reading : ∀ kind rest pending, worker.calls = kind :: rest → worker.read = some pending →
    pending.toNat ≤ (cells kind).toNat ∧
      ∀ value, generatedName kind value ∈ worker.names → value.toNat < pending.toNat

/-- No counter is set back. -/
theorem nameStep_cells_le (stepped : nameStep cells worker = some (next, worker'))
    (forward : WritesForward cells worker) (kind : NameKind) : (cells kind).toNat ≤ (next kind).toNat := by
  rcases nameStep_iff.mp stepped with ⟨_, _, _, rfl, rfl, rfl⟩ | ⟨own, rest, value, names, rfl, rfl, rfl⟩
  · exact Nat.le_refl _
  · by_cases same : kind = own
    · subst same
      rw [Function.update_self]
      exact forward
    · rw [Function.update_of_ne same]

theorem NamesFresh.mono (fresh : NamesFresh cells worker) (grown : ∀ kind, (cells kind).toNat ≤ (next kind).toNat) :
    NamesFresh next worker := by
  refine ⟨fresh.nodup, fun kind value received => ?_, fun kind rest pending calls read => ?_⟩
  · exact Nat.lt_of_lt_of_le (fresh.below kind value received) (grown kind)
  · obtain ⟨within, above⟩ := fresh.reading kind rest pending calls read
    exact ⟨within.trans (grown kind), above⟩

/-- A write that does not set the counter back does not wrap it around either. -/
theorem lt_succ_of_forward {value cell : BitVec 32} (within : value.toNat ≤ cell.toNat)
    (forward : cell.toNat ≤ (value + 1).toNat) : value.toNat < (value + 1).toNat := by
  have small := value.isLt
  rw [BitVec.toNat_add] at forward ⊢
  have one : (1 : BitVec 32).toNat = 1 := rfl
  rw [one] at forward ⊢
  omega

theorem NamesFresh.step (fresh : NamesFresh cells worker) (forward : WritesForward cells worker)
    (stepped : nameStep cells worker = some (next, worker')) : NamesFresh next worker' := by
  have grown := nameStep_cells_le stepped forward
  rcases nameStep_iff.mp stepped with ⟨kind, rest, names, rfl, rfl, rfl⟩ | ⟨kind, rest, value, names, rfl, rfl, rfl⟩
  · refine ⟨fresh.nodup, fresh.below, fun _ _ pending calls read => ?_⟩
    cases calls
    cases read
    exact ⟨Nat.le_refl _, fresh.below kind⟩
  · obtain ⟨within, above⟩ := fresh.reading kind rest value rfl rfl
    have advanced := lt_succ_of_forward within forward
    refine ⟨?_, fun other shown received => ?_, fun _ _ _ _ read => nomatch read⟩
    · rw [← List.concat_eq_append, List.nodup_concat]
      exact ⟨fun again => Nat.lt_irrefl _ (above value again), fresh.nodup⟩
    · rcases List.mem_append.mp received with old | new
      · exact Nat.lt_of_lt_of_le (fresh.below other shown old) (grown other)
      · obtain ⟨rfl, rfl⟩ := generatedName_injective (List.mem_singleton.mp new)
        rwa [Function.update_self]

end Workers

section Schedules
variable {ι : Type} [DecidableEq ι]

/-- All counters at zero, and all calls to be made. -/
def naming (calls : ι → List NameKind) : Config ι (NameKind → BitVec 32) NameWorker :=
  ⟨fun _ => 0, fun i => ⟨calls i, none, []⟩⟩

theorem namesFresh_run {c d : Config ι (NameKind → BitVec 32) NameWorker} {schedule : List ι}
    (run : Reaches (AllowedTurn nameStep WritesForward) c schedule d)
    (fresh : ∀ i, NamesFresh c.shared (c.workers i)) : ∀ i, NamesFresh d.shared (d.workers i) :=
  run.invariant (P := fun c => ∀ i, NamesFresh c.shared (c.workers i))
    (fun fresh taken => taken.keeps (fun own forward stepped => own.step forward stepped)
      (fun _ forward stepped other => other.mono (nameStep_cells_le stepped forward)) fresh) fresh

/-- As long as no write sets a counter back, no worker is given a name twice. -/
theorem received_names_nodup (calls : ι → List NameKind) (schedule : List ι)
    (c : Config ι (NameKind → BitVec 32) NameWorker)
    (run : Reaches (AllowedTurn nameStep WritesForward) (naming calls) schedule c) (i : ι) :
    (c.workers i).names.Nodup := by
  have start : ∀ i, NamesFresh (naming calls).shared ((naming calls).workers i) :=
    fun i => ⟨List.nodup_nil, fun _ _ received => (List.not_mem_nil received).elim, fun _ _ _ _ read => nomatch read⟩
  exact (namesFresh_run run start i).nodup

/-- One worker asks for an alias twice while the other takes turns in between. -/
theorem received_names_nodup_two : ∃ c,
    Reaches (AllowedTurn nameStep WritesForward)
      (naming fun _ : Fin 2 => [.typedefAlias, .typedefAlias]) [0, 1, 1, 0, 0, 0] c ∧
    (c.workers 0).names = ["cmender_type_alias_0", "cmender_type_alias_1"] ∧ (c.workers 0).names.Nodup := by
  have ran : ∃ c, Reaches (AllowedTurn nameStep WritesForward)
      (naming fun _ : Fin 2 => [.typedefAlias, .typedefAlias]) [0, 1, 1, 0, 0, 0] c ∧
      (c.workers 0).names = ["cmender_type_alias_0", "cmender_type_alias_1"] :=
    ⟨_, .next ⟨rfl, trivial⟩ (.next ⟨rfl, trivial⟩ (.next ⟨rfl, by decide +kernel⟩ (.next ⟨rfl, by decide +kernel⟩
      (.next ⟨rfl, trivial⟩ (.next ⟨rfl, by decide +kernel⟩ (.refl _)))))), by decide +kernel⟩
  obtain ⟨c, run, names⟩ := ran
  exact ⟨c, run, names, received_names_nodup _ _ c run 0⟩

/-- The first worker reads zero and writes one only after the second has had two names. -/
theorem name_received_twice : ∃ c,
    Reaches (Turn nameStep)
      (naming fun i : Fin 2 => if i = 0 then [.typedefAlias] else [.typedefAlias, .typedefAlias, .typedefAlias])
      [0, 1, 1, 1, 1, 0, 1, 1] c ∧
    (c.workers 1).names = ["cmender_type_alias_0", "cmender_type_alias_1", "cmender_type_alias_1"] := by
  refine ⟨_, .next rfl (.next rfl (.next rfl (.next rfl (.next rfl (.next rfl (.next rfl (.next rfl
    (.refl _)))))))), ?_⟩
  decide +kernel

end Schedules
end CMender
