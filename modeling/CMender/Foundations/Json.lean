import Mathlib.Data.List.Forall2
import Mathlib.Tactic.Common
import Mathlib.Tactic.Positivity

/-! JSON values, and how a binder reads them into typed components. A reader is
a partial function: it returns nothing for a value that it rejects. Objects keep
the order of their members, and a key that is not there reads as null. -/
namespace Foundations

inductive Json where
  | null
  | bool (value : Bool)
  | number (value : Int)
  | string (text : String)
  | array (items : List Json)
  | object (members : List (String × Json))

namespace Json
variable {α β : Type}

def get : List (String × Json) → String → Json
  | [], _ => .null
  | (name, value) :: rest, key => if key = name then value else get rest key

@[simp] theorem get_nil (key : String) : get [] key = .null := rfl

@[simp] theorem get_cons (name key : String) (value : Json) (rest : List (String × Json)) :
    get ((name, value) :: rest) key = if key = name then value else get rest key := rfl

/-- What stands under a key is smaller than the object, so readers may follow it. -/
theorem sizeOf_get_lt (members : List (String × Json)) (key : String) :
    sizeOf (get members key) < sizeOf (Json.object members) := by
  induction members with
  | nil => simp
  | cons member rest ih =>
    obtain ⟨name, value⟩ := member
    simp only [get_cons]
    split
    · simp only [object.sizeOf_spec, List.cons.sizeOf_spec, Prod.mk.sizeOf_spec]
      omega
    · simp only [object.sizeOf_spec, List.cons.sizeOf_spec, Prod.mk.sizeOf_spec] at ih ⊢
      omega

/-! ### Readers -/

def text : Json → Option String
  | .string text => some text
  | _ => none

/-- A signed integer of the given width; one that does not fit is rejected. -/
def integer (width : Nat) : Json → Option Int
  | .number value => if -2 ^ (width - 1) ≤ value ∧ value < 2 ^ (width - 1) then some value else none
  | _ => none

/-- A truth value; a number counts as true when it is not zero. -/
def flag : Json → Option Bool
  | .bool value => some value
  | .number value => some (value != 0)
  | _ => none

/-- A constant of an enumeration, by its name. -/
def named (names : String → Option α) : Json → Option α
  | .string name => names name
  | _ => none

def members : Json → Option (List (String × Json))
  | .object members => some members
  | _ => none

def items : Json → Option (List Json)
  | .array items => some items
  | _ => none

/-- A component that may be null. -/
def nullable (read : Json → Option α) : Json → Option (Option α)
  | .null => some none
  | json => (read json).map some

/-- A component of primitive type, which null leaves at its default. -/
def orDefault (default : α) (read : Json → Option α) : Json → Option α
  | .null => some default
  | json => read json

@[simp] theorem text_string (s : String) : text (.string s) = some s := rfl

@[simp] theorem flag_bool (b : Bool) : flag (.bool b) = some b := rfl

@[simp] theorem flag_number (n : Int) : flag (.number n) = some (n != 0) := rfl

@[simp] theorem named_string (names : String → Option α) (s : String) :
    named names (.string s) = names s := rfl

@[simp] theorem members_object (m : List (String × Json)) : members (.object m) = some m := rfl

@[simp] theorem items_array (xs : List Json) : items (.array xs) = some xs := rfl

@[simp] theorem nullable_null (read : Json → Option α) : nullable read .null = some none := rfl

@[simp] theorem nullable_object (read : Json → Option α) (m : List (String × Json)) :
    nullable read (.object m) = (read (.object m)).map some := rfl

@[simp] theorem nullable_array (read : Json → Option α) (xs : List Json) :
    nullable read (.array xs) = (read (.array xs)).map some := rfl

@[simp] theorem orDefault_null (default : α) (read : Json → Option α) :
    orDefault default read .null = some default := rfl

@[simp] theorem orDefault_bool (default : α) (read : Json → Option α) (b : Bool) :
    orDefault default read (.bool b) = read (.bool b) := rfl

-- Not by definition: unfolding both sides would compute the bounds of `integer`.
@[simp] theorem orDefault_number (default : α) (read : Json → Option α) (n : Int) :
    orDefault default read (.number n) = read (.number n) := by
  simp only [orDefault]

theorem integer_number {width : Nat} {n value : Int} :
    integer width (.number n) = some value ↔
      (-2 ^ (width - 1) ≤ n ∧ n < 2 ^ (width - 1)) ∧ n = value := by
  simp only [integer]
  split
  · rename_i fits
    simp [fits]
  · rename_i fits
    simp [fits]

/-- An unsigned number fits when it leaves the sign bit alone. -/
@[simp] theorem integer_natCast {width n : Nat} {value : Int} :
    integer width (.number n) = some value ↔ n < 2 ^ (width - 1) ∧ (n : Int) = value := by
  have nonneg : -2 ^ (width - 1) ≤ (n : Int) := by
    have power : (0 : Int) ≤ 2 ^ (width - 1) := by positivity
    omega
  have bound : (n : Int) < 2 ^ (width - 1) ↔ n < 2 ^ (width - 1) := by exact_mod_cast Iff.rfl
  rw [integer_number, bound]
  simp [nonneg]

/-! ### Reading back what was written -/

/-- A text or null, as a writer puts an optional text. -/
def ofText : Option String → Json
  | none => .null
  | some text => .string text

@[simp] theorem nullable_ofText (text? : Option String) : nullable text (ofText text?) = some text? := by
  cases text? <;> rfl

/-- A reading that is accepted without condition. -/
theorem accepted_iff {reading : Option α} {value result : α} (reads : reading = some value) :
    reading = some result ↔ True ∧ value = result := by
  rw [reads, Option.some.injEq, true_and]

/-- A reading that is accepted in exactly one way, followed by others. -/
theorem bind_iff {reading : Option α} {next : α → Option β} {result : β} {Readable : Prop} {value : α}
    (reads : ∀ read, reading = some read ↔ Readable ∧ value = read) :
    (reading >>= next) = some result ↔ Readable ∧ next value = some result := by
  simp only [Option.bind_eq_bind, Option.bind_eq_some_iff, reads]
  constructor
  · rintro ⟨_, ⟨readable, rfl⟩, rest⟩
    exact ⟨readable, rest⟩
  · rintro ⟨readable, rest⟩
    exact ⟨value, ⟨readable, rfl⟩, rest⟩

theorem some_bind {next : α → Option β} {value : α} : (some value >>= next) = next value := rfl

/-- If a reader accepts exactly the readable values and reads each of them as its
transcript, then it reads a list of them as the list of the transcripts. -/
theorem mapM_map_iff {write : α → Json} {read : Json → Option β} {Readable : α → Prop}
    {transcript : α → β} (xs : List α)
    (reads : ∀ x ∈ xs, ∀ y, read (write x) = some y ↔ Readable x ∧ transcript x = y) (ys : List β) :
    (xs.map write).mapM read = some ys ↔ (∀ x ∈ xs, Readable x) ∧ xs.map transcript = ys := by
  induction xs generalizing ys with
  | nil => simp
  | cons x xs ih =>
    have first := reads x List.mem_cons_self
    have others (rest : List β) : (xs.map write).mapM read = some rest ↔
        (∀ x ∈ xs, Readable x) ∧ xs.map transcript = rest :=
      ih (fun x' inside => reads x' (List.mem_cons_of_mem _ inside)) rest
    simp only [List.map_cons, List.mapM_cons, Option.bind_eq_bind, Option.bind_eq_some_iff, first,
      others, Option.pure_def, Option.some.injEq, List.forall_mem_cons]
    constructor
    · rintro ⟨y, ⟨readable, rfl⟩, ys', ⟨allReadable, rfl⟩, rfl⟩
      exact ⟨⟨readable, allReadable⟩, rfl⟩
    · rintro ⟨⟨readable, allReadable⟩, rfl⟩
      exact ⟨_, ⟨readable, rfl⟩, _, ⟨allReadable, rfl⟩, rfl⟩

end Json
end Foundations
