import CMender.Foundations.Text

/-! The name generator. Its counters are shared by all files of one process;
each is kept as the number of names handed out so far, and a name shows it as
the 32-bit signed integer the counter then holds. -/
namespace CMender
open Foundations

structure MendingTypeNameGenerator where
  typedefAliasNameCounter : Nat
  tagTypeNameCounter : Nat
  enumConstantNameCounter : Nat
deriving DecidableEq, Repr

namespace MendingTypeNameGenerator

def cmenderTypedefAliasNamePrefix : String := "cmender_type_alias_"

def cmenderTagTypeNamePrefix : String := "cmender_tag_type_"

def cmenderEnumConstantNamePrefix : String := "cmender_enum_constant_type_"

/-- Nothing generated yet. -/
def start : MendingTypeNameGenerator := ⟨0, 0, 0⟩

def counterText (count : Nat) : String := toString (BitVec.ofNat 32 count).toInt

def typedefAliasName (count : Nat) : String := cmenderTypedefAliasNamePrefix ++ counterText count

def tagTypeName (count : Nat) : String := cmenderTagTypeNamePrefix ++ counterText count

def enumConstantName (count : Nat) : String := cmenderEnumConstantNamePrefix ++ counterText count

def newTypedefAliasName (generator : MendingTypeNameGenerator) : String × MendingTypeNameGenerator :=
  (typedefAliasName generator.typedefAliasNameCounter,
    { generator with typedefAliasNameCounter := generator.typedefAliasNameCounter + 1 })

def newTagTypeName (generator : MendingTypeNameGenerator) : String × MendingTypeNameGenerator :=
  (tagTypeName generator.tagTypeNameCounter,
    { generator with tagTypeNameCounter := generator.tagTypeNameCounter + 1 })

def newEnumConstantName (generator : MendingTypeNameGenerator) : String × MendingTypeNameGenerator :=
  (enumConstantName generator.enumConstantNameCounter,
    { generator with enumConstantNameCounter := generator.enumConstantNameCounter + 1 })

def isGeneratedTypedefAliasName (name : String) : Bool :=
  Text.startsWith name cmenderTypedefAliasNamePrefix

def isGeneratedTagTypeName (name : String) : Bool :=
  Text.startsWith name cmenderTagTypeNamePrefix

theorem typedefAliasName_generated (count : Nat) :
    isGeneratedTypedefAliasName (typedefAliasName count) = true := Text.startsWith_append _ _

theorem tagTypeName_generated (count : Nat) : isGeneratedTagTypeName (tagTypeName count) = true :=
  Text.startsWith_append _ _

/-- Two counters that print alike have wrapped around a whole number of times
between them. -/
theorem counterText_mod {a b : Nat} (same : counterText a = counterText b) : a % 2 ^ 32 = b % 2 ^ 32 := by
  have bits := BitVec.toInt_inj.mp (Text.toString_int_injective same)
  simpa only [BitVec.toNat_ofNat] using congrArg BitVec.toNat bits

/-- Alias names repeat only after all 32-bit counters have been used. -/
theorem typedefAliasName_injective {a b start : Nat} (low : start ≤ a) (high : start ≤ b)
    (few : a < start + 2 ^ 32) (few' : b < start + 2 ^ 32)
    (same : typedefAliasName a = typedefAliasName b) : a = b := by
  have wrapped := counterText_mod ((String.append_right_inj _).mp same)
  omega

theorem tagTypeName_injective {a b start : Nat} (low : start ≤ a) (high : start ≤ b)
    (few : a < start + 2 ^ 32) (few' : b < start + 2 ^ 32) (same : tagTypeName a = tagTypeName b) : a = b := by
  have wrapped := counterText_mod ((String.append_right_inj _).mp same)
  omega

end MendingTypeNameGenerator
end CMender
