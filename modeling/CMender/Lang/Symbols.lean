import CMender.Foundations.Heap
import CMender.Lang.Types

/-! Symbols of the mending table. Typedef types, typedef symbols and records
change after they are created and are shared, so they live on heaps and are
passed by reference. The other symbols never change once built; `address` tells
two of them apart, as object identity does. -/
namespace CMender
open Foundations

structure TypedefType where
  name : String
  aliasedType : QualType
deriving Inhabited

structure TypedefSymbol where
  name : String
  typedefType : Ref TypedefType
  permittedTypes : List TypeKind
  isLocked : Bool
deriving DecidableEq

instance : Inhabited TypedefSymbol := ⟨⟨"", ⟨0⟩, [], false⟩⟩

structure VariableSymbol where
  address : Nat
  name : String
  type : Ref TypedefType
deriving DecidableEq

structure Parameter where
  name : String
  type : Ref TypedefType
deriving DecidableEq

structure FunctionSymbol where
  address : Nat
  name : String
  returnType : Ref TypedefType
  parameters : List Parameter
deriving DecidableEq

structure Member where
  address : Nat
  name : String
  type : Ref TypedefType
deriving DecidableEq

structure RecordSymbol where
  name : String
  members : List Member
deriving DecidableEq, Inhabited

structure EnumSymbol where
  address : Nat
  name : String
  values : List String
deriving DecidableEq

inductive Symbol where
  | typedef (symbol : Ref TypedefSymbol)
  | record (symbol : Ref RecordSymbol)
  | enum (symbol : EnumSymbol)
  | variable (symbol : VariableSymbol)
  | function (symbol : FunctionSymbol)
  | member (symbol : Member)
deriving DecidableEq

end CMender
