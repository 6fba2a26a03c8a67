import CMender.Foundations.Maps
import CMender.Diag.Diagnostic
import CMender.Lang.Symbols
import CMender.Mending.Files
import CMender.Mending.Names

/-! The mending table: the symbols declared so far, the objects their references
point to, and the record of what was handled. Every `put` replaces what the name
meant before. -/
namespace CMender
open Foundations

/-- A floating-point quotient, kept as its two operands. -/
structure FileProgress where
  offset : Int
  size : Int
deriving DecidableEq, Repr

structure MendingTable where
  typedefTypes : Heap TypedefType
  typedefSymbols : Heap TypedefSymbol
  recordSymbols : Heap RecordSymbol
  nextAddress : Nat
  «variables» : Map String VariableSymbol
  functions : Map String FunctionSymbol
  typedefs : Map String (Ref TypedefSymbol)
  records : Map String (Ref RecordSymbol)
  enums : Map String EnumSymbol
  typeNameToCorrespondingSymbol : Map String Symbol
  arraySubscriptToCorrespondingSymbol : Map String Symbol
  handledDiagnostics : List Diagnostic
  fileSize : Int
  unknownDiags : List DiagnosticShortInfo
  ppFiles : List Path
  fileProgress : FileProgress

namespace MendingTable

def empty : MendingTable where
  typedefTypes := .empty
  typedefSymbols := .empty
  recordSymbols := .empty
  nextAddress := 0
  «variables» := .empty
  functions := .empty
  typedefs := .empty
  records := .empty
  enums := .empty
  typeNameToCorrespondingSymbol := .empty
  arraySubscriptToCorrespondingSymbol := .empty
  handledDiagnostics := []
  fileSize := 0
  unknownDiags := []
  ppFiles := []
  fileProgress := ⟨0, 1⟩

def aliasedType (table : MendingTable) (type : Ref TypedefType) : QualType :=
  (table.typedefTypes.get type).aliasedType

def typedefName (table : MendingTable) (type : Ref TypedefType) : String :=
  (table.typedefTypes.get type).name

def typedefType (table : MendingTable) (symbol : Ref TypedefSymbol) : Ref TypedefType :=
  (table.typedefSymbols.get symbol).typedefType

def isLocked (table : MendingTable) (symbol : Ref TypedefSymbol) : Bool :=
  (table.typedefSymbols.get symbol).isLocked

def symbolName (table : MendingTable) (symbol : Ref TypedefSymbol) : String :=
  (table.typedefSymbols.get symbol).name

def recordName (table : MendingTable) (record : Ref RecordSymbol) : String :=
  (table.recordSymbols.get record).name

/-- The type a typedef symbol stands for, through its typedef type. -/
def symbolType (table : MendingTable) (symbol : Ref TypedefSymbol) : QualType :=
  table.aliasedType (table.typedefType symbol)

def members (table : MendingTable) (record : Ref RecordSymbol) : List Member :=
  (table.recordSymbols.get record).members

def setAliasedType (table : MendingTable) (type : Ref TypedefType) (qualType : QualType) : MendingTable :=
  { table with
    typedefTypes := table.typedefTypes.set type
      { table.typedefTypes.get type with aliasedType := qualType } }

def setLocked (table : MendingTable) (symbol : Ref TypedefSymbol) : MendingTable :=
  { table with
    typedefSymbols := table.typedefSymbols.set symbol
      { table.typedefSymbols.get symbol with isLocked := true } }

def addMember (table : MendingTable) (record : Ref RecordSymbol) (member : Member) : MendingTable :=
  { table with
    recordSymbols := table.recordSymbols.set record
      { table.recordSymbols.get record with
        members := (table.recordSymbols.get record).members ++ [member] } }

def putVariable (table : MendingTable) (symbol : VariableSymbol) : MendingTable :=
  { table with «variables» := table.variables.insert symbol.name symbol }

def putFunction (table : MendingTable) (symbol : FunctionSymbol) : MendingTable :=
  { table with functions := table.functions.insert symbol.name symbol }

def putTypedef (table : MendingTable) (symbol : Ref TypedefSymbol) : MendingTable :=
  { table with typedefs := table.typedefs.insert (table.typedefSymbols.get symbol).name symbol }

def putRecord (table : MendingTable) (symbol : Ref RecordSymbol) : MendingTable :=
  { table with records := table.records.insert (table.recordSymbols.get symbol).name symbol }

def putEnum (table : MendingTable) (symbol : EnumSymbol) : MendingTable :=
  { table with enums := table.enums.insert symbol.name symbol }

def putControlledTypedefAliasMapping (table : MendingTable) (typeName : String) (symbol : Symbol) :
    MendingTable :=
  { table with
    typeNameToCorrespondingSymbol := table.typeNameToCorrespondingSymbol.insert typeName symbol }

def putControlledArraySubscriptMapping (table : MendingTable) (arraySubscript : String)
    (symbol : Symbol) : MendingTable :=
  { table with
    arraySubscriptToCorrespondingSymbol :=
      table.arraySubscriptToCorrespondingSymbol.insert arraySubscript symbol }

def ppFileExists (table : MendingTable) (ppFile : Path) : Bool := table.ppFiles.contains ppFile

def addPPFile (table : MendingTable) (ppFile : Path) : MendingTable :=
  { table with ppFiles := table.ppFiles.insert ppFile }

/-- `new RecordSymbol(name)`; the new object is `table.recordSymbols.next`. -/
def newRecordSymbol (table : MendingTable) (name : String) : MendingTable :=
  { table with recordSymbols := table.recordSymbols.alloc ⟨name, []⟩ }

/-- `new TypedefType(name, qualType)` and the unlocked typedef symbol for it. -/
def newTypedefSymbol (table : MendingTable) (name : String) (qualType : QualType)
    (permittedTypes : List TypeKind) : MendingTable :=
  { table with
    typedefTypes := table.typedefTypes.alloc ⟨name, qualType⟩
    typedefSymbols := table.typedefSymbols.alloc ⟨name, table.typedefTypes.next, permittedTypes, false⟩ }

/-- The address of a new variable, function, member or enum symbol is used up. -/
def newSymbol (table : MendingTable) : MendingTable := { table with nextAddress := table.nextAddress + 1 }

/-- `put(new RecordSymbol(name))` -/
def createRecord (table : MendingTable) (name : String) : MendingTable :=
  (table.newRecordSymbol name).putRecord table.recordSymbols.next

/-- `createTypedef`; the new symbol is `table.typedefSymbols.next` and its typedef
type `table.typedefTypes.next`. -/
def createTypedef (table : MendingTable) (name : String) (qualType : QualType)
    (permittedTypes : List TypeKind) : MendingTable :=
  (table.newTypedefSymbol name qualType permittedTypes).putTypedef table.typedefSymbols.next

/-- A new variable of a typedef type, and the symbol its type's name leads to. -/
def declareVariable (table : MendingTable) (name : String) (type : Ref TypedefType) : MendingTable :=
  let symbol : VariableSymbol := ⟨table.nextAddress, name, type⟩
  (table.newSymbol.putVariable symbol).putControlledTypedefAliasMapping (table.typedefName type)
    (.variable symbol)

def declareFunction (table : MendingTable) (name : String) (returnType : Ref TypedefType) : MendingTable :=
  let symbol : FunctionSymbol := ⟨table.nextAddress, name, returnType, []⟩
  (table.newSymbol.putFunction symbol).putControlledTypedefAliasMapping (table.typedefName returnType)
    (.function symbol)

def declareMember (table : MendingTable) (record : Ref RecordSymbol) (name : String)
    (type : Ref TypedefType) : MendingTable :=
  let member : Member := ⟨table.nextAddress, name, type⟩
  (table.newSymbol.addMember record member).putControlledTypedefAliasMapping (table.typedefName type)
    (.member member)

def declareEnum (table : MendingTable) (name : String) (values : List String) : MendingTable :=
  table.newSymbol.putEnum ⟨table.nextAddress, name, values⟩

/-- `symbol.setAliasedType(qualType)` -/
def retype (table : MendingTable) (symbol : Ref TypedefSymbol) (qualType : QualType) : MendingTable :=
  table.setAliasedType (table.typedefType symbol) qualType

/-- The type is changed for good. -/
def settle (table : MendingTable) (symbol : Ref TypedefSymbol) (qualType : QualType) : MendingTable :=
  (table.retype symbol qualType).setLocked symbol

section Reads
variable {table : MendingTable} {name : String} {qualType : QualType} {permittedTypes : List TypeKind}
  {type other : Ref TypedefType} {symbol otherSymbol : Ref TypedefSymbol}
  {record otherRecord : Ref RecordSymbol} {member : Member}

theorem typedefs_createTypedef : (table.createTypedef name qualType permittedTypes).typedefs =
    table.typedefs.insert name table.typedefSymbols.next := by
  simp [createTypedef, putTypedef, newTypedefSymbol]

theorem records_createRecord :
    (table.createRecord name).records = table.records.insert name table.recordSymbols.next := by
  simp [createRecord, putRecord, newRecordSymbol]

@[simp] theorem typedefType_createTypedef :
    (table.createTypedef name qualType permittedTypes).typedefType table.typedefSymbols.next =
      table.typedefTypes.next := by
  simp [createTypedef, putTypedef, newTypedefSymbol, typedefType]

@[simp] theorem typedefName_createTypedef :
    (table.createTypedef name qualType permittedTypes).typedefName table.typedefTypes.next = name := by
  simp [createTypedef, putTypedef, newTypedefSymbol, typedefName]

@[simp] theorem aliasedType_createTypedef :
    (table.createTypedef name qualType permittedTypes).aliasedType table.typedefTypes.next = qualType := by
  simp [createTypedef, putTypedef, newTypedefSymbol, aliasedType]

@[simp] theorem symbolType_createTypedef :
    (table.createTypedef name qualType permittedTypes).symbolType table.typedefSymbols.next = qualType := by
  rw [symbolType, typedefType_createTypedef, aliasedType_createTypedef]

/-- What was there before a typedef was created reads as before. -/
theorem typedefName_createTypedef_of_allocated (older : table.typedefTypes.Allocated other) :
    (table.createTypedef name qualType permittedTypes).typedefName other = table.typedefName other :=
  congrArg TypedefType.name (Heap.get_alloc older)

theorem aliasedType_createTypedef_of_allocated (older : table.typedefTypes.Allocated other) :
    (table.createTypedef name qualType permittedTypes).aliasedType other = table.aliasedType other :=
  congrArg TypedefType.aliasedType (Heap.get_alloc older)

theorem typedefSymbols_createTypedef_of_allocated (older : table.typedefSymbols.Allocated otherSymbol) :
    (table.createTypedef name qualType permittedTypes).typedefSymbols.get otherSymbol =
      table.typedefSymbols.get otherSymbol := Heap.get_alloc older

theorem typedefType_createTypedef_of_allocated (older : table.typedefSymbols.Allocated otherSymbol) :
    (table.createTypedef name qualType permittedTypes).typedefType otherSymbol = table.typedefType otherSymbol :=
  congrArg TypedefSymbol.typedefType (Heap.get_alloc older)

theorem symbolName_createTypedef :
    (table.createTypedef name qualType permittedTypes).symbolName table.typedefSymbols.next = name :=
  congrArg TypedefSymbol.name Heap.get_alloc_next

theorem recordName_createRecord :
    (table.createRecord name).recordName table.recordSymbols.next = name :=
  congrArg RecordSymbol.name Heap.get_alloc_next

theorem aliasedType_setAliasedType : (table.setAliasedType type qualType).aliasedType other =
    if other = type then qualType else table.aliasedType other := by
  simp only [aliasedType, setAliasedType, Heap.get_set_eq]
  split <;> rfl

theorem symbolType_setAliasedType : (table.setAliasedType type qualType).symbolType symbol =
    if table.typedefType symbol = type then qualType else table.symbolType symbol :=
  aliasedType_setAliasedType

@[simp] theorem typedefName_setAliasedType :
    (table.setAliasedType type qualType).typedefName other = table.typedefName other := by
  simp only [typedefName, setAliasedType, Heap.get_set_eq]
  split
  · rename_i same
    rw [same]
  · rfl

@[simp] theorem typedefType_setLocked :
    (table.setLocked symbol).typedefType otherSymbol = table.typedefType otherSymbol := by
  simp only [typedefType, setLocked, Heap.get_set_eq]
  split
  · rename_i same
    rw [same]
  · rfl

theorem symbolType_setLocked : (table.setLocked symbol).symbolType otherSymbol = table.symbolType otherSymbol :=
  congrArg table.aliasedType typedefType_setLocked

theorem aliasedType_settle : (table.settle symbol qualType).aliasedType other =
    if other = table.typedefType symbol then qualType else table.aliasedType other :=
  aliasedType_setAliasedType

theorem symbolType_settle : (table.settle symbol qualType).symbolType otherSymbol =
    if table.typedefType otherSymbol = table.typedefType symbol then qualType
    else table.symbolType otherSymbol :=
  symbolType_setLocked.trans symbolType_setAliasedType

theorem isLocked_settle : (table.settle symbol qualType).isLocked otherSymbol =
    (decide (otherSymbol = symbol) || table.isLocked otherSymbol) := by
  simp only [settle, setLocked, isLocked, Heap.get_set_eq]
  by_cases same : otherSymbol = symbol
  · simp [same]
  · rw [if_neg same, decide_eq_false same, Bool.false_or]
    rfl

@[simp] theorem symbolName_setLocked :
    (table.setLocked symbol).symbolName otherSymbol = table.symbolName otherSymbol := by
  simp only [symbolName, setLocked, Heap.get_set_eq]
  split
  · rename_i same
    rw [same]
  · rfl

@[simp] theorem recordName_addMember :
    (table.addMember record member).recordName otherRecord = table.recordName otherRecord := by
  simp only [recordName, addMember, Heap.get_set_eq]
  split
  · rename_i same
    rw [same]
  · rfl

theorem members_addMember : (table.addMember record member).members otherRecord =
    if otherRecord = record then table.members record ++ [member] else table.members otherRecord := by
  simp only [members, addMember, Heap.get_set_eq]
  split <;> rfl

end Reads

section Classification

def isControlledTagType (table : MendingTable) (typeName : TypeName) : Bool :=
  if !typeName.isTag then false
  else if typeName.tagKind == some .struct || typeName.tagKind == some .union then
    table.records.containsKey typeName.identifier
  else if typeName.tagKind == some .enum then table.enums.containsKey typeName.identifier
  else false

def isControlledAndNamedTagType (table : MendingTable) (typeName : TypeName) : Bool :=
  table.isControlledTagType typeName &&
    !MendingTypeNameGenerator.isGeneratedTagTypeName typeName.identifier

/-- A tag the mender made up itself. -/
def isControlledAndUnnamedTagType (table : MendingTable) (typeName : TypeName) : Bool :=
  table.isControlledTagType typeName && MendingTypeNameGenerator.isGeneratedTagTypeName typeName.identifier

def isUncontrolledTagType (table : MendingTable) (typeName : TypeName) : Bool :=
  if !typeName.isTag then false
  else if typeName.tagKind == some .struct || typeName.tagKind == some .union then
    !table.records.containsKey typeName.identifier
  else if typeName.tagKind == some .enum then !table.enums.containsKey typeName.identifier
  else false

def isUncontrolledTypedefAlias (table : MendingTable) (typeName : TypeName) : Bool :=
  typeName.isTypedefAlias && !table.typedefs.containsKey typeName.identifier

def isUncontrolled (table : MendingTable) (typeName : TypeName) : Bool :=
  if typeName.isBuiltin then true
  else if typeName.isTag then table.isUncontrolledTagType typeName
  else table.isUncontrolledTypedefAlias typeName

end Classification
end MendingTable
end CMender
