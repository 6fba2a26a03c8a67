import CMender.Mending.Handlers

/-! What a handler that returns has done. `Effect` lists every way a diagnostic
can change the state, with the conditions under which it happens; invariants are
proved by cases on it and never look into a handler again. -/
namespace CMender
open Foundations Foundations.Execution

/-- The one side of a conversion or an operation that is a source of truth, when
exactly one is: whether it is the left one, and the typedef of the other side. -/
def oneSided (table : MendingTable) (lhs rhs : QualType) : Option (Bool × Ref TypedefSymbol) :=
  match lhs.typeName, rhs.typeName with
  | .ok lhsName, .ok rhsName =>
    let lhsIsSourceOfTruth := isSourceOfTruth table lhsName
    if lhsIsSourceOfTruth ^^ isSourceOfTruth table rhsName then
      (namedTypedef table (if lhsIsSourceOfTruth then rhsName else lhsName)).map
        (lhsIsSourceOfTruth, ·)
    else none
  | _, _ => none

/-- The typedefs of both sides, when neither is a source of truth. -/
def bothControlled (table : MendingTable) (lhs rhs : QualType) :
    Option (Ref TypedefSymbol × Ref TypedefSymbol) :=
  match lhs.typeName, rhs.typeName with
  | .ok lhsName, .ok rhsName =>
    if isSourceOfTruth table lhsName || isSourceOfTruth table rhsName then none
    else
      match namedTypedef table lhsName, namedTypedef table rhsName with
      | some lhsSymbol, some rhsSymbol => some (lhsSymbol, rhsSymbol)
      | _, _ => none
  | _, _ => none

/-- The type an operand is given next to one that cannot change, if there is one. -/
def operandType (truth : QualType) (op : String) (lhsIsSourceOfTruth : Bool) : Option QualType :=
  truth.type.bind fun type =>
    if type.isPointerType || type.isArrayType then
      if isComparison op then some intPointerType
      else if isBinarySum op then some intUnqualifiedType
      else if isBinarySub op && !lhsIsSourceOfTruth then some intPointerType
      else none
    else if type.isBuiltinType || type.isEnumType then some intUnqualifiedType
    else none

/-- Operands become numbers or pointers to them. -/
theorem operandType_int {truth type : QualType} {op : String} {left : Bool}
    (written : operandType truth op left = some type) : type = intPointerType ∨ type = intUnqualifiedType := by
  obtain ⟨structural, _, chosen⟩ := Option.bind_eq_some_iff.mp written
  split at chosen
  · split at chosen
    · exact .inl (Option.some.inj chosen).symm
    · split at chosen
      · exact .inr (Option.some.inj chosen).symm
      · split at chosen
        · exact .inl (Option.some.inj chosen).symm
        · cases chosen
  · split at chosen
    · exact .inr (Option.some.inj chosen).symm
    · cases chosen

namespace MendingState

def withTable (s : MendingState) (f : MendingTable → MendingTable) : MendingState :=
  { s with table := f s.table }

/-- The name the next generated tag gets, and the alias the next generated typedef gets. -/
def nextTag (s : MendingState) : String :=
  MendingTypeNameGenerator.tagTypeName s.names.tagTypeNameCounter

def nextAlias (s : MendingState) : String :=
  MendingTypeNameGenerator.typedefAliasName s.names.typedefAliasNameCounter

/-- A new struct with a generated name, and a typedef for it. -/
def structTypedef (s : MendingState) (typedefName : String) : MendingState :=
  { s with
    table := (s.table.createRecord s.nextTag).createTypedef typedefName (structType s.nextTag) allTypeKinds
    names := s.names.newTagTypeName.2 }

/-- The same under a generated alias. -/
def structAlias (s : MendingState) : MendingState :=
  let after := s.structTypedef s.nextAlias
  { after with names := after.names.newTypedefAliasName.2 }

/-- A typedef for a type under a generated alias. -/
def typeAlias (s : MendingState) (type : QualType) (permittedTypes : List TypeKind) : MendingState :=
  { s with
    table := s.table.createTypedef s.nextAlias type permittedTypes
    names := s.names.newTypedefAliasName.2 }

end MendingState

open MendingState

/-- The typedef type that the next `createTypedef` allocates. -/
def MendingState.nextType (s : MendingState) : Ref TypedefType := s.table.typedefTypes.next

/-- Identifiers of the diagnostics that define a tag. -/
def definesTag (id : DiagnosticID) : Bool :=
  id == .errTypecheckDeclIncompleteType || id == .errFuncDefIncompleteResult

def declaresVariable (id : DiagnosticID) : Bool :=
  id == .errUndeclaredVarUse || id == .errUndeclaredVarUseSuggest

def declaresTypedef (id : DiagnosticID) : Bool :=
  id == .errUnknownTypename || id == .errUnknownTypenameSuggest

/-- The two types a conversion or an operation is about. -/
def comparedTypes (diag : Diagnostic) : Option (QualType × QualType) :=
  match diag.diagnosticID with
  | .errTypecheckConvertIncompatible => conversionArgs diag.args
  | .errTypecheckInvalidOperands => operandArgs diag.args
  | _ => none

/-- The type whose alias is overwritten with `int` although nothing was compared. -/
def plainTarget (diag : Diagnostic) : Option QualType :=
  match diag.diagnosticID with
  | .errTypecheckIllegalIncrementDecrement => (typeAndIntArgs diag.args).map Prod.fst
  | .errArraySizeNonInt => typeArgs diag.args
  | .errCallIncompleteArgument =>
    (typeArgs diag.args).filter fun type => type.type.any fun structural => !structural.isVoid
  | _ => none

/-- The argument of a call that is passed where its type is `void`. -/
def voidArgument (diag : Diagnostic) : Option QualType :=
  match diag.diagnosticID with
  | .errCallIncompleteArgument =>
    (typeArgs diag.args).filter fun type => type.type.any LangType.isVoid
  | _ => none

theorem plainTarget_of_void {diag : Diagnostic} {type : QualType} (void : voidArgument diag = some type) :
    plainTarget diag = none := by
  cases known : diag.diagnosticID with
  | errCallIncompleteArgument =>
    simp only [voidArgument, known, Option.filter_eq_some_iff] at void
    obtain ⟨args, isVoid⟩ := void
    cases structural : type.type <;> simp_all [plainTarget, Option.filter]
  | _ => simp [voidArgument, known] at void

/-- The texts of the base and the subscript of a subscripted value. -/
def subscriptTexts (diag : Diagnostic) : Option (String × String) :=
  match diag.diagnosticID, diag.sourceRanges with
  | .errTypecheckSubscriptValue, base :: sub :: _ => some (base.encompassingCode, sub.encompassingCode)
  | _, _ => none

def subscripted (base sub : String) : String := base ++ "[" ++ sub ++ "]"

inductive Effect (s : MendingState) (diag : Diagnostic) : MendingState → Prop where
  | idle (id : diag.diagnosticID = .unknown) : Effect s diag s
  | header {ppFiles : List Path} {files : FileSystem} (id : diag.diagnosticID = .errPPFileNotFound) :
      Effect s diag { s with table := { s.table with ppFiles := ppFiles }, files := files }
  | declareFunction {name : String} (id : diag.diagnosticID = .extImplicitFunctionDeclC99)
      (args : functionArgs diag.args = some name) :
      Effect s diag ((s.typeAlias voidType allTypeKinds).withTable (·.declareFunction name s.nextType))
  | declareVariable {name : String} (id : declaresVariable diag.diagnosticID = true)
      (args : variableArgs diag.args = some name) :
      Effect s diag (s.structAlias.withTable (·.declareVariable name s.nextType))
  | declareTypedef {name : String} (id : declaresTypedef diag.diagnosticID = true)
      (args : typedefArgs diag.args = some name) : Effect s diag (s.structTypedef name)
  | addMember {name : String} {context : RecordDecl} {record : Ref RecordSymbol}
      (id : diag.diagnosticID = .errNoMember) (args : memberArgs diag.args = some (name, some context))
      (found : s.table.records.lookup context.name = some record) :
      Effect s diag (s.structAlias.withTable (·.declareMember record name s.nextType))
  | defineRecord {type : QualType} {name : String} {kind : RecordKind}
      (id : definesTag diag.diagnosticID = true) (args : typeArgs diag.args = some type)
      (tag : type.type = some (.record name kind)) : Effect s diag (s.withTable (·.createRecord name))
  | defineEnum {type : QualType} {name : String} (id : definesTag diag.diagnosticID = true)
      (args : typeArgs diag.args = some type) (tag : type.type = some (.enum name)) :
      Effect s diag { s with
        table := s.table.declareEnum name [s.names.newEnumConstantName.1]
        names := s.names.newEnumConstantName.2 }
  | convert {lhs rhs : QualType} {left : Bool} {symbol : Ref TypedefSymbol}
      (id : diag.diagnosticID = .errTypecheckConvertIncompatible)
      (args : conversionArgs diag.args = some (lhs, rhs))
      (sides : oneSided s.table lhs rhs = some (left, symbol)) :
      Effect s diag (s.withTable (·.settle symbol (if left then lhs else rhs)))
  | convertToLocked {lhs rhs : QualType} {symbol locked : Ref TypedefSymbol}
      (id : diag.diagnosticID = .errTypecheckConvertIncompatible)
      (args : conversionArgs diag.args = some (lhs, rhs))
      (sides : bothControlled s.table lhs rhs = some (locked, symbol) ∨
        bothControlled s.table lhs rhs = some (symbol, locked))
      (lock : s.table.isLocked locked = true) (free : s.table.isLocked symbol = false) :
      Effect s diag (s.withTable (·.settle symbol (s.table.symbolType locked)))
  | adjustOperand {lhs rhs type : QualType} {op : String} {left : Bool} {symbol : Ref TypedefSymbol}
      (id : diag.diagnosticID = .errTypecheckInvalidOperands)
      (args : operandArgs diag.args = some (lhs, rhs)) (operator : operatorText diag = .ok op)
      (sides : oneSided s.table lhs rhs = some (left, symbol))
      (written : operandType (if left then lhs else rhs) op left = some type) :
      Effect s diag (s.withTable (·.settle symbol type))
  | adjustToLocked {lhs rhs type : QualType} {op : String} {left : Bool} {symbol locked : Ref TypedefSymbol}
      (id : diag.diagnosticID = .errTypecheckInvalidOperands)
      (args : operandArgs diag.args = some (lhs, rhs)) (operator : operatorText diag = .ok op)
      (sides : bothControlled s.table lhs rhs = some (locked, symbol) ∨
        bothControlled s.table lhs rhs = some (symbol, locked))
      (lock : s.table.isLocked locked = true) (free : s.table.isLocked symbol = false)
      (written : operandType (s.table.symbolType locked) op left = some type) :
      Effect s diag (s.withTable (·.settle symbol type))
  | settleBoth {lhs rhs : QualType} {lhsSymbol rhsSymbol : Ref TypedefSymbol}
      (args : comparedTypes diag = some (lhs, rhs))
      (sides : bothControlled s.table lhs rhs = some (lhsSymbol, rhsSymbol))
      (lhsFree : s.table.isLocked lhsSymbol = false) (rhsFree : s.table.isLocked rhsSymbol = false) :
      Effect s diag (s.withTable fun table =>
        (table.settle lhsSymbol intUnqualifiedType).settle rhsSymbol intUnqualifiedType)
  | keepMember {type : QualType} {integer : Int}
      (id : diag.diagnosticID = .errTypecheckMemberReferenceSuggestion)
      (args : typeAndIntArgs diag.args = some (type, integer)) (other : integer ≠ 1) : Effect s diag s
  | pointMember {type : QualType} {symbol : Ref TypedefSymbol}
      (id : diag.diagnosticID = .errTypecheckMemberReferenceSuggestion)
      (args : typeAndIntArgs diag.args = some (type, 1))
      (found : s.table.typedefs.lookup type.typeAsString = some symbol) :
      Effect s diag (s.withTable (·.settle symbol (memberPointerType
        (s.table.typedefName (s.table.typedefType symbol)) type.canonicalTypeAsString
        (s.table.symbolType symbol))))
  | subscript {base sub : String} {symbol : Symbol} {type : Ref TypedefType}
      (texts : subscriptTexts diag = some (base, sub))
      (mapped : s.table.arraySubscriptToCorrespondingSymbol.lookup base = some symbol)
      (typed : symbol.subscriptedType = some type) :
      Effect s diag (s.withTable fun table =>
        (table.setAliasedType type (table.aliasedType type).pointerTo).putControlledArraySubscriptMapping
          (subscripted base sub) symbol)
  | subscriptVariable {base sub name : String} {symbol : VariableSymbol}
      (texts : subscriptTexts diag = some (base, sub))
      (unmapped : s.table.arraySubscriptToCorrespondingSymbol.lookup base = none)
      (identifier : matchIdentifier base = some name)
      (found : s.table.variables.lookup name = some symbol) :
      Effect s diag ((s.typeAlias (s.table.aliasedType symbol.type) []).withTable fun table =>
        (table.setAliasedType symbol.type (aliasPointerType s.nextAlias
          (s.table.aliasedType symbol.type))).putControlledArraySubscriptMapping
            (subscripted base sub) (.variable symbol))
  | convertSubscript {identifier : String} {symbol : VariableSymbol}
      (id : diag.diagnosticID = .errTypecheckSubscriptNotInteger)
      (marked : diag.sourceRanges.head? = some ⟨identifier⟩)
      (found : s.table.variables.lookup identifier = some symbol) :
      Effect s diag (s.withTable (·.setAliasedType symbol.type unsignedIntType))
  | overwrite {type : QualType} {symbol : Ref TypedefSymbol} (target : plainTarget diag = some type)
      (found : s.table.typedefs.lookup type.typeAsString = some symbol) :
      Effect s diag (s.withTable (·.retype symbol intUnqualifiedType))
  | structArgument {type : QualType} {symbol : Ref TypedefSymbol} (target : voidArgument diag = some type)
      (found : s.table.typedefs.lookup type.typeAsString = some symbol) :
      Effect s diag { s with
        table := (s.table.createRecord s.nextTag).retype symbol (structType s.nextTag)
        names := s.names.newTagTypeName.2 }

/-- What comparing two sides does. A side that can change takes the type it is `given`
next to one that cannot, or next to a typedef that is locked; two sides that can both
change become `int`. -/
inductive Compared (s : MendingState) (lhs rhs : QualType) (given : QualType → Bool → Option QualType) :
    MendingState → Prop where
  | oneTruth {left : Bool} {symbol : Ref TypedefSymbol} {type : QualType}
      (sides : oneSided s.table lhs rhs = some (left, symbol))
      (written : given (if left then lhs else rhs) left = some type) :
      Compared s lhs rhs given (s.withTable (·.settle symbol type))
  | lhsLocked {lhsSymbol rhsSymbol : Ref TypedefSymbol} {type : QualType}
      (sides : bothControlled s.table lhs rhs = some (lhsSymbol, rhsSymbol))
      (lock : s.table.isLocked lhsSymbol = true) (free : s.table.isLocked rhsSymbol = false)
      (written : given (s.table.symbolType lhsSymbol) true = some type) :
      Compared s lhs rhs given (s.withTable (·.settle rhsSymbol type))
  | rhsLocked {lhsSymbol rhsSymbol : Ref TypedefSymbol} {type : QualType}
      (sides : bothControlled s.table lhs rhs = some (lhsSymbol, rhsSymbol))
      (free : s.table.isLocked lhsSymbol = false) (lock : s.table.isLocked rhsSymbol = true)
      (written : given (s.table.symbolType rhsSymbol) false = some type) :
      Compared s lhs rhs given (s.withTable (·.settle lhsSymbol type))
  | bothFree {lhsSymbol rhsSymbol : Ref TypedefSymbol}
      (sides : bothControlled s.table lhs rhs = some (lhsSymbol, rhsSymbol))
      (lhsFree : s.table.isLocked lhsSymbol = false) (rhsFree : s.table.isLocked rhsSymbol = false) :
      Compared s lhs rhs given (s.withTable fun table =>
        (table.settle lhsSymbol intUnqualifiedType).settle rhsSymbol intUnqualifiedType)

section Inversion
variable {s t : MendingState} {diag : Diagnostic} {u : Unit}

theorem createTypedef_eq {type : QualType} {permittedTypes : List TypeKind} :
    createTypedef type permittedTypes s =
      .ok s.table.typedefSymbols.next (s.typeAlias type permittedTypes) := rfl

theorem createTypedefOfGeneratedStructTypeNamed_eq {name : String} :
    createTypedefOfGeneratedStructTypeNamed name allTypeKinds s =
      .ok s.table.typedefSymbols.next (s.structTypedef name) := rfl

theorem createTypedefOfGeneratedStructType_eq : createTypedefOfGeneratedStructType allTypeKinds s =
    .ok s.table.typedefSymbols.next s.structAlias := rfl

theorem modifyTable_ok {f : MendingTable → MendingTable} :
    modifyTable f s = .ok u t ↔ s.withTable f = t := modify_ok

theorem getTable_ok {table : MendingTable} : getTable s = .ok table t ↔ s.table = table ∧ s = t := by
  change EStateM.Result.ok s.table s = .ok table t ↔ _
  simp

theorem setAliasedType_ok {symbol : Option (Ref TypedefSymbol)} {type : QualType} :
    setAliasedType symbol type s = .ok u t ↔
      ∃ found, symbol = some found ∧ s.withTable (·.retype found type) = t := by
  simp [setAliasedType, modifyTable_ok, and_assoc]

theorem setLocked_ok {symbol : Option (Ref TypedefSymbol)} : setLocked symbol s = .ok u t ↔
    ∃ found, symbol = some found ∧ s.withTable (·.setLocked found) = t := by
  simp [setLocked, modifyTable_ok, and_assoc]

/-- Changing a type and locking it is one step on the table. -/
theorem settle_ok {symbol : Option (Ref TypedefSymbol)} {type : QualType} :
    (do setAliasedType symbol type; setLocked symbol : Mend Unit) s = .ok u t ↔
      ∃ found, symbol = some found ∧ s.withTable (·.settle found type) = t := by
  simp only [bind_ok, setAliasedType_ok, setLocked_ok]
  constructor
  · rintro ⟨_, _, ⟨found, rfl, rfl⟩, _, same, rfl⟩
    cases same
    exact ⟨found, rfl, rfl⟩
  · rintro ⟨found, rfl, rfl⟩
    exact ⟨⟨⟩, _, ⟨found, rfl, rfl⟩, found, rfl, rfl⟩

theorem setBothToInt_ok {lhs rhs : Ref TypedefSymbol} : setBothToInt lhs rhs s = .ok u t ↔
    s.withTable (fun table => (table.settle lhs intUnqualifiedType).settle rhs intUnqualifiedType) = t := by
  change EStateM.Result.ok () (s.withTable fun table =>
    (table.settle lhs intUnqualifiedType).settle rhs intUnqualifiedType) = .ok u t ↔ _
  simp

theorem adjustOperandTo_ok {truth : QualType} {op message : String} {left : Bool}
    {symbol : Option (Ref TypedefSymbol)}
    (returned : adjustOperandTo truth op symbol left message s = .ok u t) :
    ∃ found type, symbol = some found ∧ operandType truth op left = some type ∧
      t = s.withTable (·.settle found type) := by
  unfold adjustOperandTo at returned
  simp only [bind_ok, raise_ok, nonNull_ok] at returned
  obtain ⟨structural, _, ⟨present, rfl⟩, returned⟩ := returned
  simp only [operandType, present, Option.bind_some]
  split at returned
  · rename_i pointer
    unfold handlePointerSourceOfTruthInInvalidOperands at returned
    split at returned
    · rename_i comparison
      obtain ⟨found, rfl, rfl⟩ := settle_ok.mp returned
      exact ⟨found, intPointerType, rfl, by simp [pointer, comparison], rfl⟩
    · rename_i unordered
      split at returned
      · rename_i sum
        obtain ⟨found, rfl, rfl⟩ := settle_ok.mp returned
        exact ⟨found, intUnqualifiedType, rfl, by simp [pointer, unordered, sum], rfl⟩
      · rename_i noSum
        split at returned
        · rename_i difference
          obtain ⟨found, rfl, rfl⟩ := settle_ok.mp returned
          exact ⟨found, intPointerType, rfl, by simp [pointer, unordered, noSum, difference], rfl⟩
        · simp at returned
  · rename_i direct
    split at returned
    · rename_i number
      obtain ⟨found, rfl, rfl⟩ := settle_ok.mp returned
      exact ⟨found, intUnqualifiedType, rfl, by simp [direct, number], rfl⟩
    · simp at returned

theorem oneSided_eq {table : MendingTable} {lhs rhs : QualType} {lhsName rhsName : Option TypeName}
    (lhsNamed : lhs.typeName = .ok lhsName) (rhsNamed : rhs.typeName = .ok rhsName)
    (different : (isSourceOfTruth table lhsName ^^ isSourceOfTruth table rhsName) = true)
    {symbol : Ref TypedefSymbol}
    (found : namedTypedef table (if isSourceOfTruth table lhsName then rhsName else lhsName) = some symbol) :
    oneSided table lhs rhs = some (isSourceOfTruth table lhsName, symbol) := by
  simp only [oneSided, lhsNamed, rhsNamed, different, if_true, found, Option.map_some]

theorem bothControlled_eq {table : MendingTable} {lhs rhs : QualType}
    {lhsName rhsName : Option TypeName} (lhsNamed : lhs.typeName = .ok lhsName)
    (rhsNamed : rhs.typeName = .ok rhsName) (lhsChanges : isSourceOfTruth table lhsName = false)
    (rhsChanges : isSourceOfTruth table rhsName = false) {lhsSymbol rhsSymbol : Ref TypedefSymbol}
    (lhsFound : namedTypedef table lhsName = some lhsSymbol)
    (rhsFound : namedTypedef table rhsName = some rhsSymbol) :
    bothControlled table lhs rhs = some (lhsSymbol, rhsSymbol) := by
  simp [bothControlled, lhsNamed, rhsNamed, lhsChanges, rhsChanges, lhsFound, rhsFound]

/-- Neither side of an exclusive choice that failed, when not both hold. -/
theorem both_false {a b : Bool} (notBoth : ¬ (a && b) = true) (same : ¬ (a ^^ b) = true) :
    a = false ∧ b = false := by
  cases a <;> cases b <;> simp_all

theorem neither_true {a b : Bool} (notBoth : ¬ (a && b) = true) (same : ¬ (!a ^^ !b) = true) :
    a = false ∧ b = false := by
  cases a <;> cases b <;> simp_all

/-- When exactly one of two controlled typedefs is locked, the other one changes. -/
theorem Compared.ofLocked {lhs rhs type : QualType} {given : QualType → Bool → Option QualType}
    {lhsSymbol rhsSymbol : Ref TypedefSymbol}
    (sides : bothControlled s.table lhs rhs = some (lhsSymbol, rhsSymbol))
    (exclusive : (!s.table.isLocked lhsSymbol ^^ !s.table.isLocked rhsSymbol) = true)
    (written : given (s.table.symbolType (if s.table.isLocked lhsSymbol then lhsSymbol else rhsSymbol))
      (s.table.isLocked lhsSymbol) = some type) :
    Compared s lhs rhs given (s.withTable
      (·.settle (if s.table.isLocked lhsSymbol then rhsSymbol else lhsSymbol) type)) := by
  cases lock : s.table.isLocked lhsSymbol with
  | true =>
    simp only [lock, if_true] at written
    exact .lhsLocked sides lock (by simpa [lock] using exclusive) written
  | false =>
    simp only [lock, Bool.false_eq_true, if_false] at written
    exact .rhsLocked sides lock (by simpa [lock] using exclusive) written

theorem matched_ok {α : Type} {purpose : String} {args : Option α} {value : α} :
    matched purpose args s = .ok value t ↔ args = some value ∧ s = t := by
  simp [matched]

theorem typeAlias_typedefType {type : QualType} {permittedTypes : List TypeKind} :
    (s.typeAlias type permittedTypes).table.typedefType s.table.typedefSymbols.next = s.nextType :=
  MendingTable.typedefType_createTypedef

theorem typeAlias_typedefName {type : QualType} {permittedTypes : List TypeKind} :
    (s.typeAlias type permittedTypes).table.typedefName s.nextType = s.nextAlias :=
  MendingTable.typedefName_createTypedef

theorem typeAlias_symbolType {type : QualType} {permittedTypes : List TypeKind} :
    (s.typeAlias type permittedTypes).table.symbolType s.table.typedefSymbols.next = type :=
  MendingTable.symbolType_createTypedef

theorem structAlias_typedefType :
    s.structAlias.table.typedefType s.table.typedefSymbols.next = s.nextType :=
  MendingTable.typedefType_createTypedef

theorem declareFunctionHeuristic_ok (id : diag.diagnosticID = .extImplicitFunctionDeclC99)
    (returned : declareFunctionHeuristic diag s = .ok u t) : Effect s diag t := by
  simp only [declareFunctionHeuristic, bind_ok, matched_ok, createTypedef_eq, EStateM.Result.ok.injEq,
    modifyTable_ok] at returned
  obtain ⟨name, _, ⟨args, rfl⟩, _, _, ⟨rfl, rfl⟩, rfl⟩ := returned
  simp only [withTable, typeAlias_typedefType]
  exact .declareFunction id args

theorem declareVariableOrTypedefHeuristic_ok (id : declaresVariable diag.diagnosticID = true)
    (returned : declareVariableOrTypedefHeuristic diag s = .ok u t) : Effect s diag t := by
  simp only [declareVariableOrTypedefHeuristic, createMissingVariable, bind_ok, matched_ok,
    createTypedefOfGeneratedStructType_eq, EStateM.Result.ok.injEq, modifyTable_ok] at returned
  obtain ⟨name, _, ⟨args, rfl⟩, _, _, ⟨rfl, rfl⟩, rfl⟩ := returned
  simp only [withTable, structAlias_typedefType]
  exact .declareVariable id args

theorem adjustConversionTypesHeuristic_compared (returned : adjustConversionTypesHeuristic diag s = .ok u t) :
    ∃ lhs rhs, conversionArgs diag.args = some (lhs, rhs) ∧ Compared s lhs rhs (fun truth _ => some truth) t := by
  simp only [adjustConversionTypesHeuristic, bind_ok, matched_ok, raise_ok, guard_ok, getTable_ok] at returned
  obtain ⟨⟨lhs, rhs⟩, _, ⟨args, rfl⟩, lhsName, _, ⟨lhsNamed, rfl⟩, rhsName, _, ⟨rhsNamed, rfl⟩, _,
    table, _, ⟨rfl, rfl⟩, notBoth, returned⟩ := returned
  refine ⟨lhs, rhs, args, ?_⟩
  split at returned
  · rename_i different
    obtain ⟨symbol, found, rfl⟩ := settle_ok.mp returned
    exact .oneTruth (oneSided_eq lhsNamed rhsNamed different found) rfl
  · rename_i same
    obtain ⟨lhsChanges, rhsChanges⟩ := both_false notBoth same
    simp only [bind_ok, raise_ok, nonNull_ok, guard_ok] at returned
    obtain ⟨lhsSymbol, _, ⟨lhsFound, rfl⟩, rhsSymbol, _, ⟨rhsFound, rfl⟩, notLocked, returned⟩ := returned
    have sides := bothControlled_eq lhsNamed rhsNamed lhsChanges rhsChanges lhsFound rhsFound
    split at returned
    · rename_i exclusive
      obtain ⟨changed, same, rfl⟩ := settle_ok.mp returned
      obtain rfl := Option.some.inj same
      exact .ofLocked sides exclusive rfl
    · rename_i alike
      obtain ⟨lhsFree, rhsFree⟩ := neither_true notLocked alike
      obtain rfl := setBothToInt_ok.mp returned
      exact .bothFree sides lhsFree rhsFree

theorem adjustConversionTypesHeuristic_ok
    (id : diag.diagnosticID = .errTypecheckConvertIncompatible)
    (returned : adjustConversionTypesHeuristic diag s = .ok u t) : Effect s diag t := by
  obtain ⟨lhs, rhs, args, compared⟩ := adjustConversionTypesHeuristic_compared returned
  cases compared with
  | oneTruth sides written =>
    cases written
    exact .convert id args sides
  | lhsLocked sides lock free written =>
    cases written
    exact .convertToLocked id args (.inl sides) lock free
  | rhsLocked sides free lock written =>
    cases written
    exact .convertToLocked id args (.inr sides) lock free
  | bothFree sides lhsFree rhsFree =>
    exact .settleBoth (by simp only [comparedTypes, id, args]) sides lhsFree rhsFree

theorem adjustOperandTypesHeuristic_compared (returned : adjustOperandTypesHeuristic diag s = .ok u t) :
    ∃ lhs rhs op, operandArgs diag.args = some (lhs, rhs) ∧ operatorText diag = .ok op ∧
      Compared s lhs rhs (fun truth left => operandType truth op left) t := by
  simp only [adjustOperandTypesHeuristic, bind_ok, matched_ok, raise_ok, guard_ok, getTable_ok] at returned
  obtain ⟨⟨lhs, rhs⟩, _, ⟨args, rfl⟩, op, _, ⟨operator, rfl⟩, lhsName, _, ⟨lhsNamed, rfl⟩, rhsName, _,
    ⟨rhsNamed, rfl⟩, _, table, _, ⟨rfl, rfl⟩, notBoth, returned⟩ := returned
  refine ⟨lhs, rhs, op, args, operator, ?_⟩
  split at returned
  · rename_i different
    simp only [handleInvalidOperandsWithOneSideHighSourceOfTruth, bind_ok, getTable_ok] at returned
    obtain ⟨_, _, ⟨rfl, rfl⟩, returned⟩ := returned
    obtain ⟨symbol, type, found, written, rfl⟩ := adjustOperandTo_ok returned
    exact .oneTruth (oneSided_eq lhsNamed rhsNamed different found) written
  · rename_i same
    obtain ⟨lhsChanges, rhsChanges⟩ := both_false notBoth same
    simp only [handleInvalidOperandsWithNoSideHighSourceOfTruth, bind_ok, raise_ok, nonNull_ok, guard_ok,
      getTable_ok] at returned
    obtain ⟨_, _, ⟨rfl, rfl⟩, lhsSymbol, _, ⟨lhsFound, rfl⟩, rhsSymbol, _, ⟨rhsFound, rfl⟩, notLocked,
      returned⟩ := returned
    have sides := bothControlled_eq lhsNamed rhsNamed lhsChanges rhsChanges lhsFound rhsFound
    split at returned
    · rename_i exclusive
      obtain ⟨changed, type, same, written, rfl⟩ := adjustOperandTo_ok returned
      obtain rfl := Option.some.inj same
      exact .ofLocked sides exclusive written
    · rename_i alike
      obtain ⟨lhsFree, rhsFree⟩ := neither_true notLocked alike
      obtain rfl := setBothToInt_ok.mp returned
      exact .bothFree sides lhsFree rhsFree

theorem adjustOperandTypesHeuristic_ok (id : diag.diagnosticID = .errTypecheckInvalidOperands)
    (returned : adjustOperandTypesHeuristic diag s = .ok u t) : Effect s diag t := by
  obtain ⟨lhs, rhs, op, args, operator, compared⟩ := adjustOperandTypesHeuristic_compared returned
  cases compared with
  | oneTruth sides written => exact .adjustOperand id args operator sides written
  | lhsLocked sides lock free written => exact .adjustToLocked id args operator (.inl sides) lock free written
  | rhsLocked sides free lock written => exact .adjustToLocked id args operator (.inr sides) lock free written
  | bothFree sides lhsFree rhsFree =>
    exact .settleBoth (by simp only [comparedTypes, id, args]) sides lhsFree rhsFree

theorem createHeaderFileHeuristic_ok {includePath : String} (id : diag.diagnosticID = .errPPFileNotFound)
    (returned : createHeaderFileHeuristic includePath diag s = .ok u t) : Effect s diag t := by
  simp only [createHeaderFileHeuristic, createHeaderFile, bind_ok, raise_ok, guard_ok,
    getTable_ok] at returned
  obtain ⟨_, _, ⟨_, rfl⟩, _, _, _, ⟨rfl, rfl⟩, returned⟩ := returned
  split at returned
  · obtain ⟨_, rfl⟩ := pure_ok.mp returned
    exact .header id
  · simp only [bind_ok, guard_ok, modifyTable_ok, get_ok, raise_ok, modify_ok] at returned
    obtain ⟨_, _, rfl, _, _, _, ⟨rfl, rfl⟩, _, _, ⟨_, rfl⟩, _, _, rfl, _, _, ⟨_, rfl⟩, rfl⟩ := returned
    exact .header id

theorem defineTagTypeHeuristic_ok (id : definesTag diag.diagnosticID = true)
    (returned : defineTagTypeHeuristic diag s = .ok u t) : Effect s diag t := by
  simp only [defineTagTypeHeuristic, bind_ok, matched_ok, raise_ok, nonNull_ok] at returned
  obtain ⟨type, _, ⟨args, rfl⟩, structural, _, ⟨tag, rfl⟩, returned⟩ := returned
  cases structural with
  | record name kind =>
    obtain rfl := modifyTable_ok.mp returned
    exact .defineRecord id args tag
  | enum name =>
    obtain rfl : _ = t := (EStateM.Result.ok.inj returned).2
    exact .defineEnum id args tag
  | _ => cases throw_ok returned

theorem addRecordMemberHeuristic_ok (id : diag.diagnosticID = .errNoMember)
    (returned : addRecordMemberHeuristic diag s = .ok u t) : Effect s diag t := by
  simp only [addRecordMemberHeuristic, bind_ok, matched_ok, raise_ok, nonNull_ok, guard_ok, orThrow_ok,
    getTable_ok, createTypedefOfGeneratedStructType_eq, EStateM.Result.ok.injEq, modifyTable_ok] at returned
  obtain ⟨⟨name, _⟩, _, ⟨args, rfl⟩, context, _, ⟨rfl, rfl⟩, _, _, _, ⟨rfl, rfl⟩, record, _, ⟨found, rfl⟩,
    _, _, ⟨rfl, rfl⟩, rfl⟩ := returned
  simp only [withTable, structAlias_typedefType]
  exact .addMember id args found

theorem declareTypedefTypeAliasHeuristic_ok (id : declaresTypedef diag.diagnosticID = true)
    (returned : declareTypedefTypeAliasHeuristic diag s = .ok u t) : Effect s diag t := by
  simp only [declareTypedefTypeAliasHeuristic, bind_ok, matched_ok,
    createTypedefOfGeneratedStructTypeNamed_eq, EStateM.Result.ok.injEq, pure_ok] at returned
  obtain ⟨name, _, ⟨args, rfl⟩, _, _, ⟨rfl, rfl⟩, _, rfl⟩ := returned
  exact .declareTypedef id args

theorem adjustMemberReferenceHeuristic_ok
    (id : diag.diagnosticID = .errTypecheckMemberReferenceSuggestion)
    (returned : adjustMemberReferenceHeuristic diag s = .ok u t) : Effect s diag t := by
  simp only [adjustMemberReferenceHeuristic, bind_ok, matched_ok, raise_ok] at returned
  obtain ⟨⟨type, integer⟩, _, ⟨args, rfl⟩, _, _, ⟨_, rfl⟩, returned⟩ := returned
  split at returned
  · rename_i one
    obtain rfl : integer = 1 := by simpa using one
    simp only [bind_ok, getTable_ok, raise_ok, nonNull_ok] at returned
    obtain ⟨_, _, ⟨rfl, rfl⟩, symbol, _, ⟨found, rfl⟩, _, _, retyped, locked⟩ := returned
    obtain ⟨_, same, rfl⟩ := settle_ok.mp (bind_ok.mpr ⟨_, _, retyped, locked⟩)
    cases same
    exact .pointMember id args found
  · rename_i other
    obtain ⟨_, rfl⟩ := pure_ok.mp returned
    exact .keepMember id args (by simpa using other)

theorem adjustSubscriptBaseHeuristic_ok (id : diag.diagnosticID = .errTypecheckSubscriptValue)
    (returned : adjustSubscriptBaseHeuristic diag s = .ok u t) : Effect s diag t := by
  simp only [adjustSubscriptBaseHeuristic, bind_ok, raise_ok, getFirst_ok, getAt_ok, getTable_ok] at returned
  obtain ⟨base, _, ⟨first, rfl⟩, sub, _, ⟨second, rfl⟩, _, _, ⟨rfl, rfl⟩, returned⟩ := returned
  have texts : subscriptTexts diag = some (base.encompassingCode, sub.encompassingCode) := by
    cases marked : diag.sourceRanges with
    | nil => simp [marked] at first
    | cons range rest =>
      cases rest with
      | nil => simp [marked] at second
      | cons next rest =>
        simp only [marked, List.head?_cons, Option.some.injEq] at first
        simp only [marked, List.getElem?_cons_succ, List.getElem?_cons_zero, Option.some.injEq] at second
        simp only [subscriptTexts, id, marked, first, second]
  cases mapped : s.table.arraySubscriptToCorrespondingSymbol.lookup base.encompassingCode with
  | some symbol =>
    simp only [mapped, bind_ok, raise_ok, orThrow_ok, modifyTable_ok] at returned
    obtain ⟨type, _, ⟨typed, rfl⟩, rfl⟩ := returned
    exact .subscript texts mapped typed
  | none =>
    simp only [mapped, bind_ok, raise_ok, orThrow_ok, nonNull_ok, createTypedef_eq, EStateM.Result.ok.injEq,
      modifyTable_ok] at returned
    obtain ⟨name, _, ⟨identifier, rfl⟩, symbol, _, ⟨found, rfl⟩, _, _, ⟨rfl, rfl⟩, rfl⟩ := returned
    simp only [withTable, typeAlias_typedefType, typeAlias_typedefName, typeAlias_symbolType]
    exact .subscriptVariable texts mapped identifier found

theorem convertSubscriptToIntegerHeuristic_ok (id : diag.diagnosticID = .errTypecheckSubscriptNotInteger)
    (returned : convertSubscriptToIntegerHeuristic diag s = .ok u t) : Effect s diag t := by
  simp only [convertSubscriptToIntegerHeuristic, bind_ok, guard_ok, raise_ok, getFirst_ok, getTable_ok,
    nonNull_ok, modifyTable_ok] at returned
  obtain ⟨_, range, _, ⟨first, rfl⟩, _, _, _, ⟨rfl, rfl⟩, symbol, _, ⟨found, rfl⟩, rfl⟩ := returned
  exact .convertSubscript id first found

theorem adjustIncrementDecrementHeuristic_ok
    (id : diag.diagnosticID = .errTypecheckIllegalIncrementDecrement)
    (returned : adjustIncrementDecrementHeuristic diag s = .ok u t) : Effect s diag t := by
  simp only [adjustIncrementDecrementHeuristic, bind_ok, matched_ok, getTable_ok,
    setAliasedType_ok] at returned
  obtain ⟨⟨type, _⟩, _, ⟨args, rfl⟩, _, _, ⟨rfl, rfl⟩, symbol, found, rfl⟩ := returned
  exact .overwrite (by simp only [plainTarget, id, args, Option.map_some]) found

theorem adjustIncompleteArgInCall_ok (id : diag.diagnosticID = .errCallIncompleteArgument)
    (returned : adjustIncompleteArgInCall diag s = .ok u t) : Effect s diag t := by
  simp only [adjustIncompleteArgInCall, bind_ok, matched_ok, getTable_ok, raise_ok, orThrow_ok,
    nonNull_ok] at returned
  obtain ⟨type, _, ⟨args, rfl⟩, _, _, ⟨rfl, rfl⟩, symbol, _, ⟨found, rfl⟩, structural, _, ⟨present, rfl⟩,
    returned⟩ := returned
  split at returned
  · rename_i void
    have isVoid : structural.isVoid = true := (Bool.and_eq_true_iff.mp void).2
    obtain rfl : _ = t := (EStateM.Result.ok.inj returned).2
    exact .structArgument (by simp [voidArgument, id, args, present, isVoid]) found
  · rename_i other
    have notVoid : structural.isVoid = false := by
      cases structural <;> simp_all [LangType.isVoid, LangType.isBuiltinType]
    obtain ⟨_, same, rfl⟩ := setAliasedType_ok.mp returned
    cases same
    exact .overwrite (by simp [plainTarget, id, args, present, notVoid]) found

theorem adjustArraySizeNonInt_ok (id : diag.diagnosticID = .errArraySizeNonInt)
    (returned : adjustArraySizeNonInt diag s = .ok u t) : Effect s diag t := by
  simp only [adjustArraySizeNonInt, bind_ok, matched_ok, getTable_ok, raise_ok, orThrow_ok,
    setAliasedType_ok] at returned
  obtain ⟨type, _, ⟨args, rfl⟩, _, _, ⟨rfl, rfl⟩, symbol, _, ⟨found, rfl⟩, _, same, rfl⟩ := returned
  cases same
  exact .overwrite (by simp only [plainTarget, id, args]) found

/-- Whatever handler a diagnostic is dispatched to, its effect is listed. -/
theorem dispatch_ok {includePath : String} (returned : dispatch includePath diag s = .ok u t) :
    Effect s diag t := by
  unfold dispatch at returned
  cases id : diag.diagnosticID with
  | extImplicitFunctionDeclC99 => exact declareFunctionHeuristic_ok id (by simpa only [id] using returned)
  | errUndeclaredVarUse =>
    exact declareVariableOrTypedefHeuristic_ok (by rw [id]; rfl) (by simpa only [id] using returned)
  | errUndeclaredVarUseSuggest =>
    exact declareVariableOrTypedefHeuristic_ok (by rw [id]; rfl) (by simpa only [id] using returned)
  | errTypecheckConvertIncompatible =>
    exact adjustConversionTypesHeuristic_ok id (by simpa only [id] using returned)
  | errTypecheckInvalidOperands =>
    exact adjustOperandTypesHeuristic_ok id (by simpa only [id] using returned)
  | errPPFileNotFound => exact createHeaderFileHeuristic_ok id (by simpa only [id] using returned)
  | errTypecheckDeclIncompleteType =>
    exact defineTagTypeHeuristic_ok (by rw [id]; rfl) (by simpa only [id] using returned)
  | errFuncDefIncompleteResult =>
    exact defineTagTypeHeuristic_ok (by rw [id]; rfl) (by simpa only [id] using returned)
  | errNoMember => exact addRecordMemberHeuristic_ok id (by simpa only [id] using returned)
  | errUnknownTypename =>
    exact declareTypedefTypeAliasHeuristic_ok (by rw [id]; rfl) (by simpa only [id] using returned)
  | errUnknownTypenameSuggest =>
    exact declareTypedefTypeAliasHeuristic_ok (by rw [id]; rfl) (by simpa only [id] using returned)
  | errTypecheckMemberReferenceSuggestion =>
    exact adjustMemberReferenceHeuristic_ok id (by simpa only [id] using returned)
  | errTypecheckSubscriptValue =>
    exact adjustSubscriptBaseHeuristic_ok id (by simpa only [id] using returned)
  | errTypecheckSubscriptNotInteger =>
    exact convertSubscriptToIntegerHeuristic_ok id (by simpa only [id] using returned)
  | errTypecheckIllegalIncrementDecrement =>
    exact adjustIncrementDecrementHeuristic_ok id (by simpa only [id] using returned)
  | errCallIncompleteArgument => exact adjustIncompleteArgInCall_ok id (by simpa only [id] using returned)
  | errArraySizeNonInt => exact adjustArraySizeNonInt_ok id (by simpa only [id] using returned)
  | unknown =>
    simp only [id] at returned
    obtain ⟨_, rfl⟩ := pure_ok.mp returned
    exact .idle id

end Inversion

section Runs
variable {includePath : String} {s t : MendingState} {diag : Diagnostic} {diags : List Diagnostic} {u : Unit}

/-- One diagnostic is handled and its handler returns. -/
def Step (includePath : String) (s : MendingState) (diag : Diagnostic) (t : MendingState) : Prop :=
  mendOne includePath diag s = .ok () t

/-- The state a handler is entered in: the diagnostic already counts as handled. -/
def MendingState.recorded (s : MendingState) (diag : Diagnostic) : MendingState :=
  s.withTable fun table => { table with handledDiagnostics := table.handledDiagnostics ++ [diag] }

theorem Step.effect (step : Step includePath s diag t) : Effect (s.recorded diag) diag t := by
  simp only [Step, mendOne, bind_ok, modifyTable_ok] at step
  obtain ⟨_, _, rfl, returned⟩ := step
  exact dispatch_ok returned

/-- A batch returns exactly when its diagnostics are handled one after another. -/
theorem mend_ok : mend includePath diags s = .ok u t ↔ Reaches (Step includePath) s diags t := forM_ok

theorem mended_iff : mended diags = some t ↔
    Reaches (Step "/includes") (.initial .start .empty) diags t := by
  rw [← mend_ok (u := ())]
  unfold mended
  cases mend "/includes" diags (.initial .start .empty) with
  | ok _ _ => simp
  | error _ _ => simp

/-- The last diagnostic of a sequence is handled in the state the others lead to. -/
theorem mended_snoc : mended (diags ++ [diag]) = some t ↔
    ∃ s, mended diags = some s ∧ Step "/includes" s diag t := by
  simp only [mended_iff, Reaches.append_iff, Reaches.single_iff]

end Runs
end CMender
