import CMender.Foundations.Execution
import CMender.Mending.Table

/-! The handlers of the sequential mending handler, one for each kind of
diagnostic. A handler that throws keeps what it already changed. -/
namespace CMender
open Foundations Foundations.Execution

structure MendingState where
  table : MendingTable
  names : MendingTypeNameGenerator
  files : FileSystem

/-- The state in which a file's mending starts. The name generator is where the
files before it left it. -/
def MendingState.initial (names : MendingTypeNameGenerator) (files : FileSystem) : MendingState :=
  ⟨.empty, names, files⟩

abbrev Mend := EStateM JavaException MendingState

section Primitives

def getTable : Mend MendingTable := do return (← get).table

def modifyTable (f : MendingTable → MendingTable) : Mend Unit :=
  modify fun s => { s with table := f s.table }

def newTypedefAliasName : Mend String := do
  let name := (← get).names.newTypedefAliasName.1
  modify fun s => { s with names := s.names.newTypedefAliasName.2 }
  return name

def newTagTypeName : Mend String := do
  let name := (← get).names.newTagTypeName.1
  modify fun s => { s with names := s.names.newTagTypeName.2 }
  return name

def newEnumConstantName : Mend String := do
  let name := (← get).names.newEnumConstantName.1
  modify fun s => { s with names := s.names.newEnumConstantName.2 }
  return name

/-- `put(new RecordSymbol(name))` -/
def putNewRecord (name : String) : Mend Unit := modifyTable (·.createRecord name)

/-- Setting the type or the lock of a symbol that was not found is a null pointer. -/
def setAliasedType (symbol : Option (Ref TypedefSymbol)) (qualType : QualType) : Mend Unit := do
  let symbol ← raise (nonNull symbol)
  modifyTable (·.retype symbol qualType)

def setLocked (symbol : Option (Ref TypedefSymbol)) : Mend Unit := do
  let symbol ← raise (nonNull symbol)
  modifyTable (·.setLocked symbol)

end Primitives

section Creation

def allTypeKinds : List TypeKind := [.builtin, .pointer, .array, .record, .enum, .typedef, .function]

def createTypedefNamed (typedefName : String) (qualType : QualType) (permittedTypes : List TypeKind) :
    Mend (Ref TypedefSymbol) := do
  let symbol := (← getTable).typedefSymbols.next
  modifyTable (·.createTypedef typedefName qualType permittedTypes)
  return symbol

def createTypedef (qualType : QualType) (permittedTypes : List TypeKind) : Mend (Ref TypedefSymbol) := do
  createTypedefNamed (← newTypedefAliasName) qualType permittedTypes

def createTypedefOfGeneratedStructTypeNamed (typedefName : String) (permittedTypes : List TypeKind) :
    Mend (Ref TypedefSymbol) := do
  let tag ← newTagTypeName
  putNewRecord tag
  createTypedefNamed typedefName (structType tag) permittedTypes

def createTypedefOfGeneratedStructType (permittedTypes : List TypeKind) : Mend (Ref TypedefSymbol) := do
  createTypedefOfGeneratedStructTypeNamed (← newTypedefAliasName) permittedTypes

def createMissingVariable (varName : String) : Mend Unit := do
  let typedefSymbol ← createTypedefOfGeneratedStructType allTypeKinds
  modifyTable fun table => table.declareVariable varName (table.typedefType typedefSymbol)

end Creation

/-! ### Arguments

The lists of argument kinds a handler accepts, and what it reads from them. -/
section Arguments

/-- The arguments read, or the exception of a handler that could not match them. -/
def matched {α : Type} (purpose : String) (args : Option α) : Mend α :=
  raise (orThrow (.runtime ("Could not match diagnostic args for " ++ purpose)) args)

def functionArgs : List DiagnosticArg → Option String
  | [.identifier name] => some name
  | _ => none

def variableArgs : List DiagnosticArg → Option String
  | [.declarationName name] => some name
  | [.declarationName name, .stdString _] => some name
  | [.identifier name, .stdString _] => some name
  | _ => none

def conversionArgs : List DiagnosticArg → Option (QualType × QualType)
  | [.qualType lhs, .qualType rhs, .sint _, .uint _, .sint _] => some (lhs, rhs)
  | _ => none

def operandArgs : List DiagnosticArg → Option (QualType × QualType)
  | [.qualType lhs, .qualType rhs] => some (lhs, rhs)
  | _ => none

def headerArgs : List DiagnosticArg → Option String
  | [.stdString string] => some string
  | _ => none

def typeArgs : List DiagnosticArg → Option QualType
  | [.qualType qualType] => some qualType
  | _ => none

def typeAndIntArgs : List DiagnosticArg → Option (QualType × Int)
  | [.qualType qualType, .sint integer] => some (qualType, integer)
  | _ => none

def memberArgs : List DiagnosticArg → Option (String × Option RecordDecl)
  | [.declarationName name, .declContext context] => some (name, context)
  | _ => none

def typedefArgs : List DiagnosticArg → Option String
  | [.identifier name] => some name
  | [.identifier name, .stdString _] => some name
  | _ => none

end Arguments

def declareFunctionHeuristic (diag : Diagnostic) : Mend Unit := do
  let functionName ← matched "declareFunctionHeuristic" (functionArgs diag.args)
  let typedefSymbol ← createTypedef voidType allTypeKinds
  modifyTable fun table => table.declareFunction functionName (table.typedefType typedefSymbol)

def declareVariableOrTypedefHeuristic (diag : Diagnostic) : Mend Unit := do
  let varName ← matched "declareVariableOrTypedefHeuristic" (variableArgs diag.args)
  createMissingVariable varName

section SourceOfTruth

/-- A side whose type the mender cannot change: unnamed, a named controlled tag,
or not controlled at all. -/
def isSourceOfTruth (table : MendingTable) : Option TypeName → Bool
  | none => true
  | some typeName => table.isControlledAndNamedTagType typeName || table.isUncontrolled typeName

/-- The typedef symbol registered under the full spelling of a type's name. -/
def namedTypedef (table : MendingTable) (typeName : Option TypeName) : Option (Ref TypedefSymbol) :=
  typeName.bind fun name => table.typedefs.lookup name.typeName

/-- Two controlled typedefs that can both change become `int`, and stay so. -/
def setBothToInt (lhsTypedefSymbol rhsTypedefSymbol : Ref TypedefSymbol) : Mend Unit := do
  setAliasedType lhsTypedefSymbol intUnqualifiedType
  setLocked lhsTypedefSymbol
  setAliasedType rhsTypedefSymbol intUnqualifiedType
  setLocked rhsTypedefSymbol

end SourceOfTruth

def adjustConversionTypesHeuristic (diag : Diagnostic) : Mend Unit := do
  let (lhsQualType, rhsQualType) ← matched "adjustConversionTypesHeuristic" (conversionArgs diag.args)
  let lhsTypeName ← raise lhsQualType.typeName
  let rhsTypeName ← raise rhsQualType.typeName
  if lhsTypeName.isNone && rhsTypeName.isNone then
    throw (.runtime "Both sides are derived types without a name. Not yet implemented. This ")
  else
    let table ← getTable
    let lhsIsSourceOfTruth := isSourceOfTruth table lhsTypeName
    let rhsIsSourceOfTruth := isSourceOfTruth table rhsTypeName
    if lhsIsSourceOfTruth && rhsIsSourceOfTruth then
      throw (.runtime "Both sides are source of truth. Cant do anything")
    else if lhsIsSourceOfTruth ^^ rhsIsSourceOfTruth then
      let sourceOfTruthQualType := if lhsIsSourceOfTruth then lhsQualType else rhsQualType
      let toBeChangedTypeName := if lhsIsSourceOfTruth then rhsTypeName else lhsTypeName
      let typedefSymbol := namedTypedef table toBeChangedTypeName
      setAliasedType typedefSymbol sourceOfTruthQualType
      setLocked typedefSymbol
    else
      let lhsTypedefSymbol ← raise (nonNull (namedTypedef table lhsTypeName))
      let rhsTypedefSymbol ← raise (nonNull (namedTypedef table rhsTypeName))
      let lhsIsLocked := table.isLocked lhsTypedefSymbol
      let rhsIsLocked := table.isLocked rhsTypedefSymbol
      if lhsIsLocked && rhsIsLocked then
        throw (.runtime
          "Both sides are controlled typedef aliases but none can change the aliased type")
      else if !lhsIsLocked ^^ !rhsIsLocked then
        let sourceOfTruthTypedefSymbol := if lhsIsLocked then lhsTypedefSymbol else rhsTypedefSymbol
        let toBeChangedTypedefSymbol := if lhsIsLocked then rhsTypedefSymbol else lhsTypedefSymbol
        setAliasedType toBeChangedTypedefSymbol (table.symbolType sourceOfTruthTypedefSymbol)
        setLocked toBeChangedTypedefSymbol
      else
        setBothToInt lhsTypedefSymbol rhsTypedefSymbol

section Operands

def isComparison (op : String) : Bool := ["==", "!=", "<", ">", "<=", ">="].contains op

def isBinarySum (op : String) : Bool := op == "+"

def isBinarySub (op : String) : Bool := op == "-"

/-- The operator is the code at the diagnostic, or at the innermost spelling of
the macro it comes from. -/
def operatorText (diag : Diagnostic) : Except JavaException String :=
  if diag.location.isFileLoc then do
    return (← nonNull diag.location.presumedLoc).encompassingCode
  else do
    let spelling ← getFirst (← nonNull diag.location.spellingLocs)
    return (← nonNull spelling).encompassingCode

def handlePointerSourceOfTruthInInvalidOperands (op : String)
    (typedefSymbol : Option (Ref TypedefSymbol)) (lhsIsSourceOfTruth : Bool) : Mend Unit :=
  if isComparison op then setAliasedType typedefSymbol intPointerType
  else if isBinarySum op then setAliasedType typedefSymbol intUnqualifiedType
  else if isBinarySub op && !lhsIsSourceOfTruth then setAliasedType typedefSymbol intPointerType
  else throw (.runtime "Pointer arithmetic operation not supported. Something went wrong")

/-- The part both operand handlers share: `truth` decides what the other operand
becomes, and `message` is thrown when it is a struct or a union. -/
def adjustOperandTo (truth : QualType) (op : String) (typedefSymbol : Option (Ref TypedefSymbol))
    (lhsIsSourceOfTruth : Bool) (message : String) : Mend Unit := do
  let type ← raise (nonNull truth.type)
  if type.isPointerType || type.isArrayType then
    handlePointerSourceOfTruthInInvalidOperands op typedefSymbol lhsIsSourceOfTruth
    setLocked typedefSymbol
  else if type.isBuiltinType || type.isEnumType then
    setAliasedType typedefSymbol intUnqualifiedType
    setLocked typedefSymbol
  else throw (.runtime message)

def handleInvalidOperandsWithOneSideHighSourceOfTruth (lhsQualType rhsQualType : QualType)
    (lhsTypeName rhsTypeName : Option TypeName) (lhsIsSourceOfTruth : Bool) (op : String) :
    Mend Unit := do
  let sourceOfTruthQualType := if lhsIsSourceOfTruth then lhsQualType else rhsQualType
  let toBeChangedTypeName := if lhsIsSourceOfTruth then rhsTypeName else lhsTypeName
  let typedefSymbol := namedTypedef (← getTable) toBeChangedTypeName
  adjustOperandTo sourceOfTruthQualType op typedefSymbol lhsIsSourceOfTruth
    "Source of truth is not a pointer, array or number or enum and is used in an invalid operation"

def handleInvalidOperandsWithNoSideHighSourceOfTruth (lhsTypeName rhsTypeName : Option TypeName)
    (op : String) : Mend Unit := do
  let table ← getTable
  let lhsTypedefSymbol ← raise (nonNull (namedTypedef table lhsTypeName))
  let rhsTypedefSymbol ← raise (nonNull (namedTypedef table rhsTypeName))
  let lhsIsLocked := table.isLocked lhsTypedefSymbol
  let rhsIsLocked := table.isLocked rhsTypedefSymbol
  if lhsIsLocked && rhsIsLocked then
    throw (.runtime "Both sides are controlled typedef aliases but none can change the aliased type")
  else if !lhsIsLocked ^^ !rhsIsLocked then
    let sourceOfTruthTypedefSymbol := if lhsIsLocked then lhsTypedefSymbol else rhsTypedefSymbol
    let toBeChangedTypedefSymbol := if lhsIsLocked then rhsTypedefSymbol else lhsTypedefSymbol
    adjustOperandTo (table.symbolType sourceOfTruthTypedefSymbol) op toBeChangedTypedefSymbol lhsIsLocked
      ("Source of truth is not a pointer, array or number or enum and is used in an " ++
        "invalid operation (binary operation)")
  else
    setBothToInt lhsTypedefSymbol rhsTypedefSymbol

end Operands

def adjustOperandTypesHeuristic (diag : Diagnostic) : Mend Unit := do
  let (lhsQualType, rhsQualType) ← matched "adjustOperandTypesHeuristic" (operandArgs diag.args)
  let op ← raise (operatorText diag)
  let lhsTypeName ← raise lhsQualType.typeName
  let rhsTypeName ← raise rhsQualType.typeName
  if lhsTypeName.isNone && rhsTypeName.isNone then
    throw (.runtime "Both sides are derived types without a name. Not yet implemented. This ")
  else
    let table ← getTable
    let lhsIsSourceOfTruth := isSourceOfTruth table lhsTypeName
    let rhsIsSourceOfTruth := isSourceOfTruth table rhsTypeName
    if lhsIsSourceOfTruth && rhsIsSourceOfTruth then
      throw (.runtime "Both sides are source of truth. Cant do anything")
    else if lhsIsSourceOfTruth ^^ rhsIsSourceOfTruth then
      handleInvalidOperandsWithOneSideHighSourceOfTruth lhsQualType rhsQualType lhsTypeName rhsTypeName
        lhsIsSourceOfTruth op
    else
      handleInvalidOperandsWithNoSideHighSourceOfTruth lhsTypeName rhsTypeName op

/-- The file of a missing header, unless the mender made it before. -/
def createHeaderFile (failed : String → JavaException) (headerFilePath : Path) : Mend Unit := do
  if (← getTable).ppFileExists headerFilePath then
    return
  else
    modifyTable (·.addPPFile headerFilePath)
    -- The root has no parent directory to create.
    if headerFilePath = [] then
      throw (failed "null")
    else
      let files ← raise (((← get).files.createDirectories headerFilePath.dropLast).mapError failed)
      modify fun s => { s with files := files }
      let files ← raise ((files.createFile headerFilePath).mapError failed)
      modify fun s => { s with files := files }

/-- Whatever goes wrong is reported as one runtime exception, and the file stays
recorded as created. -/
def createHeaderFileHeuristic (includePath : String) (diag : Diagnostic) : Mend Unit := do
  let failed (message : String) : JavaException :=
    .runtime ("Failed to handle missing pp file: " ++ message)
  let string ← raise (orThrow (failed "Could not match diagnostic args for createHeaderFileHeuristic")
    (headerArgs diag.args))
  if string.toList.contains '\x00' then
    throw (failed ("Nul character not allowed: " ++ includePath ++ "/" ++ string))
  else
    createHeaderFile failed (Path.canonical includePath string)

def defineTagTypeHeuristic (diag : Diagnostic) : Mend Unit := do
  let qualType ← matched "incomplete type declaration" (typeArgs diag.args)
  match ← raise (nonNull qualType.type) with
  | .record name _ => putNewRecord name
  | .enum name =>
    let constant ← newEnumConstantName
    modifyTable (·.declareEnum name [constant])
  | _ => throw (.runtime "Incomplete type declaration for non-record and non-enum type")

def addRecordMemberHeuristic (diag : Diagnostic) : Mend Unit := do
  let (memberName, declContext) ← matched "addRecordMemberHeuristic" (memberArgs diag.args)
  let recordDeclContext ← raise (nonNull declContext)
  if recordDeclContext.tagKind != .struct && recordDeclContext.tagKind != .union then
    throw (.runtime "No member diagnostic for non-struct record")
  else
    let recordSymbol ← raise (orThrow (.runtime "No member diagnostic for undeclared struct")
      ((← getTable).records.lookup recordDeclContext.name))
    let memberTypedefSymbol ← createTypedefOfGeneratedStructType allTypeKinds
    modifyTable fun table =>
      table.declareMember recordSymbol memberName (table.typedefType memberTypedefSymbol)

def declareTypedefTypeAliasHeuristic (diag : Diagnostic) : Mend Unit := do
  let typedefName ← matched "declareTypedefTypeAliasHeuristic" (typedefArgs diag.args)
  let _ ← createTypedefOfGeneratedStructTypeNamed typedefName allTypeKinds

/-- A pointer to the type an alias has, spelled from the diagnostic's text. -/
def memberPointerType (name : String) (canonical : String) (pointee : QualType) : QualType :=
  ⟨name, canonical ++ " *", canonical ++ " *diag_exporter_id", .unqualified,
    some (.pointer pointee), none⟩

def adjustMemberReferenceHeuristic (diag : Diagnostic) : Mend Unit := do
  let (qualType, integer) ← matched "adjustMemberReferenceHeuristic" (typeAndIntArgs diag.args)
  let _ ← raise qualType.typeName
  if integer == 1 then
    let table ← getTable
    let typedefSymbol ← raise (nonNull (table.typedefs.lookup qualType.typeAsString))
    setAliasedType typedefSymbol (memberPointerType
      (table.typedefName (table.typedefType typedefSymbol)) qualType.canonicalTypeAsString
      (table.symbolType typedefSymbol))
    setLocked typedefSymbol
  else
    return

section Subscripts

def isLineTerminator (c : Char) : Bool :=
  ['\n', '\r', '\u0085', '\u2028', '\u2029'].contains c

/-- `[a-zA-Z_][a-zA-Z0-9_]*`, with the letters of ASCII only. -/
def fitsIdentifierPattern : List Char → Bool
  | [] => false
  | first :: rest => (first.isAlpha || first == '_') && rest.all fun c => c.isAlphanum || c == '_'

/-- `^([a-zA-Z_][a-zA-Z0-9_]*)$`, where the end is also found before one last
line terminator. -/
def matchIdentifier (text : String) : Option String :=
  let chars := text.toList
  let line := match chars.reverse with
    | '\n' :: '\r' :: rest => rest.reverse
    | last :: rest => if isLineTerminator last then rest.reverse else chars
    | [] => []
  if fitsIdentifierPattern line then some (String.ofList line) else none

/-- One more pointer around a type, both in its texts and in its structure. -/
def QualType.pointerTo (pointee : QualType) : QualType :=
  ⟨pointee.typeAsString ++ " *", pointee.canonicalTypeAsString ++ " *",
    pointee.canonicalTypeAsString ++ " * diag_exporter_id", .unqualified, some (.pointer pointee), none⟩

/-- A pointer whose texts name an alias and whose structure is a pointer to the
type behind it. -/
def aliasPointerType (aliasName : String) (aliased : QualType) : QualType :=
  .spelled (aliasName ++ " *") (aliasName ++ " *diag_exporter_id") (.pointer
    ⟨aliasName, aliased.canonicalTypeAsString, aliased.canonicalTypeAsString ++ " diag_exporter_id",
      .unqualified, aliased.type, none⟩)

/-- The typedef type of the symbols a subscript can be recorded for. -/
def Symbol.subscriptedType : Symbol → Option (Ref TypedefType)
  | .variable symbol => some symbol.type
  | .function symbol => some symbol.returnType
  | .member symbol => some symbol.type
  | _ => none

def adjustSubscriptBaseHeuristic (diag : Diagnostic) : Mend Unit := do
  let baseEncompassingCode := (← raise (getFirst diag.sourceRanges)).encompassingCode
  let subscriptEncompassingCode := (← raise (getAt diag.sourceRanges 1)).encompassingCode
  let baseAndSubscriptEncompassingCode :=
    baseEncompassingCode ++ "[" ++ subscriptEncompassingCode ++ "]"
  let table ← getTable
  match table.arraySubscriptToCorrespondingSymbol.lookup baseEncompassingCode with
  | some symbol =>
    let type ← raise (orThrow (.runtime "Unknown symbol type for subscript value") symbol.subscriptedType)
    modifyTable fun table => (table.setAliasedType type
      (table.aliasedType type).pointerTo).putControlledArraySubscriptMapping
        baseAndSubscriptEncompassingCode symbol
  | none =>
    let varName ← raise (orThrow (.runtime "Could not find variable name in subscript value")
      (matchIdentifier baseEncompassingCode))
    let varSymbol ← raise (nonNull (table.variables.lookup varName))
    let structType := table.aliasedType varSymbol.type
    let structTypedefAliasSymbol ← createTypedef structType []
    modifyTable fun table => (table.setAliasedType varSymbol.type (aliasPointerType
      (table.typedefName (table.typedefType structTypedefAliasSymbol))
      (table.symbolType structTypedefAliasSymbol))).putControlledArraySubscriptMapping
        baseAndSubscriptEncompassingCode (.variable varSymbol)

def convertSubscriptToIntegerHeuristic (diag : Diagnostic) : Mend Unit := do
  if !diag.args.isEmpty then
    throw (.runtime "Could not match diagnostic args for subscript not integer")
  else
    let identifier := (← raise (getFirst diag.sourceRanges)).encompassingCode
    if [".", "*", "->", "[", "("].any (Text.contains identifier ·) then
      throw (.runtime "Subscript not integer is not a simple identifier. Not yet implemented")
    else
      let symbol ← raise (nonNull ((← getTable).variables.lookup identifier))
      modifyTable (·.setAliasedType symbol.type unsignedIntType)

end Subscripts

def adjustIncrementDecrementHeuristic (diag : Diagnostic) : Mend Unit := do
  let (qualType, _) ← matched "adjustIncrementDecrementHeuristic" (typeAndIntArgs diag.args)
  setAliasedType ((← getTable).typedefs.lookup qualType.typeAsString) intUnqualifiedType

def adjustIncompleteArgInCall (diag : Diagnostic) : Mend Unit := do
  let qualType ← matched "adjustIncompleteArgInCall" (typeArgs diag.args)
  let typedefSymbol ← raise (orThrow
    (.runtime "Could not find typedef symbol for incomplete arg in call")
    ((← getTable).typedefs.lookup qualType.typeAsString))
  let type ← raise (nonNull qualType.type)
  if type.isBuiltinType && type.isVoid then
    let tag ← newTagTypeName
    putNewRecord tag
    setAliasedType typedefSymbol (structType tag)
  else
    setAliasedType typedefSymbol intUnqualifiedType

def adjustArraySizeNonInt (diag : Diagnostic) : Mend Unit := do
  let qualType ← matched "adjustArraySizeNonInt" (typeArgs diag.args)
  let typedefSymbol ← raise (orThrow (.runtime "Could not find typedef symbol for array size non-int")
    ((← getTable).typedefs.lookup qualType.typeAsString))
  setAliasedType typedefSymbol intUnqualifiedType

/-- The handler of a diagnostic; diagnostics the mender does not know are left alone. -/
def dispatch (includePath : String) (diag : Diagnostic) : Mend Unit :=
  match diag.diagnosticID with
  | .extImplicitFunctionDeclC99 => declareFunctionHeuristic diag
  | .errUndeclaredVarUse | .errUndeclaredVarUseSuggest => declareVariableOrTypedefHeuristic diag
  | .errTypecheckConvertIncompatible => adjustConversionTypesHeuristic diag
  | .errTypecheckInvalidOperands => adjustOperandTypesHeuristic diag
  | .errPPFileNotFound => createHeaderFileHeuristic includePath diag
  | .errTypecheckDeclIncompleteType | .errFuncDefIncompleteResult => defineTagTypeHeuristic diag
  | .errNoMember => addRecordMemberHeuristic diag
  | .errUnknownTypename | .errUnknownTypenameSuggest => declareTypedefTypeAliasHeuristic diag
  | .errTypecheckMemberReferenceSuggestion => adjustMemberReferenceHeuristic diag
  | .errTypecheckSubscriptValue => adjustSubscriptBaseHeuristic diag
  | .errTypecheckSubscriptNotInteger => convertSubscriptToIntegerHeuristic diag
  | .errTypecheckIllegalIncrementDecrement => adjustIncrementDecrementHeuristic diag
  | .errCallIncompleteArgument => adjustIncompleteArgInCall diag
  | .errArraySizeNonInt => adjustArraySizeNonInt diag
  | .unknown => pure ()

/-- A diagnostic counts as handled before its handler is entered. -/
def mendOne (includePath : String) (diag : Diagnostic) : Mend Unit := do
  modifyTable fun table => { table with handledDiagnostics := table.handledDiagnostics ++ [diag] }
  dispatch includePath diag

def mend (includePath : String) (selectedDiags : List Diagnostic) : Mend Unit :=
  selectedDiags.forM (mendOne includePath)

/-- The state that a sequence of diagnostics leaves behind in a first file, if
every handler returns. -/
def mended (selectedDiags : List Diagnostic) : Option MendingState :=
  match mend "/includes" selectedDiags (.initial .start .empty) with
  | .ok _ s => some s
  | .error _ _ => none

def mendedTable (selectedDiags : List Diagnostic) : Option MendingTable :=
  (mended selectedDiags).map (·.table)

end CMender
