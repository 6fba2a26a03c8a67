import CMender.Mending.Steps

/-! What a handler that throws leaves behind. Apart from the record of header
files, every handler throws before it changes anything. -/
namespace CMender
open Foundations Foundations.Execution

section Primitives
variable {s t : MendingState} {error : JavaException}

theorem readOnly_getTable : ReadOnly getTable := fun s => .inl ⟨s.table, rfl⟩

theorem readOnly_matched {α : Type} (purpose : String) (args : Option α) : ReadOnly (matched purpose args) :=
  readOnly_raise _

/-- A symbol that is not there is noticed before anything is written. -/
theorem atomic_setAliasedType (symbol : Option (Ref TypedefSymbol)) (type : QualType) :
    Atomic (setAliasedType symbol type) :=
  .bind (readOnly_raise _) fun _ => atomic_modify _

theorem atomic_settle (symbol : Option (Ref TypedefSymbol)) (type : QualType) :
    Atomic (do setAliasedType symbol type; setLocked symbol : Mend Unit) := by
  cases symbol with
  | none =>
    intro s e t thrown
    cases thrown
    rfl
  | some symbol =>
    intro s e t thrown
    cases thrown

theorem atomic_setBothToInt (lhs rhs : Ref TypedefSymbol) : Atomic (setBothToInt lhs rhs) := by
  intro s e t thrown
  cases thrown

theorem atomic_adjustOperandTo (truth : QualType) (op : String) (symbol : Option (Ref TypedefSymbol))
    (left : Bool) (message : String) : Atomic (adjustOperandTo truth op symbol left message) := by
  refine .bind (readOnly_raise _) fun type => .ite ?_ (.ite (atomic_settle _ _) (atomic_throw _))
  unfold handlePointerSourceOfTruthInInvalidOperands
  split
  · exact atomic_settle _ _
  · split
    · exact atomic_settle _ _
    · split
      · exact atomic_settle _ _
      · intro s e t thrown
        cases thrown
        rfl

end Primitives

section Handlers
variable (diag : Diagnostic)

theorem atomic_declareFunctionHeuristic : Atomic (declareFunctionHeuristic diag) :=
  .bind (readOnly_matched _ _) fun _ => atomic_of_returns fun _ => ⟨_, _, rfl⟩

theorem atomic_declareVariableOrTypedefHeuristic : Atomic (declareVariableOrTypedefHeuristic diag) :=
  .bind (readOnly_matched _ _) fun _ => atomic_of_returns fun _ => ⟨_, _, rfl⟩

theorem atomic_adjustConversionTypesHeuristic : Atomic (adjustConversionTypesHeuristic diag) := by
  refine .bind (readOnly_matched _ _) fun types => .bind (readOnly_raise _) fun _ =>
    .bind (readOnly_raise _) fun _ => .ite (atomic_throw _) (.bind readOnly_getTable fun _ => .ite
      (atomic_throw _) (.ite (atomic_settle _ _) (.bind (readOnly_raise _) fun _ =>
        .bind (readOnly_raise _) fun _ => .ite (atomic_throw _) (.ite ?_ (atomic_setBothToInt _ _)))))
  exact atomic_settle _ _

theorem atomic_adjustOperandTypesHeuristic : Atomic (adjustOperandTypesHeuristic diag) := by
  refine .bind (readOnly_matched _ _) fun types => .bind (readOnly_raise _) fun _ =>
    .bind (readOnly_raise _) fun _ => .bind (readOnly_raise _) fun _ => .ite (atomic_throw _)
      (.bind readOnly_getTable fun _ => .ite (atomic_throw _) (.ite ?_ ?_))
  · exact .bind readOnly_getTable fun _ => atomic_adjustOperandTo _ _ _ _ _
  · exact .bind readOnly_getTable fun _ => .bind (readOnly_raise _) fun _ => .bind (readOnly_raise _) fun _ =>
      .ite (atomic_throw _) (.ite (atomic_adjustOperandTo _ _ _ _ _) (atomic_setBothToInt _ _))

theorem atomic_defineTagTypeHeuristic : Atomic (defineTagTypeHeuristic diag) := by
  refine .bind (readOnly_matched _ _) fun _ => .bind (readOnly_raise _) fun type => ?_
  cases type with
  | record name kind => exact atomic_modify _
  | enum name => exact atomic_of_returns fun _ => ⟨_, _, rfl⟩
  | _ => exact atomic_throw _

theorem atomic_addRecordMemberHeuristic : Atomic (addRecordMemberHeuristic diag) :=
  .bind (readOnly_matched _ _) fun _ => .bind (readOnly_raise _) fun _ => .ite (atomic_throw _)
    (.bind readOnly_getTable fun _ => .bind (readOnly_raise _) fun _ =>
      atomic_of_returns fun _ => ⟨_, _, rfl⟩)

theorem atomic_declareTypedefTypeAliasHeuristic : Atomic (declareTypedefTypeAliasHeuristic diag) :=
  .bind (readOnly_matched _ _) fun _ => atomic_of_returns fun _ => ⟨_, _, rfl⟩

theorem atomic_adjustMemberReferenceHeuristic : Atomic (adjustMemberReferenceHeuristic diag) :=
  .bind (readOnly_matched _ _) fun _ => .bind (readOnly_raise _) fun _ =>
    .ite (.bind readOnly_getTable fun _ => .bind (readOnly_raise _) fun _ => atomic_settle _ _)
      (atomic_of_returns fun _ => ⟨_, _, rfl⟩)

theorem atomic_adjustSubscriptBaseHeuristic : Atomic (adjustSubscriptBaseHeuristic diag) := by
  refine .bind (readOnly_raise _) fun base => .bind (readOnly_raise _) fun sub =>
    .bind readOnly_getTable fun table => ?_
  cases table.arraySubscriptToCorrespondingSymbol.lookup base.encompassingCode with
  | some symbol => exact .bind (readOnly_raise _) fun _ => atomic_modify _
  | none =>
    exact .bind (readOnly_raise _) fun _ => .bind (readOnly_raise _) fun _ =>
      atomic_of_returns fun _ => ⟨_, _, rfl⟩

theorem atomic_convertSubscriptToIntegerHeuristic : Atomic (convertSubscriptToIntegerHeuristic diag) :=
  .ite (atomic_throw _) (.bind (readOnly_raise _) fun _ => .ite (atomic_throw _)
    (.bind readOnly_getTable fun _ => .bind (readOnly_raise _) fun _ => atomic_modify _))

theorem atomic_adjustIncrementDecrementHeuristic : Atomic (adjustIncrementDecrementHeuristic diag) :=
  .bind (readOnly_matched _ _) fun _ => .bind readOnly_getTable fun _ => atomic_setAliasedType _ _

theorem atomic_adjustIncompleteArgInCall : Atomic (adjustIncompleteArgInCall diag) :=
  .bind (readOnly_matched _ _) fun _ => .bind readOnly_getTable fun _ => .bind (readOnly_raise _) fun _ =>
    .bind (readOnly_raise _) fun _ => .ite (atomic_of_returns fun _ => ⟨_, _, rfl⟩) (atomic_setAliasedType _ _)

theorem atomic_adjustArraySizeNonInt : Atomic (adjustArraySizeNonInt diag) :=
  .bind (readOnly_matched _ _) fun _ => .bind readOnly_getTable fun _ => .bind (readOnly_raise _) fun _ =>
    atomic_setAliasedType _ _

end Handlers

section Throwing
variable {includePath : String} {diag : Diagnostic} {s t : MendingState} {e : JavaException}

/-- The states differ in the created header files at most. -/
def SameSymbols (s t : MendingState) : Prop :=
  ∃ ppFiles files, t = { s with table := { s.table with ppFiles := ppFiles }, files := files }

theorem SameSymbols.refl (s : MendingState) : SameSymbols s s := ⟨_, _, rfl⟩

theorem createHeaderFile_error {failed : String → JavaException} {path : Path}
    (thrown : createHeaderFile failed path s = .error e t) : SameSymbols s t := by
  unfold createHeaderFile at thrown
  rcases bind_error.mp thrown with read | ⟨table, middle, read, thrown⟩
  · cases read
  obtain ⟨rfl, rfl⟩ := getTable_ok.mp read
  split at thrown
  · cases thrown
  · rcases bind_error.mp thrown with added | ⟨_, _, added, thrown⟩
    · cases added
    obtain rfl := modifyTable_ok.mp added
    split at thrown
    · obtain ⟨_, rfl⟩ := throw_error.mp thrown
      exact ⟨_, _, rfl⟩
    · simp only [bind_error, get_error, get_ok, raise_error, raise_ok, modify_error, modify_ok] at thrown
      rcases thrown with nothing | ⟨_, _, ⟨rfl, rfl⟩,
        ⟨_, rfl⟩ | ⟨_, _, ⟨_, rfl⟩, nothing | ⟨_, _, rfl, ⟨_, rfl⟩ | ⟨_, _, _, nothing⟩⟩⟩⟩
      · exact nothing.elim
      · exact ⟨_, _, rfl⟩
      · exact nothing.elim
      · exact ⟨_, _, rfl⟩
      · exact nothing.elim

theorem createHeaderFileHeuristic_error (thrown : createHeaderFileHeuristic includePath diag s = .error e t) :
    SameSymbols s t := by
  unfold createHeaderFileHeuristic at thrown
  rcases bind_error.mp thrown with unmatched | ⟨string, middle, read, thrown⟩
  · obtain rfl := (raise_error.mp unmatched).2
    exact .refl _
  obtain ⟨_, rfl⟩ := raise_ok.mp read
  split at thrown
  · obtain ⟨_, rfl⟩ := throw_error.mp thrown
    exact .refl _
  · exact createHeaderFile_error thrown

theorem atomic_dispatch (other : diag.diagnosticID ≠ .errPPFileNotFound) :
    Atomic (dispatch includePath diag) := by
  unfold dispatch
  split
  · exact atomic_declareFunctionHeuristic diag
  · exact atomic_declareVariableOrTypedefHeuristic diag
  · exact atomic_declareVariableOrTypedefHeuristic diag
  · exact atomic_adjustConversionTypesHeuristic diag
  · exact atomic_adjustOperandTypesHeuristic diag
  · exact absurd ‹_› other
  · exact atomic_defineTagTypeHeuristic diag
  · exact atomic_defineTagTypeHeuristic diag
  · exact atomic_addRecordMemberHeuristic diag
  · exact atomic_declareTypedefTypeAliasHeuristic diag
  · exact atomic_declareTypedefTypeAliasHeuristic diag
  · exact atomic_adjustMemberReferenceHeuristic diag
  · exact atomic_adjustSubscriptBaseHeuristic diag
  · exact atomic_convertSubscriptToIntegerHeuristic diag
  · exact atomic_adjustIncrementDecrementHeuristic diag
  · exact atomic_adjustIncompleteArgInCall diag
  · exact atomic_adjustArraySizeNonInt diag
  · exact atomic_of_returns fun _ => ⟨_, _, rfl⟩

/-- Whichever handler throws, no symbol, type or name has changed. -/
theorem dispatch_error (thrown : dispatch includePath diag s = .error e t) : SameSymbols s t := by
  by_cases header : diag.diagnosticID = .errPPFileNotFound
  · simp only [dispatch, header] at thrown
    exact createHeaderFileHeuristic_error thrown
  · obtain rfl := atomic_dispatch header s e t thrown
    exact .refl _

/-- Symbols, names, types, locks and members are those of another table. -/
structure MendingTable.SameContents (before after : MendingTable) : Prop where
  «variables» : after.variables = before.variables
  functions : after.functions = before.functions
  typedefs : after.typedefs = before.typedefs
  records : after.records = before.records
  enums : after.enums = before.enums
  typeNames : after.typeNameToCorrespondingSymbol = before.typeNameToCorrespondingSymbol
  subscripts : after.arraySubscriptToCorrespondingSymbol = before.arraySubscriptToCorrespondingSymbol
  aliasedTypes : ∀ type, after.aliasedType type = before.aliasedType type
  locks : ∀ symbol, after.isLocked symbol = before.isLocked symbol
  members : ∀ record, after.members record = before.members record

theorem dispatch_atomic (thrown : dispatch includePath diag s = .error e t) :
    s.table.SameContents t.table := by
  obtain ⟨ppFiles, files, rfl⟩ := dispatch_error thrown
  exact ⟨rfl, rfl, rfl, rfl, rfl, rfl, rfl, fun _ => rfl, fun _ => rfl, fun _ => rfl⟩

/-- The header of an empty name is recorded as created before the handler throws. -/
theorem dispatch_atomic_header :
    ∃ e t, dispatch "/" (.errorAt 1 "" .errPPFileNotFound "'' file not found" [.stdString ""] [])
        (.initial .start .empty) = .error e t ∧
      t.table.ppFiles = [[]] ∧ MendingTable.empty.SameContents t.table := by
  have thrown : dispatch "/" (.errorAt 1 "" .errPPFileNotFound "'' file not found" [.stdString ""] [])
      (.initial .start .empty) = .error (.runtime "Failed to handle missing pp file: null")
        { MendingState.initial .start .empty with
          table := { MendingTable.empty with ppFiles := [[]] } } := rfl
  exact ⟨_, _, thrown, rfl, dispatch_atomic thrown⟩

/-- A handler is entered and returns or throws. -/
def Attempt (includePath : String) (s : MendingState) (diag : Diagnostic) (t : MendingState) : Prop :=
  Step includePath s diag t ∨ ∃ e, mendOne includePath diag s = .error e t

/-- An attempt has the effect of a handler that returned, or of none. -/
theorem Attempt.effect (attempt : Attempt includePath s diag t) :
    Effect (s.recorded diag) diag t ∨ SameSymbols (s.recorded diag) t := by
  rcases attempt with returned | ⟨e, thrown⟩
  · exact .inl returned.effect
  · rcases bind_error.mp thrown with nothing | ⟨_, _, recorded, thrown⟩
    · cases nothing
    · obtain rfl := modifyTable_ok.mp recorded
      exact .inr (dispatch_error thrown)

end Throwing
end CMender
