import CMender.Analysis.Selection

/-! What the batch analyses select, said about the exporter's result alone. The
first pass keeps the first diagnostic of each message and the last one the first of
each tag. The pass between them does the same for names as long as an unknown type
name comes before the undeclared variables of its name. -/
namespace CMender
open Foundations Foundations.Execution Foundations.Removal

/-- A comparison that returned, and returned true. -/
def holds : Except JavaException Bool → Bool
  | .ok b => b
  | .error _ => false

/-- A diagnostic takes another one out of the batch. -/
def takesOut (relevant : Diagnostic → Bool) (similar : Diagnostic → Diagnostic → Except JavaException Bool)
    (diag other : Diagnostic) : Bool := relevant diag && holds (similar diag other)

def repeats : Diagnostic → Diagnostic → Bool := takesOut (fun _ => true) sameMessage

def stdIdentifierTakesOut : Diagnostic → Diagnostic → Bool := takesOut isStdIdentifier stdIdentifierSimilar

def tagTakesOut : Diagnostic → Diagnostic → Bool := takesOut isIncompleteTag tagSimilar

section Relations
variable {diag other third : Diagnostic}

theorem repeats_iff : repeats diag other = true ↔ diag.message = other.message := by
  simp [repeats, takesOut, sameMessage, holds]

theorem holds_sameIdentifier :
    holds (sameIdentifier diag other) = true ↔
      ∃ name, getIdentifier diag = .ok name ∧ getIdentifier other = .ok name := by
  unfold sameIdentifier
  cases getIdentifier diag with
  | error error => simp [holds, bind, Except.bind]
  | ok name =>
    cases getIdentifier other with
    | error error => simp [holds, bind, Except.bind]
    | ok otherName =>
      change (name == otherName) = true ↔ _
      rw [beq_iff_eq]
      constructor
      · rintro rfl
        exact ⟨name, rfl, rfl⟩
      · rintro ⟨_, own, theirs⟩
        cases own
        cases theirs
        rfl

theorem stdIdentifierTakesOut_iff : stdIdentifierTakesOut diag other = true ↔
    isStdIdentifier diag = true ∧ isStdIdentifier other = true ∧
      ¬ (isUndeclaredVarUse diag = true ∧ isUnknownTypename other = true) ∧
      holds (sameIdentifier diag other) = true := by
  unfold stdIdentifierTakesOut takesOut stdIdentifierSimilar
  cases isStdIdentifier other with
  | false => simp [holds]
  | true =>
    by_cases lessSpecific : isUndeclaredVarUse diag = true ∧ isUnknownTypename other = true
    · simp [lessSpecific, holds]
    · have goesOn : ¬ (isUndeclaredVarUse diag && isUnknownTypename other) = true := by simpa using lessSpecific
      simp [goesOn, lessSpecific]

theorem tagTakesOut_iff : tagTakesOut diag other = true ↔
    isIncompleteTag diag = true ∧ isIncompleteTag other = true ∧ holds (sameIdentifier diag other) = true := by
  unfold tagTakesOut takesOut tagSimilar
  cases isIncompleteTag other with
  | false => simp [holds]
  | true => simp

theorem sameIdentifier_symm (same : holds (sameIdentifier diag other) = true) :
    holds (sameIdentifier other diag) = true := by
  obtain ⟨name, own, theirs⟩ := holds_sameIdentifier.mp same
  exact holds_sameIdentifier.mpr ⟨name, theirs, own⟩

theorem sameIdentifier_trans (first : holds (sameIdentifier diag other) = true)
    (second : holds (sameIdentifier other third) = true) : holds (sameIdentifier diag third) = true := by
  obtain ⟨name, own, middle⟩ := holds_sameIdentifier.mp first
  obtain ⟨later, again, theirs⟩ := holds_sameIdentifier.mp second
  obtain rfl : name = later := Except.ok.inj (middle.symm.trans again)
  exact holds_sameIdentifier.mpr ⟨name, own, theirs⟩

theorem repeats_symm (same : repeats diag other = true) : repeats other diag = true :=
  repeats_iff.mpr (repeats_iff.mp same).symm

theorem repeats_trans (first : repeats diag other = true) (second : repeats other third = true) :
    repeats diag third = true :=
  repeats_iff.mpr ((repeats_iff.mp first).trans (repeats_iff.mp second))

/-- What an undeclared variable takes out is an undeclared variable again. -/
theorem stdIdentifierTakesOut_trans (first : stdIdentifierTakesOut diag other = true)
    (second : stdIdentifierTakesOut other third = true) : stdIdentifierTakesOut diag third = true := by
  obtain ⟨relevant, std, specific, same⟩ := stdIdentifierTakesOut_iff.mp first
  obtain ⟨_, stdThird, specificThird, sameThird⟩ := stdIdentifierTakesOut_iff.mp second
  refine stdIdentifierTakesOut_iff.mpr ⟨relevant, stdThird, ?_, sameIdentifier_trans same sameThird⟩
  rintro ⟨undeclared, typename⟩
  rcases Bool.or_eq_true_iff.mp std with var | type
  · exact specificThird ⟨var, typename⟩
  · exact specific ⟨undeclared, type⟩

theorem tagTakesOut_symm (removes : tagTakesOut diag other = true) : tagTakesOut other diag = true := by
  obtain ⟨own, theirs, same⟩ := tagTakesOut_iff.mp removes
  exact tagTakesOut_iff.mpr ⟨theirs, own, sameIdentifier_symm same⟩

theorem tagTakesOut_trans (first : tagTakesOut diag other = true) (second : tagTakesOut other third = true) :
    tagTakesOut diag third = true := by
  obtain ⟨own, _, same⟩ := tagTakesOut_iff.mp first
  obtain ⟨_, theirs, sameThird⟩ := tagTakesOut_iff.mp second
  exact tagTakesOut_iff.mpr ⟨own, theirs, sameIdentifier_trans same sameThird⟩

end Relations

section Passes
variable {sourceResult : DiagExporterSourceResult} {relevant : Diagnostic → Bool}
  {similar : Diagnostic → Diagnostic → Except JavaException Bool} {idxs result : List Nat} {diag : Diagnostic}

/-- The same about the places of two diagnostics. -/
def takesOutAt (sourceResult : DiagExporterSourceResult) (takesOut : Diagnostic → Diagnostic → Bool)
    (idx other : Nat) : Bool :=
  match sourceResult.diags[idx]?, sourceResult.diags[other]? with
  | some diag, some otherDiag => takesOut diag otherDiag
  | _, _ => false

theorem takesOutAt_eq {removes : Diagnostic → Diagnostic → Bool} {idx other : Nat} {otherDiag : Diagnostic}
    (present : sourceResult.diags[idx]? = some diag) (otherPresent : sourceResult.diags[other]? = some otherDiag) :
    takesOutAt sourceResult removes idx other = removes diag otherDiag := by
  rw [takesOutAt, present, otherPresent]

theorem takesOutAt_iff {removes : Diagnostic → Diagnostic → Bool} {idx other : Nat} :
    takesOutAt sourceResult removes idx other = true ↔
      ∃ diag otherDiag, sourceResult.diags[idx]? = some diag ∧ sourceResult.diags[other]? = some otherDiag ∧
        removes diag otherDiag = true := by
  unfold takesOutAt
  cases sourceResult.diags[idx]? with
  | none => simp
  | some diag =>
    cases sourceResult.diags[other]? with
    | none => simp
    | some otherDiag => simp

theorem takesOutAt_eq_false {removes : Diagnostic → Diagnostic → Bool} {idx other : Nat}
    (apart : ∀ diag otherDiag, sourceResult.diags[idx]? = some diag →
      sourceResult.diags[other]? = some otherDiag → removes diag otherDiag = false) :
    takesOutAt sourceResult removes idx other = false := by
  rw [← Bool.not_eq_true, takesOutAt_iff]
  rintro ⟨diag, otherDiag, present, otherPresent, similar⟩
  rw [apart diag otherDiag present otherPresent] at similar
  cases similar

theorem takesOutAt_trans (removes : Diagnostic → Diagnostic → Bool)
    (trans : ∀ a b c, removes a b = true → removes b c = true → removes a c = true) (a b c : Nat)
    (first : takesOutAt sourceResult removes a b = true) (second : takesOutAt sourceResult removes b c = true) :
    takesOutAt sourceResult removes a c = true := by
  obtain ⟨diag, middle, present, middlePresent, one⟩ := takesOutAt_iff.mp first
  obtain ⟨again, other, againPresent, otherPresent, two⟩ := takesOutAt_iff.mp second
  obtain rfl : middle = again := Option.some.inj (middlePresent.symm.trans againPresent)
  exact takesOutAt_iff.mpr ⟨diag, other, present, otherPresent, trans _ _ _ one two⟩

theorem takesOutAt_symm {removes : Diagnostic → Diagnostic → Bool}
    (symm : ∀ a b, removes a b = true → removes b a = true) (a b : Nat)
    (backward : takesOutAt sourceResult removes b a = true) : takesOutAt sourceResult removes a b = true := by
  obtain ⟨diag, other, present, otherPresent, removed⟩ := takesOutAt_iff.mp backward
  exact takesOutAt_iff.mpr ⟨other, diag, otherPresent, present, symm diag other removed⟩

/-- A comparison made on the way says what the relation says. -/
theorem compareSelected_ok {idx other : Nat} {b : Bool} (present : sourceResult.diags[idx]? = some diag)
    (applies : relevant diag = true) (compared : compareSelected sourceResult similar diag other = .ok b) :
    b = takesOutAt sourceResult (takesOut relevant similar) idx other := by
  obtain ⟨otherDiag, taken, returned⟩ := except_bind_ok.mp compared
  simp [takesOutAt, present, getAt_ok.mp taken, takesOut, applies, returned, holds]

theorem removeRepeated_ok {front back : List Nat} {idx : Nat}
    (ran : removeRepeated sourceResult front.length (front ++ idx :: back) = .ok result) :
    result = front ++ idx :: back.filter fun other => !takesOutAt sourceResult repeats idx other := by
  obtain ⟨own, here, fetched⟩ := except_bind_ok.mp ran
  obtain ⟨diag, taken, swept⟩ := except_bind_ok.mp fetched
  obtain rfl : idx = own := by simpa using getAt_ok.mp here
  have agrees : ∀ other ∈ back, ∀ b, compareSelected sourceResult sameMessage diag other = .ok b →
      b = takesOutAt sourceResult repeats idx other :=
    fun other _ b compared => compareSelected_ok (getAt_ok.mp taken) rfl compared
  have around : front ++ idx :: back = (front ++ [idx]) ++ back := by simp
  rw [around, List.take_left' (by simp), List.drop_left' (by simp)] at swept
  rw [sweep_behind agrees (by simp) swept]
  simp

theorem removeSimilarTo_ok {front back : List Nat} {idx : Nat}
    (apart : ∀ other ∈ front, takesOutAt sourceResult (takesOut relevant similar) idx other = false)
    (ran : removeSimilarTo sourceResult relevant similar front.length (front ++ idx :: back) = .ok result) :
    result = front ++ idx :: back.filter fun other =>
      !takesOutAt sourceResult (takesOut relevant similar) idx other := by
  obtain ⟨own, here, fetched⟩ := except_bind_ok.mp ran
  obtain ⟨diag, taken, swept⟩ := except_bind_ok.mp fetched
  obtain rfl : idx = own := by simpa using getAt_ok.mp here
  have present := getAt_ok.mp taken
  cases applies : relevant diag with
  | false =>
    have nothing : ∀ other, takesOutAt sourceResult (takesOut relevant similar) idx other = false := by
      intro other
      apply takesOutAt_eq_false
      intro own otherDiag ownPresent _
      obtain rfl : diag = own := Option.some.inj (present.symm.trans ownPresent)
      simp [takesOut, applies]
    simp only [applies, Bool.not_false, if_true] at swept
    cases swept
    simp [nothing]
  | true =>
    simp only [applies, Bool.not_true, Bool.false_eq_true, if_false] at swept
    have agrees : ∀ other ∈ front ++ idx :: back, ∀ b,
        compareSelected sourceResult similar diag other = .ok b →
        b = takesOutAt sourceResult (takesOut relevant similar) idx other :=
      fun other _ b compared => compareSelected_ok present applies compared
    rw [sweep_around agrees apart (by simp) swept]
    simp

theorem removeExactlyRepeatedDiagnostics_ok
    (returned : removeExactlyRepeatedDiagnostics sourceResult idxs = .ok result) :
    result = keepFirst (takesOutAt sourceResult repeats) idxs := by
  have symmetric : ∀ a b, takesOutAt sourceResult repeats b a = true → takesOutAt sourceResult repeats a b = true :=
    takesOutAt_symm fun _ _ => repeats_symm
  exact rounds_keepFirst (fun front idx back result _ ran => removeRepeated_ok ran) idxs.length [] idxs result
    le_rfl (fun _ _ _ none => nomatch none) (keepFirst_forward (List.pairwise_of_forall symmetric)) returned

theorem removeSimilar_ok
    (forward : (keepFirst (takesOutAt sourceResult (takesOut relevant similar)) idxs).Pairwise fun a b =>
      takesOutAt sourceResult (takesOut relevant similar) b a = false)
    (returned : rounds (removeSimilarTo sourceResult relevant similar) idxs.length 0 idxs = .ok result) :
    result = keepFirst (takesOutAt sourceResult (takesOut relevant similar)) idxs :=
  rounds_keepFirst (fun _ _ _ _ apart ran => removeSimilarTo_ok apart ran) idxs.length [] idxs result le_rfl
    (fun _ _ _ none => nomatch none) forward returned

/-- The last pass compares both ways, so it needs no order. -/
theorem removeTagSpaceSimilarDiagnostics_ok
    (returned : removeTagSpaceSimilarDiagnostics sourceResult idxs = .ok result) :
    result = keepFirst (takesOutAt sourceResult tagTakesOut) idxs :=
  removeSimilar_ok (keepFirst_forward (List.pairwise_of_forall
    (takesOutAt_symm fun _ _ => tagTakesOut_symm))) returned

theorem removeSimilarTo_sublist {place : Nat}
    (ran : removeSimilarTo sourceResult relevant similar place idxs = .ok result) : result.Sublist idxs := by
  obtain ⟨own, _, fetched⟩ := except_bind_ok.mp ran
  obtain ⟨diag, _, ended⟩ := except_bind_ok.mp fetched
  split at ended
  · cases ended
    exact .refl _
  · exact sweep_sublist ended

theorem rounds_sublist {fuel place : Nat}
    (returned : rounds (removeSimilarTo sourceResult relevant similar) fuel place idxs = .ok result) :
    result.Sublist idxs := by
  refine rounds_invariant (P := fun items => items.Sublist idxs) ?_ (.refl idxs) returned
  intro place items swept shorter ran
  exact (removeSimilarTo_sublist ran).trans shorter

/-- A diagnostic that takes nothing out and is taken out by nothing stays, however the
list shifts during the rounds. -/
theorem mem_of_removeSimilar {idx : Nat} (increasing : idxs.Pairwise (· < ·)) (member : idx ∈ idxs)
    (alone : ∀ other ∈ idxs, other ≠ idx → takesOutAt sourceResult (takesOut relevant similar) idx other = false ∧
      takesOutAt sourceResult (takesOut relevant similar) other idx = false)
    (returned : rounds (removeSimilarTo sourceResult relevant similar) idxs.length 0 idxs = .ok result) :
    idx ∈ result ∧ result.Sublist idxs := by
  refine rounds_invariant (P := fun items => idx ∈ items ∧ items.Sublist idxs) ?_ ⟨member, .refl idxs⟩ returned
  rintro place items swept ⟨listed, shorter⟩ ran
  obtain ⟨own, here, fetched⟩ := except_bind_ok.mp ran
  obtain ⟨diag, taken, ended⟩ := except_bind_ok.mp fetched
  obtain ⟨inside, rfl⟩ := List.getElem?_eq_some_iff.mp (getAt_ok.mp here)
  cases applies : relevant diag with
  | false =>
    simp only [applies, Bool.not_false, if_true] at ended
    cases ended
    exact ⟨listed, shorter⟩
  | true =>
    simp only [applies, Bool.not_true, Bool.false_eq_true, if_false] at ended
    refine ⟨?_, (sweep_sublist ended).trans shorter⟩
    by_cases same : items[place] = idx
    · have split : items = items.take place ++ idx :: items.drop (place + 1) := by
        rw [← same, List.getElem_cons_drop, List.take_append_drop]
      have length : (items.take place).length = place := by simp; omega
      have apart : ∀ other ∈ items.take place,
          takesOutAt sourceResult (takesOut relevant similar) idx other = false := by
        intro other front
        have smaller : other < idx := by
          have sorted := increasing.sublist shorter
          rw [split] at sorted
          exact (List.pairwise_append.mp sorted).2.2 other front idx List.mem_cons_self
        exact (alone other (shorter.subset (List.mem_of_mem_take front)) (Nat.ne_of_lt smaller)).1
      rw [split] at ran
      nth_rewrite 1 [← length] at ran
      rw [removeSimilarTo_ok apart ran]
      simp
    · have unrelated : ∀ b, compareSelected sourceResult similar diag idx = .ok b → b = false := by
        intro b compared
        rw [compareSelected_ok (getAt_ok.mp taken) applies compared]
        exact (alone _ (shorter.subset (List.getElem_mem inside)) same).2
      exact mem_of_sweep unrelated (.inr listed) ended

end Passes

/-- A wanted diagnostic that no earlier one has the message of. -/
structure FirstOfMessage (wanted : Diagnostic → Bool) (sourceResult : DiagExporterSourceResult) (idx : Nat)
    (diag : Diagnostic) : Prop where
  present : sourceResult.diags[idx]? = some diag
  isWanted : wanted diag = true
  first : ∀ earlier other, earlier < idx → sourceResult.diags[earlier]? = some other → wanted other = true →
    other.message ≠ diag.message

section FirstOfMessage
variable {sourceResult : DiagExporterSourceResult} {wanted : Diagnostic → Bool} {idx : Nat} {result : List Nat}

theorem mem_getDiagIdxs : idx ∈ sourceResult.getDiagIdxs wanted ↔
    ∃ diag, sourceResult.diags[idx]? = some diag ∧ wanted diag = true := by
  simp only [DiagExporterSourceResult.getDiagIdxs, List.mem_filter, List.mem_range, Option.any_eq_true]
  constructor
  · exact fun ⟨_, found⟩ => found
  · rintro ⟨diag, present, isWanted⟩
    obtain ⟨inside, _⟩ := List.getElem?_eq_some_iff.mp present
    exact ⟨inside, diag, present, isWanted⟩

theorem getDiagIdxs_increasing (sourceResult : DiagExporterSourceResult) (wanted : Diagnostic → Bool) :
    (sourceResult.getDiagIdxs wanted).Pairwise (· < ·) := List.pairwise_lt_range.filter _

/-- The first pass keeps the first diagnostic of each message, in order. -/
theorem firstPass
    (returned : removeExactlyRepeatedDiagnostics sourceResult (sourceResult.getDiagIdxs wanted) = .ok result) :
    result.Pairwise (· < ·) ∧ ∀ idx, idx ∈ result ↔ ∃ diag, FirstOfMessage wanted sourceResult idx diag := by
  obtain rfl := removeExactlyRepeatedDiagnostics_ok returned
  have increasing := getDiagIdxs_increasing sourceResult wanted
  refine ⟨increasing.sublist (keepFirst_sublist _ _), fun idx => ?_⟩
  rw [mem_keepFirst (takesOutAt_trans repeats fun _ _ _ => repeats_trans) increasing, mem_getDiagIdxs]
  constructor
  · rintro ⟨⟨diag, present, isWanted⟩, alone⟩
    refine ⟨diag, present, isWanted, fun earlier other smaller otherPresent otherWanted same => ?_⟩
    have apart := alone earlier (mem_getDiagIdxs.mpr ⟨other, otherPresent, otherWanted⟩) smaller
    rw [takesOutAt_eq otherPresent present, repeats_iff.mpr same] at apart
    cases apart
  · rintro ⟨diag, present, isWanted, first⟩
    refine ⟨⟨diag, present, isWanted⟩, fun earlier listed smaller => ?_⟩
    obtain ⟨other, otherPresent, otherWanted⟩ := mem_getDiagIdxs.mp listed
    rw [takesOutAt_eq otherPresent present, ← Bool.not_eq_true, repeats_iff]
    exact first earlier other smaller otherPresent otherWanted

end FirstOfMessage

namespace BasicMultipleErrorsAnalysis
variable {sourceResult : DiagExporterSourceResult} {idx : Nat} {diag : Diagnostic} {idxs : List Nat}

def wanted (diag : Diagnostic) : Bool := missingPPFilesAndSymbolIDs.contains diag.diagnosticID

/-- No unknown type name comes after an undeclared variable of its name. -/
def TypenamesFirst (sourceResult : DiagExporterSourceResult) : Prop :=
  ∀ idx diag later other, idx < later → FirstOfMessage wanted sourceResult idx diag →
    FirstOfMessage wanted sourceResult later other → isUndeclaredVarUse diag = true →
    isUnknownTypename other = true → holds (sameIdentifier diag other) = false

/-- No other diagnostic of the first pass is about the same ordinary identifier. -/
def OnlyOfName (sourceResult : DiagExporterSourceResult) (idx : Nat) (diag : Diagnostic) : Prop :=
  ∀ place other, place ≠ idx → FirstOfMessage wanted sourceResult place other →
    stdIdentifierTakesOut diag other = false ∧ stdIdentifierTakesOut other diag = false

/-- No earlier diagnostic of the first pass takes this one out. -/
structure FirstOfKind (sourceResult : DiagExporterSourceResult) (idx : Nat) (diag : Diagnostic) : Prop where
  first : FirstOfMessage wanted sourceResult idx diag
  unlike : ∀ earlier other, earlier < idx → FirstOfMessage wanted sourceResult earlier other →
    stdIdentifierTakesOut other diag = false ∧ tagTakesOut other diag = false

theorem not_stdIdentifier_of_tag (tag : isIncompleteTag diag = true) : isStdIdentifier diag = false := by
  simp only [isIncompleteTag, Diagnostic.hasID, Bool.or_eq_true, beq_iff_eq] at tag
  rcases tag with id | id <;>
    simp [isStdIdentifier, isUndeclaredVarUse, isUnknownTypename, Diagnostic.hasID, id, DiagnosticID.id]

section Passes
variable {repeated stdRemoved selected : List Nat}

/-- With the type names in front, the second pass keeps the first of each name. -/
theorem secondPass_ordered (ordered : TypenamesFirst sourceResult)
    (increasing : repeated.Pairwise (· < ·))
    (listed : ∀ idx, idx ∈ repeated ↔ ∃ diag, FirstOfMessage wanted sourceResult idx diag)
    (returned : removeStdIdentifierSpaceSimilarDiagnostics sourceResult repeated = .ok stdRemoved) (idx : Nat) :
    idx ∈ stdRemoved ↔ idx ∈ repeated ∧ ∀ other ∈ repeated, other < idx →
      takesOutAt sourceResult stdIdentifierTakesOut other idx = false := by
  have forward : repeated.Pairwise fun a b => takesOutAt sourceResult stdIdentifierTakesOut b a = true →
      takesOutAt sourceResult stdIdentifierTakesOut a b = true := by
    refine increasing.imp_of_mem fun {a b} memberA memberB smaller backward => ?_
    obtain ⟨diag, first⟩ := (listed a).mp memberA
    obtain ⟨other, second⟩ := (listed b).mp memberB
    rw [takesOutAt_eq second.present first.present] at backward
    rw [takesOutAt_eq first.present second.present]
    obtain ⟨std, stdFirst, _, same⟩ := stdIdentifierTakesOut_iff.mp backward
    refine stdIdentifierTakesOut_iff.mpr ⟨stdFirst, std, ?_, sameIdentifier_symm same⟩
    rintro ⟨undeclared, typename⟩
    have different := ordered a diag b other smaller first second undeclared typename
    rw [sameIdentifier_symm same] at different
    cases different
  rw [removeSimilar_ok (keepFirst_forward forward) returned]
  exact mem_keepFirst (takesOutAt_trans stdIdentifierTakesOut fun _ _ _ => stdIdentifierTakesOut_trans) increasing

theorem thirdPass (increasing : stdRemoved.Pairwise (· < ·))
    (returned : removeTagSpaceSimilarDiagnostics sourceResult stdRemoved = .ok selected) (idx : Nat) :
    idx ∈ selected ↔ idx ∈ stdRemoved ∧ ∀ other ∈ stdRemoved, other < idx →
      takesOutAt sourceResult tagTakesOut other idx = false := by
  rw [removeTagSpaceSimilarDiagnostics_ok returned]
  exact mem_keepFirst (takesOutAt_trans tagTakesOut fun _ _ _ => tagTakesOut_trans) increasing

/-- Nothing else is about the name, so the second pass leaves the diagnostic alone. -/
theorem secondPass_alone (increasing : repeated.Pairwise (· < ·))
    (listed : ∀ idx, idx ∈ repeated ↔ ∃ diag, FirstOfMessage wanted sourceResult idx diag)
    (first : FirstOfMessage wanted sourceResult idx diag) (alone : OnlyOfName sourceResult idx diag)
    (returned : removeStdIdentifierSpaceSimilarDiagnostics sourceResult repeated = .ok stdRemoved) :
    idx ∈ stdRemoved := by
  refine (mem_of_removeSimilar increasing ((listed idx).mpr ⟨diag, first⟩) ?_ returned).1
  intro place member different
  obtain ⟨other, otherFirst⟩ := (listed place).mp member
  rw [takesOutAt_eq first.present otherFirst.present, takesOutAt_eq otherFirst.present first.present]
  exact alone place other different otherFirst

/-- A first of its kind that the second pass cannot disturb is selected. -/
theorem mem_selected (increasing : repeated.Pairwise (· < ·))
    (listed : ∀ idx, idx ∈ repeated ↔ ∃ diag, FirstOfMessage wanted sourceResult idx diag)
    (two : removeStdIdentifierSpaceSimilarDiagnostics sourceResult repeated = .ok stdRemoved)
    (three : removeTagSpaceSimilarDiagnostics sourceResult stdRemoved = .ok selected)
    (firstOfKind : FirstOfKind sourceResult idx diag)
    (undisturbed : TypenamesFirst sourceResult ∨ OnlyOfName sourceResult idx diag) : idx ∈ selected := by
  obtain ⟨first, unlike⟩ := firstOfKind
  have shorter : stdRemoved.Sublist repeated := rounds_sublist two
  have kept : idx ∈ stdRemoved := by
    rcases undisturbed with ordered | alone
    · refine (secondPass_ordered ordered increasing listed two idx).mpr ⟨(listed idx).mpr ⟨diag, first⟩, ?_⟩
      intro earlier member smaller
      obtain ⟨other, otherFirst⟩ := (listed earlier).mp member
      rw [takesOutAt_eq otherFirst.present first.present]
      exact (unlike earlier other smaller otherFirst).1
    · exact secondPass_alone increasing listed first alone two
  refine (thirdPass (increasing.sublist shorter) three idx).mpr ⟨kept, fun earlier member smaller => ?_⟩
  obtain ⟨other, otherFirst⟩ := (listed earlier).mp (shorter.subset member)
  rw [takesOutAt_eq otherFirst.present first.present]
  exact (unlike earlier other smaller otherFirst).2

/-- With the type names in front, nothing else is selected. -/
theorem firstOfKind_of_selected (ordered : TypenamesFirst sourceResult) (increasing : repeated.Pairwise (· < ·))
    (listed : ∀ idx, idx ∈ repeated ↔ ∃ diag, FirstOfMessage wanted sourceResult idx diag)
    (two : removeStdIdentifierSpaceSimilarDiagnostics sourceResult repeated = .ok stdRemoved)
    (three : removeTagSpaceSimilarDiagnostics sourceResult stdRemoved = .ok selected) (member : idx ∈ selected) :
    ∃ diag, FirstOfKind sourceResult idx diag := by
  have shorter : stdRemoved.Sublist repeated := rounds_sublist two
  have second := secondPass_ordered ordered increasing listed two
  obtain ⟨kept, tagAlone⟩ := (thirdPass (increasing.sublist shorter) three idx).mp member
  obtain ⟨inFirst, stdAlone⟩ := (second idx).mp kept
  obtain ⟨diag, first⟩ := (listed idx).mp inFirst
  refine ⟨diag, first, fun earlier other smaller otherFirst => ?_⟩
  have inRepeated := (listed earlier).mpr ⟨other, otherFirst⟩
  have unlikeStd := stdAlone earlier inRepeated smaller
  rw [takesOutAt_eq otherFirst.present first.present] at unlikeStd
  refine ⟨unlikeStd, ?_⟩
  by_contra removed
  -- A tag is no ordinary identifier, so the second pass has kept the earlier one.
  have tag := (tagTakesOut_iff.mp (by simpa using removed)).1
  have inSecond : earlier ∈ stdRemoved := by
    refine (second earlier).mpr ⟨inRepeated, fun before beforeMember _ => ?_⟩
    obtain ⟨theirs, theirsFirst⟩ := (listed before).mp beforeMember
    rw [takesOutAt_eq theirsFirst.present otherFirst.present, ← Bool.not_eq_true, stdIdentifierTakesOut_iff,
      not_stdIdentifier_of_tag tag]
    simp
  have unlikeTag := tagAlone earlier inSecond smaller
  rw [takesOutAt_eq otherFirst.present first.present] at unlikeTag
  exact removed unlikeTag

end Passes

/-- The batch, or the first error when the passes leave nothing. -/
inductive Chosen (sourceResult : DiagExporterSourceResult) (idxs : List Nat) : Prop where
  | batch (nonempty : idxs ≠ []) (increasing : idxs.Pairwise (· < ·))
      (listed : ∀ idx ∈ idxs, ∃ diag, FirstOfMessage wanted sourceResult idx diag)
      (selected : ∀ {idx diag}, FirstOfKind sourceResult idx diag →
        TypenamesFirst sourceResult ∨ OnlyOfName sourceResult idx diag → idx ∈ idxs)
      (kept : TypenamesFirst sourceResult → ∀ idx ∈ idxs, ∃ diag, FirstOfKind sourceResult idx diag)
  | firstError (nothing : ∀ {idx diag}, FirstOfKind sourceResult idx diag →
        ¬ (TypenamesFirst sourceResult ∨ OnlyOfName sourceResult idx diag))
      (single : BasicFirstErrorAnalysis.selectDiagnostics sourceResult = .ok idxs)

/-- Where something is wanted, the first of it is the first of its kind. -/
theorem exists_firstOfKind (member : diag ∈ sourceResult.diags) (isWanted : wanted diag = true) :
    ∃ idx other, FirstOfKind sourceResult idx other := by
  classical
  have found : ∃ (idx : Nat) (other : Diagnostic), sourceResult.diags[idx]? = some other ∧ wanted other = true := by
    obtain ⟨idx, present⟩ := List.getElem?_of_mem member
    exact ⟨idx, diag, present, isWanted⟩
  obtain ⟨other, present, otherWanted⟩ := Nat.find_spec found
  have unwanted : ∀ earlier third, earlier < Nat.find found → sourceResult.diags[earlier]? = some third →
      ¬ wanted third = true :=
    fun earlier third smaller present isWanted => Nat.find_min found smaller ⟨third, present, isWanted⟩
  refine ⟨Nat.find found, other, ⟨present, otherWanted, ?_⟩, ?_⟩
  · exact fun earlier third smaller present isWanted => absurd isWanted (unwanted earlier third smaller present)
  · exact fun earlier third smaller first => absurd first.isWanted (unwanted earlier third smaller first.present)

theorem selectDiagnostics_ok (returned : selectDiagnostics sourceResult = .ok idxs) : Chosen sourceResult idxs := by
  obtain ⟨repeated, one, rest⟩ := except_bind_ok.mp returned
  obtain ⟨selected, both, ended⟩ := except_bind_ok.mp rest
  obtain ⟨stdRemoved, two, three⟩ := except_bind_ok.mp both
  obtain ⟨increasing, listed⟩ := firstPass one
  have shorter : stdRemoved.Sublist repeated := rounds_sublist two
  cases empty : selected.isEmpty with
  | false =>
    simp only [empty, Bool.not_false, if_true] at ended
    cases ended
    have all : idxs.Sublist repeated := (rounds_sublist three).trans shorter
    exact .batch (by simpa using empty) (increasing.sublist all) (fun idx member => (listed idx).mp (all.subset member))
      (mem_selected increasing listed two three)
      fun ordered idx member => firstOfKind_of_selected ordered increasing listed two three member
  | true =>
    simp only [empty, Bool.not_true, Bool.false_eq_true, if_false] at ended
    obtain rfl := List.isEmpty_iff.mp empty
    exact .firstError (fun kind undisturbed =>
      List.not_mem_nil (mem_selected increasing listed two three kind undisturbed)) ended

end BasicMultipleErrorsAnalysis

namespace BasicMultiplePPErrorsAnalysis
variable {sourceResult : DiagExporterSourceResult} {idx : Nat} {diag : Diagnostic} {idxs : List Nat}

def wanted (diag : Diagnostic) : Bool := diag.hasID .errPPFileNotFound

/-- The missing headers, or the first error when none is missing. -/
theorem selectDiagnostics_ok (returned : selectDiagnostics sourceResult = .ok idxs) :
    (idxs ≠ [] ∧ ∀ idx, idx ∈ idxs ↔ ∃ diag, FirstOfMessage wanted sourceResult idx diag) ∨
      (∀ idx diag, ¬ FirstOfMessage wanted sourceResult idx diag) ∧
        BasicFirstErrorAnalysis.selectDiagnostics sourceResult = .ok idxs := by
  obtain ⟨missing, one, ended⟩ := except_bind_ok.mp returned
  obtain ⟨_, listed⟩ := firstPass one
  cases empty : missing.isEmpty with
  | false =>
    simp only [empty, Bool.not_false, if_true] at ended
    cases ended
    exact .inl ⟨by simpa using empty, listed⟩
  | true =>
    simp only [empty, Bool.not_true, Bool.false_eq_true, if_false] at ended
    obtain rfl := List.isEmpty_iff.mp empty
    exact .inr ⟨fun idx diag first => List.not_mem_nil ((listed idx).mpr ⟨diag, first⟩), ended⟩

end BasicMultiplePPErrorsAnalysis
end CMender
