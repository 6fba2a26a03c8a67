import CMender.Analysis.Selecting

/-! The pass over ordinary identifiers, on any list of diagnostics. It should leave
one diagnostic for each identifier, and a missing type name rather than a missing
variable. It does when the first diagnostic of an identifier is of a missing type name,
if any of them is. Otherwise the type name moves off its place when it removes the
variable in front, and then removes itself; or it is the last one, which never has its
turn. -/
namespace CMender
open Foundations Foundations.Removal Foundations.Execution

/-- The identifier that a diagnostic of the four kinds names. -/
def stdIdentifier (diag : Diagnostic) : Option String :=
  if isStdIdentifier diag then (getIdentifier diag).toOption else none

section Places
variable (sourceResult : DiagExporterSourceResult)

def namesAt (identifier : String) (idx : Nat) : Bool :=
  (sourceResult.diags[idx]?).any fun diag => stdIdentifier diag == some identifier

def typenameAt (identifier : String) (idx : Nat) : Bool :=
  (sourceResult.diags[idx]?).any fun diag => stdIdentifier diag == some identifier && isUnknownTypename diag

/-- A diagnostic with none of the four ids. -/
def otherAt (idx : Nat) : Bool := (sourceResult.diags[idx]?).all fun diag => !isStdIdentifier diag

/-- Of the diagnostics of an identifier, the first is an unknown type name if any is. -/
def LedByTypenames (idxs : List Nat) : Prop :=
  ∀ identifier, (∃ idx ∈ idxs, typenameAt sourceResult identifier idx = true) →
    ∀ first ∈ (idxs.filter (namesAt sourceResult identifier)).head?, typenameAt sourceResult identifier first = true

/-- What the pass is for. -/
structure SimilarRemoved (idxs result : List Nat) : Prop where
  one : ∀ identifier, (∃ idx ∈ idxs, namesAt sourceResult identifier idx = true) →
    ∃ kept, result.filter (namesAt sourceResult identifier) = [kept] ∧
      ((∃ idx ∈ idxs, typenameAt sourceResult identifier idx = true) →
        typenameAt sourceResult identifier kept = true)
  others : result.filter (otherAt sourceResult) = idxs.filter (otherAt sourceResult)

end Places

section Relations
variable {sourceResult : DiagExporterSourceResult} {idxs result : List Nat} {a b : Nat} {identifier other : String}

theorem variable_not_typename {diag : Diagnostic} (undeclared : isUndeclaredVarUse diag = true) :
    isUnknownTypename diag = false := by
  simp only [isUndeclaredVarUse, Diagnostic.hasID, Bool.or_eq_true, beq_iff_eq] at undeclared
  rcases undeclared with id | id <;> simp [isUnknownTypename, Diagnostic.hasID, id, DiagnosticID.id]

theorem stdIdentifier_iff {diag : Diagnostic} : stdIdentifier diag = some identifier ↔
    isStdIdentifier diag = true ∧ getIdentifier diag = .ok identifier := by
  unfold stdIdentifier
  cases isStdIdentifier diag with
  | false => simp
  | true =>
    cases getIdentifier diag with
    | error error => simp [Except.toOption]
    | ok name => simp [Except.toOption]

theorem namesAt_iff : namesAt sourceResult identifier a = true ↔
    ∃ diag, sourceResult.diags[a]? = some diag ∧ isStdIdentifier diag = true ∧
      getIdentifier diag = .ok identifier := by
  simp only [namesAt, Option.any_eq_true, beq_iff_eq, stdIdentifier_iff]

theorem typenameAt_iff : typenameAt sourceResult identifier a = true ↔
    ∃ diag, sourceResult.diags[a]? = some diag ∧ isUnknownTypename diag = true ∧
      getIdentifier diag = .ok identifier := by
  simp only [typenameAt, Option.any_eq_true, Bool.and_eq_true, beq_iff_eq, stdIdentifier_iff]
  constructor
  · rintro ⟨diag, present, ⟨_, named⟩, typename⟩
    exact ⟨diag, present, typename, named⟩
  · rintro ⟨diag, present, typename, named⟩
    exact ⟨diag, present, ⟨by simp [isStdIdentifier, typename], named⟩, typename⟩

theorem namesAt_of_typenameAt (typename : typenameAt sourceResult identifier a = true) :
    namesAt sourceResult identifier a = true := by
  obtain ⟨diag, present, isTypename, named⟩ := typenameAt_iff.mp typename
  exact namesAt_iff.mpr ⟨diag, present, by simp [isStdIdentifier, isTypename], named⟩

/-- A diagnostic names one identifier. -/
theorem namesAt_unique (first : namesAt sourceResult identifier a = true)
    (second : namesAt sourceResult other a = true) : identifier = other := by
  obtain ⟨diag, present, _, named⟩ := namesAt_iff.mp first
  obtain ⟨again, same, _, namedAgain⟩ := namesAt_iff.mp second
  cases present.symm.trans same
  exact Except.ok.inj (named.symm.trans namedAgain)

theorem otherAt_of_namesAt (names : namesAt sourceResult identifier a = true) :
    otherAt sourceResult a = false := by
  obtain ⟨diag, present, std, _⟩ := namesAt_iff.mp names
  simp [otherAt, present, std]

/-- One diagnostic takes another of its identifier out, but a variable no type name. -/
theorem takesOutAt_iff_names : takesOutAt sourceResult stdIdentifierTakesOut a b = true ↔
    ∃ identifier, namesAt sourceResult identifier a = true ∧ namesAt sourceResult identifier b = true ∧
      (typenameAt sourceResult identifier b = true → typenameAt sourceResult identifier a = true) := by
  rw [takesOutAt_iff]
  constructor
  · rintro ⟨diag, otherDiag, present, otherPresent, removes⟩
    obtain ⟨std, otherStd, specific, same⟩ := stdIdentifierTakesOut_iff.mp removes
    obtain ⟨name, own, theirs⟩ := holds_sameIdentifier.mp same
    refine ⟨name, namesAt_iff.mpr ⟨diag, present, std, own⟩,
      namesAt_iff.mpr ⟨otherDiag, otherPresent, otherStd, theirs⟩, fun typename => ?_⟩
    obtain ⟨again, samePlace, isTypename, _⟩ := typenameAt_iff.mp typename
    cases otherPresent.symm.trans samePlace
    have notVariable : isUndeclaredVarUse diag ≠ true := fun undeclared => specific ⟨undeclared, isTypename⟩
    have ownTypename : isUnknownTypename diag = true := by simpa [isStdIdentifier, notVariable] using std
    exact typenameAt_iff.mpr ⟨diag, present, ownTypename, own⟩
  · rintro ⟨name, names, otherNames, typenames⟩
    obtain ⟨diag, present, std, own⟩ := namesAt_iff.mp names
    obtain ⟨otherDiag, otherPresent, otherStd, theirs⟩ := namesAt_iff.mp otherNames
    refine ⟨diag, otherDiag, present, otherPresent, stdIdentifierTakesOut_iff.mpr
      ⟨std, otherStd, ?_, holds_sameIdentifier.mpr ⟨name, own, theirs⟩⟩⟩
    rintro ⟨undeclared, typename⟩
    obtain ⟨again, samePlace, isTypename, _⟩ :=
      typenameAt_iff.mp (typenames (typenameAt_iff.mpr ⟨otherDiag, otherPresent, typename, theirs⟩))
    cases present.symm.trans samePlace
    rw [variable_not_typename undeclared] at isTypename
    cases isTypename

end Relations

section Pass
variable {sourceResult : DiagExporterSourceResult} {idxs result : List Nat} {identifier : String}

/-- The first diagnostic of an identifier takes the later ones out. -/
theorem leads_of_first (led : LedByTypenames sourceResult idxs) (identifier : String) (first : Nat)
    (rest : List Nat) (named : idxs.filter (namesAt sourceResult identifier) = first :: rest) :
    ∀ other ∈ rest, takesOutAt sourceResult stdIdentifierTakesOut first other = true := by
  intro other behind
  have listed : ∀ idx ∈ first :: rest, idx ∈ idxs ∧ namesAt sourceResult identifier idx = true := by
    intro idx member
    rw [← named] at member
    exact List.mem_filter.mp member
  obtain ⟨member, otherNames⟩ := listed other (List.mem_cons_of_mem _ behind)
  refine takesOutAt_iff_names.mpr ⟨identifier, (listed first List.mem_cons_self).2, otherNames, fun typename => ?_⟩
  exact led identifier ⟨other, member, typename⟩ first (by rw [named]; rfl)

/-- Of the diagnostics that name an identifier, the first one stays. -/
theorem keepFirst_names (led : LedByTypenames sourceResult idxs) (identifier : String) :
    (keepFirst (takesOutAt sourceResult stdIdentifierTakesOut) idxs).filter (namesAt sourceResult identifier) =
      (idxs.filter (namesAt sourceResult identifier)).take 1 := by
  refine keepFirst_filter_class ?_ (leads_of_first led identifier)
  intro a b removes names
  obtain ⟨other, ownNames, otherNames, _⟩ := takesOutAt_iff_names.mp removes
  rwa [namesAt_unique names otherNames]

/-- What stays names different identifiers, so nothing is taken out from behind. -/
theorem forward_of_first (led : LedByTypenames sourceResult idxs) :
    (keepFirst (takesOutAt sourceResult stdIdentifierTakesOut) idxs).Pairwise fun a b =>
      takesOutAt sourceResult stdIdentifierTakesOut b a = false := by
  refine List.pairwise_iff_forall_sublist.mpr fun {a b} both => ?_
  by_contra backward
  obtain ⟨identifier, names, otherNames, _⟩ := takesOutAt_iff_names.mp (by simpa using backward)
  have same := both.filter (namesAt sourceResult identifier)
  rw [keepFirst_names led, List.filter_cons_of_pos otherNames, List.filter_cons_of_pos names] at same
  have lengths := same.length_le
  have atMost := List.length_take_le 1 (idxs.filter (namesAt sourceResult identifier))
  simp only [List.length_cons] at lengths
  omega

theorem similarRemoved_keepFirst (led : LedByTypenames sourceResult idxs) :
    SimilarRemoved sourceResult idxs (keepFirst (takesOutAt sourceResult stdIdentifierTakesOut) idxs) := by
  constructor
  · rintro identifier ⟨idx, listed, names⟩
    rw [keepFirst_names led]
    have member : idx ∈ idxs.filter (namesAt sourceResult identifier) := List.mem_filter.mpr ⟨listed, names⟩
    cases named : idxs.filter (namesAt sourceResult identifier) with
    | nil =>
      rw [named] at member
      cases member
    | cons kept rest =>
      refine ⟨kept, by rw [List.take_succ_cons, List.take_zero], fun typename => ?_⟩
      exact led identifier typename kept (by rw [named]; rfl)
  · apply keepFirst_filter_free
    intro a b isOther
    by_contra removes
    obtain ⟨_, _, names, _⟩ := takesOutAt_iff_names.mp (by simpa using removes)
    rw [otherAt_of_namesAt names] at isOther
    cases isOther

/-- At most one unknown type name for an identifier that an undeclared variable names first. -/
def OneLateTypename (sourceResult : DiagExporterSourceResult) (idxs : List Nat) : Prop :=
  ∀ identifier, ∀ first ∈ (idxs.filter (namesAt sourceResult identifier)).head?,
    typenameAt sourceResult identifier first = false →
      (idxs.filter (typenameAt sourceResult identifier)).length ≤ 1

/-- A type name that has its turn with a variable of its name in front is gone afterwards. -/
theorem removeSimilarTo_self {front back swept : List Nat} {idx earlier : Nat}
    (typename : typenameAt sourceResult identifier idx = true) (member : earlier ∈ front)
    (names : namesAt sourceResult identifier earlier = true)
    (ran : removeSimilarTo sourceResult isStdIdentifier stdIdentifierSimilar front.length
      (front ++ idx :: back) = .ok swept) : swept.Sublist (front ++ back) := by
  obtain ⟨diag, present, isTypename, _⟩ := typenameAt_iff.mp typename
  have applies : isStdIdentifier diag = true := by simp [isStdIdentifier, isTypename]
  obtain ⟨own, here, fetched⟩ := except_bind_ok.mp ran
  obtain ⟨again, taken, ended⟩ := except_bind_ok.mp fetched
  obtain rfl : idx = own := by simpa using getAt_ok.mp here
  obtain rfl : diag = again := Option.some.inj (present.symm.trans (getAt_ok.mp taken))
  simp only [applies, Bool.not_true, Bool.false_eq_true, if_false] at ended
  have agrees : ∀ other ∈ front ++ idx :: back, ∀ b,
      compareSelected sourceResult stdIdentifierSimilar diag other = .ok b →
      b = takesOutAt sourceResult stdIdentifierTakesOut idx other :=
    fun other _ b compared => compareSelected_ok present applies compared
  have removes : ∀ other, namesAt sourceResult identifier other = true →
      takesOutAt sourceResult stdIdentifierTakesOut idx other = true :=
    fun other otherNames => takesOutAt_iff_names.mpr
      ⟨identifier, namesAt_of_typenameAt typename, otherNames, fun _ => typename⟩
  exact sweep_self agrees (removes idx (namesAt_of_typenameAt typename)) ⟨earlier, member, removes earlier names⟩
    (by simp) ended

/-- What the rounds leave still names every identifier. -/
theorem keepFirst_keeps_name (led : LedByTypenames sourceResult idxs) {first : Nat}
    (isFirst : (idxs.filter (namesAt sourceResult identifier)).head? = some first) :
    first ∈ keepFirst (takesOutAt sourceResult stdIdentifierTakesOut) idxs ∧
      namesAt sourceResult identifier first = true := by
  obtain ⟨rest, named⟩ := List.head?_eq_some_iff.mp isFirst
  have kept := keepFirst_names led identifier
  rw [named, List.take_succ_cons, List.take_zero] at kept
  apply List.mem_filter.mp
  rw [kept]
  exact List.mem_cons_self

section Late
variable {front back : List Nat} {idx first : Nat}

/-- The first list that is not in order ends with a type name, the only one so far of an
identifier that was named before. -/
theorem late_typename (before : LedByTypenames sourceResult front)
    (spoiled : ¬ LedByTypenames sourceResult (front ++ [idx])) :
    ∃ identifier first, typenameAt sourceResult identifier idx = true ∧
      front.filter (typenameAt sourceResult identifier) = [] ∧
      (front.filter (namesAt sourceResult identifier)).head? = some first ∧
      typenameAt sourceResult identifier first = false := by
  unfold LedByTypenames at spoiled
  push Not at spoiled
  obtain ⟨identifier, ⟨typename, listed, isTypename⟩, first, isFirst, notTypename⟩ := spoiled
  have notTypename : typenameAt sourceResult identifier first = false := by simpa using notTypename
  rw [List.filter_append, Option.mem_def] at isFirst
  cases named : front.filter (namesAt sourceResult identifier) with
  | nil =>
    have none : ∀ other ∈ front, namesAt sourceResult identifier other ≠ true := List.filter_eq_nil_iff.mp named
    rcases List.mem_append.mp listed with inFront | last
    · exact absurd (namesAt_of_typenameAt isTypename) (none typename inFront)
    · obtain rfl := List.mem_singleton.mp last
      rw [named, List.nil_append, List.filter_cons_of_pos (namesAt_of_typenameAt isTypename)] at isFirst
      obtain rfl := Option.some.inj isFirst
      rw [isTypename] at notTypename
      cases notTypename
  | cons head rest =>
    rw [named] at isFirst
    obtain rfl := Option.some.inj isFirst
    have none : ∀ other ∈ front, typenameAt sourceResult identifier other ≠ true := by
      intro other member isOther
      have own := before identifier ⟨other, member, isOther⟩ head (by rw [named]; rfl)
      rw [own] at notTypename
      cases notTypename
    refine ⟨identifier, head, ?_, List.filter_eq_nil_iff.mpr none, by rw [named]; rfl, notTypename⟩
    rcases List.mem_append.mp listed with inFront | last
    · exact absurd isTypename (none typename inFront)
    · rwa [← List.mem_singleton.mp last]

theorem OneLateTypename.none_behind (single : OneLateTypename sourceResult (front ++ idx :: back))
    (isFirst : (front.filter (namesAt sourceResult identifier)).head? = some first)
    (notTypename : typenameAt sourceResult identifier first = false)
    (typename : typenameAt sourceResult identifier idx = true) :
    back.filter (typenameAt sourceResult identifier) = [] := by
  have alone := single identifier first
    (by rw [List.filter_append, List.head?_append, isFirst]; rfl) notTypename
  rw [List.filter_append, List.filter_cons_of_pos typename, List.length_append, List.length_cons] at alone
  exact List.eq_nil_of_length_eq_zero (by omega)

/-- A type name is taken out by type names only. -/
theorem typename_stays (typename : typenameAt sourceResult identifier idx = true)
    (none : front.filter (typenameAt sourceResult identifier) = []) :
    ∀ first ∈ front, takesOutAt sourceResult stdIdentifierTakesOut first idx = false := by
  intro first listed
  by_contra removes
  obtain ⟨other, _, otherNames, typenames⟩ := takesOutAt_iff_names.mp (by simpa using removes)
  obtain rfl := namesAt_unique (namesAt_of_typenameAt typename) otherNames
  exact List.filter_eq_nil_iff.mp none first listed (typenames typename)

end Late

/-- The first type name behind a variable of its name spoils the pass: either it has its
turn, and no type of the name is left, or it is the last one, and both are left. -/
theorem first_of_similarRemoved (single : OneLateTypename sourceResult idxs)
    (returned : removeStdIdentifierSpaceSimilarDiagnostics sourceResult idxs = .ok result)
    (removed : SimilarRemoved sourceResult idxs result) : LedByTypenames sourceResult idxs := by
  by_contra violated
  have empty : LedByTypenames sourceResult [] := fun _ ⟨_, nowhere, _⟩ => nomatch nowhere
  obtain ⟨front, idx, back, rfl, before, spoiled⟩ := first_violation empty violated
  obtain ⟨identifier, kept, typename, noneInFront, isFirst, notTypename⟩ := late_typename before spoiled
  have noneBehind := single.none_behind isFirst notTypename typename
  obtain ⟨keptFront, keptNames⟩ := keepFirst_keeps_name before isFirst
  have enough : front.length + back.length + 1 ≤ (front ++ idx :: back).length := by
    simp only [List.length_append, List.length_cons]
    omega
  obtain ⟨fuel, left, enough, shorter, rest⟩ := rounds_until (fun _ _ _ _ apart ran => removeSimilarTo_ok apart ran)
    _ [] front back result idx enough (typename_stays typename noneInFront) (fun _ _ _ none => nomatch none)
    (forward_of_first before) returned
  have rest : rounds (removeSimilarTo sourceResult isStdIdentifier stdIdentifierSimilar) fuel
      (keepFirst (takesOutAt sourceResult stdIdentifierTakesOut) front).length
      (keepFirst (takesOutAt sourceResult stdIdentifierTakesOut) front ++ idx :: left) = .ok result := rest
  have listed : idx ∈ front ++ idx :: back := by simp
  obtain ⟨last, only, isTypename⟩ := removed.one identifier ⟨idx, listed, namesAt_of_typenameAt typename⟩
  have lastTypename := isTypename ⟨idx, listed, typename⟩
  have lastMember : last ∈ result := List.mem_of_mem_filter (p := namesAt sourceResult identifier) (by simp [only])
  cases fuel with
  | zero => omega
  | succ fuel =>
    rcases rounds_succ rest with ⟨_, swept, ran, later⟩ | ⟨_, rfl⟩
    · have gone := removeSimilarTo_self typename keptFront keptNames ran
      have present := ((rounds_sublist later).trans gone).subset lastMember
      rcases List.mem_append.mp present with inFront' | behind
      · exact List.filter_eq_nil_iff.mp noneInFront last ((keepFirst_sublist _ _).subset inFront') lastTypename
      · exact List.filter_eq_nil_iff.mp noneBehind last (shorter.subset behind) lastTypename
    · have count := congrArg List.length only
      have some := List.length_pos_of_mem (List.mem_filter.mpr ⟨keptFront, keptNames⟩)
      rw [List.filter_append, List.filter_cons_of_pos (namesAt_of_typenameAt typename), List.length_append,
        List.length_cons, List.length_singleton] at count
      omega

/-- On any list of diagnostics that name an identifier where they should, the pass
returns. It does what it is for when missing types come first among the diagnostics of
their name, and, where only one of them comes late, only then. -/
theorem removeStdIdentifierSpaceSimilarDiagnostics_spec
    (carries : ∀ diag ∈ sourceResult.diags, diag.CarriesIdentifier) (valid : Valid sourceResult idxs) :
    ∃ result, removeStdIdentifierSpaceSimilarDiagnostics sourceResult idxs = .ok result ∧
      (LedByTypenames sourceResult idxs → SimilarRemoved sourceResult idxs result) ∧
      (OneLateTypename sourceResult idxs → SimilarRemoved sourceResult idxs result →
        LedByTypenames sourceResult idxs) := by
  obtain ⟨result, returned, _⟩ := removeStdIdentifierSpaceSimilarDiagnostics_returns carries valid
  refine ⟨result, returned, fun first => ?_, fun single => first_of_similarRemoved single returned⟩
  rw [removeSimilar_ok (forward_of_first first) returned]
  exact similarRemoved_keepFirst first

end Pass

section Example

def memberY : Diagnostic :=
  .errorAt 3 "y" .errNoMember "no member named 'y' in 'struct s'"
    [.declarationName "y", .declContext (some ⟨.struct, "s"⟩)] []

def typeThenVariable : List Diagnostic := [unknownType 2 "x", undeclaredVariable 1 "x"]

def variableThenType : List Diagnostic := [undeclaredVariable 1 "x", unknownType 2 "x"]

theorem typeThenVariable_carry : ∀ diag ∈ typeThenVariable, diag.CarriesIdentifier := by
  intro diag member
  rcases List.mem_cons.mp member with rfl | rest
  · exact ⟨nofun, nofun, fun _ => ⟨"x", rfl⟩, nofun⟩
  · obtain rfl := List.mem_singleton.mp rest
    exact ⟨fun _ => ⟨"x", rfl⟩, nofun, nofun, nofun⟩

theorem removeStdIdentifierSpaceSimilarDiagnostics_spec_typeFirst : ∃ result,
    removeStdIdentifierSpaceSimilarDiagnostics (.ofErrors typeThenVariable) [0, 1] = .ok result ∧
      SimilarRemoved (.ofErrors typeThenVariable) [0, 1] result := by
  have valid : Valid (.ofErrors typeThenVariable) [0, 1] := by
    unfold Valid
    decide
  obtain ⟨result, returned, removed, _⟩ :=
    removeStdIdentifierSpaceSimilarDiagnostics_spec typeThenVariable_carry valid
  refine ⟨result, returned, removed ?_⟩
  rintro identifier ⟨idx, listed, typename⟩ first isFirst
  have isZero : idx = 0 := by
    rcases List.mem_cons.mp listed with rfl | last
    · rfl
    · obtain rfl := List.mem_singleton.mp last
      obtain ⟨diag, present, isTypename, _⟩ := typenameAt_iff.mp typename
      cases present
      cases isTypename
  rw [isZero] at typename
  rw [List.filter_cons_of_pos (namesAt_of_typenameAt typename)] at isFirst
  obtain rfl := Option.some.inj isFirst
  exact typename

/-- Behind a variable of its name, the last type name never has its turn, and any
other one takes itself out. -/
theorem type_behind_variable :
    removeStdIdentifierSpaceSimilarDiagnostics (.ofErrors variableThenType) [0, 1] = .ok [0, 1] ∧
    ¬ SimilarRemoved (.ofErrors variableThenType) [0, 1] [0, 1] ∧
    removeStdIdentifierSpaceSimilarDiagnostics (.ofErrors (variableThenType ++ [memberY])) [0, 1, 2] = .ok [2] ∧
    ¬ SimilarRemoved (.ofErrors (variableThenType ++ [memberY])) [0, 1, 2] [2] := by
  refine ⟨by decide +kernel, fun removed => ?_, by decide +kernel, fun removed => ?_⟩
  · obtain ⟨kept, only, _⟩ := removed.one "x" ⟨0, by decide +kernel⟩
    have both : [0, 1].filter (namesAt (.ofErrors variableThenType) "x") = [0, 1] := by decide +kernel
    cases both.symm.trans only
  · obtain ⟨kept, only, _⟩ := removed.one "x" ⟨0, by decide +kernel⟩
    have none : [2].filter (namesAt (.ofErrors (variableThenType ++ [memberY])) "x") = [] := by decide +kernel
    cases none.symm.trans only

end Example
end CMender
