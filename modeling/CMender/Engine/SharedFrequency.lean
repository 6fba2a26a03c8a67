import CMender.Engine.Loop
import CMender.Foundations.Interleaving

/-! Unknown diagnostics counted by several workers at once. Each access to the
concurrent map is atomic, but an update is two of them: the count is read in one
step and put back, one larger, in another. -/
namespace CMender
open Foundations Foundations.Execution Foundations.Interleaving

/-- The labels a worker still has to count, and the count it has read for the first. -/
structure FrequencyWorker where
  labels : List String
  read : Option Nat
deriving DecidableEq

def getOrDefault (frequency : Map String Nat) (label : String) : Nat := (frequency.lookup label).getD 0

/-- `getOrDefault` in one step, `put` in the next. -/
def frequencyStep (frequency : Map String Nat) : FrequencyWorker → Option (Map String Nat × FrequencyWorker)
  | ⟨[], _⟩ => none
  | ⟨label :: rest, none⟩ => some (frequency, ⟨label :: rest, some (getOrDefault frequency label)⟩)
  | ⟨label :: rest, some value⟩ => some (frequency.insert label (value + 1), ⟨rest, none⟩)

/-- A worker that puts finds the count it has read. -/
def ReadStillStored (frequency : Map String Nat) : FrequencyWorker → Prop
  | ⟨label :: _, some value⟩ => getOrDefault frequency label = value
  | _ => True

/-- Two steps in a row are the update that a single worker makes. -/
theorem countUnknownDiag_eq_steps (frequency : Map String Nat) (info : DiagnosticShortInfo) (label : String)
    (labelled : info.labelId = some label) (rest : List String) :
    (countUnknownDiag frequency info).toOption =
      ((frequencyStep frequency ⟨label :: rest, none⟩).bind fun next => frequencyStep next.1 next.2).map Prod.fst := by
  simp only [countUnknownDiag, labelled, frequencyStep]
  rfl

section Steps
variable {frequency after : Map String Nat} {worker next : FrequencyWorker} {label : String}

theorem frequencyStep_iff : frequencyStep frequency worker = some (after, next) ↔
    (∃ label rest, worker = ⟨label :: rest, none⟩ ∧ after = frequency ∧
      next = ⟨label :: rest, some (getOrDefault frequency label)⟩) ∨
    ∃ label rest value, worker = ⟨label :: rest, some value⟩ ∧ after = frequency.insert label (value + 1) ∧
      next = ⟨rest, none⟩ := by
  obtain ⟨labels, read⟩ := worker
  cases labels with
  | nil => simp [frequencyStep]
  | cons label rest =>
    cases read with
    | none =>
      constructor
      · intro stepped
        cases stepped
        exact .inl ⟨label, rest, rfl, rfl, rfl⟩
      · rintro (⟨_, _, same, rfl, rfl⟩ | ⟨_, _, _, same, _⟩)
        · cases same
          rfl
        · cases same
    | some value =>
      constructor
      · intro stepped
        cases stepped
        exact .inr ⟨label, rest, value, rfl, rfl, rfl⟩
      · rintro (⟨_, _, same, _⟩ | ⟨_, _, _, same, rfl, rfl⟩)
        · cases same
        · cases same
          rfl

theorem getOrDefault_insert {other : String} {value : Nat} :
    getOrDefault (frequency.insert label value) other =
      if other = label then value else getOrDefault frequency other := by
  unfold getOrDefault
  rw [Map.lookup_insert]
  split
  · rfl
  · rfl

end Steps

section Runs
variable {ι : Type} [DecidableEq ι] {c d : Config ι (Map String Nat) FrequencyWorker} {i : ι}
  {label : String} {total : Nat}

/-- Nothing counted, and all labels to be counted. -/
def counting (labels : ι → List String) : Config ι (Map String Nat) FrequencyWorker :=
  ⟨.empty, fun i => ⟨labels i, none⟩⟩

/-- The worker has read the count of its first label. -/
def afterRead (c : Config ι (Map String Nat) FrequencyWorker) (i : ι) (label : String) (rest : List String) :
    Config ι (Map String Nat) FrequencyWorker :=
  ⟨c.shared, Function.update c.workers i ⟨label :: rest, some (getOrDefault c.shared label)⟩⟩

/-- The worker has put the count it had read, one larger. -/
def afterPut (c : Config ι (Map String Nat) FrequencyWorker) (i : ι) (label : String) (rest : List String)
    (value : Nat) : Config ι (Map String Nat) FrequencyWorker :=
  ⟨c.shared.insert label (value + 1), Function.update c.workers i ⟨rest, none⟩⟩

theorem frequencyTurn_iff : Turn frequencyStep c i d ↔
    (∃ label rest, c.workers i = ⟨label :: rest, none⟩ ∧ d = afterRead c i label rest) ∨
    ∃ label rest value, c.workers i = ⟨label :: rest, some value⟩ ∧ d = afterPut c i label rest value := by
  rw [turn_iff]
  constructor
  · rintro ⟨shared, worker, stepped, rfl⟩
    rcases frequencyStep_iff.mp stepped with ⟨label, rest, before, rfl, rfl⟩ | ⟨label, rest, value, before, rfl, rfl⟩
    · exact .inl ⟨label, rest, before, rfl⟩
    · exact .inr ⟨label, rest, value, before, rfl⟩
  · rintro (⟨label, rest, before, rfl⟩ | ⟨label, rest, value, before, rfl⟩)
    · exact ⟨_, _, frequencyStep_iff.mpr (.inl ⟨label, rest, before, rfl, rfl⟩), rfl⟩
    · exact ⟨_, _, frequencyStep_iff.mpr (.inr ⟨label, rest, value, before, rfl, rfl⟩), rfl⟩

section Turns
variable {first : String} {rest later : List String} {value other : Nat} {j : ι}

theorem reads_afterRead (found : (afterRead c i first rest).workers j = ⟨label :: later, some value⟩) :
    c.workers j = ⟨label :: later, some value⟩ ∨ value = getOrDefault c.shared label := by
  by_cases same : j = i
  · subst same
    simp only [afterRead, Function.update_self, FrequencyWorker.mk.injEq, List.cons.injEq,
      Option.some.injEq] at found
    exact .inr (found.1.1 ▸ found.2.symm)
  · left
    have kept : (afterRead c i first rest).workers j = c.workers j := Function.update_of_ne same _ _
    rwa [kept] at found

theorem reads_afterPut (found : (afterPut c i first rest other).workers j = ⟨label :: later, some value⟩) :
    c.workers j = ⟨label :: later, some value⟩ := by
  by_cases same : j = i
  · subst same
    simp [afterPut] at found
  · have kept : (afterPut c i first rest other).workers j = c.workers j := Function.update_of_ne same _ _
    rwa [kept] at found

variable [Fintype ι]

/-- How often a label is still to be put. -/
def outstanding (c : Config ι (Map String Nat) FrequencyWorker) (label : String) : Nat :=
  ∑ i, (c.workers i).labels.count label

/-- Neither the stored count nor one that was read has room above the bound, once all
that is outstanding is put. -/
structure Bounded (c : Config ι (Map String Nat) FrequencyWorker) (label : String) (bound : Nat) : Prop where
  stored : getOrDefault c.shared label + outstanding c label ≤ bound
  reads : ∀ i rest value, c.workers i = ⟨label :: rest, some value⟩ → value + outstanding c label ≤ bound

theorem outstanding_update (shared : Map String Nat) (worker : FrequencyWorker) :
    outstanding ⟨shared, Function.update c.workers i worker⟩ label + (c.workers i).labels.count label =
      outstanding c label + worker.labels.count label :=
  sum_update fun worker : FrequencyWorker => worker.labels.count label

theorem outstanding_afterRead (label : String) (before : c.workers i = ⟨first :: rest, none⟩) :
    outstanding (afterRead c i first rest) label = outstanding c label := by
  have moved : outstanding (afterRead c i first rest) label + (c.workers i).labels.count label =
      outstanding c label + (first :: rest).count label := outstanding_update ..
  rw [before] at moved
  exact Nat.add_right_cancel moved

theorem outstanding_afterPut (label : String) (before : c.workers i = ⟨first :: rest, some value⟩) :
    outstanding (afterPut c i first rest value) label + (if label = first then 1 else 0) = outstanding c label := by
  have moved : outstanding (afterPut c i first rest value) label + (c.workers i).labels.count label =
      outstanding c label + rest.count label := outstanding_update ..
  rw [before] at moved
  dsimp only at moved
  by_cases same : label = first
  · subst same
    rw [List.count_cons_self] at moved
    rw [if_pos rfl]
    omega
  · rw [List.count_cons_of_ne (Ne.symm same)] at moved
    rw [if_neg same]
    omega

end Turns

variable [Fintype ι]

theorem Bounded.turn {bound : Nat} (bounded : Bounded c label bound) (taken : Turn frequencyStep c i d) :
    Bounded d label bound := by
  rcases frequencyTurn_iff.mp taken with ⟨first, rest, before, rfl⟩ | ⟨first, rest, value, before, rfl⟩
  · have left := outstanding_afterRead label before
    refine ⟨by rw [left]; exact bounded.stored, fun j later value found => ?_⟩
    rw [left]
    rcases reads_afterRead found with old | rfl
    · exact bounded.reads j later value old
    · exact bounded.stored
  · have left := outstanding_afterPut label before
    have put : getOrDefault (afterPut c i first rest value).shared label =
        if label = first then value + 1 else getOrDefault c.shared label := getOrDefault_insert
    have stored := bounded.stored
    constructor
    · rw [put]
      by_cases own : label = first
      · subst own
        have read := bounded.reads i rest value before
        rw [if_pos rfl] at left ⊢
        omega
      · rw [if_neg own] at left ⊢
        omega
    · intro j later other found
      have read := bounded.reads j later other (reads_afterPut found)
      omega

theorem stored_turn (exact : getOrDefault c.shared label + outstanding c label = total)
    (taken : Turn frequencyStep c i d) (fresh : ReadStillStored c.shared (c.workers i)) :
    getOrDefault d.shared label + outstanding d label = total := by
  rcases frequencyTurn_iff.mp taken with ⟨first, rest, before, rfl⟩ | ⟨first, rest, value, before, rfl⟩
  · rw [outstanding_afterRead label before]
    exact exact
  · have left := outstanding_afterPut label before
    rw [before] at fresh
    have same : getOrDefault c.shared first = value := fresh
    have put : getOrDefault (afterPut c i first rest value).shared label =
        if label = first then value + 1 else getOrDefault c.shared label := getOrDefault_insert
    rw [put]
    by_cases own : label = first
    · subst own
      rw [if_pos rfl] at left ⊢
      omega
    · rw [if_neg own] at left ⊢
      omega

/-- A put that does not find what was read loses one for good. -/
theorem bounded_of_stale (exact : getOrDefault c.shared label + outstanding c label = total)
    (bounded : Bounded c label total) (taken : Turn frequencyStep c i d) {rest : List String} {value : Nat}
    (before : c.workers i = ⟨label :: rest, some value⟩) (stale : getOrDefault c.shared label ≠ value) :
    1 ≤ total ∧ Bounded d label (total - 1) := by
  have read := bounded.reads i rest value before
  rcases frequencyTurn_iff.mp taken with ⟨first, later, other, rfl⟩ | ⟨first, later, other, again, rfl⟩
  · rw [before] at other
    cases other
  · rw [before] at again
    cases again
    have left := outstanding_afterPut label before
    rw [if_pos rfl] at left
    have put : getOrDefault (afterPut c i label rest value).shared label = value + 1 := by
      rw [afterPut, getOrDefault_insert, if_pos rfl]
    refine ⟨by omega, by omega, fun j later other found => ?_⟩
    have older := bounded.reads j later other (reads_afterPut found)
    omega

omit [DecidableEq ι] in
theorem bounded_counting (labels : ι → List String) (label : String) :
    Bounded (counting labels) label (outstanding (counting labels) label) := by
  constructor
  · have unset : getOrDefault (counting labels).shared label = 0 := rfl
    omega
  · intro i rest value found
    have unread : (counting labels).workers i = ⟨labels i, none⟩ := rfl
    rw [unread] at found
    exact nomatch congrArg FrequencyWorker.read found

omit [DecidableEq ι] in
theorem outstanding_of_done (done : ∀ i, (c.workers i).labels = []) : outstanding c label = 0 := by
  unfold outstanding
  apply Finset.sum_eq_zero
  intro i _
  rw [done i, List.count_nil]

/-- A run with exact counts at both ends has put every count over the one it had read. -/
theorem allowed_of_exact {schedule : List ι} {final : Config ι (Map String Nat) FrequencyWorker}
    {total : String → Nat} (run : Reaches (Turn frequencyStep) c schedule final)
    (stored : ∀ label, getOrDefault c.shared label + outstanding c label = total label)
    (bounded : ∀ label, Bounded c label (total label))
    (exact : ∀ label, getOrDefault final.shared label + outstanding final label = total label) :
    Reaches (AllowedTurn frequencyStep ReadStillStored) c schedule final := by
  induction run with
  | refl => exact .refl _
  | @next c i d schedule final taken rest hypothesis =>
    suffices fresh : ReadStillStored c.shared (c.workers i) from
      .next ⟨taken, fresh⟩ (hypothesis (fun label => stored_turn (stored label) taken fresh)
        (fun label => (bounded label).turn taken) exact)
    -- a count once lost stays below the total to the end of the run
    by_contra stale
    unfold ReadStillStored at stale
    split at stale
    · rename_i label later value before
      obtain ⟨positive, lost⟩ := bounded_of_stale (stored label) (bounded label) taken before stale
      have still := (rest.invariant (P := fun e => Bounded e label (total label - 1))
        (fun bounded taken => bounded.turn taken) lost).stored
      have final := exact label
      omega
    · exact stale trivial

/-- The stored counts are the numbers of updates just when every put finds the count
its worker had read. -/
theorem frequency_exact_iff (labels : ι → List String) (schedule : List ι)
    (final : Config ι (Map String Nat) FrequencyWorker)
    (run : Reaches (Turn frequencyStep) (counting labels) schedule final)
    (done : ∀ i, (final.workers i).labels = []) :
    (∀ label, getOrDefault final.shared label = ∑ i, (labels i).count label) ↔
      Reaches (AllowedTurn frequencyStep ReadStillStored) (counting labels) schedule final := by
  have start : ∀ label, getOrDefault (counting labels).shared label + outstanding (counting labels) label =
      ∑ i, (labels i).count label := fun label => Nat.zero_add _
  constructor
  · intro exact
    refine allowed_of_exact run start (fun label => bounded_counting labels label) fun label => ?_
    rw [outstanding_of_done done, exact label, Nat.add_zero]
  · intro allowed label
    have stored := allowed.invariant
      (P := fun c => getOrDefault c.shared label + outstanding c label = ∑ i, (labels i).count label)
      (fun stored taken => stored_turn stored taken.1 taken.2) (start label)
    rwa [outstanding_of_done done] at stored

/-- Two workers, one after the other. -/
theorem frequency_exact_serial : ∃ final,
    Reaches (Turn frequencyStep) (counting fun _ : Fin 2 => ["unknown"]) [0, 0, 1, 1] final ∧
    (∀ i, (final.workers i).labels = []) ∧
    ((∀ label, getOrDefault final.shared label = ∑ _ : Fin 2, ["unknown"].count label) ↔
      Reaches (AllowedTurn frequencyStep ReadStillStored) (counting fun _ : Fin 2 => ["unknown"]) [0, 0, 1, 1]
        final) := by
  refine ⟨_, .next rfl (.next rfl (.next rfl (.next rfl (.refl _)))), ?done, frequency_exact_iff _ _ _ ?run ?done⟩
  · decide +kernel
  · exact .next rfl (.next rfl (.next rfl (.next rfl (.refl _))))

/-- Both workers read before either puts, and one of the two updates is lost. -/
theorem interleaved_update_lost : ∃ final,
    Reaches (Turn frequencyStep) (counting fun _ : Fin 2 => ["unknown"]) [0, 1, 0, 1] final ∧
    (∀ i, (final.workers i).labels = []) ∧
    getOrDefault final.shared "unknown" = 1 ∧ ∑ _ : Fin 2, ["unknown"].count "unknown" = 2 := by
  refine ⟨_, .next rfl (.next rfl (.next rfl (.next rfl (.refl _)))), ?_, ?_, ?_⟩
  · decide +kernel
  · decide +kernel
  · decide +kernel

end Runs
end CMender
