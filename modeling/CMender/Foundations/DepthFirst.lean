import Mathlib.Data.List.Basic
import Mathlib.Data.List.Nodup
import Mathlib.Logic.Relation

/-! Depth-first topological sorting with two visited sets and one shared
ordering. A vertex enters `temporary` when its visit starts and is never removed
from it; it enters `permanent` and the front of the ordering when its visit
ends. The vertices being visited are those in `temporary` and not in
`permanent`. Edges that `skip` selects are ignored. Nothing is assumed about the
order in which roots and successors are listed. -/
namespace Foundations.DepthFirst
variable {α : Type}

structure Progress (α : Type) where
  permanent : List α
  temporary : List α
  ordering : List α

namespace Progress

def start : Progress α := ⟨[], [], []⟩

def enter (progress : Progress α) (vertex : α) : Progress α :=
  { progress with temporary := vertex :: progress.temporary }

def leave (progress : Progress α) (vertex : α) : Progress α :=
  { progress with permanent := vertex :: progress.permanent, ordering := vertex :: progress.ordering }

/-- Being visited: started and not yet finished. -/
def Open (progress : Progress α) (vertex : α) : Prop :=
  vertex ∈ progress.temporary ∧ vertex ∉ progress.permanent

end Progress

/-- Visits a list of vertices until one visit reports a cycle. `none` is the
exhaustion of the fuel that `visitOne` was given, not an answer. -/
def visitEach (visitOne : α → Progress α → Option (Bool × Progress α)) :
    List α → Progress α → Option (Bool × Progress α)
  | [], progress => some (true, progress)
  | vertex :: rest, progress =>
    match visitOne vertex progress with
    | some (true, after) => visitEach visitOne rest after
    | stopped => stopped

section
variable [DecidableEq α]

def visit (successors : α → List α) (skip : α → α → Bool) :
    Nat → α → Progress α → Option (Bool × Progress α)
  | 0, _, _ => none
  | fuel + 1, vertex, progress =>
    if vertex ∈ progress.permanent then some (true, progress)
    else if vertex ∈ progress.temporary then some (false, progress)
    else
      match visitEach (visit successors skip fuel)
          ((successors vertex).filter (fun next => !skip vertex next)) (progress.enter vertex) with
      | some (true, after) => some (true, after.leave vertex)
      | stopped => stopped

/-- `some none` is the answer "cyclic", `none` is exhausted fuel. -/
def sortWith (successors : α → List α) (skip : α → α → Bool) (fuel : Nat) (roots : List α) :
    Option (Option (List α)) :=
  match visitEach (visit successors skip fuel) roots .start with
  | some (true, after) => some (some after.ordering)
  | some (false, _) => some none
  | none => none

/-- One more level than there are roots is always enough, see `sortWith_answers`. -/
def sort (successors : α → List α) (skip : α → α → Bool) (roots : List α) : Option (List α) :=
  (sortWith successors skip (roots.length + 1) roots).getD none

end

section
variable (successors : α → List α) (skip : α → α → Bool)

def Edge (source target : α) : Prop := target ∈ successors source ∧ skip source target = false

def Cyclic (roots : List α) : Prop :=
  ∃ vertex ∈ roots, Relation.TransGen (Edge successors skip) vertex vertex

/-- The successors of a root are roots, so a visit never leaves the given list. -/
def Closed (roots : List α) : Prop := ∀ vertex ∈ roots, ∀ next ∈ successors vertex, next ∈ roots

/-- The finished vertices are listed once, each before all its successors. -/
structure Sorted (progress : Progress α) : Prop where
  finished : ∀ vertex, vertex ∈ progress.permanent ↔ vertex ∈ progress.ordering
  started : ∀ vertex ∈ progress.permanent, vertex ∈ progress.temporary
  nodup : progress.ordering.Nodup
  closed : ∀ front vertex back, progress.ordering = front ++ vertex :: back →
    ∀ next, Edge successors skip vertex next → next ∈ back

/-- What a visit that reports no cycle leaves behind. -/
structure Extends (before after : Progress α) : Prop where
  sorted : Sorted successors skip after
  permanent : ∀ vertex ∈ before.permanent, vertex ∈ after.permanent
  temporary : ∀ vertex ∈ before.temporary, vertex ∈ after.temporary
  opened : ∀ vertex, after.Open vertex ↔ before.Open vertex

end

variable {successors : α → List α} {skip : α → α → Bool} {fuel : Nat} {vertex : α}
  {before after : Progress α} {roots : List α}

theorem Extends.refl (sorted : Sorted successors skip before) : Extends successors skip before before :=
  ⟨sorted, fun _ member => member, fun _ member => member, fun _ => Iff.rfl⟩

theorem Extends.trans {middle : Progress α} (first : Extends successors skip before middle)
    (second : Extends successors skip middle after) : Extends successors skip before after :=
  ⟨second.sorted, fun v member => second.permanent v (first.permanent v member),
    fun v member => second.temporary v (first.temporary v member),
    fun v => (second.opened v).trans (first.opened v)⟩

theorem Sorted.start : Sorted successors skip (.start : Progress α) where
  finished := by simp [Progress.start]
  started := by simp [Progress.start]
  nodup := by simp [Progress.start]
  closed := by simp [Progress.start]

/-- The contract of one visit that reports no cycle. -/
def VisitsSoundly (successors : α → List α) (skip : α → α → Bool)
    (visitOne : α → Progress α → Option (Bool × Progress α)) : Prop :=
  ∀ vertex before after, Sorted successors skip before → visitOne vertex before = some (true, after) →
    Extends successors skip before after ∧ vertex ∈ after.permanent

theorem visitEach_sound {visitOne : α → Progress α → Option (Bool × Progress α)}
    (sound : VisitsSoundly successors skip visitOne) {vertices : List α}
    (sorted : Sorted successors skip before)
    (visited : visitEach visitOne vertices before = some (true, after)) :
    Extends successors skip before after ∧ ∀ vertex ∈ vertices, vertex ∈ after.permanent := by
  induction vertices generalizing before with
  | nil =>
    simp only [visitEach, Option.some.injEq, Prod.mk.injEq, true_and] at visited
    subst visited
    exact ⟨.refl sorted, by simp⟩
  | cons vertex rest ih =>
    simp only [visitEach] at visited
    split at visited
    · rename_i middle first
      obtain ⟨extends₁, done⟩ := sound vertex before middle sorted first
      obtain ⟨extends₂, others⟩ := ih extends₁.sorted visited
      refine ⟨extends₁.trans extends₂, ?_⟩
      intro v member
      rcases List.mem_cons.mp member with rfl | later
      · exact extends₂.permanent v done
      · exact others v later
    · rename_i stopped
      exact absurd visited (stopped after)

theorem Sorted.enter (sorted : Sorted successors skip before) :
    Sorted successors skip (before.enter vertex) :=
  ⟨sorted.finished, fun v member => List.mem_cons_of_mem _ (sorted.started v member),
    sorted.nodup, sorted.closed⟩

/-- Finishing a vertex whose successors are finished keeps the ordering sorted. -/
theorem Sorted.leave (sorted : Sorted successors skip after) (opened : after.Open vertex)
    (successorsDone : ∀ next, Edge successors skip vertex next → next ∈ after.permanent) :
    Sorted successors skip (after.leave vertex) where
  finished := by simp [Progress.leave, sorted.finished]
  started := by
    intro v member
    rcases List.mem_cons.mp member with rfl | earlier
    · exact opened.1
    · exact sorted.started v earlier
  nodup := List.nodup_cons.mpr ⟨fun member => opened.2 ((sorted.finished _).mpr member), sorted.nodup⟩
  closed := by
    intro front v back split next edge
    cases front with
    | nil =>
      obtain ⟨rfl, rfl⟩ := List.cons.inj split
      exact (sorted.finished _).mp (successorsDone next edge)
    | cons head front =>
      exact sorted.closed front v back (List.cons.inj split).2 next edge

variable [DecidableEq α]

theorem visit_sound (fuel : Nat) : VisitsSoundly successors skip (visit successors skip fuel) := by
  induction fuel with
  | zero => intro vertex before after _ visited; simp [visit] at visited
  | succ fuel ih =>
    intro vertex before after sorted visited
    simp only [visit] at visited
    split at visited
    · rename_i finished
      simp only [Option.some.injEq, Prod.mk.injEq, true_and] at visited
      subst visited
      exact ⟨.refl sorted, finished⟩
    · rename_i unfinished
      split at visited
      · simp at visited
      · rename_i fresh
        split at visited
        · rename_i middle explored
          simp only [Option.some.injEq, Prod.mk.injEq, true_and] at visited
          subst visited
          obtain ⟨grown, done⟩ := visitEach_sound ih sorted.enter explored
          have opened : middle.Open vertex :=
            (grown.opened vertex).mpr ⟨List.mem_cons_self, unfinished⟩
          have successorsDone : ∀ next, Edge successors skip vertex next → next ∈ middle.permanent := by
            intro next edge
            exact done next (by simp [edge.1, edge.2])
          refine ⟨⟨grown.sorted.leave opened successorsDone, ?_, ?_, ?_⟩, List.mem_cons_self⟩
          · intro v member
            exact List.mem_cons_of_mem _ (grown.permanent v member)
          · intro v member
            exact grown.temporary v (List.mem_cons_of_mem _ member)
          · -- the vertex opened and closed again; every other one kept its status
            intro v
            by_cases same : v = vertex
            · subst same
              simp only [Progress.Open, Progress.leave, List.mem_cons_self, not_true_eq_false, and_false,
                false_iff, not_and, not_not]
              exact fun started => absurd started fresh
            · have kept := grown.opened v
              simp only [Progress.Open, Progress.enter, List.mem_cons, same, false_or] at kept
              simpa only [Progress.Open, Progress.leave, List.mem_cons, same, false_or] using kept
        · rename_i stopped
          exact absurd visited (stopped after)

/-- A reported cycle is a real one, provided the open vertices lead to the one
being visited. -/
def ReportsSoundly (successors : α → List α) (skip : α → α → Bool) (roots : List α)
    (visitOne : α → Progress α → Option (Bool × Progress α)) : Prop :=
  ∀ vertex ∈ roots, ∀ before after, Sorted successors skip before →
    (∀ v, before.Open v → Relation.TransGen (Edge successors skip) v vertex) →
    visitOne vertex before = some (false, after) → Cyclic successors skip roots

omit [DecidableEq α] in
theorem visitEach_reports {visitOne : α → Progress α → Option (Bool × Progress α)}
    (sound : VisitsSoundly successors skip visitOne)
    (reports : ReportsSoundly successors skip roots visitOne)
    {vertices : List α} (inside : ∀ vertex ∈ vertices, vertex ∈ roots)
    (sorted : Sorted successors skip before)
    (reach : ∀ vertex ∈ vertices, ∀ v, before.Open v → Relation.TransGen (Edge successors skip) v vertex)
    (visited : visitEach visitOne vertices before = some (false, after)) :
    Cyclic successors skip roots := by
  induction vertices generalizing before with
  | nil => simp [visitEach] at visited
  | cons vertex rest ih =>
    simp only [visitEach] at visited
    split at visited
    · rename_i middle first
      obtain ⟨grown, _⟩ := sound vertex before middle sorted first
      refine ih (fun v member => inside v (List.mem_cons_of_mem _ member)) grown.sorted ?_ visited
      intro other member v opened
      exact reach other (List.mem_cons_of_mem _ member) v ((grown.opened v).mp opened)
    · exact reports vertex (inside vertex List.mem_cons_self) before after sorted
        (reach vertex List.mem_cons_self) visited

theorem visit_reports (closed : Closed successors roots) (fuel : Nat) :
    ReportsSoundly successors skip roots (visit successors skip fuel) := by
  induction fuel with
  | zero => intro vertex _ before after _ _ visited; simp [visit] at visited
  | succ fuel ih =>
    intro vertex root before after sorted reach visited
    simp only [visit] at visited
    split at visited
    · simp at visited
    · rename_i unfinished
      split at visited
      · rename_i started
        exact ⟨vertex, root, reach vertex ⟨started, unfinished⟩⟩
      · split at visited
        · simp at visited
        · refine visitEach_reports (visit_sound fuel) ih ?_ sorted.enter ?_ visited
          · exact fun next member => closed vertex root next (List.mem_filter.mp member).1
          intro next member v opened
          simp only [List.mem_filter, Bool.not_eq_true'] at member
          have edge : Edge successors skip vertex next := member
          simp only [Progress.Open, Progress.enter, List.mem_cons] at opened
          rcases opened.1 with rfl | older
          · exact .single edge
          · exact (reach v ⟨older, opened.2⟩).tail edge

omit [DecidableEq α] in
/-- An ordering that lists every vertex before its successors admits no cycle
through its members: along edges the remaining list only gets shorter. -/
theorem sorted_acyclic (sorted : Sorted successors skip after)
    (member : vertex ∈ after.ordering) :
    ¬ Relation.TransGen (Edge successors skip) vertex vertex := by
  have later : ∀ target, Relation.TransGen (Edge successors skip) vertex target →
      ∀ front back, after.ordering = front ++ vertex :: back → target ∈ back := by
    intro target path
    induction path with
    | single edge => intro front back split; exact sorted.closed front vertex back split _ edge
    | tail _ edge ih =>
      intro front back split
      obtain ⟨front₂, back₂, rfl⟩ := List.append_of_mem (ih front back split)
      have inner := sorted.closed (front ++ vertex :: front₂) _ back₂ (by simp [split]) _ edge
      simp [inner]
  intro cycle
  obtain ⟨front, back, split⟩ := List.append_of_mem member
  have twice := later vertex cycle front back split
  have nodup := sorted.nodup
  rw [split] at nodup
  exact (List.nodup_cons.mp (List.nodup_append.mp nodup).2.1).1 twice

/-- Number of roots whose visit has not started: the recursion depth still possible. -/
def unstarted (roots : List α) (progress : Progress α) : Nat :=
  (roots.filter (fun vertex => decide (vertex ∉ progress.temporary))).length

theorem unstarted_mono (grown : ∀ vertex ∈ before.temporary, vertex ∈ after.temporary) :
    unstarted roots after ≤ unstarted roots before := by
  apply List.Sublist.length_le
  apply List.monotone_filter_right
  intro v fresh
  simp only [decide_eq_true_eq] at fresh ⊢
  exact fun member => fresh (grown v member)

theorem unstarted_enter (member : vertex ∈ roots) (fresh : vertex ∉ before.temporary) :
    unstarted roots (before.enter vertex) < unstarted roots before := by
  have smaller : (roots.filter (fun v => decide (v ∉ (before.enter vertex).temporary))).length <
      (roots.filter (fun v => decide (v ∉ before.temporary))).length := by
    have sub : (roots.filter (fun v => decide (v ∉ (before.enter vertex).temporary))) =
        (roots.filter (fun v => decide (v ∉ before.temporary))).filter (fun v => decide (v ≠ vertex)) := by
      rw [List.filter_filter]
      apply List.filter_congr
      intro v _
      simp [Progress.enter, not_or]
    rw [sub]
    refine List.length_filter_lt_length_iff_exists.mpr ⟨vertex, ?_, by simp⟩
    simp [member, fresh]
  exact smaller

omit [DecidableEq α] in
/-- A preorder on progress that every start and every end of a root's visit
respects is respected by whole visits, whatever they answer. -/
theorem visitEach_rule {R : Progress α → Progress α → Prop} (refl : ∀ p, R p p)
    (trans : ∀ {p q r}, R p q → R q r → R p r)
    {visitOne : α → Progress α → Option (Bool × Progress α)}
    (one : ∀ vertex ∈ roots, ∀ before after answer,
      visitOne vertex before = some (answer, after) → R before after)
    {vertices : List α} (inside : ∀ vertex ∈ vertices, vertex ∈ roots) {answer : Bool}
    (visited : visitEach visitOne vertices before = some (answer, after)) : R before after := by
  induction vertices generalizing before with
  | nil =>
    simp only [visitEach, Option.some.injEq, Prod.mk.injEq] at visited
    exact visited.2 ▸ refl before
  | cons vertex rest ih =>
    have root := inside vertex List.mem_cons_self
    simp only [visitEach] at visited
    split at visited
    · rename_i middle first
      exact trans (one vertex root before middle true first)
        (ih (fun v member => inside v (List.mem_cons_of_mem _ member)) visited)
    · exact one vertex root before after answer visited

theorem visit_rule {R : Progress α → Progress α → Prop} (refl : ∀ p, R p p)
    (trans : ∀ {p q r}, R p q → R q r → R p r)
    (enter : ∀ p, ∀ vertex ∈ roots, R p (p.enter vertex))
    (leave : ∀ p, ∀ vertex ∈ roots, R p (p.leave vertex))
    (closed : Closed successors roots) (fuel : Nat) : ∀ vertex ∈ roots, ∀ before after answer,
      visit successors skip fuel vertex before = some (answer, after) → R before after := by
  induction fuel with
  | zero => intro vertex _ before after answer visited; simp [visit] at visited
  | succ fuel ih =>
    intro vertex root before after answer visited
    have inside : ∀ v ∈ (successors vertex).filter (fun next => !skip vertex next), v ∈ roots :=
      fun v member => closed vertex root v (List.mem_filter.mp member).1
    simp only [visit] at visited
    split at visited
    · simp only [Option.some.injEq, Prod.mk.injEq] at visited
      exact visited.2 ▸ refl before
    · split at visited
      · simp only [Option.some.injEq, Prod.mk.injEq] at visited
        exact visited.2 ▸ refl before
      · have entered := enter before vertex root
        split at visited
        · rename_i middle explored
          simp only [Option.some.injEq, Prod.mk.injEq] at visited
          rw [← visited.2]
          exact trans (trans entered (visitEach_rule refl trans ih inside explored))
            (leave middle vertex root)
        · exact trans entered (visitEach_rule refl trans ih inside visited)

theorem visit_temporary (closed : Closed successors roots) (root : vertex ∈ roots) {answer : Bool}
    (visited : visit successors skip fuel vertex before = some (answer, after)) :
    ∀ v ∈ before.temporary, v ∈ after.temporary := by
  refine visit_rule (R := fun p q => ∀ v ∈ p.temporary, v ∈ q.temporary) ?_ ?_ ?_ ?_
    closed fuel vertex root before after answer visited
  · exact fun _ _ member => member
  · exact fun first second v member => second v (first v member)
  · exact fun _ _ _ v member => List.mem_cons_of_mem _ member
  · exact fun _ _ _ _ member => member

/-- Enough fuel for the roots not yet started gives an answer. -/
theorem visit_answers (skip : α → α → Bool) (closed : Closed successors roots) (fuel : Nat) :
    ∀ vertex ∈ roots, ∀ before : Progress α, unstarted roots before < fuel →
      (visit successors skip fuel vertex before).isSome = true := by
  induction fuel with
  | zero => intro vertex _ before enough; omega
  | succ fuel ih =>
    have each : ∀ vertices : List α, (∀ v ∈ vertices, v ∈ roots) → ∀ before : Progress α,
        unstarted roots before < fuel →
        (visitEach (visit successors skip fuel) vertices before).isSome = true := by
      intro vertices
      induction vertices with
      | nil => intro _ before _; rfl
      | cons vertex rest ihRest =>
        intro inside before enough
        obtain ⟨⟨answer, middle⟩, first⟩ :=
          Option.isSome_iff_exists.mp (ih vertex (inside vertex List.mem_cons_self) before enough)
        have fewer : unstarted roots middle ≤ unstarted roots before :=
          unstarted_mono (visit_temporary closed (inside vertex List.mem_cons_self) first)
        cases answer with
        | false => simp [visitEach, first]
        | true =>
          simp only [visitEach, first]
          exact ihRest (fun v member => inside v (List.mem_cons_of_mem _ member)) middle (by omega)
    intro vertex member before enough
    simp only [visit]
    split
    · rfl
    · split
      · rfl
      · rename_i fresh
        have fewer := unstarted_enter member fresh
        have inside : ∀ v ∈ (successors vertex).filter (fun next => !skip vertex next), v ∈ roots :=
          fun v selected => closed vertex member v (List.mem_filter.mp selected).1
        obtain ⟨⟨answer, middle⟩, explored⟩ :=
          Option.isSome_iff_exists.mp (each _ inside (before.enter vertex) (by omega))
        rw [explored]
        cases answer <;> rfl

theorem sortWith_answers (skip : α → α → Bool) (closed : Closed successors roots) :
    (sortWith successors skip (roots.length + 1) roots).isSome = true := by
  have answers : ∀ vertices : List α, (∀ v ∈ vertices, v ∈ roots) → ∀ before : Progress α,
      (visitEach (visit successors skip (roots.length + 1)) vertices before).isSome = true := by
    intro vertices
    induction vertices with
    | nil => intro _ before; rfl
    | cons vertex rest ih =>
      intro inside before
      have bound : unstarted roots before < roots.length + 1 :=
        Nat.lt_succ_of_le (List.length_filter_le _ _)
      obtain ⟨⟨answer, middle⟩, first⟩ := Option.isSome_iff_exists.mp
        (visit_answers skip closed _ vertex (inside vertex List.mem_cons_self) before bound)
      cases answer with
      | false => simp [visitEach, first]
      | true =>
        simp only [visitEach, first]
        exact ih (fun v member => inside v (List.mem_cons_of_mem _ member)) middle
  obtain ⟨⟨answer, after⟩, visited⟩ :=
    Option.isSome_iff_exists.mp (answers roots (fun _ member => member) .start)
  simp only [sortWith, visited]
  cases answer <;> rfl

/-- Every vertex is listed, once, and before all its successors. -/
structure Topological (successors : α → List α) (skip : α → α → Bool) (roots ordering : List α) : Prop where
  complete : ∀ vertex, vertex ∈ ordering ↔ vertex ∈ roots
  nodup : ordering.Nodup
  before : ∀ front vertex back, ordering = front ++ vertex :: back →
    ∀ next, Edge successors skip vertex next → next ∈ back

omit [DecidableEq α] in
/-- The source of an edge stands before its target. -/
theorem Topological.source_before {ordering front back : List α} {source target : α}
    (topological : Topological successors skip roots ordering)
    (edge : Edge successors skip source target) (root : source ∈ roots)
    (split : ordering = front ++ target :: back) : source ∈ front := by
  have once := topological.nodup
  rw [split, List.nodup_append] at once
  have listed : source ∈ front ++ target :: back := split ▸ (topological.complete source).mpr root
  rcases List.mem_append.mp listed with ahead | behind
  · exact ahead
  rcases List.mem_cons.mp behind with rfl | later
  · have repeated := topological.before front source back split source edge
    exact absurd repeated (List.nodup_cons.mp once.2.1).1
  · obtain ⟨middle, rest, rfl⟩ := List.append_of_mem later
    have repeated := topological.before (front ++ target :: middle) source rest
      (by rw [split, List.append_assoc, List.cons_append]) target edge
    exact absurd (by simp [repeated]) (List.nodup_cons.mp once.2.1).1

theorem sort_topological (closed : Closed successors roots) {ordering : List α}
    (sorted : sort successors skip roots = some ordering) :
    Topological successors skip roots ordering := by
  obtain ⟨answer, answered⟩ := Option.isSome_iff_exists.mp (sortWith_answers skip closed)
  simp only [sort, answered, Option.getD_some] at sorted
  subst sorted
  simp only [sortWith] at answered
  split at answered
  · rename_i after visited
    simp only [Option.some.injEq] at answered
    subst answered
    obtain ⟨grown, done⟩ := visitEach_sound (visit_sound (roots.length + 1)) Sorted.start visited
    have inside : (∀ v ∈ (Progress.start : Progress α).ordering, v ∈ roots) →
        ∀ v ∈ after.ordering, v ∈ roots := by
      refine visitEach_rule (R := fun p q => (∀ v ∈ p.ordering, v ∈ roots) → ∀ v ∈ q.ordering, v ∈ roots)
        (fun _ given => given) (fun first second given => second (first given)) ?_
        (fun _ member => member) visited
      refine visit_rule (fun _ given => given) (fun first second given => second (first given)) ?_ ?_
        closed _
      · exact fun _ _ _ given => given
      · intro _ vertex root given v member
        rcases List.mem_cons.mp member with rfl | earlier
        · exact root
        · exact given v earlier
    refine ⟨fun v => ⟨inside (by simp [Progress.start]) v, ?_⟩, grown.sorted.nodup, grown.sorted.closed⟩
    exact fun root => (grown.sorted.finished v).mp (done v root)
  · simp at answered
  · simp at answered

/-- No ordering is returned exactly when the roots carry a cycle. -/
theorem sort_none_iff (closed : Closed successors roots) :
    sort successors skip roots = none ↔ Cyclic successors skip roots := by
  constructor
  · intro failed
    obtain ⟨answer, answered⟩ := Option.isSome_iff_exists.mp (sortWith_answers skip closed)
    simp only [sort, answered, Option.getD_some] at failed
    subst failed
    simp only [sortWith] at answered
    split at answered
    · simp at answered
    · rename_i after visited
      refine visitEach_reports (visit_sound _) (visit_reports closed _) (fun _ member => member)
        Sorted.start ?_ visited
      intro _ _ v opened
      simp [Progress.Open, Progress.start] at opened
    · simp at answered
  · rintro ⟨vertex, root, cycle⟩
    by_contra failed
    obtain ⟨ordering, sorted⟩ := Option.ne_none_iff_exists'.mp failed
    have listed := sort_topological closed sorted
    have progress : Sorted successors skip (⟨ordering, ordering, ordering⟩ : Progress α) :=
      ⟨fun _ => Iff.rfl, fun _ member => member, listed.nodup, listed.before⟩
    exact sorted_acyclic progress ((listed.complete vertex).mpr root) cycle

end Foundations.DepthFirst
