import Mathlib.Algebra.Order.Group.Multiset
import Mathlib.Algebra.BigOperators.Group.List.Basic

/-! Items handed to the bins of a priority queue, one after another: each goes to the
bin on top, which then goes back. The queue is a list of which only the elements
count; which of several greatest elements is on top is left open. -/
namespace Foundations
variable {α β : Type}

structure PriorityQueue (β : Type) (lt : β → β → Bool) where
  pop : List β → Option (β × List β)
  /-- An empty queue has no top, and every other queue has one. -/
  pop_none : ∀ {queue}, pop queue = none ↔ queue = []
  pop_perm : ∀ {queue top rest}, pop queue = some (top, rest) → queue.Perm (top :: rest)
  pop_greatest : ∀ {queue top rest}, pop queue = some (top, rest) → ∀ other ∈ rest, lt top other = false

namespace PriorityQueue
variable {lt : β → β → Bool} (heap : PriorityQueue β lt)

theorem pop_some {queue : List β} (nonempty : queue ≠ []) : ∃ top rest, heap.pop queue = some (top, rest) := by
  cases popped : heap.pop queue with
  | none => exact absurd (heap.pop_none.mp popped) nonempty
  | some found => exact ⟨found.1, found.2, rfl⟩

/-- The item goes to the bin on top, if there is one. -/
def place (put : β → α → β) (bins : List β) (item : α) : Option (List β) := do
  let (top, rest) ← heap.pop bins
  return put top item :: rest

theorem place_cases {put : β → α → β} {bins placed : List β} {item : α}
    (done : heap.place put bins item = some placed) :
    ∃ top rest, bins.Perm (top :: rest) ∧ (∀ other ∈ rest, lt top other = false) ∧ placed = put top item :: rest := by
  obtain ⟨⟨top, rest⟩, popped, returned⟩ := Option.bind_eq_some_iff.mp done
  exact ⟨top, rest, heap.pop_perm popped, heap.pop_greatest popped, (Option.some.inj returned).symm⟩

/-- The elements in the order in which they leave the queue. -/
def drain : Nat → List β → List β
  | 0, _ => []
  | size + 1, queue =>
    match heap.pop queue with
    | none => []
    | some (top, rest) => top :: drain size rest

theorem drain_perm (size : Nat) (queue : List β) (sized : queue.length = size) :
    (heap.drain size queue).Perm queue := by
  induction size generalizing queue with
  | zero =>
    obtain rfl := List.eq_nil_of_length_eq_zero sized
    exact .refl _
  | succ size ih =>
    have nonempty : queue ≠ [] := List.ne_nil_of_length_eq_add_one sized
    obtain ⟨top, rest, popped⟩ := heap.pop_some nonempty
    have taken := heap.pop_perm popped
    have left : rest.length = size := by
      have lengths := taken.length_eq
      rw [List.length_cons] at lengths
      omega
    have step : heap.drain (size + 1) queue = top :: heap.drain size rest := by rw [drain, popped]
    rw [step]
    exact ((ih rest left).cons top).trans taken.symm

section Contents
variable {put : β → α → β} {content : β → Multiset α}

/-- Nothing is lost when an item is placed. -/
theorem place_content (grows : ∀ bin item, content (put bin item) = item ::ₘ content bin) {bins : List β}
    (nonempty : bins ≠ []) (item : α) :
    ∃ placed, heap.place put bins item = some placed ∧ placed.length = bins.length ∧
      (placed.map content).sum = item ::ₘ (bins.map content).sum := by
  obtain ⟨top, rest, popped⟩ := heap.pop_some nonempty
  have taken := heap.pop_perm popped
  refine ⟨put top item :: rest, ?_, taken.length_eq.symm, ?_⟩
  · rw [place, popped]
    rfl
  · rw [(taken.map content).sum_eq, List.map_cons, List.map_cons, List.sum_cons, List.sum_cons, grows,
      Multiset.cons_add]

/-- A whole list of items ends up in the bins. -/
theorem foldlM_place (grows : ∀ bin item, content (put bin item) = item ::ₘ content bin) (items : List α)
    {bins : List β} (nonempty : bins ≠ []) :
    ∃ placed, items.foldlM (heap.place put) bins = some placed ∧ placed.length = bins.length ∧
      (placed.map content).sum = (items : Multiset α) + (bins.map content).sum := by
  induction items generalizing bins with
  | nil => exact ⟨bins, rfl, rfl, (zero_add _).symm⟩
  | cons item rest ih =>
    obtain ⟨placed, first, sameLength, firstSum⟩ := heap.place_content grows nonempty item
    have stillThere : placed ≠ [] := by
      rw [← List.length_pos_iff] at nonempty ⊢
      omega
    obtain ⟨final, later, finalLength, finalSum⟩ := ih stillThere
    refine ⟨final, ?_, finalLength.trans sameLength, ?_⟩
    · rw [List.foldlM_cons, first]
      exact later
    · rw [finalSum, firstSum, ← Multiset.cons_coe, Multiset.cons_add, Multiset.add_cons]

end Contents
section Least
variable (key : β → Nat)

/-- The first element with the least key, and the others. -/
def popLeast : List β → Option (β × List β)
  | [] => none
  | item :: rest =>
    match popLeast rest with
    | none => some (item, [])
    | some (top, others) => if key top < key item then some (top, item :: others) else some (item, top :: others)

theorem popLeast_cons (item : β) (rest : List β) :
    popLeast key (item :: rest) = some (item, []) ∧ popLeast key rest = none ∨
      ∃ top others, popLeast key rest = some (top, others) ∧
        (popLeast key (item :: rest) = some (top, item :: others) ∧ key top < key item ∨
          popLeast key (item :: rest) = some (item, top :: others) ∧ key item ≤ key top) := by
  cases popped : popLeast key rest with
  | none => exact .inl ⟨by rw [popLeast, popped], rfl⟩
  | some found =>
    refine .inr ⟨found.1, found.2, rfl, ?_⟩
    by_cases less : key found.1 < key item
    · exact .inl ⟨by rw [popLeast, popped]; exact if_pos less, less⟩
    · exact .inr ⟨by rw [popLeast, popped]; exact if_neg less, by omega⟩

theorem popLeast_none {queue : List β} : popLeast key queue = none ↔ queue = [] := by
  cases queue with
  | nil => exact iff_of_true rfl rfl
  | cons item rest =>
    refine iff_of_false ?_ (List.cons_ne_nil item rest)
    rcases popLeast_cons key item rest with ⟨popped, _⟩ | ⟨_, _, _, ⟨popped, _⟩ | ⟨popped, _⟩⟩ <;> simp [popped]

theorem popLeast_some (queue : List β) : ∀ {top : β} {rest : List β}, popLeast key queue = some (top, rest) →
    queue.Perm (top :: rest) ∧ ∀ other ∈ rest, key top ≤ key other := by
  induction queue with
  | nil => exact fun popped => nomatch popped
  | cons item items ih =>
    intro top rest popped
    rcases popLeast_cons key item items with ⟨first, none⟩ | ⟨least, others, later, ⟨first, less⟩ | ⟨first, least'⟩⟩
    · obtain ⟨rfl, rfl⟩ := Prod.mk.inj (Option.some.inj (popped.symm.trans first))
      rw [(popLeast_none key).mp none]
      exact ⟨.refl _, fun other none => nomatch none⟩
    · obtain ⟨rfl, rfl⟩ := Prod.mk.inj (Option.some.inj (popped.symm.trans first))
      obtain ⟨perm, least⟩ := ih later
      refine ⟨(perm.cons item).trans (.swap _ _ _), fun other listed => ?_⟩
      rcases List.mem_cons.mp listed with rfl | listed
      · exact less.le
      · exact least other listed
    · obtain ⟨rfl, rfl⟩ := Prod.mk.inj (Option.some.inj (popped.symm.trans first))
      obtain ⟨perm, least⟩ := ih later
      refine ⟨perm.cons top, fun other listed => ?_⟩
      rcases List.mem_cons.mp listed with rfl | listed
      · exact least'
      · exact least'.trans (least other listed)

/-- A queue whose greatest elements are those with the least key. -/
def ofKey {lt : β → β → Bool} (byKey : ∀ {a b}, lt a b = true → key b < key a) : PriorityQueue β lt where
  pop := popLeast key
  pop_none := popLeast_none key
  pop_perm := fun popped => (popLeast_some key _ popped).1
  pop_greatest := by
    intro queue top rest popped other listed
    have least := (popLeast_some key queue popped).2 other listed
    by_contra greater
    have less := byKey (Bool.eq_true_of_not_eq_false greater)
    omega

end Least
end PriorityQueue
end Foundations
