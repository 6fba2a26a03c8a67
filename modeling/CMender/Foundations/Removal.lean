import Mathlib.Data.List.Basic
import Mathlib.Data.List.Induction

/-! Removal of related items from a list while it is walked through by place. A
round takes the item at one place and removes what it is related to elsewhere;
the list closes up behind every removal. As long as no item that has its round is
related to one in front of it, the rounds keep exactly the first of related items. -/
namespace Foundations.Removal
variable {ε α : Type}

/-- Items are taken one after another; `kept` holds those that stay, the last one
first. Whatever stands at `place` when it is reached is passed over. -/
def sweep (related : α → Except ε Bool) (place : Nat) : List α → List α → Except ε (List α)
  | kept, [] => .ok kept.reverse
  | kept, item :: rest =>
    if kept.length = place then sweep related place (item :: kept) rest
    else do
      if ← related item then sweep related place kept rest
      else sweep related place (item :: kept) rest

/-- One round for each place but the last, where the list may shrink on the way. -/
def rounds (round : Nat → List α → Except ε (List α)) : Nat → Nat → List α → Except ε (List α)
  | 0, _, items => .ok items
  | fuel + 1, place, items =>
    if place + 1 < items.length then do rounds round fuel (place + 1) (← round place items)
    else .ok items

/-- The first of related items stays. -/
def keepFirst (related : α → α → Bool) (items : List α) : List α :=
  items.eraseDupsBy fun later earlier => related earlier later

theorem keepFirst_nil {related : α → α → Bool} : keepFirst related [] = [] := List.eraseDupsBy_nil

theorem keepFirst_cons {related : α → α → Bool} {item : α} {rest : List α} :
    keepFirst related (item :: rest) =
      item :: keepFirst related (rest.filter fun other => !related item other) := by
  rw [keepFirst, List.eraseDupsBy_cons, keepFirst]
  congr 3
  funext other
  cases related item other <;> rfl

theorem keepFirst_eq_nil {related : α → α → Bool} {items : List α} : keepFirst related items = [] ↔ items = [] := by
  cases items with
  | nil => simp [keepFirst_nil]
  | cons item rest => simp [keepFirst_cons]

/-- Induction along the lists that are left after each item. -/
theorem keepFirst_induction {motive : List α → Prop} (related : α → α → Bool) (nil : motive [])
    (cons : ∀ item rest, motive (rest.filter fun other => !related item other) → motive (item :: rest))
    (items : List α) : motive items := by
  induction length : items.length using Nat.strongRecOn generalizing items with
  | _ n ih =>
    cases items with
    | nil => exact nil
    | cons item rest =>
      have shorter := List.length_filter_le (fun other => !related item other) rest
      apply cons
      exact ih _ (by simp only [List.length_cons] at length; omega) _ rfl

theorem keepFirst_sublist (related : α → α → Bool) (items : List α) :
    (keepFirst related items).Sublist items := by
  induction items using keepFirst_induction related with
  | nil => rw [keepFirst_nil]
  | cons item rest ih =>
    rw [keepFirst_cons]
    exact (ih.trans List.filter_sublist).cons_cons item

theorem keepFirst_pairwise (related : α → α → Bool) (items : List α) :
    (keepFirst related items).Pairwise fun earlier later => related earlier later = false := by
  induction items using keepFirst_induction related with
  | nil =>
    rw [keepFirst_nil]
    exact List.Pairwise.nil
  | cons item rest ih =>
    rw [keepFirst_cons, List.pairwise_cons]
    refine ⟨fun other kept => ?_, ih⟩
    have stays := (List.mem_filter.mp ((keepFirst_sublist _ _).subset kept)).2
    simpa using stays

/-- Where an item is related to one in front of it only if that one removes it, no item
that is kept is related to one in front. -/
theorem keepFirst_forward {related : α → α → Bool} {items : List α}
    (forward : items.Pairwise fun a b => related b a = true → related a b = true) :
    (keepFirst related items).Pairwise fun a b => related b a = false := by
  refine ((keepFirst_pairwise related items).and (forward.sublist (keepFirst_sublist related items))).imp ?_
  rintro a b ⟨unrelated, ahead⟩
  by_contra backward
  rw [ahead (by simpa using backward)] at unrelated
  cases unrelated

section Sweeps
variable {related : α → Except ε Bool} {truth : α → Bool} {place : Nat} {kept items result : List α}

theorem sweep_cons {item : α} {rest : List α} (other : kept.length ≠ place)
    (agrees : ∀ b, related item = .ok b → b = truth item)
    (swept : sweep related place kept (item :: rest) = .ok result) :
    sweep related place (if truth item then kept else item :: kept) rest = .ok result := by
  simp only [sweep, if_neg other] at swept
  cases compared : related item with
  | error error =>
    rw [compared] at swept
    cases swept
  | ok b =>
    rw [compared] at swept
    rw [← agrees b compared]
    cases b with
    | true => exact swept
    | false => exact swept

/-- Behind the place, what is related goes. -/
theorem sweep_behind (agrees : ∀ item ∈ items, ∀ b, related item = .ok b → b = truth item)
    (behind : place < kept.length) (swept : sweep related place kept items = .ok result) :
    result = kept.reverse ++ items.filter fun item => !truth item := by
  induction items generalizing kept with
  | nil =>
    cases swept
    simp
  | cons item rest ih =>
    have next := sweep_cons (Nat.ne_of_gt behind) (agrees item List.mem_cons_self) swept
    have agreesRest : ∀ other ∈ rest, ∀ b, related other = .ok b → b = truth other :=
      fun other member => agrees other (List.mem_cons_of_mem _ member)
    cases goes : truth item with
    | true =>
      simp only [goes, if_true] at next
      rw [ih agreesRest behind next]
      simp [goes]
    | false =>
      simp only [goes, Bool.false_eq_true, if_false] at next
      rw [ih agreesRest (by simp only [List.length_cons]; omega) next]
      simp [goes]

/-- In front of the place nothing goes when nothing is related. -/
theorem sweep_around {front back : List α} {item : α}
    (agrees : ∀ other ∈ front ++ item :: back, ∀ b, related other = .ok b → b = truth other)
    (unrelated : ∀ other ∈ front, truth other = false) (reached : kept.length + front.length = place)
    (swept : sweep related place kept (front ++ item :: back) = .ok result) :
    result = kept.reverse ++ front ++ item :: back.filter fun other => !truth other := by
  induction front generalizing kept with
  | nil =>
    have at_place : kept.length = place := by simpa using reached
    simp only [List.nil_append, sweep, if_pos at_place] at swept
    have agreesBack : ∀ other ∈ back, ∀ b, related other = .ok b → b = truth other :=
      fun other member => agrees other (by simp [member])
    rw [sweep_behind agreesBack (by simp only [List.length_cons]; omega) swept]
    simp
  | cons first rest ih =>
    have before : kept.length ≠ place := by
      simp only [List.length_cons] at reached
      omega
    have stays := unrelated first List.mem_cons_self
    have next := sweep_cons before (agrees first (by simp)) swept
    simp only [stays, Bool.false_eq_true, if_false] at next
    have result_eq := ih (fun other member => agrees other (List.mem_cons_of_mem _ member))
      (fun other member => unrelated other (List.mem_cons_of_mem _ member))
      (by simp only [List.length_cons] at reached ⊢; omega) next
    rw [result_eq]
    simp

theorem sweep_sublist (swept : sweep related place kept items = .ok result) :
    result.Sublist (kept.reverse ++ items) := by
  induction items generalizing kept with
  | nil =>
    cases swept
    simp
  | cons item rest ih =>
    have passed (swept : sweep related place (item :: kept) rest = .ok result) :
        result.Sublist (kept.reverse ++ item :: rest) := by simpa using ih swept
    have removed (swept : sweep related place kept rest = .ok result) :
        result.Sublist (kept.reverse ++ item :: rest) :=
      (ih swept).trans ((List.sublist_cons_self item rest).append_left kept.reverse)
    unfold sweep at swept
    split at swept
    · exact passed swept
    · cases compared : related item with
      | error error =>
        rw [compared] at swept
        cases swept
      | ok b =>
        rw [compared] at swept
        cases b with
        | true => exact removed swept
        | false => exact passed swept

/-- A sweep ends when every comparison does. -/
theorem sweep_returns (compares : ∀ item ∈ items, ∃ b, related item = .ok b) :
    ∃ result, sweep related place kept items = .ok result := by
  induction items generalizing kept with
  | nil => exact ⟨kept.reverse, rfl⟩
  | cons item rest ih =>
    have later (kept : List α) : ∃ result, sweep related place kept rest = .ok result :=
      ih fun other member => compares other (List.mem_cons_of_mem _ member)
    unfold sweep
    split
    · exact later (item :: kept)
    · obtain ⟨b, compared⟩ := compares item List.mem_cons_self
      rw [compared]
      cases b with
      | true => exact later kept
      | false => exact later (item :: kept)

/-- What is not related stays, wherever it stands. -/
theorem mem_of_sweep {item : α} (unrelated : ∀ b, related item = .ok b → b = false)
    (member : item ∈ kept ∨ item ∈ items) (swept : sweep related place kept items = .ok result) :
    item ∈ result := by
  induction items generalizing kept with
  | nil =>
    cases swept
    simpa using member
  | cons head rest ih =>
    have passed (swept : sweep related place (head :: kept) rest = .ok result) : item ∈ result := by
      apply ih _ swept
      rcases member with before | here
      · exact .inl (List.mem_cons_of_mem _ before)
      · rcases List.mem_cons.mp here with rfl | behind
        · exact .inl List.mem_cons_self
        · exact .inr behind
    unfold sweep at swept
    split at swept
    · exact passed swept
    · cases compared : related head with
      | error error =>
        rw [compared] at swept
        cases swept
      | ok b =>
        rw [compared] at swept
        cases b with
        | false => exact passed swept
        | true =>
          apply ih _ swept
          rcases member with before | here
          · exact .inl before
          · rcases List.mem_cons.mp here with rfl | behind
            · cases unrelated true compared
            · exact .inr behind

/-- A related item that is reached before its place is removed. -/
theorem sweep_short {front back : List α} {item : α}
    (agrees : ∀ other ∈ front ++ item :: back, ∀ b, related other = .ok b → b = truth other)
    (goes : truth item = true) (short : kept.length + front.length < place)
    (swept : sweep related place kept (front ++ item :: back) = .ok result) :
    result.Sublist (kept.reverse ++ (front ++ back)) := by
  induction front generalizing kept with
  | nil =>
    simp only [List.length_nil, Nat.add_zero] at short
    have next := sweep_cons (Nat.ne_of_lt short) (agrees item (by simp)) swept
    simp only [goes, if_true] at next
    exact sweep_sublist next
  | cons first rest ih =>
    simp only [List.length_cons] at short
    have next := sweep_cons (by omega) (agrees first (by simp)) swept
    have agreesRest : ∀ other ∈ rest ++ item :: back, ∀ b, related other = .ok b → b = truth other :=
      fun other member => agrees other (List.mem_cons_of_mem _ member)
    split at next
    · refine (ih agreesRest (by omega) next).trans ?_
      exact (List.sublist_cons_self first (rest ++ back)).append_left kept.reverse
    · have kept' := ih agreesRest (by simp only [List.length_cons]; omega) next
      simpa using kept'

/-- An item whose round removes something in front of it moves off its place, and is
then compared with itself. -/
theorem sweep_self {front back : List α} {item : α}
    (agrees : ∀ other ∈ front ++ item :: back, ∀ b, related other = .ok b → b = truth other)
    (goes : truth item = true) (hit : ∃ other ∈ front, truth other = true)
    (reached : kept.length + front.length = place)
    (swept : sweep related place kept (front ++ item :: back) = .ok result) :
    result.Sublist (kept.reverse ++ (front ++ back)) := by
  induction front generalizing kept with
  | nil =>
    obtain ⟨_, member, _⟩ := hit
    cases member
  | cons first rest ih =>
    simp only [List.length_cons] at reached
    have next := sweep_cons (by omega) (agrees first (by simp)) swept
    have agreesRest : ∀ other ∈ rest ++ item :: back, ∀ b, related other = .ok b → b = truth other :=
      fun other member => agrees other (List.mem_cons_of_mem _ member)
    split at next
    · refine (sweep_short agreesRest goes (by omega) next).trans ?_
      exact (List.sublist_cons_self first (rest ++ back)).append_left kept.reverse
    · rename_i stays
      have later : ∃ other ∈ rest, truth other = true := by
        obtain ⟨other, member, holds⟩ := hit
        rcases List.mem_cons.mp member with rfl | behind
        · exact absurd holds stays
        · exact ⟨other, behind, holds⟩
      have kept' := ih agreesRest later (by simp only [List.length_cons]; omega) next
      simpa using kept'

end Sweeps

/-- Where a list first fails to have a property. -/
theorem first_violation {P : List α → Prop} {items : List α} (empty : P []) (violated : ¬ P items) :
    ∃ front item back, items = front ++ item :: back ∧ P front ∧ ¬ P (front ++ [item]) := by
  induction items using List.reverseRecOn with
  | nil => exact absurd empty violated
  | append_singleton init last ih =>
    by_cases before : P init
    · exact ⟨init, last, [], rfl, before, violated⟩
    · obtain ⟨front, item, back, rfl, found⟩ := ih before
      exact ⟨front, item, back ++ [last], by simp, found⟩

section Classes
variable {related : α → α → Bool} {member : α → Bool}

/-- What nothing is related to stays. -/
theorem keepFirst_filter_free (free : ∀ a b, member b = true → related a b = false) (items : List α) :
    (keepFirst related items).filter member = items.filter member := by
  induction items using keepFirst_induction related with
  | nil => rw [keepFirst_nil]
  | cons item rest ih =>
    have kept : (rest.filter fun other => !related item other).filter member = rest.filter member := by
      rw [List.filter_filter]
      apply List.filter_congr
      intro other _
      cases listed : member other with
      | false => simp
      | true => simp [free item other listed]
    rw [keepFirst_cons, List.filter_cons, ih, kept, List.filter_cons]

/-- Of a class whose first member is related to the later ones, the first stays. -/
theorem keepFirst_filter_class {items : List α}
    (closed : ∀ a b, related a b = true → member b = true → member a = true)
    (leads : ∀ first rest, items.filter member = first :: rest → ∀ other ∈ rest, related first other = true) :
    (keepFirst related items).filter member = (items.filter member).take 1 := by
  induction items using keepFirst_induction related with
  | nil => rw [keepFirst_nil, List.filter_nil, List.take_nil]
  | cons item rest ih =>
    rw [keepFirst_cons]
    cases listed : member item with
    | true =>
      have removed := leads item (rest.filter member) (List.filter_cons_of_pos listed)
      have none : (keepFirst related (rest.filter fun other => !related item other)).filter member = [] := by
        rw [List.filter_eq_nil_iff]
        intro other present isMember
        obtain ⟨behind, stays⟩ := List.mem_filter.mp ((keepFirst_sublist _ _).subset present)
        rw [removed other (List.mem_filter.mpr ⟨behind, isMember⟩)] at stays
        cases stays
      simp [listed, none]
    | false =>
      have same : (rest.filter fun other => !related item other).filter member = rest.filter member := by
        rw [List.filter_filter]
        apply List.filter_congr
        intro other _
        cases isMember : member other with
        | false => simp
        | true =>
          have apart : related item other = false := by
            by_contra hit
            have own := closed item other (by simpa using hit) isMember
            rw [listed] at own
            cases own
          simp [apart]
      have outside : (item :: rest).filter member = rest.filter member :=
        List.filter_cons_of_neg (by simp [listed])
      rw [same] at ih
      rw [List.filter_cons_of_neg (by simp [listed]), outside]
      apply ih
      intro first later isFilter
      exact leads first later (outside.trans isFilter)

end Classes

section Keys
variable {κ : Type} [DecidableEq κ]

/-- In one pass over the items, those that have a key stay when it has not been seen. -/
def firstOfEach (key : α → Option κ) : List κ → List α → List α
  | _, [] => []
  | seen, item :: rest =>
    match key item with
    | none => item :: firstOfEach key seen rest
    | some value =>
      if value ∈ seen then firstOfEach key seen rest else item :: firstOfEach key (value :: seen) rest

def sameKey (key : α → Option κ) (item other : α) : Bool := (key item).isSome && key item == key other

theorem sameKey_iff {key : α → Option κ} {item other : α} :
    sameKey key item other = true ↔ ∃ value, key item = some value ∧ key other = some value := by
  rw [sameKey, Bool.and_eq_true, Option.isSome_iff_exists, beq_iff_eq]
  constructor
  · rintro ⟨⟨value, keyed⟩, same⟩
    exact ⟨value, keyed, same.symm.trans keyed⟩
  · rintro ⟨value, keyed, otherKeyed⟩
    exact ⟨⟨value, keyed⟩, keyed.trans otherKeyed.symm⟩

theorem firstOfEach_eq_keepFirst (key : α → Option κ) (seen : List κ) (items : List α) :
    firstOfEach key seen items =
      keepFirst (sameKey key) (items.filter fun item => (key item).all fun value => value ∉ seen) := by
  induction items generalizing seen with
  | nil => rw [firstOfEach, List.filter_nil, keepFirst_nil]
  | cons item rest ih =>
    rw [firstOfEach]
    cases keyed : key item with
    | none =>
      have apart : ∀ other, sameKey key item other = false := by simp [sameKey, keyed]
      rw [List.filter_cons_of_pos (by simp [keyed]), keepFirst_cons]
      simp [apart, ih]
    | some value =>
      by_cases old : value ∈ seen
      · rw [List.filter_cons_of_neg (by simp [keyed, old])]
        simp [old, ih]
      · rw [List.filter_cons_of_pos (by simp [keyed, old]), keepFirst_cons, List.filter_filter]
        simp only [old, if_false, ih, List.cons.injEq, true_and]
        congr 1
        apply List.filter_congr
        intro other _
        cases otherKeyed : key other with
        | none => simp [sameKey, keyed, otherKeyed]
        | some otherValue =>
          by_cases same : value = otherValue
          · simp [sameKey, keyed, otherKeyed, same]
          · simp [sameKey, keyed, otherKeyed, same, Ne.symm same]

/-- Keeping the first of related items is a pass over their keys. -/
theorem keepFirst_eq_firstOfEach {key : α → Option κ} {related : α → α → Bool}
    (keyed : ∀ a b, related a b = sameKey key a b) (items : List α) :
    keepFirst related items = firstOfEach key [] items := by
  obtain rfl : related = sameKey key := funext fun a => funext (keyed a)
  rw [firstOfEach_eq_keepFirst, List.filter_eq_self.mpr]
  intro item _
  cases key item <;> simp

theorem firstOfEach_filter_key (key : α → Option κ) (items : List α) (value : κ) :
    (firstOfEach key [] items).filter (key · == some value) = (items.filter (key · == some value)).take 1 := by
  rw [← keepFirst_eq_firstOfEach fun _ _ => rfl]
  refine keepFirst_filter_class ?_ ?_
  · intro a b same keyed
    obtain ⟨other, aKeyed, bKeyed⟩ := sameKey_iff.mp same
    rw [beq_iff_eq] at keyed ⊢
    rw [aKeyed, ← bKeyed, keyed]
  · intro first rest isFilter other behind
    have keyed : ∀ item ∈ first :: rest, key item = some value := by
      intro item listed
      rw [← isFilter] at listed
      exact beq_iff_eq.mp (List.mem_filter.mp listed).2
    exact sameKey_iff.mpr ⟨value, keyed first List.mem_cons_self, keyed other (List.mem_cons_of_mem _ behind)⟩

theorem firstOfEach_filter_none (key : α → Option κ) (items : List α) :
    (firstOfEach key [] items).filter (key · == none) = items.filter (key · == none) := by
  rw [← keepFirst_eq_firstOfEach fun _ _ => rfl]
  refine keepFirst_filter_free ?_ items
  intro a b free
  rw [← Bool.not_eq_true, sameKey_iff]
  rintro ⟨value, _, keyed⟩
  rw [keyed] at free
  cases free

end Keys

section Rounds
variable {related : α → α → Bool} {round : Nat → List α → Except ε (List α)}

theorem keepFirst_of_length_le_one {items : List α} (short : items.length ≤ 1) :
    keepFirst related items = items := by
  match items, short with
  | [], _ => exact keepFirst_nil
  | [item], _ => rw [keepFirst_cons, List.filter_nil, keepFirst_nil]

theorem rounds_succ {fuel place : Nat} {items result : List α}
    (finished : rounds round (fuel + 1) place items = .ok result) :
    (place + 1 < items.length ∧ ∃ swept, round place items = .ok swept ∧
      rounds round fuel (place + 1) swept = .ok result) ∨ ¬ place + 1 < items.length ∧ result = items := by
  unfold rounds at finished
  split at finished
  · rename_i inside
    cases ran : round place items with
    | error error =>
      rw [ran] at finished
      cases finished
    | ok swept =>
      rw [ran] at finished
      exact .inl ⟨inside, swept, rfl, finished⟩
  · rename_i outside
    cases finished
    exact .inr ⟨outside, rfl⟩

/-- What every round keeps, all rounds keep. -/
theorem rounds_invariant {P : List α → Prop}
    (keeps : ∀ place items result, P items → round place items = .ok result → P result) {fuel place : Nat}
    {items result : List α} (holds : P items) (finished : rounds round fuel place items = .ok result) :
    P result := by
  induction fuel generalizing place items with
  | zero =>
    cases finished
    exact holds
  | succ fuel ih =>
    rcases rounds_succ finished with ⟨_, swept, ran, later⟩ | ⟨_, rfl⟩
    · exact ih (keeps place items swept holds ran) later
    · exact holds

/-- The rounds end when each of them does, from any list that it may be given. -/
theorem rounds_return {P : List α → Prop}
    (ends : ∀ place items, P items → place < items.length →
      ∃ result, round place items = .ok result ∧ P result)
    (fuel place : Nat) (items : List α) (holds : P items) :
    ∃ result, rounds round fuel place items = .ok result ∧ P result := by
  induction fuel generalizing place items with
  | zero => exact ⟨items, rfl, holds⟩
  | succ fuel ih =>
    unfold rounds
    split
    · rename_i inside
      obtain ⟨swept, ran, kept⟩ := ends place items holds (by omega)
      rw [ran]
      exact ih (place + 1) swept kept
    · exact ⟨items, rfl, holds⟩

/-- What is kept behind an item is related neither to the item nor to those before it. -/
theorem apart_append_item {done more : List α} {item : α}
    (apart : ∀ later ∈ item :: more, ∀ earlier ∈ done, related later earlier = false)
    (ahead : ∀ later ∈ more, related later item = false) :
    ∀ later ∈ more, ∀ earlier ∈ done ++ [item], related later earlier = false := by
  intro later member earlier listed
  rcases List.mem_append.mp listed with inDone | isItem
  · exact apart later (List.mem_cons_of_mem _ member) earlier inDone
  · obtain rfl := List.mem_singleton.mp isItem
    exact ahead later member

/-- Only the items that are kept have a round, and they remove nothing in front. -/
theorem rounds_keepFirst
    (round_spec : ∀ front item back result, (∀ other ∈ front, related item other = false) →
      round front.length (front ++ item :: back) = .ok result →
      result = front ++ item :: back.filter fun other => !related item other)
    (fuel : Nat) (front back result : List α) (enough : back.length ≤ fuel)
    (apart : ∀ item ∈ keepFirst related back, ∀ other ∈ front, related item other = false)
    (forward : (keepFirst related back).Pairwise fun a b => related b a = false)
    (finished : rounds round fuel front.length (front ++ back) = .ok result) :
    result = front ++ keepFirst related back := by
  induction fuel generalizing front back with
  | zero =>
    obtain rfl := List.length_eq_zero_iff.mp (Nat.le_zero.mp enough)
    cases finished
    rw [keepFirst_nil]
  | succ fuel ih =>
    rcases rounds_succ finished with ⟨inside, swept, ran, later⟩ | ⟨outside, rfl⟩
    · cases back with
      | nil =>
        rw [List.append_nil] at inside
        omega
      | cons item rest =>
        rw [keepFirst_cons] at apart forward
        obtain ⟨ahead, laterForward⟩ := List.pairwise_cons.mp forward
        obtain rfl := round_spec front item rest swept (apart item List.mem_cons_self) ran
        have lengths := List.length_filter_le (fun other => !related item other) rest
        have kept := ih (front ++ [item]) (rest.filter fun other => !related item other)
          (by rw [List.length_cons] at enough; omega) (apart_append_item apart ahead) laterForward
          (by rw [List.length_append, List.append_assoc]; exact later)
        rw [kept, keepFirst_cons]
        simp
    · -- The last item has nothing behind it.
      rw [keepFirst_of_length_le_one]
      rw [List.length_append] at outside
      omega

/-- The rounds of the items in front of one that none of them removes, one after another. -/
theorem rounds_until
    (round_spec : ∀ front item back result, (∀ other ∈ front, related item other = false) →
      round front.length (front ++ item :: back) = .ok result →
      result = front ++ item :: back.filter fun other => !related item other)
    (fuel : Nat) (done todo back result : List α) (item : α) (enough : todo.length + back.length + 1 ≤ fuel)
    (stays : ∀ first ∈ todo, related first item = false)
    (apart : ∀ first ∈ keepFirst related todo, ∀ other ∈ done, related first other = false)
    (forward : (keepFirst related todo).Pairwise fun a b => related b a = false)
    (finished : rounds round fuel done.length (done ++ (todo ++ item :: back)) = .ok result) :
    ∃ fuel' back', back'.length + 1 ≤ fuel' ∧ back'.Sublist back ∧
      rounds round fuel' (done ++ keepFirst related todo).length
        (done ++ keepFirst related todo ++ item :: back') = .ok result := by
  induction fuel generalizing done todo back with
  | zero => omega
  | succ fuel ih =>
    cases todo with
    | nil =>
      refine ⟨fuel + 1, back, by omega, .refl back, ?_⟩
      rw [keepFirst_nil, List.append_nil]
      exact finished
    | cons first more =>
      rcases rounds_succ finished with ⟨_, swept, ran, later⟩ | ⟨outside, _⟩
      · rw [keepFirst_cons] at apart forward
        obtain ⟨ahead, laterForward⟩ := List.pairwise_cons.mp forward
        obtain rfl := round_spec done first (more ++ item :: back) swept (apart first List.mem_cons_self) ran
        have filtered : (more ++ item :: back).filter (fun other => !related first other) =
            more.filter (fun other => !related first other) ++
              item :: back.filter fun other => !related first other := by
          simp [stays first List.mem_cons_self]
        rw [filtered] at later
        have moreLength := List.length_filter_le (fun other => !related first other) more
        have backLength := List.length_filter_le (fun other => !related first other) back
        rw [List.length_cons] at enough
        obtain ⟨fuel', back', left, shorter, rest⟩ := ih (done ++ [first])
          (more.filter fun other => !related first other) (back.filter fun other => !related first other)
          (by omega) (fun other member => stays other (List.mem_cons_of_mem _ (List.mem_of_mem_filter member)))
          (apart_append_item apart ahead) laterForward (by simpa using later)
        refine ⟨fuel', back', left, shorter.trans List.filter_sublist, ?_⟩
        rw [keepFirst_cons]
        simpa using rest
      · simp only [List.length_append, List.length_cons] at outside
        omega

end Rounds

/-- In an increasing list, an item stays when no smaller one is related to it. -/
theorem mem_keepFirst {related : Nat → Nat → Bool}
    (trans : ∀ a b c, related a b = true → related b c = true → related a c = true)
    {items : List Nat} (increasing : items.Pairwise (· < ·)) {item : Nat} :
    item ∈ keepFirst related items ↔
      item ∈ items ∧ ∀ other ∈ items, other < item → related other item = false := by
  induction items using keepFirst_induction related with
  | nil => simp [keepFirst_nil]
  | cons head rest ih =>
    obtain ⟨first, later⟩ := List.pairwise_cons.mp increasing
    rw [keepFirst_cons, List.mem_cons, ih (later.sublist List.filter_sublist)]
    simp only [List.mem_filter, Bool.not_eq_true']
    constructor
    · rintro (rfl | ⟨⟨present, stays⟩, alone⟩)
      · refine ⟨List.mem_cons_self, fun other member smaller => ?_⟩
        rcases List.mem_cons.mp member with rfl | behind
        · omega
        · have larger := first other behind
          omega
      · refine ⟨List.mem_cons_of_mem _ present, fun other member smaller => ?_⟩
        rcases List.mem_cons.mp member with rfl | behind
        · exact stays
        · cases removed : related head other with
          | false => exact alone other ⟨behind, removed⟩ smaller
          | true =>
            by_contra similar
            have chained := trans head other item removed (by simpa using similar)
            rw [stays] at chained
            cases chained
    · rintro ⟨member, alone⟩
      rcases List.mem_cons.mp member with rfl | behind
      · exact .inl rfl
      · refine .inr ⟨⟨behind, alone head List.mem_cons_self (first item behind)⟩, ?_⟩
        intro other listed smaller
        exact alone other (List.mem_cons_of_mem _ listed.1) smaller

end Foundations.Removal
