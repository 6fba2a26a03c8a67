import CMender.Foundations.Execution
import Mathlib.Data.List.Infix

/-! Trees of files under operations that may fail. A volume says what the file at each
path holds; an operation has a target, and whether or not it fails, nothing changes that
is not below the target. -/
namespace Foundations.Volumes
open Execution
variable {κ β : Type}

abbrev Volume (κ β : Type) := List κ → Option β

/-- Nothing differs but what is below the target. -/
def SameOutside (target : List κ) (before after : Volume κ β) : Prop :=
  ∀ path, ¬ target <+: path → after path = before path

theorem SameOutside.refl (target : List κ) (volume : Volume κ β) : SameOutside target volume volume :=
  fun _ _ => rfl

theorem SameOutside.trans {target : List κ} {first middle last : Volume κ β} (earlier : SameOutside target first middle)
    (later : SameOutside target middle last) : SameOutside target first last :=
  fun path outside => (later path outside).trans (earlier path outside)

theorem SameOutside.widen {target directory : List κ} {before after : Volume κ β} (inside : directory <+: target)
    (same : SameOutside target before after) : SameOutside directory before after :=
  fun path outside => same path fun below => outside (inside.trans below)

/-- Neither of two directories is in the other. -/
def Apart (left right : List κ) : Prop := ¬ left <+: right ∧ ¬ right <+: left

instance [DecidableEq κ] (left right : List κ) : Decidable (Apart left right) := inferInstanceAs (Decidable (_ ∧ _))

theorem Apart.symm {left right : List κ} (apart : Apart left right) : Apart right left := ⟨apart.2, apart.1⟩

theorem Apart.outside {left right path : List κ} (apart : Apart left right) (below : right <+: path) :
    ¬ left <+: path :=
  fun other => (List.prefix_or_prefix_of_prefix other below).elim apart.1 apart.2

theorem Apart.below {left right inLeft inRight : List κ} (apart : Apart left right) (first : left <+: inLeft)
    (second : right <+: inRight) : Apart inLeft inRight :=
  ⟨fun inside => apart.outside second (first.trans inside), fun inside =>
    apart.symm.outside first (second.trans inside)⟩

theorem apart_of_ne {directory : List κ} {name other : κ} (different : name ≠ other) :
    Apart (directory ++ [name]) (directory ++ [other]) := by
  have sibling {a b : κ} (different : a ≠ b) : ¬ directory ++ [a] <+: directory ++ [b] := by
    intro inside
    rw [List.prefix_append_right_inj] at inside
    exact different (List.cons_prefix_cons.mp inside).1
  exact ⟨sibling different, sibling different.symm⟩

/-- What fails, and what a failure leaves below its target. -/
structure Medium (κ β : Type) where
  fails : List κ → Bool
  leaves : List κ → Volume κ β → Volume κ β
  confined : ∀ target volume, SameOutside target volume (leaves target volume)

def operate (medium : Medium κ β) (target : List κ) (change : Volume κ β → Volume κ β) :
    EStateM Unit (Volume κ β) Unit := fun volume =>
  if medium.fails target then .error () (medium.leaves target volume) else .ok () (change volume)

section Operating
variable {medium : Medium κ β} {target : List κ} {volume after : Volume κ β} {change : Volume κ β → Volume κ β}

theorem operate_ok :
    operate medium target change volume = .ok () after ↔ medium.fails target = false ∧ after = change volume := by
  unfold operate
  cases medium.fails target with
  | true => simp
  | false => simp [eq_comm]

end Operating

inductive Kind where
  | file | directory

section Operations
variable [DecidableEq κ]

def write (volume : Volume κ β) (path : List κ) (content : β) : Volume κ β :=
  fun other => if other = path then some content else volume other

/-- What is there already and not overwritten stays. -/
def copyDirectory (source target : List κ) (volume : Volume κ β) : Volume κ β :=
  fun path => if target <+: path then (volume (source ++ path.drop target.length)).or (volume path) else volume path

def deleteDirectory (directory : List κ) (volume : Volume κ β) : Volume κ β :=
  fun path => if directory <+: path then none else volume path

/-- A file that is to be copied has to be there. -/
def transfer (medium : Medium κ β) (source target : List κ) : Kind → EStateM Unit (Volume κ β) Unit
  | .file => fun volume =>
    match volume source with
    | none => .error () volume
    | some content => operate medium target (write · target content) volume
  | .directory => operate medium target (copyDirectory source target)

variable {medium : Medium κ β} {source target : List κ} {volume after : Volume κ β} {kind : Kind} {content : β}

theorem write_self : write volume target content target = some content := if_pos rfl

theorem sameOutside_write (path : List κ) (content : β) : SameOutside path volume (write volume path content) := by
  intro other outside
  refine if_neg fun same => outside ?_
  rw [same]

theorem transfer_present (found : volume source = some content) :
    transfer medium source target .file volume = operate medium target (write · target content) volume := by
  simp only [transfer, found]

end Operations

/-- A transfer that will not fail. -/
structure Ready (medium : Medium κ β) (source target : List κ) (kind : Kind) (volume : Volume κ β) : Prop where
  works : medium.fails target = false
  present : kind = .file → ∃ content, volume source = some content

theorem Ready.congr {medium : Medium κ β} {source target : List κ} {kind : Kind} {volume other : Volume κ β}
    (sources : ∀ path, source <+: path → other path = volume path) (ready : Ready medium source target kind volume) :
    Ready medium source target kind other := by
  refine ⟨ready.works, fun isFile => ?_⟩
  rw [sources _ List.prefix_rfl]
  exact ready.present isFile

/-- What was at the source is at the target. -/
def Transferred (source target : List κ) (before after : Volume κ β) : Kind → Prop
  | .file => after target = before source
  | .directory => ∀ path content, before (source ++ path) = some content → after (target ++ path) = some content

theorem Transferred.congr {source target : List κ} {before before' after after' : Volume κ β} {kind : Kind}
    (sources : ∀ path, source <+: path → before' path = before path)
    (targets : ∀ path, target <+: path → after' path = after path)
    (transferred : Transferred source target before' after kind) : Transferred source target before after' kind := by
  cases kind with
  | file => exact (targets _ List.prefix_rfl).trans (transferred.trans (sources _ List.prefix_rfl))
  | directory =>
    intro path content found
    rw [targets _ (List.prefix_append _ _)]
    exact transferred path content ((sources _ (List.prefix_append _ _)).trans found)

section Transfers
variable [DecidableEq κ] {medium : Medium κ β} {source target : List κ} {volume after : Volume κ β} {kind : Kind}

theorem Ready.transfer (ready : Ready medium source target kind volume) :
    ∃ after, transfer medium source target kind volume = .ok () after := by
  cases kind with
  | directory => exact ⟨_, operate_ok.mpr ⟨ready.works, rfl⟩⟩
  | file =>
    obtain ⟨content, found⟩ := ready.present rfl
    exact ⟨_, (transfer_present found).trans (operate_ok.mpr ⟨ready.works, rfl⟩)⟩

variable {entries : List (Kind × κ)}

end Transfers

end Foundations.Volumes
