import Mathlib.Data.List.AList

/-! Finite maps as a table keeps them: an insertion replaces the entry of its
key, and iteration goes over the values in no order a proof may rely on. -/
namespace Foundations

def Map (κ α : Type) := AList fun _ : κ => α

namespace Map
variable {κ α : Type}

def empty : Map κ α := (∅ : AList fun _ : κ => α)

/-- The values under all keys, once for each key. -/
def values (map : Map κ α) : List α := map.entries.map Sigma.snd

def keys (map : Map κ α) : List κ := AList.keys map

variable [DecidableEq κ] {map : Map κ α} {key other : κ} {value : α}

def lookup (map : Map κ α) (key : κ) : Option α := AList.lookup key map

def insert (map : Map κ α) (key : κ) (value : α) : Map κ α := AList.insert key value map

def erase (map : Map κ α) (key : κ) : Map κ α := AList.erase key map

def containsKey (map : Map κ α) (key : κ) : Bool := (map.lookup key).isSome

@[simp] theorem lookup_empty : (empty : Map κ α).lookup key = none := AList.lookup_empty key

theorem lookup_insert : (map.insert key value).lookup other =
    if other = key then some value else map.lookup other := by
  by_cases same : other = key
  · subst same
    rw [if_pos rfl]
    exact AList.lookup_insert map
  · rw [if_neg same]
    exact AList.lookup_insert_ne same

@[simp] theorem lookup_insert_self : (map.insert key value).lookup key = some value := by
  rw [lookup_insert, if_pos rfl]

theorem lookup_insert_of_ne (different : other ≠ key) :
    (map.insert key value).lookup other = map.lookup other := by
  rw [lookup_insert, if_neg different]

theorem lookup_erase_of_ne (different : other ≠ key) : (map.erase key).lookup other = map.lookup other :=
  AList.lookup_erase_ne different

theorem keys_insert : (map.insert key value).keys = key :: map.keys.erase key := AList.keys_insert map

theorem keys_erase : (map.erase key).keys = map.keys.erase key := AList.keys_erase key map

theorem mem_values : value ∈ map.values ↔ ∃ key, map.lookup key = some value := by
  simp only [values, List.mem_map]
  constructor
  · rintro ⟨⟨key, _⟩, entry, rfl⟩
    exact ⟨key, AList.mem_lookup_iff.mpr entry⟩
  · rintro ⟨key, found⟩
    exact ⟨⟨key, value⟩, AList.mem_lookup_iff.mp found, rfl⟩

theorem mem_keys : key ∈ map.keys ↔ ∃ value, map.lookup key = some value := by
  rw [← Option.isSome_iff_exists]
  exact AList.lookup_isSome.symm

theorem containsKey_iff : map.containsKey key = true ↔ ∃ value, map.lookup key = some value := by
  simp only [containsKey, Option.isSome_iff_exists]

theorem containsKey_insert : (map.insert key value).containsKey other = true ↔
    other = key ∨ map.containsKey other = true := by
  rw [containsKey, lookup_insert, containsKey]
  by_cases same : other = key
  · simp [same]
  · simp [same]

end Map
end Foundations
