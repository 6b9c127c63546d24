import LanguageGuru.Data.Keyed

/-!
# Insertion-ordered maps

A map that lists its entries in the order in which their keys were first inserted, as a
JavaScript `Map` does. Keys are distinct by construction.

## Main definitions

* `OrderedMap κ α`: the maps, with `get`, `set`, `delete`, `keys`, `values` and `size`
* `OrderedMap.ofList`: the map of a list of pairs, a later pair replacing an earlier one

## Main results

* `get_set_self`, `get_set_other`, `keys_set`: the laws of `set`
* `keys_sweep`, `get_sweep`: deleting keys while iterating over them
* `get_ofList`: the map of a list of pairs holds the last value of each key
-/

/-- A finite map with its entries in insertion order. -/
structure OrderedMap (κ α : Type) where
  entries : List (κ × α)
  nodup : (entries.map Prod.fst).Nodup

namespace OrderedMap

variable {κ α : Type} [DecidableEq κ]

def empty : OrderedMap κ α := ⟨[], List.nodup_nil⟩

def get (m : OrderedMap κ α) (k : κ) : Option α := (Keyed.lookup Prod.fst k m.entries).map Prod.snd

/-- Set the value of a key: in place when the key is there, at the end otherwise. -/
def set (m : OrderedMap κ α) (k : κ) (v : α) : OrderedMap κ α where
  entries := Keyed.upsert Prod.fst k (fun _ => (k, v)) (k, v) m.entries
  nodup := by
    refine Keyed.nodup_keys_upsert ?_ ?_ m.nodup
    · exact fun _ _ => rfl
    · rfl

def delete (m : OrderedMap κ α) (k : κ) : OrderedMap κ α where
  entries := m.entries.filter fun e => e.1 ≠ k
  nodup := m.nodup.sublist (List.filter_sublist.map Prod.fst)

def keys (m : OrderedMap κ α) : List κ := m.entries.map Prod.fst

def values (m : OrderedMap κ α) : List α := m.entries.map Prod.snd

def size (m : OrderedMap κ α) : ℕ := m.entries.length

/-- The map of a list of pairs, set in order. -/
def ofList (ps : List (κ × α)) : OrderedMap κ α := ps.foldl (fun m p => m.set p.1 p.2) empty

@[simp] theorem get_empty (k : κ) : (empty : OrderedMap κ α).get k = none := rfl

theorem get_set_self (m : OrderedMap κ α) (k : κ) (v : α) : (m.set k v).get k = some v := by
  have hk : ∀ e : κ × α, e.1 = k → ((fun _ => (k, v)) e : κ × α).1 = k := fun _ _ => rfl
  simp only [get, set, Keyed.lookup_upsert_self hk]
  cases Keyed.lookup Prod.fst k m.entries <;> rfl

theorem get_set_other (m : OrderedMap κ α) {k k' : κ} (v : α) (h : k' ≠ k) :
    (m.set k v).get k' = m.get k' := by
  have hk : ∀ e : κ × α, e.1 = k → ((fun _ => (k, v)) e : κ × α).1 = k := fun _ _ => rfl
  have hv : Prod.fst (k, v) = k := rfl
  simp only [get, set, Keyed.lookup_upsert_other hk hv h]

theorem get_set (m : OrderedMap κ α) (k k' : κ) (v : α) :
    (m.set k v).get k' = if k' = k then some v else m.get k' := by
  split_ifs with h
  · rw [h, get_set_self]
  · exact get_set_other m v h

theorem get_of_mem {m : OrderedMap κ α} {e : κ × α} (he : e ∈ m.entries) :
    m.get e.1 = some e.2 := by
  rw [get, Keyed.lookup_of_mem m.nodup he, Option.map_some]

theorem mem_values_of_get {m : OrderedMap κ α} {k : κ} {v : α} (h : m.get k = some v) :
    v ∈ m.values := by
  obtain ⟨e, he, rfl⟩ := Option.map_eq_some_iff.mp h
  exact List.mem_map_of_mem (Keyed.mem_of_lookup he)

theorem keys_set (m : OrderedMap κ α) (k : κ) (v : α) :
    (m.set k v).keys = if k ∈ m.keys then m.keys else m.keys ++ [k] := by
  refine Keyed.keys_upsert ?_ ?_ m.entries
  · exact fun _ _ => rfl
  · rfl

theorem mem_keys_iff {m : OrderedMap κ α} {k : κ} : k ∈ m.keys ↔ ∃ v, m.get k = some v := by
  constructor
  · intro hk
    obtain ⟨e, he, rfl⟩ := List.mem_map.mp hk
    exact ⟨e.2, get_of_mem he⟩
  · rintro ⟨v, hv⟩
    obtain ⟨e, he, -⟩ := Option.map_eq_some_iff.mp hv
    exact List.mem_map.mpr ⟨e, Keyed.mem_of_lookup he, Keyed.key_of_lookup he⟩

omit [DecidableEq κ] in
theorem length_keys (m : OrderedMap κ α) : m.keys.length = m.size := List.length_map _

/-! ## Deleting keys while iterating over them -/

/-- Delete the keys of the list that satisfy `p`. -/
theorem entries_foldl_delete (p : κ → Bool) (ks : List κ) (m : OrderedMap κ α) :
    (ks.foldl (fun m k => if p k then m.delete k else m) m).entries =
      m.entries.filter fun e => !(p e.1 && decide (e.1 ∈ ks)) := by
  -- the keys to come are looked for in the map that the deletions so far have left
  induction ks generalizing m with
  | nil => simp
  | cons k ks ih =>
    rw [List.foldl_cons, ih]
    by_cases hk : p k = true
    · rw [if_pos hk, delete, List.filter_filter]
      refine List.filter_congr fun e _ => ?_
      by_cases he : e.1 = k
      · simp [he, hk]
      · simp [he]
    · rw [if_neg hk]
      refine List.filter_congr fun e _ => ?_
      by_cases he : e.1 = k
      · simp [he, hk]
      · simp [he]

/-- The keys that are left when those that satisfy `p` are deleted. -/
theorem keys_sweep (p : κ → Bool) (m : OrderedMap κ α) :
    (m.keys.foldl (fun m k => if p k then m.delete k else m) m).keys =
      m.keys.filter fun k => !p k := by
  rw [keys, entries_foldl_delete, keys, List.filter_map]
  refine congrArg _ (List.filter_congr fun e he => ?_)
  simp [List.mem_map_of_mem he]

/-- The values that are left when the keys that satisfy `p` are deleted. -/
theorem get_sweep (p : κ → Bool) (m : OrderedMap κ α) {k : κ} (hk : p k = false) :
    (m.keys.foldl (fun m k => if p k then m.delete k else m) m).get k = m.get k := by
  rw [get, entries_foldl_delete, get, Keyed.lookup, Keyed.lookup, List.find?_filter]
  congr 2
  funext e
  by_cases he : e.1 = k
  · simp [he, hk]
  · simp [he]

/-- The map of a list of pairs holds the last value of each key. -/
theorem get_ofList (ps : List (κ × α)) (k : κ) :
    (ofList ps).get k = (Keyed.lookup Prod.fst k ps.reverse).map Prod.snd := by
  -- the last pair is set last, and comes first in the reversed list
  induction ps using List.reverseRecOn with
  | nil => rfl
  | append_singleton ps p ih =>
    have hset : ofList (ps ++ [p]) = (ofList ps).set p.1 p.2 := by
      simp [ofList, List.foldl_append]
    rw [hset, get_set, List.reverse_append, List.reverse_singleton, List.singleton_append,
      Keyed.lookup_cons, ih]
    by_cases h : p.1 = k
    · simp [h]
    · simp [h, Ne.symm h]

end OrderedMap
