import Mathlib.Data.List.Forall2
import Mathlib.Data.List.Induction
import Mathlib.Data.List.Nodup
import Mathlib.Logic.Function.Basic

/-!
# Lists of records as maps

A list of records with a key field is a map from keys to records: a lookup scans for the first
record with the key. An upsert updates that record in place, or appends a fresh record when there
is none; an update changes the record if there is one. On lists with distinct keys these are the
operations of a finite map, and a sequence of writes leaves at every key the last value written.

## Main definitions

* `lookup key k xs`: the first record with the key `k`
* `upsert key k f fresh xs`, `update key k f xs`: change the first record with the key `k`, and
  for `upsert` append `fresh` when there is none
* `indices p xs`: the positions of the records with the property `p`

## Main results

* `lookup_upsert_self`, `lookup_upsert_other`: an upsert is the update of a map at one key
* `lookup_perm`: on distinct keys the order of the records does not matter
* `nodup_keys_upsert`: an upsert keeps keys distinct
* `filter_update_of_pos`, `filter_upsert_of_pos` and the like: changes inside and outside a
  selection of the records
* `rel_find?`, `rel_update`, `rel_upsert`: the operations on lists that are related record by record
* `filterMap_indices`: reading the positions of the records with a property selects the records
-/

namespace Keyed

variable {α κ : Type} [DecidableEq κ] (key : α → κ)

/-- The first record with the key `k`. -/
def lookup (k : κ) (xs : List α) : Option α := xs.find? fun x => key x = k

/-- Change the first record with the key `k`; append `fresh` when there is none. -/
def upsert (k : κ) (f : α → α) (fresh : α) : List α → List α
  | [] => [fresh]
  | x :: xs => if key x = k then f x :: xs else x :: upsert k f fresh xs

/-- Change the first record with the key `k`, if there is one. -/
def update (k : κ) (f : α → α) : List α → List α
  | [] => []
  | x :: xs => if key x = k then f x :: xs else x :: update k f xs

variable {key}

@[simp] theorem lookup_nil (k : κ) : lookup key k [] = none := rfl

theorem lookup_cons (k : κ) (x : α) (xs : List α) :
    lookup key k (x :: xs) = if key x = k then some x else lookup key k xs := by
  by_cases h : key x = k <;> simp [lookup, h]

theorem key_of_lookup {k : κ} {xs : List α} {x : α} (h : lookup key k xs = some x) :
    key x = k := by
  simpa using List.find?_some h

theorem mem_of_lookup {k : κ} {xs : List α} {x : α} (h : lookup key k xs = some x) : x ∈ xs :=
  List.mem_of_find?_eq_some h

theorem lookup_append (k : κ) (xs ys : List α) :
    lookup key k (xs ++ ys) = (lookup key k xs).or (lookup key k ys) :=
  List.find?_append

theorem lookup_eq_none {k : κ} {xs : List α} :
    lookup key k xs = none ↔ ∀ x ∈ xs, key x ≠ k := by
  simp [lookup]

/-- On distinct keys a record is found under its own key. -/
theorem lookup_of_mem {xs : List α} (hn : (xs.map key).Nodup) {x : α} (hx : x ∈ xs) :
    lookup key (key x) xs = some x := by
  induction xs with
  | nil => simp at hx
  | cons y xs ih =>
    rw [List.map_cons, List.nodup_cons] at hn
    rw [lookup_cons]
    rcases List.mem_cons.mp hx with rfl | hx
    · simp
    · -- an earlier record has another key
      have hne : key y ≠ key x := fun he => hn.1 (he ▸ List.mem_map_of_mem hx)
      rw [if_neg hne, ih hn.2 hx]

/-- On distinct keys a record is the only one with its key. -/
theorem filter_of_lookup {xs : List α} (hn : (xs.map key).Nodup) {k : κ} {x : α}
    (h : lookup key k xs = some x) : (xs.filter fun y => key y = k) = [x] := by
  induction xs with
  | nil => cases h
  | cons y xs ih =>
    rw [List.map_cons, List.nodup_cons] at hn
    rw [lookup_cons] at h
    split_ifs at h with hk
    · obtain rfl := Option.some.inj h
      have hothers : (xs.filter fun z => key z = k) = [] := by
        rw [List.filter_eq_nil_iff]
        intro z hz hzk
        exact hn.1 (List.mem_map.mpr ⟨z, hz, (of_decide_eq_true hzk).trans hk.symm⟩)
      rw [List.filter_cons, if_pos (decide_eq_true hk), hothers]
    · rw [List.filter_cons, if_neg (by simpa using hk), ih hn.2 h]

theorem eq_of_mem_of_key {xs : List α} (hn : (xs.map key).Nodup) {x y : α} (hx : x ∈ xs)
    (hy : y ∈ xs) (he : key x = key y) : x = y := by
  have hx' := lookup_of_mem hn hx
  rw [he, lookup_of_mem hn hy] at hx'
  exact (Option.some.inj hx').symm

theorem lookup_eq_some_iff {xs : List α} (hn : (xs.map key).Nodup) {k : κ} {x : α} :
    lookup key k xs = some x ↔ x ∈ xs ∧ key x = k :=
  ⟨fun h => ⟨mem_of_lookup h, key_of_lookup h⟩, fun ⟨hx, hk⟩ => hk ▸ lookup_of_mem hn hx⟩

/-- On distinct keys the order of the records does not matter. -/
theorem lookup_perm {xs ys : List α} (h : xs.Perm ys) (hn : (xs.map key).Nodup) (k : κ) :
    lookup key k xs = lookup key k ys := by
  refine Option.ext fun x => ?_
  rw [lookup_eq_some_iff hn, lookup_eq_some_iff ((h.map key).nodup_iff.mp hn), h.mem_iff]

section Upsert

variable {k : κ} {f : α → α} {fresh : α}

/-- After an upsert the key holds the updated record, or the fresh one. -/
theorem lookup_upsert_self (hf : ∀ x, key x = k → key (f x) = k) (hfresh : key fresh = k)
    (xs : List α) :
    lookup key k (upsert key k f fresh xs) = some ((lookup key k xs).elim fresh f) := by
  induction xs with
  | nil => simp [upsert, lookup_cons, hfresh]
  | cons x xs ih =>
    rw [upsert, lookup_cons k x xs]
    split_ifs with hk
    · rw [lookup_cons, if_pos (hf x hk), Option.elim_some]
    · rw [lookup_cons, if_neg hk, ih]

/-- An upsert leaves the other keys alone. -/
theorem lookup_upsert_other (hf : ∀ x, key x = k → key (f x) = k) (hfresh : key fresh = k)
    {k' : κ} (hne : k' ≠ k) (xs : List α) :
    lookup key k' (upsert key k f fresh xs) = lookup key k' xs := by
  induction xs with
  | nil => simp [upsert, lookup_cons, hfresh, hne.symm]
  | cons x xs ih =>
    rw [upsert]
    split_ifs with hk
    · rw [lookup_cons, lookup_cons, hf x hk, hk]
      simp [hne.symm]
    · rw [lookup_cons, lookup_cons, ih]

theorem mem_upsert {xs : List α} {y : α} (h : y ∈ upsert key k f fresh xs) :
    y ∈ xs ∨ (∃ x ∈ xs, key x = k ∧ y = f x) ∨ y = fresh := by
  induction xs with
  | nil => exact .inr (.inr (by simpa [upsert] using h))
  | cons x xs ih =>
    rw [upsert] at h
    split_ifs at h with hk
    · rcases List.mem_cons.mp h with rfl | h
      · exact .inr (.inl ⟨x, by simp, hk, rfl⟩)
      · exact .inl (List.mem_cons_of_mem _ h)
    · rcases List.mem_cons.mp h with rfl | h
      · exact .inl (by simp)
      · rcases ih h with h | ⟨z, hz, hk', rfl⟩ | rfl
        · exact .inl (List.mem_cons_of_mem _ h)
        · exact .inr (.inl ⟨z, List.mem_cons_of_mem _ hz, hk', rfl⟩)
        · exact .inr (.inr rfl)

/-- The keys after an upsert: the key is appended when it is new. -/
theorem keys_upsert (hf : ∀ x, key x = k → key (f x) = k) (hfresh : key fresh = k)
    (xs : List α) :
    (upsert key k f fresh xs).map key =
      if k ∈ xs.map key then xs.map key else xs.map key ++ [k] := by
  induction xs with
  | nil => simp [upsert, hfresh]
  | cons x xs ih =>
    rw [upsert]
    by_cases hk : key x = k
    · simp [hk, hf x hk]
    · simp only [if_neg hk, List.map_cons, ih, List.mem_cons, Ne.symm hk, false_or]
      split_ifs <;> simp

theorem nodup_keys_upsert (hf : ∀ x, key x = k → key (f x) = k) (hfresh : key fresh = k)
    {xs : List α} (hn : (xs.map key).Nodup) : ((upsert key k f fresh xs).map key).Nodup := by
  rw [keys_upsert hf hfresh]
  split_ifs with hk
  · exact hn
  · exact List.nodup_append.mpr ⟨hn, by simp, by
      rintro a ha b hb rfl
      exact hk (List.mem_singleton.mp hb ▸ ha)⟩

end Upsert

section Update

variable {k : κ} {f : α → α}

/-- A field that the change leaves alone is left alone in the whole list. -/
theorem map_update {β : Type} {g : α → β} (hg : ∀ x, key x = k → g (f x) = g x) (xs : List α) :
    (update key k f xs).map g = xs.map g := by
  induction xs with
  | nil => rfl
  | cons x xs ih =>
    rw [update]
    split_ifs with hk
    · simp [hg x hk]
    · simp [ih]

theorem lookup_update_self (hf : ∀ x, key x = k → key (f x) = k) (xs : List α) :
    lookup key k (update key k f xs) = (lookup key k xs).map f := by
  induction xs with
  | nil => rfl
  | cons x xs ih =>
    rw [update, lookup_cons k x xs]
    split_ifs with hk
    · rw [lookup_cons, if_pos (hf x hk), Option.map_some]
    · rw [lookup_cons, if_neg hk, ih]

/-- With distinct keys, every record with the key is updated. -/
theorem update_eq_map {xs : List α} (hn : (xs.map key).Nodup) :
    update key k f xs = xs.map fun x => if key x = k then f x else x := by
  induction xs with
  | nil => rfl
  | cons x xs ih =>
    obtain ⟨hx, hn⟩ := List.nodup_cons.mp hn
    rw [update, List.map_cons]
    split_ifs with hk
    · -- no later record has the key
      have hothers : ∀ y ∈ xs, (if key y = k then f y else y) = y := by
        intro y hy
        rw [if_neg]
        intro hyk
        exact hx (List.mem_map.mpr ⟨y, hy, hyk.trans hk.symm⟩)
      rw [List.map_congr_left hothers, List.map_id']
    · rw [ih hn]

/-- An update that leaves the record with the key alone. -/
theorem update_eq_self {xs : List α} (hf : ∀ x, lookup key k xs = some x → f x = x) :
    update key k f xs = xs := by
  induction xs with
  | nil => rfl
  | cons x xs ih =>
    rw [update]
    split_ifs with hk
    · rw [hf x (by rw [lookup_cons, if_pos hk])]
    · rw [ih fun y hy => hf y (by rw [lookup_cons, if_neg hk, hy])]

theorem lookup_update_other {k' : κ} (hne : k' ≠ k) (hf : ∀ x, key x = k → key (f x) = k)
    (xs : List α) : lookup key k' (update key k f xs) = lookup key k' xs := by
  induction xs with
  | nil => rfl
  | cons x xs ih =>
    rw [update, lookup_cons k' x xs]
    split_ifs with hk hk' hk'
    · exact absurd (hk'.symm.trans hk) hne
    · rw [lookup_cons, if_neg (by rw [hf x hk]; exact hne.symm)]
    · rw [lookup_cons, if_pos hk']
    · rw [lookup_cons, if_neg hk', ih]

end Update

section Filter

variable {k : κ} {f : α → α} {fresh : α} {p : α → Bool}

/-- An update inside a selection that contains every record with the key. -/
theorem filter_update_of_pos {xs : List α} (hp : ∀ x ∈ xs, key x = k → p x = true)
    (hf : ∀ x, key x = k → p (f x) = p x) :
    (update key k f xs).filter p = update key k f (xs.filter p) := by
  induction xs with
  | nil => rfl
  | cons x xs ih =>
    have ih := ih fun y hy => hp y (List.mem_cons_of_mem _ hy)
    by_cases hk : key x = k
    · have hx : p x = true := hp x (by simp) hk
      simp [update, hk, hx, hf x hk]
    · by_cases hx : p x = true <;> simp [update, hk, hx, ih]

/-- An update outside a selection that contains no record with the key. -/
theorem filter_update_of_neg {xs : List α} (hp : ∀ x ∈ xs, key x = k → p x = false)
    (hf : ∀ x, key x = k → p (f x) = p x) : (update key k f xs).filter p = xs.filter p := by
  induction xs with
  | nil => rfl
  | cons x xs ih =>
    have ih := ih fun y hy => hp y (List.mem_cons_of_mem _ hy)
    by_cases hk : key x = k
    · have hx : p x = false := hp x (by simp) hk
      simp [update, hk, hx, hf x hk]
    · by_cases hx : p x = true <;> simp [update, hk, hx, ih]

/-- An upsert inside a selection that contains every record with the key. -/
theorem filter_upsert_of_pos (xs : List α) (hp : ∀ x, key x = k → p x = true)
    (hf : ∀ x, key x = k → p (f x) = true) (hfresh : p fresh = true) :
    (upsert key k f fresh xs).filter p = upsert key k f fresh (xs.filter p) := by
  induction xs with
  | nil => simp [upsert, hfresh]
  | cons x xs ih =>
    by_cases hk : key x = k
    · simp [upsert, hk, hp x hk, hf x hk]
    · by_cases hx : p x = true <;> simp [upsert, hk, hx, ih]

/-- An upsert outside a selection that contains no record with the key. -/
theorem filter_upsert_of_neg (xs : List α) (hp : ∀ x, key x = k → p x = false)
    (hf : ∀ x, key x = k → p (f x) = false) (hfresh : p fresh = false) :
    (upsert key k f fresh xs).filter p = xs.filter p := by
  induction xs with
  | nil => simp [upsert, hfresh]
  | cons x xs ih =>
    by_cases hk : key x = k
    · simp [upsert, hk, hp x hk, hf x hk]
    · by_cases hx : p x = true <;> simp [upsert, hk, hx, ih]

/-- A search for what a selection contains finds the same in lists with the same selection. -/
theorem find?_eq_of_filter_eq {q : α → Bool} {xs ys : List α} (h : xs.filter p = ys.filter p)
    (hx : ∀ x ∈ xs, q x = true → p x = true) (hy : ∀ y ∈ ys, q y = true → p y = true) :
    xs.find? q = ys.find? q := by
  -- what the search rejects anyway can be filtered out first
  have hsplit : ∀ zs : List α, (∀ z ∈ zs, q z = true → p z = true) →
      zs.find? q = (zs.filter p).find? q := by
    intro zs hz
    rw [← List.head?_filter, ← List.head?_filter, List.filter_filter]
    congr 1
    refine List.filter_congr fun z hmem => ?_
    cases hq : q z with
    | true => simp [hz z hmem hq]
    | false => simp
  rw [hsplit xs hx, hsplit ys hy, h]

end Filter

/-! ## Related lists -/

section Related

open List

variable {β κ' : Type} [DecidableEq κ'] {key' : β → κ'} {R : α → β → Prop} {xs : List α}
  {ys : List β} {k : κ} {k' : κ'} {f : α → α} {f' : β → β}

/-- Related results are both missing or both there. -/
theorem rel_cases {x : Option α} {y : Option β} (h : Option.Rel R x y) :
    (x = none ∧ y = none) ∨ ∃ a b, x = some a ∧ y = some b ∧ R a b := by
  cases h with
  | none => exact .inl ⟨rfl, rfl⟩
  | some hab => exact .inr ⟨_, _, rfl, rfl, hab⟩

theorem rel_find? {p : α → Bool} {q : β → Bool} (hpq : ∀ x y, R x y → p x = q y)
    (h : Forall₂ R xs ys) : Option.Rel R (xs.find? p) (ys.find? q) := by
  induction h with
  | nil => exact .none
  | @cons x y xs ys hxy _ ih =>
    rw [find?_cons, find?_cons, ← hpq x y hxy]
    cases p x with
    | true => exact .some hxy
    | false => exact ih

theorem rel_lookup (hk : ∀ x y, R x y → (key x = k ↔ key' y = k')) (h : Forall₂ R xs ys) :
    Option.Rel R (lookup key k xs) (lookup key' k' ys) :=
  rel_find? (fun x y hxy => decide_eq_decide.mpr (hk x y hxy)) h

theorem rel_update (hk : ∀ x y, R x y → (key x = k ↔ key' y = k'))
    (hf : ∀ x y, R x y → key x = k → R (f x) (f' y)) (h : Forall₂ R xs ys) :
    Forall₂ R (update key k f xs) (update key' k' f' ys) := by
  induction h with
  | nil => exact .nil
  | @cons x y xs ys hxy hrest ih =>
    rw [update, update]
    by_cases hx : key x = k
    · rw [if_pos hx, if_pos ((hk x y hxy).mp hx)]
      exact .cons (hf x y hxy hx) hrest
    · rw [if_neg hx, if_neg (hx ∘ (hk x y hxy).mpr)]
      exact .cons hxy ih

theorem rel_upsert {fresh : α} {fresh' : β} (hk : ∀ x y, R x y → (key x = k ↔ key' y = k'))
    (hf : ∀ x y, R x y → key x = k → R (f x) (f' y)) (hfresh : R fresh fresh')
    (h : Forall₂ R xs ys) :
    Forall₂ R (upsert key k f fresh xs) (upsert key' k' f' fresh' ys) := by
  induction h with
  | nil => exact .cons hfresh .nil
  | @cons x y xs ys hxy hrest ih =>
    rw [upsert, upsert]
    by_cases hx : key x = k
    · rw [if_pos hx, if_pos ((hk x y hxy).mp hx)]
      exact .cons (hf x y hxy hx) hrest
    · rw [if_neg hx, if_neg (hx ∘ (hk x y hxy).mpr)]
      exact .cons hxy ih

end Related

section Positions

/-- Reading the position of a key reads its record. -/
theorem findIdx?_bind_getElem? (p : α → Bool) (xs : List α) :
    (xs.findIdx? p).bind (xs[·]?) = xs.find? p := by
  rw [List.find?_eq_bind_findIdx?_getElem?]

/-- The position of a key, read after the update of its record. -/
theorem findIdx?_bind_getElem?_update {k : κ} {f : α → α} (xs : List α) :
    (xs.findIdx? fun x => key x = k).bind ((update key k f xs)[·]?) =
      (lookup key k xs).map f := by
  induction xs with
  | nil => rfl
  | cons x xs ih =>
    rw [lookup_cons, update, List.findIdx?_cons]
    by_cases hk : key x = k
    · simp [hk]
    · simpa [hk, Option.bind_map, Function.comp_def] using ih

/-- The position of a key, read after the upsert of its record. -/
theorem getElem?_findIdx_upsert {k : κ} {f : α → α} {fresh : α} (xs : List α) :
    (upsert key k f fresh xs)[xs.findIdx fun x => key x = k]? =
      some ((lookup key k xs).elim fresh f) := by
  induction xs with
  | nil => rfl
  | cons x xs ih =>
    rw [lookup_cons, upsert, List.findIdx_cons]
    by_cases hk : key x = k
    · simp [hk]
    · simpa [hk] using ih

end Positions

section Indices

/-- The positions of the records with the property `p`, in order. -/
def indices (p : α → Bool) (xs : List α) : List ℕ :=
  (List.range xs.length).filter fun i => (xs[i]?).any p

/-- Reading the positions of the records with a property selects the records. -/
theorem filterMap_indices (p : α → Bool) (xs : List α) :
    (indices p xs).filterMap (xs[·]?) = xs.filter p := by
  induction xs using List.reverseRecOn with
  | nil => rfl
  | append_singleton xs x ih =>
    have hlt : ∀ i ∈ List.range xs.length, (xs ++ [x])[i]? = xs[i]? := fun i hi =>
      List.getElem?_append_left (List.mem_range.mp hi)
    have hinit : (List.range xs.length).filter (fun i => ((xs ++ [x])[i]?).any p) =
        indices p xs := List.filter_congr fun i hi => by rw [hlt i hi]
    have hread : (indices p xs).filterMap ((xs ++ [x])[·]?) = xs.filter p := by
      rw [← ih]
      exact List.filterMap_congr fun i hi => hlt i (List.mem_of_mem_filter hi)
    rw [indices, List.length_append, List.length_singleton, List.range_succ, List.filter_append,
      hinit, List.filterMap_append, hread, List.filter_append]
    by_cases hp : p x <;> simp [hp]

end Indices

end Keyed
