import Mathlib.Tactic.Lemma
import FixedSupply.Storage

/-!
# Reading a storage after a write

What a key holds after a write: the written value under the written key, and what was there before
under every other one. Storing an empty value reads back as the empty value as well, because an absent
key is read as no bytes.
-/

namespace FixedSupply

open Entries

namespace Entries

theorem find?_insert (key value other : Bytes) (entries : List (Bytes × Bytes)) :
    (insert key value entries).find? (fun entry => entry.1 == other) =
      if other = key then some (key, value)
      else entries.find? (fun entry => entry.1 == other) := by
  have hnew (tail : List (Bytes × Bytes)) :
      ((key, value) :: tail).find? (fun entry => entry.1 == other) =
        if other = key then some (key, value) else tail.find? (fun entry => entry.1 == other) := by
    by_cases h : other = key
    · rw [if_pos h, List.find?_cons_of_pos (by simpa using h.symm)]
    · rw [if_neg h, List.find?_cons_of_neg (by simpa using Ne.symm h)]
  induction entries with
  | nil => exact hnew []
  | cons first rest ih =>
    rw [insert]
    by_cases hlt : key < first.1
    · rw [if_pos hlt, hnew]
    · rw [if_neg hlt]
      by_cases heq : key = first.1
      · rw [if_pos heq, hnew]
        by_cases h : other = key
        · rw [if_pos h, if_pos h]
        · rw [if_neg h, if_neg h, List.find?_cons_of_neg (by simpa [← heq] using Ne.symm h)]
      · rw [if_neg heq]
        by_cases hfirst : first.1 = other
        · have h : other ≠ key := fun h => heq (h.symm.trans hfirst.symm)
          rw [if_neg h, List.find?_cons_of_pos (by simpa using hfirst),
            List.find?_cons_of_pos (by simpa using hfirst)]
        · rw [List.find?_cons_of_neg (by simpa using hfirst), ih,
            List.find?_cons_of_neg (by simpa using hfirst)]

theorem find?_erase (key other : Bytes) (entries : List (Bytes × Bytes)) :
    (erase key entries).find? (fun entry => entry.1 == other) =
      if other = key then none else entries.find? (fun entry => entry.1 == other) := by
  rw [erase, List.find?_filter]
  by_cases h : other = key
  · subst h
    rw [if_pos rfl, List.find?_eq_none]
    intro entry _
    simp
  · rw [if_neg h]
    congr 1
    funext entry
    by_cases he : entry.1 = other
    · simp [he, h]
    · simp [he]

end Entries

namespace Storage

variable (storage : Storage) (key value other : Bytes)

lemma get?_insert :
    (storage.insert key value).get? other =
      if other = key then some value else storage.get? other := by
  rw [get?, Storage.insert, find?_insert]
  split
  · rfl
  · rfl

lemma get?_erase :
    (storage.erase key).get? other = if other = key then none else storage.get? other := by
  rw [get?, Storage.erase, find?_erase]
  split
  · rfl
  · rfl

lemma get?_store :
    (storage.store key value).get? other =
      if other = key then (if value = [] then none else some value) else storage.get? other := by
  rw [store]
  by_cases h : value = []
  · rw [if_pos (List.isEmpty_iff.mpr h), get?_erase, if_pos h]
  · rw [if_neg (fun he => h (List.isEmpty_iff.mp he)), get?_insert, if_neg h]

/-- A store is seen under its own key and under no other. -/
lemma load_store :
    (storage.store key value).load other = if other = key then value else storage.load other := by
  rw [load, get?_store]
  by_cases hkey : other = key
  · rw [if_pos hkey, if_pos hkey]
    by_cases h : value = []
    · rw [if_pos h, h, Option.getD_none]
    · rw [if_neg h, Option.getD_some]
  · rw [if_neg hkey, if_neg hkey, load]

@[simp] lemma load_store_self : (storage.store key value).load key = value := by
  rw [load_store, if_pos rfl]

variable {key other} in
lemma load_store_of_ne (h : other ≠ key) : (storage.store key value).load other = storage.load other := by
  rw [load_store, if_neg h]

end Storage

end FixedSupply
