import Mathlib.Data.List.Induction
import Mathlib.Data.List.Perm.Lattice
import FixedSupply.Proofs.StorageLaws

/-!
# Storages as finite maps

The entries of a storage ascend, so it is determined by what its keys hold. A storage made of a list
of pairs holds under a key the value of the last pair with that key, and a storage is made again of its
own entries.
-/

namespace FixedSupply

namespace Entries

lemma mem_iff_find? {entries : List (Bytes × Bytes)} (h : Sorted entries) (key value : Bytes) :
    (key, value) ∈ entries ↔
      (entries.find? fun entry => entry.1 == key).map (·.2) = some value := by
  induction entries with
  | nil => simp
  | cons first rest ih =>
    obtain ⟨hfirst, hrest⟩ := List.pairwise_cons.mp h
    rw [List.mem_cons]
    by_cases hkey : first.1 = key
    · have hnot : (key, value) ∉ rest := by
        intro hmem
        have hlt : first.1 < key := hfirst (key, value) hmem
        rw [hkey] at hlt
        exact List.lt_irrefl key hlt
      have hfound : first = (key, first.2) := Prod.ext hkey rfl
      rw [List.find?_cons_of_pos (by simpa using hkey), hfound]
      simp [hnot, eq_comm]
    · have hne : (key, value) ≠ first := fun he => hkey (congrArg Prod.fst he).symm
      rw [List.find?_cons_of_neg (by simpa using hkey), ← ih hrest]
      simp [hne]

lemma Sorted.nodup {entries : List (Bytes × Bytes)} (h : Sorted entries) : entries.Nodup := by
  apply h.imp
  intro a b hlt he
  rw [he] at hlt
  exact List.lt_irrefl b.1 hlt

/-- Entries with the same members are listed in the same order. -/
lemma Sorted.eq_of_mem_iff {a b : List (Bytes × Bytes)} (ha : Sorted a) (hb : Sorted b)
    (h : ∀ entry, entry ∈ a ↔ entry ∈ b) : a = b := by
  have hperm : a.Perm b := (List.perm_ext_iff_of_nodup ha.nodup hb.nodup).mpr h
  apply hperm.eq_of_pairwise _ ha hb
  intro x y _ _ hxy hyx
  exact absurd (List.lt_trans hxy hyx) (List.lt_irrefl x.1)

/-- A pair whose key comes last is put at the end. -/
lemma insert_of_lt {key : Bytes} (value : Bytes) {entries : List (Bytes × Bytes)}
    (h : ∀ entry ∈ entries, entry.1 < key) : insert key value entries = entries ++ [(key, value)] := by
  induction entries with
  | nil => rfl
  | cons first rest ih =>
    have hfirst : first.1 < key := h first List.mem_cons_self
    have hnot : ¬key < first.1 := fun hlt => List.lt_irrefl key (List.lt_trans hlt hfirst)
    have hne : key ≠ first.1 := by
      intro he
      rw [← he] at hfirst
      exact List.lt_irrefl key hfirst
    rw [insert, if_neg hnot, if_neg hne, ih fun entry hentry => h entry (List.mem_cons_of_mem _ hentry)]
    rfl

end Entries

namespace Storage

lemma eq_of_entries {a b : Storage} (h : a.entries = b.entries) : a = b := by
  cases a
  cases b
  cases h
  rfl

theorem ext_get? {a b : Storage} (h : ∀ key, a.get? key = b.get? key) : a = b := by
  apply eq_of_entries
  apply a.sorted.eq_of_mem_iff b.sorted
  rintro ⟨key, value⟩
  rw [Entries.mem_iff_find? a.sorted, Entries.mem_iff_find? b.sorted]
  exact Eq.congr_left (h key)

lemma ofList_concat (pairs : List (Bytes × Bytes)) (pair : Bytes × Bytes) :
    ofList (pairs ++ [pair]) = (ofList pairs).insert pair.1 pair.2 := by
  simp [ofList]

lemma getLast?_filter_concat (pairs : List (Bytes × Bytes)) (pair : Bytes × Bytes) (key : Bytes) :
    ((pairs ++ [pair]).filter fun pair => pair.1 == key).getLast? =
      if key = pair.1 then some pair else (pairs.filter fun pair => pair.1 == key).getLast? := by
  rw [List.filter_append]
  by_cases h : key = pair.1
  · simp [h]
  · have hne : (pair.1 == key) = false := by simpa using Ne.symm h
    simp [h, hne]

/-- Of the pairs with one key the last wins. -/
theorem get?_ofList (pairs : List (Bytes × Bytes)) (key : Bytes) :
    (ofList pairs).get? key = (pairs.filter fun pair => pair.1 == key).getLast?.map (·.2) := by
  induction pairs using List.reverseRecOn with
  | nil => rfl
  | append_singleton pairs pair ih =>
    rw [ofList_concat, get?_insert, ih, getLast?_filter_concat]
    by_cases h : key = pair.1
    · simp [h]
    · simp [h]

lemma entries_ofList {pairs : List (Bytes × Bytes)} (h : Entries.Sorted pairs) :
    (ofList pairs).entries = pairs := by
  induction pairs using List.reverseRecOn with
  | nil => rfl
  | append_singleton pairs pair ih =>
    obtain ⟨hpairs, -, hlast⟩ := List.pairwise_append.mp h
    have hlt : ∀ entry ∈ pairs, entry.1 < pair.1 := fun entry hentry =>
      hlast entry hentry pair List.mem_cons_self
    rw [ofList_concat, Storage.insert]
    simp only [ih hpairs]
    exact Entries.insert_of_lt pair.2 hlt

theorem ofList_entries (storage : Storage) : ofList storage.entries = storage :=
  eq_of_entries (entries_ofList storage.sorted)

end Storage

end FixedSupply
