import FixedSupply.Proofs.StorageContents

/-!
# The last write to a key

A list of writes is read key by key: what a key holds afterwards depends on the value that was written last
under it, and on what it held before only where none was written.
-/

namespace FixedSupply

/-- A key and the value that is written under it. -/
abbrev Write := Bytes × Bytes

namespace Write

/-- The value that was written last under a key, if any was. -/
def last? (writes : List Write) (key : Bytes) : Option Bytes :=
  (writes.filter fun write => write.1 == key).getLast?.map (·.2)

/-- The value that was written last under a key, empty if none was. -/
def last (writes : List Write) (key : Bytes) : Bytes :=
  (last? writes key).getD []

lemma last?_concat (writes : List Write) (write : Write) (key : Bytes) :
    last? (writes ++ [write]) key = if key = write.1 then some write.2 else last? writes key := by
  unfold last?
  rw [Storage.getLast?_filter_concat]
  by_cases h : key = write.1
  · simp [h]
  · simp [h]

end Write

namespace Storage

/-- The storage after these writes, one after the other. -/
def storeAll (storage : Storage) (writes : List Write) : Storage :=
  writes.foldl (fun storage write => storage.store write.1 write.2) storage

lemma storeAll_append (storage : Storage) (front back : List Write) :
    storage.storeAll (front ++ back) = (storage.storeAll front).storeAll back :=
  List.foldl_append

/-- The last value under a key stands there, unless it is empty; a key without a write keeps what it
held. -/
theorem get?_storeAll (storage : Storage) (writes : List Write) (key : Bytes) :
    (storage.storeAll writes).get? key =
      (Write.last? writes key).elim (storage.get? key) fun value =>
        if value = [] then none else some value := by
  induction writes using List.reverseRecOn with
  | nil => rfl
  | append_singleton writes write ih =>
    have hlast : storage.storeAll (writes ++ [write]) =
        (storage.storeAll writes).store write.1 write.2 := storage.storeAll_append writes [write]
    rw [hlast, get?_store, ih, Write.last?_concat]
    by_cases hkey : key = write.1
    · rw [if_pos hkey, if_pos hkey, Option.elim_some]
    · rw [if_neg hkey, if_neg hkey]

end Storage

end FixedSupply
