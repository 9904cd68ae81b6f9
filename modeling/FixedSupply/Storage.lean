import FixedSupply.Amount

/-!
# Storage

The key-value storage of a host: pairs in strictly ascending order of their keys, so two storages with
the same entries are equal. `store` with an empty value removes the key; `insert` keeps the value
whatever it is, because a restored storage may hold empty values.
-/

namespace FixedSupply

namespace Entries

/-- The pairs stand in strictly ascending order of their keys. -/
def Sorted (entries : List (Bytes × Bytes)) : Prop :=
  entries.Pairwise fun a b => a.1 < b.1

/-- Puts a value under a key, in place of the one that was there. -/
def insert (key value : Bytes) : List (Bytes × Bytes) → List (Bytes × Bytes)
  | [] => [(key, value)]
  | entry :: rest =>
    if key < entry.1 then (key, value) :: entry :: rest
    else if key = entry.1 then (key, value) :: rest
    else entry :: insert key value rest

/-- Drops the entry under a key. -/
def erase (key : Bytes) (entries : List (Bytes × Bytes)) : List (Bytes × Bytes) :=
  entries.filter fun entry => entry.1 != key

theorem mem_insert {key value : Bytes} {entries : List (Bytes × Bytes)} {entry : Bytes × Bytes}
    (h : entry ∈ insert key value entries) : entry = (key, value) ∨ entry ∈ entries := by
  induction entries with
  | nil => simpa [insert] using h
  | cons first rest ih =>
    unfold insert at h
    split at h
    · simpa using h
    · split at h
      · rcases List.mem_cons.1 h with h | h
        · exact .inl h
        · exact .inr (List.mem_cons_of_mem _ h)
      · rcases List.mem_cons.1 h with h | h
        · exact .inr (h ▸ List.mem_cons_self)
        · exact (ih h).imp_right (List.mem_cons_of_mem _)

theorem Sorted.insert {entries : List (Bytes × Bytes)} (h : Sorted entries) (key value : Bytes) :
    Sorted (insert key value entries) := by
  induction entries with
  | nil => simp [Sorted, Entries.insert]
  | cons first rest ih =>
    have hfirst : ∀ entry ∈ rest, first.1 < entry.1 := (List.pairwise_cons.1 h).1
    have hrest : Sorted rest := (List.pairwise_cons.1 h).2
    unfold Entries.insert
    split
    next hlt =>
      refine List.pairwise_cons.2 ⟨fun entry hentry => ?_, h⟩
      rcases List.mem_cons.1 hentry with rfl | hentry
      · exact hlt
      · exact List.lt_trans hlt (hfirst entry hentry)
    next hlt =>
      split
      next heq => exact List.pairwise_cons.2 ⟨fun entry hentry => heq ▸ hfirst entry hentry, hrest⟩
      next hne =>
        refine List.pairwise_cons.2 ⟨fun entry hentry => ?_, ih hrest⟩
        rcases mem_insert hentry with rfl | hentry
        · exact Std.lt_of_le_of_ne (List.not_lt.1 hlt) (Ne.symm hne)
        · exact hfirst entry hentry

theorem Sorted.erase {entries : List (Bytes × Bytes)} (h : Sorted entries) (key : Bytes) :
    Sorted (erase key entries) :=
  List.Pairwise.filter _ h

end Entries

/-- A finite map from keys to values, listed in ascending order of the keys. -/
structure Storage where
  entries : List (Bytes × Bytes)
  sorted : Entries.Sorted entries
  deriving DecidableEq

namespace Storage

def empty : Storage :=
  ⟨[], .nil⟩

instance : EmptyCollection Storage := ⟨empty⟩

def get? (storage : Storage) (key : Bytes) : Option Bytes :=
  (storage.entries.find? fun entry => entry.1 == key).map (·.2)

/-- The value under a key, empty if there is none. -/
def load (storage : Storage) (key : Bytes) : Bytes :=
  (storage.get? key).getD []

/-- The storage with this value under the key, even an empty one. -/
def insert (storage : Storage) (key value : Bytes) : Storage :=
  ⟨Entries.insert key value storage.entries, storage.sorted.insert key value⟩

def erase (storage : Storage) (key : Bytes) : Storage :=
  ⟨Entries.erase key storage.entries, storage.sorted.erase key⟩

/-- The storage after a write: an empty value removes the key. -/
def store (storage : Storage) (key value : Bytes) : Storage :=
  if value.isEmpty then storage.erase key else storage.insert key value

/-- The storage with these pairs; of two with one key the later wins. -/
def ofList (pairs : List (Bytes × Bytes)) : Storage :=
  pairs.foldl (fun storage pair => storage.insert pair.1 pair.2) empty

/-- The accounts and their balances, in ascending order of the addresses. An account is an entry
whose key has the length of an address. -/
def accounts (storage : Storage) : List (Address × Amount) :=
  storage.entries.filterMap fun (key, value) =>
    (Bytes32.ofBytes? key).map fun address => (address, Amount.ofBytes value)

def sumOfBalances (storage : Storage) : Amount :=
  storage.accounts.foldl (fun sum account => sum + account.2) 0

end Storage

end FixedSupply
