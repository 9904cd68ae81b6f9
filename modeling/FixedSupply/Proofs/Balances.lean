import Mathlib.Algebra.BigOperators.Group.Finset.Piecewise
import Mathlib.Data.Fintype.Basic
import Mathlib.Data.Set.Finite.List
import Mathlib.Tactic.Ring
import FixedSupply.Proofs.AmountEncoding
import FixedSupply.Proofs.StorageLaws
import FixedSupply.Token

/-!
# Balances of a storage

What the ledger reads from a storage: the balance of every address, the supply, and whether it was
minted. The three live under different keys, so a write to one of them leaves the other two alone. The
sum over the listed accounts is the sum of the balances of all addresses, which a write to one
account moves by the difference of the two balances.
-/

namespace FixedSupply

open scoped BigOperators

namespace Bytes32

lemma bytes_injective : Function.Injective Bytes32.bytes := by
  rintro ⟨a, ha⟩ ⟨b, hb⟩ h
  subst h
  rfl

lemma ofBytes?_eq_some_iff {bytes : Bytes} {address : Bytes32} :
    ofBytes? bytes = some address ↔ address.bytes = bytes := by
  unfold ofBytes?
  constructor
  · intro h
    by_cases hlen : bytes.length = 32
    · rw [dif_pos hlen] at h
      exact Option.some.inj h ▸ rfl
    · rw [dif_neg hlen] at h
      exact absurd h (Option.some_ne_none address).symm
  · rintro rfl
    rw [dif_pos address.length_bytes]

lemma ofBytes?_eq_none_iff {bytes : Bytes} : ofBytes? bytes = none ↔ bytes.length ≠ 32 := by
  unfold ofBytes?
  by_cases hlen : bytes.length = 32
  · simp [hlen]
  · simp [hlen]

instance : Finite Bytes32 := by
  have : Finite UInt8 := Finite.of_injective UInt8.toFin fun a b h => UInt8.toFin_inj.mp h
  have hfin : Finite {bytes : Bytes // bytes.length = 32} :=
    (List.finite_length_eq UInt8 32).to_subtype
  let view (address : Bytes32) : {bytes : Bytes // bytes.length = 32} :=
    ⟨address.bytes, address.length_bytes⟩
  refine Finite.of_injective view ?_
  intro a b h
  exact bytes_injective (congrArg Subtype.val h)

noncomputable instance : Fintype Bytes32 := Fintype.ofFinite Bytes32

end Bytes32

namespace Token

lemma length_supplyKey : supplyKey.length = 18 := by decide

lemma length_mintedKey : mintedKey.length = 18 := by decide

lemma supplyKey_ne_mintedKey : supplyKey ≠ mintedKey := by decide

lemma balanceKey_ne_supplyKey (address : Address) : balanceKey address ≠ supplyKey := by
  intro h
  have hlen := congrArg List.length h
  rw [balanceKey, address.length_bytes, length_supplyKey] at hlen
  omega

lemma balanceKey_ne_mintedKey (address : Address) : balanceKey address ≠ mintedKey := by
  intro h
  have hlen := congrArg List.length h
  rw [balanceKey, address.length_bytes, length_mintedKey] at hlen
  omega

lemma balanceKey_injective : Function.Injective balanceKey := Bytes32.bytes_injective

end Token

lemma sum_update_add (balances : Address → Amount) (address : Address) (amount : Amount) :
    (∑ a, Function.update balances address amount a) + balances address =
      (∑ a, balances a) + amount := by
  rw [Finset.sum_update_of_mem (Finset.mem_univ address), Finset.sdiff_singleton_eq_erase,
    ← Finset.add_sum_erase Finset.univ balances (Finset.mem_univ address)]
  ring

namespace Storage

/-- The balance of an address, zero if nothing is stored under it. -/
def balance (storage : Storage) (address : Address) : Amount :=
  Amount.ofBytes (storage.load (Token.balanceKey address))

/-- The minted supply, zero if there is none. -/
def supply (storage : Storage) : Amount :=
  Amount.ofBytes (storage.load Token.supplyKey)

/-- The mark of a minted supply holds something. -/
def minted (storage : Storage) : Bool :=
  !(storage.load Token.mintedKey).isEmpty

def setBalance (storage : Storage) (address : Address) (amount : Amount) : Storage :=
  storage.store (Token.balanceKey address) (Amount.toBytes amount)

def setSupply (storage : Storage) (amount : Amount) : Storage :=
  storage.store Token.supplyKey (Amount.toBytes amount)

def markMinted (storage : Storage) : Storage :=
  storage.store Token.mintedKey Token.mintedFlag

variable (storage : Storage) (address : Address) (amount : Amount)

@[simp] lemma balance_empty : (∅ : Storage).balance = fun _ => 0 := rfl

@[simp] lemma sumOfBalances_empty : (∅ : Storage).sumOfBalances = 0 := rfl

@[simp] lemma balance_setBalance :
    (storage.setBalance address amount).balance =
      Function.update storage.balance address amount := by
  funext other
  unfold balance setBalance
  by_cases h : other = address
  · subst h
    rw [load_store_self, Amount.ofBytes_toBytes, Function.update_self]
  · rw [load_store_of_ne _ _ (fun hkey => h (Token.balanceKey_injective hkey)),
      Function.update_of_ne h]

@[simp] lemma supply_setBalance : (storage.setBalance address amount).supply = storage.supply := by
  unfold supply setBalance
  rw [load_store_of_ne _ _ (Token.balanceKey_ne_supplyKey address).symm]

@[simp] lemma minted_setBalance : (storage.setBalance address amount).minted = storage.minted := by
  unfold minted setBalance
  rw [load_store_of_ne _ _ (Token.balanceKey_ne_mintedKey address).symm]

@[simp] lemma balance_setSupply : (storage.setSupply amount).balance = storage.balance := by
  funext other
  unfold balance setSupply
  rw [load_store_of_ne _ _ (Token.balanceKey_ne_supplyKey other)]

@[simp] lemma supply_setSupply : (storage.setSupply amount).supply = amount := by
  unfold supply setSupply
  rw [load_store_self, Amount.ofBytes_toBytes]

@[simp] lemma balance_markMinted : storage.markMinted.balance = storage.balance := by
  funext other
  unfold balance markMinted
  rw [load_store_of_ne _ _ (Token.balanceKey_ne_mintedKey other)]

@[simp] lemma supply_markMinted : storage.markMinted.supply = storage.supply := by
  unfold supply markMinted
  rw [load_store_of_ne _ _ Token.supplyKey_ne_mintedKey]

@[simp] lemma minted_markMinted : storage.markMinted.minted = true := by
  unfold minted markMinted
  rw [load_store_self]
  rfl

end Storage

/-- The amount that entries in ascending order hold under an address. -/
def Entries.balance (entries : List (Bytes × Bytes)) (address : Address) : Amount :=
  Amount.ofBytes (((entries.find? fun entry => entry.1 == address.bytes).map (·.2)).getD [])

namespace Entries

lemma balance_cons_self (address : Address) (value : Bytes) (rest : List (Bytes × Bytes))
    (hrest : ∀ entry ∈ rest, address.bytes < entry.1) :
    balance ((address.bytes, value) :: rest) =
      Function.update (balance rest) address (Amount.ofBytes value) ∧ balance rest address = 0 := by
  constructor
  · funext other
    by_cases h : other = address
    · subst h
      simp [balance]
    · have hkey : address.bytes ≠ other.bytes := fun hb => h (Bytes32.bytes_injective hb).symm
      simp [balance, hkey, h]
  · have hnone : rest.find? (fun entry => entry.1 == address.bytes) = none := by
      rw [List.find?_eq_none]
      intro entry hentry heq
      have hlt := hrest entry hentry
      rw [beq_iff_eq.mp heq] at hlt
      exact List.lt_irrefl _ hlt
    simp [balance, hnone]

lemma balance_cons_of_length_ne {key value : Bytes} (hkey : key.length ≠ 32)
    (rest : List (Bytes × Bytes)) : balance ((key, value) :: rest) = balance rest := by
  funext address
  have hne : key ≠ address.bytes := fun h => hkey (h ▸ address.length_bytes)
  simp [balance, hne]

/-- Listing the accounts misses no balance and counts none twice. -/
theorem sum_accounts {entries : List (Bytes × Bytes)} (h : Sorted entries) :
    ((entries.filterMap fun (key, value) =>
        (Bytes32.ofBytes? key).map fun address => (address, Amount.ofBytes value)).map
      Prod.snd).sum = ∑ address, balance entries address := by
  induction entries with
  | nil => simp [balance]
  | cons entry rest ih =>
    obtain ⟨key, value⟩ := entry
    obtain ⟨hfirst, hrest⟩ := List.pairwise_cons.mp h
    cases haddress : Bytes32.ofBytes? key with
    | none =>
      -- The key belongs to no address, so the entry counts on neither side.
      rw [balance_cons_of_length_ne (Bytes32.ofBytes?_eq_none_iff.mp haddress) rest, ← ih hrest,
        List.filterMap_cons]
      simp only [haddress, Option.map_none]
    | some address =>
      obtain rfl := Bytes32.ofBytes?_eq_some_iff.mp haddress
      obtain ⟨hupdate, hzero⟩ := balance_cons_self address value rest hfirst
      -- The keys ascend, so no later entry is under this address.
      have hsum := sum_update_add (balance rest) address (Amount.ofBytes value)
      rw [hzero, ← ih hrest, Nat.add_zero] at hsum
      rw [hupdate, hsum, List.filterMap_cons]
      simp only [haddress, Option.map_some, List.map_cons, List.sum_cons]
      exact Nat.add_comm _ _

end Entries

namespace Storage

variable (storage : Storage) (address : Address) (amount : Amount)

/-- The sum over the listed accounts is the sum of the balances of all addresses. -/
theorem sumOfBalances_eq_sum : storage.sumOfBalances = ∑ address, storage.balance address := by
  have hbalance : storage.balance = Entries.balance storage.entries := rfl
  rw [hbalance, ← Entries.sum_accounts storage.sorted, List.sum_eq_foldl, List.foldl_map]
  rfl

/-- A write to one account changes the sum by the new balance and the one it replaces. -/
theorem sumOfBalances_setBalance :
    (storage.setBalance address amount).sumOfBalances + storage.balance address =
      storage.sumOfBalances + amount := by
  rw [sumOfBalances_eq_sum, sumOfBalances_eq_sum, balance_setBalance, sum_update_add]

@[simp] lemma sumOfBalances_setSupply :
    (storage.setSupply amount).sumOfBalances = storage.sumOfBalances := by
  rw [sumOfBalances_eq_sum, sumOfBalances_eq_sum, balance_setSupply]

@[simp] lemma sumOfBalances_markMinted : storage.markMinted.sumOfBalances = storage.sumOfBalances := by
  rw [sumOfBalances_eq_sum, sumOfBalances_eq_sum, balance_markMinted]

end Storage

end FixedSupply
