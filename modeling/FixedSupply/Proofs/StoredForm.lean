import Mathlib.Algebra.Order.BigOperators.Group.Finset
import FixedSupply.Proofs.Conservation
import FixedSupply.Proofs.StorageContents

/-!
# What the ledger stores

A tidy storage holds nothing but what the ledger puts there: amounts other than zero in their canonical
encoding, under addresses and under the key of the supply, and the flag of the mint. Every deed keeps a
storage tidy. Together with the conservation of the supply this gives the form of every entry and a bound
on every stored amount.
-/

namespace FixedSupply

open scoped BigOperators

/-- What may stand under a key. -/
def Token.Stores (key value : Bytes) : Prop :=
  ((∃ address : Address, key = balanceKey address) ∨ key = supplyKey) ∧
      (∃ amount, amount ≠ 0 ∧ value = Amount.toBytes amount) ∨
    key = mintedKey ∧ value = mintedFlag

namespace Storage

/-- Every entry is one that the ledger stores. -/
def Tidy (storage : Storage) : Prop :=
  ∀ key value, storage.get? key = some value → Token.Stores key value

lemma tidy_empty : Tidy ∅ := by
  intro key value hget
  exact absurd hget (Option.some_ne_none value).symm

section Writes

variable {storage : Storage} (h : storage.Tidy)
include h

lemma Tidy.store {key value : Bytes} (hvalue : value ≠ [] → Token.Stores key value) :
    (storage.store key value).Tidy := by
  intro other stored hget
  rw [get?_store] at hget
  by_cases hkey : other = key
  · rw [if_pos hkey] at hget
    by_cases hempty : value = []
    · rw [if_pos hempty] at hget
      exact absurd hget (Option.some_ne_none stored).symm
    · rw [if_neg hempty] at hget
      obtain rfl := Option.some.inj hget
      exact hkey ▸ hvalue hempty
  · rw [if_neg hkey] at hget
    exact h other stored hget

lemma Tidy.storeAmount {key : Bytes} (amount : Amount)
    (hkey : (∃ address : Address, key = Token.balanceKey address) ∨ key = Token.supplyKey) :
    (storage.store key (Amount.toBytes amount)).Tidy := by
  apply h.store
  intro hne
  have hamount : amount ≠ 0 := fun hzero => hne ((Amount.toBytes_eq_nil_iff amount).mpr hzero)
  exact .inl ⟨hkey, amount, hamount, rfl⟩

lemma Tidy.setBalance (address : Address) (amount : Amount) :
    (storage.setBalance address amount).Tidy :=
  h.storeAmount amount (.inl ⟨address, rfl⟩)

lemma Tidy.setSupply (amount : Amount) : (storage.setSupply amount).Tidy :=
  h.storeAmount amount (.inr rfl)

lemma Tidy.markMinted : storage.markMinted.Tidy :=
  h.store fun _ => .inr ⟨rfl, rfl⟩

/-- A deed keeps the storage tidy, whether or not it may follow. -/
theorem Tidy.applyTo (deed : Deed) : (deed.applyTo storage).Tidy := by
  cases deed with
  | mint owner supply => exact ((h.setBalance owner supply).setSupply supply).markMinted
  | move sender recipient amount =>
    by_cases hidle : amount = 0 ∨ sender = recipient
    · rw [Deed.applyTo_move_of_idle storage hidle]
      exact h
    · rw [Deed.applyTo_move storage hidle]
      exact (h.setBalance sender _).setBalance recipient _
  | tell amount => exact h

end Writes

section Reads

variable {storage : Storage} (h : storage.Tidy)
include h

/-- A key of an amount holds its canonical encoding, and is absent if the amount is zero. -/
lemma Tidy.get?_amount {key : Bytes} (hkey : key ≠ Token.mintedKey) :
    storage.get? key =
      if Amount.ofBytes (storage.load key) = 0 then none
      else some (Amount.toBytes (Amount.ofBytes (storage.load key))) := by
  cases hget : storage.get? key with
  | none => simp [load, hget]
  | some value =>
    rcases h key value hget with ⟨-, amount, hamount, rfl⟩ | ⟨hminted, -⟩
    · simp [load, hget, hamount]
    · exact absurd hminted hkey

lemma Tidy.get?_balanceKey (address : Address) :
    storage.get? (Token.balanceKey address) =
      if storage.balance address = 0 then none
      else some (Amount.toBytes (storage.balance address)) :=
  h.get?_amount (Token.balanceKey_ne_mintedKey address)

lemma Tidy.get?_supplyKey :
    storage.get? Token.supplyKey =
      if storage.supply = 0 then none else some (Amount.toBytes storage.supply) :=
  h.get?_amount Token.supplyKey_ne_mintedKey

end Reads

section Accounts

variable (storage : Storage)

/-- The accounts are the entries under the keys of addresses. -/
lemma mem_accounts_iff {address : Address} {amount : Amount} :
    (address, amount) ∈ storage.accounts ↔
      ∃ value, storage.get? (Token.balanceKey address) = some value ∧ Amount.ofBytes value = amount := by
  unfold accounts
  rw [List.mem_filterMap]
  constructor
  · rintro ⟨⟨key, value⟩, hmem, haccount⟩
    obtain ⟨other, hother, hpair⟩ := Option.map_eq_some_iff.mp haccount
    obtain ⟨rfl, hamount⟩ := Prod.ext_iff.mp hpair
    obtain rfl := Bytes32.ofBytes?_eq_some_iff.mp hother
    exact ⟨value, (Entries.mem_iff_find? storage.sorted _ _).mp hmem, hamount⟩
  · rintro ⟨value, hget, rfl⟩
    refine ⟨(address.bytes, value), (Entries.mem_iff_find? storage.sorted _ _).mpr hget, ?_⟩
    simp only [Bytes32.ofBytes?_eq_some_iff.mpr (rfl : address.bytes = address.bytes), Option.map_some]

/-- The accounts ascend, so no address is listed twice. -/
theorem accounts_ascend : storage.accounts.Pairwise fun a b => a.1.bytes < b.1.bytes := by
  apply List.pairwise_filterMap.mpr
  apply storage.sorted.imp
  rintro ⟨key, value⟩ ⟨key', value'⟩ hlt a ha b hb
  obtain ⟨address, haddress, rfl⟩ := Option.map_eq_some_iff.mp ha
  obtain ⟨address', haddress', rfl⟩ := Option.map_eq_some_iff.mp hb
  obtain rfl := Bytes32.ofBytes?_eq_some_iff.mp haddress
  obtain rfl := Bytes32.ofBytes?_eq_some_iff.mp haddress'
  exact hlt

variable {storage}

/-- A tidy storage lists the addresses that have something. -/
lemma Tidy.mem_accounts_iff (h : storage.Tidy) {address : Address} {amount : Amount} :
    (address, amount) ∈ storage.accounts ↔ storage.balance address = amount ∧ amount ≠ 0 := by
  rw [storage.mem_accounts_iff, h.get?_balanceKey]
  by_cases hzero : storage.balance address = 0
  · rw [if_pos hzero, hzero]
    simp [eq_comm]
  · rw [if_neg hzero]
    constructor
    · rintro ⟨value, hvalue, rfl⟩
      obtain rfl := Option.some.inj hvalue
      rw [Amount.ofBytes_toBytes]
      exact ⟨rfl, hzero⟩
    · rintro ⟨rfl, -⟩
      exact ⟨_, rfl, Amount.ofBytes_toBytes _⟩

end Accounts

section Conserved

variable {storage : Storage} (h : storage.Conserved)
include h

lemma Conserved.balance_le_supply (address : Address) : storage.balance address ≤ storage.supply := by
  rw [← h.sum_eq, sumOfBalances_eq_sum]
  exact Finset.single_le_sum (fun _ _ => Nat.zero_le _) (Finset.mem_univ address)

lemma Conserved.minted_of_supply_ne_zero (hsupply : storage.supply ≠ 0) : storage.minted = true := by
  cases hminted : storage.minted with
  | true => rfl
  | false =>
    rw [h.eq_empty hminted] at hsupply
    exact absurd rfl hsupply

end Conserved

/-- The invariant of a stored ledger: its form, and the conservation of the supply. -/
structure Stored (storage : Storage) : Prop where
  tidy : storage.Tidy
  conserved : storage.Conserved

lemma stored_empty : Stored ∅ :=
  ⟨tidy_empty, conserved_empty⟩

lemma stored_keeps : Deed.Keeps Stored :=
  fun {_ _ _ _ deed} h granted => ⟨h.tidy.applyTo deed, h.conserved.applyTo granted⟩

/-- An entry of a stored ledger is the flag of the mint, or an amount that the supply bounds. -/
lemma Stored.entry {storage : Storage} (h : storage.Stored) {key value : Bytes}
    (hget : storage.get? key = some value) :
    ((∃ address : Address, key = Token.balanceKey address) ∨ key = Token.supplyKey) ∧
        value ≠ [] ∧ value.head? ≠ some 0 ∧ Amount.ofBytes value ≤ storage.supply ∨
      key = Token.mintedKey ∧ value = Token.mintedFlag := by
  rcases h.tidy key value hget with ⟨hkey, amount, hamount, rfl⟩ | hflag
  · have hload : Amount.ofBytes (storage.load key) = amount := by
      rw [load, hget, Option.getD_some, Amount.ofBytes_toBytes]
    have hbound : amount ≤ storage.supply := by
      rcases hkey with ⟨address, rfl⟩ | rfl
      · exact hload ▸ h.conserved.balance_le_supply address
      · exact hload.ge
    refine .inl ⟨hkey, ?_, Amount.head?_toBytes_ne_zero amount, ?_⟩
    · exact fun hnil => hamount ((Amount.toBytes_eq_nil_iff amount).mp hnil)
    · rw [Amount.ofBytes_toBytes]
      exact hbound
  · exact .inr hflag

lemma Stored.supplyKey_isSome_iff {storage : Storage} (h : storage.Stored) :
    (storage.get? Token.supplyKey).isSome ↔ storage.minted = true ∧ storage.supply ≠ 0 := by
  rw [h.tidy.get?_supplyKey]
  by_cases hzero : storage.supply = 0
  · simp [hzero]
  · simp [hzero, h.conserved.minted_of_supply_ne_zero hzero]

end Storage

/-- The ledger of a host in its stored form: what its entries are, when the supply has one, and which
accounts are listed. -/
structure Host.StoredForm (host : Host) : Prop where
  /-- An entry is the flag of the mint or an amount, which is not empty, has no leading zero byte and is
  at most the supply. -/
  entry : ∀ key value, host.storage.get? key = some value →
    ((∃ address : Address, key = Token.balanceKey address) ∨ key = Token.supplyKey) ∧
        value ≠ [] ∧ value.head? ≠ some 0 ∧ Amount.ofBytes value ≤ (host.run Contract.supply).1 ∨
      key = Token.mintedKey ∧ value = Token.mintedFlag
  supply : (host.storage.get? Token.supplyKey).isSome ↔
    (host.run Contract.isInitialized).1 = true ∧ (host.run Contract.supply).1 ≠ 0
  account : ∀ address amount, (address, amount) ∈ host.balances ↔
    (host.run (Contract.balance address)).1 = amount ∧ amount ≠ 0
  ascend : host.balances.Pairwise fun a b => a.1.bytes < b.1.bytes

/-- At every point of every run of clients on a host that started empty, the ledger has its stored
form. -/
theorem stored_form {ν : Type} (rollback : Bool) (calls : List (ClientCall ν)) :
    ∀ point ∈ (Host.fresh rollback).points calls, point.StoredForm := by
  intro point hpoint
  have h : point.storage.Stored :=
    Storage.stored_keeps.points (Host.fresh rollback) Storage.stored_empty calls point hpoint
  constructor
  · exact fun key value hget => h.entry hget
  · exact h.supplyKey_isSome_iff
  · exact fun address amount => h.tidy.mem_accounts_iff
  · exact point.storage.accounts_ascend

/-- The supply is minted and all of it moved on, so the owner's account is gone. -/
theorem stored_form_of_emptied_account :
    let heir : Address := ⟨List.replicate 32 7, rfl⟩
    let call (arguments : List Bytes) (function : String) : ClientCall Unit :=
      ⟨.zero, arguments, .operate (.dispatch function) fun outcome => .done outcome ()⟩
    let calls := [call [[3, 232]] "init", call [heir.bytes, [3, 232]] "transfer"]
    let point := calls.foldl Host.serve (Host.fresh true)
    point ∈ (Host.fresh true).points calls ∧ point.balances = [(heir, 1000)] ∧ point.StoredForm := by
  intro heir call calls point
  have hpoint : point ∈ (Host.fresh true).points calls :=
    List.mem_append_right _ (List.mem_append_right _ List.mem_cons_self)
  exact ⟨hpoint, by decide +kernel, stored_form true calls point hpoint⟩

end FixedSupply
