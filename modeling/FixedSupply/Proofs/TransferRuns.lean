import FixedSupply.Proofs.Spending
import FixedSupply.Proofs.StorageContents

/-!
# Runs of transfers

A list of transfers that succeed one after another takes one storage to another. Three facts about such a
run decide what it leaves: a balance grows by what the list pays to its holder and falls by what it pays
out, a key to which some transfer writes holds its amount in the canonical encoding, and every other key
holds what it held.
-/

namespace FixedSupply

namespace Storage

/-- What the key holds, if anything, is an amount other than zero without leading zeros. -/
def CanonicalAt (storage : Storage) (key : Bytes) : Prop :=
  ∀ value, storage.get? key = some value → value ≠ [] ∧ value.head? ≠ some 0

/-- Every key that has the length of an address holds its amount in the canonical encoding. -/
def Canonical (storage : Storage) : Prop :=
  ∀ key, key.length = 32 → storage.CanonicalAt key

variable {storage : Storage} {key : Bytes}

/-- Under such a key the amount that is read decides what is stored. -/
lemma CanonicalAt.get?_eq (h : storage.CanonicalAt key) :
    storage.get? key =
      if Amount.ofBytes (storage.load key) = 0 then none
      else some (Amount.toBytes (Amount.ofBytes (storage.load key))) := by
  cases hget : storage.get? key with
  | none => simp [load, hget]
  | some value =>
    obtain ⟨hempty, hhead⟩ := h value hget
    have hvalue := Amount.toBytes_ofBytes_of_head?_ne hhead
    have hamount : Amount.ofBytes value ≠ 0 := by
      intro hzero
      rw [hzero, (Amount.toBytes_eq_nil_iff 0).mpr rfl] at hvalue
      exact hempty hvalue.symm
    rw [load, hget, Option.getD_some, if_neg hamount, hvalue]

/-- Storages with the same balances are equal if each key is that of an address and canonical in both, or
holds the same in both. -/
theorem eq_of_balance_eq {other : Storage}
    (hbalance : ∀ address, storage.balance address = other.balance address)
    (hkeys : ∀ key, storage.get? key = other.get? key ∨ (∃ address : Address, key = address.bytes) ∧
      storage.CanonicalAt key ∧ other.CanonicalAt key) : storage = other := by
  apply ext_get?
  intro key
  rcases hkeys key with hsame | ⟨⟨address, rfl⟩, hcanonical, hother⟩
  · exact hsame
  · have hload : Amount.ofBytes (storage.load address.bytes) =
        Amount.ofBytes (other.load address.bytes) := hbalance address
    rw [hcanonical.get?_eq, hother.get?_eq, hload]

lemma canonicalAt_of_get?_eq {amount : Amount}
    (h : storage.get? key = if amount = 0 then none else some (Amount.toBytes amount)) :
    storage.CanonicalAt key := by
  intro value hget
  by_cases hzero : amount = 0
  · rw [h, if_pos hzero] at hget
    exact absurd hget (Option.some_ne_none value).symm
  · rw [h, if_neg hzero] at hget
    obtain rfl := Option.some.inj hget
    exact ⟨fun hnil => hzero ((Amount.toBytes_eq_nil_iff amount).mp hnil),
      Amount.head?_toBytes_ne_zero amount⟩

end Storage

/-- A transfer as its sender asks for it. The bytes of the amount may have leading zeros. -/
structure Transfer where
  sender : Address
  recipient : Address
  amount : Bytes
  deriving DecidableEq

namespace Transfer

def value (transfer : Transfer) : Amount :=
  Amount.ofBytes transfer.amount

/-- The call that asks for the transfer. -/
def transaction (transfer : Transfer) : Transaction :=
  ⟨transfer.sender, [transfer.recipient.bytes, transfer.amount], EntryPoint.transfer.name⟩

/-- The storage after the transfer. -/
def applyTo (transfer : Transfer) (storage : Storage) : Storage :=
  (Deed.move transfer.sender transfer.recipient transfer.value).applyTo storage

/-- The sender has what is to be transferred. -/
def Covered (transfer : Transfer) (storage : Storage) : Prop :=
  transfer.value ≤ storage.balance transfer.sender

/-- The transfer writes the balance under this key: it moves something, from there or to there. -/
def Writes (transfer : Transfer) (key : Bytes) : Prop :=
  ¬(transfer.value = 0 ∨ transfer.sender = transfer.recipient) ∧
    (key = transfer.sender.bytes ∨ key = transfer.recipient.bytes)

section Step

variable {transfer : Transfer} {storage : Storage} {key : Bytes}

lemma Writes.exists_address (h : transfer.Writes key) : ∃ address : Address, key = address.bytes := by
  rcases h.2 with rfl | rfl
  · exact ⟨transfer.sender, rfl⟩
  · exact ⟨transfer.recipient, rfl⟩

lemma balance_applyTo (h : transfer.Covered storage) (holder : Address) :
    (transfer.applyTo storage).balance holder +
        (if holder = transfer.sender then transfer.value else 0) =
      storage.balance holder + (if holder = transfer.recipient then transfer.value else 0) :=
  storage.balance_applyTo_move h transfer.recipient holder

lemma canonicalAt_applyTo_of_writes (h : transfer.Writes key) :
    (transfer.applyTo storage).CanonicalAt key := by
  obtain ⟨hmoves, hkey⟩ := h
  have hget := storage.get?_applyTo_move hmoves key
  by_cases hrecipient : key = transfer.recipient.bytes
  · rw [if_pos hrecipient] at hget
    have hcredit : storage.balance transfer.recipient + transfer.value ≠ 0 := by
      intro hzero
      exact hmoves (.inl (Nat.eq_zero_of_add_eq_zero_left hzero))
    exact Storage.canonicalAt_of_get?_eq (hget.trans (if_neg hcredit).symm)
  · rw [if_neg hrecipient, if_pos (hkey.resolve_right hrecipient)] at hget
    exact Storage.canonicalAt_of_get?_eq hget

lemma get?_applyTo_of_not_writes (h : ¬transfer.Writes key) :
    (transfer.applyTo storage).get? key = storage.get? key := by
  by_cases hidle : transfer.value = 0 ∨ transfer.sender = transfer.recipient
  · rw [applyTo, Deed.applyTo_move_of_idle storage hidle]
  · have hkey : ¬(key = transfer.sender.bytes ∨ key = transfer.recipient.bytes) :=
      fun hkey => h ⟨hidle, hkey⟩
    obtain ⟨hsender, hrecipient⟩ := not_or.mp hkey
    rw [applyTo, storage.get?_applyTo_move hidle, if_neg hrecipient, if_neg hsender]

end Step

lemma canonicalAt_applyTo (transfer : Transfer) {storage : Storage} {key : Bytes}
    (h : storage.CanonicalAt key) : (transfer.applyTo storage).CanonicalAt key := by
  by_cases hwrites : transfer.Writes key
  · exact canonicalAt_applyTo_of_writes hwrites
  · rwa [Storage.CanonicalAt, get?_applyTo_of_not_writes hwrites]

/-- Each transfer of the list is covered in its turn, and together they take one storage to the other. -/
inductive Executes : List Transfer → Storage → Storage → Prop where
  | nil (storage : Storage) : Executes [] storage storage
  | cons {transfer : Transfer} {transfers : List Transfer} {start final : Storage}
    (covered : transfer.Covered start) (rest : Executes transfers (transfer.applyTo start) final) :
    Executes (transfer :: transfers) start final

lemma executes_singleton_iff {transfer : Transfer} {start final : Storage} :
    Executes [transfer] start final ↔ transfer.Covered start ∧ transfer.applyTo start = final := by
  constructor
  · rintro (_ | ⟨covered, ⟨⟩⟩)
    exact ⟨covered, rfl⟩
  · rintro ⟨covered, rfl⟩
    exact .cons covered (.nil _)

/-- What the transfers pay out of an address. -/
def paidBy (holder : Address) (transfers : List Transfer) : Amount :=
  (transfers.map fun transfer => if holder = transfer.sender then transfer.value else 0).sum

/-- What the transfers pay to an address. -/
def paidTo (holder : Address) (transfers : List Transfer) : Amount :=
  (transfers.map fun transfer => if holder = transfer.recipient then transfer.value else 0).sum

namespace Executes

variable {transfers later : List Transfer} {start middle final : Storage} {key : Bytes}

lemma append (h : Executes transfers start middle) (hlater : Executes later middle final) :
    Executes (transfers ++ later) start final := by
  induction h with
  | nil storage => exact hlater
  | cons covered rest ih => exact .cons covered (ih hlater)

/-- A balance at the end is the one at the start and what the transfers paid to its holder, less what
they paid out. -/
theorem balance (h : Executes transfers start final) (holder : Address) :
    final.balance holder + paidBy holder transfers = start.balance holder + paidTo holder transfers := by
  induction h with
  | nil storage => rfl
  | cons covered rest ih =>
    have hstep := balance_applyTo covered holder
    simp only [paidBy, paidTo, List.map_cons, List.sum_cons, Amount] at *
    omega

lemma canonicalAt (h : Executes transfers start final) (hstart : start.CanonicalAt key) :
    final.CanonicalAt key := by
  induction h with
  | nil storage => exact hstart
  | cons covered rest ih => exact ih (canonicalAt_applyTo _ hstart)

/-- A key that was written holds its amount in the canonical encoding from then on. -/
theorem canonicalAt_of_writes (h : Executes transfers start final)
    (hwrites : ∃ transfer ∈ transfers, transfer.Writes key) : final.CanonicalAt key := by
  induction h with
  | nil storage => simp at hwrites
  | cons covered rest ih =>
    rcases (List.exists_mem_cons_iff _ _ _).mp hwrites with hfirst | hrest
    · exact rest.canonicalAt (canonicalAt_applyTo_of_writes hfirst)
    · exact ih hrest

theorem get?_of_not_writes (h : Executes transfers start final)
    (hkey : ¬∃ transfer ∈ transfers, transfer.Writes key) : final.get? key = start.get? key := by
  induction h with
  | nil storage => rfl
  | cons covered rest ih =>
    rw [List.exists_mem_cons_iff, not_or] at hkey
    rw [ih hkey.2, get?_applyTo_of_not_writes hkey.1]

end Executes

lemma judgement_transaction (transfer : Transfer) (host : Host) :
    (Receipt.mk transfer.transaction host).judgement =
      if host.storage.balance transfer.sender < transfer.value then
        .error (.insufficientBalance (host.storage.balance transfer.sender) transfer.value)
      else .ok (.move transfer.sender transfer.recipient transfer.value) := by
  have hname : transfer.transaction.function = EntryPoint.transfer.name := rfl
  rw [Receipt.judgement_of_name hname]
  exact Contract.judge_transfer host.storage transfer.sender transfer.recipient transfer.amount

end Transfer

namespace Host

/-- The host after the transfers, whether or not they succeed. -/
def transferAll (host : Host) (transfers : List Transfer) : Host :=
  host.transactAll (transfers.map Transfer.transaction)

/-- Every transfer of the list succeeds in its turn. -/
def Accepts (host : Host) (transfers : List Transfer) : Prop :=
  ∀ receipt ∈ host.receipts (transfers.map Transfer.transaction), receipt.result.isOk

instance (host : Host) (transfers : List Transfer) : Decidable (host.Accepts transfers) :=
  inferInstanceAs (Decidable (∀ receipt ∈ _, _))

/-- The calls that ask for the transfers all succeed and leave this storage just if the transfers
execute. -/
theorem executes_iff (host : Host) (transfers : List Transfer) (final : Storage) :
    Transfer.Executes transfers host.storage final ↔
      host.Accepts transfers ∧ (host.transferAll transfers).storage = final := by
  induction transfers generalizing host with
  | nil =>
    constructor
    · rintro ⟨⟩
      exact ⟨by simp [Accepts, receipts], rfl⟩
    · rintro ⟨-, rfl⟩
      exact .nil _
  | cons transfer transfers ih =>
    let receipt : Receipt := ⟨transfer.transaction, host⟩
    have hjudgement := transfer.judgement_transaction host
    have haccepts : host.Accepts (transfer :: transfers) ↔
        receipt.result.isOk ∧ receipt.after.Accepts transfers := List.forall_mem_cons
    by_cases hlt : host.storage.balance transfer.sender < transfer.value
    · rw [if_pos hlt] at hjudgement
      have hfails : ¬receipt.result.isOk := by
        rw [Receipt.result_of_error hjudgement]
        exact Bool.false_ne_true
      constructor
      · rintro (_ | ⟨covered, rest⟩)
        exact absurd hlt (Nat.not_lt.mpr covered)
      · rintro ⟨hall, -⟩
        exact absurd (haccepts.mp hall).1 hfails
    · rw [if_neg hlt] at hjudgement
      have hsucceeds : receipt.result.isOk := by
        rw [Receipt.result_of_ok hjudgement]
        rfl
      have hrest := ih receipt.after
      rw [Receipt.storage_after_of_ok hjudgement] at hrest
      constructor
      · rintro (_ | ⟨covered, rest⟩)
        obtain ⟨hall, hfinal⟩ := hrest.mp rest
        exact ⟨haccepts.mpr ⟨hsucceeds, hall⟩, hfinal⟩
      · rintro ⟨hall, hfinal⟩
        exact .cons (Nat.not_lt.mp hlt) (hrest.mpr ⟨(haccepts.mp hall).2, hfinal⟩)

lemma accepts_iff_exists (host : Host) (transfers : List Transfer) :
    host.Accepts transfers ↔ ∃ final, Transfer.Executes transfers host.storage final := by
  constructor
  · intro haccepts
    exact ⟨_, (host.executes_iff transfers _).mpr ⟨haccepts, rfl⟩⟩
  · rintro ⟨final, hexecutes⟩
    exact ((host.executes_iff transfers final).mp hexecutes).1

end Host

end FixedSupply
