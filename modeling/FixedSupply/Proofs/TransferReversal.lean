import FixedSupply.Proofs.StoredForm
import FixedSupply.Proofs.TransferRuns

/-!
# Taking transfers back

The opposite of a covered transfer is covered after it and takes it back. On a storage whose accounts are in
the canonical encoding nothing is left of the two, not even where an account was opened or emptied, so a
run of transfers is undone by the opposite transfers in reverse order.
-/

namespace FixedSupply

/-- The ledger keeps every account in the canonical encoding. -/
lemma Storage.Tidy.canonical {storage : Storage} (h : storage.Tidy) : storage.Canonical := by
  intro key hlength value hget
  rcases h key value hget with ⟨-, amount, hamount, rfl⟩ | ⟨rfl, -⟩
  · exact ⟨fun hnil => hamount ((Amount.toBytes_eq_nil_iff amount).mp hnil),
      Amount.head?_toBytes_ne_zero amount⟩
  · rw [Token.length_mintedKey] at hlength
    omega

namespace Transfer

/-- The recipient sends the amount back. -/
def opposite (transfer : Transfer) : Transfer :=
  ⟨transfer.recipient, transfer.sender, transfer.amount⟩

/-- The transfers that take back those of a list, the last one first. -/
def returns (transfers : List Transfer) : List Transfer :=
  (transfers.map opposite).reverse

lemma returns_cons (transfer : Transfer) (transfers : List Transfer) :
    returns (transfer :: transfers) = returns transfers ++ [transfer.opposite] := by
  rw [returns, List.map_cons, List.reverse_cons]
  rfl

section Step

variable {transfer : Transfer} {storage : Storage}

lemma Covered.opposite (h : transfer.Covered storage) :
    transfer.opposite.Covered (transfer.applyTo storage) := by
  have hbalance := balance_applyTo h transfer.recipient
  rw [if_pos rfl] at hbalance
  have hcovered : transfer.value ≤ storage.balance transfer.sender := h
  by_cases hself : transfer.recipient = transfer.sender
  · rw [if_pos hself] at hbalance
    calc
      transfer.value ≤ storage.balance transfer.sender := hcovered
      _ = storage.balance transfer.recipient := by rw [hself]
      _ = (transfer.applyTo storage).balance transfer.recipient :=
        (Nat.add_right_cancel hbalance).symm
  · rw [if_neg hself, Nat.add_zero] at hbalance
    calc
      transfer.value ≤ storage.balance transfer.recipient + transfer.value := Nat.le_add_left _ _
      _ = (transfer.applyTo storage).balance transfer.recipient := hbalance.symm

lemma balance_opposite (h : transfer.Covered storage) (holder : Address) :
    (transfer.opposite.applyTo (transfer.applyTo storage)).balance holder = storage.balance holder := by
  have hthere := balance_applyTo h holder
  have hback := balance_applyTo h.opposite holder
  -- What the way back adds to the holder is what the way there has taken, and the other way round.
  exact Nat.add_right_cancel (hback.trans hthere)

lemma writes_opposite_iff {key : Bytes} : transfer.opposite.Writes key ↔ transfer.Writes key :=
  and_congr (not_congr (or_congr_right eq_comm)) or_comm

/-- Byte by byte nothing is left of a transfer and its opposite. -/
theorem applyTo_opposite (h : transfer.Covered storage) (hcanonical : storage.Canonical) :
    transfer.opposite.applyTo (transfer.applyTo storage) = storage := by
  apply Storage.eq_of_balance_eq (balance_opposite h)
  intro key
  by_cases hwrites : transfer.Writes key
  · have hback : (transfer.opposite.applyTo (transfer.applyTo storage)).CanonicalAt key :=
      canonicalAt_applyTo_of_writes (writes_opposite_iff.mpr hwrites)
    obtain ⟨address, rfl⟩ := hwrites.exists_address
    exact .inr ⟨⟨address, rfl⟩, hback, hcanonical address.bytes address.length_bytes⟩
  · have hback : ¬transfer.opposite.Writes key := fun hback => hwrites (writes_opposite_iff.mp hback)
    left
    rw [get?_applyTo_of_not_writes hback, get?_applyTo_of_not_writes hwrites]

end Step

/-- Transfers that execute on canonical accounts are taken back by their opposites. The induction is on the
run: the later transfers are taken back first, from the storage that the first one leaves. -/
theorem Executes.returns {transfers : List Transfer} {start final : Storage}
    (h : Executes transfers start final) (hcanonical : start.Canonical) :
    Executes (returns transfers) final start := by
  induction h with
  | nil storage => exact .nil storage
  | @cons transfer transfers start final covered rest ih =>
    have hnext : (transfer.applyTo start).Canonical :=
      fun key hlength => transfer.canonicalAt_applyTo (hcanonical key hlength)
    have hlast : Executes [transfer.opposite] (transfer.applyTo start) start :=
      executes_singleton_iff.mpr ⟨covered.opposite, applyTo_opposite covered hcanonical⟩
    rw [returns_cons]
    exact (ih hnext).append hlast

end Transfer

/-- Transfers can be taken back. On a host whose accounts are in the canonical encoding, as those of a ledger
are at every point of every run of clients, let the transfers of a list all succeed. Then the
opposite transfers all succeed in reverse order, and the storage is again the one before. -/
theorem transfers_reversible :
    (∀ (host : Host) (transfers : List Transfer), host.storage.Canonical → host.Accepts transfers →
      let after := host.transferAll transfers
      after.Accepts (Transfer.returns transfers) ∧
        (after.transferAll (Transfer.returns transfers)).storage = host.storage) ∧
      ∀ (ν : Type) (rollback : Bool) (calls : List (ClientCall ν)),
        ∀ point ∈ (Host.fresh rollback).points calls, point.storage.Canonical := by
  constructor
  · intro host transfers hcanonical haccepts after
    have hexecutes := (host.executes_iff transfers _).mpr ⟨haccepts, rfl⟩
    exact (after.executes_iff _ _).mp (hexecutes.returns hcanonical)
  · intro ν rollback calls point hpoint
    have hstored := Storage.stored_keeps.points (Host.fresh rollback) Storage.stored_empty calls point hpoint
    exact hstored.tidy.canonical

/-- All of a minted supply is moved to a new account and a part of it back. Taking this back empties the
owner's account once more before it is whole again. -/
theorem transfers_reversible_of_minted :
    let owner : Address := .zero
    let friend : Address := ⟨List.replicate 32 7, rfl⟩
    let mint : ClientCall Unit := ⟨owner, [[5]], .operate (.dispatch "init") fun outcome => .done outcome ()⟩
    let host := (Host.fresh true).serve mint
    let transfers : List Transfer :=
      [⟨owner, friend, [5]⟩, ⟨friend, owner, [0, 2]⟩, ⟨friend, friend, [3]⟩]
    let after := host.transferAll transfers
    host.storage.Canonical ∧ host.Accepts transfers ∧
      after.balances = [(owner, 2), (friend, 3)] ∧
        after.Accepts (Transfer.returns transfers) ∧
          (after.transferAll (Transfer.returns transfers)).storage = host.storage := by
  intro owner friend mint host transfers after
  have hpoint : host ∈ (Host.fresh true).points [mint] :=
    List.mem_append_right _ List.mem_cons_self
  have hcanonical := transfers_reversible.2 Unit true [mint] host hpoint
  have haccepts : host.Accepts transfers := by decide +kernel
  exact ⟨hcanonical, haccepts, by decide +kernel, transfers_reversible.1 host transfers hcanonical haccepts⟩

end FixedSupply
