import FixedSupply.Proofs.SingleMint
import FixedSupply.Proofs.TransferEffect

/-!
# Who spends a balance

A balance is lowered by its holder alone. What a transaction of another caller does to it is nothing, or
a payment: a transfer to the holder that succeeds and takes from the caller what it gives. The storage
may be any, so the mint may come upon balances, and these need not be in their canonical encoding.
-/

namespace FixedSupply

/-- A deed leaves the balance of an address that did not ask for it, or moves an amount there. -/
theorem Contract.Granted.balance_of_ne {storage : Storage} {caller holder : Address}
    {entry : EntryPoint} {arguments : List Bytes} {deed : Deed}
    (granted : Granted storage caller entry arguments deed) (h : caller ≠ holder) :
    (deed.applyTo storage).balance holder = storage.balance holder ∨
      ∃ bytes, entry = .transfer ∧ arguments = [holder.bytes, bytes] ∧
        deed = .move caller holder (Amount.ofBytes bytes) ∧
          Amount.ofBytes bytes ≤ storage.balance caller := by
  cases granted with
  | mint supply unminted =>
    -- The mint writes one account, and its other two keys are no accounts.
    left
    rw [Deed.applyTo, Storage.balance_markMinted, Storage.balance_setSupply,
      Storage.balance_setBalance, Function.update_of_ne h.symm]
  | balance address => exact .inl rfl
  | move recipient bytes covered =>
    by_cases hrecipient : holder = recipient
    · subst hrecipient
      exact .inr ⟨bytes, rfl, rfl, rfl, covered⟩
    · left
      have hbalance := storage.balance_applyTo_move covered recipient holder
      rwa [if_neg h.symm, if_neg hrecipient, Nat.add_zero, Nat.add_zero] at hbalance
  | supply => exact .inl rfl

namespace Receipt

/-- The transaction transfers this amount from its caller to the payee. -/
structure Pays (receipt : Receipt) (payee : Address) (amount : Amount) : Prop where
  function : receipt.transaction.function = EntryPoint.transfer.name
  arguments : ∃ bytes, receipt.transaction.arguments = [payee.bytes, bytes] ∧
    Amount.ofBytes bytes = amount
  result : receipt.result = .ok []
  gained : receipt.after.storage.balance payee = receipt.before.storage.balance payee + amount
  spent : receipt.after.storage.balance receipt.transaction.caller + amount =
    receipt.before.storage.balance receipt.transaction.caller

variable (receipt : Receipt) {holder : Address}

/-- A transaction of another caller leaves the balance or adds a payment to it. -/
theorem balance_after_of_ne (h : receipt.transaction.caller ≠ holder) :
    receipt.after.storage.balance holder = receipt.before.storage.balance holder ∨
      ∃ amount, receipt.Pays holder amount := by
  cases hjudgement : receipt.judgement with
  | error fault =>
    have hstate := state_after_of_error hjudgement
    exact .inl (congrArg (fun state => state.storage.balance holder) hstate)
  | ok deed =>
    obtain ⟨entry, hentry, granted⟩ := Contract.granted_of_judgeName hjudgement
    rcases granted.balance_of_ne h with hsame | ⟨bytes, rfl, hargs, rfl, covered⟩
    · left
      rw [storage_after_of_ok hjudgement, hsame]
    · have hgained := receipt.before.storage.balance_applyTo_move covered holder holder
      have hspent := receipt.before.storage.balance_applyTo_move covered holder
        receipt.transaction.caller
      rw [← storage_after_of_ok hjudgement, if_pos rfl, if_neg h.symm, Nat.add_zero] at hgained
      rw [← storage_after_of_ok hjudgement, if_pos rfl, if_neg h, Nat.add_zero] at hspent
      exact .inr ⟨Amount.ofBytes bytes, EntryPoint.ofName?_eq_some_iff.mp hentry,
        ⟨bytes, hargs, rfl⟩, result_of_ok hjudgement, hgained, hspent⟩

lemma balance_le_after_of_ne (h : receipt.transaction.caller ≠ holder) :
    receipt.before.storage.balance holder ≤ receipt.after.storage.balance holder := by
  rcases receipt.balance_after_of_ne h with hsame | ⟨amount, hpays⟩
  · exact hsame.ge
  · rw [hpays.gained]
    exact Nat.le_add_right _ _

end Receipt

namespace Host

variable (host : Host)

lemma transactAll_append (earlier later : List Transaction) :
    host.transactAll (earlier ++ later) = (host.transactAll earlier).transactAll later :=
  List.foldl_append

/-- Transactions of other callers do not lower the balance. -/
lemma balance_le_transactAll {holder : Address} {transactions : List Transaction}
    (h : ∀ transaction ∈ transactions, transaction.caller ≠ holder) :
    host.storage.balance holder ≤ (host.transactAll transactions).storage.balance holder := by
  induction transactions generalizing host with
  | nil => exact le_rfl
  | cons transaction transactions ih =>
    obtain ⟨hfirst, hrest⟩ := List.forall_mem_cons.mp h
    let receipt : Receipt := ⟨transaction, host⟩
    calc
      host.storage.balance holder ≤ receipt.after.storage.balance holder :=
        receipt.balance_le_after_of_ne hfirst
      _ ≤ (receipt.after.transactAll transactions).storage.balance holder := ih receipt.after hrest

end Host

/-- Only its holder can lower a balance. A transaction of another caller never does, on any host, and it
raises the balance only if it is a successful transfer to the holder, by the amount by which it lowers
the caller's balance. From any point of any run on, as long as the holder asks for nothing, the balance
does not decrease. -/
theorem only_holder_spends (holder : Address) :
    (∀ receipt : Receipt, receipt.transaction.caller ≠ holder →
      receipt.before.storage.balance holder ≤ receipt.after.storage.balance holder ∧
        (receipt.before.storage.balance holder < receipt.after.storage.balance holder →
          ∃ amount, receipt.Pays holder amount)) ∧
      ∀ (host : Host) (earlier later : List Transaction),
        (∀ transaction ∈ later, transaction.caller ≠ holder) →
          (host.transactAll earlier).storage.balance holder ≤
            (host.transactAll (earlier ++ later)).storage.balance holder := by
  constructor
  · intro receipt h
    refine ⟨receipt.balance_le_after_of_ne h, ?_⟩
    intro hraised
    rcases receipt.balance_after_of_ne h with hsame | hpays
    · exact absurd hsame hraised.ne'
    · exact hpays
  · intro host earlier later h
    rw [host.transactAll_append]
    exact (host.transactAll earlier).balance_le_transactAll h

/-- The mint comes upon a balance of another address and leaves it; the payment to it adds to it. -/
theorem only_holder_spends_of_mint_upon_balances :
    let payer : Address := .zero
    let shop : Address := ⟨List.replicate 32 7, rfl⟩
    let host : Host :=
      ⟨⟨.ofList [(payer.bytes, [0, 5]), (shop.bytes, [0, 0, 3])], []⟩, true, .start .zero []⟩
    let mint : Transaction := ⟨payer, [[7]], "init"⟩
    let payment : Receipt := ⟨⟨payer, [shop.bytes, [0, 4]], "transfer"⟩, host.transactAll [mint]⟩
    payment.after.balances = [(payer, 3), (shop, 7)] ∧ (∃ amount, payment.Pays shop amount) ∧
      3 ≤ (host.transactAll ([] ++ [mint, payment.transaction])).storage.balance shop := by
  intro payer shop host mint payment
  have hne : payer ≠ shop := by decide
  have hraised : payment.before.storage.balance shop < payment.after.storage.balance shop := by
    decide +kernel
  have hothers : ∀ transaction ∈ [mint, payment.transaction], transaction.caller ≠ shop := by decide
  have hstart : host.storage.balance shop = 3 := by decide +kernel
  refine ⟨by decide +kernel, ((only_holder_spends shop).1 payment hne).2 hraised, ?_⟩
  rw [← hstart]
  exact (only_holder_spends shop).2 host [] _ hothers

end FixedSupply
