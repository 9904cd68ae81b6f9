import FixedSupply.Proofs.Clients

/-!
# Conservation of the supply

On every host that started empty, the balances add up to the supply between any two operations of the
ledger, and nothing is stored before the supply is minted. The invariant is one of the storage alone
and every deed keeps it, so it survives every nesting of invocations.
-/

namespace FixedSupply

open scoped BigOperators

namespace Storage

/-- The balances add up to the supply, and nothing is stored before it is minted. -/
structure Conserved (storage : Storage) : Prop where
  sum_eq : storage.sumOfBalances = storage.supply
  eq_empty : storage.minted = false → storage = ∅

lemma conserved_empty : Conserved ∅ :=
  ⟨rfl, fun _ => rfl⟩

/-- A covered move keeps the sum of the balances of any storage. -/
theorem sumOfBalances_applyTo_move (storage : Storage) {sender recipient : Address} {amount : Amount}
    (covered : amount ≤ storage.balance sender) :
    ((Deed.move sender recipient amount).applyTo storage).sumOfBalances = storage.sumOfBalances := by
  by_cases hidle : amount = 0 ∨ sender = recipient
  · rw [Deed.applyTo_move_of_idle storage hidle]
  · rw [Deed.applyTo_move storage hidle]
    have hne : recipient ≠ sender := fun he => hidle (.inr he.symm)
    -- The two writes go to different accounts, so the second one finds the old balance.
    let debited := storage.setBalance sender (storage.balance sender - amount)
    have hdebit := storage.sumOfBalances_setBalance sender (storage.balance sender - amount)
    have hcredit := debited.sumOfBalances_setBalance recipient (storage.balance recipient + amount)
    have hrecipient : debited.balance recipient = storage.balance recipient := by
      rw [balance_setBalance, Function.update_of_ne hne]
    rw [hrecipient] at hcredit
    simp only [Amount, debited] at *
    omega

theorem Conserved.applyTo {storage : Storage} (h : Conserved storage) {caller : Address}
    {entry : EntryPoint} {arguments : List Bytes} {deed : Deed}
    (granted : Contract.Granted storage caller entry arguments deed) :
    Conserved (deed.applyTo storage) := by
  cases granted with
  | mint supply unminted =>
    obtain rfl := h.eq_empty unminted
    have hsum := (∅ : Storage).sumOfBalances_setBalance caller (Amount.ofBytes supply)
    rw [sumOfBalances_empty, balance_empty, Nat.add_zero, Nat.zero_add] at hsum
    constructor
    · simp [Deed.applyTo, hsum]
    · simp [Deed.applyTo]
  | balance address => exact h
  | move recipient amount covered =>
    constructor
    · rw [sumOfBalances_applyTo_move storage covered, Deed.supply_applyTo_move]
      exact h.sum_eq
    · intro hminted
      rw [Deed.minted_applyTo_move] at hminted
      -- Before the mint every balance is zero, so only a move of nothing is covered.
      obtain rfl := h.eq_empty hminted
      have hzero : Amount.ofBytes amount = 0 := Nat.le_zero.mp covered
      exact Deed.applyTo_move_of_idle ∅ (.inl hzero)
  | supply => exact h

/-- Every other deed than a mint keeps the sum of the balances of any storage. -/
theorem sumOfBalances_applyTo {storage : Storage} {caller : Address} {entry : EntryPoint}
    {arguments : List Bytes} {deed : Deed}
    (granted : Contract.Granted storage caller entry arguments deed) (h : entry ≠ .init) :
    (deed.applyTo storage).sumOfBalances = storage.sumOfBalances := by
  cases granted with
  | mint supply unminted => exact absurd rfl h
  | balance address => rfl
  | move recipient amount covered => exact sumOfBalances_applyTo_move storage covered
  | supply => rfl

end Storage

open Storage

lemma conserved_keeps : Deed.Keeps Conserved :=
  fun h granted => h.applyTo granted

/-- One operation other than a successful mint keeps the sum of the balances of any storage. -/
lemma sumOfBalances_run (host : Host) (operation : Operation) :
    (host.run operation.action.run).2.sumOfBalances = host.sumOfBalances ∨
      operation.entry? = some .init ∧ (host.run operation.action.run).1 = .ok () := by
  have hrun := operation.run_action host
  cases hjudge : operation.judge host.storage host.context.caller host.context.arguments with
  | error fault =>
    rw [hjudge] at hrun
    exact .inl (congrArg sumOfBalances hrun.2)
  | ok deed =>
    rw [hjudge] at hrun
    obtain ⟨entry, hentry, granted⟩ := Operation.granted_of_judge hjudge
    by_cases hinit : entry = .init
    · exact .inr ⟨hinit ▸ hentry, hrun.1⟩
    · exact .inl ((congrArg sumOfBalances hrun.2).trans (sumOfBalances_applyTo granted hinit))

section Clients

variable {ν : Type}

lemma conserved_run_points (host : Host) (h : Conserved host.storage) (calls : List (ClientCall ν)) :
    ∀ point ∈ host.points calls, Conserved point.storage :=
  conserved_keeps.points host h calls

/-- Between any two operations of any run of clients on a host that started empty, the balances add
up to the supply, and nothing is stored before the mint; on any storage whatsoever one operation other
than a successful mint keeps the sum of the balances. -/
theorem supply_conserved (rollback : Bool) (calls : List (ClientCall ν)) :
    (∀ point ∈ (Host.fresh rollback).points calls,
      point.sumOfBalances = (point.run Contract.supply).1 ∧
        ((point.run Contract.isInitialized).1 = false → point.storage = ∅)) ∧
      ∀ (host : Host) (operation : Operation),
        (host.run operation.action.run).2.sumOfBalances = host.sumOfBalances ∨
          operation.entry? = some .init ∧ (host.run operation.action.run).1 = .ok () := by
  constructor
  · intro point hpoint
    have h := conserved_run_points (Host.fresh rollback) conserved_empty calls point hpoint
    rw [Host.run_supply, Host.run_isInitialized]
    exact ⟨h.sum_eq, h.eq_empty⟩
  · exact sumOfBalances_run

end Clients

end FixedSupply
