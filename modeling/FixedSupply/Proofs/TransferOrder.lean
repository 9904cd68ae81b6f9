import FixedSupply.Proofs.TransferRuns

/-!
# The order of transfers

The order in which transfers succeed cannot be seen in the storage that they leave. What an address pays
and is paid adds up to the same in every order, and so does the set of the keys that are written, of which
each holds its amount in the canonical encoding at the end.
-/

namespace FixedSupply

namespace Transfer

variable {transfers reordered : List Transfer}

lemma paidBy_eq_of_perm (h : transfers.Perm reordered) (holder : Address) :
    paidBy holder transfers = paidBy holder reordered :=
  (h.map _).sum_eq

lemma paidTo_eq_of_perm (h : transfers.Perm reordered) (holder : Address) :
    paidTo holder transfers = paidTo holder reordered :=
  (h.map _).sum_eq

/-- Transfers that execute in two orders leave one storage. -/
theorem Executes.eq_of_perm {start final other : Storage} (h : Executes transfers start final)
    (hother : Executes reordered start other) (hperm : transfers.Perm reordered) : final = other := by
  have hbalance (holder : Address) : final.balance holder = other.balance holder := by
    have hfinal := h.balance holder
    rw [paidBy_eq_of_perm hperm, paidTo_eq_of_perm hperm, ← hother.balance holder] at hfinal
    exact Nat.add_right_cancel hfinal
  have hwritten (key : Bytes) :
      (∃ transfer ∈ transfers, transfer.Writes key) ↔ ∃ transfer ∈ reordered, transfer.Writes key := by
    simp only [hperm.mem_iff]
  apply Storage.eq_of_balance_eq hbalance
  intro key
  by_cases hwrites : ∃ transfer ∈ transfers, transfer.Writes key
  · have hfinal := h.canonicalAt_of_writes hwrites
    have hlast := hother.canonicalAt_of_writes ((hwritten key).mp hwrites)
    obtain ⟨transfer, -, htransfer⟩ := hwrites
    exact .inr ⟨htransfer.exists_address, hfinal, hlast⟩
  · left
    rw [h.get?_of_not_writes hwrites,
      hother.get?_of_not_writes fun hother => hwrites ((hwritten key).mpr hother)]

/-- A transfer of another sender leaves a covered transfer covered. -/
lemma Covered.applyTo {first second : Transfer} {storage : Storage} (h : second.Covered storage)
    (hfirst : first.Covered storage) (hne : first.sender ≠ second.sender) :
    second.Covered (first.applyTo storage) := by
  have hbalance := balance_applyTo hfirst second.sender
  rw [if_neg hne.symm, Nat.add_zero] at hbalance
  calc
    second.value ≤ storage.balance second.sender := h
    _ ≤ (first.applyTo storage).balance second.sender := by
      rw [hbalance]
      exact Nat.le_add_right _ _

end Transfer

namespace Host

variable {host : Host} {first second : Transfer}

lemma accepts_singleton_iff : host.Accepts [first] ↔ first.Covered host.storage := by
  simp [accepts_iff_exists, Transfer.executes_singleton_iff]

lemma accepts_pair (hne : first.sender ≠ second.sender) (hfirst : host.Accepts [first])
    (hsecond : host.Accepts [second]) : host.Accepts [first, second] := by
  rw [accepts_singleton_iff] at hfirst hsecond
  have hnext := hsecond.applyTo hfirst hne
  exact (host.accepts_iff_exists _).mpr ⟨_, .cons hfirst (.cons hnext (.nil _))⟩

end Host

/-- The order of transfers leaves no trace. If the transfers of a list all succeed in one order on a host
and all succeed in another order on a host with the same storage, the storages at the end are equal. Two
transfers of different senders, each of which succeeds alone, succeed in either order. -/
theorem transfers_order_independent :
    (∀ (host other : Host) (transfers reordered : List Transfer), host.storage = other.storage →
      transfers.Perm reordered → host.Accepts transfers → other.Accepts reordered →
        (host.transferAll transfers).storage = (other.transferAll reordered).storage) ∧
      ∀ (host : Host) (first second : Transfer), first.sender ≠ second.sender →
        host.Accepts [first] → host.Accepts [second] →
          host.Accepts [first, second] ∧ host.Accepts [second, first] := by
  constructor
  · intro host other transfers reordered hstorage hperm haccepts hreordered
    have hexecutes := (host.executes_iff transfers _).mpr ⟨haccepts, rfl⟩
    have hagain := (other.executes_iff reordered _).mpr ⟨hreordered, rfl⟩
    rw [← hstorage] at hagain
    exact hexecutes.eq_of_perm hagain hperm
  · intro host first second hne hfirst hsecond
    exact ⟨Host.accepts_pair hne hfirst hsecond, Host.accepts_pair hne.symm hsecond hfirst⟩

/-- In one order an account is emptied and then opened again, in the other it always has something. -/
theorem transfers_order_independent_of_emptied_account :
    let payer : Address := .zero
    let shop : Address := ⟨List.replicate 32 7, rfl⟩
    let friend : Address := ⟨List.replicate 32 9, rfl⟩
    let host : Host :=
      ⟨⟨.ofList [(payer.bytes, [0, 5]), (shop.bytes, []), (friend.bytes, [0, 0, 3])], []⟩, true,
        .start .zero []⟩
    let purchase : Transfer := ⟨payer, shop, [5]⟩
    let gift : Transfer := ⟨friend, payer, [0, 1]⟩
    let refund : Transfer := ⟨shop, payer, [2]⟩
    host.Accepts [purchase, gift, refund] ∧ host.Accepts [gift, purchase, refund] ∧
      (host.transferAll [purchase]).storage.get? payer.bytes = none ∧
        (host.transferAll [purchase, gift, refund]).storage =
          (host.transferAll [gift, purchase, refund]).storage := by
  intro payer shop friend host purchase gift refund
  have haccepts : host.Accepts [purchase, gift, refund] := by decide +kernel
  have hreordered : host.Accepts [gift, purchase, refund] := by decide +kernel
  refine ⟨haccepts, hreordered, by decide +kernel, ?_⟩
  exact transfers_order_independent.1 host host _ _ rfl (.swap gift purchase [refund]) haccepts hreordered

end FixedSupply
