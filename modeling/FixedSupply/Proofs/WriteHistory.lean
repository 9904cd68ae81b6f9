import FixedSupply.Proofs.LastWrites
import FixedSupply.Proofs.Requests
import FixedSupply.Proofs.StoredForm

/-!
# The storage as a record of its writes

A storage that was empty holds, after any writes, under each key the value that was written last, and
nothing where that value is empty. What is read from it, the accounts that it lists and their sum are
therefore functions of the writes alone.
-/

namespace FixedSupply

open scoped BigOperators

namespace Write

/-- The addresses among the keys of the writes. -/
def addresses (writes : List Write) : Finset Address :=
  (writes.filterMap fun write => Bytes32.ofBytes? write.1).toFinset

lemma last_of_notMem_addresses {writes : List Write} {address : Address}
    (h : address ∉ addresses writes) : last writes address.bytes = [] := by
  have hnone : (writes.filter fun write => write.1 == address.bytes) = [] := by
    rw [List.filter_eq_nil_iff]
    intro write hwrite heq
    have haddress : Bytes32.ofBytes? write.1 = some address :=
      Bytes32.ofBytes?_eq_some_iff.mpr (beq_iff_eq.mp heq).symm
    exact h (List.mem_toFinset.mpr (List.mem_filterMap.mpr ⟨write, hwrite, haddress⟩))
  rw [last, last?, hnone]
  rfl

end Write

open Write

namespace Host

/-- The host after these writes, one after the other. -/
def storeAll (host : Host) (writes : List Write) : Host :=
  writes.foldl (fun host write => (host.answer (.store write.1 write.2)).2) host

lemma storage_storeAll (host : Host) (writes : List Write) :
    (host.storeAll writes).storage = host.storage.storeAll writes := by
  induction writes generalizing host with
  | nil => rfl
  | cons write writes ih => exact ih (host.answer (.store write.1 write.2)).2

/-- Every write is counted, one that removes its key too. -/
lemma writes_storeAll (host : Host) (writes : List Write) :
    (host.storeAll writes).writes = host.writes + writes.length := by
  induction writes generalizing host with
  | nil => rfl
  | cons write writes ih =>
    have hrest : (host.storeAll (write :: writes)).writes = host.writes + 1 + writes.length :=
      ih (host.answer (.store write.1 write.2)).2
    rw [hrest, List.length_cons]
    omega

section Empty

variable {host : Host} (h : host.storage = ∅) (writes : List Write)
include h

/-- A key holds the value that was written last, unless it is empty. -/
theorem get?_storeAll (key : Bytes) :
    (host.storeAll writes).storage.get? key =
      if last writes key = [] then none else some (last writes key) := by
  rw [storage_storeAll, h, Storage.get?_storeAll, last]
  cases last? writes key with
  | none => rfl
  | some value => rfl

lemma load_storeAll (key : Bytes) : (host.storeAll writes).storage.load key = last writes key := by
  rw [Storage.load, get?_storeAll h]
  by_cases hlast : last writes key = []
  · rw [if_pos hlast, hlast, Option.getD_none]
  · rw [if_neg hlast, Option.getD_some]

lemma value_ne_nil_of_mem_storeAll {write : Write} (hmem : write ∈ (host.storeAll writes).storage.entries) :
    write.2 ≠ [] := by
  have hget : (host.storeAll writes).storage.get? write.1 = some write.2 :=
    (Entries.mem_iff_find? (host.storeAll writes).storage.sorted _ _).mp hmem
  rw [get?_storeAll h] at hget
  by_cases hlast : last writes write.1 = []
  · rw [if_pos hlast] at hget
    exact absurd hget (Option.some_ne_none write.2).symm
  · rw [if_neg hlast] at hget
    rwa [← Option.some.inj hget]

lemma mem_balances_storeAll {address : Address} {amount : Amount} :
    (address, amount) ∈ (host.storeAll writes).balances ↔
      last writes address.bytes ≠ [] ∧ amount = Amount.ofBytes (last writes address.bytes) := by
  rw [balances, Storage.mem_accounts_iff, Token.balanceKey, get?_storeAll h]
  by_cases hlast : last writes address.bytes = []
  · simp [hlast]
  · simp [hlast, eq_comm]

/-- The sum of the balances runs over the addresses that were written to. An address without a write
has none. -/
theorem sumOfBalances_storeAll :
    (host.storeAll writes).sumOfBalances =
      ∑ address ∈ addresses writes, Amount.ofBytes (last writes address.bytes) := by
  have hbalance (address : Address) :
      (host.storeAll writes).storage.balance address = Amount.ofBytes (last writes address.bytes) := by
    rw [Storage.balance, Token.balanceKey, load_storeAll h]
  rw [sumOfBalances, Storage.sumOfBalances_eq_sum]
  simp only [hbalance]
  symm
  apply Finset.sum_subset (Finset.subset_univ _)
  intro address _ hnot
  rw [last_of_notMem_addresses hnot, Amount.ofBytes_nil]

end Empty

end Host

/-- After any writes to an empty storage, whatever the log and the context of the host, a key reads as
the value that was written last under it, and is absent just if that is empty. Each address with such a
value is listed once, in ascending order, with the amount that the value encodes; the sum of the balances
is the sum of these amounts over the addresses that were written to, and every write was counted. -/
theorem storage_records_writes (rollback : Bool) (logs : List LogEntry) (context : Context)
    (writes : List Write) :
    let start : Host := ⟨⟨∅, logs⟩, rollback, context⟩
    let host := start.storeAll writes
    (∀ key, (host.run (Program.load key)).1 = last writes key ∧
        host.storage.get? key = if last writes key = [] then none else some (last writes key)) ∧
      (∀ entry ∈ host.storage.entries, entry.2 ≠ []) ∧
      (∀ address amount, (address, amount) ∈ host.balances ↔
        last writes address.bytes ≠ [] ∧ amount = Amount.ofBytes (last writes address.bytes)) ∧
      host.balances.Pairwise (fun a b => a.1.bytes < b.1.bytes) ∧
      (host.balances.map Prod.fst).Nodup ∧
      host.sumOfBalances =
        ∑ address ∈ addresses writes, Amount.ofBytes (last writes address.bytes) ∧
      host.writes = start.writes + writes.length := by
  intro start host
  have hempty : start.storage = ∅ := rfl
  have hascend : host.balances.Pairwise fun a b => a.1.bytes < b.1.bytes := host.storage.accounts_ascend
  refine ⟨?_, ?_, ?_, hascend, ?_, ?_, ?_⟩
  · intro key
    exact ⟨Host.load_storeAll hempty writes key, Host.get?_storeAll hempty writes key⟩
  · exact fun entry => Host.value_ne_nil_of_mem_storeAll hempty writes
  · exact fun address amount => Host.mem_balances_storeAll hempty writes
  · apply List.pairwise_map.mpr
    apply hascend.imp
    intro a b hlt heq
    rw [heq] at hlt
    exact List.lt_irrefl _ hlt
  · exact Host.sumOfBalances_storeAll hempty writes
  · exact start.writes_storeAll writes

/-- An account that is written and removed again, one whose value has a zero byte in front, and a key that
is no address. -/
theorem storage_records_writes_of_removed_account :
    let heir : Address := ⟨List.replicate 32 7, rfl⟩
    let writes : List Write :=
      [(Bytes32.zero.bytes, [9]), (heir.bytes, [0, 5]), ([1], [2]), (Bytes32.zero.bytes, [])]
    let host := (Host.fresh true).storeAll writes
    (heir.bytes, [0, 5]) ∈ host.storage.entries ∧ host.storage.get? Bytes32.zero.bytes = none ∧
      (heir, 5) ∈ host.balances ∧ (.zero, 9) ∉ host.balances ∧ host.writes = 4 := by
  intro heir writes host
  obtain ⟨hreads, -, hlisted, -, -, -, hwrites⟩ :=
    storage_records_writes true [] (.start .zero []) writes
  have hheir : last writes heir.bytes = [0, 5] := by decide
  have hzero : last writes Bytes32.zero.bytes = [] := by decide
  refine ⟨by decide +kernel, ?_, ?_, ?_, hwrites⟩
  · exact (hreads Bytes32.zero.bytes).2.trans (if_pos hzero)
  · exact (hlisted heir 5).mpr ⟨by rw [hheir]; decide, by rw [hheir]; decide⟩
  · exact fun hmem => ((hlisted .zero 9).mp hmem).1 hzero

end FixedSupply
