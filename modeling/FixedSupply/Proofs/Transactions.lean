import FixedSupply.Proofs.EntryPointRuns

/-!
# Runs of transactions

A transaction invokes an entry point by its name from outside. The receipts of a run hold each
transaction with the host that met it, so a statement about all receipts of all runs is one about
every call at every point of every run.
-/

namespace FixedSupply

structure Transaction where
  caller : Address
  arguments : List Bytes
  function : String

/-- A transaction and the host that it meets. -/
structure Receipt where
  transaction : Transaction
  before : Host

namespace Receipt

variable (receipt : Receipt)

/-- What the transaction returns: the values of a success, or the fault. -/
def result : Except Fault (List Bytes) :=
  (receipt.before.dispatch receipt.transaction.caller receipt.transaction.arguments
    receipt.transaction.function).1

def after : Host :=
  (receipt.before.dispatch receipt.transaction.caller receipt.transaction.arguments
    receipt.transaction.function).2

/-- The host when the entry point has ended, before its log is committed or a fault is undone. -/
def ended : Host :=
  ((receipt.before.enter receipt.transaction.caller receipt.transaction.arguments).run
    (Contract.dispatch receipt.transaction.function).run).2

def judgement : Except Fault Deed :=
  Contract.judgeName receipt.before.storage receipt.transaction.caller
    receipt.transaction.arguments receipt.transaction.function

end Receipt

namespace Host

/-- The receipts of a run, in order. -/
def receipts (host : Host) : List Transaction → List Receipt
  | [] => []
  | transaction :: transactions =>
    let receipt : Receipt := ⟨transaction, host⟩
    receipt :: receipt.after.receipts transactions

def transactAll (host : Host) (transactions : List Transaction) : Host :=
  transactions.foldl (fun host transaction => (Receipt.mk transaction host).after) host

end Host

namespace Receipt

variable {receipt : Receipt}

section Success

variable {deed : Deed} (h : receipt.judgement = .ok deed)
include h

lemma result_of_ok : receipt.result = .ok deed.output := by
  rw [result, Host.dispatch_of_ok h]

lemma storage_after_of_ok : receipt.after.storage = deed.applyTo receipt.before.storage := by
  rw [after, Host.dispatch_of_ok h]
  rfl

lemma logs_after_of_ok : receipt.after.logs = receipt.before.logs ++ deed.logs := by
  rw [after, Host.dispatch_of_ok h]
  rfl

lemma lastSignal_after_of_ok : receipt.after.lastSignal = none := by
  rw [after, Host.dispatch_of_ok h]
  rfl

lemma writes_after_of_ok : receipt.after.writes = deed.writes := by
  rw [after, Host.dispatch_of_ok h]
  rfl

end Success

section Failure

variable {fault : Fault} (h : receipt.judgement = .error fault)
include h

lemma result_of_error : receipt.result = .error fault := by
  rw [result, Host.dispatch_of_error h]

lemma state_after_of_error : receipt.after.state = receipt.before.state := by
  rw [after, Host.dispatch_of_error h]

lemma lastSignal_after_of_error :
    receipt.after.lastSignal = some (Bytes.ofString fault.code) := by
  rw [after, Host.dispatch_of_error h]
  rfl

lemma writes_after_of_error : receipt.after.writes = 0 := by
  rw [after, Host.dispatch_of_error h]
  rfl

lemma ended_of_error :
    receipt.ended =
      { receipt.before.enter receipt.transaction.caller receipt.transaction.arguments with
        context.signal := some (Bytes.ofString fault.code) } := by
  rw [judgement] at h
  rw [ended, Host.run_enter_dispatch, h]

end Failure

end Receipt

end FixedSupply
