import Mathlib.Data.List.Forall2
import FixedSupply.Proofs.Transactions

/-!
# Validation before any write

A transaction that fails has written nothing when its entry point ends, so there is nothing for the
host to undo. A host that rolls back and one whose writes are final therefore run every sequence of
transactions in lock step.
-/

namespace FixedSupply

attribute [ext] State

namespace Receipt

/-- Two hosts answer a transaction alike and show the same afterwards. -/
structure Agrees (a b : Receipt) : Prop where
  result_eq : a.result = b.result
  storage_eq : a.after.storage = b.after.storage
  logs_eq : a.after.logs = b.after.logs
  lastSignal_eq : a.after.lastSignal = b.after.lastSignal
  writes_eq : a.after.writes = b.after.writes

/-- The transaction has written nothing, neither when its entry point ends nor afterwards. -/
structure Untouched (receipt : Receipt) : Prop where
  ended_storage : receipt.ended.storage = receipt.before.storage
  ended_pending : receipt.ended.context.pending = []
  storage_eq : receipt.after.storage = receipt.before.storage
  logs_eq : receipt.after.logs = receipt.before.logs
  writes_eq : receipt.after.writes = 0

/-- On one state, rolled back or not, a transaction has one outcome. -/
lemma agrees_of_state_eq {a b : Receipt} (htransaction : a.transaction = b.transaction)
    (hstate : a.before.state = b.before.state) :
    Agrees a b ∧ a.after.state = b.after.state := by
  have hstorage : a.before.storage = b.before.storage := congrArg State.storage hstate
  have hlogs : a.before.logs = b.before.logs := congrArg State.logs hstate
  have hjudgement : a.judgement = b.judgement := by
    rw [judgement, judgement, htransaction, hstorage]
  cases hb : b.judgement with
  | ok deed =>
    have ha := hjudgement.trans hb
    have hs : a.after.storage = b.after.storage := by
      rw [storage_after_of_ok ha, storage_after_of_ok hb, hstorage]
    have hl : a.after.logs = b.after.logs := by
      rw [logs_after_of_ok ha, logs_after_of_ok hb, hlogs]
    refine ⟨⟨?_, hs, hl, ?_, ?_⟩, ?_⟩
    · rw [result_of_ok ha, result_of_ok hb]
    · rw [lastSignal_after_of_ok ha, lastSignal_after_of_ok hb]
    · rw [writes_after_of_ok ha, writes_after_of_ok hb]
    · exact State.ext hs hl
  | error fault =>
    have ha := hjudgement.trans hb
    have hs : a.after.state = b.after.state := by
      rw [state_after_of_error ha, state_after_of_error hb, hstate]
    refine ⟨⟨?_, congrArg State.storage hs, congrArg State.logs hs, ?_, ?_⟩, hs⟩
    · rw [result_of_error ha, result_of_error hb]
    · rw [lastSignal_after_of_error ha, lastSignal_after_of_error hb]
    · rw [writes_after_of_error ha, writes_after_of_error hb]

lemma untouched_of_result {receipt : Receipt} {fault : Fault} (h : receipt.result = .error fault) :
    receipt.Untouched := by
  cases hjudgement : receipt.judgement with
  | ok deed =>
    rw [result_of_ok hjudgement] at h
    exact absurd h (by simp)
  | error fault =>
    have hended := ended_of_error hjudgement
    have hstate := state_after_of_error hjudgement
    constructor
    · rw [hended]
      rfl
    · rw [hended]
      rfl
    · exact congrArg State.storage hstate
    · exact congrArg State.logs hstate
    · exact writes_after_of_error hjudgement

end Receipt

lemma receipts_agree (transactions : List Transaction) {a b : Host} (h : a.state = b.state) :
    List.Forall₂ Receipt.Agrees (a.receipts transactions) (b.receipts transactions) := by
  induction transactions generalizing a b with
  | nil => exact .nil
  | cons transaction transactions ih =>
    obtain ⟨hagrees, hstate⟩ :=
      Receipt.agrees_of_state_eq (a := ⟨transaction, a⟩) (b := ⟨transaction, b⟩) rfl h
    exact .cons hagrees (ih hstate)

/-- Rolling back is never needed: on one state, whatever contexts are left over, a host that rolls
back and one that does not agree after every transaction of every run, and on both a transaction that
fails leaves everything untouched. -/
theorem rollback_never_needed (state : State) (undoing lasting : Context)
    (transactions : List Transaction) :
    List.Forall₂ Receipt.Agrees ((Host.mk state true undoing).receipts transactions)
        ((Host.mk state false lasting).receipts transactions) ∧
      ∀ rollback context, ∀ receipt ∈ (Host.mk state rollback context).receipts transactions,
        ∀ fault, receipt.result = .error fault → receipt.Untouched := by
  constructor
  · exact receipts_agree transactions rfl
  · intro rollback context receipt _ fault hfault
    exact Receipt.untouched_of_result hfault

end FixedSupply
