import Mathlib.Data.List.Forall2
import FixedSupply.Machine
import FixedSupply.Proofs.Transactions
import FixedSupply.Proofs.UntrustedHosts

/-!
# The machine refines the host

The imports of the virtual machine and the in-memory host are two ways to serve one contract. On a
machine that tells the truth about the arguments they answer every request alike, so a program that
does not signal runs in lock step on both. A signal ends a call on the machine and discards its
effects; on the host it comes when the entry point has failed without an effect. Lengths are plain
numbers here, as they are on a machine where all of them are below `2 ^ 31`.
-/

namespace FixedSupply

def LogEntry.record (entry : LogEntry) : LogRecord :=
  ⟨entry.data, entry.topics.flatMap (·.bytes), entry.topics.length⟩

namespace Machine

variable {α : Type}

lemma Setting.madeUp_of_nonpos (setting : Setting) {trace : List Import} {key : Bytes}
    (h : setting.absent trace key ≤ 0) : setting.madeUp trace key = [] := by
  rw [madeUp, Int.toNat_of_nonpos h, List.range_zero, List.map_nil]

/-- The machine stands where the host stands in the middle of an invocation. -/
structure Mirrors (setting : Setting) (machine : Machine) (host : Host) : Prop where
  caller_eq : setting.caller = host.context.caller
  arguments_eq : setting.arguments = host.context.arguments
  absent_nonpos (trace : List Import) (key : Bytes) : setting.absent trace key ≤ 0
  counts_eq : machine.counts = []
  storage_eq : machine.storage = host.storage
  output_eq : machine.output = host.context.output
  logs_eq : machine.logs = host.context.pending.map LogEntry.record

variable {setting : Setting} {machine : Machine} {host : Host}

lemma Mirrors.record (h : Mirrors setting machine host) (call : Import) :
    Mirrors setting (machine.record call) host :=
  { h with }

lemma Mirrors.argumentCount (h : Mirrors setting machine host) :
    (machine.argumentCount setting).1 = host.context.arguments.length ∧
      Mirrors setting (machine.argumentCount setting).2 host := by
  unfold Machine.argumentCount
  rw [h.counts_eq, h.arguments_eq]
  constructor
  · simp
  · exact { h with counts_eq := rfl }

lemma Mirrors.argument (h : Mirrors setting machine host) (index : ℕ) :
    (machine.argument setting index).1 = host.context.arguments[index]? ∧
      Mirrors setting (machine.argument setting index).2 host := by
  obtain ⟨hcount, hmirrors⟩ := h.argumentCount
  unfold Machine.argument
  simp only [hcount]
  by_cases hindex : host.context.arguments.length ≤ index
  · rw [if_pos hindex]
    exact ⟨(List.getElem?_eq_none hindex).symm, hmirrors⟩
  · rw [if_neg hindex]
    have hlt : index < host.context.arguments.length := Nat.lt_of_not_le hindex
    rw [h.arguments_eq, List.getElem?_eq_getElem hlt]
    constructor
    · rfl
    · simp only
      split
      · exact hmirrors.record _
      · exact (hmirrors.record _).record _

lemma Mirrors.load (h : Mirrors setting machine host) (key : Bytes) :
    (machine.load setting key).1 = host.storage.load key ∧
      Mirrors setting (machine.load setting key).2 host := by
  unfold Machine.load
  constructor
  · rw [h.storage_eq]
    cases hstored : host.storage.get? key with
    | some value => simp [Storage.load, hstored]
    | none =>
      -- No room is made for an absent value, because its length is not positive.
      have hempty : setting.madeUp machine.trace key = [] :=
        setting.madeUp_of_nonpos (h.absent_nonpos machine.trace key)
      simp [Storage.load, hstored, hempty]
  · simp only
    split
    · exact h.record _
    · exact (h.record _).record _

/-- The two serve every request but a signal alike. -/
theorem Mirrors.perform (h : Mirrors setting machine host) {request : Request}
    (silent : request.Silent) :
    (machine.perform setting request).1 = .ok (host.answer request).1 ∧
      Mirrors setting (machine.perform setting request).2 (host.answer request).2 := by
  cases request with
  | signal message => exact silent.elim
  | caller => exact ⟨congrArg Except.ok h.caller_eq, h.record _⟩
  | argumentCount =>
    obtain ⟨hcount, hmirrors⟩ := h.argumentCount
    exact ⟨congrArg Except.ok hcount, hmirrors⟩
  | argument index =>
    obtain ⟨hargument, hmirrors⟩ := h.argument index
    exact ⟨congrArg Except.ok hargument, hmirrors⟩
  | load key =>
    obtain ⟨hvalue, hmirrors⟩ := h.load key
    exact ⟨congrArg Except.ok hvalue, hmirrors⟩
  | store key value =>
    have hstorage : machine.storage.store key value = host.storage.store key value := by
      rw [h.storage_eq]
    exact ⟨rfl, { h with storage_eq := hstorage }⟩
  | finish data =>
    have houtput : machine.output ++ [data] = host.context.output ++ [data] := by
      rw [h.output_eq]
    exact ⟨rfl, { h with output_eq := houtput }⟩
  | log entry =>
    have hlogs : machine.logs ++ [entry.record] =
        (host.context.pending ++ [entry]).map LogEntry.record := by
      rw [h.logs_eq, List.map_append, List.map_singleton]
    exact ⟨rfl, { h with logs_eq := hlogs }⟩

/-- A program that settles with every untrusted host runs in lock step on both. -/
theorem Mirrors.run {program : Program α} {post : α → Stage → Prop} {stage : Stage}
    (ensured : program.Ensures Loads.Faithful post stage) {machine : Machine} {host : Host}
    (hstorage : stage.storage = host.storage) (h : Mirrors setting machine host) :
    (machine.run setting program).1 = .ok (host.run program).1 ∧
      Mirrors setting (machine.run setting program).2 (host.run program).2 := by
  induction program generalizing machine host stage with
  | done value => exact ⟨rfl, h⟩
  | ask request next ih =>
    obtain ⟨silent, hnext⟩ := ensured
    obtain ⟨hanswer, hmirrors⟩ := h.perform silent
    have hafter : (stage.after request).storage = (host.answer request).2.storage := by
      rw [Host.storage_answer, ← hstorage]
      rfl
    have hrest := ih _ (hnext _ (stage.admits_answer hstorage request)) hafter hmirrors
    have hstep : machine.run setting (.ask request next) =
        (machine.perform setting request).2.run setting (next (host.answer request).1) := by
      rw [Machine.run]
      split
      next answer after heq =>
        rw [heq] at hanswer
        rw [heq, Except.ok.inj hanswer]
      next message after heq =>
        rw [heq] at hanswer
        exact absurd hanswer (by simp)
    rw [hstep]
    exact hrest

end Machine

/-- A call of an exported entry point on a machine that answers no positive length for a key that is
not stored. -/
structure ExportCall where
  entry : EntryPoint
  setting : Machine.Setting
  absent_nonpos (trace : List Import) (key : Bytes) : setting.absent trace key ≤ 0

def ExportCall.transaction (call : ExportCall) : Transaction :=
  ⟨call.setting.caller, call.setting.arguments, call.entry.name⟩

/-- The results of calls one after another, each on the storage that the last one left. The machine
answers the true number of arguments. -/
def Machine.session (storage : Storage) : List ExportCall → List Machine.Result
  | [] => []
  | call :: calls =>
    let result := Machine.call call.setting [] storage call.entry
    result :: session result.storage calls

def Receipt.returned (receipt : Receipt) : List Bytes :=
  match receipt.result with
  | .ok values => values
  | .error _ => []

/-- The machine shows after a call what a host shows after the transaction. -/
structure Machine.Result.Shows (result : Machine.Result) (receipt : Receipt) : Prop where
  storage_eq : result.storage = receipt.after.storage
  output_eq : result.output = receipt.returned
  logs_eq : ∃ committed, receipt.after.logs = receipt.before.logs ++ committed ∧
    result.logs = committed.map LogEntry.record
  signal_eq : result.signal = receipt.after.lastSignal

namespace Machine

lemma run_dispatch (setting : Setting) (machine : Machine) (entry : EntryPoint) :
    machine.run setting (Contract.dispatch entry.name).run =
      match machine.run setting (Contract.invoke entry).run with
      | (.ok (.ok value), after) => (.ok (.ok value), after)
      | (.ok (.error fault), after) =>
        (.error (Bytes.ofString fault.code), after.record (.signalError (Bytes.ofString fault.code)))
      | (.error message, after) => (.error message, after) := by
  unfold Contract.dispatch
  rw [ExceptT.run_mk, EntryPoint.ofName?_name]
  simp only [run_bind]
  cases machine.run setting (Contract.invoke entry).run with
  | mk outcome after =>
    cases outcome with
    | error message => rfl
    | ok outcome =>
      cases outcome with
      | ok value => rfl
      | error fault => rfl

lemma mirrors_start (call : ExportCall) (host : Host) :
    Mirrors call.setting ⟨host.storage, [], [], [], []⟩
      (host.enter call.setting.caller call.setting.arguments) :=
  ⟨rfl, rfl, call.absent_nonpos, rfl, rfl, rfl, rfl⟩

lemma Mirrors.invoke {setting : Setting} {machine : Machine} {host : Host}
    (h : Mirrors setting machine host) (entry : EntryPoint) :
    let settled := host.settle
      (Contract.judge host.storage host.context.caller entry host.context.arguments)
    ∃ after, machine.run setting (Contract.invoke entry).run = (.ok settled.1, after) ∧
      Mirrors setting after settled.2 := by
  obtain ⟨houtcome, hmirrors⟩ :=
    h.run (Contract.ensures_invoke Loads.Faithful ⟨host.storage, []⟩ entry) rfl
  rw [Host.run_invoke] at houtcome hmirrors
  exact ⟨_, Prod.ext houtcome rfl, hmirrors⟩

/-- One call on the machine shows what the transaction does on a host with the same storage. -/
theorem call_shows (call : ExportCall) (host : Host) :
    (Machine.call call.setting [] host.storage call.entry).Shows ⟨call.transaction, host⟩ := by
  let receipt : Receipt := ⟨call.transaction, host⟩
  obtain ⟨after, hrun, hmirrors⟩ := (mirrors_start call host).invoke call.entry
  have hjudgement : receipt.judgement =
      Contract.judge host.storage call.setting.caller call.entry call.setting.arguments := by
    simp only [receipt, Receipt.judgement, Contract.judgeName, ExportCall.transaction,
      EntryPoint.ofName?_name]
  -- The entered host has the storage, the caller and the arguments that the receipt is judged by.
  change _ = (Except.ok ((host.enter _ _).settle (Contract.judge host.storage call.setting.caller
    call.entry call.setting.arguments)).1, after) at hrun
  change Mirrors _ _ ((host.enter _ _).settle (Contract.judge host.storage call.setting.caller
    call.entry call.setting.arguments)).2 at hmirrors
  rw [← hjudgement] at hrun hmirrors
  unfold Machine.call
  simp only [run_dispatch, hrun]
  cases hcase : receipt.judgement with
  | ok deed =>
    rw [hcase] at hmirrors
    refine ⟨?_, ?_, ⟨deed.logs, Receipt.logs_after_of_ok hcase, ?_⟩, ?_⟩
    · rw [Receipt.storage_after_of_ok hcase]
      exact hmirrors.storage_eq
    · rw [Receipt.returned, Receipt.result_of_ok hcase]
      exact hmirrors.output_eq
    · exact hmirrors.logs_eq
    · exact (Receipt.lastSignal_after_of_ok hcase).symm
  | error fault =>
    have hstate := Receipt.state_after_of_error hcase
    refine ⟨?_, ?_, ⟨[], ?_, rfl⟩, ?_⟩
    · exact (congrArg State.storage hstate).symm
    · rw [Receipt.returned, Receipt.result_of_error hcase]
      rfl
    · rw [List.append_nil]
      exact congrArg State.logs hstate
    · exact (Receipt.lastSignal_after_of_error hcase).symm

end Machine

/-- Every session of exported calls on the machine, whatever the storage holds at its start, shows
after each call what a host with the same storage shows after the same transaction: the storage, the
returned values, the log entries that the transaction commits and the signalled failure. -/
theorem machine_refines_host (host : Host) (calls : List ExportCall) :
    List.Forall₂ Machine.Result.Shows (Machine.session host.storage calls)
      (host.receipts (calls.map ExportCall.transaction)) := by
  induction calls generalizing host with
  | nil => exact .nil
  | cons call calls ih =>
    have hcall := Machine.call_shows call host
    refine .cons hcall ?_
    rw [hcall.storage_eq]
    exact ih (Receipt.mk call.transaction host).after

end FixedSupply
