import FixedSupply.Proofs.Clients

/-!
# The effect of a transfer

What a transfer answers, what it logs and what every key of the storage holds after it, on any storage
whatsoever: the entries need not have been written by the ledger, so a balance may be absent, empty or
written with leading zeros.
-/

namespace FixedSupply

namespace Storage

variable (storage : Storage)

lemma get?_setBalance (address : Address) (amount : Amount) (key : Bytes) :
    (storage.setBalance address amount).get? key =
      if key = address.bytes then (if amount = 0 then none else some (Amount.toBytes amount))
      else storage.get? key := by
  unfold setBalance Token.balanceKey
  rw [get?_store]
  simp only [Amount.toBytes_eq_nil_iff]

/-- A move writes the two balances and no other key. -/
theorem get?_applyTo_move {sender recipient : Address} {amount : Amount}
    (h : ¬(amount = 0 ∨ sender = recipient)) (key : Bytes) :
    ((Deed.move sender recipient amount).applyTo storage).get? key =
      if key = recipient.bytes then some (Amount.toBytes (storage.balance recipient + amount))
      else if key = sender.bytes then
        if storage.balance sender - amount = 0 then none
        else some (Amount.toBytes (storage.balance sender - amount))
      else storage.get? key := by
  have hcredit : storage.balance recipient + amount ≠ 0 := by
    intro hzero
    exact h (.inl (Nat.eq_zero_of_add_eq_zero_left hzero))
  rw [Deed.applyTo_move storage h, get?_setBalance, get?_setBalance, if_neg hcredit]

/-- A covered move takes the amount from its sender and gives it to its recipient, who may be the
same. -/
theorem balance_applyTo_move {sender : Address} {amount : Amount}
    (covered : amount ≤ storage.balance sender) (recipient holder : Address) :
    ((Deed.move sender recipient amount).applyTo storage).balance holder +
        (if holder = sender then amount else 0) =
      storage.balance holder + (if holder = recipient then amount else 0) := by
  by_cases hidle : amount = 0 ∨ sender = recipient
  · rw [Deed.applyTo_move_of_idle storage hidle]
    rcases hidle with rfl | rfl
    · simp
    · rfl
  · obtain ⟨-, hne⟩ := not_or.mp hidle
    rw [Deed.applyTo_move storage hidle, balance_setBalance, balance_setBalance]
    by_cases hrecipient : holder = recipient
    · have hsender : holder ≠ sender := fun h => hne (h.symm.trans hrecipient)
      rw [if_neg hsender, if_pos hrecipient, hrecipient, Function.update_self, Nat.add_zero]
    · rw [Function.update_of_ne hrecipient, if_neg hrecipient, Nat.add_zero]
      by_cases hsender : holder = sender
      · rw [if_pos hsender, hsender, Function.update_self, Nat.sub_add_cancel covered]
      · rw [if_neg hsender, Function.update_of_ne hsender, Nat.add_zero]

end Storage

namespace Host

/-- An invocation from outside whose only step is an operation of the ledger. -/
def operate (host : Host) (caller : Address) (arguments : List Bytes) (operation : Operation) :
    Except Fault (List Bytes) × Host :=
  host.call caller arguments (.ofAction operation.action)

variable {host : Host} {caller : Address} {arguments : List Bytes} {operation : Operation}

lemma operate_eq :
    host.operate caller arguments operation =
      let ended := (host.enter caller arguments).run operation.action.run
      ended.2.leave host.storage ended.1 := by
  unfold operate call callNoted Invocation.ofAction
  rw [Invocation.run_ofProgram]
  rfl

lemma run_enter_invoke (entry : EntryPoint) :
    (host.enter caller arguments).run (Contract.invoke entry).run =
      (host.enter caller arguments).settle (Contract.judge host.storage caller entry arguments) :=
  run_invoke (host.enter caller arguments) entry

theorem operate_of_ok {deed : Deed} (h : operation.judge host.storage caller arguments = .ok deed) :
    host.operate caller arguments operation =
      (.ok deed.output,
        { host with
          state := ⟨deed.applyTo host.storage, host.logs ++ deed.logs⟩
          context := { Context.start caller arguments with writes := deed.writes } }) := by
  cases operation with
  | dispatch function => exact dispatch_of_ok h
  | invoke entry =>
    have hjudge : Contract.judge host.storage caller entry arguments = .ok deed := h
    rw [operate_eq, Operation.action, run_enter_invoke, hjudge]
    simp [settle, leave, perform, enter, Context.start, storage, logs]

/-- Whether or not its fault is signalled, an operation that fails changes nothing. -/
theorem operate_of_error {fault : Fault}
    (h : operation.judge host.storage caller arguments = .error fault) :
    (host.operate caller arguments operation).1 = .error fault ∧
      (host.operate caller arguments operation).2.state = host.state ∧
        (host.operate caller arguments operation).2.writes = 0 := by
  cases operation with
  | dispatch function =>
    have hsame : host.operate caller arguments (.dispatch function) =
        host.dispatch caller arguments function := rfl
    rw [hsame, dispatch_of_error h]
    exact ⟨rfl, rfl, rfl⟩
  | invoke entry =>
    have hjudge : Contract.judge host.storage caller entry arguments = .error fault := h
    rw [operate_eq, Operation.action, run_enter_invoke, hjudge]
    cases hrollback : host.rollback with
    | true => simp [settle, leave, enter, Context.start, withStorage, storage, writes, hrollback]
    | false => simp [settle, leave, enter, Context.start, writes, hrollback]

end Host

namespace Operation

lemma judge_of_named {operation : Operation} {entry : EntryPoint}
    (h : operation.entry? = some entry) (storage : Storage) (caller : Address)
    (arguments : List Bytes) :
    operation.judge storage caller arguments = Contract.judge storage caller entry arguments := by
  cases operation with
  | dispatch function =>
    have hname : EntryPoint.ofName? function = some entry := h
    rw [judge, Contract.judgeName, hname]
  | invoke other =>
    obtain rfl : other = entry := Option.some.inj h
    rfl

end Operation

lemma Contract.judge_transfer (storage : Storage) (sender recipient : Address) (bytes : Bytes) :
    judge storage sender .transfer [recipient.bytes, bytes] =
      if storage.balance sender < Amount.ofBytes bytes then
        .error (.insufficientBalance (storage.balance sender) (Amount.ofBytes bytes))
      else .ok (.move sender recipient (Amount.ofBytes bytes)) := by
  have haddress : Bytes32.ofBytes? recipient.bytes = some recipient :=
    Bytes32.ofBytes?_eq_some_iff.mpr rfl
  rw [judge, haddress]

/-- The exact effect of a transfer, whether it is asked for by its name or as such. An amount above the
sender's balance is refused and changes nothing. Any other one is logged, and moved by two writes unless
there is nothing to move: under the two addresses stand the new balances in their canonical encoding,
and every other key holds the bytes that it held. The encoding of an amount is read as that amount and has
no zero byte in front. -/
theorem transfer_exact (host : Host) (sender recipient : Address) (bytes : Bytes)
    (operation : Operation) (hentry : operation.entry? = some .transfer) :
    let after := (host.operate sender [recipient.bytes, bytes] operation).2
    let result := (host.operate sender [recipient.bytes, bytes] operation).1
    let amount := Amount.ofBytes bytes
    let available := Amount.ofBytes (host.storage.load sender.bytes)
    let held := Amount.ofBytes (host.storage.load recipient.bytes)
    (∀ n : Amount, Amount.Encodes (Amount.toBytes n) n) ∧
      (available < amount →
        result = .error (.insufficientBalance available amount) ∧
          after.storage = host.storage ∧ after.logs = host.logs ∧ after.writes = 0) ∧
      (amount ≤ available →
        result = .ok [] ∧
          after.logs =
            host.logs ++ [⟨[EventKind.transfer.topic, sender, recipient], Amount.toBytes amount⟩] ∧
          (amount = 0 ∨ sender = recipient → after.storage = host.storage ∧ after.writes = 0) ∧
          (amount ≠ 0 → sender ≠ recipient →
            after.writes = 2 ∧
              after.storage.get? sender.bytes =
                (if available = amount then none else some (Amount.toBytes (available - amount))) ∧
              after.storage.get? recipient.bytes = some (Amount.toBytes (held + amount)) ∧
              (∀ key, key ≠ sender.bytes → key ≠ recipient.bytes →
                after.storage.get? key = host.storage.get? key) ∧
              after.storage.get? Token.supplyKey = host.storage.get? Token.supplyKey ∧
              after.storage.get? Token.mintedKey = host.storage.get? Token.mintedKey)) := by
  intro after result amount available held
  have hjudge := operation.judge_of_named hentry host.storage sender [recipient.bytes, bytes]
  rw [Contract.judge_transfer] at hjudge
  refine ⟨Amount.encodes_toBytes, ?_, ?_⟩
  · intro hlt
    have hlt' : host.storage.balance sender < Amount.ofBytes bytes := hlt
    rw [if_pos hlt'] at hjudge
    obtain ⟨hresult, hstate, hwrites⟩ := Host.operate_of_error hjudge
    exact ⟨hresult, congrArg State.storage hstate, congrArg State.logs hstate, hwrites⟩
  · intro hle
    have hnot : ¬host.storage.balance sender < Amount.ofBytes bytes := Nat.not_lt.mpr hle
    rw [if_neg hnot] at hjudge
    have hcall := Host.operate_of_ok hjudge
    have hstorage : after.storage = (Deed.move sender recipient amount).applyTo host.storage :=
      congrArg (fun ended => ended.2.storage) hcall
    have hwrites : after.writes = if amount = 0 ∨ sender = recipient then 0 else 2 :=
      congrArg (fun ended => ended.2.writes) hcall
    refine ⟨congrArg Prod.fst hcall, congrArg (fun ended => ended.2.logs) hcall, ?_, ?_⟩
    · intro hidle
      rw [hstorage, hwrites, if_pos hidle, Deed.applyTo_move_of_idle _ hidle]
      exact ⟨rfl, rfl⟩
    · intro hamount hne
      have hmoves : ¬(amount = 0 ∨ sender = recipient) := not_or.mpr ⟨hamount, hne⟩
      have hget := host.storage.get?_applyTo_move hmoves
      rw [← hstorage] at hget
      have hframe : ∀ key, key ≠ sender.bytes → key ≠ recipient.bytes →
          after.storage.get? key = host.storage.get? key := by
        intro key hsender hrecipient
        rw [hget, if_neg hrecipient, if_neg hsender]
      have hdebit : host.storage.balance sender - amount = 0 ↔ available = amount := by
        have hsame : host.storage.balance sender = available := rfl
        rw [hsame]
        simp only [Amount] at *
        omega
      refine ⟨by rw [hwrites, if_neg hmoves], ?_, ?_, hframe, ?_, ?_⟩
      · have hkeys : sender.bytes ≠ recipient.bytes := fun h => hne (Bytes32.bytes_injective h)
        rw [hget, if_neg hkeys, if_pos rfl, if_congr hdebit rfl rfl]
        rfl
      · rw [hget, if_pos rfl]
        rfl
      · exact hframe _ (Token.balanceKey_ne_supplyKey sender).symm
          (Token.balanceKey_ne_supplyKey recipient).symm
      · exact hframe _ (Token.balanceKey_ne_mintedKey sender).symm
          (Token.balanceKey_ne_mintedKey recipient).symm

/-- All of a balance with leading zeros is moved to an account with an empty value. -/
theorem transfer_exact_of_emptied_account :
    let sender : Address := .zero
    let recipient : Address := ⟨List.replicate 32 7, rfl⟩
    let host : Host :=
      ⟨⟨.ofList [(sender.bytes, [0, 0, 5]), (recipient.bytes, [])], []⟩, true, .start .zero []⟩
    let after := (host.operate sender [recipient.bytes, [0, 5]] (.dispatch "transfer")).2
    Operation.entry? (.dispatch "transfer") = some .transfer ∧
      after.writes = 2 ∧ after.storage.get? sender.bytes = none ∧
        after.storage.get? recipient.bytes = some (Amount.toBytes 5) := by
  intro sender recipient host after
  have hentry : Operation.entry? (.dispatch "transfer") = some .transfer := by decide
  have hcovered : Amount.ofBytes [0, 5] ≤ Amount.ofBytes (host.storage.load sender.bytes) := by
    decide +kernel
  obtain ⟨-, -, heffect⟩ := transfer_exact host sender recipient [0, 5] (.dispatch "transfer") hentry
  obtain ⟨-, -, -, hmoved⟩ := heffect hcovered
  obtain ⟨hwrites, hsender, hrecipient, -⟩ := hmoved (by decide) (by decide)
  refine ⟨hentry, hwrites, ?_, ?_⟩
  · rw [hsender]
    decide +kernel
  · rw [hrecipient]
    decide +kernel

end FixedSupply
