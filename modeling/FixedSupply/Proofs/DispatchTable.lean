import FixedSupply.Proofs.SingleMint
import FixedSupply.Proofs.TransferEffect

/-!
# The decision on a dispatched call

Which fault a call ends with, or which values it returns, for every name, every list of arguments and
every storage. The rows of the table are the cases of `Contract.judge`, said in terms of the bytes that
are stored and given.
-/

namespace FixedSupply

namespace Contract

variable (storage : Storage) (caller : Address)

/-- What a judged entry point returns. -/
def verdict (entry : EntryPoint) (arguments : List Bytes) : Except Fault (List Bytes) :=
  (judge storage caller entry arguments).map Deed.output

lemma verdict_of_length_ne {entry : EntryPoint} {arguments : List Bytes}
    (h : arguments.length ≠ entry.argumentCount) :
    verdict storage caller entry arguments =
      .error (.argumentCount entry.argumentCount arguments.length) := by
  rw [verdict, judge_of_length_ne storage caller h]
  rfl

lemma verdict_init (supply : Bytes) :
    verdict storage caller .init [supply] =
      if storage.load Token.mintedKey = [] then .ok [] else .error .alreadyInitialized := by
  unfold verdict judge Storage.minted
  cases storage.load Token.mintedKey with
  | nil => rfl
  | cons byte bytes => rfl

lemma verdict_balanceOf (address : Bytes) :
    verdict storage caller .balanceOf [address] =
      if address.length = 32 then .ok [Amount.toBytes (Amount.ofBytes (storage.load address))]
      else .error (.invalidArgument 0 .notAnAddress) := by
  cases haddress : Bytes32.ofBytes? address with
  | none =>
    rw [if_neg (Bytes32.ofBytes?_eq_none_iff.mp haddress), verdict, judge, haddress]
    rfl
  | some subject =>
    obtain rfl := Bytes32.ofBytes?_eq_some_iff.mp haddress
    rw [if_pos subject.length_bytes, verdict, judge, haddress]
    rfl

lemma verdict_transfer (recipient amount : Bytes) :
    verdict storage caller .transfer [recipient, amount] =
      if recipient.length ≠ 32 then .error (.invalidArgument 0 .notAnAddress)
      else if Amount.ofBytes (storage.load caller.bytes) < Amount.ofBytes amount then
        .error (.insufficientBalance (Amount.ofBytes (storage.load caller.bytes))
          (Amount.ofBytes amount))
      else .ok [] := by
  cases haddress : Bytes32.ofBytes? recipient with
  | none =>
    rw [if_pos (Bytes32.ofBytes?_eq_none_iff.mp haddress), verdict, judge, haddress]
    rfl
  | some address =>
    obtain rfl := Bytes32.ofBytes?_eq_some_iff.mp haddress
    rw [if_neg (not_not.mpr address.length_bytes), verdict, judge_transfer, apply_ite (Except.map _)]
    rfl

lemma verdict_totalSupply :
    verdict storage caller .totalSupply [] =
      .ok [Amount.toBytes (Amount.ofBytes (storage.load Token.supplyKey))] := rfl

/-- An entry point with as many arguments as it takes fails for one of three reasons. -/
lemma fault_of_verdict {entry : EntryPoint} {arguments : List Bytes} {fault : Fault}
    (hcount : arguments.length = entry.argumentCount)
    (h : verdict storage caller entry arguments = .error fault) :
    fault = .alreadyInitialized ∨ fault = .invalidArgument 0 .notAnAddress ∨
      ∃ available requested, fault = .insufficientBalance available requested := by
  cases entry with
  | init =>
    obtain ⟨supply, rfl⟩ := List.length_eq_one_iff.mp hcount
    rw [verdict_init] at h
    split at h
    · exact absurd h (by simp)
    · exact .inl (Except.error.inj h).symm
  | balanceOf =>
    obtain ⟨address, rfl⟩ := List.length_eq_one_iff.mp hcount
    rw [verdict_balanceOf] at h
    split at h
    · exact absurd h (by simp)
    · exact .inr (.inl (Except.error.inj h).symm)
  | transfer =>
    obtain ⟨recipient, amount, rfl⟩ := List.length_eq_two.mp hcount
    rw [verdict_transfer] at h
    split at h
    · exact .inr (.inl (Except.error.inj h).symm)
    · split at h
      · exact .inr (.inr ⟨_, _, (Except.error.inj h).symm⟩)
      · exact absurd h (by simp)
  | totalSupply =>
    obtain rfl := List.length_eq_zero_iff.mp hcount
    rw [verdict_totalSupply] at h
    exact absurd h (by simp)

lemma fault_ne_of_verdict {entry : EntryPoint} {arguments : List Bytes} {fault : Fault}
    (h : verdict storage caller entry arguments = .error fault) :
    fault ≠ .unknownFunction ∧ fault ≠ .underflow := by
  by_cases hcount : arguments.length = entry.argumentCount
  · rcases fault_of_verdict storage caller hcount h with rfl | rfl | ⟨available, requested, rfl⟩
    · simp
    · simp
    · simp
  · rw [verdict_of_length_ne storage caller hcount] at h
    obtain rfl := (Except.error.inj h).symm
    simp

/-- The count of the arguments is wrong just if the verdict says so. -/
lemma verdict_eq_argumentCount_iff (entry : EntryPoint) (arguments : List Bytes)
    (expected actual : ℕ) :
    verdict storage caller entry arguments = .error (.argumentCount expected actual) ↔
      arguments.length ≠ entry.argumentCount ∧
        expected = entry.argumentCount ∧ actual = arguments.length := by
  constructor
  · intro h
    have hcount : arguments.length ≠ entry.argumentCount := by
      intro hcount
      rcases fault_of_verdict storage caller hcount h with h | h | ⟨_, _, h⟩
      · exact absurd h (by simp)
      · exact absurd h (by simp)
      · exact absurd h (by simp)
    rw [verdict_of_length_ne storage caller hcount] at h
    obtain ⟨hexpected, hactual⟩ := Fault.argumentCount.inj (Except.error.inj h)
    exact ⟨hcount, hexpected.symm, hactual.symm⟩
  · rintro ⟨hcount, rfl, rfl⟩
    exact verdict_of_length_ne storage caller hcount

end Contract

namespace Host

variable (host : Host) (caller : Address) (arguments : List Bytes)

lemma result_dispatch_name (entry : EntryPoint) :
    (host.dispatch caller arguments entry.name).1 =
      Contract.verdict host.storage caller entry arguments := by
  let receipt : Receipt := ⟨⟨caller, arguments, entry.name⟩, host⟩
  have hjudgement := receipt.judgement_of_name rfl
  have hresult := receipt.result_eq
  rwa [hjudgement] at hresult

lemma result_dispatch_unknown {function : String} (h : ∀ entry : EntryPoint, function ≠ entry.name) :
    (host.dispatch caller arguments function).1 = .error .unknownFunction := by
  have hname : EntryPoint.ofName? function = none := by
    rw [Option.eq_none_iff_forall_ne_some]
    intro entry hentry
    exact h entry (EntryPoint.ofName?_eq_some_iff.mp hentry)
  have hjudge : Contract.judgeName host.storage caller arguments function =
      .error .unknownFunction := by
    rw [Contract.judgeName, hname]
  rw [dispatch_of_error hjudge]

/-- The signal is the code of the fault. -/
lemma lastSignal_dispatch (function : String) :
    (host.dispatch caller arguments function).2.lastSignal =
      match (host.dispatch caller arguments function).1 with
      | .ok _ => none
      | .error fault => some (Bytes.ofString fault.code) := by
  cases hjudge : Contract.judgeName host.storage caller arguments function with
  | ok deed =>
    rw [dispatch_of_ok hjudge]
    rfl
  | error fault =>
    rw [dispatch_of_error hjudge]
    rfl

end Host

/-- The call has succeeded with one value, the canonical encoding of the amount that these bytes stand
for: it is what is left of them without the leading zeros. -/
def ReturnsAmount (result : Except Fault (List Bytes)) (stored : Bytes) : Prop :=
  ∃ value, result = .ok [value] ∧ Amount.Encodes value (Amount.ofBytes stored) ∧
    value = stored.dropWhile (· == 0)

lemma returnsAmount_of_eq {result : Except Fault (List Bytes)} {stored : Bytes}
    (h : result = .ok [Amount.toBytes (Amount.ofBytes stored)]) : ReturnsAmount result stored :=
  ⟨_, h, Amount.encodes_toBytes _, Amount.toBytes_ofBytes stored⟩

/-- What a dispatched call answers, by its name, the count of its arguments and the stored bytes, and
what it signals. -/
theorem dispatch_decided (host : Host) (caller : Address) (arguments : List Bytes)
    (function : String) :
    let result := (host.dispatch caller arguments function).1
    (result = .error .unknownFunction ↔ ∀ entry : EntryPoint, function ≠ entry.name) ∧
      (∀ entry : EntryPoint, function = entry.name → ∀ expected actual,
        (result = .error (.argumentCount expected actual) ↔
          arguments.length ≠ entry.argumentCount ∧
            expected = entry.argumentCount ∧ actual = arguments.length)) ∧
      (function = EntryPoint.init.name → ∀ supply, arguments = [supply] →
        result =
          if host.storage.load Token.mintedKey = [] then .ok [] else .error .alreadyInitialized) ∧
      (function = EntryPoint.balanceOf.name → ∀ address, arguments = [address] →
        if address.length = 32 then ReturnsAmount result (host.storage.load address)
        else result = .error (.invalidArgument 0 .notAnAddress)) ∧
      (function = EntryPoint.transfer.name → ∀ recipient amount, arguments = [recipient, amount] →
        result =
          if recipient.length ≠ 32 then .error (.invalidArgument 0 .notAnAddress)
          else if Amount.ofBytes (host.storage.load caller.bytes) < Amount.ofBytes amount then
            .error (.insufficientBalance (Amount.ofBytes (host.storage.load caller.bytes))
              (Amount.ofBytes amount))
          else .ok []) ∧
      (function = EntryPoint.totalSupply.name → arguments = [] →
        ReturnsAmount result (host.storage.load Token.supplyKey)) ∧
      result ≠ .error .underflow ∧
      (host.dispatch caller arguments function).2.lastSignal =
        match result with
        | .ok _ => none
        | .error fault => some (Bytes.ofString fault.code) := by
  intro result
  have hnamed : ∀ entry : EntryPoint, function = entry.name →
      result = Contract.verdict host.storage caller entry arguments := by
    rintro entry rfl
    exact host.result_dispatch_name caller arguments entry
  have hunnamed : (∀ entry : EntryPoint, function ≠ entry.name) → result = .error .unknownFunction :=
    host.result_dispatch_unknown caller arguments
  have hknown : ∀ entry : EntryPoint, function = entry.name →
      result ≠ .error .unknownFunction ∧ result ≠ .error .underflow := by
    intro entry hname
    rw [hnamed entry hname]
    constructor
    · intro h
      exact (Contract.fault_ne_of_verdict _ _ h).1 rfl
    · intro h
      exact (Contract.fault_ne_of_verdict _ _ h).2 rfl
  refine ⟨⟨fun hunknown entry hname => (hknown entry hname).1 hunknown, hunnamed⟩,
    ?_, ?_, ?_, ?_, ?_, ?_, host.lastSignal_dispatch caller arguments function⟩
  · intro entry hname expected actual
    rw [hnamed entry hname]
    exact Contract.verdict_eq_argumentCount_iff _ _ entry arguments expected actual
  · rintro hname supply rfl
    rw [hnamed _ hname]
    exact Contract.verdict_init _ _ supply
  · rintro hname address rfl
    have hverdict := Contract.verdict_balanceOf host.storage caller address
    rw [← hnamed _ hname] at hverdict
    by_cases hlength : address.length = 32
    · rw [if_pos hlength] at hverdict ⊢
      exact returnsAmount_of_eq hverdict
    · rw [if_neg hlength] at hverdict ⊢
      exact hverdict
  · rintro hname recipient amount rfl
    rw [hnamed _ hname]
    exact Contract.verdict_transfer _ _ recipient amount
  · rintro hname rfl
    exact returnsAmount_of_eq ((hnamed _ hname).trans (Contract.verdict_totalSupply _ _))
  · by_cases hexists : ∃ entry : EntryPoint, function = entry.name
    · obtain ⟨entry, hname⟩ := hexists
      exact (hknown entry hname).2
    · push Not at hexists
      rw [hunnamed hexists]
      simp

end FixedSupply
