import FixedSupply.Proofs.EventReplay

/-!
# The supply is minted once

On a host that started empty the first `init` with one argument mints, and no later one does. Which
transaction that is can be read off the run without executing it (`firstMint?`), and at every point of
the run the mark, the supply and the log of the host tell of this mint and of no other.
-/

namespace FixedSupply

namespace Transaction

/-- What the transaction mints if nothing was minted before it: it asks for `init` with the one
argument that `init` takes. -/
def mint? (transaction : Transaction) : Option (Address × Amount) :=
  match EntryPoint.ofName? transaction.function, transaction.arguments with
  | some .init, [supply] => some (transaction.caller, Amount.ofBytes supply)
  | _, _ => none

/-- The mint of the first transaction that can mint. -/
def firstMint? (transactions : List Transaction) : Option (Address × Amount) :=
  transactions.findSome? mint?

lemma mint?_of_ne_init {transaction : Transaction} {entry : EntryPoint}
    (hentry : EntryPoint.ofName? transaction.function = some entry) (hne : entry ≠ .init) :
    transaction.mint? = none := by
  unfold mint?
  rw [hentry]
  cases entry with
  | init => exact absurd rfl hne
  | _ => rfl

end Transaction

namespace Contract

lemma judgeName_name (storage : Storage) (caller : Address) (arguments : List Bytes)
    (entry : EntryPoint) :
    judgeName storage caller arguments entry.name = judge storage caller entry arguments := by
  rw [judgeName, EntryPoint.ofName?_name]

/-- A deed of another entry point than `init` leaves the mint alone. -/
lemma Granted.keeps_mint {storage : Storage} {caller : Address} {entry : EntryPoint}
    {arguments : List Bytes} {deed : Deed} (granted : Granted storage caller entry arguments deed)
    (hne : entry ≠ .init) :
    (deed.applyTo storage).minted = storage.minted ∧ (deed.applyTo storage).supply = storage.supply ∧
      History.ofKind deed.event?.toList .initialized = [] := by
  cases granted with
  | mint supply unminted => exact absurd rfl hne
  | balance address => exact ⟨rfl, rfl, rfl⟩
  | move recipient amount covered =>
    exact ⟨Deed.minted_applyTo_move storage, Deed.supply_applyTo_move storage, rfl⟩
  | supply => exact ⟨rfl, rfl, rfl⟩

end Contract

namespace Receipt

variable {receipt : Receipt}

lemma result_eq : receipt.result = receipt.judgement.map Deed.output := by
  cases h : receipt.judgement with
  | ok deed => exact result_of_ok h
  | error fault => exact result_of_error h

lemma judgement_of_name {entry : EntryPoint} (h : receipt.transaction.function = entry.name) :
    receipt.judgement =
      Contract.judge receipt.before.storage receipt.transaction.caller entry
        receipt.transaction.arguments := by
  rw [judgement, h, Contract.judgeName_name]

lemma judgement_of_mint? {mint : Address × Amount} (h : receipt.transaction.mint? = some mint) :
    receipt.judgement =
      if receipt.before.storage.minted then .error .alreadyInitialized
      else .ok (.mint mint.1 mint.2) := by
  unfold Transaction.mint? at h
  split at h
  next supply hentry hargs =>
    obtain rfl := Option.some.inj h
    rw [judgement_of_name (EntryPoint.ofName?_eq_some_iff.mp hentry), hargs]
    rfl
  next => exact absurd h (Option.some_ne_none mint).symm

end Receipt

namespace Host

/-- What the host tells of the mint: nothing was minted yet, or this supply to this owner. -/
structure MintedBy (host : Host) (first : Option (Address × Amount)) : Prop where
  minted : host.storage.minted = first.isSome
  supply : host.storage.supply = (first.map Prod.snd).getD 0
  events : host.events.ofKind .initialized = first.toList.map fun mint => .initialized mint.1 mint.2
  conserved : host.storage.Conserved

lemma mintedBy_fresh (rollback : Bool) : (fresh rollback).MintedBy none :=
  ⟨rfl, rfl, rfl, Storage.conserved_empty⟩

lemma MintedBy.of_state_eq {a b : Host} {first : Option (Address × Amount)} (h : a.MintedBy first)
    (hstate : b.state = a.state) : b.MintedBy first := by
  have hstorage : b.storage = a.storage := congrArg State.storage hstate
  have hlogs : b.logs = a.logs := congrArg State.logs hstate
  refine ⟨?_, ?_, ?_, ?_⟩
  · rw [hstorage, h.minted]
  · rw [hstorage, h.supply]
  · rw [Host.events, hlogs]
    exact h.events
  · rw [hstorage]
    exact h.conserved

end Host

namespace Receipt

variable {receipt : Receipt} {first : Option (Address × Amount)}

lemma ofKind_events_after (receipt : Receipt) (kind : EventKind) :
    receipt.after.events.ofKind kind =
      receipt.before.events.ofKind kind ++ History.ofKind receipt.event?.toList kind := by
  rw [events_after]
  exact List.filter_append _ _

lemma mintedBy_after_of_error (h : receipt.before.MintedBy first) {fault : Fault}
    (hjudgement : receipt.judgement = .error fault) :
    receipt.after.MintedBy (first.or receipt.transaction.mint?) := by
  have hfirst : first.or receipt.transaction.mint? = first := by
    cases first with
    | some mint => rfl
    | none =>
      -- Before the mint nothing keeps a transaction that can mint from doing so.
      cases hmint : receipt.transaction.mint? with
      | none => rfl
      | some mint =>
        have hunminted : receipt.before.storage.minted = false := h.minted
        rw [judgement_of_mint? hmint, hunminted] at hjudgement
        exact absurd hjudgement (by simp)
  rw [hfirst]
  exact h.of_state_eq (state_after_of_error hjudgement)

lemma mintedBy_after_of_ok (h : receipt.before.MintedBy first) {deed : Deed}
    (hjudgement : receipt.judgement = .ok deed) :
    receipt.after.MintedBy (first.or receipt.transaction.mint?) := by
  have hconserved := conserved_after h.conserved
  have hstorage := storage_after_of_ok hjudgement
  have hevents := receipt.ofKind_events_after .initialized
  rw [event?_of_ok hjudgement] at hevents
  obtain ⟨entry, hentry, granted⟩ := Contract.granted_of_judgeName hjudgement
  by_cases hinit : entry = .init
  · subst hinit
    obtain ⟨⟨caller, arguments, function⟩, before⟩ := receipt
    cases granted with
    | mint supply unminted =>
      obtain rfl : first = none := by
        rw [← Option.not_isSome_iff_eq_none, ← h.minted, unminted]
        exact Bool.false_ne_true
      have hmint : Transaction.mint? ⟨caller, [supply], function⟩ =
          some (caller, Amount.ofBytes supply) := by
        simp only [Transaction.mint?] at hentry ⊢
        rw [hentry]
      rw [hmint]
      refine ⟨?_, ?_, ?_, hconserved⟩
      · rw [hstorage]
        simp [Deed.applyTo]
      · rw [hstorage]
        simp [Deed.applyTo]
      · rw [hevents, h.events]
        rfl
  · obtain ⟨hminted, hsupply, hkind⟩ := granted.keeps_mint hinit
    rw [Transaction.mint?_of_ne_init hentry hinit, Option.or_none]
    refine ⟨?_, ?_, ?_, hconserved⟩
    · rw [hstorage, hminted, h.minted]
    · rw [hstorage, hsupply, h.supply]
    · rw [hevents, hkind, List.append_nil, h.events]

/-- Every transaction keeps to the first mint, and makes one if there was none and it can. -/
theorem mintedBy_after (receipt : Receipt) (h : receipt.before.MintedBy first) :
    receipt.after.MintedBy (first.or receipt.transaction.mint?) := by
  cases hjudgement : receipt.judgement with
  | ok deed => exact mintedBy_after_of_ok h hjudgement
  | error fault => exact mintedBy_after_of_error h hjudgement

end Receipt

lemma Host.mintedBy_transactAll {host : Host} {first : Option (Address × Amount)}
    (h : host.MintedBy first) (transactions : List Transaction) :
    (host.transactAll transactions).MintedBy (first.or (Transaction.firstMint? transactions)) := by
  induction transactions generalizing host first with
  | nil =>
    have hnone : first.or (Transaction.firstMint? []) = first := Option.or_none
    rw [hnone]
    exact h
  | cons transaction transactions ih =>
    have hafter := ih (Receipt.mintedBy_after ⟨transaction, host⟩ h)
    have hfirst : Transaction.firstMint? (transaction :: transactions) =
        transaction.mint?.or (Transaction.firstMint? transactions) := by
      unfold Transaction.firstMint?
      rw [List.findSome?_cons]
      cases transaction.mint? with
      | none => rfl
      | some mint => rfl
    rw [hfirst, ← Option.or_assoc]
    exact hafter

namespace Receipt

variable (receipt : Receipt) {first : Option (Address × Amount)}

/-- An `init` with one argument succeeds if it is the first of its kind, and no other `init` does. -/
lemma result_init (h : receipt.before.MintedBy first)
    (hname : receipt.transaction.function = EntryPoint.init.name) :
    receipt.result =
      if receipt.transaction.arguments.length = 1 then
        if first.isSome then .error .alreadyInitialized else .ok []
      else .error (.argumentCount 1 receipt.transaction.arguments.length) := by
  rw [result_eq, judgement_of_name hname]
  by_cases hlength : receipt.transaction.arguments.length = 1
  · obtain ⟨supply, hargs⟩ := List.length_eq_one_iff.mp hlength
    rw [if_pos hlength, hargs, ← h.minted]
    cases hminted : receipt.before.storage.minted with
    | true => simp [Contract.judge, hminted, Except.map]
    | false => simp [Contract.judge, hminted, Except.map, Deed.output]
  · rw [if_neg hlength, Contract.judge_of_length_ne _ _ hlength]
    rfl

lemma result_totalSupply (h : receipt.before.MintedBy first)
    (hname : receipt.transaction.function = EntryPoint.totalSupply.name) :
    receipt.result =
      if receipt.transaction.arguments = [] then .ok [Amount.toBytes ((first.map Prod.snd).getD 0)]
      else .error (.argumentCount 0 receipt.transaction.arguments.length) := by
  rw [result_eq, judgement_of_name hname]
  by_cases hargs : receipt.transaction.arguments = []
  · rw [if_pos hargs, hargs, ← h.supply]
    rfl
  · have hlength : receipt.transaction.arguments.length ≠ EntryPoint.totalSupply.argumentCount :=
      fun hlength => hargs (List.length_eq_zero_iff.mp hlength)
    rw [if_neg hargs, Contract.judge_of_length_ne _ _ hlength]
    rfl

lemma transfers_nothing (h : receipt.before.MintedBy none)
    (hname : receipt.transaction.function = EntryPoint.transfer.name)
    (hok : receipt.result.isOk) :
    ∃ recipient amount, receipt.transaction.arguments = [recipient, amount] ∧
      Amount.ofBytes amount = 0 := by
  cases hjudgement : receipt.judgement with
  | error fault =>
    rw [result_of_error hjudgement] at hok
    exact absurd hok (by simp [Except.isOk, Except.toBool])
  | ok deed =>
    rw [judgement_of_name hname] at hjudgement
    have hempty : receipt.before.storage = ∅ := h.conserved.eq_empty h.minted
    have granted := Contract.granted_of_judge hjudgement
    obtain ⟨⟨caller, arguments, function⟩, before⟩ := receipt
    cases granted with
    | move recipient amount covered =>
      simp only [hempty, Storage.balance_empty] at covered
      exact ⟨recipient.bytes, amount, rfl, Nat.le_zero.mp covered⟩

end Receipt

/-- The supply is minted once, whatever runs on a host that started empty. Let some transactions be
over and another one follow. The first `init` with one argument has succeeded and every other one fails;
the mark of the mint is set from then on, and the log holds its event and no other of that kind. The
supply is told as no bytes before the mint and in the canonical encoding of the minted amount ever after,
which is read as that amount and has no zero byte in front. Before the mint transfers of nothing are the
only ones. -/
theorem minted_once (rollback : Bool) (earlier : List Transaction) (transaction : Transaction) :
    let host := (Host.fresh rollback).transactAll earlier
    let receipt : Receipt := ⟨transaction, host⟩
    let first := Transaction.firstMint? earlier
    (host.run Contract.isInitialized).1 = first.isSome ∧
      host.events.ofKind .initialized =
        first.toList.map (fun mint => .initialized mint.1 mint.2) ∧
      (transaction.function = EntryPoint.init.name →
        receipt.result =
          if transaction.arguments.length = 1 then
            if first.isSome then .error .alreadyInitialized else .ok []
          else .error (.argumentCount 1 transaction.arguments.length)) ∧
      (transaction.function = EntryPoint.totalSupply.name →
        receipt.result =
          if transaction.arguments = [] then .ok [first.elim [] fun mint => Amount.toBytes mint.2]
          else .error (.argumentCount 0 transaction.arguments.length)) ∧
      (∀ mint, first = some mint → Amount.Encodes (Amount.toBytes mint.2) mint.2) ∧
      (transaction.function = EntryPoint.transfer.name → first = none → receipt.result.isOk →
        ∃ recipient amount, transaction.arguments = [recipient, amount] ∧
          Amount.ofBytes amount = 0) := by
  intro host receipt first
  have h : host.MintedBy first := Host.mintedBy_transactAll (Host.mintedBy_fresh rollback) earlier
  refine ⟨h.minted, h.events, receipt.result_init h, ?_, fun mint _ => Amount.encodes_toBytes mint.2, ?_⟩
  · intro hname
    have hsupply : Amount.toBytes ((first.map Prod.snd).getD 0) =
        first.elim [] fun mint => Amount.toBytes mint.2 := by
      cases first with
      | none => exact (Amount.toBytes_eq_nil_iff 0).mpr rfl
      | some mint => rfl
    rw [← hsupply]
    exact receipt.result_totalSupply h hname
  · intro hname hfirst
    rw [hfirst] at h
    exact receipt.transfers_nothing h hname

end FixedSupply
