import FixedSupply.Proofs.Conservation
import FixedSupply.Proofs.Transactions

/-!
# The log as a history of the ledger

Replaying the events of the log from nothing leads to the balances that the host stores. A transaction
writes the log and the storage by separate requests, and the two are tied by its deed: the event of a
deed replays as the deed changes the balances.
-/

namespace FixedSupply

open scoped BigOperators

namespace EventKind

lemma topic_ne : initialized.topic ≠ transfer.topic := by
  -- The kernel computes both digests.
  decide +kernel

lemma ofTopic?_topic (kind : EventKind) : ofTopic? kind.topic = some kind := by
  unfold ofTopic? all
  cases kind with
  | initialized => rw [List.find?_cons_of_pos (by simp)]
  | transfer =>
    rw [List.find?_cons_of_neg (by simpa using topic_ne), List.find?_cons_of_pos (by simp)]

end EventKind

namespace Event

/-- Reading the log entry of an event gives the event. -/
theorem ofLog?_toLog (event : Event) : ofLog? event.toLog = some event := by
  cases event with
  | initialized owner supply =>
    simp [ofLog?, toLog, topics, kind, addresses, data, amount, EventKind.ofTopic?_topic]
  | transfer sender recipient amount =>
    simp [ofLog?, toLog, topics, kind, addresses, data, Event.amount, EventKind.ofTopic?_topic]

/-- The balances after an event, unless it takes more than the sender has. -/
def replay? (balances : Address → Amount) : Event → Option (Address → Amount)
  | .initialized owner supply => some (Function.update balances owner supply)
  | .transfer sender recipient amount => do
    let remaining ← Amount.sub? (balances sender) amount
    let debited := Function.update balances sender remaining
    return Function.update debited recipient (debited recipient + amount)

end Event

namespace History

/-- The balances after a history that starts from nothing. -/
def replay? (history : History) : Option (Address → Amount) :=
  history.foldlM Event.replay? fun _ => 0

lemma replay?_append (history later : History) :
    replay? (history ++ later) =
      (replay? history).bind fun balances => later.foldlM Event.replay? balances :=
  List.foldlM_append

end History

namespace Deed

lemma replay?_move (storage : Storage) {sender recipient : Address} {amount : Amount}
    (covered : amount ≤ storage.balance sender) :
    (Event.transfer sender recipient amount).replay? storage.balance =
      some ((Deed.move sender recipient amount).applyTo storage).balance := by
  have hsub : Amount.sub? (storage.balance sender) amount =
      some (storage.balance sender - amount) := if_pos covered
  unfold Event.replay?
  simp only [hsub, Option.bind_eq_bind, Option.bind_some, Option.pure_def]
  congr 1
  by_cases hidle : amount = 0 ∨ sender = recipient
  · rw [applyTo_move_of_idle storage hidle]
    rcases hidle with rfl | rfl
    · simp
    · -- The ledger writes nothing here, and the replay gives back what it has just taken.
      rw [Function.update_self, Function.update_idem, Nat.sub_add_cancel covered,
        Function.update_eq_self]
  · have hne : recipient ≠ sender := fun he => hidle (.inr he.symm)
    rw [applyTo_move storage hidle, Storage.balance_setBalance, Storage.balance_setBalance,
      Function.update_of_ne hne]

/-- The event of a deed replays as the deed changes the balances. -/
theorem replay?_event {storage : Storage} {caller : Address} {entry : EntryPoint}
    {arguments : List Bytes} {deed : Deed}
    (granted : Contract.Granted storage caller entry arguments deed) {event : Event}
    (h : deed.event? = some event) :
    event.replay? storage.balance = some (deed.applyTo storage).balance := by
  cases granted with
  | mint supply unminted =>
    obtain rfl := Option.some.inj h
    simp [Event.replay?, applyTo]
  | balance address => exact absurd h (by simp [event?])
  | move recipient amount covered =>
    obtain rfl := Option.some.inj h
    exact replay?_move storage covered
  | supply => exact absurd h (by simp [event?])

lemma event?_isSome_iff {storage : Storage} {caller : Address} {entry : EntryPoint}
    {arguments : List Bytes} {deed : Deed}
    (granted : Contract.Granted storage caller entry arguments deed) :
    deed.event?.isSome ↔ entry = .init ∨ entry = .transfer := by
  cases granted with
  | mint supply unminted => simp [event?]
  | balance address => simp [event?]
  | move recipient amount covered => simp [event?]
  | supply => simp [event?]

lemma applyTo_of_event?_eq_none {deed : Deed} (h : deed.event? = none) (storage : Storage) :
    deed.applyTo storage = storage := by
  cases deed with
  | mint owner supply => exact absurd h (by simp [event?])
  | move sender recipient amount => exact absurd h (by simp [event?])
  | tell amount => rfl

end Deed

/-- The event that a transaction records if it succeeds. -/
def Transaction.event? (transaction : Transaction) : Option Event :=
  match EntryPoint.ofName? transaction.function, transaction.arguments with
  | some .init, [supply] => some (.initialized transaction.caller (Amount.ofBytes supply))
  | some .transfer, [recipient, amount] =>
    (Bytes32.ofBytes? recipient).map fun recipient =>
      .transfer transaction.caller recipient (Amount.ofBytes amount)
  | _, _ => none

namespace Receipt

def event? (receipt : Receipt) : Option Event :=
  match receipt.result with
  | .ok _ => receipt.transaction.event?
  | .error _ => none

variable {receipt : Receipt}

lemma event?_of_error {fault : Fault} (h : receipt.judgement = .error fault) :
    receipt.event? = none := by
  rw [event?, result_of_error h]

lemma event?_of_ok {deed : Deed} (h : receipt.judgement = .ok deed) :
    receipt.event? = deed.event? := by
  rw [event?, result_of_ok h]
  obtain ⟨⟨caller, arguments, function⟩, before⟩ := receipt
  obtain ⟨entry, hentry, granted⟩ := Contract.granted_of_judgeName h
  simp only [Transaction.event?] at hentry ⊢
  rw [hentry]
  cases granted with
  | mint supply unminted => rfl
  | balance address => rfl
  | move recipient amount covered =>
    have hrecipient : Bytes32.ofBytes? recipient.bytes = some recipient :=
      Bytes32.ofBytes?_eq_some_iff.mpr rfl
    simp only [hrecipient]
    rfl
  | supply => rfl

/-- The transactions that record an event are the ones that mint or transfer successfully. -/
lemma event?_isSome_iff :
    receipt.event?.isSome ↔
      receipt.result.isOk ∧
        (receipt.transaction.function = EntryPoint.init.name ∨
          receipt.transaction.function = EntryPoint.transfer.name) := by
  cases h : receipt.judgement with
  | error fault => simp [event?_of_error h, result_of_error h, Except.isOk, Except.toBool]
  | ok deed =>
    obtain ⟨entry, hentry, granted⟩ := Contract.granted_of_judgeName h
    rw [event?_of_ok h, result_of_ok h, Deed.event?_isSome_iff granted,
      ← EntryPoint.ofName?_eq_some_iff, ← EntryPoint.ofName?_eq_some_iff, hentry]
    simp [Except.isOk, Except.toBool]

lemma logs_after :
    receipt.after.logs = receipt.before.logs ++ receipt.event?.toList.map Event.toLog := by
  cases h : receipt.judgement with
  | error fault =>
    rw [event?_of_error h, Option.toList_none, List.map_nil, List.append_nil]
    exact congrArg State.logs (state_after_of_error h)
  | ok deed => rw [event?_of_ok h, logs_after_of_ok h, Deed.logs]

lemma events_after : receipt.after.events = receipt.before.events ++ receipt.event?.toList := by
  have hread : (receipt.event?.toList.map Event.toLog).filterMap Event.ofLog? =
      receipt.event?.toList := by
    cases receipt.event? with
    | none => rfl
    | some event => simp [Event.ofLog?_toLog]
  rw [Host.events, History.ofLogs, logs_after, List.filterMap_append, hread]
  rfl

lemma conserved_after (h : receipt.before.storage.Conserved) : receipt.after.storage.Conserved := by
  cases hjudgement : receipt.judgement with
  | error fault =>
    rw [Host.storage, state_after_of_error hjudgement]
    exact h
  | ok deed =>
    obtain ⟨entry, -, granted⟩ := Contract.granted_of_judgeName hjudgement
    rw [storage_after_of_ok hjudgement]
    exact h.applyTo granted

lemma replay?_events_after
    (h : receipt.before.events.replay? = some receipt.before.storage.balance) :
    receipt.after.events.replay? = some receipt.after.storage.balance := by
  rw [events_after, History.replay?_append, h, Option.bind_some]
  cases hjudgement : receipt.judgement with
  | error fault =>
    have hstorage : receipt.after.storage = receipt.before.storage :=
      congrArg State.storage (state_after_of_error hjudgement)
    rw [event?_of_error hjudgement, hstorage]
    rfl
  | ok deed =>
    rw [event?_of_ok hjudgement, storage_after_of_ok hjudgement]
    obtain ⟨entry, -, granted⟩ := Contract.granted_of_judgeName hjudgement
    cases hevent : deed.event? with
    | none =>
      rw [Deed.applyTo_of_event?_eq_none hevent]
      rfl
    | some event =>
      have hreplay := Deed.replay?_event granted hevent
      simp [hreplay]

end Receipt

/-- The log of a host tells everything about its storage. -/
structure Host.Recorded (host : Host) : Prop where
  decodes : ∀ entry ∈ host.logs, (Event.ofLog? entry).isSome
  replay?_events : host.events.replay? = some host.storage.balance
  conserved : host.storage.Conserved

lemma Host.recorded_fresh (rollback : Bool) : (Host.fresh rollback).Recorded :=
  ⟨fun _ hentry => absurd hentry List.not_mem_nil, rfl, Storage.conserved_empty⟩

lemma Receipt.recorded_after (receipt : Receipt) (h : receipt.before.Recorded) :
    receipt.after.Recorded := by
  refine ⟨?_, replay?_events_after h.replay?_events, conserved_after h.conserved⟩
  intro entry hentry
  rw [logs_after] at hentry
  rcases List.mem_append.mp hentry with hentry | hentry
  · exact h.decodes entry hentry
  · obtain ⟨event, -, rfl⟩ := List.mem_map.mp hentry
    rw [Event.ofLog?_toLog]
    rfl

namespace Host

lemma recorded_transactAll {host : Host} (h : host.Recorded) (transactions : List Transaction) :
    (host.transactAll transactions).Recorded := by
  induction transactions generalizing host with
  | nil => exact h
  | cons transaction transactions ih => exact ih (Receipt.recorded_after ⟨transaction, host⟩ h)

lemma events_transactAll (host : Host) (transactions : List Transaction) :
    (host.transactAll transactions).events =
      host.events ++ (host.receipts transactions).filterMap Receipt.event? := by
  induction transactions generalizing host with
  | nil => exact (List.append_nil _).symm
  | cons transaction transactions ih =>
    let receipt : Receipt := ⟨transaction, host⟩
    have hafter : receipt.after.events = host.events ++ receipt.event?.toList :=
      receipt.events_after
    have hlisted : (host.receipts (transaction :: transactions)).filterMap Receipt.event? =
        receipt.event?.toList ++ (receipt.after.receipts transactions).filterMap Receipt.event? := by
      rw [receipts, List.filterMap_cons]
      cases receipt.event? with
      | none => rfl
      | some event => rfl
    rw [hlisted, ← List.append_assoc, ← hafter]
    exact ih receipt.after

end Host

/-- The log of every run on a host that started empty is a complete history of the ledger. Every
entry of it decodes; its events are, in order, one for each successful `init` or `transfer`; and they
replay, without an underflow, to the balances that the host stores, which add up to the supply. -/
theorem event_log_complete (rollback : Bool) (transactions : List Transaction) :
    let host := (Host.fresh rollback).transactAll transactions
    let receipts := (Host.fresh rollback).receipts transactions
    (∀ entry ∈ host.logs, (Event.ofLog? entry).isSome) ∧
      host.events = receipts.filterMap Receipt.event? ∧
      (∀ receipt ∈ receipts, receipt.event?.isSome ↔
        receipt.result.isOk ∧
          (receipt.transaction.function = EntryPoint.init.name ∨
            receipt.transaction.function = EntryPoint.transfer.name)) ∧
      ∃ balances, host.events.replay? = some balances ∧
        (∀ address, balances address = (host.run (Contract.balance address)).1) ∧
        ∑ address, balances address = (host.run Contract.supply).1 := by
  intro host receipts
  have h : host.Recorded := Host.recorded_transactAll (Host.recorded_fresh rollback) transactions
  refine ⟨h.decodes, Host.events_transactAll (Host.fresh rollback) transactions,
    fun _ _ => Receipt.event?_isSome_iff, host.storage.balance, h.replay?_events, ?_, ?_⟩
  · intro address
    rw [Host.run_balance]
  · rw [Host.run_supply, ← Storage.sumOfBalances_eq_sum]
    exact h.conserved.sum_eq

end FixedSupply
