import FixedSupply.Contract.Ledger
import FixedSupply.Proofs.Balances

/-!
# What an entry point does

An entry point either goes ahead or fails, and which of the two is decided by the storage, the caller
and the arguments alone. `judge` takes that decision and names the deed that follows; `Deed.applyTo`,
`Deed.output` and `Deed.logs` say what a deed leaves behind. `Granted` lists the four ways to go
ahead, for proofs by cases.
-/

namespace FixedSupply

namespace EntryPoint

lemma ofName?_name (entry : EntryPoint) : ofName? entry.name = some entry := by
  cases entry with
  | init => decide
  | balanceOf => decide
  | transfer => decide
  | totalSupply => decide

lemma ofName?_eq_some_iff {function : String} {entry : EntryPoint} :
    ofName? function = some entry ↔ function = entry.name := by
  constructor
  · intro h
    have hname := List.find?_some h
    exact (beq_iff_eq.mp hname).symm
  · rintro rfl
    exact ofName?_name entry

end EntryPoint

/-- What an entry point that goes ahead does. -/
inductive Deed where
  | mint (owner : Address) (supply : Amount)
  | move (sender recipient : Address) (amount : Amount)
  | tell (amount : Amount)
  deriving DecidableEq

namespace Deed

def event? : Deed → Option Event
  | .mint owner supply => some (.initialized owner supply)
  | .move sender recipient amount => some (.transfer sender recipient amount)
  | .tell _ => none

def logs (deed : Deed) : List LogEntry :=
  deed.event?.toList.map Event.toLog

def output : Deed → List Bytes
  | .tell amount => [Amount.toBytes amount]
  | .mint .. | .move .. => []

/-- The number of storage writes. A move of nothing, or to the sender, writes no balance. -/
def writes : Deed → ℕ
  | .mint .. => 3
  | .move sender recipient amount => if amount = 0 ∨ sender = recipient then 0 else 2
  | .tell _ => 0

/-- The storage after the deed. The recipient's balance is read after the debit. -/
def applyTo (storage : Storage) : Deed → Storage
  | .mint owner supply => ((storage.setBalance owner supply).setSupply supply).markMinted
  | .move sender recipient amount =>
    if amount = 0 ∨ sender = recipient then storage
    else
      let debited := storage.setBalance sender (storage.balance sender - amount)
      debited.setBalance recipient (debited.balance recipient + amount)
  | .tell _ => storage

section Move

variable (storage : Storage) {sender recipient : Address} {amount : Amount}

lemma applyTo_move_of_idle (h : amount = 0 ∨ sender = recipient) :
    (move sender recipient amount).applyTo storage = storage :=
  if_pos h

lemma applyTo_move (h : ¬(amount = 0 ∨ sender = recipient)) :
    (move sender recipient amount).applyTo storage =
      (storage.setBalance sender (storage.balance sender - amount)).setBalance recipient
        (storage.balance recipient + amount) := by
  have hne : recipient ≠ sender := fun he => h (.inr he.symm)
  have hcredit : (storage.setBalance sender (storage.balance sender - amount)).balance recipient =
      storage.balance recipient := by
    rw [Storage.balance_setBalance, Function.update_of_ne hne]
  rw [← hcredit]
  exact if_neg h

lemma supply_applyTo_move :
    ((move sender recipient amount).applyTo storage).supply = storage.supply := by
  by_cases h : amount = 0 ∨ sender = recipient
  · rw [applyTo_move_of_idle storage h]
  · rw [applyTo_move storage h, Storage.supply_setBalance, Storage.supply_setBalance]

lemma minted_applyTo_move :
    ((move sender recipient amount).applyTo storage).minted = storage.minted := by
  by_cases h : amount = 0 ∨ sender = recipient
  · rw [applyTo_move_of_idle storage h]
  · rw [applyTo_move storage h, Storage.minted_setBalance, Storage.minted_setBalance]

end Move

end Deed

namespace Contract

/-- Whether an entry point goes ahead with these arguments, and what it does then. -/
def judge (storage : Storage) (caller : Address) : EntryPoint → List Bytes → Except Fault Deed
  | .init, [supply] =>
    if storage.minted then .error .alreadyInitialized
    else .ok (.mint caller (Amount.ofBytes supply))
  | .balanceOf, [address] =>
    match Bytes32.ofBytes? address with
    | none => .error (.invalidArgument 0 .notAnAddress)
    | some address => .ok (.tell (storage.balance address))
  | .transfer, [recipient, amount] =>
    match Bytes32.ofBytes? recipient with
    | none => .error (.invalidArgument 0 .notAnAddress)
    | some recipient =>
      if storage.balance caller < Amount.ofBytes amount then
        .error (.insufficientBalance (storage.balance caller) (Amount.ofBytes amount))
      else .ok (.move caller recipient (Amount.ofBytes amount))
  | .totalSupply, [] => .ok (.tell storage.supply)
  | entry, arguments => .error (.argumentCount entry.argumentCount arguments.length)

lemma judge_of_length_ne (storage : Storage) (caller : Address) {entry : EntryPoint}
    {arguments : List Bytes} (h : arguments.length ≠ entry.argumentCount) :
    judge storage caller entry arguments =
      .error (.argumentCount entry.argumentCount arguments.length) := by
  unfold judge
  split
  · exact absurd rfl h
  · exact absurd rfl h
  · exact absurd rfl h
  · exact absurd rfl h
  · rfl

/-- The deeds that may follow: each entry point has one, under its own condition. -/
inductive Granted (storage : Storage) (caller : Address) : EntryPoint → List Bytes → Deed → Prop where
  | mint (supply : Bytes) (unminted : storage.minted = false) :
    Granted storage caller .init [supply] (.mint caller (Amount.ofBytes supply))
  | balance (address : Address) :
    Granted storage caller .balanceOf [address.bytes] (.tell (storage.balance address))
  | move (recipient : Address) (amount : Bytes)
      (covered : Amount.ofBytes amount ≤ storage.balance caller) :
    Granted storage caller .transfer [recipient.bytes, amount]
      (.move caller recipient (Amount.ofBytes amount))
  | supply : Granted storage caller .totalSupply [] (.tell storage.supply)

theorem granted_of_judge {storage : Storage} {caller : Address} {entry : EntryPoint}
    {arguments : List Bytes} {deed : Deed} (h : judge storage caller entry arguments = .ok deed) :
    Granted storage caller entry arguments deed := by
  unfold judge at h
  split at h
  next supply =>
    cases hminted : storage.minted with
    | true => simp [hminted] at h
    | false =>
      simp only [hminted, Bool.false_eq_true, if_false, Except.ok.injEq] at h
      exact h ▸ .mint supply hminted
  next bytes =>
    cases haddress : Bytes32.ofBytes? bytes with
    | none => simp [haddress] at h
    | some address =>
      obtain rfl := Bytes32.ofBytes?_eq_some_iff.mp haddress
      simp only [haddress, Except.ok.injEq] at h
      exact h ▸ .balance address
  next bytes amount =>
    cases haddress : Bytes32.ofBytes? bytes with
    | none => simp [haddress] at h
    | some recipient =>
      obtain rfl := Bytes32.ofBytes?_eq_some_iff.mp haddress
      by_cases hlt : storage.balance caller < Amount.ofBytes amount
      · simp [haddress, hlt] at h
      · simp only [haddress, hlt, if_false, Except.ok.injEq] at h
        exact h ▸ .move recipient amount (Nat.le_of_not_lt hlt)
  next =>
    simp only [Except.ok.injEq] at h
    exact h ▸ .supply
  next => exact absurd h (by simp)

/-- The decision on an entry point that is asked for by its name. -/
def judgeName (storage : Storage) (caller : Address) (arguments : List Bytes) (function : String) :
    Except Fault Deed :=
  match EntryPoint.ofName? function with
  | some entry => judge storage caller entry arguments
  | none => .error .unknownFunction

theorem granted_of_judgeName {storage : Storage} {caller : Address} {arguments : List Bytes}
    {function : String} {deed : Deed} (h : judgeName storage caller arguments function = .ok deed) :
    ∃ entry, EntryPoint.ofName? function = some entry ∧
      Granted storage caller entry arguments deed := by
  unfold judgeName at h
  cases hname : EntryPoint.ofName? function with
  | none => simp [hname] at h
  | some entry =>
    rw [hname] at h
    exact ⟨entry, rfl, granted_of_judge h⟩

end Contract

end FixedSupply
