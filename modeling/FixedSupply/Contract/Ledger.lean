import FixedSupply.Contract.Arguments
import FixedSupply.EntryPoint
import FixedSupply.Token

/-!
# The ledger contract

The supply is minted once, by `init`, to its caller; afterwards balances move only by `transfer`.
Each entry point checks its arguments and the balance before its first write, so a fault leaves the
storage as it was whether or not the host can undo writes.
-/

namespace FixedSupply.Contract

def balance (address : Address) : Program Amount :=
  Program.loadAmount (Token.balanceKey address)

/-- The minted supply, zero before `init`. -/
def supply : Program Amount :=
  Program.loadAmount Token.supplyKey

def isInitialized : Program Bool := do
  return !(← Program.load Token.mintedKey).isEmpty

def storeBalance (address : Address) (amount : Amount) : Program Unit :=
  Program.storeAmount (Token.balanceKey address) amount

def emit (event : Event) : Program Unit :=
  Program.log event.toLog

/-- Mints the supply given as the only argument to the caller, unless a supply was minted before. -/
def init : Action Unit := do
  checkArgumentCount EntryPoint.initArguments
  if ← isInitialized then
    throw .alreadyInitialized
  let owner ← Program.caller
  let minted ← argumentAmount 0
  storeBalance owner minted
  Program.storeAmount Token.supplyKey minted
  Program.store Token.mintedKey Token.mintedFlag
  emit (.initialized owner minted)

/-- Returns the balance of the address given as the only argument. -/
def balanceOf : Action Unit := do
  checkArgumentCount EntryPoint.balanceOfArguments
  let address ← argumentAddress 0
  Program.finishAmount (← balance address)

/-- Moves an amount between accounts. A transfer of nothing, or to the sender, writes no balance;
otherwise the recipient's balance is read after the debit. -/
def move (sender recipient : Address) (amount : Amount) : Action Unit := do
  let available ← balance sender
  if available < amount then
    throw (.insufficientBalance available amount)
  let some remaining := Amount.sub? available amount | throw .underflow
  unless amount = 0 ∨ sender = recipient do
    storeBalance sender remaining
    storeBalance recipient ((← balance recipient) + amount)
  emit (.transfer sender recipient amount)

/-- Moves the amount given as the second argument from the caller to the address given as the
first. -/
def transfer : Action Unit := do
  checkArgumentCount EntryPoint.transferArguments
  let sender ← Program.caller
  let recipient ← argumentAddress EntryPoint.recipientIndex
  let amount ← argumentAmount EntryPoint.amountIndex
  move sender recipient amount

def totalSupply : Action Unit := do
  checkArgumentCount EntryPoint.totalSupplyArguments
  Program.finishAmount (← supply)

/-- Runs an entry point without signalling its fault. -/
def invoke : EntryPoint → Action Unit
  | .init => init
  | .balanceOf => balanceOf
  | .transfer => transfer
  | .totalSupply => totalSupply

/-- Runs the entry point of this name and signals the code of its fault to the host. -/
def dispatch (function : String) : Action Unit := ExceptT.mk do
  let outcome ←
    match EntryPoint.ofName? function with
    | some entry => (invoke entry).run
    | none => pure (.error .unknownFunction)
  if let .error fault := outcome then
    Program.signal (Bytes.ofString fault.code)
  return outcome

end FixedSupply.Contract
