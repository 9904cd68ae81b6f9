/-!
# Entry points

The functions that the contract exports, with their names and argument counts.
-/

namespace FixedSupply

/-- A function that the contract exports. -/
inductive EntryPoint where
  /-- Mints the whole supply to the caller. -/
  | init
  /-- Returns the balance of an address. -/
  | balanceOf
  /-- Moves an amount from the caller to a recipient. -/
  | transfer
  /-- Returns the minted supply. -/
  | totalSupply
  deriving DecidableEq, Repr

namespace EntryPoint

/-- Every entry point, in the order of their indices. -/
def all : List EntryPoint := [.init, .balanceOf, .transfer, .totalSupply]

def name : EntryPoint → String
  | .init => "init"
  | .balanceOf => "balanceOf"
  | .transfer => "transfer"
  | .totalSupply => "totalSupply"

/-- The entry point exported under this name. -/
def ofName? (name : String) : Option EntryPoint :=
  all.find? fun entry => entry.name == name

/-- The arguments of `init`: the supply. -/
def initArguments : Nat := 1

/-- The arguments of `balanceOf`: the address. -/
def balanceOfArguments : Nat := 1

/-- The arguments of `transfer`: the recipient and the amount. -/
def transferArguments : Nat := 2

def totalSupplyArguments : Nat := 0

def argumentCount : EntryPoint → Nat
  | .init => initArguments
  | .balanceOf => balanceOfArguments
  | .transfer => transferArguments
  | .totalSupply => totalSupplyArguments

/-- The entry point never writes storage. -/
def isReadonly : EntryPoint → Bool
  | .balanceOf | .totalSupply => true
  | .init | .transfer => false

def label : EntryPoint → String
  | .init => "Init"
  | .balanceOf => "BalanceOf"
  | .transfer => "Transfer"
  | .totalSupply => "TotalSupply"

/-- The position of the recipient among the arguments of `transfer`. -/
def recipientIndex : Nat := 0

/-- The position of the amount among the arguments of `transfer`. -/
def amountIndex : Nat := 1

end EntryPoint

end FixedSupply
