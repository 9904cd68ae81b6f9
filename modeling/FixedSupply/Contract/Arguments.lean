import FixedSupply.Program

/-!
# Arguments of an invocation

How the contract reads its arguments: their number, and one of them as bytes, as an address, as an
unsigned amount or as a signed 64-bit integer.
-/

namespace FixedSupply.Contract

/-- The most bytes that a signed 64-bit argument may have. -/
def int64Bytes : Nat := 8

/-- Fails unless the invocation has exactly this many arguments. -/
def checkArgumentCount (expected : Nat) : Action Unit := do
  let actual ← Program.argumentCount
  unless actual = expected do
    throw (.argumentCount expected actual)

def argumentBytes (index : Nat) : Action Bytes := do
  match ← Program.argument index with
  | some bytes => return bytes
  | none => throw (.invalidArgument index .outOfRange)

def argumentAddress (index : Nat) : Action Address := do
  match Bytes32.ofBytes? (← argumentBytes index) with
  | some address => return address
  | none => throw (.invalidArgument index .notAnAddress)

def argumentAmount (index : Nat) : Action Amount := do
  return Amount.ofBytes (← argumentBytes index)

/-- The byte that continues a big-endian two's complement number to the left. -/
def signByte (bytes : Bytes) : UInt8 :=
  match bytes with
  | [] => 0x00
  | first :: _ => if 0x80 ≤ first then 0xFF else 0x00

/-- The signed number of at most eight big-endian bytes: they are continued with their sign byte to a
word of eight, which is read in two's complement. -/
def signedValue (bytes : Bytes) : Int64 :=
  let word := List.replicate (int64Bytes - bytes.length) (signByte bytes) ++ bytes
  (UInt64.ofNat (Bytes.value word)).toInt64

def argumentInt64 (index : Nat) : Action Int64 := do
  let bytes ← argumentBytes index
  if int64Bytes < bytes.length then
    throw (.invalidArgument index .tooWide)
  return signedValue bytes

end FixedSupply.Contract
