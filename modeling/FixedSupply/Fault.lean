import FixedSupply.Amount

/-!
# Faults

The reasons for which an invocation fails. `code` is the stable name that the contract signals to its
host, and `message` adds the details.
-/

namespace FixedSupply

inductive ArgumentFlaw where
  | outOfRange
  /-- An address has 32 bytes. -/
  | notAnAddress
  /-- A signed 64-bit argument has at most eight bytes. -/
  | tooWide
  /-- A reason that the invocation words itself. -/
  | custom (reason : String)
  deriving DecidableEq, Repr

def ArgumentFlaw.message : ArgumentFlaw → String
  | .outOfRange => "argument index out of range"
  | .notAnAddress => "address must be 32 bytes"
  | .tooWide => "i64 argument longer than 8 bytes"
  | .custom reason => reason

/-- Why an invocation failed. -/
inductive Fault where
  | argumentCount (expected actual : Nat)
  | invalidArgument (index : Nat) (flaw : ArgumentFlaw)
  /-- The sender holds less than the amount to transfer. -/
  | insufficientBalance (available requested : Amount)
  | alreadyInitialized
  | unknownFunction
  | underflow
  deriving DecidableEq, Repr

namespace Fault

/-- The stable name of the fault. -/
def code : Fault → String
  | .argumentCount .. => "E001_ARGUMENT_COUNT"
  | .invalidArgument .. => "E002_INVALID_ARGUMENT"
  | .insufficientBalance .. => "E010_INSUFFICIENT_BALANCE"
  | .alreadyInitialized => "E020_ALREADY_INITIALIZED"
  | .unknownFunction => "E030_UNKNOWN_FUNCTION"
  | .underflow => "E040_UNDERFLOW"

/-- The code, followed by the details if there are any. -/
def message (fault : Fault) : String :=
  match fault with
  | .argumentCount expected actual =>
    s!"{fault.code}: expected {expected} arguments, got {actual}"
  | .invalidArgument index flaw => s!"{fault.code}: argument {index}: {flaw.message}"
  | .insufficientBalance available requested =>
    s!"{fault.code}: available {available}, requested {requested}"
  | .alreadyInitialized | .unknownFunction | .underflow => fault.code

end Fault

end FixedSupply
