import FixedSupply.Event
import FixedSupply.Fault

/-!
# Contract programs

A contract sees its host only through requests. A program is a tree of requests that branches on the
answers, so the same contract runs on every host that can answer them.
-/

namespace FixedSupply

/-- What a running contract can ask of its host. -/
inductive Request where
  | caller
  | argumentCount
  | argument (index : Nat)
  /-- The value stored under a key, empty if there is none. -/
  | load (key : Bytes)
  /-- To store a value under a key; an empty value removes the key. -/
  | store (key value : Bytes)
  /-- To append a return value. -/
  | finish (data : Bytes)
  | log (entry : LogEntry)
  | signal (message : Bytes)
  deriving DecidableEq

/-- What the host answers to a request. -/
@[reducible] def Request.Answer : Request → Type
  | .caller => Address
  | .argumentCount => Nat
  | .argument _ => Option Bytes
  | .load _ => Bytes
  | .store .. | .finish _ | .log _ | .signal _ => Unit

/-- A computation that asks its host and ends with a value. -/
inductive Program (α : Type) where
  | done (value : α)
  | ask (request : Request) (next : request.Answer → Program α)

namespace Program

variable {α β : Type}

/-- One program, and then the program that its value selects. -/
def bind : Program α → (α → Program β) → Program β
  | .done value, f => f value
  | .ask request next, f => .ask request fun answer => (next answer).bind f

instance : Monad Program where
  pure := done
  bind := bind

theorem bind_done (program : Program α) : program.bind done = program := by
  induction program with
  | done => rfl
  | ask request next ih => exact congrArg (ask request) (funext ih)

theorem bind_bind {γ : Type} (program : Program α) (f : α → Program β) (g : β → Program γ) :
    (program.bind f).bind g = program.bind fun value => (f value).bind g := by
  induction program with
  | done => rfl
  | ask request next ih => exact congrArg (ask request) (funext ih)

instance : LawfulMonad Program :=
  LawfulMonad.mk' Program bind_done (fun _ _ => rfl) bind_bind

def caller : Program Address :=
  .ask .caller .done

def argumentCount : Program Nat :=
  .ask .argumentCount .done

def argument (index : Nat) : Program (Option Bytes) :=
  .ask (.argument index) .done

def load (key : Bytes) : Program Bytes :=
  .ask (.load key) .done

def store (key value : Bytes) : Program Unit :=
  .ask (.store key value) .done

def finish (data : Bytes) : Program Unit :=
  .ask (.finish data) .done

def log (entry : LogEntry) : Program Unit :=
  .ask (.log entry) .done

def signal (message : Bytes) : Program Unit :=
  .ask (.signal message) .done

/-- The amount stored under a key; an absent key holds zero. -/
def loadAmount (key : Bytes) : Program Amount := do
  return Amount.ofBytes (← load key)

/-- Stores an amount in its canonical encoding. -/
def storeAmount (key : Bytes) (amount : Amount) : Program Unit :=
  store key (Amount.toBytes amount)

/-- Returns an amount in its canonical encoding. -/
def finishAmount (amount : Amount) : Program Unit :=
  finish (Amount.toBytes amount)

end Program

/-- A program that may end in a fault. -/
abbrev Action (α : Type) := ExceptT Fault Program α

end FixedSupply
