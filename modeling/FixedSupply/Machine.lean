import FixedSupply.Bytes.Hex
import FixedSupply.Contract.Ledger
import FixedSupply.Storage

/-!
# The virtual machine

On the machine a contract reaches its host by imported functions, which transfer lengths and bytes
one at a time. `perform` serves a request of the contract by calls of imports and records each of them
with the machine's answer. A signalled failure ends the call at once and discards its effects.

The machine's answers are part of a call's setting, because a contract must also cope with a machine
that contradicts itself about the number of arguments, or makes up values for keys that are not stored.
-/

namespace FixedSupply

/-- A call of an imported function, with the machine's answer where the contract uses it. -/
inductive Import where
  | getCaller
  | getNumArguments (answer : Int)
  | getArgumentLength (id : Nat) (answer : Int)
  | getArgument (id : Nat)
  | storageLoadLength (key : Bytes) (answer : Int)
  | storageLoad (key : Bytes)
  | storageStore (key value : Bytes)
  | finish (data : Bytes)
  | writeLog (data topics : Bytes) (topicCount : Nat)
  | signalError (message : Bytes)
  deriving DecidableEq, Repr

/-- The line of a trace for a call: the import, its arguments, and the answer after an equals sign. -/
def Import.line : Import → String
  | .getCaller => "getCaller"
  | .getNumArguments answer => s!"getNumArguments={answer}"
  | .getArgumentLength id answer => s!"getArgumentLength({id})={answer}"
  | .getArgument id => s!"getArgument({id})"
  | .storageLoadLength key answer => s!"storageLoadLength({Hex.encode key})={answer}"
  | .storageLoad key => s!"storageLoad({Hex.encode key})"
  | .storageStore key value => s!"storageStore({Hex.encode key},{Hex.encode value})"
  | .finish data => s!"finish({Hex.encode data})"
  | .writeLog data topics topicCount =>
    s!"writeLog({Hex.encode data},{Hex.encode topics},{topicCount})"
  | .signalError message => s!"signalError({Hex.encode message})"

/-- A written log entry as the machine sees it: its topics are one byte string. -/
structure LogRecord where
  data : Bytes
  topics : Bytes
  topicCount : Nat
  deriving DecidableEq, Repr

/-- What is fixed for one call. -/
structure Machine.Setting where
  caller : Address
  arguments : List Bytes
  /-- The answer for the length of a key that is not stored, after these calls of imports. -/
  absent : List Import → Bytes → Int
  /-- The byte at a position of the room that the contract made for such a key. -/
  filler : List Import → Bytes → Nat → UInt8

/-- What the machine makes up for a key that is not stored. -/
def Machine.Setting.madeUp (setting : Machine.Setting) (trace : List Import) (key : Bytes) : Bytes :=
  (List.range (setting.absent trace key).toNat).map (setting.filler trace key)

structure Machine where
  storage : Storage
  /-- The answers still due for the number of arguments; the last one repeats. -/
  counts : List Int
  output : List Bytes
  logs : List LogRecord
  trace : List Import

namespace Machine

variable {α : Type}

def record (machine : Machine) (call : Import) : Machine :=
  { machine with trace := machine.trace ++ [call] }

/-- Asks for the number of arguments. A negative answer counts as zero. -/
def argumentCount (setting : Setting) (machine : Machine) : Nat × Machine :=
  let answer := machine.counts.headD setting.arguments.length
  let counts := if machine.counts.length ≤ 1 then machine.counts else machine.counts.tail
  (answer.toNat, { machine with counts }.record (.getNumArguments answer))

/-- Asks for the argument at an index, if the machine says that it has one. Its bytes are fetched
only if there are any. -/
def argument (setting : Setting) (machine : Machine) (index : Nat) :
    Option Bytes × Machine :=
  let (count, machine) := machine.argumentCount setting
  if count ≤ index then (none, machine)
  else
    let argument := setting.arguments[index]?
    let answer : Int := (argument.map fun bytes => (bytes.length : Int)).getD (-1)
    let machine := machine.record (.getArgumentLength index answer)
    let bytes := argument.getD []
    (some bytes, if bytes.isEmpty then machine else machine.record (.getArgument index))

/-- Asks for the value under a key. For an absent key the machine answers a length of its own, and fills the
room that the contract made as it likes. -/
def load (setting : Setting) (machine : Machine) (key : Bytes) : Bytes × Machine :=
  let stored := machine.storage.get? key
  let answer :=
    (stored.map fun value => (value.length : Int)).getD (setting.absent machine.trace key)
  let value := stored.getD (setting.madeUp machine.trace key)
  let machine := machine.record (.storageLoadLength key answer)
  (value, if value.isEmpty then machine else machine.record (.storageLoad key))

/-- Serves a request of the contract. A signalled failure does not return. -/
def perform (setting : Setting) (machine : Machine) :
    (request : Request) → Except Bytes request.Answer × Machine
  | .caller => (.ok setting.caller, machine.record .getCaller)
  | .argumentCount =>
    let (count, machine) := machine.argumentCount setting
    (.ok count, machine)
  | .argument index =>
    let (argument, machine) := machine.argument setting index
    (.ok argument, machine)
  | .load key =>
    let (value, machine) := machine.load setting key
    (.ok value, machine)
  | .store key value =>
    (.ok (), { machine with storage := machine.storage.store key value }.record
      (.storageStore key value))
  | .finish data =>
    (.ok (), { machine with output := machine.output ++ [data] }.record (.finish data))
  | .log entry =>
    let topics := entry.topics.flatMap (·.bytes)
    let count := entry.topics.length
    (.ok (), { machine with logs := machine.logs ++ [(⟨entry.data, topics, count⟩ : LogRecord)] }.record
      (.writeLog entry.data topics count))
  | .signal message => (.error message, machine.record (.signalError message))

/-- Runs a program to its end or to its signalled failure. -/
def run (setting : Setting) (machine : Machine) : Program α → Except Bytes α × Machine
  | .done value => (.ok value, machine)
  | .ask request next =>
    match machine.perform setting request with
    | (.ok answer, machine) => machine.run setting (next answer)
    | (.error message, machine) => (.error message, machine)

@[simp]
theorem run_bind {β : Type} (setting : Setting) (machine : Machine) (program : Program α)
    (f : α → Program β) :
    machine.run setting (program >>= f) =
      match machine.run setting program with
      | (.ok value, machine) => machine.run setting (f value)
      | (.error message, machine) => (.error message, machine) := by
  change machine.run setting (program.bind f) = _
  induction program generalizing machine with
  | done => rfl
  | ask request next ih =>
    simp only [Program.bind, run]
    split
    · exact ih _ _
    · rfl

/-- What a call leaves behind. -/
structure Result where
  storage : Storage
  output : List Bytes
  logs : List LogRecord
  signal : Option Bytes
  trace : List Import

/-- Calls an exported entry point. The machine answers `counts` for the number of arguments, one
after another, or the true number if the list is empty. -/
def call (setting : Setting) (counts : List Int) (storage : Storage) (entry : EntryPoint) : Result :=
  let start : Machine := ⟨storage, counts, [], [], []⟩
  match start.run setting (Contract.dispatch entry.name).run with
  | (.ok _, machine) => ⟨machine.storage, machine.output, machine.logs, none, machine.trace⟩
  | (.error message, machine) => ⟨storage, [], [], some message, machine.trace⟩

end Machine

end FixedSupply
