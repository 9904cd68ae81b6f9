import FixedSupply.Program
import FixedSupply.Storage

/-!
# The in-memory host

A host keeps the storage and the committed log between invocations, and one context for the running
invocation: the caller, its arguments, and what the invocation has produced so far. There is a single
context, so an invocation that starts replaces it.
-/

namespace FixedSupply

/-- What a host keeps between invocations. -/
structure State where
  storage : Storage
  logs : List LogEntry
  deriving DecidableEq

def State.empty : State :=
  ⟨∅, []⟩

/-- What belongs to the running invocation. -/
structure Context where
  caller : Address
  arguments : List Bytes
  /-- The values returned so far. -/
  output : List Bytes
  /-- The log entries that are not committed yet. -/
  pending : List LogEntry
  /-- The last failure that was reported. -/
  signal : Option Bytes
  writes : Nat
  deriving DecidableEq

def Context.start (caller : Address) (arguments : List Bytes) : Context :=
  ⟨caller, arguments, [], [], none, 0⟩

/-- A host; with `rollback` it undoes the writes of a failed invocation. -/
structure Host where
  state : State
  rollback : Bool
  context : Context
  deriving DecidableEq

namespace Host

def fresh (rollback : Bool) : Host :=
  ⟨.empty, rollback, .start .zero []⟩

def storage (host : Host) : Storage :=
  host.state.storage

/-- The committed log, oldest entry first. -/
def logs (host : Host) : List LogEntry :=
  host.state.logs

def events (host : Host) : History :=
  .ofLogs host.logs

/-- The accounts and their balances, in ascending order of the addresses. -/
def balances (host : Host) : List (Address × Amount) :=
  host.storage.accounts

def sumOfBalances (host : Host) : Amount :=
  host.storage.sumOfBalances

/-- The failure that the last invocation reported last. -/
def lastSignal (host : Host) : Option Bytes :=
  host.context.signal

def writes (host : Host) : Nat :=
  host.context.writes

def withStorage (host : Host) (storage : Storage) : Host :=
  { host with state.storage := storage }

def answer (host : Host) : (request : Request) → request.Answer × Host
  | .caller => (host.context.caller, host)
  | .argumentCount => (host.context.arguments.length, host)
  | .argument index => (host.context.arguments[index]?, host)
  | .load key => (host.storage.load key, host)
  | .store key value =>
    ((), { host with
      state.storage := host.storage.store key value
      context.writes := host.context.writes + 1 })
  | .finish data => ((), { host with context.output := host.context.output ++ [data] })
  | .log entry => ((), { host with context.pending := host.context.pending ++ [entry] })
  | .signal message => ((), { host with context.signal := some message })

def run {α : Type} (host : Host) : Program α → α × Host
  | .done value => (value, host)
  | .ask request next =>
    let (answer, host) := host.answer request
    host.run (next answer)

section Laws

variable {α β : Type} (host : Host)

@[simp]
theorem run_pure (value : α) : host.run (pure value) = (value, host) := rfl

@[simp]
theorem run_bind (program : Program α) (f : α → Program β) :
    host.run (program >>= f) = (host.run program).2.run (f (host.run program).1) := by
  change host.run (program.bind f) = _
  induction program generalizing host with
  | done => rfl
  | ask request next ih => exact ih _ _

@[simp]
theorem run_map (f : α → β) (program : Program α) :
    host.run (f <$> program) = (f (host.run program).1, (host.run program).2) :=
  run_bind host program fun value => pure (f value)

@[simp]
theorem run_caller : host.run .caller = (host.context.caller, host) := rfl

@[simp]
theorem run_argumentCount : host.run .argumentCount = (host.context.arguments.length, host) := rfl

@[simp]
theorem run_argument (index : Nat) :
    host.run (.argument index) = (host.context.arguments[index]?, host) := rfl

@[simp]
theorem run_load (key : Bytes) : host.run (.load key) = (host.storage.load key, host) := rfl

@[simp]
theorem run_store (key value : Bytes) :
    host.run (.store key value) = ((), { host with
      state.storage := host.storage.store key value
      context.writes := host.context.writes + 1 }) := rfl

@[simp]
theorem run_finish (data : Bytes) :
    host.run (.finish data) =
      ((), { host with context.output := host.context.output ++ [data] }) := rfl

@[simp]
theorem run_log (entry : LogEntry) :
    host.run (.log entry) =
      ((), { host with context.pending := host.context.pending ++ [entry] }) := rfl

@[simp]
theorem run_signal (message : Bytes) :
    host.run (.signal message) = ((), { host with context.signal := some message }) := rfl

end Laws

def enter (host : Host) (caller : Address) (arguments : List Bytes) : Host :=
  { host with context := .start caller arguments }

/-- Ends the running invocation, whose storage was `before` when it started. A success commits the
pending log and hands out the returned values. A fault restores the storage and drops the pending log
on a host that rolls back, and commits both on one that does not. -/
def leave (host : Host) (before : Storage) (outcome : Except Fault Unit) :
    Except Fault (List Bytes) × Host :=
  let closed : Host := { host with context.output := [], context.pending := [] }
  let committed : Host :=
    { closed with state.logs := host.state.logs ++ host.context.pending }
  match outcome with
  | .ok () => (.ok host.context.output, committed)
  | .error fault =>
    (.error fault, if host.rollback then closed.withStorage before else committed)

end Host

end FixedSupply
