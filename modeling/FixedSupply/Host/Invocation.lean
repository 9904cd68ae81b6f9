import FixedSupply.Contract.Ledger
import FixedSupply.Host

/-!
# Invocations

What an invocation does between its start and its end is a tree: it makes requests, looks at its
host, starts invocations of its own on the same host, and ends in success or in a fault. A fault of
an inner invocation is an answer to the outer one, which may go on. With its outcome an invocation
leaves a note of type `ν` to whoever started it.
-/

namespace FixedSupply

inductive Invocation (ν : Type) where
  | done (outcome : Except Fault Unit) (note : ν)
  | ask (request : Request) (next : request.Answer → Invocation ν)
  | inspect (next : Host → Invocation ν)
  | call (caller : Address) (arguments : List Bytes) (entry : Invocation ν)
      (next : Except Fault (List Bytes) → ν → Invocation ν)

namespace Invocation

variable {ν α : Type}

/-- Runs a program and goes on with its value. -/
def ofProgram : Program α → (α → Invocation ν) → Invocation ν
  | .done value, next => next value
  | .ask request rest, next => .ask request fun answer => ofProgram (rest answer) next

/-- The invocation that runs an action and ends as it ends. -/
def ofAction (action : Action Unit) : Invocation Unit :=
  ofProgram action.run fun outcome => .done outcome ()

def dispatch (function : String) : Invocation Unit :=
  ofAction (Contract.dispatch function)

/-- Runs an invocation in the current context of a host, without starting or ending it. -/
def run : Invocation ν → Host → (Except Fault Unit × ν) × Host
  | .done outcome note, host => ((outcome, note), host)
  | .ask request next, host =>
    let (answer, host) := host.answer request
    (next answer).run host
  | .inspect next, host => (next host).run host
  | .call caller arguments entry next, host =>
    let ((outcome, note), inner) := entry.run (host.enter caller arguments)
    let (result, host) := inner.leave host.storage outcome
    (next result note).run host

@[simp]
theorem run_ofProgram (program : Program α) (next : α → Invocation ν) (host : Host) :
    (ofProgram program next).run host = (next (host.run program).1).run (host.run program).2 := by
  induction program generalizing host with
  | done => rfl
  | ask request rest ih => exact ih _ _

end Invocation

namespace Host

/-- Starts an invocation, runs it and ends it. -/
def callNoted {ν : Type} (host : Host) (caller : Address) (arguments : List Bytes)
    (entry : Invocation ν) : (Except Fault (List Bytes) × ν) × Host :=
  let ((outcome, note), inner) := entry.run (host.enter caller arguments)
  let (result, host) := inner.leave host.storage outcome
  ((result, note), host)

/-- Starts an invocation, runs it and ends it: the returned values, or the fault. -/
def call (host : Host) (caller : Address) (arguments : List Bytes) (entry : Invocation Unit) :
    Except Fault (List Bytes) × Host :=
  let ((result, ()), host) := host.callNoted caller arguments entry
  (result, host)

def dispatch (host : Host) (caller : Address) (arguments : List Bytes) (function : String) :
    Except Fault (List Bytes) × Host :=
  host.call caller arguments (.dispatch function)

end Host

end FixedSupply
