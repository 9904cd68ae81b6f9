import FixedSupply.Proofs.EntryPointRuns

/-!
# Clients of the ledger

A client is an invocation that writes the storage through operations of the ledger only. Between two
operations it may read, return values, log, signal, look at the host and start invocations of other
clients, and it may go on after a fault of either. `Client.points` lists the hosts at which a client
stands between two such steps, those of its inner invocations included. What every deed keeps of the
storage holds at all these points, because a rollback returns to a storage at which an invocation
started.
-/

namespace FixedSupply

/-- An operation of the ledger on a host: an entry point by its name, whose fault is signalled, or
an entry point as such, whose fault is not. -/
inductive Operation where
  | dispatch (function : String)
  | invoke (entry : EntryPoint)

namespace Operation

def action : Operation → Action Unit
  | .dispatch function => Contract.dispatch function
  | .invoke entry => Contract.invoke entry

/-- The entry point that the operation runs, if its name is one. -/
def entry? : Operation → Option EntryPoint
  | .dispatch function => EntryPoint.ofName? function
  | .invoke entry => some entry

def judge (storage : Storage) (caller : Address) (arguments : List Bytes) :
    Operation → Except Fault Deed
  | .dispatch function => Contract.judgeName storage caller arguments function
  | .invoke entry => Contract.judge storage caller entry arguments

theorem granted_of_judge {storage : Storage} {caller : Address} {arguments : List Bytes}
    {operation : Operation} {deed : Deed}
    (h : operation.judge storage caller arguments = .ok deed) :
    ∃ entry, operation.entry? = some entry ∧
      Contract.Granted storage caller entry arguments deed := by
  cases operation with
  | dispatch function => exact Contract.granted_of_judgeName h
  | invoke entry => exact ⟨entry, rfl, Contract.granted_of_judge h⟩

/-- What an operation answers and what it leaves of the storage. -/
theorem run_action (operation : Operation) (host : Host) :
    match operation.judge host.storage host.context.caller host.context.arguments with
    | .ok deed =>
      (host.run operation.action.run).1 = .ok () ∧
        (host.run operation.action.run).2.storage = deed.applyTo host.storage
    | .error fault =>
      (host.run operation.action.run).1 = .error fault ∧
        (host.run operation.action.run).2.storage = host.storage := by
  cases operation with
  | dispatch function =>
    rw [action, judge, Host.run_dispatch]
    cases Contract.judgeName host.storage host.context.caller host.context.arguments function with
    | ok deed => exact ⟨rfl, rfl⟩
    | error fault => exact ⟨rfl, rfl⟩
  | invoke entry =>
    rw [action, judge, Host.run_invoke]
    cases Contract.judge host.storage host.context.caller entry host.context.arguments with
    | ok deed => exact ⟨rfl, rfl⟩
    | error fault => exact ⟨rfl, rfl⟩

end Operation

/-- The request leaves the storage alone. -/
def Request.KeepsStorage : Request → Prop
  | .store .. => False
  | _ => True

/-- An invocation that writes the storage through operations of the ledger only. -/
inductive Client (ν : Type) where
  | done (outcome : Except Fault Unit) (note : ν)
  | operate (operation : Operation) (next : Except Fault Unit → Client ν)
  | ask (request : Request) (keeps : request.KeepsStorage) (next : request.Answer → Client ν)
  | inspect (next : Host → Client ν)
  | call (caller : Address) (arguments : List Bytes) (entry : Client ν)
      (next : Except Fault (List Bytes) → ν → Client ν)

namespace Client

variable {ν : Type}

def toInvocation : Client ν → Invocation ν
  | .done outcome note => .done outcome note
  | .operate operation next =>
    .ofProgram operation.action.run fun outcome => (next outcome).toInvocation
  | .ask request _ next => .ask request fun answer => (next answer).toInvocation
  | .inspect next => .inspect fun host => (next host).toInvocation
  | .call caller arguments entry next =>
    .call caller arguments entry.toInvocation fun result note => (next result note).toInvocation

/-- The hosts at which the client stands, in the order of its steps. -/
def points : Client ν → Host → List Host
  | .done .., host => [host]
  | .operate operation next, host =>
    let (outcome, after) := host.run operation.action.run
    host :: (next outcome).points after
  | .ask request _ next, host =>
    let (answer, after) := host.answer request
    host :: (next answer).points after
  | .inspect next, host => host :: (next host).points host
  | .call caller arguments entry next, host =>
    let ((outcome, note), inner) := entry.toInvocation.run (host.enter caller arguments)
    let (result, after) := inner.leave host.storage outcome
    host :: entry.points (host.enter caller arguments) ++ (next result note).points after

/-- The last point is where the run of the invocation ends. -/
theorem getLast?_points (client : Client ν) (host : Host) :
    (client.points host).getLast? = some (client.toInvocation.run host).2 := by
  induction client generalizing host with
  | done outcome note => rfl
  | operate operation next ih =>
    rw [points, toInvocation, Invocation.run_ofProgram, List.getLast?_cons, ih]
    rfl
  | ask request keeps next ih =>
    rw [points, toInvocation, Invocation.run, List.getLast?_cons, ih]
    rfl
  | inspect next ih =>
    rw [points, toInvocation, Invocation.run, List.getLast?_cons, ih]
    rfl
  | call caller arguments entry next _ ih =>
    rw [points, toInvocation, Invocation.run, List.getLast?_append, ih]
    rfl

end Client

/-- An invocation from outside: a client runs as this caller with these arguments. -/
structure ClientCall (ν : Type) where
  caller : Address
  arguments : List Bytes
  client : Client ν

namespace Host

variable {ν : Type}

def serve (host : Host) (call : ClientCall ν) : Host :=
  (host.callNoted call.caller call.arguments call.client.toInvocation).2

/-- The hosts at which a run of invocations stands, between and within them. -/
def points (host : Host) : List (ClientCall ν) → List Host
  | [] => [host]
  | call :: calls =>
    host :: call.client.points (host.enter call.caller call.arguments) ++ (host.serve call).points calls

end Host

/-- Every deed that may follow keeps the property. -/
def Deed.Keeps (holds : Storage → Prop) : Prop :=
  ∀ {storage : Storage} {caller : Address} {entry : EntryPoint} {arguments : List Bytes} {deed : Deed},
    holds storage → Contract.Granted storage caller entry arguments deed →
      holds (deed.applyTo storage)

lemma storage_answer (host : Host) {request : Request} (keeps : request.KeepsStorage) :
    (host.answer request).2.storage = host.storage := by
  cases request with
  | store key value => exact keeps.elim
  | caller => rfl
  | argumentCount => rfl
  | argument index => rfl
  | load key => rfl
  | finish data => rfl
  | log entry => rfl
  | signal message => rfl

/-- The end of an invocation leaves the storage or returns to the one at its start. -/
lemma storage_leave (inner : Host) (before : Storage) (outcome : Except Fault Unit) :
    (inner.leave before outcome).2.storage = inner.storage ∨
      (inner.leave before outcome).2.storage = before := by
  cases outcome with
  | ok value => exact .inl rfl
  | error fault =>
    cases hrollback : inner.rollback with
    | true => simp [Host.leave, hrollback, Host.withStorage, Host.storage]
    | false => simp [Host.leave, hrollback, Host.storage]

section Invariants

variable {ν : Type} {holds : Storage → Prop}

lemma holds_leave {inner : Host} {before : Storage} (hinner : holds inner.storage)
    (hbefore : holds before) (outcome : Except Fault Unit) :
    holds (inner.leave before outcome).2.storage := by
  rcases storage_leave inner before outcome with h | h
  · rw [h]
    exact hinner
  · rw [h]
    exact hbefore

variable (keeps : Deed.Keeps holds)
include keeps

lemma Deed.Keeps.run {host : Host} (h : holds host.storage) (operation : Operation) :
    holds (host.run operation.action.run).2.storage := by
  have hrun := operation.run_action host
  cases hjudge : operation.judge host.storage host.context.caller host.context.arguments with
  | error fault =>
    rw [hjudge] at hrun
    rw [hrun.2]
    exact h
  | ok deed =>
    rw [hjudge] at hrun
    obtain ⟨entry, -, granted⟩ := Operation.granted_of_judge hjudge
    rw [hrun.2]
    exact keeps h granted

/-- A client keeps the property at each of its points. The induction is on the client: an inner
invocation starts from the host of its call, which is the storage a rollback returns to. -/
theorem Deed.Keeps.client_points (client : Client ν) (host : Host) (h : holds host.storage) :
    ∀ point ∈ client.points host, holds point.storage := by
  induction client generalizing host with
  | done outcome note =>
    intro point hpoint
    obtain rfl := List.mem_singleton.mp hpoint
    exact h
  | operate operation next ih =>
    intro point hpoint
    rcases List.mem_cons.mp hpoint with rfl | hpoint
    · exact h
    · exact ih _ _ (keeps.run h operation) point hpoint
  | ask request unchanged next ih =>
    intro point hpoint
    rcases List.mem_cons.mp hpoint with rfl | hpoint
    · exact h
    · have hanswer : holds (host.answer request).2.storage := by
        rw [storage_answer host unchanged]
        exact h
      exact ih _ _ hanswer point hpoint
  | inspect next ih =>
    intro point hpoint
    rcases List.mem_cons.mp hpoint with rfl | hpoint
    · exact h
    · exact ih host host h point hpoint
  | call caller arguments entry next ihentry ihnext =>
    intro point hpoint
    have hentry := ihentry (host.enter caller arguments) h
    have hinner : holds (entry.toInvocation.run (host.enter caller arguments)).2.storage :=
      hentry _ (List.mem_of_getLast? (entry.getLast?_points _))
    rcases List.mem_append.mp hpoint with hpoint | hpoint
    · rcases List.mem_cons.mp hpoint with rfl | hpoint
      · exact h
      · exact hentry point hpoint
    · exact ihnext _ _ _ (holds_leave hinner h _) point hpoint

lemma Deed.Keeps.serve {host : Host} (h : holds host.storage) (call : ClientCall ν) :
    holds (host.serve call).storage := by
  have hinner := keeps.client_points call.client (host.enter call.caller call.arguments) h _
    (List.mem_of_getLast? (call.client.getLast?_points _))
  exact holds_leave hinner h _

/-- What every deed keeps holds at every point of every run of clients, if it holds at the start. -/
theorem Deed.Keeps.points (host : Host) (h : holds host.storage) (calls : List (ClientCall ν)) :
    ∀ point ∈ host.points calls, holds point.storage := by
  induction calls generalizing host with
  | nil =>
    intro point hpoint
    obtain rfl := List.mem_singleton.mp hpoint
    exact h
  | cons call calls ih =>
    intro point hpoint
    rcases List.mem_append.mp hpoint with hpoint | hpoint
    · rcases List.mem_cons.mp hpoint with rfl | hpoint
      · exact h
      · exact keeps.client_points call.client (host.enter call.caller call.arguments) h point hpoint
    · exact ih _ (keeps.serve h call) point hpoint

end Invariants

end FixedSupply
