import FixedSupply.Host.Invocation
import FixedSupply.Proofs.LastWrites
import FixedSupply.Proofs.Requests

/-!
# Atomicity of call trees

The trace of an invocation is the tree of the requests that it makes while it runs, with the
invocations that it starts as subtrees. On a host that rolls back a failure loses the whole subtree of
the invocation, and every run ends with the storage that it started from after a replay of the stores
that are not lost: each key holds what was stored last under it by these.
-/

namespace FixedSupply

/-- The requests of a run in the order of their execution, those of an inner invocation in a subtree
with the outcome of that invocation. -/
inductive Trace where
  | done
  | ask (request : Request) (rest : Trace)
  | call (outcome : Except Fault Unit) (inner rest : Trace)

namespace Trace

/-- What is kept of the requests of an invocation that ends like this, where `undoing` says whether a
failure loses them. -/
def lasting (undoing : Bool) (requests : List Request) : Except Fault Unit → List Request
  | .ok () => requests
  | .error _ => if undoing then [] else requests

/-- The requests in the order of their execution, without those that are lost. -/
def kept (undoing : Bool) : Trace → List Request
  | done => []
  | ask request rest => request :: rest.kept undoing
  | call outcome inner rest => lasting undoing (inner.kept undoing) outcome ++ rest.kept undoing

end Trace

namespace Invocation

variable {ν : Type}

def trace : Invocation ν → Host → Trace
  | .done .., _ => .done
  | .ask request next, host =>
    let (answer, after) := host.answer request
    .ask request ((next answer).trace after)
  | .inspect next, host => (next host).trace host
  | .call caller arguments entry next, host =>
    let ((outcome, note), inner) := entry.run (host.enter caller arguments)
    let (result, after) := inner.leave host.storage outcome
    .call outcome (entry.trace (host.enter caller arguments)) ((next result note).trace after)

end Invocation

def Request.stored? : Request → Option Write
  | .store key value => some (key, value)
  | _ => none

namespace Storage

/-- The storage after the stores among the requests, in their order. -/
def replay (storage : Storage) (requests : List Request) : Storage :=
  storage.storeAll (requests.filterMap Request.stored?)

lemma replay_cons (storage : Storage) (request : Request) (requests : List Request) :
    storage.replay (request :: requests) = (request.applyTo storage).replay requests := by
  cases request with
  | store key value => rfl
  | _ => rfl

lemma replay_append (storage : Storage) (front back : List Request) :
    storage.replay (front ++ back) = (storage.replay front).replay back := by
  unfold replay
  rw [List.filterMap_append, storeAll_append]

end Storage

lemma Host.rollback_answer (host : Host) (request : Request) :
    (host.answer request).2.rollback = host.rollback := by
  cases request with
  | store key value => rfl
  | _ => rfl

/-- Whatever becomes of the state, the end of an invocation drops the values and the pending log from the
context and nothing else, and a success hands out the values. -/
lemma Host.leave_eq (host : Host) (before : Storage) (outcome : Except Fault Unit) :
    ∃ state, host.leave before outcome =
      (outcome.map fun _ => host.context.output,
        ⟨state, host.rollback, { host.context with output := [], pending := [] }⟩) := by
  cases outcome with
  | ok _ => exact ⟨_, rfl⟩
  | error fault =>
    cases hrollback : host.rollback with
    | true => exact ⟨⟨before, host.logs⟩, by simp [leave, hrollback, withStorage, logs, Except.map]⟩
    | false =>
      exact ⟨⟨host.storage, host.logs ++ host.context.pending⟩,
        by simp [leave, hrollback, storage, logs, Except.map]⟩

lemma Host.rollback_leave (host : Host) (before : Storage) (outcome : Except Fault Unit) :
    (host.leave before outcome).2.rollback = host.rollback := by
  obtain ⟨state, h⟩ := host.leave_eq before outcome
  rw [h]

lemma Host.context_leave (host : Host) (before : Storage) (outcome : Except Fault Unit) :
    (host.leave before outcome).2.context = { host.context with output := [], pending := [] } := by
  obtain ⟨state, h⟩ := host.leave_eq before outcome
  rw [h]

lemma Invocation.rollback_run {ν : Type} (invocation : Invocation ν) (host : Host) :
    (invocation.run host).2.rollback = host.rollback := by
  induction invocation generalizing host with
  | done outcome note => rfl
  | ask request next ih =>
    rw [run, ih]
    exact host.rollback_answer request
  | inspect next ih => exact ih host host
  | call caller arguments entry next ihEntry ihNext =>
    rw [run, ihNext, Host.rollback_leave, ihEntry]
    rfl

namespace Host

variable {ν : Type} {host : Host} {outcome : Except Fault Unit}

lemma leave_eq_ok {before : Storage} {values : List Bytes}
    (h : (host.leave before outcome).1 = .ok values) : outcome = .ok () := by
  cases outcome with
  | ok _ => rfl
  | error fault => exact absurd h (by simp [leave])

lemma leave_eq_error_iff {before : Storage} {fault : Fault} :
    (host.leave before outcome).1 = .error fault ↔ outcome = .error fault := by
  cases outcome with
  | ok _ => simp [leave]
  | error other => simp [leave]

variable (outcome) in
/-- The end of an invocation keeps of its requests what its outcome allows. -/
lemma storage_leave {before : Storage} {requests : List Request}
    (h : host.storage = before.replay requests) :
    (host.leave before outcome).2.storage =
      before.replay (Trace.lasting host.rollback requests outcome) := by
  cases outcome with
  | ok _ => exact h
  | error fault =>
    cases hrollback : host.rollback with
    | true => simp [leave, hrollback, withStorage, storage, Trace.lasting, Storage.replay, Storage.storeAll]
    | false => simpa [leave, hrollback, storage, Trace.lasting] using h

lemma rollback_callNoted (host : Host) (caller : Address) (arguments : List Bytes)
    (entry : Invocation ν) :
    (host.callNoted caller arguments entry).2.rollback = host.rollback := by
  have hrun := entry.rollback_run (host.enter caller arguments)
  exact ((entry.run (host.enter caller arguments)).2.rollback_leave host.storage _).trans hrun

lemma storage_callNoted {caller : Address} {arguments : List Bytes} {entry : Invocation ν}
    {requests : List Request}
    (h : (entry.run (host.enter caller arguments)).2.storage = host.storage.replay requests) :
    (host.callNoted caller arguments entry).2.storage =
      host.storage.replay
        (Trace.lasting host.rollback requests (entry.run (host.enter caller arguments)).1.1) := by
  have hleave := storage_leave (entry.run (host.enter caller arguments)).1.1 h
  rw [entry.rollback_run] at hleave
  exact hleave

end Host

/-- At the end of a run the storage is the one at its start after the stores that are kept. -/
theorem Invocation.storage_run {ν : Type} (invocation : Invocation ν) (host : Host) :
    (invocation.run host).2.storage =
      host.storage.replay ((invocation.trace host).kept host.rollback) := by
  induction invocation generalizing host with
  | done outcome note => rfl
  | ask request next ih =>
    rw [run, ih, trace, Trace.kept, Storage.replay_cons, host.storage_answer, host.rollback_answer]
  | inspect next ih => exact ih host host
  | call caller arguments entry next ihEntry ihNext =>
    -- The inner invocation starts on the storage of its caller, so what it keeps is replayed on that.
    have hcalled := Host.storage_callNoted (ihEntry (host.enter caller arguments))
    have hrollback := host.rollback_callNoted caller arguments entry
    have hrest := ihNext (host.callNoted caller arguments entry).1.1
      (host.callNoted caller arguments entry).1.2 (host.callNoted caller arguments entry).2
    rw [hcalled, hrollback, ← Storage.replay_append] at hrest
    exact hrest

/-- A call tree is atomic on a host that rolls back, whatever is left over from the last invocation. A
call that fails leaves the storage as it was, whatever succeeded inside it. After a call that succeeds
each key holds the value that was stored last under it by the call or by a call inside it, except for the
ones inside a call that failed; it is absent where that value is empty, and holds what it held where there
is none. -/
theorem call_tree_atomic {ν : Type} (state : State) (leftover : Context) (caller : Address)
    (arguments : List Bytes) (entry : Invocation ν) :
    let host : Host := ⟨state, true, leftover⟩
    let ended := entry.run (host.enter caller arguments)
    let called := host.callNoted caller arguments entry
    let kept := ((entry.trace (host.enter caller arguments)).kept true).filterMap Request.stored?
    (∀ fault, called.1.1 = .error fault ↔ ended.1.1 = .error fault) ∧
      (∀ fault, called.1.1 = .error fault → called.2.storage = host.storage) ∧
      ∀ values, called.1.1 = .ok values → ∀ key,
        called.2.storage.get? key =
          (Write.last? kept key).elim (host.storage.get? key) fun value =>
            if value = [] then none else some value := by
  intro host ended called kept
  have hstorage : called.2.storage = _ :=
    Host.storage_callNoted (entry.storage_run (host.enter caller arguments))
  refine ⟨?_, ?_, ?_⟩
  · intro fault
    exact Host.leave_eq_error_iff
  · intro fault hfault
    rw [hstorage, Host.leave_eq_error_iff.mp hfault]
    rfl
  · intro values hvalues key
    rw [hstorage, Host.leave_eq_ok hvalues]
    exact host.storage.get?_storeAll kept key

end FixedSupply
