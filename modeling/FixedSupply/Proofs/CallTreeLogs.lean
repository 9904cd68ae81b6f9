import FixedSupply.Proofs.CallTrees

/-!
# The log of a call tree

There is one list of pending log entries for all invocations of a tree. An inner invocation starts it
anew, and what it commits is final: a failure around it restores the storage only. So an entry is
committed just if its own invocation succeeds and starts no inner one after writing the entry. This is
what the invocations around it allow if the tree is orderly, and only then in general.
-/

namespace FixedSupply

def Request.logged? : Request → Option LogEntry
  | .log entry => some entry
  | _ => none

namespace Trace

def entries (requests : List Request) : List LogEntry :=
  requests.filterMap Request.logged?

/-- The invocation starts another one. -/
def nests : Trace → Bool
  | done => false
  | ask _ rest => rest.nests
  | call .. => true

/-- The requests after the last inner invocation, or all of them if there is none. -/
def closing : Trace → List Request
  | done => []
  | ask request rest => if rest.nests then rest.closing else request :: rest.closing
  | call _ _ rest => rest.closing

/-- The requests that inner invocations have settled, so that nothing around them undoes their log
entries. -/
def settled (undoing : Bool) : Trace → List Request
  | done => []
  | ask _ rest => rest.settled undoing
  | call outcome inner rest =>
    inner.settled undoing ++ lasting undoing inner.closing outcome ++ rest.settled undoing

/-- No log entry is followed by an inner invocation, and none is settled inside a failure. Of an
invocation that fails nothing else is asked, because its own entries are dropped. -/
def Orderly : Trace → Prop
  | done => True
  | ask request rest => (request.logged? = none ∨ rest.nests = false) ∧ rest.Orderly
  | call (.ok ()) inner rest => inner.Orderly ∧ rest.Orderly
  | call (.error _) inner rest => entries (inner.settled true) = [] ∧ rest.Orderly

instance decidableOrderly : (trace : Trace) → Decidable trace.Orderly
  | done => inferInstanceAs (Decidable True)
  | ask request rest =>
    have := decidableOrderly rest
    inferInstanceAs (Decidable ((request.logged? = none ∨ rest.nests = false) ∧ rest.Orderly))
  | call (.ok ()) inner rest =>
    have := decidableOrderly inner
    have := decidableOrderly rest
    inferInstanceAs (Decidable (inner.Orderly ∧ rest.Orderly))
  | call (.error _) inner rest =>
    have := decidableOrderly rest
    inferInstanceAs (Decidable (entries (inner.settled true) = [] ∧ rest.Orderly))

@[simp] lemma entries_nil : entries [] = [] := rfl

lemma entries_cons (request : Request) (requests : List Request) :
    entries (request :: requests) = request.logged?.toList ++ entries requests := by
  unfold entries
  rw [List.filterMap_cons]
  cases request.logged? with
  | none => rfl
  | some entry => rfl

lemma entries_append (front back : List Request) :
    entries (front ++ back) = entries front ++ entries back :=
  List.filterMap_append

lemma entries_lasting (undoing : Bool) (requests : List Request) (outcome : Except Fault Unit) :
    entries (lasting undoing requests outcome) =
      match outcome with
      | .ok () => entries requests
      | .error _ => if undoing then [] else entries requests := by
  cases outcome with
  | ok _ => rfl
  | error fault =>
    cases undoing with
    | true => rfl
    | false => rfl

lemma settled_of_not_nests (undoing : Bool) {trace : Trace} (h : trace.nests = false) :
    trace.settled undoing = [] := by
  induction trace with
  | done => rfl
  | ask request rest ih => exact ih h
  | call outcome inner rest => exact absurd h (by simp [nests])

/-- In an orderly trace the entries that are kept are the settled ones and then those of the close. -/
theorem Orderly.entries_kept {trace : Trace} (h : trace.Orderly) :
    entries (trace.kept true) = entries (trace.settled true) ++ entries trace.closing := by
  induction trace with
  | done => rfl
  | ask request rest ih =>
    obtain ⟨hrequest, hrest⟩ := h
    have hkept := ih hrest
    rw [kept, settled, closing, entries_cons, hkept]
    cases hnests : rest.nests with
    | false =>
      -- Nothing is settled yet, so the entry comes first on both sides.
      rw [settled_of_not_nests true hnests]
      simp [entries_cons]
    | true =>
      have hnone : request.logged? = none := hrequest.resolve_right (by simp [hnests])
      simp [hnone]
  | call outcome inner rest ihInner ihRest =>
    cases outcome with
    | ok _ =>
      obtain ⟨hinner, hrest⟩ := h
      simp only [kept, settled, closing, lasting, entries_append, ihInner hinner, ihRest hrest,
        List.append_assoc]
    | error fault =>
      obtain ⟨hinner, hrest⟩ := h
      simp [kept, settled, closing, lasting, entries_append, hinner, ihRest hrest]

end Trace

open Trace

namespace Host

lemma logs_answer (host : Host) (request : Request) : (host.answer request).2.logs = host.logs := by
  cases request with
  | store key value => rfl
  | _ => rfl

lemma pending_answer (host : Host) (request : Request) :
    (host.answer request).2.context.pending = host.context.pending ++ request.logged?.toList := by
  cases request with
  | log entry => rfl
  | _ => exact (List.append_nil _).symm

lemma pending_leave (host : Host) (before : Storage) (outcome : Except Fault Unit) :
    (host.leave before outcome).2.context.pending = [] := by
  rw [context_leave]

/-- The end of an invocation commits what is pending, unless it fails on a host that rolls back. -/
lemma logs_leave (host : Host) (before : Storage) (outcome : Except Fault Unit)
    {requests : List Request} (h : host.context.pending = entries requests) :
    (host.leave before outcome).2.logs =
      host.logs ++ entries (lasting host.rollback requests outcome) := by
  rw [entries_lasting, ← h]
  cases outcome with
  | ok _ => rfl
  | error fault =>
    cases hrollback : host.rollback with
    | true => simp [leave, hrollback, withStorage, logs]
    | false => simp [leave, hrollback, logs]

end Host

section Runs

variable {ν : Type}

/-- At the end of a run those entries are pending that were written after the last inner invocation,
and before them the ones at the start if there was no inner invocation. -/
lemma Invocation.pending_run (invocation : Invocation ν) (host : Host) :
    (invocation.run host).2.context.pending =
      (if (invocation.trace host).nests then [] else host.context.pending) ++
        entries (invocation.trace host).closing := by
  induction invocation generalizing host with
  | done outcome note => exact (List.append_nil _).symm
  | ask request next ih =>
    rw [run, ih, trace, nests, closing, host.pending_answer]
    cases hnests : ((next (host.answer request).1).trace (host.answer request).2).nests with
    | true => rfl
    | false => simp [entries_cons]
  | inspect next ih => exact ih host host
  | call caller arguments entry next ihEntry ihNext =>
    have hrest := ihNext (host.callNoted caller arguments entry).1.1
      (host.callNoted caller arguments entry).1.2 (host.callNoted caller arguments entry).2
    have hpending : (host.callNoted caller arguments entry).2.context.pending = [] :=
      Host.pending_leave _ _ _
    rw [hpending, ite_self] at hrest
    exact hrest

/-- Where a run of an invocation adds settled entries to the log, the end of the invocation adds those
of its close. -/
lemma Host.logs_callNoted {host : Host} {caller : Address} {arguments : List Bytes}
    {entry : Invocation ν} {requests : List Request}
    (h : (entry.run (host.enter caller arguments)).2.logs = host.logs ++ entries requests) :
    (host.callNoted caller arguments entry).2.logs =
      host.logs ++ entries (requests ++
        lasting host.rollback (entry.trace (host.enter caller arguments)).closing
          (entry.run (host.enter caller arguments)).1.1) := by
  have hpending := entry.pending_run (host.enter caller arguments)
  have hstart : (host.enter caller arguments).context.pending = [] := rfl
  rw [hstart, ite_self, List.nil_append] at hpending
  have hleave := Host.logs_leave _ host.storage (entry.run (host.enter caller arguments)).1.1 hpending
  rw [entry.rollback_run, h, List.append_assoc, ← entries_append] at hleave
  exact hleave

/-- A run adds the settled entries to the log. -/
theorem Invocation.logs_run (invocation : Invocation ν) (host : Host) :
    (invocation.run host).2.logs =
      host.logs ++ entries ((invocation.trace host).settled host.rollback) := by
  induction invocation generalizing host with
  | done outcome note => exact (List.append_nil _).symm
  | ask request next ih =>
    rw [run, ih, trace, settled, host.logs_answer, host.rollback_answer]
  | inspect next ih => exact ih host host
  | call caller arguments entry next ihEntry ihNext =>
    have hcalled := Host.logs_callNoted (ihEntry (host.enter caller arguments))
    have hrollback := host.rollback_callNoted caller arguments entry
    have hrest := ihNext (host.callNoted caller arguments entry).1.1
      (host.callNoted caller arguments entry).1.2 (host.callNoted caller arguments entry).2
    rw [hcalled, hrollback, List.append_assoc, ← entries_append] at hrest
    exact hrest

/-- The trace of a whole call, with the invocation as a subtree. -/
def Host.callTrace (host : Host) (caller : Address) (arguments : List Bytes) (entry : Invocation ν) :
    Trace :=
  .call (entry.run (host.enter caller arguments)).1.1 (entry.trace (host.enter caller arguments)) .done

/-- A call adds to the log what its trace settles. That is what the failures around each entry leave of
it if the trace is orderly, and a call that fails leaves the log as it was if and only if its trace is
orderly. -/
theorem log_of_call_tree (state : State) (leftover : Context) (caller : Address)
    (arguments : List Bytes) (entry : Invocation ν) :
    let host : Host := ⟨state, true, leftover⟩
    let called := host.callNoted caller arguments entry
    let trace := host.callTrace caller arguments entry
    called.2.logs = host.logs ++ entries (trace.settled true) ∧
      (trace.Orderly → called.2.logs = host.logs ++ entries (trace.kept true)) ∧
      ∀ fault, called.1.1 = .error fault → (called.2.logs = host.logs ↔ trace.Orderly) := by
  intro host called trace
  have hlogs : called.2.logs = host.logs ++ entries (trace.settled true) := by
    have hcalled := Host.logs_callNoted (entry.logs_run (host.enter caller arguments))
    have hsettled : trace.settled true = _ ++ [] := rfl
    rw [hsettled, List.append_nil]
    exact hcalled
  have hclosing : trace.closing = [] := rfl
  refine ⟨hlogs, ?_, ?_⟩
  · intro horderly
    rw [hlogs, horderly.entries_kept, hclosing, entries_nil, List.append_nil]
  · intro fault hfault
    have houtcome : (entry.run (host.enter caller arguments)).1.1 = .error fault :=
      Host.leave_eq_error_iff.mp hfault
    have htrace : trace = .call (.error fault) (entry.trace (host.enter caller arguments)) .done := by
      rw [← houtcome]
      rfl
    rw [hlogs, List.append_right_eq_self, htrace]
    simp [settled, lasting, Orderly]

end Runs

/-- An orderly call: it starts an invocation that logs and one that logs and fails, and logs last. -/
theorem log_of_call_tree_of_orderly :
    let logging (byte : UInt8) (outcome : Except Fault Unit) : Invocation Unit :=
      .ask (.log ⟨[], [byte]⟩) fun _ => .done outcome ()
    let entry : Invocation Unit :=
      .call .zero [] (logging 1 (.ok ())) fun _ _ =>
        .call .zero [] (logging 2 (.error .underflow)) fun _ _ => logging 3 (.ok ())
    let trace := (Host.fresh true).callTrace .zero [] entry
    trace.Orderly ∧ entries (trace.kept true) = [⟨[], [1]⟩, ⟨[], [3]⟩] ∧
      ((Host.fresh true).callNoted .zero [] entry).2.logs =
        (Host.fresh true).logs ++ entries (trace.kept true) := by
  intro logging entry trace
  have horderly : trace.Orderly := by decide
  exact ⟨horderly, by decide, (log_of_call_tree .empty _ .zero [] entry).2.1 horderly⟩

/-- Without order a call that fails leaves an entry of its inner invocation in the log, and a call that
succeeds loses an entry that it wrote before its inner invocation. -/
theorem log_not_atomic :
    let host := Host.fresh true
    let logging (next : Invocation Unit) : Invocation Unit := .ask (.log ⟨[], [42]⟩) fun _ => next
    let failing : Invocation Unit :=
      .call .zero [] (logging (.done (.ok ()) ())) fun _ _ => .done (.error .underflow) ()
    let hasty : Invocation Unit :=
      logging (.call .zero [] (.done (.ok ()) ()) fun _ _ => .done (.ok ()) ())
    (host.callNoted .zero [] failing).1.1 = .error .underflow ∧
      (host.callNoted .zero [] failing).2.logs = [⟨[], [42]⟩] ∧
      (host.callNoted .zero [] hasty).1.1 = .ok [] ∧
      (host.callNoted .zero [] hasty).2.logs = [] ∧
      entries ((host.callTrace .zero [] hasty).kept true) = [⟨[], [42]⟩] ∧ host.logs = [] :=
  ⟨rfl, rfl, rfl, rfl, rfl, rfl⟩

end FixedSupply
