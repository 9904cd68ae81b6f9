import Mathlib.Data.List.DropRight
import FixedSupply.Proofs.CallTrees
import FixedSupply.Proofs.TransferEffect

/-!
# The context of a call tree

There is one context for all invocations of a tree. An inner invocation puts its caller and its arguments
in the place of those of the invocation that starts it, drops the values that were returned so far, and
nothing is put back when it ends. So an invocation is served as the one that was started last, at any
depth, and it returns the values since its last inner invocation.
-/

namespace FixedSupply

/-- By whom an invocation is started, and with which arguments. -/
@[ext]
structure Origin where
  caller : Address
  arguments : List Bytes
  deriving DecidableEq

namespace Origin

/-- The argument at an index, or the fault that there is none. -/
def argument (origin : Origin) (index : ℕ) : Except Fault Bytes :=
  match origin.arguments[index]? with
  | some bytes => .ok bytes
  | none => .error (.invalidArgument index .outOfRange)

lemma argument_eq_ok_iff {origin : Origin} {index : ℕ} {bytes : Bytes} :
    origin.argument index = .ok bytes ↔ origin.arguments[index]? = some bytes := by
  unfold argument
  cases origin.arguments[index]? with
  | some other => simp
  | none => simp

end Origin

/-- What an invocation does itself. -/
inductive Act where
  | ask (request : Request)
  /-- To start an invocation, with all those that are started inside it in their order. -/
  | call (origin : Origin) (inside : List Origin)
  deriving DecidableEq

namespace Act

def isCall : Act → Bool
  | ask _ => false
  | call .. => true

def started : Act → List Origin
  | ask _ => []
  | call origin inside => origin :: inside

def returned? : Act → Option Bytes
  | ask (.finish data) => some data
  | _ => none

/-- The values that the acts return, in their order. -/
def values (acts : List Act) : List Bytes :=
  acts.filterMap returned?

/-- The acts up to the last inner invocation, none if there is no such invocation. -/
def earlier (acts : List Act) : List Act :=
  acts.rdropWhile fun act => !act.isCall

/-- The acts after the last inner invocation. -/
def closing (acts : List Act) : List Act :=
  acts.rtakeWhile fun act => !act.isCall

/-- The invocation that was started last, at any depth: `own`, whose acts these are, if they start none. -/
def latest (own : Origin) (acts : List Act) : Origin :=
  (acts.flatMap started).getLast?.getD own

section Laws

variable (own : Origin) (acts : List Act)

lemma latest_ask (request : Request) : latest own (acts ++ [ask request]) = latest own acts := by
  simp [latest, started]

lemma latest_call (origin : Origin) (inside : List Origin) :
    latest own (acts ++ [call origin inside]) = inside.getLast?.getD origin := by
  simp [latest, started, List.getLast?_cons]

lemma closing_ask (request : Request) : closing (acts ++ [ask request]) = closing acts ++ [ask request] :=
  List.rtakeWhile_concat_pos _ _ _ rfl

lemma closing_call (origin : Origin) (inside : List Origin) :
    closing (acts ++ [call origin inside]) = [] :=
  List.rtakeWhile_concat_neg _ _ _ (by simp [isCall])

lemma values_append (front back : List Act) : values (front ++ back) = values front ++ values back :=
  List.filterMap_append

lemma values_eq : values acts = values (earlier acts) ++ values (closing acts) := by
  rw [← values_append, earlier, closing, List.rdropWhile_append_rtakeWhile]

end Laws

end Act

open Act

namespace Host

/-- The invocation that the host answers for. -/
def origin (host : Host) : Origin :=
  ⟨host.context.caller, host.context.arguments⟩

/-- The host answers for this invocation: it tells its caller, the number of its arguments and each of
them. -/
structure Serves (host : Host) (origin : Origin) : Prop where
  caller : (host.run Program.caller).1 = origin.caller
  argumentCount : (host.run Program.argumentCount).1 = origin.arguments.length
  argumentBytes : ∀ index, (host.run (Contract.argumentBytes index).run).1 = origin.argument index

lemma argument_origin (host : Host) (index : ℕ) :
    (host.run (Contract.argumentBytes index).run).1 = host.origin.argument index :=
  congrArg Prod.fst (host.run_argumentBytes_eq index)

/-- A host serves one invocation only. -/
theorem serves_iff {host : Host} {origin : Origin} : host.Serves origin ↔ host.origin = origin := by
  constructor
  · intro h
    have harguments : host.origin.arguments = origin.arguments := by
      apply List.ext_getElem?
      intro index
      have hsame := (host.argument_origin index).symm.trans (h.argumentBytes index)
      apply Option.ext
      intro bytes
      rw [← Origin.argument_eq_ok_iff, ← Origin.argument_eq_ok_iff, hsame]
    exact Origin.ext h.caller harguments
  · rintro rfl
    exact ⟨rfl, rfl, host.argument_origin⟩

lemma origin_answer (host : Host) (request : Request) : (host.answer request).2.origin = host.origin := by
  cases request with
  | store key value => rfl
  | _ => rfl

lemma output_answer (host : Host) (request : Request) :
    (host.answer request).2.context.output = host.context.output ++ values [.ask request] := by
  cases request with
  | finish data => rfl
  | _ => exact (List.append_nil _).symm

section Leave

variable (host : Host) (before : Storage) (outcome : Except Fault Unit)

lemma origin_leave : (host.leave before outcome).2.origin = host.origin := by
  rw [origin, context_leave]
  rfl

lemma output_leave : (host.leave before outcome).2.context.output = [] := by
  rw [context_leave]

lemma result_leave : (host.leave before outcome).1 = outcome.map fun _ => host.context.output := by
  obtain ⟨state, h⟩ := host.leave_eq before outcome
  rw [h]

end Leave

end Host

namespace Invocation

variable {ν : Type}

/-- All invocations that are started in a run, in the order of their start. -/
def started : Invocation ν → Host → List Origin
  | .done .., _ => []
  | .ask request next, host =>
    let (answer, after) := host.answer request
    (next answer).started after
  | .inspect next, host => (next host).started host
  | .call caller arguments entry next, host =>
    let ((outcome, note), inner) := entry.run (host.enter caller arguments)
    let (result, after) := inner.leave host.storage outcome
    ⟨caller, arguments⟩ :: entry.started (host.enter caller arguments) ++ (next result note).started after

/-- At the end of a run the host answers for the invocation that was started last. -/
theorem origin_run (invocation : Invocation ν) (host : Host) :
    (invocation.run host).2.origin = (invocation.started host).getLast?.getD host.origin := by
  induction invocation generalizing host with
  | done outcome note => rfl
  | ask request next ih =>
    rw [run, ih, started, host.origin_answer]
  | inspect next ih => exact ih host host
  | call caller arguments entry next ihEntry ihNext =>
    have hcalled : (host.callNoted caller arguments entry).2.origin =
        (entry.started (host.enter caller arguments)).getLast?.getD ⟨caller, arguments⟩ :=
      (Host.origin_leave _ _ _).trans (ihEntry (host.enter caller arguments))
    have hrest := ihNext (host.callNoted caller arguments entry).1.1
      (host.callNoted caller arguments entry).1.2 (host.callNoted caller arguments entry).2
    -- What is started inside the inner invocation counts only where nothing is started after it.
    have hlast (inside rest : List Origin) :
        ((⟨caller, arguments⟩ :: inside ++ rest).getLast?.getD host.origin) =
          rest.getLast?.getD (inside.getLast?.getD ⟨caller, arguments⟩) := by
      rw [List.getLast?_append, List.getLast?_cons]
      cases rest.getLast? with
      | none => rfl
      | some last => rfl
    rw [hcalled, ← hlast] at hrest
    exact hrest

/-- The invocation, run on a host, comes after these acts to stand at a point with a rest to be run. -/
inductive Reaches (entry : Invocation ν) (start : Host) :
    List Act → Invocation ν → Host → Prop where
  | start : Reaches entry start [] entry start
  | ask {acts : List Act} {request : Request} {next : request.Answer → Invocation ν} {point : Host}
      (before : Reaches entry start acts (.ask request next) point) :
      Reaches entry start (acts ++ [.ask request]) (next (point.answer request).1)
        (point.answer request).2
  | inspect {acts : List Act} {next : Host → Invocation ν} {point : Host}
      (before : Reaches entry start acts (.inspect next) point) :
      Reaches entry start acts (next point) point
  | call {acts : List Act} {caller : Address} {arguments : List Bytes} {inner : Invocation ν}
      {next : Except Fault (List Bytes) → ν → Invocation ν} {point : Host}
      (before : Reaches entry start acts (.call caller arguments inner next) point) :
      Reaches entry start
        (acts ++ [.call ⟨caller, arguments⟩ (inner.started (point.enter caller arguments))])
        (next (point.callNoted caller arguments inner).1.1 (point.callNoted caller arguments inner).1.2)
        (point.callNoted caller arguments inner).2

namespace Reaches

variable {entry rest : Invocation ν} {start point : Host} {acts : List Act}

/-- What is left to run at a point leads to the end of the whole run. -/
theorem run_eq (h : entry.Reaches start acts rest point) : entry.run start = rest.run point := by
  induction h with
  | start => rfl
  | ask before ih => exact ih
  | inspect before ih => exact ih
  | call before ih => exact ih

theorem exists_done (h : entry.Reaches start acts rest point) :
    ∃ acts outcome note point, entry.Reaches start acts (.done outcome note) point := by
  induction rest generalizing acts point with
  | done outcome note => exact ⟨acts, outcome, note, point, h⟩
  | ask request next ih => exact ih _ h.ask
  | inspect next ih => exact ih _ h.inspect
  | call caller arguments inner next _ ih => exact ih _ _ h.call

/-- At a point the host answers for the invocation that was started last. -/
theorem origin_eq (h : entry.Reaches start acts rest point) :
    point.origin = latest start.origin acts := by
  induction h with
  | start => rfl
  | @ask acts request next point before ih => rw [latest_ask, Host.origin_answer, ih]
  | inspect before ih => exact ih
  | @call acts caller arguments inner next point before ih =>
    -- The end of the inner invocation puts nothing back.
    rw [latest_call]
    exact (Host.origin_leave _ _ _).trans (inner.origin_run (point.enter caller arguments))

/-- At a point those values are to be returned that were passed since the last inner invocation. -/
theorem output_eq (h : entry.Reaches start acts rest point) (hstart : start.context.output = []) :
    point.context.output = values (closing acts) := by
  induction h with
  | start => exact hstart
  | @ask acts request next point before ih =>
    rw [closing_ask, values_append, Host.output_answer, ih]
  | inspect before ih => exact ih
  | @call acts caller arguments inner next point before ih =>
    rw [closing_call]
    exact Host.output_leave _ _ _

end Reaches

end Invocation

namespace Host

/-- A transfer on the host is one of this invocation: an amount above the balance of its caller is refused,
and any other one is taken from that caller alone. -/
def TransfersFor (host : Host) (origin : Origin) : Prop :=
  ∀ (operation : Operation) (recipient : Address) (bytes : Bytes),
    operation.entry? = some .transfer → origin.arguments = [recipient.bytes, bytes] →
      let amount := Amount.ofBytes bytes
      let available := host.storage.balance origin.caller
      let ended := host.run operation.action.run
      (available < amount →
        ended.1 = .error (.insufficientBalance available amount) ∧ ended.2.storage = host.storage) ∧
        (amount ≤ available →
          ended.1 = .ok () ∧ ∀ holder,
            ended.2.storage.balance holder + (if holder = origin.caller then amount else 0) =
              host.storage.balance holder + (if holder = recipient then amount else 0))

lemma transfersFor_origin (host : Host) : host.TransfersFor host.origin := by
  intro operation recipient bytes hentry harguments amount available ended
  have hrun := operation.run_action host
  have hjudge := operation.judge_of_named hentry host.storage host.context.caller host.context.arguments
  have hgiven : host.context.arguments = [recipient.bytes, bytes] := harguments
  rw [hgiven, Contract.judge_transfer] at hjudge
  rw [hgiven, hjudge] at hrun
  constructor
  · intro hlt
    have hbelow : host.storage.balance host.context.caller < Amount.ofBytes bytes := hlt
    rw [if_pos hbelow] at hrun
    exact hrun
  · intro hle
    have hcovered : ¬host.storage.balance host.context.caller < Amount.ofBytes bytes :=
      Nat.not_lt.mpr hle
    rw [if_neg hcovered] at hrun
    refine ⟨hrun.1, ?_⟩
    intro holder
    rw [hrun.2]
    exact host.storage.balance_applyTo_move hle recipient holder

lemma callNoted_of_reaches_done {ν : Type} {host point : Host} {caller : Address}
    {arguments : List Bytes} {entry : Invocation ν} {acts : List Act} {outcome : Except Fault Unit}
    {note : ν} (h : entry.Reaches (host.enter caller arguments) acts (.done outcome note) point) :
    (host.callNoted caller arguments entry).1 =
      (outcome.map fun _ => values (closing acts), note) := by
  have hrun : entry.run (host.enter caller arguments) = ((outcome, note), point) := h.run_eq
  have hcalled : (host.callNoted caller arguments entry).1 =
      ((point.leave host.storage outcome).1, note) := by
    unfold callNoted
    rw [hrun]
  rw [hcalled, result_leave, h.output_eq rfl]

end Host

/-- Wherever an invocation stands among its own acts, the host answers for the invocation that was started
last, and so for itself just if that one has its caller and its arguments; a transfer made there debits
that caller. An invocation that succeeds returns in order the values that it passed since its last inner
invocation, which are all its values just if it passed none before. An inner invocation is itself a call
on the host at which the one around it stands, so this holds at every depth. -/
theorem context_of_call_tree {ν : Type} (host : Host) (caller : Address) (arguments : List Bytes)
    (entry : Invocation ν) :
    let own : Origin := ⟨caller, arguments⟩
    let start := host.enter caller arguments
    (∀ acts rest point, entry.Reaches start acts rest point →
      point.Serves (latest own acts) ∧ (point.Serves own ↔ latest own acts = own) ∧
        point.TransfersFor (latest own acts)) ∧
      (∃ acts outcome note point, entry.Reaches start acts (.done outcome note) point) ∧
      ∀ acts outcome note point, entry.Reaches start acts (.done outcome note) point →
        (host.callNoted caller arguments entry).1 =
            (outcome.map fun _ => values (closing acts), note) ∧
          values (closing acts) <:+ values acts ∧
          (values (closing acts) = values acts ↔ values (earlier acts) = []) := by
  intro own start
  refine ⟨?_, Invocation.Reaches.start.exists_done, ?_⟩
  · intro acts rest point hreaches
    have horigin : point.origin = latest own acts := hreaches.origin_eq
    rw [Host.serves_iff, Host.serves_iff, ← horigin]
    exact ⟨rfl, Iff.rfl, point.transfersFor_origin⟩
  · intro acts outcome note point hreaches
    refine ⟨Host.callNoted_of_reaches_done hreaches, ?_, ?_⟩
    · rw [values_eq acts]
      exact List.suffix_append _ _
    · rw [values_eq acts, eq_comm, List.append_left_eq_self]

/-- After an inner invocation of another caller a transfer debits that caller. The value that is passed
before is lost, the one that is passed after is returned. -/
theorem context_of_call_tree_of_inner_call :
    let rich : Address := ⟨List.replicate 32 7, rfl⟩
    let host : Host := ⟨⟨.ofList [(rich.bytes, [5])], []⟩, true, .start .zero []⟩
    let start := host.enter .zero []
    let last : Invocation Unit := .ask (.finish [3]) fun _ => .done (.ok ()) ()
    let entry : Invocation Unit :=
      .ask (.finish [1]) fun _ =>
        .call rich [Bytes32.zero.bytes, [2]] (.done (.ok ()) ()) fun _ _ => last
    let point := ((start.answer (.finish [1])).2.callNoted rich [Bytes32.zero.bytes, [2]]
      (.done (.ok ()) () : Invocation Unit)).2
    let acts := [Act.ask (.finish [1]), .call ⟨rich, [Bytes32.zero.bytes, [2]]⟩ []]
    entry.Reaches start acts last point ∧ ¬point.Serves ⟨.zero, []⟩ ∧
      (point.run (Contract.invoke .transfer).run).2.storage.balance rich + 2 = 5 ∧
      entry.Reaches start (acts ++ [.ask (.finish [3])]) (.done (.ok ()) ())
        (point.answer (.finish [3])).2 ∧
      (host.callNoted .zero [] entry).1 = (.ok [[3]], ()) := by
  intro rich host start last entry point acts
  have hstart : entry.Reaches start [] entry start := .start
  have hcalled : entry.Reaches start acts last point := hstart.ask.call
  have hdone := hcalled.ask
  obtain ⟨hpoints, -, hends⟩ := context_of_call_tree host .zero [] entry
  obtain ⟨-, hserves, htransfers⟩ := hpoints acts last point hcalled
  obtain ⟨-, hmoved⟩ := htransfers (.invoke .transfer) .zero [2] rfl rfl
  refine ⟨hcalled, ?_, ?_, hdone, (hends _ _ _ _ hdone).1⟩
  · rw [hserves]
    decide
  · have hcovered : Amount.ofBytes [2] ≤ point.storage.balance rich := by decide +kernel
    have hdebit := (hmoved hcovered).2 rich
    have hcaller : (latest ⟨.zero, []⟩ acts).caller = rich := rfl
    rw [hcaller, if_pos rfl, if_neg (by decide)] at hdebit
    exact hdebit.trans (by decide +kernel)

/-- After an inner invocation a call is told the caller of that one and its number of arguments, and loses
the value that it passed before. A transfer that it makes is paid by the caller of the inner
invocation. -/
theorem context_not_restored :
    let other : Address := ⟨List.replicate 32 7, rfl⟩
    let inner (arguments : List Bytes) (next : Invocation (Address × ℕ)) : Invocation (Address × ℕ) :=
      .call other arguments (.done (.ok ()) (.zero, 0)) fun _ _ => next
    let told : Invocation (Address × ℕ) :=
      .ask (.finish [1]) fun _ => inner [] (.ask .caller fun caller =>
        .ask .argumentCount fun count => .ask (.finish [2]) fun _ => .done (.ok ()) (caller, count))
    let given : List Bytes := [List.replicate 32 9, [1]]
    let paying := inner given
      (.ofProgram (Contract.dispatch "transfer").run fun outcome => .done outcome (.zero, 0))
    let host : Host :=
      ⟨⟨.ofList [(Bytes32.zero.bytes, [5]), (other.bytes, [5])], []⟩, true, .start .zero []⟩
    (host.callNoted .zero given told).1 = (.ok [[2]], (other, 0)) ∧
      (host.callNoted .zero given paying).1.1 = .ok [] ∧
      (host.callNoted .zero given paying).2.storage.balance .zero = 5 ∧
      (host.callNoted .zero given paying).2.storage.balance other = 4 := by
  decide +kernel

end FixedSupply
