import Mathlib.Tactic.Lemma
import FixedSupply.Contract.Ledger
import FixedSupply.Host

/-!
# The requests of a program

`Program.Asks allowed` holds of a program that makes allowed requests only, whatever it is answered. A
query is a request without an effect; reading the arguments takes queries only.
-/

namespace FixedSupply

namespace Program

variable {α β : Type} {allowed : Request → Prop}

/-- The program makes allowed requests only. -/
def Asks (allowed : Request → Prop) : Program α → Prop
  | .done _ => True
  | .ask request next => allowed request ∧ ∀ answer, (next answer).Asks allowed

lemma asks_ask {request : Request} (h : allowed request) :
    (ask request done : Program request.Answer).Asks allowed :=
  ⟨h, fun _ => trivial⟩

lemma Asks.bind {program : Program α} (h : program.Asks allowed) {next : α → Program β}
    (hnext : ∀ value, (next value).Asks allowed) : (program >>= next).Asks allowed := by
  change (program.bind next).Asks allowed
  induction program with
  | done value => exact hnext value
  | ask request rest ih => exact ⟨h.1, fun answer => ih answer (h.2 answer)⟩

end Program

namespace Contract

variable {α β : Type} {allowed : Request → Prop}

abbrev ActionAsks (allowed : Request → Prop) (action : Action α) : Prop :=
  Program.Asks allowed action.run

lemma asks_throw (fault : Fault) : ActionAsks allowed (throw fault : Action α) :=
  trivial

lemma asks_return (value : α) : ActionAsks allowed (pure value : Action α) :=
  trivial

lemma asks_bind {action : Action α} {next : α → Action β} (h : ActionAsks allowed action)
    (hnext : ∀ value, ActionAsks allowed (next value)) : ActionAsks allowed (action >>= next) := by
  unfold ActionAsks
  rw [ExceptT.run_bind]
  apply h.bind
  intro outcome
  cases outcome with
  | ok value => exact hnext value
  | error fault => trivial

lemma asks_liftM {program : Program α} (h : program.Asks allowed) :
    ActionAsks allowed (liftM program : Action α) := by
  unfold ActionAsks
  change (ExceptT.lift program).run.Asks allowed
  rw [ExceptT.run_lift]
  exact h.bind fun _ => trivial

lemma asks_liftM_bind {program : Program α} {next : α → Action β} (h : program.Asks allowed)
    (hnext : ∀ value, ActionAsks allowed (next value)) :
    ActionAsks allowed ((liftM program : Action α) >>= next) :=
  asks_bind (asks_liftM h) hnext

end Contract

/-- What a request can leave behind. -/
inductive Effect where
  | store
  | finish
  | log
  | signal
  deriving DecidableEq

namespace Request

def effect? : Request → Option Effect
  | .caller | .argumentCount | .argument _ | .load _ => none
  | .store .. => some .store
  | .finish _ => some .finish
  | .log _ => some .log
  | .signal _ => some .signal

def IsQuery (request : Request) : Prop :=
  request.effect? = none

/-- The request is no signal of a failure. -/
def Silent : Request → Prop
  | .signal _ => False
  | _ => True

/-- The storage after the request. -/
def applyTo (storage : Storage) : Request → Storage
  | .store key value => storage.store key value
  | _ => storage

lemma IsQuery.silent {request : Request} (h : request.IsQuery) : request.Silent := by
  cases request with
  | signal message => exact absurd h (by simp [IsQuery, effect?])
  | _ => trivial

lemma IsQuery.applyTo {request : Request} (h : request.IsQuery) (storage : Storage) :
    request.applyTo storage = storage := by
  cases request with
  | store key value => exact absurd h (by simp [IsQuery, effect?])
  | _ => rfl

end Request

lemma Host.storage_answer (host : Host) (request : Request) :
    (host.answer request).2.storage = request.applyTo host.storage := by
  cases request with
  | store key value => rfl
  | _ => rfl

namespace Contract

open Program

lemma queries_checkArgumentCount (expected : Nat) :
    ActionAsks Request.IsQuery (checkArgumentCount expected) := by
  have hcount : argumentCount.Asks Request.IsQuery := asks_ask rfl
  unfold checkArgumentCount
  apply asks_liftM_bind hcount
  intro actual
  by_cases h : actual = expected
  · rw [if_pos h]
    exact asks_return ()
  · rw [if_neg h]
    exact asks_throw _

lemma queries_argumentBytes (index : Nat) : ActionAsks Request.IsQuery (argumentBytes index) := by
  have hbytes : (Program.argument index).Asks Request.IsQuery := asks_ask rfl
  unfold argumentBytes
  apply asks_liftM_bind hbytes
  intro argument
  cases argument with
  | none => exact asks_throw _
  | some bytes => exact asks_return bytes

lemma queries_argumentAddress (index : Nat) :
    ActionAsks Request.IsQuery (argumentAddress index) := by
  unfold argumentAddress
  apply asks_bind (queries_argumentBytes index)
  intro bytes
  cases Bytes32.ofBytes? bytes with
  | none => exact asks_throw _
  | some address => exact asks_return address

lemma queries_argumentAmount (index : Nat) :
    ActionAsks Request.IsQuery (argumentAmount index) := by
  unfold argumentAmount
  apply asks_bind (queries_argumentBytes index)
  intro bytes
  exact asks_return _

end Contract

end FixedSupply
