import FixedSupply.Host.Invocation
import FixedSupply.Proofs.Deeds

/-!
# Runs of the entry points on a host

A run of an entry point performs the deed that was judged, and a fault leaves the host as it was.
Each piece of the contract has one lemma that says what it answers and what it leaves of the host;
`run_invoke` and `run_dispatch` put them together. For whole calls see `dispatch_of_ok` and
`dispatch_of_error`.
-/

namespace FixedSupply

namespace Host

/-- The host after a deed of the running invocation. -/
def perform (host : Host) (deed : Deed) : Host :=
  { host with
    state.storage := deed.applyTo host.storage
    context.output := host.context.output ++ deed.output
    context.pending := host.context.pending ++ deed.logs
    context.writes := host.context.writes + deed.writes }

/-- What a judgement leaves behind: a fault leaves the host as it was. -/
def settle (host : Host) : Except Fault Deed → Except Fault Unit × Host
  | .ok deed => (.ok (), host.perform deed)
  | .error fault => (.error fault, host)

section Perform

variable (host : Host)

lemma perform_mint (owner : Address) (supply : Amount) :
    host.perform (.mint owner supply) =
      { host with
        state.storage := (Deed.mint owner supply).applyTo host.storage
        context.pending := host.context.pending ++ [(Event.initialized owner supply).toLog]
        context.writes := host.context.writes + 3 } := by
  simp [perform, Deed.output, Deed.logs, Deed.event?, Deed.writes]

lemma perform_tell (amount : Amount) :
    host.perform (.tell amount) =
      { host with context.output := host.context.output ++ [Amount.toBytes amount] } := by
  simp [perform, Deed.applyTo, Deed.output, Deed.logs, Deed.event?, Deed.writes, storage]

lemma perform_move_of_idle {sender recipient : Address} {amount : Amount}
    (h : amount = 0 ∨ sender = recipient) :
    host.perform (.move sender recipient amount) =
      { host with
        context.pending :=
          host.context.pending ++ [(Event.transfer sender recipient amount).toLog] } := by
  simp [perform, Deed.applyTo, Deed.output, Deed.logs, Deed.event?, Deed.writes, storage, h]

lemma perform_move {sender recipient : Address} {amount : Amount}
    (h : ¬(amount = 0 ∨ sender = recipient)) :
    host.perform (.move sender recipient amount) =
      { host with
        state.storage := (Deed.move sender recipient amount).applyTo host.storage
        context.pending :=
          host.context.pending ++ [(Event.transfer sender recipient amount).toLog]
        context.writes := host.context.writes + 2 } := by
  simp [perform, Deed.output, Deed.logs, Deed.event?, Deed.writes, h]

end Perform

section Actions

variable {α β : Type} {host after : Host} {action : Action α}

lemma run_bind_of_ok {value : α} (next : α → Action β) (h : host.run action.run = (.ok value, after)) :
    host.run (action >>= next).run = after.run (next value).run := by
  rw [ExceptT.run_bind, run_bind, h]

lemma run_bind_of_error {fault : Fault} (next : α → Action β)
    (h : host.run action.run = (.error fault, after)) :
    host.run (action >>= next).run = (.error fault, after) := by
  rw [ExceptT.run_bind, run_bind, h]
  rfl

lemma run_liftM (program : Program α) :
    host.run (liftM program : Action α).run = (.ok (host.run program).1, (host.run program).2) := by
  change host.run (ExceptT.lift program).run = _
  rw [ExceptT.run_lift, run_map]

lemma run_liftM_bind (program : Program α) (next : α → Action β) :
    host.run ((liftM program : Action α) >>= next).run =
      (host.run program).2.run (next (host.run program).1).run :=
  run_bind_of_ok next (run_liftM program)

end Actions

section Contract
open Contract
variable (host : Host)

lemma run_balance (address : Address) :
    host.run (balance address) = (host.storage.balance address, host) := rfl

lemma run_supply : host.run supply = (host.storage.supply, host) := rfl

lemma run_isInitialized : host.run isInitialized = (host.storage.minted, host) := rfl

lemma run_checkArgumentCount (expected : ℕ) :
    host.run (checkArgumentCount expected).run =
      (if host.context.arguments.length = expected then .ok ()
        else .error (.argumentCount expected host.context.arguments.length), host) := by
  unfold checkArgumentCount
  rw [run_liftM_bind, run_argumentCount]
  by_cases h : host.context.arguments.length = expected
  · simp [h]
  · simp only [h, if_false]
    rfl

/-- An argument is looked up among those of the running invocation. -/
lemma run_argumentBytes_eq (index : ℕ) :
    host.run (argumentBytes index).run =
      (match host.context.arguments[index]? with
        | some bytes => .ok bytes
        | none => .error (.invalidArgument index .outOfRange), host) := by
  unfold argumentBytes
  rw [run_liftM_bind, run_argument]
  cases host.context.arguments[index]? with
  | some bytes => rfl
  | none => rfl

section Arguments

variable {host} {given : List Bytes} (h : host.context.arguments = given)
include h

lemma run_counted (expected : ℕ) (hcount : given.length = expected) (next : Unit → Action Unit) :
    host.run (checkArgumentCount expected >>= next).run = host.run (next ()).run := by
  apply run_bind_of_ok
  rw [run_checkArgumentCount, h, if_pos hcount]

lemma run_miscounted (expected : ℕ) (hcount : given.length ≠ expected) (next : Unit → Action Unit) :
    host.run (checkArgumentCount expected >>= next).run =
      (.error (.argumentCount expected given.length), host) := by
  apply run_bind_of_error
  rw [run_checkArgumentCount, h, if_neg hcount]

lemma run_argumentBytes {index : ℕ} {bytes : Bytes} (hget : given[index]? = some bytes) :
    host.run (argumentBytes index).run = (.ok bytes, host) := by
  rw [run_argumentBytes_eq, h, hget]

lemma run_argumentAmount {index : ℕ} {bytes : Bytes} (hget : given[index]? = some bytes) :
    host.run (argumentAmount index).run = (.ok (Amount.ofBytes bytes), host) := by
  unfold argumentAmount
  rw [run_bind_of_ok _ (run_argumentBytes h hget)]
  rfl

lemma run_argumentAddress {index : ℕ} {bytes : Bytes} (hget : given[index]? = some bytes) :
    host.run (argumentAddress index).run =
      (match Bytes32.ofBytes? bytes with
        | some address => .ok address
        | none => .error (.invalidArgument index .notAnAddress), host) := by
  unfold argumentAddress
  rw [run_bind_of_ok _ (run_argumentBytes h hget)]
  cases Bytes32.ofBytes? bytes with
  | some address => rfl
  | none => rfl

end Arguments

lemma run_init (supply : Bytes) (h : host.context.arguments = [supply]) :
    host.run init.run = host.settle (judge host.storage host.context.caller .init [supply]) := by
  unfold init
  rw [run_counted h EntryPoint.initArguments rfl, run_liftM_bind, run_isInitialized, judge]
  cases hminted : host.storage.minted with
  | true => rfl
  | false =>
    simp only [Bool.false_eq_true, if_false]
    rw [run_liftM_bind, run_caller, run_bind_of_ok _ (run_argumentAmount h rfl), settle, perform_mint]
    rfl

lemma run_balanceOf (bytes : Bytes) (h : host.context.arguments = [bytes]) :
    host.run balanceOf.run =
      host.settle (judge host.storage host.context.caller .balanceOf [bytes]) := by
  have haddress := run_argumentAddress h (show [bytes][0]? = some bytes from rfl)
  unfold balanceOf
  rw [run_counted h EntryPoint.balanceOfArguments rfl, judge]
  cases hcase : Bytes32.ofBytes? bytes with
  | none =>
    rw [hcase] at haddress
    rw [run_bind_of_error _ haddress]
    rfl
  | some address =>
    rw [hcase] at haddress
    rw [run_bind_of_ok _ haddress, run_liftM_bind, run_balance, settle, perform_tell]
    rfl

lemma run_totalSupply (h : host.context.arguments = []) :
    host.run totalSupply.run =
      host.settle (judge host.storage host.context.caller .totalSupply []) := by
  unfold totalSupply
  rw [run_counted h EntryPoint.totalSupplyArguments rfl, run_liftM_bind, run_supply, judge,
    settle, perform_tell]
  rfl

lemma run_move (sender recipient : Address) (amount : Amount) :
    host.run (move sender recipient amount).run =
      host.settle (if host.storage.balance sender < amount then
          .error (.insufficientBalance (host.storage.balance sender) amount)
        else .ok (.move sender recipient amount)) := by
  unfold move
  rw [run_liftM_bind, run_balance]
  by_cases hlt : host.storage.balance sender < amount
  · simp only [hlt, if_true]
    rfl
  · -- The subtraction succeeds, so the underflow fault is never reached.
    have hsub : Amount.sub? (host.storage.balance sender) amount =
        some (host.storage.balance sender - amount) := if_pos (Nat.le_of_not_lt hlt)
    simp only [hlt, if_false, hsub]
    by_cases hidle : amount = 0 ∨ sender = recipient
    · rw [if_pos hidle, settle, perform_move_of_idle _ hidle]
      rfl
    · rw [if_neg hidle, settle, perform_move _ hidle, Deed.applyTo, if_neg hidle]
      rfl

lemma run_transfer (first second : Bytes) (h : host.context.arguments = [first, second]) :
    host.run transfer.run =
      host.settle (judge host.storage host.context.caller .transfer [first, second]) := by
  have haddress := run_argumentAddress h
    (show [first, second][EntryPoint.recipientIndex]? = some first from rfl)
  unfold transfer
  rw [run_counted h EntryPoint.transferArguments rfl, run_liftM_bind, run_caller, judge]
  cases hcase : Bytes32.ofBytes? first with
  | none =>
    rw [hcase] at haddress
    rw [run_bind_of_error _ haddress]
    rfl
  | some recipient =>
    rw [hcase] at haddress
    rw [run_bind_of_ok _ haddress, run_bind_of_ok _ (run_argumentAmount h rfl), run_move]

/-- An entry point performs the deed that was judged, or changes nothing. -/
theorem run_invoke (entry : EntryPoint) :
    host.run (invoke entry).run =
      host.settle (judge host.storage host.context.caller entry host.context.arguments) := by
  by_cases h : host.context.arguments.length = entry.argumentCount
  · cases entry with
    | init =>
      obtain ⟨supply, h⟩ := List.length_eq_one_iff.mp h
      rw [h]
      exact host.run_init supply h
    | balanceOf =>
      obtain ⟨address, h⟩ := List.length_eq_one_iff.mp h
      rw [h]
      exact host.run_balanceOf address h
    | transfer =>
      obtain ⟨recipient, amount, h⟩ := List.length_eq_two.mp h
      rw [h]
      exact host.run_transfer recipient amount h
    | totalSupply =>
      have h := List.length_eq_zero_iff.mp h
      rw [h]
      exact host.run_totalSupply h
  · rw [judge_of_length_ne _ _ h]
    cases entry with
    | init => exact run_miscounted rfl EntryPoint.initArguments h _
    | balanceOf => exact run_miscounted rfl EntryPoint.balanceOfArguments h _
    | transfer => exact run_miscounted rfl EntryPoint.transferArguments h _
    | totalSupply => exact run_miscounted rfl EntryPoint.totalSupplyArguments h _

/-- An entry point asked for by its name does the same, and a fault is signalled. -/
theorem run_dispatch (function : String) :
    host.run (Contract.dispatch function).run =
      match judgeName host.storage host.context.caller host.context.arguments function with
      | .ok deed => (.ok (), host.perform deed)
      | .error fault =>
        (.error fault, { host with context.signal := some (Bytes.ofString fault.code) }) := by
  unfold Contract.dispatch judgeName
  rw [ExceptT.run_mk]
  cases EntryPoint.ofName? function with
  | none => rfl
  | some entry =>
    simp only [run_bind, run_invoke]
    cases judge host.storage host.context.caller entry host.context.arguments with
    | ok deed => rfl
    | error fault => rfl

end Contract

section Calls

variable (host : Host) (caller : Address) (arguments : List Bytes) (function : String)

/-- What `run_dispatch` says when the invocation has just started. -/
lemma run_enter_dispatch :
    (host.enter caller arguments).run (Contract.dispatch function).run =
      match Contract.judgeName host.storage caller arguments function with
      | .ok deed => (.ok (), (host.enter caller arguments).perform deed)
      | .error fault =>
        (.error fault, { host.enter caller arguments with
          context.signal := some (Bytes.ofString fault.code) }) :=
  run_dispatch (host.enter caller arguments) function

lemma dispatch_eq :
    host.dispatch caller arguments function =
      let ended := (host.enter caller arguments).run (Contract.dispatch function).run
      ended.2.leave host.storage ended.1 := by
  unfold dispatch call callNoted Invocation.dispatch Invocation.ofAction
  rw [Invocation.run_ofProgram]
  rfl

variable {host caller arguments function}

theorem dispatch_of_ok {deed : Deed}
    (h : Contract.judgeName host.storage caller arguments function = .ok deed) :
    host.dispatch caller arguments function =
      (.ok deed.output,
        { host with
          state := ⟨deed.applyTo host.storage, host.logs ++ deed.logs⟩
          context := { Context.start caller arguments with writes := deed.writes } }) := by
  rw [dispatch_eq, run_enter_dispatch, h]
  simp [leave, perform, enter, Context.start, storage, logs]

theorem dispatch_of_error {fault : Fault}
    (h : Contract.judgeName host.storage caller arguments function = .error fault) :
    host.dispatch caller arguments function =
      (.error fault,
        { host with
          context :=
            { Context.start caller arguments with signal := some (Bytes.ofString fault.code) } }) := by
  rw [dispatch_eq, run_enter_dispatch, h]
  cases hrollback : host.rollback with
  | true => simp [leave, enter, Context.start, withStorage, storage, hrollback]
  | false => simp [leave, enter, Context.start, hrollback]

end Calls

end Host

end FixedSupply
