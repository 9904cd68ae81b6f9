import FixedSupply.Proofs.Deeds
import FixedSupply.Proofs.Requests

/-!
# Entry points on an untrusted host

An untrusted host keeps a storage and may answer anything about the arguments, so two of its answers can
contradict each other; what it may answer to a load is given by a relation. `Program.Ensures` says what holds
at the end of a run whatever such a host answers. Every entry point either fails before its first effect or
takes its course. A course ends with one value or one log entry, after all stores; where the loads are true,
it is a deed that is granted to some caller with some arguments.
-/

namespace FixedSupply

/-- Where a run stands: the storage, and the effects of the requests so far. -/
structure Stage where
  storage : Storage
  effects : List Effect

/-- What a host may answer to a load of a key at a stage. -/
abbrev Loads := Stage → Bytes → Bytes → Prop

/-- A load may answer with any bytes. -/
def Loads.Any : Loads := fun _ _ _ => True

/-- A load answers with the stored amount, and with no bytes only if none are stored. -/
def Loads.Faithful : Loads := fun stage key bytes =>
  Amount.ofBytes bytes = Amount.ofBytes (stage.storage.load key) ∧
    (bytes = [] → stage.storage.load key = [])

namespace Stage

def after (stage : Stage) (request : Request) : Stage :=
  ⟨request.applyTo stage.storage, stage.effects ++ request.effect?.toList⟩

/-- The loads restrict what a load is answered, and nothing else is restricted. -/
def Admits (loads : Loads) (stage : Stage) : (request : Request) → request.Answer → Prop
  | .load key, bytes => loads stage key bytes
  | _, _ => True

lemma after_of_isQuery (stage : Stage) (request : Request) (h : request.IsQuery) :
    stage.after request = stage := by
  have heffect : request.effect? = none := h
  rw [after, h.applyTo, heffect, Option.toList_none, List.append_nil]

end Stage

namespace Program

variable {α β : Type} {loads : Loads} {post : β → Stage → Prop} {stage : Stage}

/-- The program does not signal, and `post` holds of its value and of the stage at its end. -/
def Ensures (loads : Loads) (post : α → Stage → Prop) : Program α → Stage → Prop
  | .done value, stage => post value stage
  | .ask request next, stage =>
    request.Silent ∧ ∀ answer, stage.Admits loads request answer →
      (next answer).Ensures loads post (stage.after request)

lemma Ensures.bind {program : Program α} {next : α → Program β}
    (h : program.Ensures loads (fun value after => (next value).Ensures loads post after) stage) :
    (program >>= next).Ensures loads post stage := by
  change (program.bind next).Ensures loads post stage
  induction program generalizing stage with
  | done value => exact h
  | ask request rest ih => exact ⟨h.1, fun answer admitted => ih answer (h.2 answer admitted)⟩

lemma Asks.ensures {program : Program β} (h : program.Asks Request.IsQuery)
    (hpost : ∀ value, post value stage) : program.Ensures loads post stage := by
  induction program with
  | done value => exact hpost value
  | ask request next ih =>
    refine ⟨h.1.silent, fun answer _ => ?_⟩
    rw [stage.after_of_isQuery request h.1]
    exact ih answer (h.2 answer)

lemma ensures_load {post : Bytes → Stage → Prop} (key : Bytes)
    (h : ∀ bytes, loads stage key bytes → post bytes stage) : (load key).Ensures loads post stage := by
  refine ⟨trivial, fun bytes admitted => ?_⟩
  change post bytes (stage.after (.load key))
  rw [stage.after_of_isQuery (.load key) rfl]
  exact h bytes admitted

lemma ensures_loadAmount {post : Amount → Stage → Prop} (key : Bytes)
    (h : ∀ bytes, loads stage key bytes → post (Amount.ofBytes bytes) stage) :
    (loadAmount key).Ensures loads post stage :=
  Ensures.bind (ensures_load key h)

end Program

namespace Contract

open Program

variable {α β : Type} {loads : Loads} {stage : Stage}

section Actions

variable {post : Except Fault β → Stage → Prop}

abbrev ActionEnsures (loads : Loads) (post : Except Fault α → Stage → Prop) (action : Action α)
    (stage : Stage) : Prop :=
  Program.Ensures loads post action.run stage

lemma ensures_liftM {program : Program β}
    (h : program.Ensures loads (fun value after => post (.ok value) after) stage) :
    ActionEnsures loads post (liftM program) stage := by
  change (ExceptT.lift program).run.Ensures loads post stage
  rw [ExceptT.run_lift]
  exact Ensures.bind h

lemma ensures_liftM_bind {program : Program α} {next : α → Action β}
    (h : program.Ensures loads (fun value after => ActionEnsures loads post (next value) after) stage) :
    ActionEnsures loads post ((liftM program : Action α) >>= next) stage := by
  unfold ActionEnsures
  rw [ExceptT.run_bind]
  exact Ensures.bind (ensures_liftM h)

lemma ensures_effect (request : Request) {post : Except Fault request.Answer → Stage → Prop}
    (silent : request.Silent) (h : ∀ answer, post (.ok answer) (stage.after request)) :
    ActionEnsures loads post (liftM (ask request done)) stage :=
  ensures_liftM ⟨silent, fun answer _ => h answer⟩

lemma ensures_effect_bind (request : Request) {next : request.Answer → Action β}
    (silent : request.Silent)
    (h : ∀ answer, ActionEnsures loads post (next answer) (stage.after request)) :
    ActionEnsures loads post ((liftM (ask request done) : Action request.Answer) >>= next) stage :=
  ensures_liftM_bind ⟨silent, fun answer _ => h answer⟩

/-- An action of queries leaves the stage where it is, whether it fails or not. -/
lemma ensures_query_bind {action : Action α} {next : α → Action β}
    (h : ActionAsks Request.IsQuery action) (hfault : ∀ fault, post (.error fault) stage)
    (hnext : ∀ value, ActionEnsures loads post (next value) stage) :
    ActionEnsures loads post (action >>= next) stage := by
  unfold ActionEnsures
  rw [ExceptT.run_bind]
  apply Ensures.bind
  apply h.ensures
  intro outcome
  cases outcome with
  | ok value => exact hnext value
  | error fault => exact hfault fault

lemma ensures_throw {fault : Fault} (h : post (.error fault) stage) :
    ActionEnsures loads post (throw fault) stage :=
  h

end Actions

end Contract

namespace Contract

variable {storage : Storage}

/-! The arguments of a granted deed may be taken to be canonical encodings. -/

lemma granted_mint (owner : Address) (supply : Amount) (unminted : storage.minted = false) :
    Granted storage owner .init [Amount.toBytes supply] (.mint owner supply) := by
  have granted : Granted storage owner .init [Amount.toBytes supply]
      (.mint owner (Amount.ofBytes (Amount.toBytes supply))) :=
    .mint (Amount.toBytes supply) unminted
  rw [Amount.ofBytes_toBytes] at granted
  exact granted

lemma granted_move (sender recipient : Address) {amount : Amount}
    (covered : amount ≤ storage.balance sender) :
    Granted storage sender .transfer [recipient.bytes, Amount.toBytes amount]
      (.move sender recipient amount) := by
  have hamount : Amount.ofBytes (Amount.toBytes amount) ≤ storage.balance sender := by
    rw [Amount.ofBytes_toBytes]
    exact covered
  have granted := Granted.move recipient (Amount.toBytes amount) hamount
  rw [Amount.ofBytes_toBytes] at granted
  exact granted

end Contract

namespace Stage

/-- How an entry point comes to its end if a host answers the loads so. -/
inductive Course (loads : Loads) (stage : Stage) : EntryPoint → Stage → Prop where
  | mint (owner : Address) (supply : Amount) (entry : LogEntry)
    (unminted : loads stage Token.mintedKey []) :
    Course loads stage .init
      ((((stage.after (.store (Token.balanceKey owner) (Amount.toBytes supply))).after
        (.store Token.supplyKey (Amount.toBytes supply))).after
        (.store Token.mintedKey Token.mintedFlag)).after (.log entry))
  | balance (address : Address) (data : Bytes) :
    Course loads stage .balanceOf (stage.after (.finish data))
  | idle {sender recipient : Address} {amount : Amount} {found : Bytes} (entry : LogEntry)
    (hfound : loads stage (Token.balanceKey sender) found) (covered : amount ≤ Amount.ofBytes found)
    (hidle : amount = 0 ∨ sender = recipient) :
    Course loads stage .transfer (stage.after (.log entry))
  | move {sender recipient : Address} {amount : Amount} {found held : Bytes} (entry : LogEntry)
    (hfound : loads stage (Token.balanceKey sender) found) (covered : amount ≤ Amount.ofBytes found)
    (hmoves : ¬(amount = 0 ∨ sender = recipient))
    (hheld : loads
      (stage.after (.store (Token.balanceKey sender) (Amount.toBytes (Amount.ofBytes found - amount))))
      (Token.balanceKey recipient) held) :
    Course loads stage .transfer
      (((stage.after
        (.store (Token.balanceKey sender) (Amount.toBytes (Amount.ofBytes found - amount)))).after
        (.store (Token.balanceKey recipient) (Amount.toBytes (Amount.ofBytes held + amount)))).after
        (.log entry))
  | supply (data : Bytes) : Course loads stage .totalSupply (stage.after (.finish data))

/-- The entry point has failed without an effect, or has taken its course. -/
def Settles (loads : Loads) (stage : Stage) (entry : EntryPoint) : Except Fault Unit → Stage → Prop
  | .error _, after => after = stage
  | .ok (), after => stage.Course loads entry after

variable {loads : Loads} {stage after : Stage} {entry : EntryPoint}

/-- A course has one value or one log entry for its last effect, and before that only stores. -/
theorem Course.effects_eq (h : stage.Course loads entry after) :
    ∃ effects, after.effects = stage.effects ++ effects ∧
      if entry.isReadonly then effects = [.finish]
      else ∃ stores, effects = List.replicate stores .store ++ [.log] := by
  cases h with
  | mint owner supply entry unminted =>
    refine ⟨[.store, .store, .store, .log], ?_, 3, rfl⟩
    simp only [Stage.after, List.append_assoc]
    rfl
  | balance address data => exact ⟨[.finish], rfl, rfl⟩
  | idle entry hfound covered hidle => exact ⟨[.log], rfl, 0, rfl⟩
  | move entry hfound covered hmoves hheld =>
    refine ⟨[.store, .store, .log], ?_, 2, rfl⟩
    simp only [Stage.after, List.append_assoc]
    rfl
  | supply data => exact ⟨[.finish], rfl, rfl⟩

lemma Course.signal_notMem_effects (h : stage.Course loads entry after)
    (hstage : .signal ∉ stage.effects) : .signal ∉ after.effects := by
  obtain ⟨effects, hafter, hends⟩ := h.effects_eq
  rw [hafter, List.mem_append, not_or]
  refine ⟨hstage, fun hsignal => ?_⟩
  split at hends
  · rw [hends] at hsignal
    simp at hsignal
  · obtain ⟨stores, rfl⟩ := hends
    simp at hsignal

/-- Where the loads are true a course carries out a deed that is granted. -/
theorem Course.exists_granted (h : stage.Course Loads.Faithful entry after) :
    ∃ caller arguments deed, Contract.Granted stage.storage caller entry arguments deed ∧
      after.storage = deed.applyTo stage.storage := by
  cases h with
  | mint owner supply entry unminted =>
    have hminted : stage.storage.minted = false := by
      rw [Storage.minted, unminted.2 rfl]
      rfl
    exact ⟨owner, _, _, Contract.granted_mint owner supply hminted, rfl⟩
  | balance address data => exact ⟨address, _, _, .balance address, rfl⟩
  | @idle sender recipient amount found entry hfound covered hidle =>
    have hbalance : Amount.ofBytes found = stage.storage.balance sender := hfound.1
    rw [hbalance] at covered
    refine ⟨sender, _, _, Contract.granted_move sender recipient covered, ?_⟩
    exact (Deed.applyTo_move_of_idle stage.storage hidle).symm
  | @move sender recipient amount found held entry hfound covered hmoves hheld =>
    have hbalance : Amount.ofBytes found = stage.storage.balance sender := hfound.1
    rw [hbalance] at covered hheld ⊢
    have hcredit : Amount.ofBytes held =
        (stage.storage.setBalance sender (stage.storage.balance sender - amount)).balance recipient :=
      hheld.1
    refine ⟨sender, _, _, Contract.granted_move sender recipient covered, ?_⟩
    rw [hcredit, Deed.applyTo, if_neg hmoves]
    rfl
  | supply data => exact ⟨.zero, _, _, .supply, rfl⟩

end Stage

namespace Contract

open Program

variable (loads : Loads) (stage : Stage)

lemma ensures_caller_bind {β : Type} {post : Except Fault β → Stage → Prop} {next : Address → Action β}
    (h : ∀ sender, ActionEnsures loads post (next sender) stage) :
    ActionEnsures loads post ((liftM Program.caller : Action Address) >>= next) stage := by
  have hcaller : Program.caller.Asks Request.IsQuery := asks_ask rfl
  exact ensures_liftM_bind (hcaller.ensures h)

lemma ensures_init : ActionEnsures loads (stage.Settles loads .init) init stage := by
  unfold init
  apply ensures_query_bind (queries_checkArgumentCount _) (fun _ => rfl)
  intro _
  apply ensures_liftM_bind
  apply Ensures.bind
  apply ensures_load
  intro mark hmark
  cases mark with
  | cons first rest =>
    change ActionEnsures loads _ (throw .alreadyInitialized) stage
    exact ensures_throw rfl
  | nil =>
    apply ensures_caller_bind
    intro owner
    apply ensures_query_bind (queries_argumentAmount 0) (fun _ => rfl)
    intro minted
    apply ensures_effect_bind (.store _ _) trivial
    intro _
    apply ensures_effect_bind (.store _ _) trivial
    intro _
    apply ensures_effect_bind (.store _ _) trivial
    intro _
    apply ensures_effect (.log _) trivial
    intro _
    exact .mint owner minted _ hmark

lemma ensures_balanceOf : ActionEnsures loads (stage.Settles loads .balanceOf) balanceOf stage := by
  unfold balanceOf
  apply ensures_query_bind (queries_checkArgumentCount _) (fun _ => rfl)
  intro _
  apply ensures_query_bind (queries_argumentAddress 0) (fun _ => rfl)
  intro address
  apply ensures_liftM_bind
  apply ensures_loadAmount
  intro _ _
  apply ensures_effect (.finish _) trivial
  intro _
  exact .balance address _

lemma ensures_totalSupply : ActionEnsures loads (stage.Settles loads .totalSupply) totalSupply stage := by
  unfold totalSupply
  apply ensures_query_bind (queries_checkArgumentCount _) (fun _ => rfl)
  intro _
  apply ensures_liftM_bind
  apply ensures_loadAmount
  intro _ _
  apply ensures_effect (.finish _) trivial
  intro _
  exact .supply _

lemma ensures_move (sender recipient : Address) (amount : Amount) :
    ActionEnsures loads (stage.Settles loads .transfer) (move sender recipient amount) stage := by
  unfold move
  apply ensures_liftM_bind
  apply ensures_loadAmount
  intro found hfound
  by_cases hlt : Amount.ofBytes found < amount
  · simp only [hlt, if_true]
    exact ensures_throw rfl
  · have covered : amount ≤ Amount.ofBytes found := Nat.le_of_not_lt hlt
    have hsub : Amount.sub? (Amount.ofBytes found) amount = some (Amount.ofBytes found - amount) :=
      if_pos covered
    simp only [hlt, if_false, hsub]
    by_cases hidle : amount = 0 ∨ sender = recipient
    · simp only [hidle, if_true]
      apply ensures_effect (.log _) trivial
      intro _
      exact .idle _ hfound covered hidle
    · simp only [hidle, if_false]
      apply ensures_effect_bind (.store _ _) trivial
      intro _
      apply ensures_liftM_bind
      apply ensures_loadAmount
      intro held hheld
      apply ensures_effect_bind (.store _ _) trivial
      intro _
      apply ensures_effect (.log _) trivial
      intro _
      exact .move _ hfound covered hidle hheld

lemma ensures_transfer : ActionEnsures loads (stage.Settles loads .transfer) transfer stage := by
  unfold transfer
  apply ensures_query_bind (queries_checkArgumentCount _) (fun _ => rfl)
  intro _
  apply ensures_caller_bind
  intro sender
  apply ensures_query_bind (queries_argumentAddress _) (fun _ => rfl)
  intro recipient
  apply ensures_query_bind (queries_argumentAmount _) (fun _ => rfl)
  intro amount
  exact ensures_move loads stage sender recipient amount

/-- An entry point settles with every host, whatever it answers. -/
theorem ensures_invoke (entry : EntryPoint) :
    ActionEnsures loads (stage.Settles loads entry) (invoke entry) stage := by
  cases entry with
  | init => exact ensures_init loads stage
  | balanceOf => exact ensures_balanceOf loads stage
  | transfer => exact ensures_transfer loads stage
  | totalSupply => exact ensures_totalSupply loads stage

end Contract

/-- The in-memory host keeps a true storage. -/
lemma Stage.admits_answer (stage : Stage) {host : Host} (h : stage.storage = host.storage)
    (request : Request) : stage.Admits Loads.Faithful request (host.answer request).1 := by
  cases request with
  | load key =>
    have hvalue : (host.answer (.load key)).1 = stage.storage.load key := by
      rw [h]
      rfl
    rw [hvalue]
    exact ⟨rfl, id⟩
  | _ => trivial

end FixedSupply
