import FixedSupply.Proofs.Conservation
import FixedSupply.Proofs.MachineRefinement

/-!
# The order of effects on the machine

A machine may contradict itself about the number of arguments and make up values for absent keys, and
still a call has no effect before a failure: in the trace of imports a signalled failure is the only effect,
and every other call ends with its one returned value or its one log entry, after all its stores.
-/

namespace FixedSupply

def Import.effect? : Import → Option Effect
  | .getCaller | .getNumArguments _ | .getArgumentLength .. | .getArgument _
  | .storageLoadLength .. | .storageLoad _ => none
  | .storageStore .. => some .store
  | .finish _ => some .finish
  | .writeLog .. => some .log
  | .signalError _ => some .signal

namespace Machine

variable {α : Type} (setting : Setting) (machine : Machine)

/-- The stage at which a machine stands, as its trace tells. -/
def stage : Stage :=
  ⟨machine.storage, machine.trace.filterMap Import.effect?⟩

lemma stage_record {call : Import} (h : call.effect? = none) :
    (machine.record call).stage = machine.stage := by
  simp [stage, record, h]

lemma stage_argumentCount : (machine.argumentCount setting).2.stage = machine.stage := by
  simp [argumentCount, stage, record, Import.effect?]

lemma stage_argument (index : ℕ) : (machine.argument setting index).2.stage = machine.stage := by
  have hcount := machine.stage_argumentCount setting
  unfold argument
  by_cases h : (machine.argumentCount setting).1 ≤ index
  · simp only [h, if_true]
    exact hcount
  · simp only [h, if_false]
    split
    · rw [stage_record _ rfl, hcount]
    · rw [stage_record _ rfl, stage_record _ rfl, hcount]

lemma stage_load (key : Bytes) : (machine.load setting key).2.stage = machine.stage := by
  unfold load
  simp only
  split
  · rw [stage_record _ rfl]
  · rw [stage_record _ rfl, stage_record _ rfl]

/-- Wherever a machine stands, its loads are among these. -/
def Setting.Serves (loads : Loads) : Prop :=
  ∀ (machine : Machine) (key : Bytes), loads machine.stage key (machine.load setting key).1

lemma Setting.serves_any : setting.Serves Loads.Any := fun _ _ => trivial

/-- No bytes but zeros are made up. -/
def Setting.Blank : Prop :=
  ∀ trace key, setting.absent trace key ≤ 0 ∨ ∀ position, setting.filler trace key position = 0

variable {setting} in
lemma Setting.Blank.ofBytes_madeUp (h : setting.Blank) (trace : List Import) (key : Bytes) :
    Amount.ofBytes (setting.madeUp trace key) = 0 := by
  rcases h trace key with hnonpos | hzero
  · rw [setting.madeUp_of_nonpos hnonpos, Amount.ofBytes_nil]
  · have hfiller : setting.filler trace key = fun _ => 0 := funext hzero
    rw [madeUp, hfiller, List.map_const', Amount.ofBytes_replicate_zero]

variable {setting} in
/-- Zeros for an absent key are as good as no bytes. -/
lemma Setting.Blank.serves_faithful (h : setting.Blank) : setting.Serves Loads.Faithful := by
  intro machine key
  unfold load
  cases hstored : machine.storage.get? key with
  | some value =>
    have hload : machine.stage.storage.load key = value := by simp [stage, Storage.load, hstored]
    rw [Loads.Faithful, hload]
    exact ⟨rfl, id⟩
  | none =>
    have hload : machine.stage.storage.load key = [] := by simp [stage, Storage.load, hstored]
    rw [Loads.Faithful, hload]
    exact ⟨h.ofBytes_madeUp machine.trace key, fun _ => rfl⟩

/-- To a silent request a machine answers as an untrusted host does. -/
theorem perform_of_silent {loads : Loads} (serves : setting.Serves loads) {request : Request}
    (silent : request.Silent) :
    ∃ answer, (machine.perform setting request).1 = .ok answer ∧
      machine.stage.Admits loads request answer ∧
      (machine.perform setting request).2.stage = machine.stage.after request := by
  cases request with
  | signal message => exact silent.elim
  | caller =>
    refine ⟨setting.caller, rfl, trivial, ?_⟩
    rw [Stage.after_of_isQuery _ .caller rfl]
    exact machine.stage_record rfl
  | argumentCount =>
    refine ⟨_, rfl, trivial, ?_⟩
    rw [Stage.after_of_isQuery _ .argumentCount rfl]
    exact machine.stage_argumentCount setting
  | argument index =>
    refine ⟨_, rfl, trivial, ?_⟩
    rw [Stage.after_of_isQuery _ (.argument index) rfl]
    exact machine.stage_argument setting index
  | load key =>
    refine ⟨_, rfl, serves machine key, ?_⟩
    rw [Stage.after_of_isQuery _ (.load key) rfl]
    exact machine.stage_load setting key
  | store key value =>
    refine ⟨(), rfl, trivial, ?_⟩
    simp [perform, stage, record, Import.effect?, Stage.after, Request.applyTo, Request.effect?]
  | finish data =>
    refine ⟨(), rfl, trivial, ?_⟩
    simp [perform, stage, record, Import.effect?, Stage.after, Request.applyTo, Request.effect?]
  | log entry =>
    refine ⟨(), rfl, trivial, ?_⟩
    simp [perform, stage, record, Import.effect?, Stage.after, Request.applyTo, Request.effect?]

variable {setting} {loads : Loads} (serves : setting.Serves loads)

include serves

/-- A program that ensures something on untrusted hosts runs to its end on a machine. -/
theorem run_of_ensures {post : α → Stage → Prop} {program : Program α} {machine : Machine}
    (h : program.Ensures loads post machine.stage) :
    ∃ value after, machine.run setting program = (.ok value, after) ∧ post value after.stage := by
  induction program generalizing machine with
  | done value => exact ⟨value, machine, rfl, h⟩
  | ask request next ih =>
    obtain ⟨silent, hnext⟩ := h
    obtain ⟨answer, hanswer, admitted, hstage⟩ := machine.perform_of_silent setting serves silent
    have hrest := hnext answer admitted
    rw [← hstage] at hrest
    obtain ⟨value, after, hrun, hpost⟩ := ih answer hrest
    refine ⟨value, after, ?_, hpost⟩
    have hstep : machine.perform setting request =
        (.ok answer, (machine.perform setting request).2) := Prod.ext hanswer rfl
    rw [run, hstep]
    exact hrun

/-- How a call ends on any machine: with its signal alone, or at the end of a course. -/
theorem call_settles (counts : List ℤ) (storage : Storage) (entry : EntryPoint) :
    let result := call setting counts storage entry
    (result.storage = storage ∧ ∃ queries message,
        result.trace = queries ++ [.signalError message] ∧ queries.filterMap Import.effect? = []) ∨
      Stage.Course loads ⟨storage, []⟩ entry ⟨result.storage, result.trace.filterMap Import.effect?⟩ := by
  let start : Machine := ⟨storage, counts, [], [], []⟩
  obtain ⟨outcome, after, hrun, hsettled⟩ :=
    run_of_ensures serves (Contract.ensures_invoke loads start.stage entry)
  unfold call
  simp only [run_dispatch, start] at hrun ⊢
  rw [hrun]
  cases outcome with
  | error fault =>
    left
    have hstage : after.stage = start.stage := hsettled
    exact ⟨rfl, after.trace, _, rfl, congrArg Stage.effects hstage⟩
  | ok value => exact .inr hsettled

omit serves

/-- Where nothing but zeros is made up, only a mint changes the sum of the balances. -/
lemma sumOfBalances_call (blank : setting.Blank) (counts : List ℤ) (storage : Storage)
    {entry : EntryPoint} (hentry : entry ≠ .init) :
    (call setting counts storage entry).storage.sumOfBalances = storage.sumOfBalances := by
  rcases call_settles blank.serves_faithful counts storage entry with ⟨hstorage, -⟩ | hcourse
  · rw [hstorage]
  · obtain ⟨caller, arguments, deed, granted, hstorage⟩ := hcourse.exists_granted
    change (call setting counts storage entry).storage = deed.applyTo storage at hstorage
    rw [hstorage]
    exact Storage.sumOfBalances_applyTo granted hentry

end Machine

/-- On every machine, whatever it answers for the number of arguments and makes up for absent keys, a
signalled failure is the last import of a call and its only effect. A call without one returns a single
value if its entry point is read-only, and otherwise writes a single log entry after all its stores. If
nothing but zeros is made up, every call but a completed `init` keeps the sum of the balances. -/
theorem no_effect_before_failure (setting : Machine.Setting) (counts : List ℤ) (storage : Storage)
    (entry : EntryPoint) :
    let result := Machine.call setting counts storage entry
    let effects := result.trace.filterMap Import.effect?
    (∀ call ∈ result.trace.dropLast, call.effect? ≠ some .signal) ∧
      (.signal ∈ effects → effects = [.signal]) ∧
      (.signal ∉ effects →
        if entry.isReadonly then effects = [.finish]
        else ∃ stores, effects = List.replicate stores .store ++ [.log]) ∧
      (setting.Blank → result.storage.sumOfBalances = storage.sumOfBalances ∨
        entry = .init ∧ .signal ∉ effects) := by
  intro result effects
  rcases Machine.call_settles setting.serves_any counts storage entry with
    ⟨hstorage, queries, message, htrace, hqueries⟩ | hcourse
  · have heffects : effects = [.signal] := by
      change result.trace.filterMap Import.effect? = [.signal]
      rw [htrace, List.filterMap_append, hqueries]
      rfl
    refine ⟨?_, fun _ => heffects, fun h => ?_, fun _ => .inl (congrArg Storage.sumOfBalances hstorage)⟩
    · intro call hcall
      rw [htrace, List.dropLast_concat] at hcall
      rw [List.filterMap_eq_nil_iff.mp hqueries call hcall]
      exact (Option.some_ne_none Effect.signal).symm
    · rw [heffects] at h
      exact absurd List.mem_cons_self h
  · have hsilent : .signal ∉ effects := hcourse.signal_notMem_effects List.not_mem_nil
    refine ⟨?_, fun h => absurd h hsilent, fun _ => ?_, fun blank => ?_⟩
    · intro call hcall hsignal
      exact hsilent (List.mem_filterMap.mpr ⟨call, List.dropLast_subset _ hcall, hsignal⟩)
    · obtain ⟨_, rfl, hends⟩ := hcourse.effects_eq
      exact hends
    · by_cases hinit : entry = .init
      · exact .inr ⟨hinit, hsilent⟩
      · exact .inl (Machine.sumOfBalances_call blank counts storage hinit)

end FixedSupply
