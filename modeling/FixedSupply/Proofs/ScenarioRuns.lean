import FixedSupply.Proofs.CallTrees
import FixedSupply.Proofs.SnapshotTransfer
import FixedSupply.Scenario

/-!
# Runs of scenarios

A run of one list of steps after another is a run of both lists together, with the numbers of the later
steps shifted. What a run shows and leaves is decided by the state that it starts from and by whether the
host rolls back, so the run may go on from another host with the same state.
-/

namespace FixedSupply

/-- The outcome of the same step as part of a longer scenario. -/
def Outcome.shift (count : ℕ) (outcome : Outcome) : Outcome :=
  { outcome with step := outcome.step + count }

def ScenarioFlaw.shift (count : ℕ) (flaw : ScenarioFlaw) : ScenarioFlaw :=
  { flaw with step := flaw.step + count }

/-- The step spells an invocation. -/
def Step.WellFormed (step : Step) : Prop :=
  ∃ invocation, step.decode = .ok invocation

instance (step : Step) : Decidable step.WellFormed :=
  match h : step.decode with
  | .ok invocation => isTrue ⟨invocation, h⟩
  | .error _ => isFalse fun ⟨_, hok⟩ => nomatch h.symm.trans hok

namespace Host

variable (host : Host) (caller : Address) (arguments : List Bytes) (function : String)

lemma rollback_dispatch : (host.dispatch caller arguments function).2.rollback = host.rollback :=
  host.rollback_callNoted caller arguments (.dispatch function)

variable {caller arguments function} in
lemma dispatch_eq_of_state_eq {a b : Host} (hstate : a.state = b.state)
    (hrollback : a.rollback = b.rollback) :
    a.dispatch caller arguments function = b.dispatch caller arguments function := by
  have hcall := callNoted_eq_of_state_eq hstate hrollback ⟨caller, arguments, .dispatch function⟩
  unfold dispatch call
  rw [hcall]

end Host

namespace Scenario

variable (index count : ℕ) (steps : List Step) (host : Host)

@[simp] lemma runFrom_nil : runFrom index [] host = (.ok [], host) := by
  rw [runFrom.eq_def]

lemma runFrom_cons_of_error {step : Step} {flaw : StepFlaw} (h : step.decode = .error flaw) :
    runFrom index (step :: steps) host = (.error ⟨index, flaw⟩, host) := by
  rw [runFrom.eq_def]
  simp only [h]

lemma runFrom_cons_of_ok {step : Step} {caller : Address} {arguments : List Bytes}
    (h : step.decode = .ok (caller, arguments)) :
    runFrom index (step :: steps) host =
      ((runFrom (index + 1) steps (host.dispatch caller arguments step.function).2).1.map
          (step.outcome index (host.dispatch caller arguments step.function).1 :: ·),
        (runFrom (index + 1) steps (host.dispatch caller arguments step.function).2).2) := by
  rw [runFrom.eq_def]
  simp only [h]

section Inversion

variable {index steps host} {step : Step} {final : Host}

/-- A run comes to its end if its first step spells an invocation and the others run to the end after it. -/
lemma runFrom_cons_eq_ok_iff {outcomes : List Outcome} :
    runFrom index (step :: steps) host = (.ok outcomes, final) ↔
      ∃ caller arguments rest, step.decode = .ok (caller, arguments) ∧
        runFrom (index + 1) steps (host.dispatch caller arguments step.function).2 = (.ok rest, final) ∧
          step.outcome index (host.dispatch caller arguments step.function).1 :: rest = outcomes := by
  cases hdecode : step.decode with
  | error flaw => simp [runFrom_cons_of_error _ _ _ hdecode]
  | ok invocation =>
    obtain ⟨caller, arguments⟩ := invocation
    rw [runFrom_cons_of_ok _ _ _ hdecode]
    cases hrest : runFrom (index + 1) steps (host.dispatch caller arguments step.function).2 with
    | mk result last =>
      cases result with
      | error flaw => simp [Except.map, hrest]
      | ok rest => simp [Except.map, hrest, and_comm, and_assoc]

/-- A run ends early at its first step, or after that step has run. -/
lemma runFrom_cons_eq_error_iff {flaw : ScenarioFlaw} :
    runFrom index (step :: steps) host = (.error flaw, final) ↔
      index = flaw.step ∧ step.decode = .error flaw.flaw ∧ host = final ∨
        ∃ caller arguments, step.decode = .ok (caller, arguments) ∧
          runFrom (index + 1) steps (host.dispatch caller arguments step.function).2 =
            (.error flaw, final) := by
  cases hdecode : step.decode with
  | error other =>
    obtain ⟨number, flaw⟩ := flaw
    simp [runFrom_cons_of_error _ _ _ hdecode, and_assoc]
  | ok invocation =>
    obtain ⟨caller, arguments⟩ := invocation
    rw [runFrom_cons_of_ok _ _ _ hdecode]
    cases hrest : runFrom (index + 1) steps (host.dispatch caller arguments step.function).2 with
    | mk result last =>
      cases result with
      | error other => simp [Except.map, hrest]
      | ok rest => simp [Except.map, hrest]

end Inversion

/-- The numbers of the steps are all that tells where a run stands in a longer one. -/
theorem runFrom_add :
    runFrom (index + count) steps host =
      (((runFrom index steps host).1.map (List.map (Outcome.shift count))).mapError
        (ScenarioFlaw.shift count), (runFrom index steps host).2) := by
  induction steps generalizing index host with
  | nil => rfl
  | cons step steps ih =>
    cases hdecode : step.decode with
    | error flaw =>
      rw [runFrom_cons_of_error _ _ _ hdecode, runFrom_cons_of_error _ _ _ hdecode]
      rfl
    | ok invocation =>
      obtain ⟨caller, arguments⟩ := invocation
      have hrest := ih (index + 1) (host.dispatch caller arguments step.function).2
      rw [runFrom_cons_of_ok _ _ _ hdecode, runFrom_cons_of_ok _ _ _ hdecode,
        Nat.add_right_comm, hrest]
      cases (runFrom (index + 1) steps (host.dispatch caller arguments step.function).2).1 with
      | error flaw => rfl
      | ok outcomes => rfl

variable {index steps host} in
/-- A run that comes to its end is continued by a run of the next steps on the host that it leaves. -/
theorem runFrom_append_of_ok {outcomes : List Outcome} {middle : Host} (later : List Step)
    (h : runFrom index steps host = (.ok outcomes, middle)) :
    runFrom index (steps ++ later) host =
      ((runFrom (index + steps.length) later middle).1.map (outcomes ++ ·),
        (runFrom (index + steps.length) later middle).2) := by
  induction steps generalizing index host outcomes with
  | nil =>
    obtain ⟨rfl, rfl⟩ : [] = outcomes ∧ host = middle := by simpa using h
    have hlater : (runFrom index later host).1 = (runFrom index later host).1.map ([] ++ ·) := by
      cases (runFrom index later host).1 with
      | error flaw => rfl
      | ok outcomes => rfl
    exact Prod.ext hlater rfl
  | cons step steps ih =>
    obtain ⟨caller, arguments, rest, hdecode, hrest, rfl⟩ := runFrom_cons_eq_ok_iff.mp h
    have hlength : index + (step :: steps).length = index + 1 + steps.length := by
      rw [List.length_cons]
      omega
    rw [List.cons_append, runFrom_cons_of_ok _ _ _ hdecode, ih hrest, hlength]
    cases (runFrom (index + 1 + steps.length) later middle).1 with
    | error flaw => rfl
    | ok outcomes => rfl

variable {index steps host} in
/-- A run that comes to its end has met invocations only, and has one outcome for each of them. -/
theorem outcomes_of_runFrom {outcomes : List Outcome} {final : Host}
    (h : runFrom index steps host = (.ok outcomes, final)) :
    (∀ step ∈ steps, step.WellFormed) ∧
      outcomes.map (·.step) = List.range' index steps.length ∧
        outcomes.map (·.function) = steps.map (·.function) := by
  induction steps generalizing index host outcomes with
  | nil =>
    obtain ⟨rfl, -⟩ : [] = outcomes ∧ host = final := by simpa using h
    simp
  | cons step steps ih =>
    obtain ⟨caller, arguments, rest, hdecode, hrest, rfl⟩ := runFrom_cons_eq_ok_iff.mp h
    obtain ⟨hformed, hsteps, hfunctions⟩ := ih hrest
    refine ⟨?_, ?_, ?_⟩
    · exact List.forall_mem_cons.mpr ⟨⟨_, hdecode⟩, hformed⟩
    · rw [List.map_cons, hsteps, List.length_cons, List.range'_succ]
      rfl
    · rw [List.map_cons, hfunctions, List.map_cons]
      rfl

/-- Steps that all spell invocations run to the end. -/
theorem exists_runFrom_eq_ok (h : ∀ step ∈ steps, step.WellFormed) :
    ∃ outcomes final, runFrom index steps host = (.ok outcomes, final) := by
  induction steps generalizing index host with
  | nil => exact ⟨[], host, rfl⟩
  | cons step steps ih =>
    obtain ⟨⟨caller, arguments⟩, hdecode⟩ := h step List.mem_cons_self
    obtain ⟨outcomes, final, hrest⟩ := ih (index + 1)
      (host.dispatch caller arguments step.function).2 fun step hstep => h step (List.mem_cons_of_mem _ hstep)
    refine ⟨step.outcome index (host.dispatch caller arguments step.function).1 :: outcomes, final, ?_⟩
    rw [runFrom_cons_of_ok _ _ _ hdecode, hrest]
    rfl

lemma rollback_runFrom : (runFrom index steps host).2.rollback = host.rollback := by
  induction steps generalizing index host with
  | nil => rfl
  | cons step steps ih =>
    cases hdecode : step.decode with
    | error flaw => rw [runFrom_cons_of_error _ _ _ hdecode]
    | ok invocation =>
      obtain ⟨caller, arguments⟩ := invocation
      rw [runFrom_cons_of_ok _ _ _ hdecode, ih]
      exact host.rollback_dispatch caller arguments step.function

lemma rollback_run (scenario : Scenario) : (scenario.run host).2.rollback = host.rollback :=
  rollback_runFrom 0 scenario.steps host

/-- Where two hosts hold the same, a run shows the same and leaves the same. -/
theorem runFrom_eq_of_state_eq {a b : Host} (hstate : a.state = b.state)
    (hrollback : a.rollback = b.rollback) :
    (runFrom index steps a).1 = (runFrom index steps b).1 ∧
      (runFrom index steps a).2.state = (runFrom index steps b).2.state := by
  cases steps with
  | nil => exact ⟨rfl, hstate⟩
  | cons step steps =>
    cases hdecode : step.decode with
    | error flaw =>
      rw [runFrom_cons_of_error _ _ _ hdecode, runFrom_cons_of_error _ _ _ hdecode]
      exact ⟨rfl, hstate⟩
    | ok invocation =>
      -- The first invocation replaces the context, so from then on the hosts are equal.
      obtain ⟨caller, arguments⟩ := invocation
      rw [runFrom_cons_of_ok _ _ _ hdecode, runFrom_cons_of_ok _ _ _ hdecode,
        Host.dispatch_eq_of_state_eq hstate hrollback]
      exact ⟨rfl, rfl⟩

variable {host} {earlier later : List Step}

/-- After a run that comes to its end the next steps run as a scenario of their own, with shifted
numbers. -/
theorem run_append_of_ok {before : List Outcome} {middle : Host} (later : List Step)
    (h : run ⟨earlier⟩ host = (.ok before, middle)) :
    run ⟨earlier ++ later⟩ host =
      (((run ⟨later⟩ middle).1.map fun after =>
          before ++ after.map (Outcome.shift earlier.length)).mapError
        (ScenarioFlaw.shift earlier.length), (run ⟨later⟩ middle).2) := by
  have hall := runFrom_append_of_ok later h
  rw [runFrom_add 0 earlier.length later middle] at hall
  rw [run, run, hall]
  cases (runFrom 0 later middle).1 with
  | error flaw => rfl
  | ok after => rfl

/-- The scenario of the steps of two, where both run to the end. -/
theorem run_append {before after : List Outcome} {middle final : Host}
    (hbefore : run ⟨earlier⟩ host = (.ok before, middle))
    (hafter : run ⟨later⟩ middle = (.ok after, final)) :
    run ⟨earlier ++ later⟩ host = (.ok (before ++ after.map (Outcome.shift earlier.length)), final) := by
  rw [run_append_of_ok later hbefore, hafter]
  rfl

end Scenario

end FixedSupply
