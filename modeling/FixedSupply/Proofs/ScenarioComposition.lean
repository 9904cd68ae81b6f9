import Mathlib.Data.List.Forall2
import FixedSupply.Proofs.HexSpellings
import FixedSupply.Proofs.ScenarioRuns

/-!
# Scenarios in parts

A run of a scenario is taken apart at any of its steps: what stands before a step runs as a scenario of its
own, the step is one call on the host that this leaves, and the rest goes on from there. A run that ends
early has run the steps before the flawed one to their end.
-/

namespace FixedSupply

/-- The outcome tells what the call of the step with this number has returned: the values in hexadecimal
digits of lower case, or the code of the fault. -/
structure Outcome.Reports (outcome : Outcome) (index : ℕ) (step : Step)
    (result : Except Fault (List Bytes)) : Prop where
  number : outcome.step = index
  name : outcome.function = step.function
  returned : ∀ values, result = .ok values →
    List.Forall₂ (fun text value => Hex.SpellsLower text.toList value) outcome.output values ∧
      outcome.error = none
  failed : ∀ fault, result = .error fault →
    outcome.output = [] ∧ outcome.error = some fault.code
  asExpected : outcome.asExpected = true ↔
    step.expect = none ∨ (step.expect = some "ok" ∧ ∃ values, result = .ok values) ∨
      ∃ fault, result = .error fault ∧ step.expect = some fault.code

lemma Step.reports_outcome (step : Step) (index : ℕ) (result : Except Fault (List Bytes)) :
    (step.outcome index result).Reports index step result := by
  cases result with
  | ok values =>
    constructor
    · rfl
    · rfl
    · rintro _ ⟨⟩
      refine ⟨List.forall₂_map_left_iff.mpr (List.forall₂_same.mpr ?_), rfl⟩
      exact fun value _ => Hex.spellsLower_encode value
    · exact fun fault hfault => nomatch hfault
    · cases hexpect : step.expect with
      | none => simp [outcome, hexpect]
      | some expected => simp [outcome, hexpect, Outcome.success]
  | error fault =>
    constructor
    · rfl
    · rfl
    · exact fun values hvalues => nomatch hvalues
    · rintro _ ⟨⟩
      exact ⟨rfl, rfl⟩
    · cases hexpect : step.expect with
      | none => simp [outcome, hexpect]
      | some expected => simp [outcome, hexpect]

namespace Scenario

variable {index : ℕ} {steps : List Step} {host final : Host}

/-- Each outcome is that of one call on the host that the steps before it leave. -/
theorem getElem?_of_runFrom {outcomes : List Outcome} {i : ℕ} {step : Step}
    (h : runFrom index steps host = (.ok outcomes, final)) (hstep : steps[i]? = some step) :
    ∃ caller arguments, step.decode = .ok (caller, arguments) ∧
      let called := (runFrom index (steps.take i) host).2.dispatch caller arguments step.function
      outcomes[i]? = some (step.outcome (index + i) called.1) ∧
        (runFrom index (steps.take (i + 1)) host).2 = called.2 := by
  induction steps generalizing index host outcomes i with
  | nil => simp at hstep
  | cons first steps ih =>
    obtain ⟨caller, arguments, rest, hdecode, hrest, rfl⟩ := runFrom_cons_eq_ok_iff.mp h
    cases i with
    | zero =>
      obtain rfl : first = step := Option.some.inj hstep
      refine ⟨caller, arguments, hdecode, rfl, ?_⟩
      rw [List.take_succ_cons, runFrom_cons_of_ok _ _ _ hdecode, List.take_zero, runFrom_nil]
      rfl
    | succ i =>
      have hleft (count : ℕ) : (runFrom index ((first :: steps).take (count + 1)) host).2 =
          (runFrom (index + 1) (steps.take count)
            (host.dispatch caller arguments first.function).2).2 := by
        rw [List.take_succ_cons, runFrom_cons_of_ok _ _ _ hdecode]
      have hnumber : index + (i + 1) = index + 1 + i := by omega
      rw [hleft, hleft, hnumber]
      exact ih hrest hstep

/-- A run that ends early has come to a flawed step, and has run the steps before it. -/
theorem exists_of_runFrom_eq_error {flaw : ScenarioFlaw}
    (h : runFrom index steps host = (.error flaw, final)) :
    ∃ before step after outcomes, steps = before ++ step :: after ∧
      step.decode = .error flaw.flaw ∧ flaw.step = index + before.length ∧
        runFrom index before host = (.ok outcomes, final) := by
  induction steps generalizing index host with
  | nil => simp at h
  | cons first steps ih =>
    rcases runFrom_cons_eq_error_iff.mp h with ⟨hindex, hdecode, rfl⟩ | ⟨caller, arguments, hdecode, hrest⟩
    · exact ⟨[], first, steps, [], rfl, hdecode, hindex.symm, runFrom_nil index host⟩
    · obtain ⟨before, step, after, outcomes, rfl, hflaw, hnumber, hbefore⟩ := ih hrest
      refine ⟨first :: before, step, after, _, rfl, hflaw, ?_,
        runFrom_cons_eq_ok_iff.mpr ⟨caller, arguments, outcomes, hdecode, hbefore, rfl⟩⟩
      rw [hnumber, List.length_cons]
      omega

lemma exists_runFrom_eq_error (h : ∃ step ∈ steps, ¬step.WellFormed) (index : ℕ) (host : Host) :
    ∃ flaw final, runFrom index steps host = (.error flaw, final) := by
  obtain ⟨step, hmem, hstep⟩ := h
  cases hrun : runFrom index steps host with
  | mk result final =>
    cases result with
    | error flaw => exact ⟨flaw, final, rfl⟩
    | ok outcomes => exact absurd ((outcomes_of_runFrom hrun).1 step hmem) hstep

/-- A run that ends early ends so whatever steps are added after it. -/
lemma runFrom_append_of_error {flaw : ScenarioFlaw} (later : List Step)
    (h : runFrom index steps host = (.error flaw, final)) :
    runFrom index (steps ++ later) host = (.error flaw, final) := by
  obtain ⟨before, step, after, outcomes, rfl, hflaw, hnumber, hbefore⟩ := exists_of_runFrom_eq_error h
  rw [List.append_assoc, runFrom_append_of_ok _ hbefore, List.cons_append,
    runFrom_cons_of_error _ _ _ hflaw, ← hnumber]
  rfl

end Scenario

/-- A run of the steps of two scenarios is a run of the first and, if all its steps spell invocations, of the
second on the host that the first leaves; the outcomes of the second, or its flaw, have their numbers
shifted, and a flaw of the first is the flaw of both. The outcome of a step reports what one call returns
on the host that the steps before it leave, and a run that ends early leaves the host as the steps
before the flawed one do. -/
theorem scenario_runs_compose (host : Host) :
    (∀ earlier later : List Step, (∀ step ∈ earlier, step.WellFormed) →
      ∃ before middle, Scenario.run ⟨earlier⟩ host = (.ok before, middle) ∧
        (∀ after final, Scenario.run ⟨later⟩ middle = (.ok after, final) →
          Scenario.run ⟨earlier ++ later⟩ host =
            (.ok (before ++ after.map (Outcome.shift earlier.length)), final)) ∧
        ∀ flaw final, Scenario.run ⟨later⟩ middle = (.error flaw, final) →
          Scenario.run ⟨earlier ++ later⟩ host = (.error (flaw.shift earlier.length), final)) ∧
      (∀ earlier later : List Step, (∃ step ∈ earlier, ¬step.WellFormed) →
        ∃ flaw middle, Scenario.run ⟨earlier⟩ host = (.error flaw, middle) ∧
          Scenario.run ⟨earlier ++ later⟩ host = (.error flaw, middle)) ∧
      (∀ steps outcomes final, Scenario.run ⟨steps⟩ host = (.ok outcomes, final) →
        outcomes.length = steps.length ∧
          ∀ i step, steps[i]? = some step → ∃ caller arguments outcome,
            step.decode = .ok (caller, arguments) ∧ outcomes[i]? = some outcome ∧
              let called := (Scenario.run ⟨steps.take i⟩ host).2.dispatch caller arguments step.function
              outcome.Reports i step called.1 ∧
                (Scenario.run ⟨steps.take (i + 1)⟩ host).2 = called.2) ∧
      ∀ steps flaw final, Scenario.run ⟨steps⟩ host = (.error flaw, final) →
        ∃ step outcomes, steps[flaw.step]? = some step ∧ step.decode = .error flaw.flaw ∧
          Scenario.run ⟨steps.take flaw.step⟩ host = (.ok outcomes, final) := by
  refine ⟨?_, ?_, ?_, ?_⟩
  · intro earlier later hformed
    obtain ⟨before, middle, hbefore⟩ := Scenario.exists_runFrom_eq_ok 0 earlier host hformed
    have hboth := Scenario.run_append_of_ok later hbefore
    refine ⟨before, middle, hbefore, ?_, ?_⟩
    · intro after final hafter
      rw [hboth, hafter]
      rfl
    · intro flaw final hflaw
      rw [hboth, hflaw]
      rfl
  · intro earlier later hflawed
    obtain ⟨flaw, middle, hrun⟩ := Scenario.exists_runFrom_eq_error hflawed 0 host
    exact ⟨flaw, middle, hrun, Scenario.runFrom_append_of_error later hrun⟩
  · intro steps outcomes final hrun
    have hsteps := (Scenario.outcomes_of_runFrom hrun).2.1
    refine ⟨by simpa using congrArg List.length hsteps, ?_⟩
    intro i step hstep
    obtain ⟨caller, arguments, hdecode, houtcome, hleft⟩ := Scenario.getElem?_of_runFrom hrun hstep
    rw [Nat.zero_add] at houtcome
    exact ⟨caller, arguments, _, hdecode, houtcome, step.reports_outcome i _, hleft⟩
  · intro steps flaw final hrun
    obtain ⟨before, step, after, outcomes, rfl, hflaw, hnumber, hbefore⟩ :=
      Scenario.exists_of_runFrom_eq_error hrun
    rw [Nat.zero_add] at hnumber
    refine ⟨step, outcomes, ?_, hflaw, ?_⟩
    · rw [hnumber, List.getElem?_append_right le_rfl, Nat.sub_self]
      rfl
    · rw [hnumber, List.take_left]
      exact hbefore

/-- The second scenario mints a second time, in vain, and ends at a caller that is too short. -/
theorem scenario_runs_compose_of_short_caller :
    let owner := String.ofList (List.replicate 64 '0')
    let mint : Step := ⟨owner, "init", ["07"], some "ok"⟩
    let again : Step := ⟨owner, "init", ["08"], some "ok"⟩
    let short : Step := ⟨"00", "init", [], none⟩
    ∃ outcome middle final,
      Scenario.run ⟨[mint]⟩ (.fresh true) = (.ok [outcome], middle) ∧ outcome.asExpected = true ∧
        Scenario.run ⟨[again, short]⟩ middle = (.error ⟨1, .callerLength 1⟩, final) ∧
          Scenario.run ⟨[mint] ++ [again, short]⟩ (.fresh true) =
            (.error ⟨2, .callerLength 1⟩, final) := by
  intro owner mint again short
  have hformed : ∀ step ∈ [mint], step.WellFormed := by decide +kernel
  have hfirst : (Scenario.run ⟨[mint]⟩ (.fresh true)).1 = .ok [⟨0, "init", [], none, true⟩] := by
    decide +kernel
  obtain ⟨before, middle, hbefore, -, hflawed⟩ :=
    (scenario_runs_compose (.fresh true)).1 [mint] [again, short] hformed
  obtain rfl := Except.ok.inj ((congrArg Prod.fst hbefore).symm.trans hfirst)
  have hmiddle : (Scenario.run ⟨[mint]⟩ (.fresh true)).2 = middle := congrArg Prod.snd hbefore
  have hsecond : (Scenario.run ⟨[again, short]⟩ middle).1 = .error ⟨1, .callerLength 1⟩ := by
    rw [← hmiddle]
    decide +kernel
  cases hrun : Scenario.run ⟨[again, short]⟩ middle with
  | mk result final =>
    rw [hrun] at hsecond
    obtain rfl : result = .error ⟨1, .callerLength 1⟩ := hsecond
    exact ⟨_, middle, final, hbefore, rfl, hrun, hflawed _ final hrun⟩

end FixedSupply
