import Mathlib.Tactic.Lemma
import FixedSupply.Runner.Command

/-!
# Command lines that run a scenario

Whatever the order of the arguments, a command that runs a scenario comes from a draft that they filled, so
it saves a state only if it was given a path for it.
-/

namespace FixedSupply.Command

variable {scenarioPath : String} {statePath : Option String} {save : Bool}

lemma exists_of_finish? {draft : RunDraft}
    (h : draft.finish? = some (.run scenarioPath statePath true)) : ∃ path, statePath = some path := by
  unfold RunDraft.finish? at h
  cases hscenario : draft.scenario with
  | none => simp [hscenario] at h
  | some scenario =>
    cases hstate : draft.state with
    | none => cases hsave : draft.save <;> simp [hscenario, hstate, hsave] at h
    | some path =>
      have hfields : scenario = scenarioPath ∧ some path = statePath ∧ draft.save = true := by
        simpa [hscenario, hstate] using h
      exact ⟨path, hfields.2.1.symm⟩

lemma exists_finish?_of_parseRun {draft : RunDraft} {arguments : List String}
    (h : parseRun draft arguments = some (.run scenarioPath statePath save)) :
    ∃ last : RunDraft, last.finish? = some (.run scenarioPath statePath save) := by
  fun_induction parseRun draft arguments with
  | case1 draft => exact ⟨draft, h⟩
  | case2 draft paths =>
    obtain ⟨last, -, hlast⟩ := Option.bind_eq_some_iff.mp h
    exact ⟨last, hlast⟩
  | _ => simp_all

lemma parseAbi_ne_run (arguments : List String) :
    parseAbi arguments ≠ some (.run scenarioPath statePath save) := by
  unfold parseAbi
  split
  · simp
  · simp
  · split
    · simp
    · simp

lemma parseHelp_ne_run (names : List String) :
    parseHelp names ≠ some (.run scenarioPath statePath save) := by
  unfold parseHelp
  split <;> simp

/-- Only the arguments after `run` ask to run a scenario. -/
lemma exists_parseRun_of_ofArguments? {arguments : List String}
    (h : ofArguments? arguments = some (.run scenarioPath statePath save)) :
    ∃ draft rest, parseRun draft rest = some (.run scenarioPath statePath save) := by
  unfold ofArguments? at h
  split at h
  · exact ⟨_, _, h⟩
  · exact absurd h (parseAbi_ne_run _)
  · exact absurd h (parseHelp_ne_run _)
  · exact absurd h (by simp)
  · split at h
    · exact absurd h (by simp)
    · split at h
      · exact absurd h (by simp)
      · exact absurd h (by simp)
  · exact absurd h (by simp)

/-- A state is saved only if its path is given. -/
lemma exists_statePath {arguments : List String}
    (h : ofArguments? arguments = some (.run scenarioPath statePath true)) :
    ∃ path, statePath = some path := by
  obtain ⟨draft, rest, hparse⟩ := exists_parseRun_of_ofArguments? h
  obtain ⟨last, hlast⟩ := exists_finish?_of_parseRun hparse
  exact exists_of_finish? hlast

end FixedSupply.Command
