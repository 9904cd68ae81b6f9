import FixedSupply.Proofs.ScenarioRuns
import FixedSupply.Proofs.SessionRuns

/-!
# Failures of the runner

What ends a run before it prints anything, in terms of what the files hold. A run that is not blocked
comes to its last step. Up to there no file is changed.
-/

namespace FixedSupply

namespace Files

variable {files : Files} {path : String}

/-- The file is text. -/
def HoldsText (files : Files) (path text : String) : Prop :=
  ∃ content, files.read path = .ok content ∧ Bytes.toString? content = some text

lemma HoldsText.unique {text other : String} (h : files.HoldsText path text)
    (hother : files.HoldsText path other) : text = other := by
  obtain ⟨content, hread, htext⟩ := h
  obtain ⟨found, hfound, hspelt⟩ := hother
  obtain rfl := Except.ok.inj (hread.symm.trans hfound)
  exact Option.some.inj (htext.symm.trans hspelt)

lemma holdsScenario_iff {scenario : Scenario} :
    files.HoldsScenario path scenario ↔
      ∃ text, files.HoldsText path text ∧ Scenario.parse text = .ok scenario := by
  constructor
  · rintro ⟨content, text, hread, htext, hparse⟩
    exact ⟨text, ⟨content, hread, htext⟩, hparse⟩
  · rintro ⟨text, ⟨content, hread, htext⟩, hparse⟩
    exact ⟨content, text, hread, htext, hparse⟩

lemma HoldsScenario.unique {scenario other : Scenario} (h : files.HoldsScenario path scenario)
    (hother : files.HoldsScenario path other) : scenario = other := by
  obtain ⟨text, htext, hparse⟩ := holdsScenario_iff.mp h
  obtain ⟨found, hfound, hspelt⟩ := holdsScenario_iff.mp hother
  obtain rfl := htext.unique hfound
  exact Except.ok.inj (hparse.symm.trans hspelt)

/-- The host that a run starts on: a fresh one if no path is given or nothing stands there. -/
inductive StartsOn (files : Files) : Option String → Host → Prop where
  | unasked : StartsOn files none (.fresh true)
  | absent {path : String} (h : files.standing? path = none) : StartsOn files (some path) (.fresh true)
  | restored {path : String} {content : Bytes} {host : Host} (hread : files.read path = .ok content)
    (hrestore : (Host.fresh true).restore? content = some host) : StartsOn files (some path) host

/-- What ends a run before it prints anything. -/
inductive Blocked (files : Files) (scenarioPath : String) (statePath : Option String) : Prop where
  | unreadable (h : ∀ text, ¬files.HoldsText scenarioPath text)
  | unparsable {text : String} {flaw : Json.Flaw} (htext : files.HoldsText scenarioPath text)
    (hparse : Scenario.parse text = .error flaw)
  | unreadableState {path : String} (hpath : statePath = some path)
    (hstands : (files.standing? path).isSome) (hread : ∀ content, files.read path ≠ .ok content)
  | invalidState {path : String} {content : Bytes} (hpath : statePath = some path)
    (hread : files.read path = .ok content) (hrestore : (Host.fresh true).restore? content = none)
  | malformed {scenario : Scenario} {step : Step} (h : files.HoldsScenario scenarioPath scenario)
    (hmem : step ∈ scenario.steps) (hstep : ¬step.WellFormed)

/-- The run comes to its last step, with these outcomes and this host. -/
structure Completes (files : Files) (scenarioPath : String) (statePath : Option String)
    (scenario : Scenario) (outcomes : List Outcome) (final : Host) : Prop where
  holdsScenario : files.HoldsScenario scenarioPath scenario
  exists_start : ∃ start, files.StartsOn statePath start ∧ scenario.run start = (.ok outcomes, final)

/-- The run comes to its last step, and then the file of the state cannot be written. -/
inductive Unsaved (files : Files) (scenarioPath : String) (statePath : Option String) (save : Bool) :
    Prop where
  | intro {path : String} {scenario : Scenario} {outcomes : List Outcome} {final : Host}
    {fault : FileFault} (hsave : save = true) (hpath : statePath = some path)
    (h : files.Completes scenarioPath statePath scenario outcomes final)
    (hwrite : files.write path final.snapshot = .error fault)

end Files

namespace Files

variable {files : Files} {scenarioPath : String} {statePath : Option String}

lemma StartsOn.unique {start other : Host} (h : files.StartsOn statePath start)
    (hother : files.StartsOn statePath other) : start = other := by
  cases h with
  | unasked =>
    cases hother with
    | unasked => rfl
  | absent hstanding =>
    cases hother with
    | absent => rfl
    | restored hread hrestore => exact absurd hread (read_ne_ok_of_standing? hstanding _)
  | restored hread hrestore =>
    cases hother with
    | absent hstanding => exact absurd hread (read_ne_ok_of_standing? hstanding _)
    | restored hfound hagain =>
      obtain rfl := Except.ok.inj (hread.symm.trans hfound)
      exact Option.some.inj (hrestore.symm.trans hagain)

lemma Completes.unique {scenario other : Scenario} {outcomes found : List Outcome} {final last : Host}
    (h : files.Completes scenarioPath statePath scenario outcomes final)
    (hother : files.Completes scenarioPath statePath other found last) :
    scenario = other ∧ outcomes = found ∧ final = last := by
  obtain ⟨hscenario, start, hstart, hrun⟩ := h
  obtain ⟨hsame, begin, hbegin, hagain⟩ := hother
  obtain rfl := hscenario.unique hsame
  obtain rfl := hstart.unique hbegin
  obtain ⟨houtcomes, hfinal⟩ := Prod.mk.inj (hrun.symm.trans hagain)
  exact ⟨rfl, Except.ok.inj houtcomes, hfinal⟩

lemma Completes.not_blocked {scenario : Scenario} {outcomes : List Outcome} {final : Host}
    (h : files.Completes scenarioPath statePath scenario outcomes final) :
    ¬files.Blocked scenarioPath statePath := by
  obtain ⟨hscenario, start, hstart, hrun⟩ := h
  obtain ⟨text, htext, hparse⟩ := holdsScenario_iff.mp hscenario
  intro hblocked
  cases hblocked with
  | unreadable hnone => exact hnone text htext
  | unparsable hfound hflaw =>
    obtain rfl := htext.unique hfound
    exact nomatch hparse.symm.trans hflaw
  | unreadableState hpath hstands hread =>
    subst hpath
    cases hstart with
    | absent hnone => simp [hnone] at hstands
    | restored hfound _ => exact hread _ hfound
  | invalidState hpath hread hnone =>
    subst hpath
    cases hstart with
    | absent hstanding => exact read_ne_ok_of_standing? hstanding _ hread
    | restored hfound hrestore =>
      obtain rfl := Except.ok.inj (hread.symm.trans hfound)
      exact nomatch hrestore.symm.trans hnone
  | malformed hsame hmem hstep =>
    obtain rfl := hscenario.unique hsame
    exact hstep ((Scenario.outcomes_of_runFrom hrun).1 _ hmem)

end Files

namespace Runner

variable {files written : Files} {scenarioPath : String} {statePath : Option String}

lemma run_bind_of_error {α β : Type} {attempt : Attempt α} {message : String}
    (h : attempt.run.run files = (.error message, written)) (next : α → Attempt β) :
    (attempt >>= next).run.run files = (.error message, written) := by
  rw [ExceptT.run_bind, Session.run_bind, h]
  rfl

variable (files scenarioPath statePath)

lemma run_readScenario_cases :
    (files.Blocked scenarioPath statePath ∧
        ∃ message, (readScenario scenarioPath).run.run files = (.error message, files)) ∨
      ∃ scenario, files.HoldsScenario scenarioPath scenario ∧
        (readScenario scenarioPath).run.run files = (.ok scenario, files) := by
  have hrun : (readScenario scenarioPath).run.run files = _ :=
    run_bind_of_ok (run_readFile scenarioPath files) _
  rw [hrun]
  cases hread : files.read scenarioPath with
  | error fault =>
    refine .inl ⟨.unreadable ?_, _, rfl⟩
    rintro text ⟨content, hfound, -⟩
    exact nomatch hread.symm.trans hfound
  | ok content =>
    dsimp only
    cases htext : Bytes.toString? content with
    | none =>
      refine .inl ⟨.unreadable ?_, _, rfl⟩
      rintro text ⟨found, hfound, hspelt⟩
      obtain rfl := Except.ok.inj (hread.symm.trans hfound)
      exact nomatch htext.symm.trans hspelt
    | some text =>
      dsimp only
      cases hparse : Scenario.parse text with
      | error flaw => exact .inl ⟨.unparsable ⟨content, hread, htext⟩ hparse, _, rfl⟩
      | ok scenario => exact .inr ⟨scenario, ⟨content, text, hread, htext, hparse⟩, rfl⟩

lemma run_startingHost_cases :
    (files.Blocked scenarioPath statePath ∧
        ∃ message, (startingHost statePath).run.run files = (.error message, files)) ∨
      ∃ start, files.StartsOn statePath start ∧
        (startingHost statePath).run.run files = (.ok start, files) := by
  cases statePath with
  | none => exact .inr ⟨.fresh true, .unasked, rfl⟩
  | some path =>
    by_cases hstands : (files.standing? path).isSome
    · have hrun : (startingHost (some path)).run.run files = _ := run_readState_of_standing hstands
      rw [hrun]
      cases hread : files.read path with
      | error fault =>
        have hunread : ∀ content, files.read path ≠ .ok content := by
          intro content hok
          exact nomatch hread.symm.trans hok
        exact .inl ⟨.unreadableState rfl hstands hunread, _, rfl⟩
      | ok content =>
        dsimp only
        cases hrestore : (Host.fresh true).restore? content with
        | none => exact .inl ⟨.invalidState rfl hread hrestore, _, rfl⟩
        | some host => exact .inr ⟨host, .restored hread hrestore, rfl⟩
    · have hnone : files.standing? path = none := Option.not_isSome_iff_eq_none.mp hstands
      exact .inr ⟨.fresh true, .absent hnone, run_readState_of_absent hnone⟩

/-- A run is blocked or comes to its last step, and no file is changed up to there. -/
theorem run_execute_cases :
    (files.Blocked scenarioPath statePath ∧
        ∃ message, (execute scenarioPath statePath).run.run files = (.error message, files)) ∨
      ∃ scenario outcomes final, files.Completes scenarioPath statePath scenario outcomes final ∧
        (execute scenarioPath statePath).run.run files = (.ok (outcomes, final), files) := by
  unfold execute
  rcases run_readScenario_cases files scenarioPath statePath with
    ⟨hblocked, message, hread⟩ | ⟨scenario, hscenario, hread⟩
  · exact .inl ⟨hblocked, message, run_bind_of_error hread _⟩
  rw [run_bind_of_ok hread]
  rcases run_startingHost_cases files scenarioPath statePath with
    ⟨hblocked, message, hhost⟩ | ⟨start, hstart, hhost⟩
  · exact .inl ⟨hblocked, message, run_bind_of_error hhost _⟩
  rw [run_bind_of_ok hhost]
  cases hrun : scenario.run start with
  | mk result final =>
    cases result with
    | ok outcomes => exact .inr ⟨scenario, outcomes, final, ⟨hscenario, start, hstart, hrun⟩, rfl⟩
    | error flaw =>
      have hmalformed : ∃ step ∈ scenario.steps, ¬step.WellFormed := by
        by_contra hall
        push Not at hall
        obtain ⟨outcomes, last, hok⟩ := Scenario.exists_runFrom_eq_ok 0 scenario.steps start hall
        exact nomatch (congrArg Prod.fst hrun).symm.trans (congrArg Prod.fst hok)
      obtain ⟨step, hmem, hstep⟩ := hmalformed
      exact .inl ⟨.malformed hscenario hmem hstep, _, rfl⟩

end Runner

end FixedSupply
