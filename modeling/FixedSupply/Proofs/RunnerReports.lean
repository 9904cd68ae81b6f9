import FixedSupply.Proofs.CommandLines
import FixedSupply.Proofs.JsonLines
import FixedSupply.Proofs.RunnerFailures

/-!
# Reports of the runner

What a command that runs a scenario prints, which exit code it has and which file it changes, on any
files. A run that is not blocked prints its outcomes, and then the final write may still fail; only a
write that succeeds changes a file.
-/

namespace FixedSupply

/-- The printed text has one line of JSON for every step of the scenario, in their order, and each line
tells the outcome of its step. -/
structure Scenario.Printed (scenario : Scenario) (outcomes : List Outcome) (stdout : String) : Prop where
  stdout_eq : stdout = String.join (outcomes.map fun outcome => outcome.line ++ "\n")
  isLine : ∀ outcome ∈ outcomes, outcome.IsLine outcome.line
  step_eq : outcomes.map (·.step) = List.range scenario.steps.length
  function_eq : outcomes.map (·.function) = scenario.steps.map (·.function)

section Report

variable {files : Files} {scenarioPath : String} {statePath : Option String} {save : Bool}
  {scenario : Scenario} {outcomes : List Outcome} {final : Host}

lemma Files.Completes.printed
    (h : files.Completes scenarioPath statePath scenario outcomes final) :
    scenario.Printed outcomes (Runner.outcomeLines outcomes) := by
  obtain ⟨-, start, -, hrun⟩ := h
  obtain ⟨-, hsteps, hfunctions⟩ := Scenario.outcomes_of_runFrom hrun
  refine ⟨?_, fun outcome _ => outcome.isLine_line, ?_, hfunctions⟩
  · unfold Runner.outcomeLines Outcome.line
    simp only [String.ofList_append]
  · rw [hsteps, List.range_eq_range']

lemma Runner.code_verdict (outcomes : List Outcome) :
    (verdict outcomes).code = if ∀ outcome ∈ outcomes, outcome.asExpected = true then 0 else 1 :=
  if_congr List.all_eq_true rfl rfl

lemma Runner.code_verdict_ne (outcomes : List Outcome) : (verdict outcomes).code ≠ 2 := by
  rw [code_verdict]
  split
  · decide
  · decide

lemma Files.not_unsaved_of_write {path : String} {written : Files}
    (h : files.Completes scenarioPath (some path) scenario outcomes final)
    (hwrite : files.write path final.snapshot = .ok written) :
    ¬files.Unsaved scenarioPath (some path) save := by
  rintro ⟨-, hpath, hagain, hfault⟩
  obtain ⟨-, -, rfl⟩ := h.unique hagain
  obtain rfl := Option.some.inj hpath
  exact nomatch hwrite.symm.trans hfault

variable (files scenarioPath statePath save) in
/-- A session ends blocked, or with a verdict, or with a verdict that could not be saved. -/
lemma Runner.run_runScenario_cases :
    let ended := (runScenario scenarioPath statePath save).run files
    (files.Blocked scenarioPath statePath ∧ ∃ message, ended = (failure "" message, files)) ∨
      ∃ scenario outcomes final, files.Completes scenarioPath statePath scenario outcomes final ∧
        match (if save then statePath else none) with
        | none => ended = (verdict outcomes, files)
        | some path =>
          match files.write path final.snapshot with
          | .ok written => ended = (verdict outcomes, written)
          | .error _ => ∃ message, ended = (failure (outcomeLines outcomes) message, files) := by
  intro ended
  have hended : ended = _ := Session.run_bind _ _ files
  rcases run_execute_cases files scenarioPath statePath with
    ⟨hblocked, message, hexecute⟩ | ⟨scenario, outcomes, final, hcompletes, hexecute⟩
  · rw [hexecute] at hended
    exact .inl ⟨hblocked, message, hended⟩
  · rw [hexecute] at hended
    dsimp only at hended
    refine .inr ⟨scenario, outcomes, final, hcompletes, ?_⟩
    cases htarget : if save then statePath else none with
    | none =>
      rw [htarget] at hended
      exact hended
    | some path =>
      rw [htarget] at hended
      dsimp only at hended ⊢
      rw [Session.run_bind, Session.writeFile, Session.run] at hended
      cases hwrite : files.write path final.snapshot with
      | ok written =>
        rw [hwrite] at hended
        exact hended
      | error fault =>
        rw [hwrite] at hended
        exact ⟨_, hended⟩

end Report

/-- How a command that runs a scenario ends. It fails just if it is blocked or its final write fails;
then no file is changed, and a blocked run prints nothing. Any other run prints a line for every step.
If the command does not fail, its exit code tells whether all outcomes were as expected, and the only
file that may change is that of the state. If it was to be saved, it holds the snapshot of the final host,
in which the entries of the storage and the log are spelled. -/
theorem run_reported {files : Files} {arguments : List String} {scenarioPath : String}
    {statePath : Option String} {save : Bool}
    (hcommand : Command.ofArguments? arguments = some (.run scenarioPath statePath save)) :
    let report := ((Runner.session arguments).run files).1
    let left := ((Runner.session arguments).run files).2
    (report.code = 2 ↔
        files.Blocked scenarioPath statePath ∨ files.Unsaved scenarioPath statePath save) ∧
      (report.code = 2 → left = files) ∧
      (files.Blocked scenarioPath statePath → report.stdout = "") ∧
      (¬files.Blocked scenarioPath statePath →
        ∃ scenario outcomes final, files.Completes scenarioPath statePath scenario outcomes final ∧
          scenario.Printed outcomes report.stdout ∧
          (¬files.Unsaved scenarioPath statePath save →
            report.code = (if ∀ outcome ∈ outcomes, outcome.asExpected = true then 0 else 1) ∧
              (save = false → left = files) ∧
              (save = true → ∃ path place, statePath = some path ∧ files.Leads path place ∧
                left.read path = .ok final.snapshot ∧
                  (final.state.Fits →
                    Binary.Form.snapshot (final.storage.entries, final.logs) final.snapshot) ∧
                  ∀ other, other ≠ place → left.get? other = files.get? other))) := by
  have hsession : Runner.session arguments = Runner.runScenario scenarioPath statePath save := by
    rw [Runner.session, hcommand]
  rw [hsession]
  intro report left
  have hended : (report, left) = (Runner.runScenario scenarioPath statePath save).run files := rfl
  rcases Runner.run_runScenario_cases files scenarioPath statePath save with
    ⟨hblocked, message, hreport⟩ | ⟨scenario, outcomes, final, hcompletes, htarget⟩
  · obtain ⟨hreport, hleft⟩ := Prod.mk.inj (hended.trans hreport)
    rw [hreport, hleft]
    exact ⟨⟨fun _ => .inl hblocked, fun _ => rfl⟩, fun _ => rfl, fun _ => rfl,
      fun hfree => absurd hblocked hfree⟩
  have hfree := hcompletes.not_blocked
  have hcode := Runner.code_verdict outcomes
  have hne := Runner.code_verdict_ne outcomes
  have hprinted := hcompletes.printed
  cases save with
  | false =>
    obtain ⟨hreport, hleft⟩ := Prod.mk.inj (hended.trans htarget)
    have hsaved : ¬files.Unsaved scenarioPath statePath false := by
      rintro ⟨hsave, -, -, -⟩
      exact absurd hsave (by decide)
    rw [hreport, hleft]
    exact ⟨⟨fun h => absurd h hne, fun h => (h.elim hfree hsaved).elim⟩, fun _ => rfl,
      fun h => absurd h hfree, fun _ => ⟨scenario, outcomes, final, hcompletes, hprinted,
        fun _ => ⟨hcode, fun _ => rfl, fun h => absurd h (by decide)⟩⟩⟩
  | true =>
    obtain ⟨path, rfl⟩ := Command.exists_statePath hcommand
    rw [if_pos rfl] at htarget
    dsimp only at htarget
    cases hwrite : files.write path final.snapshot with
    | error fault =>
      rw [hwrite] at htarget
      obtain ⟨message, hreport⟩ := htarget
      obtain ⟨hreport, hleft⟩ := Prod.mk.inj (hended.trans hreport)
      have hunsaved : files.Unsaved scenarioPath (some path) true := ⟨rfl, rfl, hcompletes, hwrite⟩
      rw [hreport, hleft]
      exact ⟨⟨fun _ => .inr hunsaved, fun _ => rfl⟩, fun _ => rfl, fun h => absurd h hfree,
        fun _ => ⟨scenario, outcomes, final, hcompletes, hprinted, fun h => absurd hunsaved h⟩⟩
    | ok written =>
      rw [hwrite] at htarget
      obtain ⟨hreport, hleft⟩ := Prod.mk.inj (hended.trans htarget)
      have hsaved : ¬files.Unsaved scenarioPath (some path) true :=
        Files.not_unsaved_of_write hcompletes hwrite
      have hread := Files.read_write hwrite
      obtain ⟨place, hleads, -, -, rfl⟩ := Files.write_eq_ok_iff.mp hwrite
      have hframe : ∀ other, other ≠ place →
          (files.insert place final.snapshot).get? other = files.get? other := by
        intro other hother
        exact Files.get?_insert_of_ne files place final.snapshot hother
      rw [hreport, hleft]
      exact ⟨⟨fun h => absurd h hne, fun h => (h.elim hfree hsaved).elim⟩, fun h => absurd h hne,
        fun h => absurd h hfree, fun _ => ⟨scenario, outcomes, final, hcompletes, hprinted,
          fun _ => ⟨hcode, fun h => absurd h (by decide),
            fun _ => ⟨path, place, rfl, hleads, hread, Host.snapshot_form, hframe⟩⟩⟩⟩

/-- A call of no entry point fails against its expectation. The empty state is saved all the same, but not
over a file that may only be read; the outcome is printed then too. -/
theorem run_reported_of_unexpected_fault :
    let step : Step := ⟨String.ofList (List.replicate 64 '0'), "mint", [], some "ok"⟩
    let content : Bytes := .ofString (String.ofList (Json.writeScenario ⟨[step]⟩))
    let files : Files := { entries := [(["a"], content)] }
    let guarded : Files :=
      { entries := [(["a"], content), (["st"], List.replicate 8 0)]
        refusals := [(["st"], .other "Read-only file system (os error 30)")] }
    let line : List String := ["run", "a", "--state", "st", "--save-state"]
    let ended := (Runner.session line).run files
    let refused := (Runner.session line).run guarded
    Command.ofArguments? line = some (.run "a" (some "st") true) ∧
      ended.1.code = 1 ∧ ended.2.read "st" = .ok (List.replicate 8 0) ∧
      guarded.read "st" = .ok (List.replicate 8 0) ∧ refused.1.code = 2 ∧ refused.2 = guarded ∧
      ∃ outcomes, Scenario.Printed ⟨[step]⟩ outcomes refused.1.stdout := by
  intro step content files guarded line ended refused
  -- The two runs are rewritten, because a comparison of their projections would evaluate the sessions.
  have hended : ended = (Runner.session line).run files := rfl
  have hrefused : refused = (Runner.session line).run guarded := rfl
  rw [hended, hrefused]
  have hcommand : Command.ofArguments? line = some (.run "a" (some "st") true) := by decide +kernel
  have hname (files : Files) : files.Leads "a" ["a"] ∧ files.Leads "st" ["st"] :=
    ⟨Files.leads_of_name (by decide +kernel) (by decide +kernel) (by rfl) (by decide +kernel),
      Files.leads_of_name (by decide +kernel) (by decide +kernel) (by rfl) (by decide +kernel)⟩
  have hscenario (files : Files) (h : files.get? ["a"] = some content) :
      files.HoldsScenario "a" ⟨[step]⟩ :=
    .of_read (Files.read_eq_ok_iff.mpr ⟨["a"], (hname files).1, h⟩) (by decide +kernel)
  have hdecode : step.decode = .ok (Bytes32.zero, []) := by decide +kernel
  have hrun : Scenario.run ⟨[step]⟩ (.fresh true) = (.ok [_], _) :=
    Scenario.runFrom_cons_of_ok 0 [] (.fresh true) hdecode
  refine ⟨hcommand, ?_⟩
  have hsaves : ((Runner.session line).run files).1.code = 1 ∧
      ((Runner.session line).run files).2.read "st" = .ok (List.replicate 8 0) := by
    have hstart : files.StartsOn (some "st") (.fresh true) := .absent (by decide +kernel)
    have hcompletes : files.Completes "a" (some "st") ⟨[step]⟩ _ _ :=
      ⟨hscenario files rfl, _, hstart, hrun⟩
    have hwrite (content : Bytes) : files.write "st" content = .ok (files.insert ["st"] content) :=
      Files.write_eq_ok_iff.mpr ⟨["st"], (hname files).2, by decide +kernel, rfl, rfl⟩
    have hsaved : ¬files.Unsaved "a" (some "st") true :=
      Files.not_unsaved_of_write hcompletes (hwrite _)
    obtain ⟨-, -, -, hreport⟩ := @run_reported files line "a" (some "st") true hcommand
    obtain ⟨_, outcomes, final, hagain, -, hverdict⟩ := hreport hcompletes.not_blocked
    obtain ⟨-, rfl, rfl⟩ := hcompletes.unique hagain
    obtain ⟨hcode, -, hstate⟩ := hverdict hsaved
    obtain ⟨path, -, hpath, -, hsnapshot, -, -⟩ := hstate rfl
    obtain rfl := Option.some.inj hpath
    refine ⟨?_, ?_⟩
    · rw [hcode]
      decide +kernel
    · rw [hsnapshot]
      decide +kernel
  refine ⟨hsaves.1, hsaves.2, ?_⟩
  have hread : guarded.read "st" = .ok (List.replicate 8 0) :=
    Files.read_eq_ok_iff.mpr ⟨["st"], (hname guarded).2, rfl⟩
  have hstart : guarded.StartsOn (some "st") (.fresh true) := .restored hread (by decide +kernel)
  have hcompletes : guarded.Completes "a" (some "st") ⟨[step]⟩ _ _ :=
    ⟨hscenario guarded rfl, _, hstart, hrun⟩
  have hwrite (content : Bytes) :
      guarded.write "st" content = .error (.other "Read-only file system (os error 30)") := by
    rw [Files.write_of_leads (hname guarded).2]
    rfl
  have hunsaved : guarded.Unsaved "a" (some "st") true := .intro rfl rfl hcompletes (hwrite _)
  obtain ⟨hfails, hkept, -, hreport⟩ := @run_reported guarded line "a" (some "st") true hcommand
  have hcode := hfails.mpr (.inr hunsaved)
  obtain ⟨_, outcomes, _, hagain, hprinted, -⟩ := hreport hcompletes.not_blocked
  obtain ⟨rfl, -, -⟩ := hcompletes.unique hagain
  exact ⟨hread, hcode, hkept hcode, outcomes, hprinted⟩

end FixedSupply
