import FixedSupply.Proofs.ScenarioRuns
import FixedSupply.Proofs.SessionRuns

/-!
# Stopping and resuming

Two scenarios that are run one after the other through a state file do what the scenario of the steps of
both does in one run. The second run meets the state that the first one left, because a snapshot is
restored to what was written; its host and its context are new, but no invocation can tell.
-/

namespace FixedSupply

instance decidableEqExcept {ε α : Type} [DecidableEq ε] [DecidableEq α] : DecidableEq (Except ε α)
  | .error a, .error b => decidable_of_iff (a = b) ⟨congrArg Except.error, Except.error.inj⟩
  | .ok a, .ok b => decidable_of_iff (a = b) ⟨congrArg Except.ok, Except.ok.inj⟩
  | .error _, .ok _ => isFalse nofun
  | .ok _, .error _ => isFalse nofun

namespace Runner

variable (earlier later : List Outcome) (count : ℕ)

lemma allAsExpected_append :
    Scenario.allAsExpected (earlier ++ later.map (Outcome.shift count)) =
      (Scenario.allAsExpected earlier && Scenario.allAsExpected later) := by
  unfold Scenario.allAsExpected
  rw [List.all_append, List.all_map]
  rfl

/-- One unexpected outcome decides the exit code. -/
lemma code_verdict_append :
    (verdict (earlier ++ later.map (Outcome.shift count))).code =
      max (verdict earlier).code (verdict later).code := by
  unfold verdict
  rw [allAsExpected_append]
  cases Scenario.allAsExpected earlier with
  | true => cases Scenario.allAsExpected later <;> rfl
  | false => cases Scenario.allAsExpected later <;> rfl

end Runner

namespace Files

/-- The command line asks to run the scenario from the state in a file and to save the state there. The
scenario is in another file. -/
def Commands (files : Files) (statePath : String) (arguments : List String) (scenario : Scenario) : Prop :=
  ∃ path, Command.ofArguments? arguments = some (.run path (some statePath) true) ∧
    files.HoldsScenario path scenario ∧
      (Path.ofString path).place ≠ (Path.ofString statePath).place

def Writable (files : Files) (path : String) : Prop :=
  ∃ content written, files.write path content = .ok written

variable {files written : Files} {statePath : String} {arguments : List String} {scenario : Scenario}
  {content : Bytes}

lemma Writable.write (h : files.Writable statePath) (content : Bytes) :
    ∃ written, files.write statePath content = .ok written := by
  obtain ⟨first, written, hwrite⟩ := h
  exact exists_write hwrite content

instance (files : Files) (path : String) : Decidable (files.Writable path) :=
  match h : files.write path [] with
  | .ok written => isTrue ⟨[], written, h⟩
  | .error _ => isFalse fun hwritable =>
    have ⟨_, hok⟩ := hwritable.write []
    nomatch h.symm.trans hok

lemma Commands.of_write (h : files.Commands statePath arguments scenario)
    (hwrite : files.write statePath content = .ok written) :
    written.Commands statePath arguments scenario := by
  obtain ⟨path, hcommand, ⟨found, text, hread, htext, hparse⟩, hne⟩ := h
  have hkept := read_write_of_ne hwrite hne hread
  exact ⟨path, hcommand, ⟨found, text, hkept, htext, hparse⟩, hne⟩

lemma Commands.run {start final : Host} {outcomes : List Outcome}
    (h : files.Commands statePath arguments scenario) (hstate : files.HoldsState statePath start)
    (hrun : scenario.run start = (.ok outcomes, final))
    (hwrite : files.write statePath final.snapshot = .ok written) :
    (Runner.session arguments).run files = (Runner.verdict outcomes, written) := by
  obtain ⟨path, hcommand, hscenario, -⟩ := h
  exact Runner.run_session hcommand hscenario hstate hrun hwrite

lemma holdsState_of_write {host : Host} (fits : host.state.Fits)
    (hwrite : files.write statePath host.snapshot = .ok written) :
    written.HoldsState statePath { Host.fresh true with state := host.state } :=
  .inr ⟨host.snapshot, read_write hwrite, Host.restore?_snapshot fits (Host.fresh true)⟩

end Files

/-- A new host with the state of a host that rolls back runs a scenario to the same end. -/
lemma Scenario.run_restored {scenario : Scenario} {host final : Host} {outcomes : List Outcome}
    (hrollback : host.rollback = true) (h : scenario.run host = (.ok outcomes, final)) :
    ∃ last, scenario.run { Host.fresh true with state := host.state } = (.ok outcomes, last) ∧
      last.state = final.state := by
  let restored : Host := { Host.fresh true with state := host.state }
  have hstate : restored.state = host.state := rfl
  have hresult : (scenario.run restored).1 = (scenario.run host).1 :=
    (runFrom_eq_of_state_eq 0 scenario.steps hstate hrollback.symm).1
  have hleft : (scenario.run restored).2.state = (scenario.run host).2.state :=
    (runFrom_eq_of_state_eq 0 scenario.steps hstate hrollback.symm).2
  rw [h] at hresult hleft
  exact ⟨(scenario.run restored).2, Prod.ext hresult rfl, hleft⟩

/-- Stopping and resuming cannot be seen. One command runs the steps `earlier` from the state in a file
and saves there, and a second one goes on with the steps `later`. All files are then as after a single
command that runs the steps of both, the state file with the snapshot of its final host. The outcomes
printed are those of the single command, but for the numbers of the later steps, and its exit code is the
larger one of theirs. -/
theorem resumption_invisible {files : Files} {statePath : String} {first second single : List String}
    {earlier later : List Step} {start : Host}
    (hfirst : files.Commands statePath first ⟨earlier⟩)
    (hsecond : files.Commands statePath second ⟨later⟩)
    (hsingle : files.Commands statePath single ⟨earlier ++ later⟩)
    (hstate : files.HoldsState statePath start) (hwritable : files.Writable statePath)
    (hearlier : ∀ step ∈ earlier, step.WellFormed) (hlater : ∀ step ∈ later, step.WellFormed)
    (fits : (Scenario.run ⟨earlier⟩ start).2.state.Fits) :
    let stopped := (Runner.session first).run files
    let resumed := (Runner.session second).run stopped.2
    let whole := (Runner.session single).run files
    resumed.2 = whole.2 ∧
      whole.2.read statePath = .ok (Scenario.run ⟨earlier ++ later⟩ start).2.snapshot ∧
      (∃ before after, (Scenario.run ⟨earlier⟩ start).1 = .ok before ∧
        (Scenario.run ⟨later⟩ (Scenario.run ⟨earlier⟩ start).2).1 = .ok after ∧
        stopped.1 = Runner.verdict before ∧ resumed.1 = Runner.verdict after ∧
        whole.1 = Runner.verdict (before ++ after.map (Outcome.shift earlier.length))) ∧
      whole.1.code = max stopped.1.code resumed.1.code := by
  obtain ⟨before, middle, hbefore⟩ :
      ∃ outcomes host, Scenario.run ⟨earlier⟩ start = (.ok outcomes, host) :=
    Scenario.exists_runFrom_eq_ok 0 earlier start hearlier
  obtain ⟨after, final, hafter⟩ :
      ∃ outcomes host, Scenario.run ⟨later⟩ middle = (.ok outcomes, host) :=
    Scenario.exists_runFrom_eq_ok 0 later middle hlater
  have hboth := Scenario.run_append hbefore hafter
  have hrollback : middle.rollback = true := by
    rw [← hstate.rollback, ← Scenario.rollback_run start ⟨earlier⟩, hbefore]
  obtain ⟨last, hlast, hsame⟩ := Scenario.run_restored hrollback hafter
  obtain ⟨saved, hsaved⟩ := hwritable.write middle.snapshot
  obtain ⟨written, hwritten⟩ := hwritable.write final.snapshot
  rw [hbefore] at fits
  have hkept := Files.holdsState_of_write fits hsaved
  -- The second command replaces the saved state, so what the first one wrote leaves no trace.
  have hrewritten : saved.write statePath last.snapshot = .ok written := by
    rw [Host.snapshot, hsame]
    exact Files.write_write hsaved hwritten
  have hstopped := hfirst.run hstate hbefore hsaved
  have hresumed := (hsecond.of_write hsaved).run hkept hlast hrewritten
  have hwhole := hsingle.run hstate hboth hwritten
  have hread := Files.read_write hwritten
  simp only [hstopped, hresumed, hwhole, hbefore, hafter, hboth]
  refine ⟨trivial, hread, ⟨before, after, rfl, rfl, rfl, rfl, rfl⟩, ?_⟩
  exact Runner.code_verdict_append before after earlier.length

/-- A mint, and a second one, which fails against its expectation. -/
theorem resumption_invisible_of_second_mint :
    let owner := String.ofList (List.replicate 64 '0')
    let earlier : List Step := [⟨owner, "init", ["05"], none⟩]
    let later : List Step := [⟨owner, "init", ["06"], some "ok"⟩]
    let file (steps : List Step) : Bytes := .ofString (String.ofList (Json.writeScenario ⟨steps⟩))
    let files : Files :=
      { entries := [(["a"], file earlier), (["b"], file later), (["both"], file (earlier ++ later))] }
    let line (path : String) : List String := ["run", path, "--state", "st", "--save-state"]
    files.HoldsState "st" (.fresh true) ∧ files.Writable "st" ∧
      ((Runner.session (line "b")).run ((Runner.session (line "a")).run files).2).2 =
        ((Runner.session (line "both")).run files).2 ∧
      ((Runner.session (line "both")).run files).1.code =
        max ((Runner.session (line "a")).run files).1.code
          ((Runner.session (line "b")).run ((Runner.session (line "a")).run files).2).1.code := by
  intro owner earlier later file files line
  -- What is decided by evaluation is kept small: the bytes of the files are not looked into.
  have hcommands (path : String) (steps : List Step) (hget : files.get? [path] = some (file steps))
      (hpath : Path.ofString path = ⟨[], [path], false⟩ ∧ path.isEmpty = false ∧
        Files.locate [] path = .ok [path] ∧ ¬Files.pathLimit < path.utf8ByteSize)
      (hscenario : Json.Reader.scenario.read (Json.writeScenario ⟨steps⟩) = .ok (⟨steps⟩, []))
      (hline : Command.ofArguments? (line path) = some (.run path (some "st") true) ∧
        (Path.ofString path).place ≠ (Path.ofString "st").place) :
      files.Commands "st" (line path) ⟨steps⟩ := by
    obtain ⟨hparsed, hempty, hlocate, hlimit⟩ := hpath
    have hread := Files.read_eq_ok_iff.mpr
      ⟨[path], Files.leads_of_name hparsed hempty hlocate hlimit, hget⟩
    exact ⟨path, hline.1, .of_read hread hscenario, hline.2⟩
  have hfirst : files.Commands "st" (line "a") ⟨earlier⟩ :=
    hcommands "a" earlier rfl (by decide +kernel) (by decide +kernel) (by decide +kernel)
  have hsecond : files.Commands "st" (line "b") ⟨later⟩ :=
    hcommands "b" later rfl (by decide +kernel) (by decide +kernel) (by decide +kernel)
  have hsingle : files.Commands "st" (line "both") ⟨earlier ++ later⟩ :=
    hcommands "both" (earlier ++ later) rfl (by decide +kernel) (by decide +kernel) (by decide +kernel)
  have hstate : files.HoldsState "st" (.fresh true) := .inl ⟨by decide +kernel, rfl⟩
  have hwritable : files.Writable "st" := by decide +kernel
  have hmint : Step.decode ⟨owner, "init", ["05"], none⟩ = .ok (Bytes32.zero, [[5]]) := by decide +kernel
  have fits : (Scenario.run ⟨earlier⟩ (.fresh true)).2.state.Fits := by
    rw [Scenario.run, Scenario.runFrom_cons_of_ok _ _ _ hmint]
    exact ⟨by decide +kernel, by decide +kernel, by decide +kernel, by decide +kernel⟩
  have hresumption := resumption_invisible hfirst hsecond hsingle hstate hwritable
    (by decide +kernel) (by decide +kernel) fits
  exact ⟨hstate, hwritable, hresumption.1, hresumption.2.2.2⟩

end FixedSupply
