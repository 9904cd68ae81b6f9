import Mathlib.Tactic.Lemma
import FixedSupply.Proofs.FileLaws
import FixedSupply.Runner

/-!
# Sessions of the runner

A session that runs a scenario and saves the state, on files where the scenario and the state can be
read and the state can be written: it ends in the verdict on the outcomes and leaves the snapshot of the
final host.
-/

namespace FixedSupply

variable {files written : Files} {path : String}

lemma Session.run_bind {α β : Type} (session : Session α) (next : α → Session β) (files : Files) :
    (session >>= next).run files = (next (session.run files).1).run (session.run files).2 := by
  change (session.bind next).run files = _
  induction session generalizing files with
  | done value => rfl
  | stands path rest ih => exact ih (files.standing? path).isSome files
  | read path rest ih => exact ih (files.read path) files
  | write path content rest ih =>
    rw [Session.bind, Session.run, Session.run]
    cases files.write path content with
    | ok written => exact ih (.ok ()) written
    | error fault => exact ih (.error fault) files

lemma Bytes.toString?_ofString (text : String) : Bytes.toString? (Bytes.ofString text) = some text := by
  have hbytes : (⟨(Bytes.ofString text).toArray⟩ : ByteArray) = text.toByteArray := by
    rw [← String.utf8Encode_toList, List.utf8Encode]
    exact ByteArray.ext (by simp [Bytes.ofString])
  unfold Bytes.toString? String.fromUTF8?
  rw [hbytes, dif_pos text.isValidUTF8]
  rfl

namespace Files

/-- The file is text that spells the scenario. -/
def HoldsScenario (files : Files) (path : String) (scenario : Scenario) : Prop :=
  ∃ content text, files.read path = .ok content ∧ Bytes.toString? content = some text ∧
    Scenario.parse text = .ok scenario

lemma HoldsScenario.of_read {scenario : Scenario} {text : List Char}
    (hread : files.read path = .ok (.ofString (String.ofList text)))
    (hscenario : Json.Reader.scenario.read text = .ok (scenario, [])) :
    files.HoldsScenario path scenario := by
  refine ⟨_, String.ofList text, hread, Bytes.toString?_ofString _, ?_⟩
  rw [Scenario.parse, Json.Reader.run, String.toList_ofList, hscenario]
  rfl

/-- There is no file and the host is a fresh one, or the file is a snapshot and the host is restored
from it. -/
def HoldsState (files : Files) (path : String) (host : Host) : Prop :=
  (files.read path = .error .missing ∧ host = .fresh true) ∨
    ∃ content, files.read path = .ok content ∧ (Host.fresh true).restore? content = some host

lemma HoldsState.rollback {host : Host} (h : files.HoldsState path host) : host.rollback = true := by
  rcases h with ⟨-, rfl⟩ | ⟨content, -, hrestore⟩
  · rfl
  · unfold Host.restore? at hrestore
    cases hdecode : Binary.decode Binary.state content with
    | error flaw => simp [hdecode] at hrestore
    | ok state =>
      rw [hdecode] at hrestore
      exact congrArg Host.rollback (Option.some.inj hrestore).symm

end Files

namespace Runner

variable {scenario : Scenario} {start final : Host} {outcomes : List Outcome}

lemma run_bind_of_ok {α β : Type} {attempt : Attempt α} {value : α}
    (h : attempt.run.run files = (.ok value, written)) (next : α → Attempt β) :
    (attempt >>= next).run.run files = (next value).run.run written := by
  rw [ExceptT.run_bind, Session.run_bind, h]

lemma run_readFile (path : String) (files : Files) :
    (liftM (Session.readFile path) : Attempt (Except FileFault Bytes)).run.run files =
      (.ok (files.read path), files) := rfl

lemma run_pathExists (path : String) (files : Files) :
    (liftM (Session.pathExists path) : Attempt Bool).run.run files =
      (.ok (files.standing? path).isSome, files) := rfl

/-- Where nothing stands a run starts afresh, whatever keeps the path from leading anywhere. -/
lemma run_readState_of_absent (h : files.standing? path = none) :
    (readState path).run.run files = (.ok (.fresh true), files) := by
  unfold readState
  rw [run_bind_of_ok (run_pathExists path files), h]
  rfl

lemma run_readState_of_standing (h : (files.standing? path).isSome) :
    (readState path).run.run files =
      (match files.read path with
        | .error fault => .error s!"reading {path}: {fault.message}"
        | .ok content =>
          match (Host.fresh true).restore? content with
          | some host => .ok host
          | none => .error s!"{path} is not a valid state snapshot", files) := by
  unfold readState
  rw [run_bind_of_ok (run_pathExists path files), h, if_pos rfl, run_bind_of_ok (run_readFile path files)]
  cases files.read path with
  | error fault => rfl
  | ok content =>
    dsimp only
    cases (Host.fresh true).restore? content with
    | none => rfl
    | some host => rfl

lemma run_readScenario (h : files.HoldsScenario path scenario) :
    (readScenario path).run.run files = (.ok scenario, files) := by
  obtain ⟨content, text, hread, htext, hparse⟩ := h
  unfold readScenario
  rw [run_bind_of_ok (run_readFile path files), hread]
  simp only [htext, hparse]
  rfl

lemma run_readState (h : files.HoldsState path start) :
    (readState path).run.run files = (.ok start, files) := by
  rcases h with ⟨hread, rfl⟩ | ⟨content, hread, hrestore⟩
  · exact run_readState_of_absent (Files.standing?_eq_none_of_missing hread)
  · rw [run_readState_of_standing (Files.isSome_standing?_of_read hread), hread]
    simp only [hrestore]

lemma run_execute {scenarioPath statePath : String} (hscenario : files.HoldsScenario scenarioPath scenario)
    (hstate : files.HoldsState statePath start) (hrun : scenario.run start = (.ok outcomes, final)) :
    (execute scenarioPath (some statePath)).run.run files = (.ok (outcomes, final), files) := by
  unfold execute
  rw [run_bind_of_ok (run_readScenario hscenario)]
  have hstart : (startingHost (some statePath)).run.run files = (.ok start, files) := run_readState hstate
  rw [run_bind_of_ok hstart, hrun]
  rfl

/-- A command that runs a scenario from a state and saves the state ends in the verdict on the outcomes
and writes the snapshot of the final host. -/
theorem run_session {arguments : List String} {scenarioPath statePath : String}
    (hcommand : Command.ofArguments? arguments = some (.run scenarioPath (some statePath) true))
    (hscenario : files.HoldsScenario scenarioPath scenario)
    (hstate : files.HoldsState statePath start) (hrun : scenario.run start = (.ok outcomes, final))
    (hwrite : files.write statePath final.snapshot = .ok written) :
    (session arguments).run files = (verdict outcomes, written) := by
  have hexecute := run_execute hscenario hstate hrun
  have hsave : (Session.writeFile statePath final.snapshot).run files = (.ok (), written) := by
    rw [Session.writeFile, Session.run, hwrite]
    rfl
  unfold session runScenario
  simp only [hcommand, if_true]
  rw [Session.run_bind, hexecute]
  dsimp only
  rw [Session.run_bind, hsave]
  rfl

end Runner

end FixedSupply
