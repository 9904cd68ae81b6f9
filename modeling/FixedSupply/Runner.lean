import FixedSupply.Json.Scenario
import FixedSupply.Runner.Command
import FixedSupply.Runner.Files
import FixedSupply.Snapshot

/-!
# The scenario runner

A command ends in a report: the exit code and what is printed. `run` reads the scenario, restores the
state if its file exists, runs every step, prints the outcomes and saves the state last. Any failure
has exit code 2; otherwise the code tells whether every outcome was as expected.
-/

namespace FixedSupply

/-- How a command ends. -/
structure Report where
  code : Nat
  stdout : String
  stderr : String
  deriving DecidableEq, Repr

namespace Runner

/-- The report of a failure, after what was printed before it. -/
def failure (printed message : String) : Report :=
  ⟨2, printed, s!"error: {message}\n"⟩

/-- The report on arguments that spell no command. -/
def usage : Report :=
  ⟨2, "", "usage"⟩

/-- A session that may fail with a message. -/
abbrev Attempt (α : Type) := ExceptT String Session α

def readScenario (path : String) : Attempt Scenario := do
  match ← Session.readFile path with
  | .error fault => throw s!"reading {path}: {fault.message}"
  | .ok content =>
    match Bytes.toString? content with
    | none => throw s!"reading {path}: stream did not contain valid UTF-8"
    | some text =>
      match Scenario.parse text with
      | .error flaw => throw s!"{Scenario.parseMessage flaw}: {flaw.message}"
      | .ok scenario => return scenario

/-- A host with the state in a file, or an empty one if nothing stands at its path. -/
def readState (path : String) : Attempt Host := do
  if ← Session.pathExists path then
    match ← Session.readFile path with
    | .error fault => throw s!"reading {path}: {fault.message}"
    | .ok content =>
      match (Host.fresh true).restore? content with
      | some host => return host
      | none => throw s!"{path} is not a valid state snapshot"
  else return .fresh true

/-- The host that a scenario starts on. -/
def startingHost : Option String → Attempt Host
  | none => return .fresh true
  | some path => readState path

/-- The outcomes of the scenario in a file and the host that it leaves. -/
def execute (scenarioPath : String) (statePath : Option String) : Attempt (List Outcome × Host) := do
  let scenario ← readScenario scenarioPath
  match scenario.run (← startingHost statePath) with
  | (.error flaw, _) => throw (": ".intercalate (flaw.message :: flaw.cause?.toList))
  | (.ok outcomes, host) => return (outcomes, host)

def outcomeLines (outcomes : List Outcome) : String :=
  String.join (outcomes.map fun outcome => String.ofList (Json.writeOutcome outcome ++ ['\n']))

/-- The report on outcomes that were all printed. -/
def verdict (outcomes : List Outcome) : Report :=
  ⟨if Scenario.allAsExpected outcomes then 0 else 1, outcomeLines outcomes, ""⟩

/-- Runs a scenario and saves the final state if asked to. -/
def runScenario (scenarioPath : String) (statePath : Option String) (save : Bool) :
    Session Report := do
  match ← (execute scenarioPath statePath).run with
  | .error message => return failure "" message
  | .ok (outcomes, host) =>
    match (if save then statePath else none) with
    | none => return verdict outcomes
    | some path =>
      match ← Session.writeFile path host.snapshot with
      | .ok () => return verdict outcomes
      | .error fault =>
        return failure (outcomeLines outcomes) s!"writing {path}: {fault.message}"

/-- A line on an entry point: its name in a column of twelve, its arguments, and what it does. -/
def entryPointLine (entry : EntryPoint) : String :=
  let kind := if entry.isReadonly then "view" else "update"
  let column := entry.name ++ "".pushn ' ' (12 - entry.name.length)
  s!"  {column} args={entry.argumentCount} {kind}\n"

/-- The list of the exported entry points. -/
def abi : Report :=
  ⟨0, s!"{Token.name} ({Token.symbol})\n" ++ String.join (EntryPoint.all.map entryPointLine), ""⟩

def version : Report :=
  ⟨0, "ledger-token-app 0.1.0\n", ""⟩

/-- The report on a request for help. The words of the help are left out. -/
def help : Report :=
  ⟨0, "help", ""⟩

/-- The session of a command line. -/
def session (arguments : List String) : Session Report :=
  match Command.ofArguments? arguments with
  | none => return usage
  | some .abi => return abi
  | some .version => return version
  | some .help => return help
  | some (.run scenario state save) => runScenario scenario state save

end Runner

end FixedSupply
