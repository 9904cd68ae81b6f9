import FixedSupply.Bytes.Hex
import FixedSupply.Host.Invocation
import FixedSupply.Text.Blank

/-!
# Scenarios

A scenario is a list of invocations in text form, run one after another on a host. A fault of an
invocation is recorded in its outcome and the run goes on; only a step that spells no invocation ends
the run.
-/

namespace FixedSupply

/-- One invocation of a scenario. -/
structure Step where
  /-- The address of the caller in hexadecimal digits. -/
  caller : String
  function : String
  /-- The arguments in hexadecimal digits. -/
  args : List String
  /-- The expected verdict, if any verdict is expected. -/
  expect : Option String
  deriving DecidableEq, Repr

/-- A list of invocations. -/
structure Scenario where
  steps : List Step
  deriving DecidableEq, Repr

/-- The result of one step. -/
structure Outcome where
  /-- The number of the step, from zero. -/
  step : Nat
  function : String
  /-- The returned values in hexadecimal digits. -/
  output : List String
  /-- The code of the fault, if there was one. -/
  error : Option String
  /-- The verdict is the expected one, or none was expected. -/
  asExpected : Bool
  deriving DecidableEq, Repr

/-- The verdict on a step that succeeded. -/
def Outcome.success : String := "ok"

/-- The code of the fault, or the verdict of success. -/
def Outcome.verdict (outcome : Outcome) : String :=
  outcome.error.getD success

/-- Why a step spells no invocation. -/
inductive StepFlaw where
  | hex (flaw : Hex.Flaw)
  /-- The caller has another length than an address. -/
  | callerLength (length : Nat)
  deriving DecidableEq, Repr

def StepFlaw.message : StepFlaw → String
  | .hex _ => "invalid hex"
  | .callerLength length => s!"caller must be 32 bytes, got {length}"

namespace Step

/-- The byte string that a text spells between white space. -/
def decodeHex (text : String) : Except StepFlaw Bytes :=
  (Hex.decode (Text.trim text)).mapError .hex

def callerAddress (step : Step) : Except StepFlaw Address := do
  let bytes ← decodeHex step.caller
  match Bytes32.ofBytes? bytes with
  | some address => return address
  | none => throw (.callerLength bytes.length)

/-- The caller and the arguments; the caller's flaws come first. -/
def decode (step : Step) : Except StepFlaw (Address × List Bytes) := do
  let caller ← step.callerAddress
  return (caller, ← step.args.mapM decodeHex)

/-- The outcome of the step with a given number, from the result of its invocation. -/
def outcome (step : Step) (index : Nat) (result : Except Fault (List Bytes)) : Outcome :=
  let error := match result with
    | .ok _ => none
    | .error fault => some fault.code
  let output := match result with
    | .ok values => values.map Hex.encode
    | .error _ => []
  let verdict := error.getD Outcome.success
  ⟨index, step.function, output, error, step.expect.all (· == verdict)⟩

end Step

/-- A flaw of the step with a given number. -/
structure ScenarioFlaw where
  step : Nat
  flaw : StepFlaw
  deriving DecidableEq, Repr

namespace ScenarioFlaw

def message (flaw : ScenarioFlaw) : String :=
  s!"step {flaw.step}: {flaw.flaw.message}"

/-- The wording of the flaw behind it, if there is one. -/
def cause? (flaw : ScenarioFlaw) : Option String :=
  match flaw.flaw with
  | .hex flaw => some flaw.message
  | .callerLength _ => none

end ScenarioFlaw

namespace Scenario

/-- Runs steps whose numbers start at `index`. When a step is flawed, the steps before it have run
and stay in the host. -/
def runFrom (index : Nat) : List Step → Host → Except ScenarioFlaw (List Outcome) × Host
  | [], host => (.ok [], host)
  | step :: rest, host =>
    match step.decode with
    | .error flaw => (.error ⟨index, flaw⟩, host)
    | .ok (caller, arguments) =>
      let (result, host) := host.dispatch caller arguments step.function
      let (outcomes, host) := runFrom (index + 1) rest host
      (outcomes.map (step.outcome index result :: ·), host)

def run (scenario : Scenario) (host : Host) : Except ScenarioFlaw (List Outcome) × Host :=
  runFrom 0 scenario.steps host

/-- Every outcome is as expected. -/
def allAsExpected (outcomes : List Outcome) : Bool :=
  outcomes.all (·.asExpected)

end Scenario

end FixedSupply
