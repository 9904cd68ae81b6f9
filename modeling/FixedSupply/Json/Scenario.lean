import FixedSupply.Json.Record
import FixedSupply.Scenario

/-!
# JSON forms of scenarios

A step may leave out its arguments and its expected verdict, and an outcome its error.
-/

namespace FixedSupply.Json

def writeStrings (texts : List String) : List Char :=
  writeList (texts.map quote)

def writeStep (step : Step) : List Char :=
  writeObject [("caller", quote step.caller), ("function", quote step.function),
    ("args", writeStrings step.args), ("expect", writeOption quote step.expect)]

def writeScenario (scenario : Scenario) : List Char :=
  writeObject [("steps", writeList (scenario.steps.map writeStep))]

def writeOutcome (outcome : Outcome) : List Char :=
  writeObject [("step", writeNat outcome.step), ("function", quote outcome.function),
    ("output", writeStrings outcome.output), ("error", writeOption quote outcome.error),
    ("as_expected", writeBool outcome.asExpected)]

namespace Reader

def string? : Reader (Option String) :=
  optional (text "a string")

def strings : Reader (List String) :=
  list "a sequence" (text "a string")

/-- The fields of a step that were read so far. -/
structure StepDraft where
  caller : Option String
  function : Option String
  args : Option (List String)
  expect : Option (Option String)

/-- The fields of a step in the list form. -/
def stepFields : Reader Step := do
  let expectedFields := "struct Step with 4 elements"
  let caller ← elementAt 0 expectedFields (text "a string")
  let function ← elementAt 1 expectedFields (text "a string")
  let args ← element? false strings
  let expect ← element? false string?
  return ⟨caller, function, args.getD [], expect.join⟩

def stepMember (draft : StepDraft) (key : String) : Reader StepDraft := do
  match key with
  | "caller" => return { draft with caller := ← newField key draft.caller (text "a string") }
  | "function" => return { draft with function := ← newField key draft.function (text "a string") }
  | "args" => return { draft with args := ← newField key draft.args strings }
  | "expect" => return { draft with expect := ← newField key draft.expect string? }
  | _ => otherField draft

def StepDraft.finish (draft : StepDraft) : Except Flaw Step := do
  let caller ← requiredField "caller" draft.caller
  let function ← requiredField "function" draft.function
  return ⟨caller, function, draft.args.getD [], draft.expect.join⟩

def step : Reader Step :=
  record "struct Step" stepFields ⟨none, none, none, none⟩ stepMember StepDraft.finish

/-- The only field of a scenario, if it was read. -/
structure ScenarioDraft where
  steps : Option (List Step)

def steps : Reader (List Step) :=
  list "a sequence" step

def scenarioMember (draft : ScenarioDraft) (key : String) : Reader ScenarioDraft := do
  match key with
  | "steps" => return { draft with steps := ← newField key draft.steps steps }
  | _ => otherField draft

def ScenarioDraft.finish (draft : ScenarioDraft) : Except Flaw Scenario := do
  return ⟨← requiredField "steps" draft.steps⟩

def scenario : Reader Scenario :=
  record "struct Scenario" (do return ⟨← elementAt 0 "struct Scenario with 1 element" steps⟩)
    ⟨none⟩ scenarioMember ScenarioDraft.finish

/-- The fields of an outcome that were read so far. -/
structure OutcomeDraft where
  step : Option Nat
  function : Option String
  output : Option (List String)
  error : Option (Option String)
  asExpected : Option Bool

def outcome : Reader Outcome :=
  let expectedFields := "struct StepOutcome with 5 elements"
  let number := natural "usize" numberBound
  record "struct StepOutcome"
    (do
      let step ← elementAt 0 expectedFields number
      let function ← elementAt 1 expectedFields (text "a string")
      let output ← elementAt 2 expectedFields strings
      let error ← elementAt 3 expectedFields string?
      let asExpected ← elementAt 4 expectedFields boolean
      return ⟨step, function, output, error, asExpected⟩)
    (⟨none, none, none, none, none⟩ : OutcomeDraft)
    (fun draft key => do
      match key with
      | "step" => return { draft with step := ← newField key draft.step number }
      | "function" =>
        return { draft with function := ← newField key draft.function (text "a string") }
      | "output" => return { draft with output := ← newField key draft.output strings }
      | "error" => return { draft with error := ← newField key draft.error string? }
      | "as_expected" => return { draft with asExpected := ← newField key draft.asExpected boolean }
      | _ => otherField draft)
    fun draft => do
      let step ← requiredField "step" draft.step
      let function ← requiredField "function" draft.function
      let output ← requiredField "output" draft.output
      let asExpected ← requiredField "as_expected" draft.asExpected
      return ⟨step, function, output, draft.error.join, asExpected⟩

end Reader

end FixedSupply.Json

namespace FixedSupply.Scenario

def parse (text : String) : Except Json.Flaw Scenario :=
  Json.Reader.scenario.run text

def parseMessage (flaw : Json.Flaw) : String :=
  s!"invalid scenario: {flaw.message}"

end FixedSupply.Scenario
