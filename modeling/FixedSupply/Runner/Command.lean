/-!
# The command line

`run SCENARIO [--state FILE | --state=FILE] [--save-state]` in any order, `abi`, `--version`, and `help` or
`--help`, which is heeded wherever it comes up before anything is wrong. Two dashes alone end the options.
No option may be repeated or abbreviated, and no path is empty.
-/

namespace FixedSupply

inductive Command where
  /-- Runs a scenario, from the state in a file if one is given, and saves the state there. -/
  | run (scenario : String) (state : Option String) (save : Bool)
  | abi
  | version
  /-- Tells how the program is called. -/
  | help
  deriving DecidableEq, Repr

namespace Command

/-- What the arguments of `run` have given so far. -/
structure RunDraft where
  scenario : Option String
  state : Option String
  save : Bool

/-- Takes the path of the scenario, which may be given once. -/
def RunDraft.setScenario? (draft : RunDraft) (path : String) : Option RunDraft :=
  if draft.scenario.isSome || path.isEmpty then none else some { draft with scenario := path }

/-- Takes the path of the state, which may be given once. -/
def RunDraft.setState? (draft : RunDraft) (path : String) : Option RunDraft :=
  if draft.state.isSome || path.isEmpty then none else some { draft with state := path }

/-- Takes the option to save, which may be given once. -/
def RunDraft.setSave? (draft : RunDraft) : Option RunDraft :=
  if draft.save then none else some { draft with save := true }

/-- The command, if a scenario is given, and a state if it is to be saved. -/
def RunDraft.finish? (draft : RunDraft) : Option Command := do
  let scenario ← draft.scenario
  if draft.save && draft.state.isNone then none
  else return .run scenario draft.state draft.save

/-- The argument has the form of an option; a single dash is a path. -/
def isOption (argument : String) : Bool :=
  argument.startsWith "-" && argument != "-"

/-- The argument asks for help; what follows the letter does not matter. -/
def isHelp (argument : String) : Bool :=
  argument == "--help" || argument.startsWith "-h"

/-- The value of an option that is written in one argument with its name. -/
def inlineValue? (name argument : String) : Option String :=
  let start := (name ++ "=").toList
  if start.isPrefixOf argument.toList then
    some (String.ofList (argument.toList.drop start.length))
  else none

def parseRun (draft : RunDraft) : List String → Option Command
  | [] => draft.finish?
  | "--" :: paths => do (← paths.foldlM RunDraft.setScenario? draft).finish?
  | "--state" :: rest =>
    match rest with
    | [] => none
    | path :: rest =>
      if isOption path then none
      else
        match draft.setState? path with
        | some draft => parseRun draft rest
        | none => none
  | "--save-state" :: rest =>
    match draft.setSave? with
    | some draft => parseRun draft rest
    | none => none
  | argument :: rest =>
    if isHelp argument then some .help
    else
      let next :=
        match inlineValue? "--state" argument with
        | some path => draft.setState? path
        | none => if isOption argument then none else draft.setScenario? argument
      match next with
      | some draft => parseRun draft rest
      | none => none

/-- The command that the arguments after `abi` spell. -/
def parseAbi : List String → Option Command
  | [] | ["--"] => some .abi
  | argument :: _ => if isHelp argument then some .help else none

/-- The command that the names after `help` spell: help on the program or on one of its commands. -/
def parseHelp : List String → Option Command
  | [] | ["run"] | ["abi"] | ["help"] => some .help
  | _ => none

/-- The command that the arguments spell, if they spell one. -/
def ofArguments? : List String → Option Command
  | "run" :: arguments => parseRun ⟨none, none, false⟩ arguments
  | "abi" :: arguments => parseAbi arguments
  | "help" :: names => parseHelp names
  | "--version" :: _ => some .version
  | first :: _ =>
    if first.startsWith "-V" then some .version else if isHelp first then some .help else none
  | [] => none

end Command

end FixedSupply
