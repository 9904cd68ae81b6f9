import FixedSupply.Runner

/-!
# The program

Runs the session of its command line on the files of the machine.
-/

namespace FixedSupply

/-- The fault with the number of a system error; the number may be reported with either sign. -/
def FileFault.ofNumber (number : UInt32) (details : String) : FileFault :=
  let code := if number < 2147483648 then number else 0 - number
  if code = 20 then .notDirectory
  else if code = 21 then .isDirectory
  else if code = 36 then .nameTooLong
  else .other s!"{details} (os error {code})"

/-- The fault that an error of the system stands for. -/
def FileFault.ofError : IO.Error → FileFault
  | .noFileOrDirectory .. => .missing
  | .inappropriateType _ number details | .invalidArgument _ number details
  | .permissionDenied _ number details => .ofNumber number details
  | error => .other (toString error)

/-- Runs a session on the files of the machine. Something stands at a path that the system can resolve. -/
def Session.perform {α : Type} : Session α → IO α
  | .done value => return value
  | .stands path next => do
    let answer ← (IO.FS.realPath path).toBaseIO
    (next answer.isOk).perform
  | .read path next => do
    let answer ← (IO.FS.readBinFile path).toBaseIO
    ((next (answer.map (·.toList) |>.mapError .ofError)).perform)
  | .write path content next => do
    let answer ← (IO.FS.writeBinFile path content.toByteArray).toBaseIO
    ((next (answer.mapError .ofError)).perform)

end FixedSupply

/-- Prints the report of a command line and exits with its code. -/
def main (arguments : List String) : IO UInt32 := do
  let report ← (FixedSupply.Runner.session arguments).perform
  IO.print report.stdout
  IO.eprint report.stderr
  return UInt32.ofNat report.code
