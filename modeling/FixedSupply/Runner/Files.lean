import FixedSupply.Bytes
import FixedSupply.Runner.Path

/-!
# Files

A session looks for files, and reads and writes whole ones. It is a tree of requests, so it can run on the
files of a machine or on a map from names to contents, which `Files` is. The map also says where the
system refuses a write.
-/

namespace FixedSupply

/-- Why a file could not be read or written. -/
inductive FileFault where
  | missing
  | notDirectory
  | isDirectory
  /-- A name on the path, or the path itself, has too many bytes. -/
  | nameTooLong
  /-- A fault that the system words itself. -/
  | other (message : String)
  deriving DecidableEq, Repr

def FileFault.message : FileFault → String
  | .missing => "No such file or directory (os error 2)"
  | .notDirectory => "Not a directory (os error 20)"
  | .isDirectory => "Is a directory (os error 21)"
  | .nameTooLong => "File name too long (os error 36)"
  | .other message => message

/-- A computation that looks for files, reads them and writes them. -/
inductive Session (α : Type) where
  | done (value : α)
  /-- Whether anything stands at the end of the path. -/
  | stands (path : String) (next : Bool → Session α)
  | read (path : String) (next : Except FileFault Bytes → Session α)
  | write (path : String) (content : Bytes) (next : Except FileFault Unit → Session α)

namespace Session

variable {α β : Type}

def bind : Session α → (α → Session β) → Session β
  | .done value, f => f value
  | .stands path next, f => .stands path fun answer => (next answer).bind f
  | .read path next, f => .read path fun answer => (next answer).bind f
  | .write path content next, f => .write path content fun answer => (next answer).bind f

instance : Monad Session where
  pure := done
  bind := bind

def pathExists (path : String) : Session Bool :=
  .stands path .done

def readFile (path : String) : Session (Except FileFault Bytes) :=
  .read path .done

/-- Writes a file, in place of the one that was there. -/
def writeFile (path : String) (content : Bytes) : Session (Except FileFault Unit) :=
  .write path content .done

end Session

/-- The contents of all files that are known, by their places. -/
structure Files where
  entries : List (Place × Bytes)
  /-- Where the system lets no file be written, with its fault: a file may be read-only, its directory
  too, or the disk full. -/
  refusals : List (Place × FileFault) := []

/-- What stands at a place. -/
inductive Node where
  | directory
  | file (content : Bytes)
  deriving DecidableEq, Repr

namespace Files

/-- The content of the file at a place. -/
def get? (files : Files) (place : Place) : Option Bytes :=
  files.entries.lookup place

/-- The fault of a write at a place, where the system refuses it. -/
def refusal? (files : Files) (place : Place) : Option FileFault :=
  files.refusals.lookup place

def insert (files : Files) (place : Place) (content : Bytes) : Files :=
  { files with entries := (place, content) :: files.entries.filter fun entry => entry.1 != place }

/-- The place holds the working directory, or a file somewhere below it. -/
def isDirectory (files : Files) (place : Place) : Bool :=
  place.isUpward || files.entries.any fun (other, _) => place.isPrefixOf other && place != other

/-- What stands at a place, if anything does. -/
def node? (files : Files) (place : Place) : Option Node :=
  match files.get? place with
  | some content => some (.file content)
  | none => if files.isDirectory place then some .directory else none

/-- The most bytes that a name may have. -/
def nameLimit : Nat := 255

/-- The most bytes that a path may have. -/
def pathLimit : Nat := 4095

/-- The place that a name stands for in a directory, unless the name is too long to be looked up. -/
def locate (directory : Place) (name : String) : Except FileFault Place :=
  if nameLimit < name.utf8ByteSize then .error .nameTooLong else .ok (directory.step name)

/-- Goes from a directory to the one that a name stands for. -/
def enter (files : Files) (directory : Place) (name : String) : Except FileFault Place := do
  let place ← locate directory name
  match files.node? place with
  | some .directory => return place
  | some (.file _) => throw .notDirectory
  | none => throw .missing

/-- The parts of a written path, and the directory that all its names but the last lead to. -/
def approach (files : Files) (path : String) : Except FileFault (Path × Place) := do
  if path.isEmpty then throw .missing
  if pathLimit < path.utf8ByteSize then throw .nameTooLong
  let path := Path.ofString path
  return (path, ← path.names.dropLast.foldlM files.enter path.start)

/-- What stands at the end of a path, if the path leads anywhere. A slash at its end asks for a
directory. -/
def standing? (files : Files) (path : String) : Option Node :=
  match files.approach path with
  | .error _ => none
  | .ok (parsed, directory) =>
    match parsed.names.getLast? with
    | none => some .directory
    | some name =>
      match locate directory name with
      | .error _ => none
      | .ok place => (files.node? place).filter fun node => !parsed.closed || node == .directory

/-- The content of the file that a path names. A slash at the end asks for a directory. -/
def read (files : Files) (path : String) : Except FileFault Bytes := do
  let (path, directory) ← files.approach path
  match path.names.getLast? with
  | none => throw .isDirectory
  | some name =>
    match files.node? (← locate directory name) with
    | none => throw .missing
    | some .directory => throw .isDirectory
    | some (.file content) => if path.closed then throw .notDirectory else return content

/-- The files after a write. It may make a new file in a directory, but no directory, so no slash may
stand at the end. The system may refuse it, also over a file that can be read. -/
def write (files : Files) (path : String) (content : Bytes) : Except FileFault Files := do
  let (path, directory) ← files.approach path
  match path.names.getLast? with
  | none => throw .isDirectory
  | some name =>
    if path.closed then throw .isDirectory
    let place ← locate directory name
    if files.node? place = some .directory then throw .isDirectory
    match files.refusal? place with
    | some fault => throw fault
    | none => return files.insert place content

end Files

/-- Runs a session on a map from names to contents. A write succeeds or fails as a whole. -/
def Session.run {α : Type} : Session α → Files → α × Files
  | .done value, files => (value, files)
  | .stands path next, files => (next (files.standing? path).isSome).run files
  | .read path next, files => (next (files.read path)).run files
  | .write path content next, files =>
    match files.write path content with
    | .ok written => (next (.ok ())).run written
    | .error fault => (next (.error fault)).run files

end FixedSupply
