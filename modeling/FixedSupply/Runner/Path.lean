/-!
# Paths

A path is read into its names, from which a place in the tree of directories is reached step by step.
-/

namespace FixedSupply

/-- A place in the tree of directories: the names on the way to it. The way starts in the working
directory, or at the root of the tree if the first name is a slash; it leads upwards only at its
start. -/
abbrev Place := List String

namespace Place

/-- The name of the root of the tree. -/
def rootName : String := "/"

/-- The name of the directory above. -/
def parentName : String := ".."

/-- The way leads nowhere but towards the root. -/
def isUpward (place : Place) : Bool :=
  place.all fun name => name == parentName || name == rootName

/-- The directory above a place; the root is above itself. -/
def parent (place : Place) : Place :=
  if place = [rootName] then place
  else if place.isUpward then place ++ [parentName]
  else place.dropLast

/-- The place that a name stands for in a directory. -/
def step (place : Place) (name : String) : Place :=
  if name = "." then place
  else if name = parentName then place.parent
  else place ++ [name]

end Place

structure Path where
  /-- The directory in which the path starts. -/
  start : Place
  /-- The names between the slashes, none of them empty. -/
  names : List String
  /-- A slash follows the last name. -/
  closed : Bool
  deriving DecidableEq, Repr

namespace Path

def ofString (path : String) : Path where
  start := if path.startsWith "/" then [Place.rootName] else []
  names := (path.splitToList (· == '/')).filter (· != "")
  closed := path.endsWith "/"

/-- The place that a path leads to, if all names but the last are those of directories. -/
def place (path : Path) : Place :=
  path.names.foldl Place.step path.start

end Path

end FixedSupply
