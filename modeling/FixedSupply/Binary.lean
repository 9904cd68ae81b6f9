import FixedSupply.EntryPoint
import FixedSupply.Event

/-!
# The binary form

Lengths and counts are words of four bytes, least significant first, so a list of 2³² elements or more
has no binary form. A reader takes a value from the front of a byte string and leaves the rest.
-/

namespace FixedSupply.Binary

/-- Why bytes are not the binary form of a value. -/
inductive Flaw where
  | tooShort
  | leftOver
  | unknownTag (tag : UInt8)
  deriving DecidableEq, Repr

def Flaw.message : Flaw → String
  | .tooShort => "Unexpected length of input"
  | .leftOver => "Not all bytes read"
  | .unknownTag tag => s!"Unexpected variant tag: {tag.toNat}"

/-! ## Writing -/

/-- The `count` least significant base 256 digits of a number, least significant first. -/
def littleEndian : Nat → Nat → Bytes
  | 0, _ => []
  | count + 1, n => UInt8.ofNat n :: littleEndian count (n / 256)

/-- The first length that does not fit a word, 2³². -/
def lengthBound : Nat := 0x100000000

def writeLength? (n : Nat) : Option Bytes :=
  if n < lengthBound then some (littleEndian 4 n) else none

def writeBytes? (bytes : Bytes) : Option Bytes := do
  return (← writeLength? bytes.length) ++ bytes

def writeList? {α : Type} (write : α → Option Bytes) (values : List α) : Option Bytes := do
  let length ← writeLength? values.length
  return length ++ (← values.mapM write).flatten

def writeEntryPoint (entry : EntryPoint) : Bytes :=
  [UInt8.ofNat (EntryPoint.all.idxOf entry)]

def writeLogEntry? (entry : LogEntry) : Option Bytes := do
  let topics ← writeList? (fun topic => some topic.bytes) entry.topics
  return topics ++ (← writeBytes? entry.data)

/-! ## Reading -/

/-- Takes a value from the front of a byte string. -/
abbrev Reader (α : Type) := StateT Bytes (Except Flaw) α

def take (count : Nat) : Reader Bytes := do
  let bytes ← get
  if count ≤ bytes.length then
    set (bytes.drop count)
    return bytes.take count
  else throw .tooShort

def length : Reader Nat := do
  return Bytes.value (← take 4).reverse

def bytes : Reader Bytes := do
  take (← length)

def bytes32 : Reader Bytes32 := do
  match Bytes32.ofBytes? (← take 32) with
  | some value => return value
  | none => throw .tooShort

def times {α : Type} (item : Reader α) : Nat → Reader (List α)
  | 0 => return []
  | count + 1 => do
    let value ← item
    return value :: (← times item count)

def list {α : Type} (item : Reader α) : Reader (List α) := do
  times item (← length)

def entryPoint : Reader EntryPoint := do
  match ← take 1 with
  | [tag] =>
    match EntryPoint.all[tag.toNat]? with
    | some entry => return entry
    | none => throw (.unknownTag tag)
  | _ => throw .tooShort

def logEntry : Reader LogEntry := do
  let topics ← list bytes32
  return ⟨topics, ← bytes⟩

/-- Reads a value from all of the bytes. -/
def decode {α : Type} (item : Reader α) (bytes : Bytes) : Except Flaw α := do
  let (value, rest) ← item.run bytes
  if rest.isEmpty then return value else throw .leftOver

end FixedSupply.Binary
