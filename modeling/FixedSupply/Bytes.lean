/-!
# Byte strings

A byte string is a list of bytes; lists are ordered byte by byte, a proper beginning first.
Account addresses and log topics are the byte strings of length 32.
-/

namespace FixedSupply

abbrev Bytes := List UInt8

namespace Bytes

/-- The UTF-8 bytes of a text. -/
def ofString (text : String) : Bytes :=
  text.toList.flatMap String.utf8EncodeChar

/-- The text that the bytes spell in UTF-8, if they spell one. -/
def toString? (bytes : Bytes) : Option String :=
  String.fromUTF8? ⟨bytes.toArray⟩

/-- The natural number that the bytes write in base 256, most significant byte first. -/
def value (bytes : Bytes) : Nat :=
  bytes.foldl (fun acc byte => acc * 256 + byte.toNat) 0

end Bytes

/-- A byte string of length 32. -/
structure Bytes32 where
  bytes : Bytes
  length_bytes : bytes.length = 32
  deriving DecidableEq

namespace Bytes32

/-- The byte string itself, if it has length 32. -/
def ofBytes? (bytes : Bytes) : Option Bytes32 :=
  if h : bytes.length = 32 then some ⟨bytes, h⟩ else none

def zero : Bytes32 :=
  ⟨List.replicate 32 0, List.length_replicate⟩

instance : Inhabited Bytes32 := ⟨zero⟩

end Bytes32

abbrev Address := Bytes32

abbrev Topic := Bytes32

end FixedSupply
