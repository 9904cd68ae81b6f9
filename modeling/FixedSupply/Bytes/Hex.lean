import FixedSupply.Bytes
import FixedSupply.Text.Quoted

/-!
# Hexadecimal spelling of byte strings

`encode` writes two lower-case digits a byte. `decode` reads the UTF-8 bytes of a text, accepts
digits of both cases, checks the length first and then reports the first byte that is no digit.
-/

namespace FixedSupply.Hex

/-- Two lower-case digits for each byte. -/
def encode (bytes : Bytes) : String :=
  String.ofList (bytes.flatMap fun byte =>
    [Nat.digitChar (byte.toNat / 16), Nat.digitChar (byte.toNat % 16)])

/-- Why a text spells no byte string. -/
inductive Flaw where
  | oddLength
  /-- The byte at this position is no hexadecimal digit. -/
  | badDigit (byte : UInt8) (position : Nat)
  deriving DecidableEq, Repr

/-- The wording of a flaw; a bad byte is shown as the character of that code. -/
def Flaw.message : Flaw → String
  | .oddLength => "Odd number of digits"
  | .badDigit byte position =>
    s!"Invalid character {Text.quotedChar (Char.ofNat byte.toNat)} at position {position}"

def digitValue? (byte : UInt8) : Option Nat :=
  let code := byte.toNat
  if 48 ≤ code ∧ code ≤ 57 then some (code - 48)
  else if 65 ≤ code ∧ code ≤ 70 then some (code - 55)
  else if 97 ≤ code ∧ code ≤ 102 then some (code - 87)
  else none

/-- Reads digits two by two, the first of them standing at `position`. -/
def decodePairs (position : Nat) : Bytes → Except Flaw Bytes
  | high :: low :: rest =>
    match digitValue? high, digitValue? low with
    | none, _ => .error (.badDigit high position)
    | some _, none => .error (.badDigit low (position + 1))
    | some h, some l => (decodePairs (position + 2) rest).map (UInt8.ofNat (16 * h + l) :: ·)
  | _ => .ok []

def decode (text : String) : Except Flaw Bytes :=
  let digits := Bytes.ofString text
  if digits.length % 2 = 1 then .error .oddLength else decodePairs 0 digits

end FixedSupply.Hex
