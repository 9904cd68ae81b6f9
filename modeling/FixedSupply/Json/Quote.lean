import FixedSupply.Json.Reader

/-!
# Strings

The written form of a string and the reader of it. An escape names a character by a letter or by its
code in UTF-16, where a leading surrogate must be followed by a trailing one.
-/

namespace FixedSupply.Json

def escapeChar (c : Char) : List Char :=
  if c = '"' then ['\\', '"']
  else if c = '\\' then ['\\', '\\']
  else if c = '\x08' then ['\\', 'b']
  else if c = '\x0c' then ['\\', 'f']
  else if c = '\n' then ['\\', 'n']
  else if c = '\r' then ['\\', 'r']
  else if c = '\t' then ['\\', 't']
  else if c.toNat < 32 then
    ['\\', 'u', '0', '0', Nat.digitChar (c.toNat / 16), Nat.digitChar (c.toNat % 16)]
  else [c]

def quote (text : String) : List Char :=
  '"' :: text.toList.flatMap escapeChar ++ ['"']

namespace Reader

def hexValue? (c : Char) : Option Nat :=
  if '0' ≤ c ∧ c ≤ '9' then some (c.toNat - 48)
  else if 'a' ≤ c ∧ c ≤ 'f' then some (c.toNat - 87)
  else if 'A' ≤ c ∧ c ≤ 'F' then some (c.toNat - 55)
  else none

/-- A UTF-16 code unit in four hexadecimal digits. A text of fewer than four bytes is cut off. -/
def codeUnit : Reader Nat where
  read
    | a :: b :: c :: d :: rest =>
      match hexValue? a, hexValue? b, hexValue? c, hexValue? d with
      | some a, some b, some c, some d => .ok (((a * 16 + b) * 16 + c) * 16 + d, rest)
      | _, _, _, _ => .error .invalidEscape
    | text =>
      if (String.ofList text).utf8ByteSize < 4 then .error .endInString else .error .invalidEscape
  length_le {text _ _} h := by
    split at h
    · split at h
      · cases h
        simp only [List.length_cons]
        omega
      · cases h
    · split at h <;> cases h

/-- Passes over one character that a string needs at this place. -/
def expectInString (expected : Char) (flaw : Flaw) : Reader Unit := do
  unless (← next .endInString) = expected do
    fail flaw

/-- The character that an escape by code stands for, from after its letter `u`. -/
def codeEscape : Reader Char := do
  let unit ← codeUnit
  if 0xDC00 ≤ unit ∧ unit ≤ 0xDFFF then fail .loneSurrogate
  else if 0xD800 ≤ unit ∧ unit ≤ 0xDBFF then
    expectInString '\\' .unpairedSurrogate
    expectInString 'u' .unpairedSurrogate
    let second ← codeUnit
    if 0xDC00 ≤ second ∧ second ≤ 0xDFFF then
      return Char.ofNat ((unit - 0xD800) * 0x400 + (second - 0xDC00) + 0x10000)
    else fail .loneSurrogate
  else return Char.ofNat unit

/-- The character that a letter after a backslash stands for. -/
def letterEscape? : Char → Option Char
  | '"' => some '"'
  | '\\' => some '\\'
  | '/' => some '/'
  | 'b' => some '\x08'
  | 'f' => some '\x0c'
  | 'n' => some '\n'
  | 'r' => some '\r'
  | 't' => some '\t'
  | _ => none

/-- A code unit read for itself, without regard to surrogates. -/
def looseCode : Reader Char := do
  return Char.ofNat (← codeUnit)

/-- The character that an escape stands for, from after its backslash. -/
def escape (byCode : Reader Char) : Reader Char := do
  let letter ← next .endInString
  if letter = 'u' then byCode
  else
    match letterEscape? letter with
    | some c => return c
    | none => fail .invalidEscape

/-- The characters of a string up to its closing quote, after those in `reversed`. -/
def unquoteFrom (byCode : Reader Char) (reversed text : List Char) :
    Except Flaw (List Char × List Char) :=
  match text with
  | [] => .error .endInString
  | '"' :: rest => .ok (reversed.reverse, rest)
  | '\\' :: rest =>
    match _h : (escape byCode).read rest with
    | .error flaw => .error flaw
    | .ok (c, rest) => unquoteFrom byCode (c :: reversed) rest
  | c :: rest =>
    if c.toNat < 32 then .error .controlCharacter else unquoteFrom byCode (c :: reversed) rest
termination_by text.length
decreasing_by
  · have := (escape byCode).length_le _h
    simp only [List.length_cons]
    omega
  · simp

theorem length_le_of_unquoteFrom {byCode : Reader Char} {reversed text cs rest : List Char}
    (h : unquoteFrom byCode reversed text = .ok (cs, rest)) : rest.length ≤ text.length := by
  fun_induction unquoteFrom byCode reversed text with
  | case1 => cases h
  | case2 => cases h; simp
  | case3 => cases h
  | case4 reversed tail c middle hc ih =>
    have := (escape byCode).length_le hc
    have := ih h
    simp only [List.length_cons]
    omega
  | case5 => cases h
  | case6 _ _ _ _ _ _ ih => exact Nat.le_succ_of_le (ih h)

/-- The rest of a string, from after its opening quote. -/
def unquote (byCode : Reader Char) : Reader (List Char) where
  read := unquoteFrom byCode []
  length_le := length_le_of_unquoteFrom

/-- The rest of a string whose surrogates are paired. -/
def string : Reader String := do
  return String.ofList (← unquote codeEscape)

/-- The rest of a string that nobody needs. -/
def skipString : Reader Unit := do
  let _ ← unquote looseCode

end Reader

end FixedSupply.Json
