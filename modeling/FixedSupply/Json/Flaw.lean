import FixedSupply.Decimal.Shortest
import FixedSupply.Text.Quoted

/-!
# Flaws of a JSON text

Why a text is not the JSON form of a value: it ends too early, it is not well formed, or it holds a
value of another shape. Readers report the first flaw in reading order.
-/

namespace FixedSupply.Json

/-- What a text holds where something else was expected. -/
inductive Found where
  | null
  | boolean (value : Bool)
  | integer (value : Int)
  /-- A number that is no integer, by the bits of the nearest double. -/
  | float (bits : UInt64)
  | string (value : String)
  | sequence
  | map
  /-- The bare name of a variant. -/
  | unitVariant
  deriving DecidableEq, Repr

def Found.message : Found → String
  | .null => "null"
  | .boolean value => s!"boolean `{value}`"
  | .integer value => s!"integer `{value}`"
  | .float bits => s!"floating point `{Decimal.shortest bits}`"
  | .string value => s!"string {Text.quoted value}"
  | .sequence => "sequence"
  | .map => "map"
  | .unitVariant => "unit variant"

/-- Why a text is not the JSON form of a value. -/
inductive Flaw where
  | endInValue
  | endInList
  | endInObject
  | endInString
  | valueExpected
  /-- One of the words `null`, `true` and `false` is misspelt. -/
  | wordExpected
  | colonExpected
  /-- An element of a list is followed by neither a comma nor the closing bracket. -/
  | listSeparatorExpected
  /-- A member of an object is followed by neither a comma nor the closing brace. -/
  | objectSeparatorExpected
  | trailingComma
  | trailingCharacters
  | keyNotString
  | invalidNumber
  /-- A number exceeds every double. -/
  | numberOutOfRange
  | invalidEscape
  /-- An escaped surrogate has no partner in front of it, or a wrong one behind it. -/
  | loneSurrogate
  /-- An escaped leading surrogate is not followed by another escape. -/
  | unpairedSurrogate
  /-- A string holds an unescaped control character. -/
  | controlCharacter
  /-- The value has another type. -/
  | wrongType (found : Found) (expected : String)
  /-- The value lies outside the range of its type. -/
  | wrongValue (found : Found) (expected : String)
  /-- A list ends before it has all its elements. -/
  | wrongLength (length : Nat) (expected : String)
  | missingField (name : String)
  | duplicateField (name : String)
  | unknownVariant (name : String) (known : List String)
  deriving DecidableEq, Repr

/-- The three categories of flaws. -/
inductive Category where
  | truncated
  | malformed
  | mismatched
  deriving DecidableEq, Repr

def Category.label : Category → String
  | .truncated => "Eof"
  | .malformed => "Syntax"
  | .mismatched => "Data"

/-- Names in backquotes, as a message enumerates alternatives. -/
def alternatives : List String → String
  | [] => "there are no variants"
  | [a] => s!"expected `{a}`"
  | [a, b] => s!"expected `{a}` or `{b}`"
  | names => "expected one of " ++ ", ".intercalate (names.map fun name => s!"`{name}`")

namespace Flaw

def category : Flaw → Category
  | .endInValue | .endInList | .endInObject | .endInString => .truncated
  | .wrongType .. | .wrongValue .. | .wrongLength .. | .missingField .. | .duplicateField ..
  | .unknownVariant .. => .mismatched
  | .valueExpected | .wordExpected | .colonExpected | .listSeparatorExpected
  | .objectSeparatorExpected | .trailingComma | .trailingCharacters | .keyNotString
  | .invalidNumber | .numberOutOfRange | .invalidEscape | .loneSurrogate | .unpairedSurrogate
  | .controlCharacter => .malformed

def message : Flaw → String
  | .endInValue => "EOF while parsing a value"
  | .endInList => "EOF while parsing a list"
  | .endInObject => "EOF while parsing an object"
  | .endInString => "EOF while parsing a string"
  | .valueExpected => "expected value"
  | .wordExpected => "expected ident"
  | .colonExpected => "expected `:`"
  | .listSeparatorExpected => "expected `,` or `]`"
  | .objectSeparatorExpected => "expected `,` or `\x7d`"
  | .trailingComma => "trailing comma"
  | .trailingCharacters => "trailing characters"
  | .keyNotString => "key must be a string"
  | .invalidNumber => "invalid number"
  | .numberOutOfRange => "number out of range"
  | .invalidEscape => "invalid escape"
  | .loneSurrogate => "lone leading surrogate in hex escape"
  | .unpairedSurrogate => "unexpected end of hex escape"
  | .controlCharacter => "control character (\\u0000-\\u001F) found while parsing a string"
  | .wrongType found expected => s!"invalid type: {found.message}, expected {expected}"
  | .wrongValue found expected => s!"invalid value: {found.message}, expected {expected}"
  | .wrongLength length expected => s!"invalid length {length}, expected {expected}"
  | .missingField name => s!"missing field `{name}`"
  | .duplicateField name => s!"duplicate field `{name}`"
  | .unknownVariant name known => s!"unknown variant `{name}`, {alternatives known}"

end Flaw

end FixedSupply.Json
