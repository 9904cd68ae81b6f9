import FixedSupply.Text.Hidden

/-!
# Quotations in messages

How an error message shows a character or a text: between quotes, with the quote and the backslash
escaped, and hidden characters written by their code.
-/

namespace FixedSupply.Text

/-- A code in braces after the letter u, in lower-case hexadecimal digits without leading zeros. -/
def codeEscape (c : Char) : List Char :=
  ['\\', 'u', '\x7b'] ++ Nat.toDigits 16 c.toNat ++ ['\x7d']

/-- How one character stands between quotes of the given kind. -/
def quotedForm (quote c : Char) : List Char :=
  if c = '\x00' then ['\\', '0']
  else if c = '\t' then ['\\', 't']
  else if c = '\r' then ['\\', 'r']
  else if c = '\n' then ['\\', 'n']
  else if c = quote ∨ c = '\\' then ['\\', c]
  else if isHidden c then codeEscape c
  else [c]

/-- A character between single quotes. -/
def quotedChar (c : Char) : String :=
  String.ofList ('\'' :: quotedForm '\'' c ++ ['\''])

/-- A text between double quotes. -/
def quoted (text : String) : String :=
  String.ofList ('"' :: text.toList.flatMap (quotedForm '"') ++ ['"'])

end FixedSupply.Text
