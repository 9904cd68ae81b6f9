import FixedSupply.Bytes

/-!
# Amounts

An amount is a natural number of any size. Its canonical encoding is the shortest big-endian byte
string with that value, so zero is the empty string and an absent storage entry reads as zero.
-/

namespace FixedSupply

abbrev Amount := Nat

namespace Amount

/-- The digits of `n` in a base above one, least significant first and without high zeros. -/
def digits (base : Nat) (one_lt : 1 < base) (n : Nat) : List Nat :=
  if _h : n = 0 then []
  else n % base :: digits base one_lt (n / base)
termination_by n
decreasing_by exact Nat.div_lt_self (Nat.pos_of_ne_zero _h) one_lt

def ofDigits (base : Nat) (ds : List Nat) : Nat :=
  ds.foldr (fun d rest => d + base * rest) 0

/-- Reads big-endian bytes; leading zeros are accepted and no bytes mean zero. -/
def ofBytes (bytes : Bytes) : Amount :=
  Bytes.value bytes

/-- The canonical encoding: big-endian, no leading zero byte, empty for zero. -/
def toBytes (amount : Amount) : Bytes :=
  ((digits 256 (by decide) amount).map UInt8.ofNat).reverse

/-- The difference, unless it would fall below zero. -/
def sub? (a b : Amount) : Option Amount :=
  if b ≤ a then some (a - b) else none

/-- The base 2³² of the digits that the JSON form lists. -/
def wordBase : Nat := 0x100000000

/-- The digits in base 2³², least significant first. -/
def words (amount : Amount) : List Nat :=
  digits wordBase (by decide) amount

def ofWords (words : List Nat) : Amount :=
  ofDigits wordBase words

end Amount

end FixedSupply
