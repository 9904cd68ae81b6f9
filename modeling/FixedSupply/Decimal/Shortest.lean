/-!
# The shortest decimal of a double

A double is decoded to `mantissa · 2 ^ exponent`. Of the decimals that round to it, the one with the
fewest digits is chosen, and of those the nearest. The text is positional for magnitudes from 10⁻⁵
up to 10¹⁶ and has an exponent with its sign outside of them.
-/

namespace FixedSupply.Decimal

/-- A finite double, `(-1) ^ negative · mantissa · 2 ^ exponent`. -/
structure Binary where
  negative : Bool
  mantissa : Nat
  exponent : Int
  /-- The next double below is only half as far away as the next one above. -/
  narrowBelow : Bool

/-- The finite double with these bits. -/
def Binary.ofBits (bits : UInt64) : Binary :=
  let n := bits.toNat
  let hidden := 0x10000000000000
  let fraction := n % hidden
  let biased : Nat := n / hidden % 0x800
  let negative := decide (0x8000000000000000 ≤ n)
  if biased = 0 then ⟨negative, fraction, -1074, false⟩
  else ⟨negative, fraction + hidden, (biased : Int) - 1075, decide (fraction = 0 ∧ 1 < biased)⟩

/-- `digits · 10 ^ power`. -/
structure Scaled where
  digits : Nat
  power : Int

/-- The number of decimal digits; zero has one. -/
def digitCount (n : Nat) : Nat :=
  (Nat.toDigits 10 n).length

/-- The exponent `k` with `10 ^ k ≤ num / den < 10 ^ (k + 1)`, for a positive fraction. -/
def magnitude (num den : Nat) : Int :=
  if den ≤ num then (digitCount (num / den) : Int) - 1
  else
    let k := digitCount (den / num)
    if den ≤ num * Nat.pow 10 (k - 1) then 1 - (k : Int) else -(k : Int)

def fractionOf (n base : Nat) (power : Int) : Nat × Nat :=
  if 0 ≤ power then (n * Nat.pow base power.toNat, 1) else (n, Nat.pow base (-power).toNat)

/-- The decimal of a given number of digits that rounds to the double and lies nearest to it. -/
def Binary.nearest? (x : Binary) (count : Nat) : Option Scaled :=
  let (num, den) := fractionOf (4 * x.mantissa) 2 (x.exponent - 2)
  let (low, _) := fractionOf (4 * x.mantissa - if x.narrowBelow then 1 else 2) 2 (x.exponent - 2)
  let (high, _) := fractionOf (4 * x.mantissa + 2) 2 (x.exponent - 2)
  let power := magnitude num den - count + 1
  let (top, bottom) := fractionOf 1 10 power
  let inside (d : Nat) : Bool :=
    let scaled := d * top * den
    if x.mantissa % 2 = 0 then low * bottom ≤ scaled && scaled ≤ high * bottom
    else low * bottom < scaled && scaled < high * bottom
  let below := num * bottom / (den * top)
  let excess := num * bottom - below * (den * top)
  let nearer := if 2 * excess < den * top ∨ (2 * excess = den * top ∧ below % 2 = 0)
    then [below, below + 1] else [below + 1, below]
  (nearer.find? inside).map fun d =>
    if d = Nat.pow 10 count then ⟨1, power + count⟩ else ⟨d, power⟩

/-- The shortest decimal that rounds to a positive double; seventeen digits always suffice. -/
def Binary.scaled (x : Binary) : Scaled :=
  ((List.range 17).findSome? fun i => x.nearest? (i + 1)).getD ⟨0, 0⟩

def Scaled.text (s : Scaled) : String :=
  let ds := Nat.toDigits 10 s.digits
  let point : Int := ds.length + s.power
  let chars :=
    if 0 ≤ s.power ∧ point ≤ 16 then ds ++ List.replicate s.power.toNat '0' ++ ['.', '0']
    else if 0 < point ∧ point ≤ 16 then ds.take point.toNat ++ '.' :: ds.drop point.toNat
    else if -5 < point ∧ point ≤ 0 then
      '0' :: '.' :: List.replicate (-point).toNat '0' ++ ds
    else
      let fraction := if ds.length = 1 then [] else '.' :: ds.tail
      let sign := if 0 < point then '+' else '-'
      ds.take 1 ++ fraction ++ 'e' :: sign :: Nat.toDigits 10 (point - 1).natAbs
  String.ofList chars

/-- The shortest decimal text that rounds to the finite double with these bits. -/
def shortest (bits : UInt64) : String :=
  let x := Binary.ofBits bits
  let text := if x.mantissa = 0 then "0.0" else x.scaled.text
  if x.negative then "-" ++ text else text

end FixedSupply.Decimal
