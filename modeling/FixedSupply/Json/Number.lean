import FixedSupply.Json.Reader

/-!
# Numbers

A numeral is read digit by digit and then given its value: an integer of at most 64 bits, or else the
double that its first digits, as many as fit a 64-bit word, and its exponent yield.
-/

namespace FixedSupply.Json

/-- The first natural number that does not fit a 64-bit word, 2⁶⁴. -/
def numberBound : Nat := 0x10000000000000000

/-- A numeral: its digits before the point, those after it, and the exponent, each if written. -/
structure Numeral where
  negative : Bool
  whole : List Char
  fraction : Option (List Char)
  /-- The exponent is negative, and its digits. -/
  exponent : Option (Bool × List Char)

inductive Number where
  | integer (value : Int)
  /-- A double, by its bits. -/
  | float (bits : UInt64)
  deriving DecidableEq, Repr

def Number.found : Number → Found
  | .integer value => .integer value
  | .float bits => .float bits

def decimalValue (digits : List Char) : Nat :=
  digits.foldl (fun n c => 10 * n + (c.toNat - 48)) 0

/-- Appends digits to a number as long as it fits a 64-bit word: the number, and the digits that were
left. -/
def significand (n : Nat) : List Char → Nat × List Char
  | [] => (n, [])
  | c :: rest =>
    let next := 10 * n + (c.toNat - 48)
    if next < numberBound then significand next rest else (n, c :: rest)

/-- Divides by 10³⁰⁸ the given number of times, or until nothing is left. -/
def scaleDown : Nat → Float → Float
  | 0, x => x
  | times + 1, x => if x == 0 then x else scaleDown times (x / Float.ofScientific 1 false 308)

/-- A word times a power of ten, in the arithmetic of doubles; powers beyond 10³⁰⁸ are applied in
steps. -/
def scaled (n : Nat) (power : Int) : Except Flaw Float :=
  let x := (UInt64.ofNat n).toFloat
  if 308 < power then
    if n = 0 then .ok x else .error .numberOutOfRange
  else if 0 ≤ power then
    let y := x * Float.ofScientific 1 false power.toNat
    if y.isInf then .error .numberOutOfRange else .ok y
  else
    let down := (-power).toNat
    let steps := (down - 1) / 308
    .ok (scaleDown steps x / Float.ofScientific 1 false (down - 308 * steps))

def Numeral.value (numeral : Numeral) : Except Flaw Number := do
  let float (magnitude : Float) : Number :=
    .float (if numeral.negative then -magnitude else magnitude).toBits
  let (n, left) := significand 0 numeral.whole
  match numeral.fraction, numeral.exponent, left with
  | none, none, [] =>
    if !numeral.negative then return .integer n
    else if 0 < n ∧ n ≤ 0x8000000000000000 then return .integer (-n)
    else return float (UInt64.ofNat n).toFloat
  | fraction, exponent, _ =>
    let digits := fraction.getD []
    let (m, ignored) := significand n digits
    let power : Int := (left.length : Int) - (digits.length - ignored.length : Nat)
    match exponent with
    | none => return float (← scaled m power)
    | some (negative, exponentDigits) =>
      let e := decimalValue exponentDigits
      if 0x80000000 ≤ e then
        if m ≠ 0 ∧ !negative then throw .numberOutOfRange else return float 0
      else return float (← scaled m (if negative then power - e else power + e))

namespace Reader

/-- One digit or more; `atEnd` is the flaw of a text that ends before the first. -/
def digits (atEnd : Flaw) : Reader (List Char) := do
  let c ← next atEnd
  if c.isDigit then return c :: (← takeWhile Char.isDigit) else fail .invalidNumber

/-- The digits before the point: a zero alone, or digits that do not start with zero. -/
def wholeDigits (atEnd : Flaw) : Reader (List Char) := do
  let ds ← digits atEnd
  if ds.head? = some '0' ∧ 1 < ds.length then fail .invalidNumber else return ds

/-- The digits after a point, if there is a point. -/
def fractionDigits? (atEnd : Flaw) : Reader (Option (List Char)) := do
  if (← peek) = some '.' then
    advance
    return some (← digits atEnd)
  else return none

/-- The sign and the digits of an exponent, if there is one. -/
def exponent? (atEnd : Flaw) : Reader (Option (Bool × List Char)) := do
  let letter ← peek
  if letter = some 'e' ∨ letter = some 'E' then
    advance
    let sign ← peek
    if sign = some '+' ∨ sign = some '-' then
      advance
    return some (sign = some '-', ← digits atEnd)
  else return none

/-- A numeral, from its sign on. -/
def numeral (atEnd : Flaw) : Reader Numeral := do
  let negative := (← peek) = some '-'
  if negative then
    advance
  let whole ← wholeDigits atEnd
  let fraction ← fractionDigits? atEnd
  return ⟨negative, whole, fraction, ← exponent? atEnd⟩

def number : Reader Number := do
  match (← numeral .endInValue).value with
  | .ok value => return value
  | .error flaw => fail flaw

/-- A number that nobody needs. -/
def skipNumber : Reader Unit := do
  let _ ← numeral .invalidNumber

theorem consumes_wholeDigits (atEnd : Flaw) : (wholeDigits atEnd).Consumes :=
  ((consumes_next atEnd).bind_left _).bind_left _

theorem consumes_numeral (atEnd : Flaw) : (numeral atEnd).Consumes := by
  refine .bind_right _ fun sign => ?_
  by_cases h : sign = some '-'
  · simp only [h, decide_true, ↓reduceIte]
    exact consumes_advance.bind_left _
  · simp only [h, decide_false, ↓reduceIte]
    exact (consumes_wholeDigits atEnd).bind_left _

theorem consumes_skipNumber : skipNumber.Consumes :=
  (consumes_numeral _).bind_left _

end Reader

end FixedSupply.Json
