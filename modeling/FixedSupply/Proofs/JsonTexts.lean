import FixedSupply.Json.Quote
import FixedSupply.Proofs.HexSpellings

/-!
# Texts of strings and numbers

How strings and numbers may be written, apart from the readers. A character of a string stands for itself or
is written as an escape: by a letter, by its code, or by the two surrogates of its code. A number has digits
without a zero in front of others, and after them a fraction and an exponent, if any.
-/

namespace FixedSupply.Json

/-- Four digits of a code unit. -/
inductive UnitText : List Char → ℕ → Prop where
  | intro {a b c d : Char} {m n p q : ℕ} (ha : Hex.Digit a m) (hb : Hex.Digit b n)
    (hc : Hex.Digit c p) (hd : Hex.Digit d q) :
    UnitText [a, b, c, d] (((m * 16 + n) * 16 + p) * 16 + q)

/-- The letters that follow a backslash, each with the character that it stands for. -/
def escapeLetters : List (Char × Char) :=
  [('"', '"'), ('\\', '\\'), ('/', '/'), ('b', '\x08'), ('f', '\x0c'), ('n', '\n'), ('r', '\r'), ('t', '\t')]

/-- The texts of a character in a string. -/
inductive CharText : List Char → Char → Prop where
  | plain {c : Char} (hcontrol : 32 ≤ c.toNat) (hquote : c ≠ '"') (hbackslash : c ≠ '\\') :
    CharText [c] c
  | letter {letter c : Char} (h : (letter, c) ∈ escapeLetters) : CharText ['\\', letter] c
  | code {digits : List Char} {c : Char} (h : UnitText digits c.toNat) :
    CharText ('\\' :: 'u' :: digits) c
  | surrogates {leading trailing : List Char} {c : Char} (hlarge : 0x10000 ≤ c.toNat)
    (hleading : UnitText leading (0xD800 + (c.toNat - 0x10000) / 0x400))
    (htrailing : UnitText trailing (0xDC00 + (c.toNat - 0x10000) % 0x400)) :
    CharText ('\\' :: 'u' :: (leading ++ '\\' :: 'u' :: trailing)) c

/-- The texts of the characters between the quotes. -/
inductive CharsText : List Char → List Char → Prop where
  | nil : CharsText [] []
  | cons {text rest cs : List Char} {c : Char} (h : CharText text c) (hrest : CharsText rest cs) :
    CharsText (text ++ rest) (c :: cs)

inductive StringText : List Char → String → Prop where
  | intro {chars : List Char} {value : String} (h : CharsText chars value.toList) :
    StringText ('"' :: (chars ++ ['"'])) value

/-- One decimal digit or more. -/
def Digits (text : List Char) : Prop :=
  text ≠ [] ∧ ∀ c ∈ text, c.isDigit = true

/-- The digits before the point: a zero has no others behind it. -/
def WholeText (text : List Char) : Prop :=
  Digits text ∧ (text.head? = some '0' → text = ['0'])

inductive FractionText : List Char → Prop where
  | none : FractionText []
  | digits {digits : List Char} (h : Digits digits) : FractionText ('.' :: digits)

inductive ExponentText : List Char → Prop where
  | none : ExponentText []
  | digits {letter : Char} {sign digits : List Char} (hletter : letter = 'e' ∨ letter = 'E')
    (hsign : sign = [] ∨ sign = ['+'] ∨ sign = ['-']) (h : Digits digits) :
    ExponentText (letter :: (sign ++ digits))

inductive NumberText : List Char → Prop where
  | intro {sign whole fraction exponent : List Char} (hsign : sign = [] ∨ sign = ['-'])
    (hwhole : WholeText whole) (hfraction : FractionText fraction) (hexponent : ExponentText exponent) :
    NumberText (sign ++ (whole ++ (fraction ++ exponent)))

section Written

variable {n : ℕ} {c : Char}

lemma unitText_of_lt (h : n < 256) :
    UnitText ['0', '0', Nat.digitChar (n / 16), Nat.digitChar (n % 16)] n := by
  have hzero : Hex.Digit '0' 0 := ⟨by decide, .inl rfl⟩
  have htext := UnitText.intro hzero hzero (Hex.digit_digitChar (show n / 16 < 16 by omega))
    (Hex.digit_digitChar (show n % 16 < 16 by omega))
  rwa [show ((0 * 16 + 0) * 16 + n / 16) * 16 + n % 16 = n by omega] at htext

lemma charText_escapeChar (c : Char) : CharText (escapeChar c) c := by
  unfold escapeChar
  split_ifs with hquote hbackslash hb hf hn hr ht hcontrol
  · exact .letter (by simp [hquote, escapeLetters])
  · exact .letter (by simp [hbackslash, escapeLetters])
  · exact .letter (by simp [hb, escapeLetters])
  · exact .letter (by simp [hf, escapeLetters])
  · exact .letter (by simp [hn, escapeLetters])
  · exact .letter (by simp [hr, escapeLetters])
  · exact .letter (by simp [ht, escapeLetters])
  · exact .code (unitText_of_lt (by omega))
  · exact .plain (by omega) hquote hbackslash

lemma charsText_flatMap (cs : List Char) : CharsText (cs.flatMap escapeChar) cs := by
  induction cs with
  | nil => exact .nil
  | cons c cs ih => exact .cons (charText_escapeChar c) ih

lemma stringText_quote (value : String) : StringText (quote value) value :=
  .intro (charsText_flatMap value.toList)

end Written

end FixedSupply.Json
