import Mathlib.Data.Nat.Digits.Lemmas
import FixedSupply.Proofs.JsonTexts
import FixedSupply.Proofs.JsonTokens

/-!
# Reading numbers and strings

The digits of a number are read back to it as long as it fits a 64-bit word. The characters of a string are
read one after the other, each from any text of it.
-/

namespace FixedSupply.Json

/-! ### Digits -/

section Digits

/-- No number but zero is written with a zero in front. -/
lemma head?_toDigits_ne_zero {n : ℕ} (h : n ≠ 0) : (Nat.toDigits 10 n).head? ≠ some '0' := by
  induction n using Nat.strongRecOn with
  | ind n ih =>
    by_cases hsmall : n < 10
    · rw [Nat.toDigits_of_lt_base hsmall]
      simpa using h
    · have hlarge : 10 ≤ n := Nat.le_of_not_lt hsmall
      have hquotient : n / 10 ≠ 0 := Nat.div_ne_zero_iff.mpr ⟨by decide, hlarge⟩
      have hlt : n / 10 < n := Nat.div_lt_self (by omega) (by decide)
      have hhead := ih (n / 10) hlt hquotient
      have hne : Nat.toDigits 10 (n / 10) ≠ [] := Nat.toDigits_ne_nil
      rw [Nat.toDigits_of_base_le (by decide) hlarge, List.head?_append_of_ne_nil _ hne]
      exact hhead

lemma le_ofDigitChars (digits : List Char) (n : ℕ) : n ≤ Nat.ofDigitChars 10 digits n := by
  rw [Nat.ofDigitChars_eq_ofDigitChars_zero]
  have hpow : 1 ≤ 10 ^ digits.length := Nat.one_le_pow _ _ (by decide)
  calc n = 1 * n := (Nat.one_mul n).symm
    _ ≤ 10 ^ digits.length * n := Nat.mul_le_mul_right n hpow
    _ ≤ _ := Nat.le_add_right _ _

/-- Digits whose number fits a word are all taken into it. -/
lemma significand_eq {digits : List Char} {n : ℕ} (h : Nat.ofDigitChars 10 digits n < numberBound) :
    significand n digits = (Nat.ofDigitChars 10 digits n, []) := by
  induction digits generalizing n with
  | nil => rfl
  | cons c digits ih =>
    rw [Nat.ofDigitChars_cons] at h ⊢
    have hle := le_ofDigitChars digits (10 * n + (c.toNat - '0'.toNat))
    have hfits : 10 * n + (c.toNat - 48) < numberBound := lt_of_le_of_lt hle h
    unfold significand
    rw [if_pos hfits]
    exact ih h

end Digits

namespace Reader

section Numbers

variable {n bound : ℕ} {rest : List Char}

lemma isDigit_of_mem_writeNat {c : Char} (h : c ∈ writeNat n) : c.isDigit = true :=
  Nat.isDigit_of_mem_toDigits (by decide) (by decide) h

lemma writeNat_ne_nil : writeNat n ≠ [] := Nat.toDigits_ne_nil

lemma opens_of_isDigit {c : Char} (h : c.isDigit = true) : Opens c := by
  have hne : ∀ d : Char, d.isDigit = false → c ≠ d := by
    rintro d hd rfl
    exact absurd h (by simp [hd])
  refine ⟨?_, hne _ (by decide), hne _ (by decide), hne _ (by decide)⟩
  simp [isSpace, hne ' ' (by decide), hne '\t' (by decide), hne '\n' (by decide),
    hne '\r' (by decide)]

lemma read_takeWhile_isDigit {digits : List Char} (hdigits : ∀ c ∈ digits, c.isDigit = true)
    (hrest : ∀ c ∈ rest.head?, c.isDigit = false) :
    (takeWhile Char.isDigit).read (digits ++ rest) = .ok (digits, rest) := by
  have hends : rest.takeWhile Char.isDigit = [] ∧ rest.dropWhile Char.isDigit = rest := by
    cases rest with
    | nil => exact ⟨rfl, rfl⟩
    | cons d rest =>
      have hd : ¬d.isDigit = true := by simp [hrest d rfl]
      exact ⟨List.takeWhile_cons_of_neg hd, List.dropWhile_cons_of_neg hd⟩
  unfold takeWhile
  dsimp only
  rw [List.takeWhile_append_of_pos hdigits, List.dropWhile_append_of_pos hdigits, hends.1, hends.2,
    List.append_nil]

lemma read_digits {text : List Char} {atEnd : Flaw} (h : Digits text)
    (hrest : ∀ c ∈ rest.head?, c.isDigit = false) :
    (digits atEnd).read (text ++ rest) = .ok (text, rest) := by
  obtain ⟨hne, hdigits⟩ := h
  obtain ⟨c, tail, rfl⟩ := List.exists_cons_of_ne_nil hne
  obtain ⟨hc, htail⟩ := List.forall_mem_cons.mp hdigits
  have hnext : (next atEnd).read (c :: (tail ++ rest)) = .ok (c, tail ++ rest) := rfl
  unfold digits
  rw [List.cons_append, read_bind_of_ok hnext, if_pos hc,
    read_bind_of_ok (read_takeWhile_isDigit htail hrest), read_pure]

lemma read_wholeDigits {text : List Char} {atEnd : Flaw} (h : WholeText text)
    (hrest : ∀ c ∈ rest.head?, c.isDigit = false) :
    (wholeDigits atEnd).read (text ++ rest) = .ok (text, rest) := by
  have hzero : ¬(text.head? = some '0' ∧ 1 < text.length) := by
    rintro ⟨hhead, hlength⟩
    rw [h.2 hhead] at hlength
    exact absurd hlength (by decide)
  unfold wholeDigits
  rw [read_bind_of_ok (read_digits h.1 hrest), if_neg hzero, read_pure]

/-- The digits of a written number are not refused for a zero in front of others. -/
lemma wholeText_writeNat (n : ℕ) : WholeText (writeNat n) := by
  refine ⟨⟨writeNat_ne_nil, fun _ => isDigit_of_mem_writeNat⟩, ?_⟩
  intro hhead
  by_cases hn : n = 0
  · subst hn
    rfl
  · exact absurd hhead (head?_toDigits_ne_zero hn)

lemma read_peek (text : List Char) : peek.read text = .ok (text.head?, text) := rfl

lemma read_fractionDigits? {atEnd : Flaw} (hrest : Boundary rest) :
    (fractionDigits? atEnd).read rest = .ok (none, rest) := by
  have hpoint : rest.head? ≠ some '.' := fun h => (hrest '.' h).2.1 rfl
  unfold fractionDigits?
  rw [read_bind_of_ok (read_peek rest), if_neg hpoint, read_pure]

lemma read_exponent? {atEnd : Flaw} (hrest : Boundary rest) :
    (exponent? atEnd).read rest = .ok (none, rest) := by
  have hletter : ¬(rest.head? = some 'e' ∨ rest.head? = some 'E') := by
    rintro (h | h)
    · exact (hrest 'e' h).2.2.1 rfl
    · exact (hrest 'E' h).2.2.2 rfl
  unfold exponent?
  rw [read_bind_of_ok (read_peek rest), if_neg hletter, read_pure]

/-- A written number is a numeral of digits only. -/
lemma read_numeral {atEnd : Flaw} (hrest : Boundary rest) :
    (numeral atEnd).read (writeNat n ++ rest) = .ok (⟨false, writeNat n, none, none⟩, rest) := by
  have hsign : ¬(writeNat n ++ rest).head? = some '-' := by
    rw [List.head?_append_of_ne_nil _ writeNat_ne_nil]
    intro h
    exact absurd (isDigit_of_mem_writeNat (List.mem_of_mem_head? h)) (by decide)
  unfold numeral
  rw [read_bind_of_ok (read_peek _)]
  simp only [hsign, decide_false, if_false]
  rw [read_bind_of_ok (read_wholeDigits (wholeText_writeNat n) fun c hc => (hrest c hc).1),
    read_bind_of_ok (read_fractionDigits? hrest), read_bind_of_ok (read_exponent? hrest), read_pure]

lemma value_of_digits (h : n < numberBound) :
    Numeral.value ⟨false, writeNat n, none, none⟩ = .ok (.integer n) := by
  have hsame : Nat.ofDigitChars 10 (writeNat n) 0 = n :=
    Nat.ofDigitChars_toDigits (by decide) (by decide)
  have hall : significand 0 (writeNat n) = (n, []) := by
    rw [significand_eq (by rwa [hsame]), hsame]
  unfold Numeral.value
  simp only [hall]
  rfl

lemma read_number (h : n < numberBound) (hrest : Boundary rest) :
    number.read (writeNat n ++ rest) = .ok (.integer n, rest) := by
  unfold number
  rw [read_bind_of_ok (read_numeral hrest), value_of_digits h]
  rfl

theorem takes_natural (expected : String) (hbound : n < bound) (h : n < numberBound) :
    (natural expected bound).Takes (writeNat n) n := by
  obtain ⟨c, tail, hform⟩ := List.exists_cons_of_ne_nil (@writeNat_ne_nil n)
  have hc : c.isDigit = true := by
    apply isDigit_of_mem_writeNat
    rw [hform]
    exact List.mem_cons_self
  have hrange : 0 ≤ (n : ℤ) ∧ (n : ℤ) < bound := ⟨Int.natCast_nonneg n, by exact_mod_cast hbound⟩
  rw [hform]
  refine .of_peekToken (opens_of_isDigit hc) ?_
  intro rest hrest
  have hnumber := read_number h hrest
  rw [hform, List.cons_append] at hnumber
  dsimp only
  rw [if_pos (.inr hc), read_bind_of_ok hnumber]
  dsimp only
  rw [if_pos hrange]
  rfl

end Numbers

section Strings

variable {c : Char} {n : ℕ} {digits reversed text rest : List Char}

lemma hexValue?_of_digit (h : Hex.Digit c n) : hexValue? c = some n := by
  have hall : ∀ m < 16, hexValue? (Nat.digitChar m) = some m ∧
      hexValue? (Nat.digitChar m).toUpper = some m := by decide
  obtain ⟨hn, rfl | rfl⟩ := h
  · exact (hall n hn).1
  · exact (hall n hn).2

lemma read_codeUnit (h : UnitText digits n) : codeUnit.read (digits ++ rest) = .ok (n, rest) := by
  cases h with
  | intro ha hb hc hd =>
    unfold codeUnit
    simp only [List.cons_append, List.nil_append, hexValue?_of_digit ha, hexValue?_of_digit hb,
      hexValue?_of_digit hc, hexValue?_of_digit hd]

/-- The code of a character below 2¹⁶ is no surrogate. -/
lemma read_codeEscape_code (h : UnitText digits c.toNat) :
    codeEscape.read (digits ++ rest) = .ok (c, rest) := by
  have hvalid : c.toNat < 0xD800 ∨ 0xDFFF < c.toNat := c.valid.imp_right And.left
  have htrailing : ¬(0xDC00 ≤ c.toNat ∧ c.toNat ≤ 0xDFFF) := by omega
  have hleading : ¬(0xD800 ≤ c.toNat ∧ c.toNat ≤ 0xDBFF) := by omega
  unfold codeEscape
  rw [read_bind_of_ok (read_codeUnit h), if_neg htrailing, if_neg hleading, read_pure,
    Char.ofNat_toNat]

lemma read_expectInString (flaw : Flaw) :
    (expectInString c flaw).read (c :: rest) = .ok ((), rest) := by
  have hnext : (next .endInString).read (c :: rest) = .ok (c, rest) := rfl
  unfold expectInString
  rw [read_bind_of_ok hnext, if_pos rfl]
  rfl

lemma read_codeEscape_surrogates {leading trailing : List Char} (hlarge : 0x10000 ≤ c.toNat)
    (hleading : UnitText leading (0xD800 + (c.toNat - 0x10000) / 0x400))
    (htrailing : UnitText trailing (0xDC00 + (c.toNat - 0x10000) % 0x400)) :
    codeEscape.read (leading ++ '\\' :: 'u' :: trailing ++ rest) = .ok (c, rest) := by
  have hbound : c.toNat < 0x110000 := by
    have hvalid : c.toNat < 0xD800 ∨ 0xDFFF < c.toNat ∧ c.toNat < 0x110000 := c.valid
    omega
  obtain ⟨high, hhigh⟩ : ∃ high, 0xD800 + (c.toNat - 0x10000) / 0x400 = high := ⟨_, rfl⟩
  obtain ⟨low, hlow⟩ : ∃ low, 0xDC00 + (c.toNat - 0x10000) % 0x400 = low := ⟨_, rfl⟩
  rw [hhigh] at hleading
  rw [hlow] at htrailing
  have hcode : (high - 0xD800) * 0x400 + (low - 0xDC00) + 0x10000 = c.toNat := by omega
  unfold codeEscape
  rw [List.append_assoc, read_bind_of_ok (read_codeUnit hleading), if_neg (by omega),
    if_pos (by omega), List.cons_append, List.cons_append,
    read_bind_of_ok (read_expectInString _), read_bind_of_ok (read_expectInString _),
    read_bind_of_ok (read_codeUnit htrailing), if_pos (by omega), read_pure, hcode, Char.ofNat_toNat]

section Unquote

variable {byCode : Reader Char}

lemma unquoteFrom_plain (hcontrol : 32 ≤ c.toNat) (hquote : c ≠ '"') (hbackslash : c ≠ '\\') :
    unquoteFrom byCode reversed (c :: rest) = unquoteFrom byCode (c :: reversed) rest := by
  rw [unquoteFrom, if_neg (Nat.not_lt.mpr hcontrol)]
  · exact fun heq => hquote heq
  · exact fun heq => hbackslash heq

lemma unquoteFrom_backslash (h : (escape byCode).read text = .ok (c, rest)) :
    unquoteFrom byCode reversed ('\\' :: text) = unquoteFrom byCode (c :: reversed) rest := by
  rw [unquoteFrom]
  split
  · next hread => exact absurd (hread.symm.trans h) (by simp)
  · next hread =>
    obtain ⟨rfl, rfl⟩ := Prod.mk.inj (Except.ok.inj (hread.symm.trans h))
    rfl

lemma unquoteFrom_letter {letter : Char} (h : (letter, c) ∈ escapeLetters) :
    unquoteFrom byCode reversed ('\\' :: letter :: rest) = unquoteFrom byCode (c :: reversed) rest := by
  have hall : ∀ pair ∈ escapeLetters, pair.1 ≠ 'u' ∧ letterEscape? pair.1 = some pair.2 := by decide
  obtain ⟨hu, hletter⟩ := hall _ h
  have hnext : (next .endInString).read (letter :: rest) = .ok (letter, rest) := rfl
  apply unquoteFrom_backslash
  unfold escape
  rw [read_bind_of_ok hnext, if_neg hu, hletter]
  rfl

lemma unquoteFrom_code (h : byCode.read text = .ok (c, rest)) :
    unquoteFrom byCode reversed ('\\' :: 'u' :: text) = unquoteFrom byCode (c :: reversed) rest := by
  have hnext : (next .endInString).read ('u' :: text) = .ok ('u', text) := rfl
  apply unquoteFrom_backslash
  unfold escape
  rw [read_bind_of_ok hnext, if_pos rfl, h]

end Unquote

/-- A character is read from any text of it. -/
theorem unquoteFrom_charText (h : CharText text c) :
    unquoteFrom codeEscape reversed (text ++ rest) = unquoteFrom codeEscape (c :: reversed) rest := by
  cases h with
  | plain hcontrol hquote hbackslash => exact unquoteFrom_plain hcontrol hquote hbackslash
  | letter h => exact unquoteFrom_letter h
  | code h => exact unquoteFrom_code (read_codeEscape_code h)
  | surrogates hlarge hleading htrailing =>
    exact unquoteFrom_code (read_codeEscape_surrogates hlarge hleading htrailing)

lemma unquoteFrom_charsText {cs : List Char} (h : CharsText text cs) :
    unquoteFrom codeEscape reversed (text ++ '"' :: rest) = .ok (reversed.reverse ++ cs, rest) := by
  induction h generalizing reversed with
  | nil => simp [unquoteFrom]
  | cons hchar _ ih =>
    rw [List.append_assoc, unquoteFrom_charText hchar, ih]
    simp

/-- The rest of a string spells it, up to the closing quote. -/
def Spells (spelling : List Char) (value : String) : Prop :=
  ∀ rest, string.read (spelling ++ rest) = .ok (value, rest)

lemma exists_spells {spelling : List Char} {value : String} (h : StringText spelling value) :
    ∃ tail, spelling = '"' :: tail ∧ Spells tail value := by
  cases h with
  | @intro chars _ hchars =>
    refine ⟨chars ++ ['"'], rfl, ?_⟩
    intro rest
    have hread : (unquote codeEscape).read (chars ++ '"' :: rest) = .ok (value.toList, rest) := by
      have hall := @unquoteFrom_charsText [] chars rest _ hchars
      rwa [List.reverse_nil, List.nil_append] at hall
    unfold string
    rw [List.append_assoc, List.singleton_append, read_bind_of_ok hread, read_pure,
      String.ofList_toList]

lemma takes_text {spelling : List Char} {value : String} (expected : String)
    (h : StringText spelling value) : (Reader.text expected).Takes spelling value := by
  obtain ⟨tail, rfl, hspells⟩ := exists_spells h
  refine .of_peekToken (by decide) ?_
  intro rest _
  rw [if_pos rfl, read_bind_of_ok (read_advance _ _)]
  exact hspells rest

lemma takes_quote (expected value : String) : (Reader.text expected).Takes (quote value) value :=
  takes_text expected (stringText_quote value)

end Strings

end Reader

end FixedSupply.Json
