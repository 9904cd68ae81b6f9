import FixedSupply.Bytes.Hex
import FixedSupply.Proofs.FirstFaults

/-!
# Spellings of byte strings

A byte string is spelled by two digits for each byte, in lower or in upper case, and the decoder accepts
exactly these spellings. What it reports of any other text is its odd length, or else the first byte that is
no digit, where a character of several bytes has none that is. The encoder writes the one spelling in lower
case.
-/

namespace FixedSupply.Hex

/-- The character is the digit of a number below sixteen, in lower or in upper case. -/
def Digit (c : Char) (n : ℕ) : Prop :=
  n < 16 ∧ (c = Nat.digitChar n ∨ c = (Nat.digitChar n).toUpper)

/-- The byte is the code of a digit. -/
def IsDigit (byte : UInt8) : Prop :=
  ∃ c n, Digit c n ∧ c.toNat = byte.toNat

/-- Two digits for each byte. -/
inductive Spells : List Char → Bytes → Prop where
  | nil : Spells [] []
  | cons {high low : Char} {text : List Char} {byte : UInt8} {bytes : Bytes}
    (hhigh : Digit high (byte.toNat / 16)) (hlow : Digit low (byte.toNat % 16))
    (h : Spells text bytes) : Spells (high :: low :: text) (byte :: bytes)

/-- The text spells the bytes in lower case. -/
def SpellsLower (text : List Char) (bytes : Bytes) : Prop :=
  Spells text bytes ∧ ∀ c ∈ text, c.isUpper = false

/-- The byte at a position is the first that is no digit. -/
inductive FirstBad : Bytes → ℕ → UInt8 → Prop where
  | here {byte : UInt8} {rest : Bytes} (h : ¬IsDigit byte) : FirstBad (byte :: rest) 0 byte
  | later {first byte : UInt8} {rest : Bytes} {position : ℕ} (hfirst : IsDigit first)
    (h : FirstBad rest position byte) : FirstBad (first :: rest) (position + 1) byte

/-- The first flaw of a text: its length, or else its first byte that is no digit. -/
inductive Flawed (text : String) : Flaw → Prop where
  | oddLength (h : (Bytes.ofString text).length % 2 = 1) : Flawed text .oddLength
  | badDigit {position : ℕ} {byte : UInt8} (heven : (Bytes.ofString text).length % 2 = 0)
    (h : FirstBad (Bytes.ofString text) position byte) : Flawed text (.badDigit byte position)

section Digits

variable {c : Char} {n : ℕ} {byte : UInt8}

lemma digit_iff : Digit c n ↔ n < 16 ∧
    (n < 10 ∧ c.toNat = n + 48 ∨ 10 ≤ n ∧ (c.toNat = n + 87 ∨ c.toNat = n + 55)) := by
  have hlower : ∀ m < 16, (Nat.digitChar m).toNat = if m < 10 then m + 48 else m + 87 := by decide
  have hupper : ∀ m < 16, (Nat.digitChar m).toUpper.toNat = if m < 10 then m + 48 else m + 55 := by
    decide
  unfold Digit
  refine and_congr_right ?_
  intro hn
  rw [← Char.toNat_inj, ← Char.toNat_inj, hlower n hn, hupper n hn]
  split <;> omega

lemma digit_digitChar (h : n < 16) : Digit (Nat.digitChar n) n := ⟨h, .inl rfl⟩

lemma Digit.toNat_lt (h : Digit c n) : c.toNat < 128 := by
  obtain ⟨hn, hc⟩ := digit_iff.mp h
  omega

lemma exists_toNat_eq (byte : UInt8) : ∃ c : Char, c.toNat = byte.toNat := by
  have hlt := byte.toNat_lt
  have hvalid : byte.toNat.isValidChar := .inl (by omega)
  exact ⟨Char.ofNatAux byte.toNat hvalid, rfl⟩

lemma digitValue?_eq_some_iff :
    digitValue? byte = some n ↔ ∃ c, Digit c n ∧ c.toNat = byte.toNat := by
  obtain ⟨c, hc⟩ := exists_toNat_eq byte
  have hdigit : (∃ d, Digit d n ∧ d.toNat = byte.toNat) ↔ Digit c n := by
    constructor
    · rintro ⟨d, hd, hcode⟩
      obtain rfl : d = c := Char.toNat_inj.mp (hcode.trans hc.symm)
      exact hd
    · intro hd
      exact ⟨c, hd, hc⟩
  rw [hdigit, digit_iff, hc]
  unfold digitValue?
  dsimp only
  split_ifs with hdecimal hupper hlower
  · rw [Option.some.injEq]
    omega
  · rw [Option.some.injEq]
    omega
  · rw [Option.some.injEq]
    omega
  · refine iff_of_false (by simp) ?_
    omega

lemma isDigit_of_digitValue? (h : digitValue? byte = some n) : IsDigit byte := by
  obtain ⟨c, hc⟩ := digitValue?_eq_some_iff.mp h
  exact ⟨c, n, hc⟩

lemma not_isDigit_of_digitValue? (h : digitValue? byte = none) : ¬IsDigit byte := by
  rintro ⟨c, n, hdigit⟩
  have hsome : digitValue? byte = some n := digitValue?_eq_some_iff.mpr ⟨c, hdigit⟩
  exact absurd (h.symm.trans hsome) (by simp)

end Digits

section Encoding

variable {c : Char} {n : ℕ} {text : List Char} {bytes : Bytes}

lemma isUpper_digitChar (h : n < 16) : (Nat.digitChar n).isUpper = false := by
  have hlower : ∀ m < 16, (Nat.digitChar m).isUpper = false := by decide
  exact hlower n h

lemma Digit.eq_digitChar (h : Digit c n) (hlower : c.isUpper = false) : c = Nat.digitChar n := by
  have hupper : ∀ m < 16, (Nat.digitChar m).toUpper.isUpper = false →
      (Nat.digitChar m).toUpper = Nat.digitChar m := by decide
  obtain ⟨hn, rfl | rfl⟩ := h
  · rfl
  · exact hupper n hn hlower

lemma toList_encode_cons (byte : UInt8) (bytes : Bytes) :
    (encode (byte :: bytes)).toList =
      Nat.digitChar (byte.toNat / 16) :: Nat.digitChar (byte.toNat % 16) :: (encode bytes).toList := by
  simp [encode]

lemma spellsLower_encode (bytes : Bytes) : SpellsLower (encode bytes).toList bytes := by
  induction bytes with
  | nil => exact ⟨.nil, fun c hc => absurd hc List.not_mem_nil⟩
  | cons byte bytes ih =>
    obtain ⟨hspells, hlower⟩ := ih
    have hhigh : byte.toNat / 16 < 16 := Nat.div_lt_of_lt_mul byte.toNat_lt
    have hlow : byte.toNat % 16 < 16 := Nat.mod_lt _ (by decide)
    rw [toList_encode_cons]
    refine ⟨.cons (digit_digitChar hhigh) (digit_digitChar hlow) hspells, ?_⟩
    exact List.forall_mem_cons.mpr ⟨isUpper_digitChar hhigh,
      List.forall_mem_cons.mpr ⟨isUpper_digitChar hlow, hlower⟩⟩

/-- Of the spellings of a byte string the encoder writes the one in lower case. -/
theorem spellsLower_iff : SpellsLower text bytes ↔ text = (encode bytes).toList := by
  constructor
  · rintro ⟨hspells, hlower⟩
    induction hspells with
    | nil => rfl
    | cons hhigh hlow _ ih =>
      obtain ⟨hfirst, hrest⟩ := List.forall_mem_cons.mp hlower
      obtain ⟨hsecond, hrest⟩ := List.forall_mem_cons.mp hrest
      rw [toList_encode_cons, hhigh.eq_digitChar hfirst, hlow.eq_digitChar hsecond, ih hrest]
  · rintro rfl
    exact spellsLower_encode bytes

end Encoding

section Codes

variable {c : Char} {byte : UInt8} {text : List Char} {rest : Bytes}

lemma utf8EncodeChar_of_lt (h : c.toNat < 128) :
    String.utf8EncodeChar c = [UInt8.ofNat c.toNat] := by
  have hle : c.val.toNat ≤ 127 := by
    rw [Char.toNat_val]
    omega
  unfold String.utf8EncodeChar
  rw [if_pos hle, Char.toNat_val]

/-- A character of several bytes has none below 128. -/
lemma le_of_mem_utf8EncodeChar (h : 128 ≤ c.toNat) (hmem : byte ∈ String.utf8EncodeChar c) :
    128 ≤ byte.toNat := by
  rw [← Char.toNat_val] at h
  unfold String.utf8EncodeChar at hmem
  dsimp only at hmem
  have hsmall {n : ℕ} (hn : 128 ≤ n % 256) : 128 ≤ (UInt8.ofNat n).toNat := by
    rwa [UInt8.toNat_ofNat']
  split_ifs at hmem with hone htwo hthree
  · omega
  · simp only [List.mem_cons, List.not_mem_nil, or_false] at hmem
    rcases hmem with rfl | rfl
    · exact hsmall (by omega)
    · exact hsmall (by omega)
  · simp only [List.mem_cons, List.not_mem_nil, or_false] at hmem
    rcases hmem with rfl | rfl | rfl
    · exact hsmall (by omega)
    · exact hsmall (by omega)
    · exact hsmall (by omega)
  · simp only [List.mem_cons, List.not_mem_nil, or_false] at hmem
    rcases hmem with rfl | rfl | rfl | rfl
    · exact hsmall (by omega)
    · exact hsmall (by omega)
    · exact hsmall (by omega)
    · exact hsmall (by omega)

lemma utf8EncodeChar_ne_nil (c : Char) : String.utf8EncodeChar c ≠ [] := by
  unfold String.utf8EncodeChar
  dsimp only
  split_ifs <;> simp

lemma Digit.toNat_ofNat {n : ℕ} (h : Digit c n) : (UInt8.ofNat c.toNat).toNat = c.toNat :=
  UInt8.toNat_ofNat_of_lt' (Nat.lt_trans h.toNat_lt (by decide))

/-- A text whose first byte is the code of a digit starts with that digit. -/
lemma exists_digit_of_utf8 (h : text.flatMap String.utf8EncodeChar = byte :: rest) {n : ℕ}
    (hvalue : digitValue? byte = some n) :
    ∃ c tail, text = c :: tail ∧ Digit c n ∧ tail.flatMap String.utf8EncodeChar = rest := by
  obtain ⟨d, hd, hcode⟩ := digitValue?_eq_some_iff.mp hvalue
  cases text with
  | nil => exact absurd h (by simp)
  | cons c tail =>
    rw [List.flatMap_cons] at h
    obtain ⟨first, others, hform⟩ := List.exists_cons_of_ne_nil (utf8EncodeChar_ne_nil c)
    rw [hform, List.cons_append] at h
    obtain ⟨rfl, hrest⟩ := List.cons.inj h
    -- A larger character would have a first byte above every digit.
    have hsmall : c.toNat < 128 := by
      by_contra hlarge
      have hfirst := le_of_mem_utf8EncodeChar (Nat.le_of_not_lt hlarge)
        (hform ▸ List.mem_cons_self)
      have := hd.toNat_lt
      omega
    rw [utf8EncodeChar_of_lt hsmall] at hform
    obtain ⟨rfl, rfl⟩ := List.cons.inj hform
    have hsame : d = c := by
      apply Char.toNat_inj.mp
      rw [hcode, UInt8.toNat_ofNat_of_lt' (Nat.lt_trans hsmall (by decide))]
    exact ⟨c, tail, rfl, hsame ▸ hd, hrest⟩

end Codes

section Decoding

variable {text : List Char} {digits bytes : Bytes} {position : ℕ}

lemma digitValue?_of_digit {c : Char} {n : ℕ} (h : Digit c n) :
    digitValue? (UInt8.ofNat c.toNat) = some n :=
  digitValue?_eq_some_iff.mpr ⟨c, h, h.toNat_ofNat.symm⟩

lemma decodePairs_of_spells (h : Spells text bytes) (position : ℕ) :
    (text.flatMap String.utf8EncodeChar).length % 2 = 0 ∧
      decodePairs position (text.flatMap String.utf8EncodeChar) = .ok bytes := by
  induction h generalizing position with
  | nil => exact ⟨rfl, rfl⟩
  | @cons high low text byte bytes hhigh hlow _ ih =>
    obtain ⟨heven, hdecode⟩ := ih (position + 2)
    have hbyte : UInt8.ofNat (16 * (byte.toNat / 16) + byte.toNat % 16) = byte := by
      rw [Nat.div_add_mod, UInt8.ofNat_toNat]
    rw [List.flatMap_cons, List.flatMap_cons, utf8EncodeChar_of_lt hhigh.toNat_lt,
      utf8EncodeChar_of_lt hlow.toNat_lt, List.singleton_append, List.singleton_append]
    refine ⟨?_, ?_⟩
    · rw [List.length_cons, List.length_cons]
      omega
    · rw [decodePairs, digitValue?_of_digit hhigh, digitValue?_of_digit hlow]
      dsimp only
      rw [hdecode, hbyte]
      rfl

lemma spells_of_decodePairs (h : decodePairs position digits = .ok bytes)
    (heven : digits.length % 2 = 0) (htext : text.flatMap String.utf8EncodeChar = digits) :
    Spells text bytes := by
  fun_induction decodePairs position digits generalizing text bytes with
  | case1 => exact absurd h (by simp)
  | case2 => exact absurd h (by simp)
  | case3 position high low rest m n hlow hhigh ih =>
    obtain ⟨tail, hrest, rfl⟩ := map_eq_ok_iff.mp h
    obtain ⟨c, others, rfl, hc, hothers⟩ := exists_digit_of_utf8 htext hhigh
    obtain ⟨d, others, rfl, hd, hothers⟩ := exists_digit_of_utf8 hothers hlow
    have hlength : rest.length % 2 = 0 := by
      rw [List.length_cons, List.length_cons] at heven
      omega
    have hm := hc.1
    have hn := hd.1
    have hvalue : (UInt8.ofNat (16 * m + n)).toNat = 16 * m + n :=
      UInt8.toNat_ofNat_of_lt' (by change _ < 256; omega)
    refine .cons ?_ ?_ (ih hrest hlength hothers)
    · rwa [hvalue, show (16 * m + n) / 16 = m by omega]
    · rwa [hvalue, show (16 * m + n) % 16 = n by omega]
  | case4 digits position hshort =>
    obtain rfl : [] = bytes := Except.ok.inj h
    have hnil : digits = [] := by
      cases digits with
      | nil => rfl
      | cons high rest =>
        cases rest with
        | nil => exact absurd heven (by simp)
        | cons low rest => exact absurd rfl (hshort high low rest)
    subst hnil
    cases text with
    | nil => exact .nil
    | cons c tail =>
      rw [List.flatMap_cons, List.append_eq_nil_iff] at htext
      exact absurd htext.1 (utf8EncodeChar_ne_nil c)

/-- The decoder of an even number of bytes reports the first of them that is no digit. -/
lemma decodePairs_eq_error_iff {flaw : Flaw} (heven : digits.length % 2 = 0) :
    decodePairs position digits = .error flaw ↔
      ∃ offset byte, FirstBad digits offset byte ∧ flaw = .badDigit byte (position + offset) := by
  fun_induction decodePairs position digits with
  | case1 position high low rest hhigh =>
    have hbad := not_isDigit_of_digitValue? hhigh
    constructor
    · rintro ⟨⟩
      exact ⟨0, high, .here hbad, rfl⟩
    · rintro ⟨offset, byte, hfirst, rfl⟩
      cases hfirst with
      | here => rfl
      | later hdigit => exact absurd hdigit hbad
  | case2 position high low rest m hlow hhigh =>
    have hgood := isDigit_of_digitValue? hhigh
    have hbad := not_isDigit_of_digitValue? hlow
    constructor
    · rintro ⟨⟩
      exact ⟨1, low, .later hgood (.here hbad), rfl⟩
    · rintro ⟨offset, byte, hfirst, rfl⟩
      cases hfirst with
      | here hnot => exact absurd hgood hnot
      | later _ hfirst =>
        cases hfirst with
        | here => rfl
        | later hdigit => exact absurd hdigit hbad
  | case3 position high low rest m n hlow hhigh ih =>
    have hlength : rest.length % 2 = 0 := by
      rw [List.length_cons, List.length_cons] at heven
      omega
    have hgood := isDigit_of_digitValue? hhigh
    have hgoodLow := isDigit_of_digitValue? hlow
    rw [map_eq_error_iff, ih hlength]
    constructor
    · rintro ⟨offset, byte, hfirst, rfl⟩
      refine ⟨offset + 2, byte, .later hgood (.later hgoodLow hfirst), ?_⟩
      rw [Nat.add_assoc, Nat.add_comm 2]
    · rintro ⟨offset, byte, hfirst, rfl⟩
      cases hfirst with
      | here hnot => exact absurd hgood hnot
      | later _ hfirst =>
        cases hfirst with
        | here hnot => exact absurd hgoodLow hnot
        | @later _ _ _ offset _ hfirst =>
          refine ⟨offset, byte, hfirst, ?_⟩
          rw [Nat.add_assoc position, Nat.add_comm 2]
  | case4 digits position hshort =>
    refine iff_of_false (by simp) ?_
    rintro ⟨offset, byte, hfirst, -⟩
    cases hfirst with
    | @here _ rest _ =>
      cases rest with
      | nil => exact absurd heven (by simp)
      | cons low rest => exact absurd rfl (hshort _ low rest)
    | @later _ _ rest _ _ _ =>
      cases rest with
      | nil => exact absurd heven (by simp)
      | cons low rest => exact absurd rfl (hshort _ low rest)

variable {text : String}

/-- The decoder accepts exactly the spellings of a byte string. -/
theorem decode_eq_ok_iff : decode text = .ok bytes ↔ Spells text.toList bytes := by
  unfold decode
  dsimp only
  constructor
  · intro h
    split at h
    · exact absurd h (by simp)
    · next hodd => exact spells_of_decodePairs h (by omega) rfl
  · intro h
    obtain ⟨heven, hdecode⟩ := decodePairs_of_spells h 0
    have hodd : ¬(Bytes.ofString text).length % 2 = 1 := by
      rw [Bytes.ofString, heven]
      decide
    rw [if_neg hodd]
    exact hdecode

theorem decode_eq_error_iff {flaw : Flaw} : decode text = .error flaw ↔ Flawed text flaw := by
  unfold decode
  dsimp only
  split
  · next hodd =>
    constructor
    · rintro ⟨⟩
      exact .oddLength hodd
    · rintro (_ | ⟨heven, -⟩)
      · rfl
      · omega
  · next hodd =>
    have heven : (Bytes.ofString text).length % 2 = 0 := by omega
    rw [decodePairs_eq_error_iff heven]
    constructor
    · rintro ⟨offset, byte, hfirst, rfl⟩
      rw [Nat.zero_add]
      exact .badDigit heven hfirst
    · rintro (hlength | ⟨-, hfirst⟩)
      · exact absurd hlength hodd
      · exact ⟨_, _, hfirst, by rw [Nat.zero_add]⟩

lemma exists_firstBad_iff : (∃ offset byte, FirstBad digits offset byte) ↔
    ∃ byte ∈ digits, ¬IsDigit byte := by
  constructor
  · rintro ⟨offset, byte, h⟩
    induction h with
    | here h => exact ⟨_, List.mem_cons_self, h⟩
    | later _ _ ih =>
      obtain ⟨byte, hmem, hbad⟩ := ih
      exact ⟨byte, List.mem_cons_of_mem _ hmem, hbad⟩
  · rintro ⟨byte, hmem, hbad⟩
    induction digits with
    | nil => exact absurd hmem List.not_mem_nil
    | cons first rest ih =>
      by_cases hfirst : IsDigit first
      · rcases List.mem_cons.mp hmem with rfl | hmem
        · exact absurd hfirst hbad
        · obtain ⟨offset, other, hrest⟩ := ih hmem
          exact ⟨offset + 1, other, .later hfirst hrest⟩
      · exact ⟨0, first, .here hfirst⟩

/-- A text is flawed if its length is odd or any of its bytes is no digit. -/
lemma exists_flawed_iff : (∃ flaw, Flawed text flaw) ↔
    (Bytes.ofString text).length % 2 = 1 ∨ ∃ byte ∈ Bytes.ofString text, ¬IsDigit byte := by
  rw [← exists_firstBad_iff]
  constructor
  · rintro ⟨flaw, hlength | ⟨-, hfirst⟩⟩
    · exact .inl hlength
    · exact .inr ⟨_, _, hfirst⟩
  · rintro (hlength | ⟨offset, byte, hfirst⟩)
    · exact ⟨_, .oddLength hlength⟩
    · by_cases hlength : (Bytes.ofString text).length % 2 = 1
      · exact ⟨_, .oddLength hlength⟩
      · exact ⟨_, .badDigit (by omega) hfirst⟩

end Decoding

end FixedSupply.Hex
