import Mathlib.Data.List.DropRight
import Mathlib.Data.List.Induction
import Mathlib.Data.Nat.Digits.Lemmas
import FixedSupply.Amount

/-!
# The canonical encoding of amounts

The digits of an amount are the base 256 digits of a natural number, so the canonical encoding reads
back as the amount it was written for, and it is the only byte string that does so without a leading zero
byte. It is empty for zero alone. The words of an amount are its digits
in base 2³² in the same way.
-/

namespace FixedSupply.Amount

lemma digits_eq (base : ℕ) (one_lt : 1 < base) (n : ℕ) :
    digits base one_lt n = Nat.digits base n := by
  induction n using Nat.strong_induction_on with
  | _ n ih =>
    rw [digits]
    by_cases h : n = 0
    · simp [h]
    · have hpos : 0 < n := Nat.pos_of_ne_zero h
      rw [dif_neg h, ih (n / base) (Nat.div_lt_self hpos one_lt), ← Nat.digits_def' one_lt hpos]

/-- The digits of a number are those that it was put together from, without the high zeros. -/
lemma natDigits_ofDigits {base : ℕ} (one_lt : 1 < base) {ds : List ℕ} (h : ∀ d ∈ ds, d < base) :
    Nat.digits base (Nat.ofDigits base ds) = ds.rdropWhile (· == 0) := by
  induction ds using List.reverseRecOn with
  | nil => simp
  | append_singleton ds d ih =>
    by_cases hzero : d = 0
    · have hds : ∀ other ∈ ds, other < base := by
        intro other hother
        exact h other (List.mem_append_left _ hother)
      rw [hzero, Nat.ofDigits_append_zero, ih hds, List.rdropWhile_concat_pos _ _ _ (by simp)]
    · have hlast : ∀ hne : ds ++ [d] ≠ [], (ds ++ [d]).getLast hne ≠ 0 := by
        intro hne
        rwa [List.getLast_append_singleton]
      rw [Nat.digits_ofDigits _ one_lt _ h hlast,
        List.rdropWhile_concat_neg _ _ _ (by simpa using hzero)]

lemma value_eq_ofDigits (bytes : Bytes) :
    Bytes.value bytes = Nat.ofDigits 256 (bytes.reverse.map UInt8.toNat) := by
  induction bytes using List.reverseRecOn with
  | nil => rfl
  | append_singleton bytes byte ih =>
    have hlast : Bytes.value (bytes ++ [byte]) = Bytes.value bytes * 256 + byte.toNat := by
      simp [Bytes.value]
    rw [hlast, ih, List.reverse_append, List.reverse_singleton, List.singleton_append,
      List.map_cons, Nat.ofDigits_cons]
    omega

/-- Reading the canonical encoding of an amount gives the amount. -/
@[simp] theorem ofBytes_toBytes (amount : Amount) : ofBytes (toBytes amount) = amount := by
  have hdigit : ∀ d ∈ Nat.digits 256 amount, (UInt8.toNat ∘ UInt8.ofNat) d = id d := by
    intro d hd
    have hlt : d < 256 := Nat.digits_lt_base (by omega) hd
    exact UInt8.toNat_ofNat_of_lt' hlt
  rw [ofBytes, value_eq_ofDigits, toBytes, List.reverse_reverse, List.map_map, digits_eq,
    List.map_congr_left hdigit, List.map_id, Nat.ofDigits_digits]

@[simp] lemma toBytes_eq_nil_iff (amount : Amount) : toBytes amount = [] ↔ amount = 0 := by
  rw [toBytes, List.reverse_eq_nil_iff, List.map_eq_nil_iff, digits_eq,
    Nat.digits_eq_nil_iff_eq_zero]

/-- The canonical encoding has no leading zero byte. -/
lemma head?_toBytes_ne_zero (amount : Amount) : (toBytes amount).head? ≠ some 0 := by
  intro hhead
  rw [toBytes, List.head?_reverse, List.getLast?_map, digits_eq, Option.map_eq_some_iff] at hhead
  obtain ⟨d, hlast, hzero⟩ := hhead
  have hlt : d < 256 := Nat.digits_lt_base (by omega) (List.mem_of_getLast? hlast)
  have hd : d = 0 := by
    have hbyte := congrArg UInt8.toNat hzero
    rwa [UInt8.toNat_ofNat_of_lt' hlt] at hbyte
  obtain ⟨hne, hdigit⟩ := List.mem_getLast?_eq_getLast hlast
  have hamount : amount ≠ 0 := Nat.digits_ne_nil_iff_ne_zero.mp hne
  exact Nat.getLast_digit_ne_zero 256 hamount (hdigit.symm.trans hd)

/-- Of the bytes of an amount its canonical encoding keeps all but the leading zeros. -/
theorem toBytes_ofBytes (bytes : Bytes) : toBytes (ofBytes bytes) = bytes.dropWhile (· == 0) := by
  have hdigits : ∀ d ∈ bytes.reverse.map UInt8.toNat, d < 256 := by
    intro d hd
    obtain ⟨byte, -, rfl⟩ := List.mem_map.mp hd
    exact byte.toNat_lt
  have hzero : ((· == 0) ∘ UInt8.toNat : UInt8 → Bool) = (· == 0) := by
    funext byte
    simp [← UInt8.toNat_inj]
  have hbyte : ∀ byte ∈ bytes.dropWhile (· == 0), (UInt8.ofNat ∘ UInt8.toNat) byte = id byte := by
    intro byte _
    exact UInt8.ofNat_toNat
  rw [toBytes, ofBytes, value_eq_ofDigits, digits_eq, natDigits_ofDigits (by decide) hdigits,
    List.rdropWhile, List.map_reverse, List.reverse_reverse, ← List.map_reverse,
    List.reverse_reverse, List.dropWhile_map, hzero, List.map_map, List.map_congr_left hbyte,
    List.map_id]

lemma toBytes_ofBytes_of_head?_ne {bytes : Bytes} (h : bytes.head? ≠ some 0) :
    toBytes (ofBytes bytes) = bytes := by
  rw [toBytes_ofBytes]
  cases bytes with
  | nil => rfl
  | cons first rest =>
    have hfirst : first ≠ 0 := fun hzero => h (congrArg some hzero)
    exact List.dropWhile_cons_of_neg (by simpa using hfirst)

/-- The bytes are read as the amount, and no zero byte stands in front of them. -/
def Encodes (bytes : Bytes) (amount : Amount) : Prop :=
  ofBytes bytes = amount ∧ bytes.head? ≠ some 0

/-- An amount has one such byte string, its canonical encoding. -/
theorem encodes_iff {bytes : Bytes} {amount : Amount} : Encodes bytes amount ↔ bytes = toBytes amount := by
  constructor
  · rintro ⟨rfl, hhead⟩
    exact (toBytes_ofBytes_of_head?_ne hhead).symm
  · rintro rfl
    exact ⟨ofBytes_toBytes amount, head?_toBytes_ne_zero amount⟩

lemma encodes_toBytes (amount : Amount) : Encodes (toBytes amount) amount :=
  encodes_iff.mpr rfl

@[simp] lemma ofBytes_nil : ofBytes [] = 0 := rfl

lemma ofBytes_replicate_zero (count : ℕ) : ofBytes (List.replicate count 0) = 0 := by
  induction count with
  | zero => rfl
  | succ count ih =>
    rw [List.replicate_succ]
    exact ih

/-! ### Words -/

lemma ofWords_eq (words : List ℕ) : ofWords words = Nat.ofDigits wordBase words := by
  unfold ofWords ofDigits
  rw [Nat.ofDigits_eq_foldr]
  rfl

lemma words_lt {amount : Amount} {word : ℕ} (h : word ∈ words amount) : word < wordBase := by
  rw [words, digits_eq] at h
  exact Nat.digits_lt_base (by decide) h

lemma ofWords_words (amount : Amount) : ofWords (words amount) = amount := by
  rw [ofWords_eq, words, digits_eq, Nat.ofDigits_digits]

/-- The words of an amount are those that it was put together from, without the high zeros. -/
theorem words_ofWords {words : List ℕ} (h : ∀ word ∈ words, word < wordBase) :
    Amount.words (ofWords words) = words.rdropWhile (· == 0) := by
  rw [ofWords_eq, Amount.words, digits_eq, natDigits_ofDigits (by decide) h]

end FixedSupply.Amount
