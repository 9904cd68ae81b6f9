import FixedSupply.Proofs.AmountEncoding

/-!
# The order of encoded amounts

Byte strings of one length are ordered as the numbers that they write, and an amount fills more bytes than a
smaller one or as many, so canonical encodings are compared by their lengths and then byte by byte. Of all
byte strings with the value of an amount the canonical encoding is the shortest.
-/

namespace FixedSupply.Amount

variable {bytes xs ys : Bytes} {a b : Amount}

lemma value_cons (byte : UInt8) (bytes : Bytes) :
    Bytes.value (byte :: bytes) = byte.toNat * 256 ^ bytes.length + Bytes.value bytes := by
  rw [value_eq_ofDigits, value_eq_ofDigits, List.reverse_cons, List.map_append, Nat.ofDigits_append,
    List.length_map, List.length_reverse, List.map_singleton, Nat.ofDigits_singleton]
  ring

lemma value_lt (bytes : Bytes) : Bytes.value bytes < 256 ^ bytes.length := by
  have hdigits : ∀ d ∈ bytes.reverse.map UInt8.toNat, d < 256 := by
    intro d hd
    obtain ⟨byte, -, rfl⟩ := List.mem_map.mp hd
    exact byte.toNat_lt
  rw [value_eq_ofDigits]
  simpa using Nat.ofDigits_lt_base_pow_length (by decide) hdigits

/-- Byte strings of one length are ordered as their values. -/
lemma value_lt_value_iff (h : xs.length = ys.length) :
    Bytes.value xs < Bytes.value ys ↔ xs < ys := by
  induction xs generalizing ys with
  | nil =>
    obtain rfl : ys = [] := List.length_eq_zero_iff.mp h.symm
    simp
  | cons x xs ih =>
    obtain ⟨y, ys, rfl⟩ := List.exists_cons_of_length_eq_add_one h.symm
    have hlength : xs.length = ys.length := Nat.succ.inj h
    have hx := value_lt xs
    have hy := value_lt ys
    rw [hlength] at hx
    rw [value_cons, value_cons, List.cons_lt_cons_iff, ← ih hlength, UInt8.lt_iff_toNat_lt,
      ← UInt8.toNat_inj, hlength]
    -- The first bytes differ by a multiple of what the other bytes can make up.
    rcases Nat.lt_trichotomy x.toNat y.toNat with hlt | heq | hgt
    · have hstep := Nat.mul_le_mul_right (256 ^ ys.length) (Nat.succ_le_of_lt hlt)
      rw [Nat.succ_mul] at hstep
      exact iff_of_true (by omega) (.inl hlt)
    · rw [heq]
      omega
    · have hstep := Nat.mul_le_mul_right (256 ^ ys.length) (Nat.succ_le_of_lt hgt)
      rw [Nat.succ_mul] at hstep
      exact iff_of_false (by omega) (by omega)

lemma lt_length_toBytes_iff {n : ℕ} : n < (toBytes a).length ↔ 256 ^ n ≤ a := by
  rw [toBytes, List.length_reverse, List.length_map, digits_eq]
  exact Nat.lt_digits_length_iff (by decide) a

/-- Encodings are compared by their lengths, and byte by byte if these are equal. -/
theorem lt_iff_toBytes : a < b ↔ (toBytes a).length < (toBytes b).length ∨
    ((toBytes a).length = (toBytes b).length ∧ toBytes a < toBytes b) := by
  have hbelow (n : Amount) : n < 256 ^ (toBytes n).length :=
    Nat.lt_of_not_le fun hle => Nat.lt_irrefl _ (lt_length_toBytes_iff.mpr hle)
  rcases Nat.lt_trichotomy (toBytes a).length (toBytes b).length with hlt | heq | hgt
  · have hle : 256 ^ (toBytes a).length ≤ b := lt_length_toBytes_iff.mp hlt
    exact iff_of_true (Nat.lt_of_lt_of_le (hbelow a) hle) (.inl hlt)
  · have hvalues := value_lt_value_iff heq
    rw [← ofBytes, ← ofBytes, ofBytes_toBytes, ofBytes_toBytes] at hvalues
    rw [hvalues]
    simp [heq]
  · have hle : 256 ^ (toBytes b).length ≤ a := lt_length_toBytes_iff.mp hgt
    have hba : b < a := Nat.lt_of_lt_of_le (hbelow b) hle
    exact iff_of_false (Nat.lt_asymm hba) (by omega)

lemma length_toBytes_lt_of_ne (h : bytes ≠ toBytes (ofBytes bytes)) :
    (toBytes (ofBytes bytes)).length < bytes.length := by
  rw [toBytes_ofBytes] at h ⊢
  have hsuffix := List.dropWhile_suffix (l := bytes) (· == 0)
  refine Nat.lt_of_le_of_ne hsuffix.length_le ?_
  intro hlength
  exact h (hsuffix.eq_of_length hlength).symm

lemma sub?_eq_none_iff : sub? a b = none ↔ a < b := by
  unfold sub?
  by_cases hle : b ≤ a
  · simp [hle]
  · simp [hle, Nat.lt_of_not_le hle]

lemma sub?_eq_some_iff {c : Amount} : sub? a b = some c ↔ c + b = a := by
  unfold sub?
  by_cases hle : b ≤ a
  · rw [if_pos hle, Option.some.injEq]
    exact (Nat.sub_eq_iff_eq_add hle).trans eq_comm
  · rw [if_neg hle]
    refine iff_of_false (by simp) ?_
    rintro rfl
    exact hle (Nat.le_add_left b c)

/-- An amount is read back from its encoding, which is shorter than every other byte string of that value, has
no zero byte in front, and is empty for zero alone. Any byte string is written anew without its leading
zeros. Encodings are ordered by length and then byte by byte, and a difference is defined unless it would
fall below zero, and then unique. -/
theorem encoding_canonical :
    (∀ amount : Amount, ofBytes (toBytes amount) = amount ∧
      (∀ bytes, ofBytes bytes = amount → bytes ≠ toBytes amount →
        (toBytes amount).length < bytes.length) ∧
      (toBytes amount).head? ≠ some 0 ∧ (toBytes amount = [] ↔ amount = 0)) ∧
      (∀ bytes, toBytes (ofBytes bytes) = bytes.dropWhile (· == 0)) ∧
      ∀ a b : Amount,
        (a < b ↔ (toBytes a).length < (toBytes b).length ∨
          ((toBytes a).length = (toBytes b).length ∧ toBytes a < toBytes b)) ∧
        (sub? a b = none ↔ a < b) ∧ ∀ c, sub? a b = some c ↔ c + b = a := by
  refine ⟨?_, toBytes_ofBytes, ?_⟩
  · intro amount
    refine ⟨ofBytes_toBytes amount, ?_, head?_toBytes_ne_zero amount, toBytes_eq_nil_iff amount⟩
    rintro bytes rfl hne
    exact length_toBytes_lt_of_ne hne
  · intro a b
    exact ⟨lt_iff_toBytes, sub?_eq_none_iff, fun c => sub?_eq_some_iff⟩

/-- A thousand with a zero byte in front is one byte longer than its encoding. -/
theorem encoding_canonical_of_padded : ofBytes [0, 3, 232] = 1000 ∧
    [0, 3, 232] ≠ toBytes 1000 ∧ (toBytes 1000).length < 3 := by
  have hvalue : ofBytes [0, 3, 232] = 1000 := by decide
  have hne : [0, 3, 232] ≠ toBytes 1000 := by
    intro heq
    exact head?_toBytes_ne_zero 1000 (by rw [← heq]; rfl)
  exact ⟨hvalue, hne, (encoding_canonical.1 1000).2.1 _ hvalue hne⟩

end FixedSupply.Amount
