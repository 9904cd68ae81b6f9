import FixedSupply.Proofs.AmountOrder
import FixedSupply.Proofs.BinaryForms
import FixedSupply.Proofs.EntryPointRuns

/-!
# Signed arguments

A signed argument of at most eight bytes is read as the number that it writes in two's complement. The
sign byte in front of a byte string does not change that number, so the argument may first be continued
to a word of eight bytes; the number of a word lies in the range of 64 bits.
-/

namespace FixedSupply

open Contract (signByte signedValue)

namespace Bytes

/-- The first bit is set. -/
def negative (bytes : Bytes) : Bool :=
  bytes.head?.any fun first => first.toNat.testBit 7

/-- The number that the bytes write in two's complement, zero for no bytes. -/
def signed (bytes : Bytes) : ℤ :=
  if bytes.negative then (value bytes : ℤ) - 256 ^ bytes.length else value bytes

/-- The eight bytes of a signed 64-bit number, most significant byte first. -/
def ofInt64 (number : Int64) : Bytes :=
  (Binary.littleEndian 8 number.toUInt64.toNat).reverse

variable (bytes : Bytes)

/-- The first bit is set in the upper half of the byte strings of a length. -/
lemma negative_iff : bytes.negative = true ↔ 256 ^ bytes.length ≤ 2 * value bytes := by
  cases bytes with
  | nil => decide
  | cons first rest =>
    have hrest := Amount.value_lt rest
    have hfirst := first.toNat_lt
    have hnegative : negative (first :: rest) = first.toNat.testBit 7 := rfl
    rw [hnegative, Amount.value_cons, List.length_cons, Nat.pow_succ, Nat.testBit_eq_decide_div_mod_eq,
      decide_eq_true_iff]
    by_cases hbit : 128 ≤ first.toNat
    · have hupper := Nat.mul_le_mul_right (256 ^ rest.length) hbit
      exact iff_of_true (by omega) (by omega)
    · have hlower := Nat.mul_le_mul_right (256 ^ rest.length) (Nat.le_of_lt_succ (Nat.lt_of_not_le hbit))
      exact iff_of_false (by omega) (by omega)

/-- The number of a byte string is its value modulo the count of the byte strings of its length, next
to zero. -/
lemma bmod_value : (value bytes : ℤ).bmod (256 ^ bytes.length) = signed bytes := by
  have hlt := Amount.value_lt bytes
  have hsigned : signed bytes =
      if 256 ^ bytes.length ≤ 2 * value bytes then (value bytes : ℤ) - (256 ^ bytes.length : ℕ)
      else value bytes := by
    rw [signed, Nat.cast_pow]
    exact if_congr bytes.negative_iff rfl rfl
  rw [hsigned]
  generalize 256 ^ bytes.length = count at hlt
  have hmod : (value bytes : ℤ) % count = value bytes :=
    Int.emod_eq_of_lt (Int.natCast_nonneg _) (by exact_mod_cast hlt)
  rw [Int.bmod_def, hmod]
  by_cases hupper : count ≤ 2 * value bytes
  · rw [if_neg (by omega), if_pos hupper]
  · rw [if_pos (by omega), if_neg hupper]

lemma signByte_eq : signByte bytes = if bytes.negative then 0xFF else 0x00 := by
  cases bytes with
  | nil => rfl
  | cons first rest =>
    have hnegative : negative (first :: rest) = decide (0x80 ≤ first) := by
      have hfirst := first.toNat_lt
      change first.toNat.testBit 7 = _
      rw [Nat.testBit_eq_decide_div_mod_eq, decide_eq_decide, UInt8.le_iff_toNat_le]
      change _ ↔ 128 ≤ first.toNat
      omega
    rw [hnegative]
    simp [signByte]

lemma negative_cons_signByte : negative (signByte bytes :: bytes) = bytes.negative := by
  rw [signByte_eq]
  cases bytes.negative with
  | true => rfl
  | false => rfl

/-- The sign byte in front of a byte string keeps its number. -/
theorem signed_cons_signByte : signed (signByte bytes :: bytes) = signed bytes := by
  unfold signed
  rw [negative_cons_signByte, Amount.value_cons, List.length_cons, signByte_eq]
  cases bytes.negative with
  | true =>
    have hbyte : (0xFF : UInt8).toNat = 255 := rfl
    simp only [if_true, hbyte]
    push_cast
    ring
  | false =>
    have hbyte : (0x00 : UInt8).toNat = 0 := rfl
    simp [hbyte]

lemma signByte_cons_signByte (rest : Bytes) : signByte (signByte bytes :: rest) = signByte bytes := by
  rw [signByte_eq bytes]
  cases bytes.negative with
  | true => rfl
  | false => rfl

/-- Bytes that are continued with their sign byte keep their number. -/
lemma signed_continued (count : ℕ) :
    signed (List.replicate count (signByte bytes) ++ bytes) = signed bytes := by
  induction count with
  | zero => rfl
  | succ count ih =>
    -- What is continued already has the sign byte of the bytes, so one step more is one sign byte in front.
    have hsign : signByte (List.replicate count (signByte bytes) ++ bytes) = signByte bytes := by
      cases count with
      | zero => rfl
      | succ count => exact bytes.signByte_cons_signByte _
    have hstep := signed_cons_signByte (List.replicate count (signByte bytes) ++ bytes)
    rw [hsign, ih] at hstep
    exact hstep

lemma length_ofInt64 (number : Int64) : (ofInt64 number).length = 8 := by
  rw [ofInt64, List.length_reverse, Binary.length_littleEndian]

lemma value_ofInt64 (number : Int64) : value (ofInt64 number) = number.toUInt64.toNat := by
  rw [ofInt64, Amount.value_eq_ofDigits, List.reverse_reverse, Binary.ofDigits_littleEndian]
  exact Nat.mod_eq_of_lt number.toUInt64.toNat_lt

end Bytes

lemma toInt_toInt64 (number : UInt64) : number.toInt64.toInt = (number.toNat : ℤ).bmod (2 ^ 64) := by
  change number.toInt64.toBitVec.toInt = _
  rw [UInt64.toBitVec_toInt64, BitVec.toInt_eq_toNat_bmod]
  rfl

namespace Contract

variable {bytes : Bytes}

/-- The word of eight bytes that an argument is continued to. -/
def word (bytes : Bytes) : Bytes :=
  List.replicate (int64Bytes - bytes.length) (signByte bytes) ++ bytes

lemma length_word (h : bytes.length ≤ 8) : (word bytes).length = 8 := by
  rw [word, List.length_append, List.length_replicate]
  exact Nat.sub_add_cancel h

/-- The word is read without a loss, so the number of the bytes is read. -/
theorem toInt_signedValue (h : bytes.length ≤ 8) : (signedValue bytes).toInt = bytes.signed := by
  have hlength := length_word h
  have hvalue := Amount.value_lt (word bytes)
  rw [hlength] at hvalue
  have hword : (UInt64.ofNat (word bytes).value).toNat = (word bytes).value :=
    UInt64.toNat_ofNat_of_lt' hvalue
  have hbmod := (word bytes).bmod_value
  rw [hlength] at hbmod
  change (UInt64.ofNat (word bytes).value).toInt64.toInt = _
  rw [toInt_toInt64, hword]
  exact hbmod.trans (bytes.signed_continued _)

lemma signedValue_cons_signByte (h : bytes.length < 8) :
    signedValue (signByte bytes :: bytes) = signedValue bytes := by
  have hlength : (signByte bytes :: bytes).length ≤ 8 := h
  apply Int64.toInt_inj.mp
  rw [toInt_signedValue hlength, toInt_signedValue h.le, Bytes.signed_cons_signByte]

lemma signedValue_ofInt64 (number : Int64) : signedValue (Bytes.ofInt64 number) = number := by
  have hword : word (Bytes.ofInt64 number) = Bytes.ofInt64 number := by
    rw [word, Bytes.length_ofInt64]
    rfl
  change (UInt64.ofNat (word (Bytes.ofInt64 number)).value).toInt64 = number
  rw [hword, Bytes.value_ofInt64, UInt64.ofNat_toNat, Int64.toInt64_toUInt64]

end Contract

open Contract

namespace Host

variable {host : Host} {index : ℕ}

lemma run_argumentInt64 (host : Host) (index : ℕ) :
    host.run (argumentInt64 index).run =
      (match host.context.arguments[index]? with
        | none => .error (.invalidArgument index .outOfRange)
        | some bytes =>
          if 8 < bytes.length then .error (.invalidArgument index .tooWide)
          else .ok (signedValue bytes), host) := by
  unfold argumentInt64
  cases hget : host.context.arguments[index]? with
  | none =>
    have hbytes := host.run_argumentBytes_eq index
    rw [hget] at hbytes
    exact run_bind_of_error _ hbytes
  | some bytes =>
    rw [run_bind_of_ok _ (run_argumentBytes rfl hget)]
    by_cases hwide : int64Bytes < bytes.length
    · have hlong : 8 < bytes.length := hwide
      simp only [hwide, hlong, if_true]
      rfl
    · have hshort : ¬8 < bytes.length := hwide
      simp only [hwide, hshort, if_false]
      rfl

lemma argumentInt64_eq_ok {bytes : Bytes} (hget : host.context.arguments[index]? = some bytes)
    (h : bytes.length ≤ 8) : (host.run (argumentInt64 index).run).1 = .ok (signedValue bytes) := by
  rw [run_argumentInt64, hget]
  exact if_neg (Nat.not_lt.mpr h)

lemma argumentInt64_eq_error_iff {fault : Fault} :
    (host.run (argumentInt64 index).run).1 = .error fault ↔
      fault = .invalidArgument index .outOfRange ∧ host.context.arguments.length ≤ index ∨
        fault = .invalidArgument index .tooWide ∧
          ∃ bytes, host.context.arguments[index]? = some bytes ∧ 8 < bytes.length := by
  rw [run_argumentInt64]
  cases hget : host.context.arguments[index]? with
  | none =>
    have hout : host.context.arguments.length ≤ index := List.getElem?_eq_none_iff.mp hget
    simp [hout, eq_comm]
  | some bytes =>
    have hin : ¬host.context.arguments.length ≤ index := by
      rw [← List.getElem?_eq_none_iff, hget]
      exact Option.some_ne_none bytes
    by_cases hwide : 8 < bytes.length
    · simp [hin, hwide, eq_comm]
    · simp [hin, hwide]

end Host

/-- A signed argument is refused just if there is none at the index or it has more than eight bytes, and
otherwise read as the number that its bytes write in two's complement; nothing changes on the host. The
sign byte in front of a shorter argument keeps what is read, and every number is read from its own eight
bytes. -/
theorem signed_argument_decoded (host : Host) (index : ℕ) :
    let arguments := host.context.arguments
    let result := (host.run (argumentInt64 index).run).1
    (host.run (argumentInt64 index).run).2 = host ∧
      (∀ fault, result = .error fault ↔
        fault = .invalidArgument index .outOfRange ∧ arguments.length ≤ index ∨
          fault = .invalidArgument index .tooWide ∧
            ∃ bytes, arguments[index]? = some bytes ∧ 8 < bytes.length) ∧
      ∀ bytes, arguments[index]? = some bytes →
        (bytes.length ≤ 8 → (word bytes).length = 8 ∧
          ∃ number, result = .ok number ∧ number.toInt = bytes.signed) ∧
        (bytes.length < 8 →
          let extended := arguments.set index (signByte bytes :: bytes)
          (({ host with context.arguments := extended } : Host).run (argumentInt64 index).run).1 =
            result) ∧
        ∀ number, bytes = Bytes.ofInt64 number → result = .ok number := by
  intro arguments result
  refine ⟨congrArg Prod.snd (host.run_argumentInt64 index), ?_, ?_⟩
  · exact fun fault => Host.argumentInt64_eq_error_iff
  · intro bytes hget
    refine ⟨?_, ?_, ?_⟩
    · intro h
      exact ⟨length_word h, signedValue bytes, Host.argumentInt64_eq_ok hget h, toInt_signedValue h⟩
    · intro h extended
      have hresult : result = .ok (signedValue bytes) := Host.argumentInt64_eq_ok hget h.le
      have hextended : extended[index]? = some (signByte bytes :: bytes) :=
        List.getElem?_set_self (List.getElem?_eq_some_iff.mp hget).1
      rw [hresult, ← signedValue_cons_signByte h]
      exact Host.argumentInt64_eq_ok hextended h
    · rintro number rfl
      rw [← signedValue_ofInt64 number]
      exact Host.argumentInt64_eq_ok hget (Bytes.length_ofInt64 number).le

/-- The byte 128 is the number −128, with the sign byte in front as well, and so are the eight bytes of that
number. -/
theorem signed_argument_decoded_of_lone_byte :
    let full : Bytes := [0xFF, 0xFF, 0xFF, 0xFF, 0xFF, 0xFF, 0xFF, 0x80]
    let host := (Host.fresh true).enter .zero [[0x80], full]
    host.context.arguments[0]? = some [0x80] ∧ [(0x80 : UInt8)].length < 8 ∧
      host.context.arguments[1]? = some full ∧ full = Bytes.ofInt64 (-128) ∧
      (∃ number, (host.run (argumentInt64 0).run).1 = .ok number ∧ number.toInt = -128) ∧
      (((Host.fresh true).enter .zero [[0xFF, 0x80], full]).run (argumentInt64 0).run).1 =
        (host.run (argumentInt64 0).run).1 ∧
      (host.run (argumentInt64 1).run).1 = .ok (-128) := by
  intro full host
  have hshort : host.context.arguments[0]? = some [0x80] := rfl
  have hfull : host.context.arguments[1]? = some full := rfl
  have hown : full = Bytes.ofInt64 (-128) := by decide
  have hsigned : Bytes.signed [0x80] = -128 := by decide
  obtain ⟨hread, hextended, -⟩ := (signed_argument_decoded host 0).2.2 [0x80] hshort
  obtain ⟨-, -, hnumber⟩ := (signed_argument_decoded host 1).2.2 full hfull
  obtain ⟨-, number, hresult, hvalue⟩ := hread (by decide)
  exact ⟨hshort, by decide, hfull, hown, ⟨number, hresult, hvalue.trans hsigned⟩,
    hextended (by decide), hnumber (-128) hown⟩

end FixedSupply
