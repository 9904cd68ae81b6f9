import Mathlib.Tactic.Lemma
import FixedSupply.Snapshot
import FixedSupply.Proofs.Balances

/-!
# Binary forms

A form says which byte strings stand for a value. A reader reads a form if it takes from the front of
a byte string just what is in the form, whatever follows, and fails if nothing there is. From that alone
no byte string of the form is a proper beginning of another one, and none stands for two values.
-/

namespace FixedSupply.Binary

abbrev Form (α : Type) := α → Bytes → Prop

namespace Form

variable {α β : Type}

/-- Four bytes, least significant first. -/
def word : Form ℕ := fun n bytes =>
  bytes.length = 4 ∧ Nat.ofDigits 256 (bytes.map UInt8.toNat) = n

/-- One value after the other. -/
def pair (first : Form α) (second : Form β) : Form (α × β) := fun value bytes =>
  ∃ front back, first value.1 front ∧ second value.2 back ∧ bytes = front ++ back

/-- Any number of values, one after another. -/
inductive Row (item : Form α) : List α → Bytes → Prop where
  | nil : Row item [] []
  | cons {value : α} {values : List α} {front back : Bytes} (first : item value front)
      (rest : Row item values back) : Row item (value :: values) (front ++ back)

/-- A count, and so many values. -/
def list (item : Form α) : Form (List α) := fun values =>
  pair word (Row item) (values.length, values)

/-- A length, and so many bytes. -/
def block : Form Bytes := fun content =>
  pair word Eq (content.length, content)

def topic : Form Topic := fun topic bytes =>
  topic.bytes = bytes

def logEntry : Form LogEntry := fun entry =>
  pair (list topic) block (entry.topics, entry.data)

/-- Pairs of a key and a value in any order, and log entries. -/
def snapshot : Form (List (Bytes × Bytes) × List LogEntry) :=
  pair (list (pair block block)) (list logEntry)

end Form

variable {α β : Type}

/-- The reader takes from the front of a byte string just what is in the form. -/
def Reads (reader : Reader α) (form : Form α) : Prop :=
  ∀ bytes value rest,
    reader.run bytes = .ok (value, rest) ↔ ∃ front, form value front ∧ bytes = front ++ rest

lemma reads_pure (result : α) :
    Reads (pure result) fun value bytes => result = value ∧ bytes = [] := by
  intro bytes value rest
  rw [StateT.run_pure]
  change Except.ok (result, bytes) = .ok (value, rest) ↔ _
  simp

namespace Reads

variable {reader : Reader α} {form : Form α}

lemma congr (h : Reads reader form) {form' : Form α}
    (hform : ∀ value bytes, form value bytes ↔ form' value bytes) : Reads reader form' := by
  intro bytes value rest
  rw [h bytes value rest]
  simp only [hform]

lemma bind (h : Reads reader form) {next : α → Reader β} {forms : α → Form β}
    (hnext : ∀ value, Reads (next value) (forms value)) :
    Reads (reader >>= next) fun value bytes =>
      ∃ first front back, form first front ∧ forms first value back ∧ bytes = front ++ back := by
  intro bytes value rest
  rw [StateT.run_bind]
  constructor
  · intro hrun
    cases hfirst : reader.run bytes with
    | error flaw =>
      rw [hfirst] at hrun
      exact absurd hrun (by simp [Bind.bind, Except.bind])
    | ok result =>
      obtain ⟨first, middle⟩ := result
      rw [hfirst] at hrun
      obtain ⟨front, hfront, rfl⟩ := (h _ _ _).mp hfirst
      obtain ⟨back, hback, rfl⟩ := (hnext first _ _ _).mp hrun
      exact ⟨front ++ back, ⟨first, front, back, hfront, hback, rfl⟩, (List.append_assoc _ _ _).symm⟩
  · rintro ⟨_, ⟨first, front, back, hfront, hback, rfl⟩, rfl⟩
    have hfirst : reader.run (front ++ back ++ rest) = .ok (first, back ++ rest) :=
      (h _ _ _).mpr ⟨front, hfront, List.append_assoc _ _ _⟩
    rw [hfirst]
    exact (hnext first _ _ _).mpr ⟨back, hback, rfl⟩

lemma map (h : Reads reader form) (f : α → β) :
    Reads (reader >>= fun value => return f value) fun value bytes =>
      ∃ first, form first bytes ∧ f first = value := by
  apply (h.bind fun first => reads_pure (f first)).congr
  intro value bytes
  constructor
  · rintro ⟨first, front, back, hfront, ⟨hvalue, rfl⟩, rfl⟩
    rw [List.append_nil]
    exact ⟨first, hfront, hvalue⟩
  · rintro ⟨first, hfirst, hvalue⟩
    exact ⟨first, bytes, [], hfirst, ⟨hvalue, rfl⟩, (List.append_nil _).symm⟩

lemma pair (h : Reads reader form) {second : Reader β} {form' : Form β}
    (hsecond : Reads second form') {γ : Type} (f : α → β → γ) :
    Reads (do let value ← reader; return f value (← second)) fun value bytes =>
      ∃ both, Form.pair form form' both bytes ∧ f both.1 both.2 = value := by
  apply (h.bind fun first => hsecond.map (f first)).congr
  intro value bytes
  constructor
  · rintro ⟨first, front, back, hfront, ⟨last, hback, hvalue⟩, hbytes⟩
    exact ⟨(first, last), ⟨front, back, hfront, hback, hbytes⟩, hvalue⟩
  · rintro ⟨both, ⟨front, back, hfront, hback, hbytes⟩, hvalue⟩
    exact ⟨both.1, front, back, hfront, ⟨both.2, hback, hvalue⟩, hbytes⟩

/-- All of a byte string is decoded just if it is in the form. -/
theorem decode_eq_ok_iff (h : Reads reader form) (bytes : Bytes) (value : α) :
    decode reader bytes = .ok value ↔ form value bytes := by
  unfold decode
  constructor
  · intro hdecode
    cases hrun : reader.run bytes with
    | error flaw =>
      rw [hrun] at hdecode
      exact absurd hdecode (by simp [Bind.bind, Except.bind])
    | ok result =>
      obtain ⟨read, rest⟩ := result
      rw [hrun] at hdecode
      change (if rest.isEmpty then Except.ok read else .error Flaw.leftOver) = _ at hdecode
      cases rest with
      | cons byte rest => exact absurd hdecode (by simp)
      | nil =>
        obtain rfl := Except.ok.inj hdecode
        obtain ⟨front, hfront, hbytes⟩ := (h _ _ _).mp hrun
        rw [hbytes, List.append_nil]
        exact hfront
  · intro hform
    have hrun : reader.run bytes = .ok (value, []) :=
      (h _ _ _).mpr ⟨bytes, hform, (List.append_nil _).symm⟩
    rw [hrun]
    rfl

/-- No byte string of a form that is read goes on after another one. -/
theorem eq_of_isPrefix (h : Reads reader form) {a b : α} {short long : Bytes} (ha : form a short)
    (hb : form b long) (hbegins : short <+: long) : short = long ∧ a = b := by
  obtain ⟨rest, rfl⟩ := hbegins
  have hshort : reader.run (short ++ rest) = .ok (a, rest) := (h _ _ _).mpr ⟨short, ha, rfl⟩
  have hlong : reader.run (short ++ rest) = .ok (b, []) :=
    (h _ _ _).mpr ⟨_, hb, (List.append_nil _).symm⟩
  rw [hshort] at hlong
  obtain ⟨rfl, rfl⟩ := Prod.mk.inj (Except.ok.inj hlong)
  exact ⟨(List.append_nil _).symm, rfl⟩

end Reads

lemma ofDigits_littleEndian (count n : ℕ) :
    Nat.ofDigits 256 ((littleEndian count n).map UInt8.toNat) = n % 256 ^ count := by
  induction count generalizing n with
  | zero => simp [littleEndian, Nat.mod_one]
  | succ count ih =>
    have hdigit : (UInt8.ofNat n).toNat = n % 256 := UInt8.toNat_ofNat
    rw [littleEndian, List.map_cons, Nat.ofDigits_cons, ih, hdigit, Nat.pow_succ', Nat.mod_mul]

lemma length_littleEndian (count n : ℕ) : (littleEndian count n).length = count := by
  induction count generalizing n with
  | zero => rfl
  | succ count ih => rw [littleEndian, List.length_cons, ih]

lemma run_take (count : ℕ) (bytes : Bytes) :
    (take count).run bytes =
      if count ≤ bytes.length then .ok (bytes.take count, bytes.drop count)
      else .error .tooShort := by
  unfold take
  rw [StateT.run_bind, StateT.run_get, pure_bind]
  by_cases h : count ≤ bytes.length
  · simp only [h, if_true]
    rfl
  · simp only [h, if_false]
    rfl

lemma reads_take (count : ℕ) :
    Reads (take count) fun value bytes => value = bytes ∧ bytes.length = count := by
  intro bytes value rest
  rw [run_take]
  constructor
  · intro hrun
    by_cases h : count ≤ bytes.length
    · rw [if_pos h] at hrun
      obtain ⟨rfl, rfl⟩ := Prod.mk.inj (Except.ok.inj hrun)
      exact ⟨_, ⟨rfl, List.length_take_of_le h⟩, (List.take_append_drop count bytes).symm⟩
    · rw [if_neg h] at hrun
      exact absurd hrun (by simp)
  · rintro ⟨front, ⟨rfl, rfl⟩, rfl⟩
    have h : value.length ≤ (value ++ rest).length := by simp
    rw [if_pos h, List.take_left, List.drop_left]

lemma reads_length : Reads length Form.word := by
  apply ((reads_take 4).map fun bytes => Bytes.value bytes.reverse).congr
  intro n bytes
  constructor
  · rintro ⟨_, ⟨rfl, hlength⟩, rfl⟩
    refine ⟨hlength, ?_⟩
    rw [Amount.value_eq_ofDigits, List.reverse_reverse]
  · rintro ⟨hlength, rfl⟩
    refine ⟨bytes, ⟨rfl, hlength⟩, ?_⟩
    rw [Amount.value_eq_ofDigits, List.reverse_reverse]

lemma reads_bytes : Reads bytes Form.block := by
  apply (reads_length.bind reads_take).congr
  intro content bytes
  constructor
  · rintro ⟨n, front, back, hfront, ⟨rfl, rfl⟩, hbytes⟩
    exact ⟨front, _, hfront, rfl, hbytes⟩
  · rintro ⟨front, back, hfront, hback, hbytes⟩
    exact ⟨_, front, back, hfront, ⟨hback, congrArg List.length hback.symm⟩, hbytes⟩

/-- What `bytes32` does with the bytes that it has taken. -/
lemma reads_ofBytes? (bytes : Bytes) :
    Reads (match Bytes32.ofBytes? bytes with | some value => pure value | none => throw .tooShort)
      fun value back => value.bytes = bytes ∧ back = [] := by
  cases hbytes : Bytes32.ofBytes? bytes with
  | none =>
    intro input value rest
    have hlength : bytes.length ≠ 32 := Bytes32.ofBytes?_eq_none_iff.mp hbytes
    constructor
    · intro hrun
      have hfail : (Except.error .tooShort : Except Flaw (Bytes32 × Bytes)) = .ok (value, rest) := hrun
      exact absurd hfail (by simp)
    · rintro ⟨front, ⟨rfl, -⟩, -⟩
      exact absurd value.length_bytes hlength
  | some value =>
    obtain rfl := Bytes32.ofBytes?_eq_some_iff.mp hbytes
    apply (reads_pure value).congr
    intro other back
    rw [Bytes32.bytes_injective.eq_iff, eq_comm]

lemma reads_bytes32 : Reads bytes32 Form.topic := by
  apply ((reads_take 32).bind reads_ofBytes?).congr
  intro topic bytes
  constructor
  · rintro ⟨_, front, back, ⟨rfl, -⟩, ⟨htopic, rfl⟩, rfl⟩
    rw [List.append_nil]
    exact htopic
  · rintro rfl
    exact ⟨_, _, [], ⟨rfl, topic.length_bytes⟩, ⟨rfl, rfl⟩, (List.append_nil _).symm⟩

lemma reads_times {item : Reader α} {form : Form α} (h : Reads item form) (count : ℕ) :
    Reads (times item count) fun values bytes => Form.Row form values bytes ∧ values.length = count := by
  induction count with
  | zero =>
    apply (reads_pure []).congr
    intro values bytes
    constructor
    · rintro ⟨rfl, rfl⟩
      exact ⟨.nil, rfl⟩
    · rintro ⟨hrow, hlength⟩
      cases hrow with
      | nil => exact ⟨rfl, rfl⟩
      | cons first rest => exact absurd hlength (by simp)
  | succ count ih =>
    apply (h.pair ih List.cons).congr
    intro values bytes
    constructor
    · rintro ⟨⟨value, values⟩, ⟨front, back, hfront, ⟨hback, rfl⟩, rfl⟩, rfl⟩
      exact ⟨.cons hfront hback, rfl⟩
    · rintro ⟨hrow, hlength⟩
      cases hrow with
      | nil => exact absurd hlength (by simp)
      | cons first rest =>
        exact ⟨(_, _), ⟨_, _, first, ⟨rest, Nat.succ.inj hlength⟩, rfl⟩, rfl⟩

lemma reads_list {item : Reader α} {form : Form α} (h : Reads item form) :
    Reads (list item) (Form.list form) := by
  apply (reads_length.bind (reads_times h)).congr
  intro values bytes
  constructor
  · rintro ⟨n, front, back, hfront, ⟨hback, rfl⟩, hbytes⟩
    exact ⟨front, back, hfront, hback, hbytes⟩
  · rintro ⟨front, back, hfront, hback, hbytes⟩
    exact ⟨_, front, back, hfront, ⟨hback, rfl⟩, hbytes⟩

lemma reads_entry : Reads entry (Form.pair Form.block Form.block) := by
  apply (reads_bytes.pair reads_bytes Prod.mk).congr
  intro pair bytes
  constructor
  · rintro ⟨both, hboth, rfl⟩
    exact hboth
  · intro hpair
    exact ⟨pair, hpair, rfl⟩

lemma reads_logEntry : Reads logEntry Form.logEntry := by
  apply ((reads_list reads_bytes32).pair reads_bytes LogEntry.mk).congr
  intro entry bytes
  constructor
  · rintro ⟨both, hboth, rfl⟩
    exact hboth
  · intro hentry
    exact ⟨(entry.topics, entry.data), hentry, rfl⟩

/-- A state is read from a snapshot of it, whose pairs may be listed in any order. -/
theorem reads_state :
    Reads state fun state bytes =>
      ∃ both, Form.snapshot both bytes ∧ ⟨.ofList both.1, both.2⟩ = state :=
  (reads_list reads_entry).pair (reads_list reads_logEntry) fun pairs logs =>
    State.mk (.ofList pairs) logs

end FixedSupply.Binary
