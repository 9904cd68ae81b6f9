import FixedSupply.Json.Ledger
import FixedSupply.Json.Scenario
import FixedSupply.Proofs.AmountEncoding
import FixedSupply.Proofs.JsonCollections

/-!
# Written values are read back

The JSON forms of amounts, events, log entries and outcomes are read back to what was written. An amount
is read from any list of its digits, high zeros included, and written without them.
-/

namespace FixedSupply.Json

namespace Reader

section Written

variable {α δ : Type} {item : Reader α} {values : List α} {write : α → List Char}

lemma takes_writeList (expected : String) (h : ∀ value ∈ values, item.Takes (write value) value) :
    (list expected item).Takes (writeList (values.map write)) values :=
  takes_list expected (row_commaSeparated h)

lemma takes_record_writeObject {expected : String} {fields : Reader α} {start : δ} (last : δ)
    {member : δ → String → Reader δ} {finish : δ → Except Flaw α} {value : α}
    {members : List (String × List Char)} (hfills : Fills member start members last)
    (hfinish : finish last = .ok value) :
    (record expected fields start member finish).Takes (writeObject members) value :=
  takes_record (row_members members) hfills hfinish

end Written

lemma takes_byte (b : UInt8) : byte.Takes (writeNat b.toNat) b := by
  have hlt : b.toNat < 256 := b.toNat_lt
  have hnatural := takes_natural "u8" hlt (Nat.lt_trans hlt (by decide))
  have hbyte := hnatural.map UInt8.ofNat
  rwa [UInt8.ofNat_toNat] at hbyte

lemma takes_writeBytes (bytes : Bytes) : Reader.bytes.Takes (writeBytes bytes) bytes :=
  takes_writeList "a sequence" fun b _ => takes_byte b

lemma takes_writeBytes32 (bytes : Bytes32) : bytes32.Takes (writeBytes32 bytes) bytes := by
  have hrow : Row byte.Takes (commaSeparated (bytes.bytes.map fun b => writeNat b.toNat)) bytes.bytes :=
    row_commaSeparated fun b _ => takes_byte b
  have hlist := takes_listOf_elementsExactly "an array of length 32" hrow bytes.length_bytes
  exact hlist.map fun found => (⟨found.1, found.2⟩ : Bytes32)

/-- The text of a digit of an amount. -/
def WordText (text : List Char) (word : ℕ) : Prop :=
  word < Amount.wordBase ∧ text = writeNat word

lemma takes_word {text : List Char} {word : ℕ} (h : WordText text word) :
    (natural "u32" Amount.wordBase).Takes text word := by
  obtain ⟨hlt, rfl⟩ := h
  exact takes_natural "u32" hlt (Nat.lt_trans hlt (by decide))

lemma takes_words {words : List ℕ} {text : List Char} (h : Row WordText text words) :
    amount.Takes ('[' :: (text ++ [']'])) (Amount.ofWords words) :=
  (takes_list _ (h.mono fun _ _ => takes_word)).map Amount.ofWords

lemma takes_writeAmount (n : Amount) : amount.Takes (writeAmount n) n := by
  have hrow : Row WordText (commaSeparated ((Amount.words n).map writeNat)) (Amount.words n) :=
    row_commaSeparated fun word hword => ⟨Amount.words_lt hword, rfl⟩
  have htakes := takes_words hrow
  rwa [Amount.ofWords_words] at htakes

lemma takes_initialized (expected : String) (owner : Address) (supply : Amount) :
    (initialized expected).Takes
      (writeObject [("owner", writeBytes32 owner), ("total_supply", writeAmount supply)])
      (.initialized owner supply) := by
  have howner := ((takes_writeBytes32 owner).newField "owner").map fun owner =>
    InitializedDraft.mk owner none
  have hsupply := ((takes_writeAmount supply).newField "total_supply").map fun supply =>
    InitializedDraft.mk (some owner) supply
  exact takes_record_writeObject _ (.cons howner (.cons hsupply .nil)) rfl

lemma takes_transfer (expected : String) (sender recipient : Address) (n : Amount) :
    (transfer expected).Takes
      (writeObject
        [("from", writeBytes32 sender), ("to", writeBytes32 recipient), ("amount", writeAmount n)])
      (.transfer sender recipient n) := by
  have hsender := ((takes_writeBytes32 sender).newField "from").map fun sender =>
    TransferDraft.mk sender none none
  have hrecipient := ((takes_writeBytes32 recipient).newField "to").map fun recipient =>
    TransferDraft.mk (some sender) recipient none
  have hamount := ((takes_writeAmount n).newField "amount").map fun n =>
    TransferDraft.mk (some sender) (some recipient) n
  exact takes_record_writeObject _ (.cons hsender (.cons hrecipient (.cons hamount .nil))) rfl

lemma takes_writeEvent (e : Event) : event.Takes (writeEvent e) e := by
  cases e with
  | initialized owner supply =>
    exact takes_variant (row_members _) rfl (takes_initialized _ owner supply)
  | transfer sender recipient n =>
    exact takes_variant (row_members _) rfl (takes_transfer _ sender recipient n)

lemma takes_writeLogEntry (entry : LogEntry) : logEntry.Takes (writeLogEntry entry) entry := by
  have hlist := takes_writeList "a sequence" fun topic (_ : topic ∈ entry.topics) =>
    takes_writeBytes32 topic
  have htopics := (hlist.newField "topics").map fun topics => LogEntryDraft.mk topics none
  have hdata := ((takes_writeBytes entry.data).newField "data").map fun data =>
    LogEntryDraft.mk (some entry.topics) data
  exact takes_record_writeObject _ (.cons htopics (.cons hdata .nil)) rfl

lemma takes_writeStrings (texts : List String) : strings.Takes (writeStrings texts) texts :=
  takes_writeList "a sequence" fun value _ => takes_quote "a string" value

lemma takes_writeOption_quote (value? : Option String) :
    string?.Takes (writeOption quote value?) value? := by
  cases value? with
  | none => exact takes_null
  | some value => exact (takes_quote "a string" value).optional (by decide)

lemma takes_writeOutcome {o : Outcome} (h : o.step < numberBound) :
    outcome.Takes (writeOutcome o) o := by
  have hstep := ((takes_natural "usize" h h).newField "step").map fun step =>
    OutcomeDraft.mk step none none none none
  have hfunction := ((takes_quote "a string" o.function).newField "function").map fun function =>
    OutcomeDraft.mk (some o.step) function none none none
  have houtput := ((takes_writeStrings o.output).newField "output").map fun output =>
    OutcomeDraft.mk (some o.step) (some o.function) output none none
  have herror := ((takes_writeOption_quote o.error).newField "error").map fun error =>
    OutcomeDraft.mk (some o.step) (some o.function) (some o.output) error none
  have hexpected := ((takes_boolean o.asExpected).newField "as_expected").map fun asExpected =>
    OutcomeDraft.mk (some o.step) (some o.function) (some o.output) (some o.error) asExpected
  exact takes_record_writeObject _
    (.cons hstep (.cons hfunction (.cons houtput (.cons herror (.cons hexpected .nil))))) rfl

end Reader

/-- Written outcomes, events, log entries and amounts are read back, whatever their strings are. Any list
of digits in base 2³², with any white space between its tokens, is read to the amount that they make,
least significant digit first, and that amount is written with the same digits but the high zeros. -/
theorem json_round_trip :
    (∀ outcome : Outcome, outcome.step < 2 ^ 64 →
      Reader.outcome.run (String.ofList (writeOutcome outcome)) = .ok outcome) ∧
      (∀ event : Event, Reader.event.run (String.ofList (writeEvent event)) = .ok event) ∧
      (∀ entry : LogEntry, Reader.logEntry.run (String.ofList (writeLogEntry entry)) = .ok entry) ∧
      (∀ amount : Amount, Reader.amount.run (String.ofList (writeAmount amount)) = .ok amount) ∧
      (∀ (digits : List ℕ) (row before after : List Char), Row Reader.WordText row digits →
        Blank before → Blank after →
          let amount := Nat.ofDigits (2 ^ 32) digits
          Reader.amount.run (String.ofList (before ++ ('[' :: (row ++ [']']) ++ after))) = .ok amount ∧
            writeAmount amount = writeList ((digits.rdropWhile (· == 0)).map writeNat)) := by
  refine ⟨?_, ?_, ?_, ?_, ?_⟩
  · intro outcome hstep
    exact (Reader.takes_writeOutcome hstep).run_ofList
  · intro event
    exact (Reader.takes_writeEvent event).run_ofList
  · intro entry
    exact (Reader.takes_writeLogEntry entry).run_ofList
  · intro amount
    exact (Reader.takes_writeAmount amount).run_ofList
  · intro digits row before after hrow hbefore hafter amount
    have hamount : Amount.ofWords digits = amount := Amount.ofWords_eq digits
    have htakes := Reader.takes_words hrow
    have hdigits : ∀ digit ∈ digits, digit < Amount.wordBase := by
      intro digit hdigit
      obtain ⟨text, hlt, -⟩ := hrow.exists_of_mem hdigit
      exact hlt
    rw [hamount] at htakes
    refine ⟨htakes.run hbefore hafter, ?_⟩
    rw [writeAmount, ← hamount, Amount.words_ofWords hdigits]

/-- A high zero and white space between the digits are lost. -/
theorem json_round_trip_of_padded_digits :
    let row : List Char := ['5', ' ', ',', '\n', '0', '\t']
    Row Reader.WordText row [5, 0] ∧
      Reader.amount.run (String.ofList ([' '] ++ ('[' :: (row ++ [']']) ++ []))) = .ok 5 ∧
        writeAmount 5 = ['[', '5', ']'] := by
  intro row
  have hspace : Blank [' '] := by decide
  have htrail : Trail Reader.WordText [' ', ',', '\n', '0', '\t'] [0] :=
    @Trail.cons _ _ [' '] ['\n'] ['0'] ['\t'] _ _ hspace (by decide) ⟨by decide, rfl⟩ (.nil (by decide))
  have hrow : Row Reader.WordText row [5, 0] :=
    @Row.full _ _ [] ['5'] _ _ _ blank_nil ⟨by decide, rfl⟩ htrail
  obtain ⟨-, -, -, -, hdigits⟩ := json_round_trip
  obtain ⟨hread, hwritten⟩ := hdigits [5, 0] row [' '] [] hrow hspace blank_nil
  exact ⟨hrow, hread, hwritten⟩

end FixedSupply.Json
