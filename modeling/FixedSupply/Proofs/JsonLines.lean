import FixedSupply.Proofs.JsonRoundTrip
import FixedSupply.Proofs.ScenarioGrammar

/-!
# Lines of outcomes

An outcome is printed on a line of its own: its JSON form is the text of an object with the fields of the
outcome, no newline stands in it, and it is read back to the outcome.
-/

namespace FixedSupply

namespace Json

/-- The texts of an outcome: the members of the object are its fields in their order, the number of the step
in decimal digits. -/
inductive OutcomeText : List Char → Outcome → Prop where
  | intro {row function output error : List Char} {outcome : Outcome}
    (hrow : Row Reader.MemberText row
      [("step", Nat.toDigits 10 outcome.step), ("function", function), ("output", output), ("error", error),
        ("as_expected", if outcome.asExpected then "true".toList else "false".toList)])
    (hfunction : StringText function outcome.function)
    (houtput : StringsText output outcome.output) (herror : OptionText error outcome.error) :
    OutcomeText ('\x7b' :: (row ++ ['\x7d'])) outcome

lemma outcomeText_writeOutcome (outcome : Outcome) : OutcomeText (writeOutcome outcome) outcome :=
  .intro (Reader.row_members _) (stringText_quote outcome.function)
    (stringsText_writeStrings outcome.output) (optionText_writeOption outcome.error)

section Newlines

lemma newline_notMem_escapeChar (c : Char) : '\n' ∉ escapeChar c := by
  unfold escapeChar
  split_ifs with hquote hbackslash hb hf hn hr ht hcontrol
  · decide
  · decide
  · decide
  · decide
  · decide
  · decide
  · decide
  · have hdigit (n : ℕ) : '\n' ≠ Nat.digitChar n := (Nat.digitChar_ne '\n' (by decide)).symm
    simp [hdigit]
  · simpa using Ne.symm hn

lemma newline_notMem_quote (text : String) : '\n' ∉ quote text := by
  have hescaped : '\n' ∉ text.toList.flatMap escapeChar := by
    intro hmem
    obtain ⟨c, -, hc⟩ := List.mem_flatMap.mp hmem
    exact newline_notMem_escapeChar c hc
  simp [quote, hescaped]

lemma newline_notMem_writeNat (n : ℕ) : '\n' ∉ writeNat n := by
  intro hmem
  have hdigit := Nat.isDigit_of_mem_toDigits (by decide) (by decide) hmem
  exact absurd hdigit (by decide)

lemma newline_notMem_commaSeparated {items : List (List Char)} (h : ∀ item ∈ items, '\n' ∉ item) :
    '\n' ∉ commaSeparated items := by
  induction items using commaSeparated.induct with
  | case1 => simp [commaSeparated]
  | case2 item => simpa [commaSeparated] using h
  | case3 item rest hrest ih =>
    obtain ⟨hitem, hothers⟩ := List.forall_mem_cons.mp h
    have htail := ih hothers
    rw [commaSeparated]
    · simp [hitem, htail]
    · exact hrest

lemma newline_notMem_writeStrings (texts : List String) : '\n' ∉ writeStrings texts := by
  have hitems : ∀ item ∈ texts.map quote, '\n' ∉ item := by
    intro item hitem
    obtain ⟨text, -, rfl⟩ := List.mem_map.mp hitem
    exact newline_notMem_quote text
  simp [writeStrings, writeList, newline_notMem_commaSeparated hitems]

lemma newline_notMem_writeObject {members : List (String × List Char)}
    (h : ∀ member ∈ members, '\n' ∉ member.2) : '\n' ∉ writeObject members := by
  have hform : writeObject members =
      '\x7b' :: commaSeparated (members.map fun member => quote member.1 ++ ':' :: member.2) ++
        ['\x7d'] := rfl
  have hitems : ∀ item ∈ members.map fun member => quote member.1 ++ ':' :: member.2, '\n' ∉ item := by
    intro item hitem
    obtain ⟨member, hmember, rfl⟩ := List.mem_map.mp hitem
    have hvalue := h member hmember
    simp [newline_notMem_quote, hvalue]
  rw [hform]
  simp [newline_notMem_commaSeparated hitems]

lemma newline_notMem_writeOutcome (outcome : Outcome) : '\n' ∉ writeOutcome outcome := by
  rw [writeOutcome]
  apply newline_notMem_writeObject
  have herror : '\n' ∉ writeOption quote outcome.error := by
    cases outcome.error with
    | none => decide
    | some code => exact newline_notMem_quote code
  have hexpected : '\n' ∉ writeBool outcome.asExpected := by
    cases outcome.asExpected with
    | true => decide
    | false => decide
  simp [newline_notMem_writeNat, newline_notMem_quote, newline_notMem_writeStrings, herror, hexpected]

end Newlines

end Json

namespace Outcome

/-- The printed form of an outcome. -/
def line (outcome : Outcome) : String :=
  String.ofList (Json.writeOutcome outcome)

/-- The text is one line of JSON that tells the outcome. The reader takes step numbers of 64 bits. -/
structure IsLine (outcome : Outcome) (text : String) : Prop where
  newline_notMem : '\n' ∉ text.toList
  spells : Json.OutcomeText text.toList outcome
  reads : outcome.step < 2 ^ 64 → Json.Reader.outcome.run text = .ok outcome

theorem isLine_line (outcome : Outcome) : outcome.IsLine outcome.line := by
  constructor
  · rw [line, String.toList_ofList]
    exact Json.newline_notMem_writeOutcome outcome
  · rw [line, String.toList_ofList]
    exact Json.outcomeText_writeOutcome outcome
  · exact fun hstep => (Json.Reader.takes_writeOutcome hstep).run_ofList

end Outcome

end FixedSupply
