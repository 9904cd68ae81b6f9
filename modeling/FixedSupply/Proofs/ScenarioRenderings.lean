import Mathlib.Data.List.Forall2
import FixedSupply.Proofs.JsonAdherence
import FixedSupply.Proofs.ScenarioGrammar

/-!
# Renderings of a scenario

Every text of a scenario is parsed to it. A text with a step object that lacks a field or repeats one is
refused, whatever else it holds: the readers count the members that they read of each field.
-/

namespace FixedSupply.Json

/-- An object with the given members, whatever they are. -/
def ObjectText (text : List Char) (members : List (String × List Char)) : Prop :=
  ∃ row, text = '\x7b' :: (row ++ ['\x7d']) ∧ Row Reader.MemberText row members ∧
    ∀ member ∈ members, ValueText member.2

/-- A list of values with an object among them that has the given members. -/
def HoldsObject (text : List Char) (members : List (String × List Char)) : Prop :=
  ∃ row items, text = '[' :: (row ++ [']']) ∧ Row Eq row items ∧ (∀ item ∈ items, ValueText item) ∧
    ∃ item ∈ items, ObjectText item members

/-- The text of a value where a step with the given members stands: in the list of steps of an object, or of
a list, which is the other form of a scenario. -/
inductive HoldsStep (members : List (String × List Char)) : List Char → Prop where
  | object {text steps : List Char} {outer : List (String × List Char)} (h : ObjectText text outer)
    (hmem : ("steps", steps) ∈ outer) (hsteps : HoldsObject steps members) : HoldsStep members text
  | list {row steps : List Char} {others : List (List Char)} (h : Row Eq row (steps :: others))
    (hothers : ∀ other ∈ others, ValueText other) (hsteps : HoldsObject steps members) :
    HoldsStep members ('[' :: (row ++ [']']))

/-- The names of the members of a step object that lacks its caller or its function, or that repeats a field. -/
def LacksOrRepeats (names : List String) : Prop :=
  "caller" ∉ names ∨ "function" ∉ names ∨ ∃ name ∈ stepNames, 1 < names.count name

namespace Reader

variable {α : Type} {text : List Char} {members : List (String × List Char)} {draft : StepDraft}

/-- As many members of each name were read as the draft has values for it. -/
structure Counts (draft : StepDraft) (names : List String) : Prop where
  caller : names.count "caller" = draft.caller.toList.length
  function : names.count "function" = draft.function.toList.length
  args : names.count "args" = draft.args.toList.length
  expect : names.count "expect" = draft.expect.toList.length

lemma keepsValues_string? : string?.KeepsValues :=
  (keepsValues_text "a string").optional

lemma keepsValues_strings : strings.KeepsValues :=
  (keepsValues_text "a string").list "a sequence"

/-- Each member is counted, and no second one of a field is read. -/
lemma keepsMember_stepMember {key : String} (h : ValueText text) (draft : StepDraft) :
    (stepMember draft key).KeepsMember text fun next =>
      ∀ names, Counts draft names → Counts next (names ++ [key]) := by
  unfold stepMember
  split
  · refine ((keepsValues_text _ h).newField "caller" draft.caller).map ?_
    rintro _ ⟨hnone, value, rfl, -⟩ names hcounts
    exact ⟨by simp [hcounts.caller, hnone], by simp [hcounts.function], by simp [hcounts.args],
      by simp [hcounts.expect]⟩
  · refine ((keepsValues_text _ h).newField "function" draft.function).map ?_
    rintro _ ⟨hnone, value, rfl, -⟩ names hcounts
    exact ⟨by simp [hcounts.caller], by simp [hcounts.function, hnone], by simp [hcounts.args],
      by simp [hcounts.expect]⟩
  · refine ((keepsValues_strings h).newField "args" draft.args).map ?_
    rintro _ ⟨hnone, value, rfl, -⟩ names hcounts
    exact ⟨by simp [hcounts.caller], by simp [hcounts.function], by simp [hcounts.args, hnone],
      by simp [hcounts.expect]⟩
  · refine ((keepsValues_string? h).newField "expect" draft.expect).map ?_
    rintro _ ⟨hnone, value, rfl, -⟩ names hcounts
    exact ⟨by simp [hcounts.caller], by simp [hcounts.function], by simp [hcounts.args],
      by simp [hcounts.expect, hnone]⟩
  · next hcaller hfunction hargs hexpect =>
    intro blank gap rest after next hblank hgap hrest hread
    obtain ⟨hafter, rfl⟩ := keepsMember_otherField h draft hblank hgap hrest hread
    have hnone (name : String) (hne : key ≠ name) : [key].count name = 0 :=
      List.count_eq_zero_of_not_mem fun hmem => hne (List.mem_singleton.mp hmem).symm
    refine ⟨hafter, fun names hcounts => ?_⟩
    exact ⟨by simp [hcounts.caller, hnone _ hcaller], by simp [hcounts.function, hnone _ hfunction],
      by simp [hcounts.args, hnone _ hargs], by simp [hcounts.expect, hnone _ hexpect]⟩

lemma isSome_of_finish {step : Step} (h : draft.finish = .ok step) :
    draft.caller.isSome = true ∧ draft.function.isSome = true := by
  obtain ⟨caller, function, args, expect⟩ := draft
  cases caller with
  | none => cases h
  | some caller =>
    cases function with
    | none => cases h
    | some function => exact ⟨rfl, rfl⟩

lemma length_toList_le_one (value? : Option α) : value?.toList.length ≤ 1 := by
  cases value? with
  | none => exact Nat.zero_le 1
  | some value => exact Nat.le_refl 1

/-- A draft that makes a step was filled from each required name, and from none twice. -/
lemma not_lacksOrRepeats {step : Step} (h : Counts draft names) (hfinish : draft.finish = .ok step) :
    ¬LacksOrRepeats names := by
  obtain ⟨hcaller, hfunction⟩ := isSome_of_finish hfinish
  obtain ⟨caller, hcaller⟩ := Option.isSome_iff_exists.mp hcaller
  obtain ⟨function, hfunction⟩ := Option.isSome_iff_exists.mp hfunction
  rintro (hlacks | hlacks | ⟨name, hname, htwice⟩)
  · have hcount := h.caller
    rw [List.count_eq_zero_of_not_mem hlacks, hcaller] at hcount
    cases hcount
  · have hcount := h.function
    rw [List.count_eq_zero_of_not_mem hlacks, hfunction] at hcount
    cases hcount
  · have honce : names.count name ≤ 1 := by
      simp only [stepNames, List.mem_cons, List.not_mem_nil, or_false] at hname
      rcases hname with rfl | rfl | rfl | rfl
      · exact h.caller ▸ length_toList_le_one _
      · exact h.function ▸ length_toList_le_one _
      · exact h.args ▸ length_toList_le_one _
      · exact h.expect ▸ length_toList_le_one _
    exact absurd htwice (Nat.not_lt.mpr honce)

/-- A step that is read from an object neither lacks a field nor repeats one. -/
lemma keeps_step (h : ObjectText text members) :
    step.Keeps text fun _ => ¬LacksOrRepeats (members.map Prod.fst) := by
  obtain ⟨row, rfl, hrow, hvalues⟩ := h
  have hmaintains : Maintains stepMember members fun done draft => Counts draft (done.map Prod.fst) := by
    intro done draft key text hmem hcounts blank gap rest after next hblank hgap hrest hread
    obtain ⟨hafter, hnext⟩ := keepsMember_stepMember (hvalues _ hmem) draft hblank hgap hrest hread
    exact ⟨hafter, by simpa using hnext _ hcounts⟩
  refine (keeps_record hrow hmaintains ⟨rfl, rfl, rfl, rfl⟩).mono ?_
  rintro value ⟨last, hcounts, hfinish⟩
  exact not_lacksOrRepeats hcounts hfinish

lemma keepsValues_step : step.KeepsValues := by
  refine keepsValues_record (keepsValues_listOf _ ?_) ?_
  · intro row items rest after value hrow hitems hread
    have htext := keepsValues_text "a string"
    obtain ⟨caller, _, hcaller, hread⟩ := read_bind_eq_ok hread
    obtain ⟨function, _, hfunction, hread⟩ := read_bind_eq_ok hread
    obtain ⟨args, _, hargs, hread⟩ := read_bind_eq_ok hread
    obtain ⟨expect, _, hexpect, hread⟩ := read_bind_eq_ok hread
    cases hread
    obtain ⟨hafterCaller, -⟩ := keeps_elementAt_zero hrow hitems
      (fun first hfirst => htext (hitems first (List.mem_of_mem_head? hfirst))) hcaller
    have hafterFunction := hafterCaller.of_elementAt_succ htext hfunction
    have hafterArgs := hafterFunction.of_element? keepsValues_strings hargs
    exact hafterArgs.of_element? keepsValues_string? hexpect
  · intro draft key text h blank gap rest after next hblank hgap hrest hread
    exact ⟨(keepsMember_stepMember h draft hblank hgap hrest hread).1, trivial⟩

lemma valueText_of_holdsObject (h : HoldsObject text members) : ValueText text := by
  obtain ⟨row, items, rfl, hrow, hitems, -⟩ := h
  exact .list hrow hitems

/-- A list of steps that holds a faulty object is not read. -/
lemma keeps_steps (h : HoldsObject text members) :
    steps.Keeps text fun _ => ¬LacksOrRepeats (members.map Prod.fst) := by
  obtain ⟨row, items, rfl, hrow, hitems, object, hmem, hobject⟩ := h
  -- The other items need not be steps at all: of them it is known only where they end.
  have hkeeps : Row (fun text item => step.Keeps text fun _ => item = object →
      ¬LacksOrRepeats (members.map Prod.fst)) row items := by
    apply hrow.mono_mem
    rintro text item hitem rfl
    by_cases hsame : text = object
    · subst hsame
      exact (keeps_step hobject).mono fun _ hnot _ => hnot
    · exact (keepsValues_step (hitems _ hitem)).mono fun _ _ heq => absurd heq hsame
  refine (keeps_list _ hkeeps).mono ?_
  intro values hall
  obtain ⟨i, hi, rfl⟩ := List.getElem_of_mem hmem
  exact hall.get hi (hall.length_eq ▸ hi) rfl

lemma keepsValues_steps : steps.KeepsValues :=
  keepsValues_step.list "a sequence"

lemma keepsMember_scenarioMember {key : String} {R : Prop} (h : ValueText text)
    (hsteps : key = "steps" → steps.Keeps text fun _ => R) (draft : ScenarioDraft) :
    (scenarioMember draft key).KeepsMember text fun _ => key = "steps" → R := by
  unfold scenarioMember
  split
  · refine ((hsteps rfl).newField "steps" draft.steps).map ?_
    rintro _ ⟨-, _, -, hR⟩ -
    exact hR
  · next hkey =>
    intro blank gap rest after next hblank hgap hrest hread
    obtain ⟨hafter, -⟩ := keepsMember_otherField h draft hblank hgap hrest hread
    exact ⟨hafter, fun hsame => absurd hsame hkey⟩

lemma maintains_scenarioMember {list : List Char} {outer : List (String × List Char)}
    (hvalues : ∀ member ∈ outer, ValueText member.2) (hsteps : HoldsObject list members) :
    Maintains scenarioMember outer fun done _ =>
      ("steps", list) ∈ done → ¬LacksOrRepeats (members.map Prod.fst) := by
  -- The object may name its steps more than once, with other values than the list at hand.
  intro done draft key text hmem hdone
  have htext : ValueText text := hvalues _ hmem
  have hlist : key = "steps" → steps.Keeps text fun _ => text = list →
      ¬LacksOrRepeats (members.map Prod.fst) := by
    intro _
    by_cases hsame : text = list
    · subst hsame
      exact (keeps_steps hsteps).mono fun _ hnot _ => hnot
    · exact (keepsValues_steps htext).mono fun _ _ heq => absurd heq hsame
  intro blank gap rest after next hblank hgap hrest hread
  obtain ⟨hafter, hnext⟩ := keepsMember_scenarioMember htext hlist draft hblank hgap hrest hread
  refine ⟨hafter, fun hin => ?_⟩
  rcases List.mem_append.mp hin with hin | hin
  · exact hdone hin
  · obtain ⟨rfl, rfl⟩ := Prod.mk.inj (List.mem_singleton.mp hin)
    exact hnext rfl rfl

/-- A scenario with a faulty step is not read, in neither of its forms. -/
theorem keeps_scenario (h : HoldsStep members text) :
    scenario.Keeps text fun _ => ¬LacksOrRepeats (members.map Prod.fst) := by
  cases h with
  | object h hmem hsteps =>
    obtain ⟨row, rfl, hrow, hvalues⟩ := h
    refine (keeps_record hrow (maintains_scenarioMember hvalues hsteps) (by simp)).mono ?_
    rintro value ⟨last, hlast, -⟩
    exact hlast hmem
  | list h hothers hsteps =>
    have hvalues := List.forall_mem_cons.mpr ⟨valueText_of_holdsObject hsteps, hothers⟩
    refine .record (by decide) (keeps_listOf _ ?_)
    intro rest after value hread
    obtain ⟨found, middle, hfirst, hpure⟩ := read_bind_eq_ok hread
    cases hpure
    obtain ⟨hremains, hnot⟩ := keeps_elementAt_zero h hvalues
      (fun first hmem => Option.some.inj hmem ▸ keeps_steps hsteps) hfirst
    exact ⟨hremains, hnot⟩

end Reader

end FixedSupply.Json

namespace FixedSupply.Scenario

open Json

/-- Every text of a scenario, with any white space around it, is parsed to that scenario, and each scenario
has such a text. A text with a step object that lacks its caller or its function, or that repeats a field, is
refused, whatever its other values are. -/
theorem parse_renderings :
    (∀ scenario : Scenario, ∃ text, ScenarioText text scenario) ∧
      (∀ (scenario : Scenario) (text before after : List Char), ScenarioText text scenario →
        Blank before → Blank after →
          parse (String.ofList (before ++ (text ++ after))) = .ok scenario) ∧
      ∀ (members : List (String × List Char)) (text before after : List Char), HoldsStep members text →
        LacksOrRepeats (members.map Prod.fst) → Blank before → Blank after →
          ∃ flaw, parse (String.ofList (before ++ (text ++ after))) = .error flaw := by
  refine ⟨?_, ?_, ?_⟩
  · intro scenario
    exact ⟨_, scenarioText_writeScenario scenario⟩
  · intro scenario text before after htext hbefore hafter
    exact (Reader.takes_scenario htext).run hbefore hafter
  · intro members text before after hholds hfaulty hbefore hafter
    exact (Reader.keeps_scenario hholds).run_eq_error (fun _ hnot => hnot hfaulty) hbefore hafter

/-- The key of the caller is written with an escape and stands behind the expected verdict, the arguments are
left out, and another member holds a number and an empty object. In the other text, the function is given
twice. -/
theorem parse_renderings_of_escaped_key :
    let fields := "\"expect\":null, \"\\u0063aller\":\"c\",\"x\":[-1.5e3,\x7b\x7d],\"function\":\"f\"".toList
    let shuffled := "\x7b\"steps\" : [\x7b".toList ++ fields ++ "\x7d]\x7d".toList
    let members := [("function", quote "f"), ("caller", quote "c"), ("function", quote "g")]
    let repeated := writeObject [("steps", writeList [writeObject members])]
    (ScenarioText shuffled ⟨[⟨"c", "f", [], none⟩]⟩ ∧
      parse (String.ofList ([' '] ++ (shuffled ++ ['\n']))) = .ok ⟨[⟨"c", "f", [], none⟩]⟩) ∧
      (HoldsStep members repeated ∧ LacksOrRepeats (members.map Prod.fst) ∧
        ∃ flaw, parse (String.ofList ([] ++ (repeated ++ []))) = .error flaw) := by
  intro fields shuffled members repeated
  have hspace : Blank [' '] := by decide
  have hother : ValueText "[-1.5e3,\x7b\x7d]".toList := by
    have hnumber : ValueText "-1.5e3".toList :=
      .number (@NumberText.intro ['-'] ['1'] ['.', '5'] ['e', '3'] (.inr rfl) (by simp [WholeText, Digits])
        (.digits (by simp [Digits]))
        (@ExponentText.digits 'e' [] ['3'] (.inl rfl) (.inl rfl) (by simp [Digits])))
    have hobject : ValueText "\x7b\x7d".toList := .object (.empty blank_nil) (List.forall_mem_nil _)
    have htrail : Trail Eq (',' :: "\x7b\x7d".toList) ["\x7b\x7d".toList] :=
      @Trail.cons _ _ [] [] "\x7b\x7d".toList [] _ _ blank_nil blank_nil rfl (.nil blank_nil)
    exact .list (@Row.full _ _ [] "-1.5e3".toList _ _ _ blank_nil rfl htrail)
      (List.forall_mem_cons.mpr ⟨hnumber, List.forall_mem_singleton.mpr hobject⟩)
  have hkey : StringText "\"\\u0063aller\"".toList "caller" := by
    have hzero : Hex.Digit '0' 0 := ⟨by decide, .inl rfl⟩
    have hsix : Hex.Digit '6' 6 := ⟨by decide, .inl rfl⟩
    have hthree : Hex.Digit '3' 3 := ⟨by decide, .inl rfl⟩
    have hcode : CharText ['\\', 'u', '0', '0', '6', '3'] 'c' := .code (.intro hzero hzero hsix hthree)
    have hchars : CharsText "\\u0063aller".toList "caller".toList :=
      .cons hcode (charsText_flatMap "aller".toList)
    exact .intro hchars
  have hcaller := @Reader.MemberText.intro _ [] [] (quote "c") _ hkey blank_nil blank_nil
  have hrow : Row Reader.MemberText fields _ :=
    .full blank_nil (Reader.memberText_quote ("expect", "null".toList)) (.cons blank_nil hspace hcaller
      (.cons blank_nil blank_nil (Reader.memberText_quote ("x", "[-1.5e3,\x7b\x7d]".toList))
        (.cons blank_nil blank_nil (Reader.memberText_quote ("function", quote "f")) (.nil blank_nil))))
  have hstep : StepText ('\x7b' :: (fields ++ ['\x7d'])) ⟨"c", "f", [], none⟩ :=
    @StepText.intro _ (quote "c") (quote "f") _ [] [("expect", "null".toList)]
      [("x", "[-1.5e3,\x7b\x7d]".toList)] _ hrow (by decide) (stringText_quote "c") (stringText_quote "f")
      (.inl ⟨rfl, rfl⟩) (fieldText_written .null)
      (List.forall_mem_singleton.mpr ⟨by decide, hother⟩)
  have hscenario : ScenarioText shuffled ⟨[⟨"c", "f", [], none⟩]⟩ := by
    have hmember := @Reader.MemberText.intro _ [' '] [' '] ('[' :: ('\x7b' :: (fields ++ ['\x7d']) ++ [']'])) _
      (stringText_quote "steps") hspace hspace
    have hlist := Row.full blank_nil hstep (.nil blank_nil)
    exact .intro (.full blank_nil hmember (.nil blank_nil)) (.refl _) hlist (List.forall_mem_nil _)
  have hholds : HoldsStep members repeated := by
    have hquote (value : String) : ValueText (quote value) := .string (stringText_quote value)
    have hvalues : ∀ member ∈ members, ValueText member.2 := by
      simpa [members] using ⟨hquote "f", hquote "c", hquote "g"⟩
    have hobject : ObjectText (writeObject members) members := ⟨_, rfl, Reader.row_members members, hvalues⟩
    have hlist : HoldsObject (writeList [writeObject members]) members :=
      ⟨_, [writeObject members], rfl, @Row.full _ Eq [] (writeObject members) [] _ _ blank_nil rfl
        (.nil blank_nil), List.forall_mem_singleton.mpr (.object (Reader.row_members members) hvalues), _,
        List.mem_singleton_self _, hobject⟩
    have houter : ObjectText repeated [("steps", writeList [writeObject members])] :=
      ⟨_, rfl, Reader.row_members [("steps", _)],
        List.forall_mem_singleton.mpr (Reader.valueText_of_holdsObject hlist)⟩
    exact .object houter (List.mem_singleton_self _) hlist
  have hfaulty : LacksOrRepeats (members.map Prod.fst) :=
    .inr (.inr ⟨"function", by decide, by decide⟩)
  obtain ⟨-, hparse, hrefuse⟩ := parse_renderings
  exact ⟨⟨hscenario, hparse _ _ [' '] ['\n'] hscenario hspace (by decide)⟩, hholds, hfaulty,
    hrefuse _ _ [] [] hholds hfaulty blank_nil blank_nil⟩

end FixedSupply.Scenario
