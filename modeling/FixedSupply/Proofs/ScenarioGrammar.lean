import FixedSupply.Json.Scenario
import FixedSupply.Proofs.JsonValues

/-!
# The texts of a scenario

The texts of steps and scenarios, apart from the readers: members in any order, others among them, and the
arguments and the expected verdict left out where there are none. Every such text is read to its scenario.
-/

namespace FixedSupply.Json

inductive StringsText : List Char → List String → Prop where
  | intro {row : List Char} {values : List String} (h : Row StringText row values) :
    StringsText ('[' :: (row ++ [']'])) values

inductive OptionText : List Char → Option String → Prop where
  | null : OptionText "null".toList none
  | string {text : List Char} {value : String} (h : StringText text value) : OptionText text (some value)

/-- The member of a field, which may be missing where the field has its default value. -/
def FieldText {α : Type} (name : String) (initial : α) (spells : List Char → α → Prop)
    (members : List (String × List Char)) (value : α) : Prop :=
  members = [] ∧ value = initial ∨ ∃ text, members = [(name, text)] ∧ spells text value

def stepNames : List String := ["caller", "function", "args", "expect"]

inductive StepText : List Char → Step → Prop where
  | intro {row caller function : List Char} {members args expect others : List (String × List Char)}
    {step : Step} (hrow : Row Reader.MemberText row members)
    (horder : members.Perm (("caller", caller) :: ("function", function) :: (args ++ (expect ++ others))))
    (hcaller : StringText caller step.caller) (hfunction : StringText function step.function)
    (hargs : FieldText "args" [] StringsText args step.args)
    (hexpect : FieldText "expect" none OptionText expect step.expect)
    (hothers : ∀ member ∈ others, member.1 ∉ stepNames ∧ ValueText member.2) :
    StepText ('\x7b' :: (row ++ ['\x7d'])) step

inductive ScenarioText : List Char → Scenario → Prop where
  | intro {row steps : List Char} {members others : List (String × List Char)} {scenario : Scenario}
    (hrow : Row Reader.MemberText row members)
    (horder : members.Perm (("steps", '[' :: (steps ++ [']'])) :: others))
    (hsteps : Row StepText steps scenario.steps)
    (hothers : ∀ member ∈ others, member.1 ≠ "steps" ∧ ValueText member.2) :
    ScenarioText ('\x7b' :: (row ++ ['\x7d'])) scenario

namespace Reader

variable {α : Type} {text : List Char} {members : List (String × List Char)} {name : String}

lemma takes_strings {values : List String} (h : StringsText text values) : strings.Takes text values := by
  cases h with
  | intro h => exact takes_list _ (h.mono fun _ _ => takes_text "a string")

lemma takes_string? {value? : Option String} (h : OptionText text value?) : string?.Takes text value? := by
  cases h with
  | null => exact takes_null
  | string h =>
    have htakes := takes_text "a string" h
    obtain ⟨tail, rfl, -⟩ := exists_spells h
    exact htakes.optional (by decide)

/-- The texts of the values under a name. -/
def valuesOf (name : String) (members : List (String × List Char)) : List (List Char) :=
  (members.filter (·.1 == name)).map (·.2)

lemma valuesOf_cons_self : valuesOf name ((name, text) :: members) = text :: valuesOf name members := by
  simp [valuesOf]

lemma valuesOf_cons_of_ne {key : String} (h : key ≠ name) :
    valuesOf name ((key, text) :: members) = valuesOf name members := by
  simp [valuesOf, h]

lemma valuesOf_append (others : List (String × List Char)) :
    valuesOf name (members ++ others) = valuesOf name members ++ valuesOf name others := by
  simp [valuesOf]

lemma valuesOf_eq_nil (h : ∀ member ∈ members, member.1 ≠ name) : valuesOf name members = [] := by
  simpa [valuesOf] using h

lemma valuesOf_perm (name : String) {others : List (String × List Char)} (h : members.Perm others) :
    (valuesOf name members).Perm (valuesOf name others) :=
  (h.filter _).map _

/-- A field is filled from the texts under its name: from none, or from one if it is empty. -/
def Filled (item : Reader α) (current : Option α) (texts : List (List Char)) (last : Option α) : Prop :=
  texts = [] ∧ last = current ∨
    ∃ text value, texts = [text] ∧ current = none ∧ item.Takes text value ∧ last = some value

lemma Filled.of_cons {item : Reader α} {current last : Option α} {texts : List (List Char)}
    (h : Filled item current (text :: texts) last) :
    current = none ∧ texts = [] ∧ ∃ value, item.Takes text value ∧ last = some value := by
  rcases h with ⟨hnil, -⟩ | ⟨found, value, htexts, hcurrent, htakes, hlast⟩
  · cases hnil
  · cases htexts
    exact ⟨hcurrent, rfl, value, htakes, hlast⟩

lemma Filled.of_nil {item : Reader α} {current last : Option α} (h : Filled item current [] last) :
    last = current := by
  rcases h with ⟨-, hlast⟩ | ⟨_, _, hnil, -⟩
  · exact hlast
  · cases hnil

lemma takesMember_otherField {δ : Type} (h : ValueText text) (draft : δ) :
    (otherField draft).TakesMember text draft := by
  intro blank gap rest hblank hgap hrest
  unfold otherField
  rw [read_bind_of_ok (read_colon hblank), read_bind_of_ok ((takes_skip h).read hgap hrest), read_pure]

lemma stepMember_of_not_mem {key : String} (h : key ∉ stepNames) (draft : StepDraft) :
    stepMember draft key = otherField draft := by
  unfold stepMember
  split
  · exact absurd (by decide) h
  · exact absurd (by decide) h
  · exact absurd (by decide) h
  · exact absurd (by decide) h
  · rfl

/-- Members in any order fill a draft if each field can be filled from the texts under its name. -/
lemma fills_stepMember {draft last : StepDraft}
    (hcaller : Filled (Reader.text "a string") draft.caller (valuesOf "caller" members) last.caller)
    (hfunction : Filled (Reader.text "a string") draft.function (valuesOf "function" members) last.function)
    (hargs : Filled strings draft.args (valuesOf "args" members) last.args)
    (hexpect : Filled string? draft.expect (valuesOf "expect" members) last.expect)
    (hothers : ∀ member ∈ members, member.1 ∉ stepNames → ValueText member.2) :
    Fills stepMember draft members last := by
  -- In each case only the texts of the key at hand get shorter, so the draft filled so far is generalized.
  induction members generalizing draft with
  | nil =>
    obtain ⟨caller, function, args, expect⟩ := last
    obtain rfl : caller = draft.caller := hcaller.of_nil
    obtain rfl : function = draft.function := hfunction.of_nil
    obtain rfl : args = draft.args := hargs.of_nil
    obtain rfl : expect = draft.expect := hexpect.of_nil
    exact .nil
  | cons member members ih =>
    obtain ⟨key, text⟩ := member
    obtain ⟨hfirst, hrest⟩ := List.forall_mem_cons.mp hothers
    obtain ⟨caller, function, args, expect⟩ := draft
    by_cases hcallerKey : key = "caller"
    · subst hcallerKey
      rw [valuesOf_cons_self] at hcaller
      rw [valuesOf_cons_of_ne (by decide)] at hfunction hargs hexpect
      obtain ⟨rfl, hnone, value, htakes, hlast⟩ := hcaller.of_cons
      have hmember := (htakes.newField "caller").map fun caller =>
        StepDraft.mk caller function args expect
      exact .cons hmember (ih (.inl ⟨hnone, hlast⟩) hfunction hargs hexpect hrest)
    by_cases hfunctionKey : key = "function"
    · subst hfunctionKey
      rw [valuesOf_cons_self] at hfunction
      rw [valuesOf_cons_of_ne (by decide)] at hcaller hargs hexpect
      obtain ⟨rfl, hnone, value, htakes, hlast⟩ := hfunction.of_cons
      have hmember := (htakes.newField "function").map fun function =>
        StepDraft.mk caller function args expect
      exact .cons hmember (ih hcaller (.inl ⟨hnone, hlast⟩) hargs hexpect hrest)
    by_cases hargsKey : key = "args"
    · subst hargsKey
      rw [valuesOf_cons_self] at hargs
      rw [valuesOf_cons_of_ne (by decide)] at hcaller hfunction hexpect
      obtain ⟨rfl, hnone, value, htakes, hlast⟩ := hargs.of_cons
      have hmember := (htakes.newField "args").map fun args =>
        StepDraft.mk caller function args expect
      exact .cons hmember (ih hcaller hfunction (.inl ⟨hnone, hlast⟩) hexpect hrest)
    by_cases hexpectKey : key = "expect"
    · subst hexpectKey
      rw [valuesOf_cons_self] at hexpect
      rw [valuesOf_cons_of_ne (by decide)] at hcaller hfunction hargs
      obtain ⟨rfl, hnone, value, htakes, hlast⟩ := hexpect.of_cons
      have hmember := (htakes.newField "expect").map fun expect =>
        StepDraft.mk caller function args expect
      exact .cons hmember (ih hcaller hfunction hargs (.inl ⟨hnone, hlast⟩) hrest)
    · have hkey : key ∉ stepNames := by simp [stepNames, hcallerKey, hfunctionKey, hargsKey, hexpectKey]
      rw [valuesOf_cons_of_ne ‹_›] at hcaller hfunction hargs hexpect
      refine .cons ?_ (ih hcaller hfunction hargs hexpect hrest)
      rw [stepMember_of_not_mem hkey]
      exact takesMember_otherField (hfirst hkey) _

section Fields

variable {spells : List Char → α → Prop} {initial value : α} {item : Reader α}

lemma name_of_mem_fieldText (h : FieldText name initial spells members value)
    {member : String × List Char} (hmem : member ∈ members) : member.1 = name := by
  rcases h with ⟨rfl, -⟩ | ⟨text, rfl, -⟩
  · exact absurd hmem List.not_mem_nil
  · rw [List.mem_singleton.mp hmem]

lemma valuesOf_fieldText_of_ne {other : String} (h : FieldText name initial spells members value)
    (hne : name ≠ other) : valuesOf other members = [] := by
  apply valuesOf_eq_nil
  intro member hmem
  rwa [name_of_mem_fieldText h hmem]

/-- A field that may be missing is filled with its value, or left empty where that is the initial one. -/
lemma exists_filled {texts : List (List Char)} (h : FieldText name initial spells members value)
    (htexts : texts.Perm (valuesOf name members))
    (hitem : ∀ text value, spells text value → item.Takes text value) :
    ∃ last, Filled item none texts last ∧ last.getD initial = value := by
  rcases h with ⟨rfl, rfl⟩ | ⟨text, rfl, htext⟩
  · exact ⟨none, .inl ⟨htexts.eq_nil, rfl⟩, rfl⟩
  · rw [valuesOf_cons_self] at htexts
    have hsingle : texts = [text] := List.perm_singleton.mp htexts
    exact ⟨some value, .inr ⟨text, value, hsingle, rfl, hitem text value htext, rfl⟩, rfl⟩

end Fields

section Order

variable {caller function : List Char} {args expect others : List (String × List Char)} {step : Step}
  (horder : members.Perm (("caller", caller) :: ("function", function) :: (args ++ (expect ++ others))))
  (hargs : FieldText "args" [] StringsText args step.args)
  (hexpect : FieldText "expect" none OptionText expect step.expect)
  (hothers : ∀ member ∈ others, member.1 ∉ stepNames ∧ ValueText member.2)

include horder hargs hexpect hothers

/-- In any order of the members, the fields have the same texts. -/
lemma valuesOf_of_order :
    valuesOf "caller" members = [caller] ∧ valuesOf "function" members = [function] ∧
      (valuesOf "args" members).Perm (valuesOf "args" args) ∧
      (valuesOf "expect" members).Perm (valuesOf "expect" expect) := by
  have hnone : ∀ name ∈ stepNames, valuesOf name others = [] := by
    intro name hname
    apply valuesOf_eq_nil
    rintro member hmem rfl
    exact (hothers member hmem).1 hname
  have hcaller := valuesOf_perm "caller" horder
  have hfunction := valuesOf_perm "function" horder
  have hargsTexts := valuesOf_perm "args" horder
  have hexpectTexts := valuesOf_perm "expect" horder
  rw [valuesOf_cons_self, valuesOf_cons_of_ne (by decide), valuesOf_append, valuesOf_append,
    valuesOf_fieldText_of_ne hargs (by decide), valuesOf_fieldText_of_ne hexpect (by decide),
    hnone _ (by decide)] at hcaller
  rw [valuesOf_cons_of_ne (by decide), valuesOf_cons_self, valuesOf_append, valuesOf_append,
    valuesOf_fieldText_of_ne hargs (by decide), valuesOf_fieldText_of_ne hexpect (by decide),
    hnone _ (by decide)] at hfunction
  rw [valuesOf_cons_of_ne (by decide), valuesOf_cons_of_ne (by decide), valuesOf_append, valuesOf_append,
    valuesOf_fieldText_of_ne hexpect (by decide), hnone _ (by decide), List.append_nil,
    List.append_nil] at hargsTexts
  rw [valuesOf_cons_of_ne (by decide), valuesOf_cons_of_ne (by decide), valuesOf_append, valuesOf_append,
    valuesOf_fieldText_of_ne hargs (by decide), hnone _ (by decide), List.nil_append,
    List.append_nil] at hexpectTexts
  exact ⟨List.perm_singleton.mp hcaller, List.perm_singleton.mp hfunction, hargsTexts, hexpectTexts⟩

lemma valueText_of_order {member : String × List Char} (hmem : member ∈ members)
    (hname : member.1 ∉ stepNames) : ValueText member.2 := by
  have hplace := horder.mem_iff.mp hmem
  simp only [List.mem_cons, List.mem_append] at hplace
  rcases hplace with rfl | rfl | hmem | hmem | hmem
  · exact absurd (by simp [stepNames]) hname
  · exact absurd (by simp [stepNames]) hname
  · rw [name_of_mem_fieldText hargs hmem] at hname
    exact absurd (by decide) hname
  · rw [name_of_mem_fieldText hexpect hmem] at hname
    exact absurd (by decide) hname
  · exact (hothers member hmem).2

end Order

/-- A step is read from any text of it. -/
theorem takes_step {step : Step} (h : StepText text step) : Reader.step.Takes text step := by
  cases h with
  | intro hrow horder hcaller hfunction hargs hexpect hothers =>
    obtain ⟨hcallerTexts, hfunctionTexts, hargsTexts, hexpectTexts⟩ :=
      valuesOf_of_order horder hargs hexpect hothers
    obtain ⟨args?, hargsFilled, hargsValue⟩ := exists_filled hargs hargsTexts fun _ _ => takes_strings
    obtain ⟨expect?, hexpectFilled, hexpectValue⟩ :=
      exists_filled hexpect hexpectTexts fun _ _ => takes_string?
    have hcallerFilled : Filled (Reader.text "a string") none _ (some step.caller) :=
      .inr ⟨_, _, hcallerTexts, rfl, takes_text _ hcaller, rfl⟩
    have hfunctionFilled : Filled (Reader.text "a string") none _ (some step.function) :=
      .inr ⟨_, _, hfunctionTexts, rfl, takes_text _ hfunction, rfl⟩
    have hvalue : expect?.join = step.expect := by
      rw [← hexpectValue]
      cases expect? with
      | none => rfl
      | some value => rfl
    have hfills : Fills stepMember ⟨none, none, none, none⟩ _
        ⟨some step.caller, some step.function, args?, expect?⟩ :=
      fills_stepMember hcallerFilled hfunctionFilled hargsFilled hexpectFilled
        fun _ => valueText_of_order horder hargs hexpect hothers
    refine takes_record hrow hfills ?_
    change Except.ok (Step.mk step.caller step.function (args?.getD []) expect?.join) = .ok step
    rw [hargsValue, hvalue]

lemma scenarioMember_of_ne {key : String} (h : key ≠ "steps") (draft : ScenarioDraft) :
    scenarioMember draft key = otherField draft := by
  unfold scenarioMember
  split
  · exact absurd rfl h
  · rfl

lemma fills_scenarioMember {draft last : ScenarioDraft}
    (hsteps : Filled steps draft.steps (valuesOf "steps" members) last.steps)
    (hothers : ∀ member ∈ members, member.1 ≠ "steps" → ValueText member.2) :
    Fills scenarioMember draft members last := by
  induction members generalizing draft with
  | nil =>
    obtain ⟨steps⟩ := last
    obtain rfl : steps = draft.steps := hsteps.of_nil
    exact .nil
  | cons member members ih =>
    obtain ⟨key, text⟩ := member
    obtain ⟨hfirst, hrest⟩ := List.forall_mem_cons.mp hothers
    obtain ⟨steps⟩ := draft
    by_cases hkey : key = "steps"
    · subst hkey
      rw [valuesOf_cons_self] at hsteps
      obtain ⟨rfl, hnone, value, htakes, hlast⟩ := hsteps.of_cons
      exact .cons ((htakes.newField "steps").map ScenarioDraft.mk) (ih (.inl ⟨hnone, hlast⟩) hrest)
    · rw [valuesOf_cons_of_ne hkey] at hsteps
      refine .cons ?_ (ih hsteps hrest)
      rw [scenarioMember_of_ne hkey]
      exact takesMember_otherField (hfirst hkey) _

/-- A scenario is read from any text of it. -/
theorem takes_scenario {scenario : Scenario} (h : ScenarioText text scenario) :
    Reader.scenario.Takes text scenario := by
  cases h with
  | @intro row list members others _ hrow horder hsteps hothers =>
    have htexts := valuesOf_perm "steps" horder
    rw [valuesOf_cons_self, valuesOf_eq_nil fun member hmem => (hothers member hmem).1] at htexts
    have hlist : Reader.steps.Takes ('[' :: (list ++ [']'])) scenario.steps :=
      takes_list _ (hsteps.mono fun _ _ => takes_step)
    have hvalues : ∀ member ∈ members, member.1 ≠ "steps" → ValueText member.2 := by
      intro member hmem hname
      rcases List.mem_cons.mp (horder.mem_iff.mp hmem) with rfl | hmem
      · exact absurd rfl hname
      · exact (hothers member hmem).2
    have hfills : Fills scenarioMember ⟨none⟩ members ⟨some scenario.steps⟩ :=
      fills_scenarioMember (.inr ⟨_, _, List.perm_singleton.mp htexts, rfl, hlist, rfl⟩) hvalues
    exact takes_record hrow hfills rfl

end Reader

lemma fieldText_written {α : Type} {name : String} {initial value : α} {spells : List Char → α → Prop}
    {text : List Char} (h : spells text value) : FieldText name initial spells [(name, text)] value :=
  .inr ⟨text, rfl, h⟩

lemma stringsText_writeStrings (texts : List String) : StringsText (writeStrings texts) texts :=
  .intro (row_commaSeparated fun text _ => stringText_quote text)

lemma optionText_writeOption (value? : Option String) : OptionText (writeOption quote value?) value? := by
  cases value? with
  | none => exact .null
  | some value => exact .string (stringText_quote value)

lemma stepText_writeStep (step : Step) : StepText (writeStep step) step :=
  .intro (Reader.row_members _) (.refl _) (stringText_quote step.caller) (stringText_quote step.function)
    (fieldText_written (stringsText_writeStrings step.args))
    (fieldText_written (optionText_writeOption step.expect)) (List.forall_mem_nil _)

/-- The written form of a scenario is one of its texts. -/
theorem scenarioText_writeScenario (scenario : Scenario) :
    ScenarioText (writeScenario scenario) scenario :=
  .intro (Reader.row_members _) (.refl _) (row_commaSeparated fun step _ => stepText_writeStep step)
    (List.forall_mem_nil _)

end FixedSupply.Json
