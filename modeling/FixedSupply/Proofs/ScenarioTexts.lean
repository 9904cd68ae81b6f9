import FixedSupply.Proofs.HexSpellings
import FixedSupply.Proofs.ScenarioComposition

/-!
# Scenarios that end early

Whether a run ends before its last step, where it ends and with which flaw is decided by the texts of the
callers and of the arguments. A text spells a byte string if two digits for each byte are left of it once the
white space at both ends is gone.
-/

namespace FixedSupply

namespace Text

/-- The core is left of the text without the white space at both ends. -/
def Trims (text core : List Char) : Prop :=
  ∃ before after, text = before ++ (core ++ after) ∧ (∀ c ∈ before, isBlank c = true) ∧
    (∀ c ∈ after, isBlank c = true) ∧ (∀ c ∈ core.head?, isBlank c = false) ∧
      ∀ c ∈ core.getLast?, isBlank c = false

section Trims

variable {text core : List Char} {c : Char}

lemma isBlank_of_mem_head?_dropWhile (h : c ∈ (text.dropWhile isBlank).head?) : isBlank c = false := by
  have hall := List.head?_dropWhile_not isBlank text
  rw [Option.mem_def.mp h] at hall
  exact hall

lemma trims_trimChars (text : List Char) : Trims text (trimChars text) := by
  let rest := text.dropWhile isBlank
  have hrest : rest = trimChars text ++ (rest.reverse.takeWhile isBlank).reverse := by
    rw [trimChars, ← List.reverse_append, List.takeWhile_append_dropWhile, List.reverse_reverse]
  refine ⟨text.takeWhile isBlank, (rest.reverse.takeWhile isBlank).reverse, ?_, ?_, ?_, ?_, ?_⟩
  · rw [← hrest, List.takeWhile_append_dropWhile]
  · exact fun c hc => List.mem_takeWhile_imp hc
  · exact fun c hc => List.mem_takeWhile_imp (List.mem_reverse.mp hc)
  · intro c hc
    have hrestHead : c ∈ rest.head? → isBlank c = false := isBlank_of_mem_head?_dropWhile
    apply hrestHead
    rw [hrest, List.head?_append_of_ne_nil _ (List.ne_nil_of_mem (List.mem_of_mem_head? hc))]
    exact hc
  · intro c hc
    rw [trimChars, List.getLast?_reverse] at hc
    exact isBlank_of_mem_head?_dropWhile hc

lemma dropWhile_isBlank_append {before : List Char} (hbefore : ∀ c ∈ before, isBlank c = true)
    (hcore : ∀ c ∈ core.head?, isBlank c = false) (h : core ≠ []) (after : List Char) :
    (before ++ (core ++ after)).dropWhile isBlank = core ++ after := by
  obtain ⟨c, tail, rfl⟩ := List.exists_cons_of_ne_nil h
  have hc : ¬isBlank c = true := by simp [hcore c rfl]
  rw [List.dropWhile_append_of_pos hbefore, List.cons_append, List.dropWhile_cons_of_neg hc]

/-- A text is trimmed in one way only. -/
lemma Trims.trimChars_eq (h : Trims text core) : trimChars text = core := by
  obtain ⟨before, after, rfl, hbefore, hafter, hhead, hlast⟩ := h
  unfold trimChars
  by_cases hcore : core = []
  · subst hcore
    have hnone : (before ++ ([] ++ after)).dropWhile isBlank = [] := by
      rw [List.dropWhile_append_of_pos hbefore, List.nil_append, List.dropWhile_eq_nil_iff]
      exact hafter
    rw [hnone]
    rfl
  · have hreverse : (after.reverse ++ core.reverse).dropWhile isBlank = core.reverse := by
      have hcut := @dropWhile_isBlank_append core.reverse after.reverse
        (fun c hc => hafter c (List.mem_reverse.mp hc)) (by rwa [List.head?_reverse])
        (by simpa using hcore) []
      rwa [List.append_nil] at hcut
    rw [dropWhile_isBlank_append hbefore hhead hcore, List.reverse_append, hreverse,
      List.reverse_reverse]

lemma trims_iff : Trims text core ↔ trimChars text = core := by
  constructor
  · exact Trims.trimChars_eq
  · rintro rfl
    exact trims_trimChars text

end Trims

/-- The text spells the byte string, with white space around it or without. -/
def SpellsBytes (text : String) (bytes : Bytes) : Prop :=
  ∃ core, Trims text.toList core ∧ Hex.Spells core bytes

/-- Without the white space around it the text has the flaw. -/
def HasFlaw (text : String) (flaw : Hex.Flaw) : Prop :=
  ∃ core, Trims text.toList core ∧ Hex.Flawed (String.ofList core) flaw

/-- What is left without the white space has an odd number of bytes, or a byte that is no digit. -/
def Malformed (text : String) : Prop :=
  ∃ core, Trims text.toList core ∧ ((Bytes.ofString (String.ofList core)).length % 2 = 1 ∨
    ∃ byte ∈ Bytes.ofString (String.ofList core), ¬Hex.IsDigit byte)

lemma exists_hasFlaw_iff {text : String} : (∃ flaw, HasFlaw text flaw) ↔ Malformed text := by
  unfold HasFlaw Malformed
  simp only [← Hex.exists_flawed_iff]
  constructor
  · rintro ⟨flaw, core, hcore, hflaw⟩
    exact ⟨core, hcore, flaw, hflaw⟩
  · rintro ⟨core, hcore, flaw, hflaw⟩
    exact ⟨flaw, core, hcore, hflaw⟩

end Text

lemma Hex.Digit.isBlank_eq_false {c : Char} {n : ℕ} (h : Hex.Digit c n) : Text.isBlank c = false := by
  have hall : ∀ m < 16, Text.isBlank (Nat.digitChar m) = false ∧
      Text.isBlank (Nat.digitChar m).toUpper = false := by decide
  obtain ⟨hn, rfl | rfl⟩ := h
  · exact (hall n hn).1
  · exact (hall n hn).2

lemma Hex.Spells.isBlank_eq_false {text : List Char} {bytes : Bytes} (h : Hex.Spells text bytes) :
    ∀ c ∈ text, Text.isBlank c = false := by
  induction h with
  | nil => exact fun c hc => absurd hc List.not_mem_nil
  | cons hhigh hlow _ ih =>
    exact List.forall_mem_cons.mpr ⟨hhigh.isBlank_eq_false,
      List.forall_mem_cons.mpr ⟨hlow.isBlank_eq_false, ih⟩⟩

namespace Step

open Text

/-- The first flaw of a step: of the caller's text, of its length, or of the first flawed argument. -/
inductive Flawed (step : Step) : StepFlaw → Prop where
  | caller {flaw : Hex.Flaw} (h : HasFlaw step.caller flaw) : Flawed step (.hex flaw)
  | length {bytes : Bytes} (h : SpellsBytes step.caller bytes) (hlength : bytes.length ≠ 32) :
    Flawed step (.callerLength bytes.length)
  | argument {bytes : Bytes} {before after : List String} {text : String} {flaw : Hex.Flaw}
    (hcaller : SpellsBytes step.caller bytes) (hlength : bytes.length = 32)
    (hargs : step.args = before ++ text :: after) (hbefore : ∀ earlier ∈ before, ¬Malformed earlier)
    (h : HasFlaw text flaw) : Flawed step (.hex flaw)

section Decoding

variable {text : String} {bytes : Bytes} {step other : Step} {flaw : StepFlaw}

lemma decodeHex_eq_ok_iff : decodeHex text = .ok bytes ↔ SpellsBytes text bytes := by
  have hdecode : decodeHex text = .ok bytes ↔ Hex.decode (trim text) = .ok bytes := by
    unfold decodeHex
    cases Hex.decode (trim text) with
    | error flaw => simp [Except.mapError]
    | ok found => simp [Except.mapError]
  rw [hdecode, Hex.decode_eq_ok_iff, trim, String.toList_ofList]
  unfold SpellsBytes
  simp [trims_iff]

lemma decodeHex_eq_error_iff :
    decodeHex text = .error flaw ↔ ∃ found, HasFlaw text found ∧ flaw = .hex found := by
  have hdecode : decodeHex text = .error flaw ↔
      ∃ found, Hex.decode (trim text) = .error found ∧ flaw = .hex found := by
    unfold decodeHex
    cases Hex.decode (trim text) with
    | error found => simp [Except.mapError, eq_comm]
    | ok bytes => simp [Except.mapError]
  rw [hdecode]
  unfold HasFlaw
  simp [Hex.decode_eq_error_iff, trims_iff, trim]

lemma exists_spellsBytes_iff : (∃ bytes, SpellsBytes text bytes) ↔ ¬Malformed text := by
  rw [← exists_hasFlaw_iff]
  cases hdecode : decodeHex text with
  | error flaw =>
    obtain ⟨found, hfound, -⟩ := decodeHex_eq_error_iff.mp hdecode
    refine iff_of_false ?_ (by simpa using ⟨found, hfound⟩)
    rintro ⟨bytes, hbytes⟩
    exact absurd (hdecode.symm.trans (decodeHex_eq_ok_iff.mpr hbytes)) (by simp)
  | ok bytes =>
    refine iff_of_true ⟨bytes, decodeHex_eq_ok_iff.mp hdecode⟩ ?_
    rintro ⟨found, hfound⟩
    have herror := decodeHex_eq_error_iff.mpr ⟨found, hfound, rfl⟩
    exact absurd (hdecode.symm.trans herror) (by simp)

lemma spellsBytes_unique {others : Bytes} (h : SpellsBytes text bytes)
    (hothers : SpellsBytes text others) : bytes = others :=
  Except.ok.inj ((decodeHex_eq_ok_iff.mpr h).symm.trans (decodeHex_eq_ok_iff.mpr hothers))

lemma mapM_decodeHex_eq_error_iff {args : List String} :
    args.mapM decodeHex = .error flaw ↔ ∃ before arg after found, args = before ++ arg :: after ∧
      (∀ earlier ∈ before, ¬Malformed earlier) ∧ HasFlaw arg found ∧ flaw = .hex found := by
  rw [mapM_eq_error_iff]
  simp only [decodeHex_eq_ok_iff, exists_spellsBytes_iff, decodeHex_eq_error_iff, exists_and_left]

lemma decode_of_caller_eq_error (h : decodeHex step.caller = .error flaw) :
    step.decode = .error flaw := by
  unfold decode callerAddress
  rw [h]
  rfl

lemma decode_of_length_ne (h : decodeHex step.caller = .ok bytes) (hlength : bytes.length ≠ 32) :
    step.decode = .error (.callerLength bytes.length) := by
  have hnone : Bytes32.ofBytes? bytes = none := dif_neg hlength
  unfold decode callerAddress
  rw [h]
  simp only [bind, Except.bind, hnone]
  rfl

lemma decode_of_caller (h : decodeHex step.caller = .ok bytes) (hlength : bytes.length = 32) :
    step.decode = (step.args.mapM decodeHex).map fun arguments => (⟨bytes, hlength⟩, arguments) := by
  have hsome : Bytes32.ofBytes? bytes = some ⟨bytes, hlength⟩ := dif_pos hlength
  unfold decode callerAddress
  rw [h]
  simp only [bind, Except.bind, hsome]
  cases step.args.mapM decodeHex with
  | error other => rfl
  | ok arguments => rfl

lemma decode_eq_error_of_args (h : decodeHex step.caller = .ok bytes) (hlength : bytes.length = 32) :
    step.decode = .error flaw ↔ step.args.mapM decodeHex = .error flaw := by
  rw [decode_of_caller h hlength, map_eq_error_iff]

/-- A step is refused for its first flaw. -/
theorem decode_eq_error_iff : step.decode = .error flaw ↔ step.Flawed flaw := by
  constructor
  · intro h
    cases hcaller : decodeHex step.caller with
    | error other =>
      obtain rfl := Except.error.inj (h.symm.trans (decode_of_caller_eq_error hcaller))
      obtain ⟨found, hfound, rfl⟩ := decodeHex_eq_error_iff.mp hcaller
      exact .caller hfound
    | ok bytes =>
      have hspells := decodeHex_eq_ok_iff.mp hcaller
      by_cases hlength : bytes.length = 32
      · rw [decode_eq_error_of_args hcaller hlength, mapM_decodeHex_eq_error_iff] at h
        obtain ⟨before, arg, after, found, hargs, hbefore, hfound, rfl⟩ := h
        exact .argument hspells hlength hargs hbefore hfound
      · obtain rfl := Except.error.inj (h.symm.trans (decode_of_length_ne hcaller hlength))
        exact .length hspells hlength
  · rintro (hflaw | ⟨hspells, hlength⟩ | ⟨hspells, hlength, hargs, hbefore, hflaw⟩)
    · exact decode_of_caller_eq_error (decodeHex_eq_error_iff.mpr ⟨_, hflaw, rfl⟩)
    · exact decode_of_length_ne (decodeHex_eq_ok_iff.mpr hspells) hlength
    · rw [decode_eq_error_of_args (decodeHex_eq_ok_iff.mpr hspells) hlength,
        mapM_decodeHex_eq_error_iff]
      exact ⟨_, _, _, _, hargs, hbefore, hflaw, rfl⟩

lemma wellFormed_iff_forall_not_flawed : step.WellFormed ↔ ∀ flaw, ¬step.Flawed flaw := by
  simp only [← decode_eq_error_iff]
  unfold WellFormed
  cases step.decode with
  | error flaw => simp
  | ok invocation => simp

lemma exists_first_malformed {texts : List String} (h : ∃ text ∈ texts, Malformed text) :
    ∃ before text after, texts = before ++ text :: after ∧
      (∀ earlier ∈ before, ¬Malformed earlier) ∧ Malformed text := by
  classical
  have hsome : (texts.find? fun text => decide (Malformed text)).isSome = true := by
    simpa [List.find?_isSome] using h
  obtain ⟨text, hfind⟩ := Option.isSome_iff_exists.mp hsome
  obtain ⟨htext, before, after, hform, hbefore⟩ := List.find?_eq_some_iff_append.mp hfind
  exact ⟨before, text, after, hform, by simpa using hbefore, by simpa using htext⟩

/-- A step has a flaw if its caller or any of its arguments is malformed, or its caller has another length
than an address. -/
lemma exists_flawed_iff : (∃ flaw, step.Flawed flaw) ↔ Malformed step.caller ∨
    (∃ bytes, SpellsBytes step.caller bytes ∧ bytes.length ≠ 32) ∨
      ∃ text ∈ step.args, Malformed text := by
  constructor
  · rintro ⟨flaw, hflaw | ⟨hspells, hlength⟩ | ⟨hspells, hlength, hargs, hbefore, hflaw⟩⟩
    · exact .inl (exists_hasFlaw_iff.mp ⟨_, hflaw⟩)
    · exact .inr (.inl ⟨_, hspells, hlength⟩)
    · refine .inr (.inr ⟨_, ?_, exists_hasFlaw_iff.mp ⟨_, hflaw⟩⟩)
      rw [hargs]
      exact List.mem_append_right _ List.mem_cons_self
  · intro h
    by_cases hcaller : Malformed step.caller
    · obtain ⟨found, hfound⟩ := exists_hasFlaw_iff.mpr hcaller
      exact ⟨_, .caller hfound⟩
    obtain ⟨bytes, hspells⟩ := exists_spellsBytes_iff.mpr hcaller
    by_cases hlength : bytes.length = 32
    · rcases h with hbad | ⟨others, hothers, hne⟩ | hargs
      · exact absurd hbad hcaller
      · rw [spellsBytes_unique hothers hspells] at hne
        exact absurd hlength hne
      · obtain ⟨before, text, after, hform, hbefore, htext⟩ := exists_first_malformed hargs
        obtain ⟨found, hfound⟩ := exists_hasFlaw_iff.mpr htext
        exact ⟨_, .argument hspells hlength hform hbefore hfound⟩
    · exact ⟨_, .length hspells hlength⟩

end Decoding

end Step

namespace Scenario

open Text

variable {index : ℕ} {steps others : List Step} {host : Host} {flaw : ScenarioFlaw}

/-- A run ends early at the first flawed step. -/
theorem runFrom_eq_error_iff : (runFrom index steps host).1 = .error flaw ↔
    ∃ before step after, steps = before ++ step :: after ∧
      (∀ earlier ∈ before, ∀ found, ¬earlier.Flawed found) ∧ step.Flawed flaw.flaw ∧
        flaw.step = index + before.length := by
  constructor
  · intro h
    obtain ⟨before, step, after, outcomes, hform, hdecode, hnumber, hbefore⟩ :=
      exists_of_runFrom_eq_error (Prod.ext h rfl : runFrom index steps host = (.error flaw, _))
    refine ⟨before, step, after, hform, ?_, Step.decode_eq_error_iff.mp hdecode, hnumber⟩
    intro earlier hearlier
    exact Step.wellFormed_iff_forall_not_flawed.mp ((outcomes_of_runFrom hbefore).1 earlier hearlier)
  · rintro ⟨before, step, after, rfl, hbefore, hstep, hnumber⟩
    obtain ⟨outcomes, middle, hrun⟩ := exists_runFrom_eq_ok index before host fun earlier hearlier =>
      Step.wellFormed_iff_forall_not_flawed.mpr (hbefore earlier hearlier)
    rw [runFrom_append_of_ok _ hrun,
      runFrom_cons_of_error _ _ _ (Step.decode_eq_error_iff.mpr hstep), ← hnumber]
    rfl

lemma exists_runFrom_eq_error_iff : (∃ flaw, (runFrom index steps host).1 = .error flaw) ↔
    ∃ step ∈ steps, ∃ flaw, step.Flawed flaw := by
  constructor
  · rintro ⟨flaw, h⟩
    obtain ⟨before, step, after, rfl, -, hstep, -⟩ := runFrom_eq_error_iff.mp h
    exact ⟨step, List.mem_append_right _ List.mem_cons_self, _, hstep⟩
  · rintro ⟨step, hmem, flaw, hstep⟩
    have hflawed : ¬step.WellFormed := by
      rw [Step.wellFormed_iff_forall_not_flawed]
      exact fun hall => hall flaw hstep
    obtain ⟨found, final, hrun⟩ := exists_runFrom_eq_error ⟨step, hmem, hflawed⟩ index host
    exact ⟨found, congrArg Prod.fst hrun⟩

/-- The texts of a step that are decoded. -/
def texts (step : Step) : String × List String :=
  (step.caller, step.args)

lemma decode_congr {step other : Step} (h : texts step = texts other) : step.decode = other.decode := by
  obtain ⟨hcaller, hargs⟩ := Prod.mk.inj h
  unfold Step.decode Step.callerAddress
  rw [hcaller, hargs]

/-- Steps with the same texts end a run with the same flaw, on any two hosts. -/
theorem runFrom_eq_error_congr (h : steps.map texts = others.map texts) (host other : Host) :
    (runFrom index steps host).1 = .error flaw ↔ (runFrom index others other).1 = .error flaw := by
  induction steps generalizing index others host other with
  | nil =>
    obtain rfl : others = [] := List.map_eq_nil_iff.mp h.symm
    simp
  | cons step steps ih =>
    obtain ⟨first, others, rfl, hfirst, hothers⟩ := List.map_eq_cons_iff.mp h.symm
    have hdecode : first.decode = step.decode := decode_congr hfirst
    cases hstep : step.decode with
    | error found =>
      rw [runFrom_cons_of_error _ _ _ hstep, runFrom_cons_of_error _ _ _ (hdecode.trans hstep)]
    | ok invocation =>
      obtain ⟨caller, arguments⟩ := invocation
      rw [runFrom_cons_of_ok _ _ _ hstep, runFrom_cons_of_ok _ _ _ (hdecode.trans hstep),
        map_eq_error_iff, map_eq_error_iff]
      exact ih hothers.symm _ _

/-- A spelling with white space around it is decoded. -/
lemma decodeHex_of_spells {before digits after : List Char} {bytes : Bytes}
    (hbefore : ∀ c ∈ before, isBlank c = true) (hafter : ∀ c ∈ after, isBlank c = true)
    (h : Hex.Spells digits bytes) :
    Step.decodeHex (String.ofList (before ++ (digits ++ after))) = .ok bytes := by
  rw [Step.decodeHex_eq_ok_iff]
  refine ⟨digits, ⟨before, after, String.toList_ofList, hbefore, hafter, ?_, ?_⟩, h⟩
  · intro c hc
    exact h.isBlank_eq_false c (List.mem_of_mem_head? hc)
  · intro c hc
    exact h.isBlank_eq_false c (List.mem_of_getLast? hc)

/-- A run ends early if and only if a step has a caller or an argument that is malformed without the white
space around it, or a caller of another length than an address. It ends at the first such step, with that
step's first flaw, whatever host it runs on, and the function names and the expected verdicts have no part in
it. Digits of both cases with any white space around them are decoded to the bytes that they spell. -/
theorem abort_decided_by_texts :
    (∀ steps host, (∃ flaw, (run ⟨steps⟩ host).1 = .error flaw) ↔
      ∃ step ∈ steps, Malformed step.caller ∨
        (∃ bytes, SpellsBytes step.caller bytes ∧ bytes.length ≠ 32) ∨
          ∃ text ∈ step.args, Malformed text) ∧
      (∀ steps host flaw, (run ⟨steps⟩ host).1 = .error flaw ↔
        ∃ before step after, steps = before ++ step :: after ∧
          (∀ earlier ∈ before, ∀ found, ¬earlier.Flawed found) ∧ step.Flawed flaw.flaw ∧
            flaw.step = before.length) ∧
      (∀ steps others, steps.map texts = others.map texts → ∀ host other flaw,
        (run ⟨steps⟩ host).1 = .error flaw ↔ (run ⟨others⟩ other).1 = .error flaw) ∧
      ∀ before digits after bytes, (∀ c ∈ before, isBlank c = true) → (∀ c ∈ after, isBlank c = true) →
        Hex.Spells digits bytes →
          Step.decodeHex (String.ofList (before ++ (digits ++ after))) = .ok bytes := by
  refine ⟨?_, ?_, ?_, ?_⟩
  · intro steps host
    simp only [← Step.exists_flawed_iff]
    exact exists_runFrom_eq_error_iff
  · intro steps host flaw
    have hrun := @runFrom_eq_error_iff 0 steps host flaw
    simp only [Nat.zero_add] at hrun
    exact hrun
  · intro steps others htexts host other flaw
    exact runFrom_eq_error_congr htexts host other
  · intro before digits after bytes hbefore hafter hspells
    exact decodeHex_of_spells hbefore hafter hspells

/-- An argument with one digit ends the run before the unknown function is called, and a no-break space in
front of two digits is passed over. -/
theorem abort_decided_by_texts_of_odd_argument :
    let owner := String.ofList (List.replicate 64 '0')
    let unknown : Step := ⟨owner, "approve", ["0"], some "ok"⟩
    let mint : Step := ⟨owner, "init", ["0"], none⟩
    [unknown].map texts = [mint].map texts ∧
      (run ⟨[unknown]⟩ (.fresh false)).1 = .error ⟨0, .hex .oddLength⟩ ∧
        Step.decodeHex (String.ofList (['\u00a0'] ++ (['a', 'B'] ++ []))) = .ok [171] := by
  intro owner unknown mint
  obtain ⟨-, -, hsame, hspelled⟩ := abort_decided_by_texts
  have htexts : [unknown].map texts = [mint].map texts := rfl
  have hmint : (run ⟨[mint]⟩ (.fresh true)).1 = .error ⟨0, .hex .oddLength⟩ := by decide +kernel
  have hdigits : Hex.Spells ['a', 'B'] [171] :=
    .cons ⟨by decide, .inl rfl⟩ ⟨by decide, .inr rfl⟩ .nil
  exact ⟨htexts, (hsame _ _ htexts _ _ _).mpr hmint,
    hspelled ['\u00a0'] _ [] _ (List.forall_mem_singleton.mpr (by decide)) (List.forall_mem_nil _) hdigits⟩

end Scenario

end FixedSupply
