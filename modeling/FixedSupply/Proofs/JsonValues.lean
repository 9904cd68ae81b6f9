import FixedSupply.Proofs.JsonCollections

/-!
# Values of any shape

The texts of all well-formed values, lists and objects in each other to any depth, and the reader that passes
over a value without looking at it. The frames around a value are left as they were.
-/

namespace FixedSupply.Json

/-- The well-formed texts of values. -/
inductive ValueText : List Char → Prop where
  | null : ValueText "null".toList
  | true : ValueText "true".toList
  | false : ValueText "false".toList
  | number {text : List Char} (h : NumberText text) : ValueText text
  | string {text : List Char} {value : String} (h : StringText text value) : ValueText text
  | list {row : List Char} {items : List (List Char)} (hrow : Row Eq row items)
    (h : ∀ item ∈ items, ValueText item) : ValueText ('[' :: (row ++ [']']))
  | object {row : List Char} {members : List (String × List Char)} (hrow : Row Reader.MemberText row members)
    (h : ∀ member ∈ members, ValueText member.2) : ValueText ('\x7b' :: (row ++ ['\x7d']))

section Head

lemma isDigit_or_of_numberText {text : List Char} (h : NumberText text) :
    ∃ c tail, text = c :: tail ∧ (c = '-' ∨ c.isDigit = true) := by
  cases h with
  | intro hsign hwhole hfraction hexponent =>
    rcases hsign with rfl | rfl
    · obtain ⟨⟨hne, hdigits⟩, -⟩ := hwhole
      obtain ⟨c, tail, rfl⟩ := List.exists_cons_of_ne_nil hne
      exact ⟨c, _, rfl, .inr (hdigits c List.mem_cons_self)⟩
    · exact ⟨'-', _, rfl, .inl rfl⟩

lemma opens_of_number {c : Char} (h : c = '-' ∨ c.isDigit = true) : Opens c := by
  rcases h with rfl | h
  · decide
  · exact Reader.opens_of_isDigit h

lemma ValueText.head {text : List Char} (h : ValueText text) : ∃ c tail, text = c :: tail ∧ Opens c := by
  cases h with
  | null => exact ⟨'n', _, rfl, by decide⟩
  | true => exact ⟨'t', _, rfl, by decide⟩
  | false => exact ⟨'f', _, rfl, by decide⟩
  | number h =>
    obtain ⟨c, tail, rfl, hc⟩ := isDigit_or_of_numberText h
    exact ⟨c, tail, rfl, opens_of_number hc⟩
  | string h =>
    cases h with
    | intro h => exact ⟨'"', _, rfl, by decide⟩
  | list hrow h => exact ⟨'[', _, rfl, by decide⟩
  | object hrow h => exact ⟨'\x7b', _, rfl, by decide⟩

end Head

namespace Reader

variable {text blank gap rest : List Char}

section Scalars

/-- What follows the digits of a number does not go on with a digit. -/
lemma head?_fraction {fraction exponent : List Char} (hfraction : FractionText fraction)
    (hexponent : ExponentText exponent) (hrest : Boundary rest) :
    ∀ c ∈ (fraction ++ (exponent ++ rest)).head?, c.isDigit = false := by
  intro c hc
  cases hfraction with
  | digits h =>
    obtain rfl : '.' = c := Option.some.inj hc
    decide
  | none =>
    cases hexponent with
    | none => exact (hrest c hc).1
    | @digits letter _ _ hletter _ _ =>
      obtain rfl : letter = c := Option.some.inj hc
      rcases hletter with rfl | rfl
      · decide
      · decide

lemma read_fractionDigits?_of_text {fraction exponent : List Char} {atEnd : Flaw}
    (hfraction : FractionText fraction) (hexponent : ExponentText exponent) (hrest : Boundary rest) :
    ∃ found, (fractionDigits? atEnd).read (fraction ++ (exponent ++ rest)) =
      .ok (found, exponent ++ rest) := by
  unfold fractionDigits?
  cases hfraction with
  | none =>
    refine ⟨none, ?_⟩
    have hpoint : (exponent ++ rest).head? ≠ some '.' := by
      intro hhead
      cases hexponent with
      | none => exact (hrest '.' hhead).2.1 rfl
      | @digits letter _ _ hletter _ _ =>
        obtain rfl : letter = '.' := Option.some.inj hhead
        exact absurd hletter (by decide)
    rw [List.nil_append, read_bind_of_ok (read_peek _), if_neg hpoint, read_pure]
  | @digits digits h =>
    have hdigits : (Reader.digits atEnd).read (digits ++ (exponent ++ rest)) =
        .ok (digits, exponent ++ rest) :=
      read_digits h (head?_fraction .none hexponent hrest)
    refine ⟨some digits, ?_⟩
    rw [List.cons_append, read_bind_of_ok (read_peek _), List.head?_cons, if_pos rfl,
      read_bind_of_ok (read_advance _ _), read_bind_of_ok hdigits, read_pure]

lemma read_exponent?_of_text {exponent : List Char} {atEnd : Flaw} (hexponent : ExponentText exponent)
    (hrest : Boundary rest) :
    ∃ found, (exponent? atEnd).read (exponent ++ rest) = .ok (found, rest) := by
  cases hexponent with
  | none => exact ⟨none, read_exponent? hrest⟩
  | @digits letter sign digits hletter hsign h =>
    have hdigits : (Reader.digits atEnd).read (digits ++ rest) = .ok (digits, rest) :=
      read_digits h fun c hc => (hrest c hc).1
    have hopen : some letter = some 'e' ∨ some letter = some 'E' :=
      hletter.imp (congrArg some) (congrArg some)
    unfold exponent?
    rw [List.cons_append, read_bind_of_ok (read_peek _), List.head?_cons, if_pos hopen,
      read_bind_of_ok (read_advance _ _), List.append_assoc, read_bind_of_ok (read_peek _)]
    rcases hsign with rfl | rfl | rfl
    · obtain ⟨c, tail, rfl⟩ := List.exists_cons_of_ne_nil h.1
      have hc : c.isDigit = true := h.2 c List.mem_cons_self
      have hsign : ¬(some c = some '+' ∨ some c = some '-') := by
        rintro (heq | heq)
        · obtain rfl := Option.some.inj heq
          exact absurd hc (by decide)
        · obtain rfl := Option.some.inj heq
          exact absurd hc (by decide)
      rw [List.nil_append, List.cons_append, List.head?_cons, if_neg hsign]
      exact ⟨_, read_bind_of_ok hdigits⟩
    · rw [List.singleton_append, List.head?_cons, if_pos (.inl rfl),
        read_bind_of_ok (read_advance _ _)]
      exact ⟨_, read_bind_of_ok hdigits⟩
    · rw [List.singleton_append, List.head?_cons, if_pos (.inr rfl),
        read_bind_of_ok (read_advance _ _)]
      exact ⟨_, read_bind_of_ok hdigits⟩

/-- The sign is passed over, if there is one, and the digits follow it. -/
lemma exists_read_numeral {atEnd : Flaw} (h : NumberText text) (hrest : Boundary rest) :
    ∃ numeral, (Reader.numeral atEnd).read (text ++ rest) = .ok (numeral, rest) := by
  cases h with
  | @intro sign whole fraction exponent hsign hwhole hfraction hexponent =>
    obtain ⟨found, hreadFraction⟩ := @read_fractionDigits?_of_text rest fraction exponent atEnd
      hfraction hexponent hrest
    obtain ⟨power, hreadExponent⟩ := @read_exponent?_of_text rest exponent atEnd hexponent hrest
    have hreadWhole : (wholeDigits atEnd).read (whole ++ (fraction ++ (exponent ++ rest))) =
        .ok (whole, fraction ++ (exponent ++ rest)) :=
      read_wholeDigits hwhole (head?_fraction hfraction hexponent hrest)
    unfold Reader.numeral
    simp only [List.append_assoc]
    rw [read_bind_of_ok (read_peek _)]
    rcases hsign with rfl | rfl
    · obtain ⟨c, tail, rfl⟩ := List.exists_cons_of_ne_nil hwhole.1.1
      have hc : ¬some c = some '-' := by
        intro heq
        obtain rfl := Option.some.inj heq
        exact absurd (hwhole.1.2 '-' List.mem_cons_self) (by decide)
      refine ⟨⟨false, c :: tail, found, power⟩, ?_⟩
      simp only [List.nil_append, List.cons_append, List.head?_cons, hc, decide_false, if_false]
      exact (read_bind_of_ok hreadWhole).trans ((read_bind_of_ok hreadFraction).trans
        (read_bind_of_ok hreadExponent))
    · refine ⟨⟨true, whole, found, power⟩, ?_⟩
      simp only [List.singleton_append, List.head?_cons, decide_true, if_true]
      rw [read_bind_of_ok (read_advance _ _)]
      exact (read_bind_of_ok hreadWhole).trans ((read_bind_of_ok hreadFraction).trans
        (read_bind_of_ok hreadExponent))

lemma read_skipNumber (h : NumberText text) (hrest : Boundary rest) :
    skipNumber.read (text ++ rest) = .ok ((), rest) := by
  obtain ⟨numeral, hread⟩ := @exists_read_numeral _ _ .invalidNumber h hrest
  unfold skipNumber
  rw [read_bind_of_ok hread, read_pure]

end Scalars

section SkippedStrings

variable {c : Char} {n : ℕ} {digits reversed : List Char}

lemma read_looseCode (h : UnitText digits n) :
    looseCode.read (digits ++ rest) = .ok (Char.ofNat n, rest) := by
  unfold looseCode
  rw [read_bind_of_ok (read_codeUnit h), read_pure]

/-- The two surrogates of a character are passed over one after the other. -/
lemma exists_unquoteFrom_charText (h : CharText text c) (reversed rest : List Char) :
    ∃ found, unquoteFrom looseCode reversed (text ++ rest) = unquoteFrom looseCode found rest := by
  cases h with
  | plain hcontrol hquote hbackslash => exact ⟨_, unquoteFrom_plain hcontrol hquote hbackslash⟩
  | letter h => exact ⟨_, unquoteFrom_letter h⟩
  | code h => exact ⟨_, unquoteFrom_code (read_looseCode h)⟩
  | surrogates hlarge hleading htrailing =>
    simp only [List.cons_append, List.append_assoc]
    exact ⟨_, (unquoteFrom_code (read_looseCode hleading)).trans
      (unquoteFrom_code (read_looseCode htrailing))⟩

lemma exists_unquoteFrom_charsText {cs : List Char} (h : CharsText text cs) (reversed rest : List Char) :
    ∃ found, unquoteFrom looseCode reversed (text ++ '"' :: rest) = .ok (found, rest) := by
  induction h generalizing reversed with
  | nil => exact ⟨_, by rw [List.nil_append, unquoteFrom]⟩
  | @cons text others cs c hchar _ ih =>
    obtain ⟨next, hnext⟩ := exists_unquoteFrom_charText hchar reversed (others ++ '"' :: rest)
    obtain ⟨found, hfound⟩ := ih next
    refine ⟨found, ?_⟩
    rw [List.append_assoc, hnext, hfound]

lemma exists_read_skipString {value : String} (h : StringText text value) :
    ∃ tail, text = '"' :: tail ∧ ∀ rest, skipString.read (tail ++ rest) = .ok ((), rest) := by
  cases h with
  | @intro chars _ hchars =>
    refine ⟨chars ++ ['"'], rfl, ?_⟩
    intro rest
    obtain ⟨found, hfound⟩ := exists_unquoteFrom_charsText hchars [] rest
    have hread : (unquote looseCode).read (chars ++ '"' :: rest) = .ok (found, rest) := hfound
    unfold skipString
    rw [List.append_assoc, List.singleton_append, read_bind_of_ok hread, read_pure]

end SkippedStrings

section Skipping

variable {frame : Frame} {frames outer : List Frame} {position : Position}

/-- Goes on after a value with the frames around it. -/
def resume : List Frame → List Char → Except Flaw (Unit × List Char)
  | [], rest => .ok ((), rest)
  | frame :: outer, rest => skipFrame frame outer .next rest

lemma skipFrom_of_scalar (h : skipScalar.read text = .ok (none, rest)) :
    skipFrom frames text = resume frames rest := by
  rw [skipFrom]
  split
  · next hread => exact absurd (hread.symm.trans h) (by simp)
  · next hread => exact absurd (hread.symm.trans h) (by simp)
  · next hread =>
    obtain ⟨-, rfl⟩ := Prod.mk.inj (Except.ok.inj (hread.symm.trans h))
    cases frames with
    | nil => rfl
    | cons frame outer => rfl

lemma skipFrom_of_frame (h : skipScalar.read text = .ok (some frame, rest)) :
    skipFrom frames text = skipFrame frame frames .first rest := by
  rw [skipFrom]
  split
  · next hread => exact absurd (hread.symm.trans h) (by simp)
  · next hread =>
    obtain ⟨hframe, rfl⟩ := Prod.mk.inj (Except.ok.inj (hread.symm.trans h))
    obtain rfl := Option.some.inj hframe
    rfl
  · next hread => exact absurd (hread.symm.trans h) (by simp)

lemma skipFrame_of_close (h : (skipGap frame position).read text = .ok (true, rest)) :
    skipFrame frame outer position text = resume outer rest := by
  rw [skipFrame]
  split
  · next hread => exact absurd (hread.symm.trans h) (by simp)
  · next hread =>
    obtain ⟨-, rfl⟩ := Prod.mk.inj (Except.ok.inj (hread.symm.trans h))
    cases outer with
    | nil => rfl
    | cons frame outer => rfl
  · next hread => exact absurd (hread.symm.trans h) (by simp)

lemma skipFrame_of_item (h : (skipGap frame position).read text = .ok (false, rest)) :
    skipFrame frame outer position text = skipFrom (frame :: outer) rest := by
  rw [skipFrame]
  split
  · next hread => exact absurd (hread.symm.trans h) (by simp)
  · next hread => exact absurd (hread.symm.trans h) (by simp)
  · next hread =>
    obtain ⟨-, rfl⟩ := Prod.mk.inj (Except.ok.inj (hread.symm.trans h))
    rfl

/-- The text is passed over inside any frames, which are gone on with. -/
def Skipped (text : List Char) : Prop :=
  ∀ ⦃frames : List Frame⦄ ⦃blank rest : List Char⦄, Blank blank → Boundary rest →
    skipFrom frames (blank ++ (text ++ rest)) = resume frames rest

/-- An element of the frame, a member's key included, is passed over. -/
structure SkippedIn (frame : Frame) (text : List Char) : Prop where
  head : ∃ c tail, text = c :: tail ∧ Opens c
  skip : ∀ ⦃outer : List Frame⦄ ⦃blank rest : List Char⦄, Blank blank → Boundary rest →
    ∃ middle, (skipKey frame).read (blank ++ (text ++ rest)) = .ok ((), middle) ∧
      skipFrom (frame :: outer) middle = skipFrame frame outer .next rest

lemma skippedIn_list (hhead : ∃ c tail, text = c :: tail ∧ Opens c) (h : Skipped text) :
    SkippedIn .list text := by
  refine ⟨hhead, ?_⟩
  intro outer blank rest hblank hrest
  exact ⟨blank ++ (text ++ rest), rfl, h hblank hrest⟩

lemma skippedIn_object {member : String × List Char} (hmember : MemberText text member)
    (h : Skipped member.2) : SkippedIn .object text := by
  cases hmember with
  | @intro spelling colonBlank gap value key hkey hcolon hgap =>
    obtain ⟨tail, rfl, hspells⟩ := exists_read_skipString hkey
    refine ⟨⟨'"', _, rfl, by decide⟩, ?_⟩
    intro outer blank rest hblank hrest
    refine ⟨gap ++ (value ++ rest), ?_, h hgap hrest⟩
    unfold skipKey
    simp only [List.cons_append, List.append_assoc]
    rw [read_peekToken_bind _ hblank (by decide)]
    refine (read_bind_of_ok (read_advance _ _)).trans ?_
    rw [read_bind_of_ok (hspells _)]
    exact read_colon hcolon

lemma read_skipGap_close (hblank : Blank blank) :
    (skipGap frame position).read (blank ++ frame.closing :: rest) = .ok (true, rest) := by
  have hclosing : isSpace frame.closing = false := by
    cases frame with
    | list => decide
    | object => decide
  unfold skipGap
  rw [read_peekToken_bind _ hblank hclosing]
  dsimp only
  rw [if_pos rfl, read_bind_of_ok (read_advance _ _), read_pure]

lemma ne_closing {c : Char} (hc : Opens c) : c ≠ frame.closing := by
  cases frame with
  | list => exact hc.2.2.1
  | object => exact hc.2.2.2

lemma skipFrame_first (h : SkippedIn frame text) (hgap : Blank gap) (hrest : Boundary rest) :
    skipFrame frame outer .first (gap ++ (text ++ rest)) = skipFrame frame outer .next rest := by
  obtain ⟨c, tail, rfl, hc⟩ := h.head
  obtain ⟨middle, hkey, hskip⟩ := @SkippedIn.skip _ _ h outer _ rest blank_nil hrest
  have hitem : (skipGap frame .first).read (gap ++ (c :: tail ++ rest)) = .ok (false, middle) := by
    unfold skipGap
    rw [List.cons_append, read_peekToken_bind _ hgap hc.1]
    dsimp only
    rw [if_neg (ne_closing hc), if_pos rfl]
    exact read_bind_of_ok hkey
  rw [skipFrame_of_item hitem, hskip]

lemma skipFrame_next (h : SkippedIn frame text) (hblank : Blank blank) (hgap : Blank gap)
    (hrest : Boundary rest) :
    skipFrame frame outer .next (blank ++ ',' :: (gap ++ (text ++ rest))) =
      skipFrame frame outer .next rest := by
  obtain ⟨middle, hkey, hskip⟩ := @SkippedIn.skip _ _ h outer gap rest hgap hrest
  have hcomma : ',' ≠ frame.closing := by
    cases frame with
    | list => decide
    | object => decide
  have hitem : (skipGap frame .next).read (blank ++ ',' :: (gap ++ (text ++ rest))) =
      .ok (false, middle) := by
    unfold skipGap
    rw [read_peekToken_bind _ hblank (by decide)]
    dsimp only
    rw [if_neg hcomma, if_neg (by decide), if_pos rfl, read_bind_of_ok (read_advance _ _),
      read_bind_of_ok hkey, read_pure]
  rw [skipFrame_of_item hitem, hskip]

variable {α : Type} {values : List α}

lemma boundary_closing (frame : Frame) (rest : List Char) : Boundary (frame.closing :: rest) := by
  cases frame with
  | list => exact boundary_bracket rest
  | object => exact boundary_brace rest

/-- The elements that follow the first are passed over one after the other. -/
lemma skipFrame_trail (h : Trail (fun text (_ : α) => SkippedIn frame text) text values)
    (outer : List Frame) (rest : List Char) :
    skipFrame frame outer .next (text ++ frame.closing :: rest) = resume outer rest := by
  induction h with
  | nil hblank => exact skipFrame_of_close (read_skipGap_close hblank)
  | cons hblank hgap hitem htrail ih =>
    simp only [List.append_assoc, List.cons_append]
    rw [skipFrame_next hitem hblank hgap (htrail.boundary (boundary_closing frame rest)), ih]

lemma skipFrame_row (h : Row (fun text (_ : α) => SkippedIn frame text) text values)
    (outer : List Frame) (rest : List Char) :
    skipFrame frame outer .first (text ++ frame.closing :: rest) = resume outer rest := by
  cases h with
  | empty hblank => exact skipFrame_of_close (read_skipGap_close hblank)
  | full hgap hitem htrail =>
    simp only [List.append_assoc]
    rw [skipFrame_first hitem hgap (htrail.boundary (boundary_closing frame rest))]
    exact skipFrame_trail htrail outer rest

lemma read_skipScalar_word {c : Char} {word : List Char} (hblank : Blank blank)
    (h : c = 'n' ∧ c :: word = "null".toList ∨ c = 't' ∧ c :: word = "true".toList ∨
      c = 'f' ∧ c :: word = "false".toList) :
    skipScalar.read (blank ++ (c :: word ++ rest)) = .ok (none, rest) := by
  unfold skipScalar
  rcases h with ⟨rfl, hword⟩ | ⟨rfl, hword⟩ | ⟨rfl, hword⟩
  · rw [List.cons_append, read_peekToken_bind _ hblank (by decide), ← List.cons_append, hword]
    exact read_bind_of_ok (read_letters "null".toList rest)
  · rw [List.cons_append, read_peekToken_bind _ hblank (by decide), ← List.cons_append, hword]
    exact read_bind_of_ok (read_letters "true".toList rest)
  · rw [List.cons_append, read_peekToken_bind _ hblank (by decide), ← List.cons_append, hword]
    exact read_bind_of_ok (read_letters "false".toList rest)

lemma read_skipScalar_number (h : NumberText text) (hblank : Blank blank) (hrest : Boundary rest) :
    skipScalar.read (blank ++ (text ++ rest)) = .ok (none, rest) := by
  obtain ⟨c, tail, rfl, hc⟩ := isDigit_or_of_numberText h
  have hne : ∀ d : Char, d ≠ '-' → d.isDigit = false → c ≠ d := by
    rintro d hminus hd rfl
    rcases hc with hc | hc
    · exact hminus hc
    · exact absurd hc (by simp [hd])
  have hread := read_skipNumber h hrest
  unfold skipScalar
  rw [List.cons_append, read_peekToken_bind _ hblank (opens_of_number hc).1]
  dsimp only
  rw [if_neg (hne _ (by decide) (by decide)), if_neg (hne _ (by decide) (by decide)),
    if_neg (hne _ (by decide) (by decide)), if_neg (hne _ (by decide) (by decide)),
    if_neg (hne _ (by decide) (by decide)), if_neg (hne _ (by decide) (by decide)), if_pos hc]
  exact read_bind_of_ok hread

lemma read_skipScalar_string {value : String} (h : StringText text value) (hblank : Blank blank) :
    skipScalar.read (blank ++ (text ++ rest)) = .ok (none, rest) := by
  obtain ⟨tail, rfl, hread⟩ := exists_read_skipString h
  unfold skipScalar
  rw [List.cons_append, read_peekToken_bind _ hblank (by decide)]
  refine (read_bind_of_ok (read_advance _ _)).trans ?_
  rw [read_bind_of_ok (hread rest), read_pure]

lemma read_skipScalar_bracket (hblank : Blank blank) :
    skipScalar.read (blank ++ '[' :: rest) = .ok (some .list, rest) := by
  unfold skipScalar
  rw [read_peekToken_bind _ hblank (by decide)]
  exact read_bind_of_ok (read_advance _ _)

lemma read_skipScalar_brace (hblank : Blank blank) :
    skipScalar.read (blank ++ '\x7b' :: rest) = .ok (some .object, rest) := by
  unfold skipScalar
  rw [read_peekToken_bind _ hblank (by decide)]
  exact read_bind_of_ok (read_advance _ _)

/-- A value of any shape is passed over, whatever frames it stands in. -/
theorem skipped_of_valueText (h : ValueText text) : Skipped text := by
  -- The induction is on the value, for all frames at once: an element stands in one frame more than its list.
  induction h with
  | null =>
    intro frames blank rest hblank _
    exact skipFrom_of_scalar (read_skipScalar_word hblank (.inl ⟨rfl, rfl⟩))
  | true =>
    intro frames blank rest hblank _
    exact skipFrom_of_scalar (read_skipScalar_word hblank (.inr (.inl ⟨rfl, rfl⟩)))
  | false =>
    intro frames blank rest hblank _
    exact skipFrom_of_scalar (read_skipScalar_word hblank (.inr (.inr ⟨rfl, rfl⟩)))
  | number h =>
    intro frames blank rest hblank hrest
    exact skipFrom_of_scalar (read_skipScalar_number h hblank hrest)
  | string h =>
    intro frames blank rest hblank _
    exact skipFrom_of_scalar (read_skipScalar_string h hblank)
  | @list row items hrow hitems ih =>
    intro frames blank rest hblank _
    have hskipped : Row (fun text _ => SkippedIn .list text) row items := by
      apply hrow.mono_mem
      rintro text _ hitem rfl
      exact skippedIn_list (hitems text hitem).head (ih text hitem)
    rw [List.cons_append, List.append_assoc, skipFrom_of_frame (read_skipScalar_bracket hblank)]
    exact skipFrame_row hskipped frames rest
  | @object row members hrow hmembers ih =>
    intro frames blank rest hblank _
    have hskipped : Row (fun text _ => SkippedIn .object text) row members := by
      apply hrow.mono_mem
      intro text member hmem htext
      exact skippedIn_object htext (ih member hmem)
    rw [List.cons_append, List.append_assoc, skipFrom_of_frame (read_skipScalar_brace hblank)]
    exact skipFrame_row hskipped frames rest

theorem takes_skip (h : ValueText text) : skip.Takes text () := by
  refine ⟨h.head, ?_⟩
  intro blank rest hblank hrest
  exact skipped_of_valueText h hblank hrest

end Skipping

end Reader

end FixedSupply.Json
