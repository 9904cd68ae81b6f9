import FixedSupply.Proofs.JsonValues

/-!
# Readers that end where a value ends

A reader keeps to a text if it ends where the text ends whenever it succeeds there. So the parts of a text are
found again whatever a reader makes of them, also where it expects values of another type: a value that it
refuses is refused with everything around it.
-/

namespace FixedSupply.Json

section Opening

variable {c : Char} {tail : List Char}

/-- The first character of a value tells its shape. -/
lemma ValueText.opening (h : ValueText (c :: tail)) :
    c = 'n' ∧ tail = ['u', 'l', 'l'] ∨ c = '"' ∧ (∃ value, StringText (c :: tail) value) ∨
      c = '[' ∧ (∃ row items, tail = row ++ [']'] ∧ Row Eq row items ∧ ∀ item ∈ items, ValueText item) ∨
      c = '\x7b' ∧ (∃ row members, tail = row ++ ['\x7d'] ∧ Row Reader.MemberText row members ∧
        ∀ member ∈ members, ValueText member.2) ∨
      c ∉ ['n', '"', '[', '\x7b'] := by
  generalize hform : c :: tail = text at h
  cases h with
  | null => exact .inl (List.cons.inj hform)
  | true =>
    obtain ⟨rfl, -⟩ := List.cons.inj hform
    exact .inr (.inr (.inr (.inr (by decide))))
  | false =>
    obtain ⟨rfl, -⟩ := List.cons.inj hform
    exact .inr (.inr (.inr (.inr (by decide))))
  | number h =>
    obtain ⟨d, others, rfl, hd⟩ := isDigit_or_of_numberText h
    obtain ⟨rfl, -⟩ := List.cons.inj hform
    refine .inr (.inr (.inr (.inr ?_)))
    intro hmem
    simp only [List.mem_cons, List.not_mem_nil, or_false] at hmem
    rcases hmem with rfl | rfl | rfl | rfl
    · exact absurd hd (by decide)
    · exact absurd hd (by decide)
    · exact absurd hd (by decide)
    · exact absurd hd (by decide)
  | string h =>
    subst hform
    cases h with
    | intro h => exact .inr (.inl ⟨rfl, _, .intro h⟩)
  | list hrow hitems =>
    obtain ⟨rfl, rfl⟩ := List.cons.inj hform
    exact .inr (.inr (.inl ⟨rfl, _, _, rfl, hrow, hitems⟩))
  | object hrow hmembers =>
    obtain ⟨rfl, rfl⟩ := List.cons.inj hform
    exact .inr (.inr (.inr (.inl ⟨rfl, _, _, rfl, hrow, hmembers⟩)))

lemma ValueText.eq_null_of_n (h : ValueText ('n' :: tail)) : tail = ['u', 'l', 'l'] := by
  simpa using h.opening

lemma ValueText.string_of_quote (h : ValueText ('"' :: tail)) :
    ∃ value, StringText ('"' :: tail) value := by
  simpa using h.opening

lemma ValueText.list_of_bracket (h : ValueText ('[' :: tail)) :
    ∃ row items, tail = row ++ [']'] ∧ Row Eq row items ∧ ∀ item ∈ items, ValueText item := by
  simpa using h.opening

lemma ValueText.object_of_brace (h : ValueText ('\x7b' :: tail)) :
    ∃ row members, tail = row ++ ['\x7d'] ∧ Row Reader.MemberText row members ∧
      ∀ member ∈ members, ValueText member.2 := by
  simpa using h.opening

end Opening

namespace Reader

variable {α β δ ι : Type} {P : α → Prop} {Q : β → Prop} {text row blank gap rest after : List Char}

section Failing

/-- The reader succeeds nowhere. -/
def Fails (reader : Reader α) : Prop :=
  ∀ ⦃text rest : List Char⦄ ⦃value : α⦄, reader.read text ≠ .ok (value, rest)

lemma fails_fail (flaw : Flaw) : (fail flaw : Reader α).Fails :=
  fun _ _ _ h => nomatch h

lemma Fails.bind_right (first : Reader α) {next : α → Reader β} (h : ∀ a, (next a).Fails) :
    (first >>= next).Fails := by
  intro text rest value hread
  obtain ⟨a, middle, -, hnext⟩ := read_bind_eq_ok hread
  exact h a hnext

lemma fails_mismatch (expected : String) : (mismatch expected : Reader α).Fails := by
  refine .bind_right _ fun token => ?_
  cases token with
  | none => exact fails_fail _
  | some c =>
    dsimp only
    split
    · exact fails_fail _
    split
    · exact fails_fail _
    split
    · exact .bind_right _ fun _ => .bind_right _ fun _ => fails_fail _
    split
    · exact .bind_right _ fun _ => fails_fail _
    split
    · exact .bind_right _ fun _ => fails_fail _
    split
    · exact .bind_right _ fun _ => fails_fail _
    split
    · exact .bind_right _ fun _ => fails_fail _
    · exact fails_fail _

end Failing

section Keeping

/-- What the reader takes from the text ends where the text ends, and satisfies a property. -/
structure Keeps (reader : Reader α) (text : List Char) (P : α → Prop) : Prop where
  head : ∃ c tail, text = c :: tail ∧ Opens c
  read : ∀ {blank rest after : List Char} {value : α}, Blank blank → Boundary rest →
    reader.read (blank ++ (text ++ rest)) = .ok (value, after) → after = rest ∧ P value

/-- The reader keeps to every value, of its own type or not. -/
def KeepsValues (reader : Reader α) : Prop :=
  ∀ ⦃text : List Char⦄, ValueText text → reader.Keeps text fun _ => True

variable {reader item : Reader α}

lemma Takes.keeps {value : α} (h : reader.Takes text value) : reader.Keeps text (· = value) := by
  refine ⟨h.head, ?_⟩
  intro blank rest after found hblank hrest hread
  obtain ⟨hfound, hafter⟩ := Prod.mk.inj (Except.ok.inj ((h.read hblank hrest).symm.trans hread))
  exact ⟨hafter.symm, hfound.symm⟩

lemma Keeps.mono {R : α → Prop} (h : reader.Keeps text P) (hall : ∀ value, P value → R value) :
    reader.Keeps text R := by
  refine ⟨h.head, ?_⟩
  intro blank rest after value hblank hrest hread
  obtain ⟨hafter, hvalue⟩ := h.read hblank hrest hread
  exact ⟨hafter, hall value hvalue⟩

/-- A text is refused as a whole if nothing that is read from it satisfies the property. -/
theorem Keeps.run_eq_error {before after : List Char} (h : reader.Keeps text P) (hnone : ∀ value, ¬P value)
    (hbefore : Blank before) (hafter : Blank after) :
    ∃ flaw, reader.run (String.ofList (before ++ (text ++ after))) = .error flaw := by
  have hrest : Boundary after := by simpa using hafter.boundary boundary_nil
  rw [Reader.run, String.toList_ofList]
  cases hread : reader.read (before ++ (text ++ after)) with
  | error flaw => exact ⟨flaw, rfl⟩
  | ok found => exact absurd (h.read hbefore hrest hread).2 (hnone found.1)

lemma Keeps.of_peekToken {next : Option Char → Reader α} {c : Char} {tail : List Char} (hc : Opens c)
    (h : ∀ {rest after value}, Boundary rest →
      (next (some c)).read (c :: (tail ++ rest)) = .ok (value, after) → after = rest ∧ P value) :
    (peekToken >>= next).Keeps (c :: tail) P := by
  refine ⟨⟨c, tail, rfl, hc⟩, ?_⟩
  intro blank rest after value hblank hrest hread
  rw [List.cons_append, read_peekToken_bind _ hblank hc.1] at hread
  exact h hrest hread

lemma keepsValues_text (expected : String) : (Reader.text expected).KeepsValues := by
  intro text h
  obtain ⟨c, tail, rfl, hc⟩ := h.head
  by_cases hquote : c = '"'
  · subst hquote
    obtain ⟨value, hvalue⟩ := h.string_of_quote
    exact (takes_text expected hvalue).keeps.mono fun _ _ => trivial
  · refine .of_peekToken hc ?_
    intro rest after value _ hread
    rw [if_neg (by simpa using hquote)] at hread
    exact (fails_mismatch expected hread).elim

lemma KeepsValues.optional (hitem : item.KeepsValues) : (optional item).KeepsValues := by
  intro text h
  obtain ⟨c, tail, rfl, hc⟩ := h.head
  by_cases hn : c = 'n'
  · subst hn
    obtain rfl := h.eq_null_of_n
    exact (takes_null : (Reader.optional item).Takes _ _).keeps.mono fun _ _ => trivial
  · refine .of_peekToken hc ?_
    intro rest after value hrest hread
    rw [if_neg (by simpa using hn)] at hread
    obtain ⟨found, middle, hfound, hpure⟩ := read_bind_eq_ok hread
    cases hpure
    have hkeeps := (hitem h).read blank_nil hrest hfound
    exact hkeeps

end Keeping

section Lists

variable {item : Reader α} {P : ι → α → Prop} {value? : Option α} {indices : List ι}

/-- The rest of an open list after an element: other values and the closing bracket. -/
inductive Remains (rest : List Char) : List Char → Prop where
  | intro {trail : List Char} {items : List (List Char)} (h : Trail Eq trail items)
    (hitems : ∀ item ∈ items, ValueText item) : Remains rest (trail ++ ']' :: rest)

lemma remains_close (hblank : Blank blank) : Remains rest (blank ++ ']' :: rest) :=
  .intro (.nil hblank) (List.forall_mem_nil _)

/-- What was made of an element is handed on. -/
lemma Keeps.read_some {R : α → Prop} (h : item.Keeps text R) (hrest : Boundary rest)
    (hread : (do return some (← item) : Reader (Option α)).read (text ++ rest) = .ok (value?, after)) :
    after = rest ∧ ∃ value, value? = some value ∧ R value := by
  obtain ⟨value, middle, hvalue, hpure⟩ := read_bind_eq_ok hread
  cases hpure
  obtain ⟨hafter, hR⟩ := h.read blank_nil hrest hvalue
  exact ⟨hafter, value, rfl, hR⟩

/-- An element that is read next ends where its text ends. -/
lemma Remains.of_element? (hitem : item.KeepsValues) (h : Remains rest text)
    (hread : (element? false item).read text = .ok (value?, after)) : Remains rest after := by
  cases h with
  | intro htrail hitems =>
    cases htrail with
    | nil hblank =>
      rw [read_element?_close false hblank] at hread
      cases hread
      exact remains_close blank_nil
    | cons hblank hgap heq htrail =>
      subst heq
      obtain ⟨hfirst, hothers⟩ := List.forall_mem_cons.mp hitems
      simp only [List.append_assoc, List.cons_append] at hread
      rw [read_element?_comma hfirst.head hblank hgap] at hread
      obtain ⟨rfl, -⟩ := (hitem hfirst).read_some (htrail.boundary (boundary_bracket rest)) hread
      exact .intro htrail hothers

/-- The first element of a list, where one has to be. -/
lemma keeps_elementAt_zero {expected : String} {items : List (List Char)} {value : α} {R : α → Prop}
    (hrow : Row Eq row items) (hitems : ∀ item ∈ items, ValueText item)
    (hitem : ∀ first ∈ items.head?, item.Keeps first R)
    (hread : (elementAt 0 expected item).read (row ++ ']' :: rest) = .ok (value, after)) :
    Remains rest after ∧ R value := by
  obtain ⟨value?, middle, hfirst, hvalue⟩ := read_bind_eq_ok hread
  have hfirst : (element? true item).read (row ++ ']' :: rest) = .ok (value?, middle) := hfirst
  cases hrow with
  | empty hblank =>
    rw [read_element?_close true hblank] at hfirst
    cases hfirst
    cases hvalue
  | full hgap heq htrail =>
    subst heq
    obtain ⟨-, hothers⟩ := List.forall_mem_cons.mp hitems
    have hkeeps := hitem _ rfl
    simp only [List.append_assoc] at hfirst
    rw [read_element?_opens hkeeps.head hgap] at hfirst
    obtain ⟨rfl, found, rfl, hfound⟩ := hkeeps.read_some (htrail.boundary (boundary_bracket rest)) hfirst
    cases hvalue
    exact ⟨.intro htrail hothers, hfound⟩

lemma Remains.of_elementAt_succ {expected : String} {index : ℕ} {value : α} (hitem : item.KeepsValues)
    (h : Remains rest text) (hread : (elementAt (index + 1) expected item).read text = .ok (value, after)) :
    Remains rest after := by
  obtain ⟨value?, middle, hnext, hvalue⟩ := read_bind_eq_ok hread
  cases value? with
  | none => cases hvalue
  | some found =>
    cases hvalue
    exact h.of_element? hitem hnext

/-- A list is closed only if nothing remains of it. -/
lemma Remains.of_closeList (h : Remains rest text) (hread : closeList.read text = .ok ((), after)) :
    after = rest := by
  cases h with
  | intro htrail hitems =>
    cases htrail with
    | nil hblank =>
      rw [read_closeList hblank] at hread
      cases hread
      rfl
    | cons hblank hgap heq htrail =>
      -- After a comma neither a bracket nor a value is accepted.
      subst heq
      obtain ⟨c, tail, rfl, hc⟩ := (hitems _ List.mem_cons_self).head
      unfold closeList at hread
      simp only [List.append_assoc, List.cons_append] at hread
      rw [read_peekToken_bind _ hblank (by decide)] at hread
      dsimp only at hread
      rw [if_neg (by decide), if_pos rfl, read_bind_of_ok (read_advance _ _),
        read_peekToken_bind _ hgap hc.1, if_neg (by simpa using hc.2.2.1)] at hread
      cases hread

lemma keeps_listOf {content : Reader α} {R : α → Prop} (expected : String)
    (h : ∀ {rest after value}, content.read (row ++ ']' :: rest) = .ok (value, after) →
      Remains rest after ∧ R value) :
    (listOf expected content).Keeps ('[' :: (row ++ [']'])) R := by
  refine .of_peekToken (by decide) ?_
  intro rest after value _ hread
  rw [if_pos rfl, read_bind_of_ok (read_advance _ _), List.append_assoc, List.singleton_append] at hread
  obtain ⟨found, middle, hcontent, hread⟩ := read_bind_eq_ok hread
  obtain ⟨_, last, hclose, hpure⟩ := read_bind_eq_ok hread
  cases hpure
  obtain ⟨hremains, hvalue⟩ := h hcontent
  exact ⟨hremains.of_closeList hclose, hvalue⟩

/-- Where no list stands, the reader of a list fails. -/
lemma keepsValues_listOf {content : Reader α} (expected : String)
    (h : ∀ {row items rest after value}, Row Eq row items → (∀ item ∈ items, ValueText item) →
      content.read (row ++ ']' :: rest) = .ok (value, after) → Remains rest after) :
    (listOf expected content).KeepsValues := by
  intro text htext
  obtain ⟨c, tail, rfl, hc⟩ := htext.head
  by_cases hbracket : c = '['
  · subst hbracket
    obtain ⟨row, items, rfl, hrow, hitems⟩ := htext.list_of_bracket
    refine keeps_listOf expected ?_
    intro rest after value hread
    exact ⟨h hrow hitems hread, trivial⟩
  · refine .of_peekToken hc ?_
    intro rest after value _ hread
    rw [if_neg (by simpa using hbracket)] at hread
    exact (fails_mismatch expected hread).elim

lemma elementsFrom_eq_ok {reversed values : List α}
    (h : elementsFrom item reversed text = .ok (values, rest)) :
    (element? false item).read text = .ok (none, rest) ∧ values = reversed.reverse ∨
      ∃ value middle, (element? false item).read text = .ok (some value, middle) ∧
        elementsFrom item (value :: reversed) middle = .ok (values, rest) := by
  rw [elementsFrom] at h
  split at h
  · cases h
  · next hread =>
    cases h
    exact .inl ⟨hread, rfl⟩
  · next hread => exact .inr ⟨_, _, hread, h⟩

/-- The elements that follow the first are read one after the other, each to its end. -/
lemma keeps_elementsFrom {reversed values : List α}
    (h : Trail (fun text i => item.Keeps text (P i)) text indices)
    (hread : elementsFrom item reversed (text ++ ']' :: rest) = .ok (values, after)) :
    after = ']' :: rest ∧ ∃ others, values = reversed.reverse ++ others ∧ List.Forall₂ P indices others := by
  induction h generalizing reversed with
  | nil hblank =>
    rw [elementsFrom_of_close (read_element?_close false hblank)] at hread
    cases hread
    exact ⟨rfl, [], (List.append_nil _).symm, .nil⟩
  | cons hblank hgap hitem htrail ih =>
    simp only [List.append_assoc, List.cons_append] at hread
    rcases elementsFrom_eq_ok hread with ⟨hnone, -⟩ | ⟨value, middle, hsome, hothers⟩
    · rw [read_element?_comma hitem.head hblank hgap] at hnone
      obtain ⟨-, _, hvalue, -⟩ := hitem.read_some (htrail.boundary (boundary_bracket rest)) hnone
      cases hvalue
    · rw [read_element?_comma hitem.head hblank hgap] at hsome
      obtain ⟨rfl, _, hvalue, hP⟩ := hitem.read_some (htrail.boundary (boundary_bracket rest)) hsome
      cases hvalue
      obtain ⟨hafter, others, rfl, hall⟩ := ih hothers
      exact ⟨hafter, value :: others, by simp, .cons hP hall⟩

lemma keeps_elements {values : List α} (h : Row (fun text i => item.Keeps text (P i)) text indices)
    (hread : (elements item).read (text ++ ']' :: rest) = .ok (values, after)) :
    after = ']' :: rest ∧ List.Forall₂ P indices values := by
  obtain ⟨first, middle, hfirst, hread⟩ := read_bind_eq_ok hread
  cases h with
  | empty hblank =>
    rw [read_element?_close true hblank] at hfirst
    cases hfirst
    cases hread
    exact ⟨rfl, .nil⟩
  | full hgap hitem htrail =>
    simp only [List.append_assoc] at hfirst
    rw [read_element?_opens hitem.head hgap] at hfirst
    obtain ⟨rfl, value, rfl, hP⟩ := hitem.read_some (htrail.boundary (boundary_bracket rest)) hfirst
    obtain ⟨hafter, others, rfl, hall⟩ := keeps_elementsFrom htrail hread
    exact ⟨hafter, .cons hP hall⟩

/-- A list that is read has a value for each of its elements. -/
theorem keeps_list (expected : String) (h : Row (fun text i => item.Keeps text (P i)) row indices) :
    (list expected item).Keeps ('[' :: (row ++ [']'])) (List.Forall₂ P indices) := by
  refine keeps_listOf expected ?_
  intro rest after values hread
  obtain ⟨rfl, hall⟩ := keeps_elements h hread
  exact ⟨remains_close blank_nil, hall⟩

lemma KeepsValues.list (expected : String) (hitem : item.KeepsValues) : (list expected item).KeepsValues := by
  refine keepsValues_listOf expected ?_
  intro row items rest after values hrow hitems hread
  have hkeeps : Row (fun text _ => item.Keeps text fun _ => True) row items := by
    apply hrow.mono_mem
    rintro text _ hmem rfl
    exact hitem (hitems text hmem)
  obtain ⟨rfl, -⟩ := keeps_elements hkeeps hread
  exact remains_close blank_nil

end Lists

section Objects

variable {reader : Reader β}

/-- What the reader takes from what follows a key ends where the member ends. -/
def KeepsMember (reader : Reader β) (text : List Char) (Q : β → Prop) : Prop :=
  ∀ ⦃blank gap rest after : List Char⦄ ⦃value : β⦄, Blank blank → Blank gap → Boundary rest →
    reader.read (blank ++ ':' :: (gap ++ (text ++ rest))) = .ok (value, after) → after = rest ∧ Q value

lemma KeepsMember.map {R : α → Prop} (h : reader.KeepsMember text Q) {f : β → α}
    (hall : ∀ value, Q value → R (f value)) :
    (do return f (← reader) : Reader α).KeepsMember text R := by
  intro blank gap rest after value hblank hgap hrest hread
  obtain ⟨found, middle, hfound, hpure⟩ := read_bind_eq_ok hread
  cases hpure
  obtain ⟨hafter, hQ⟩ := h hblank hgap hrest hfound
  exact ⟨hafter, hall found hQ⟩

/-- A field is read only if it was not read before. -/
lemma Keeps.newField {item : Reader β} (h : item.Keeps text Q) (name : String) (current : Option β) :
    (newField name current item).KeepsMember text fun next =>
      current = none ∧ ∃ value, next = some value ∧ Q value := by
  intro blank gap rest after found hblank hgap hrest hread
  cases current with
  | some value => cases hread
  | none =>
    have hread : (colon >>= fun _ => do return some (← item)).read (blank ++ ':' :: (gap ++ (text ++ rest))) =
        .ok (found, after) := hread
    rw [read_bind_of_ok (read_colon hblank)] at hread
    obtain ⟨value, middle, hvalue, hpure⟩ := read_bind_eq_ok hread
    cases hpure
    obtain ⟨hafter, hQ⟩ := h.read hgap hrest hvalue
    exact ⟨hafter, rfl, value, rfl, hQ⟩

lemma keepsMember_otherField (h : ValueText text) (draft : δ) :
    (otherField draft).KeepsMember text (· = draft) := by
  intro blank gap rest after found hblank hgap hrest hread
  unfold otherField at hread
  rw [read_bind_of_ok (read_colon hblank), read_bind_of_ok ((takes_skip h).read hgap hrest)] at hread
  cases hread
  exact ⟨rfl, rfl⟩

variable {member : δ → String → Reader δ} {draft last : δ} {members done : List (String × List Char)}
  {holds : List (String × List Char) → δ → Prop}

lemma membersFrom_eq_ok {first : Bool} (h : membersFrom member first draft text = .ok (last, rest)) :
    (key? first).read text = .ok (none, rest) ∧ last = draft ∨
      ∃ key middle next remainder, (key? first).read text = .ok (some key, middle) ∧
        (member draft key).read middle = .ok (next, remainder) ∧
        membersFrom member false next remainder = .ok (last, rest) := by
  rw [membersFrom] at h
  split at h
  · cases h
  · next hread =>
    cases h
    exact .inl ⟨hread, rfl⟩
  · next hread =>
    split at h
    · cases h
    · next hmember => exact .inr ⟨_, _, _, _, hread, hmember, h⟩

/-- Once the key of a member is read, the other members follow its value. -/
lemma KeepsMember.membersFrom {first : Bool} {key : String} {value : List Char} {R : δ → Prop}
    (h : (member draft key).KeepsMember value R)
    (hkey : (key? first).read text = .ok (some key, blank ++ ':' :: (gap ++ (value ++ rest))))
    (hblank : Blank blank) (hgap : Blank gap) (hrest : Boundary rest)
    (hread : membersFrom member first draft text = .ok (last, after)) :
    ∃ next, R next ∧ membersFrom member false next rest = .ok (last, after) := by
  rcases membersFrom_eq_ok hread with ⟨hnone, -⟩ | ⟨_, _, next, remainder, hsome, hvalue, hothers⟩
  · rw [hkey] at hnone
    cases hnone
  · rw [hkey] at hsome
    cases hsome
    obtain ⟨rfl, hnext⟩ := h hblank hgap hrest hvalue
    exact ⟨next, hnext, hothers⟩

/-- What holds of the draft after some members holds after each further member that is read. -/
def Maintains (member : δ → String → Reader δ) (members : List (String × List Char))
    (holds : List (String × List Char) → δ → Prop) : Prop :=
  ∀ ⦃done : List (String × List Char)⦄ ⦃draft : δ⦄ ⦃key : String⦄ ⦃text : List Char⦄,
    (key, text) ∈ members → holds done draft →
      (member draft key).KeepsMember text (holds (done ++ [(key, text)]))

lemma Maintains.tail {head : String × List Char} (h : Maintains member (head :: members) holds) :
    Maintains member members holds :=
  fun _ _ _ _ hmem => h (List.mem_cons_of_mem head hmem)

/-- What holds of the draft after some members, whatever they are, holds after all of them. -/
lemma keeps_membersFrom (h : Trail MemberText text members) (hmember : Maintains member members holds)
    (hdone : holds done draft)
    (hread : membersFrom member false draft (text ++ '\x7d' :: rest) = .ok (last, after)) :
    after = '\x7d' :: rest ∧ holds (done ++ members) last := by
  -- The members already read go along with the draft, as the property is about both.
  induction h generalizing done draft with
  | nil hblank =>
    rw [membersFrom_of_close (read_key?_close false hblank)] at hread
    cases hread
    exact ⟨rfl, by rwa [List.append_nil]⟩
  | cons hblank hgap hfirst htrail ih =>
    cases hfirst with
    | @intro spelling colonBlank space text key hkey hcolon hspace =>
      simp only [List.append_assoc, List.cons_append] at hread
      obtain ⟨next, hnext, hothers⟩ :=
        (hmember List.mem_cons_self hdone).membersFrom
          (read_key?_next hkey hblank hgap) hcolon hspace (htrail.boundary (boundary_brace rest)) hread
      obtain ⟨hafter, hlast⟩ := ih hmember.tail hnext hothers
      exact ⟨hafter, by simpa using hlast⟩

lemma keeps_members (h : Row MemberText text members) (hmember : Maintains member members holds)
    (hstart : holds [] draft)
    (hread : (Reader.members member draft).read (text ++ '\x7d' :: rest) = .ok (last, after)) :
    after = '\x7d' :: rest ∧ holds members last := by
  have hread : membersFrom member true draft (text ++ '\x7d' :: rest) = .ok (last, after) := hread
  cases h with
  | empty hblank =>
    rw [membersFrom_of_close (read_key?_close true hblank)] at hread
    cases hread
    exact ⟨rfl, hstart⟩
  | full hgap hfirst htrail =>
    cases hfirst with
    | @intro spelling colonBlank space text key hkey hcolon hspace =>
      simp only [List.append_assoc, List.cons_append] at hread
      obtain ⟨next, hnext, hothers⟩ :=
        (hmember List.mem_cons_self hstart).membersFrom
          (read_key?_first hkey hgap) hcolon hspace (htrail.boundary (boundary_brace rest)) hread
      exact keeps_membersFrom htrail hmember.tail hnext hothers

/-- A record that is read from an object was finished from a draft of its members. -/
theorem keeps_record {expected : String} {fields : Reader α} {finish : δ → Except Flaw α}
    (h : Row MemberText row members) (hmember : Maintains member members holds)
    (hstart : holds [] draft) :
    (record expected fields draft member finish).Keeps ('\x7b' :: (row ++ ['\x7d'])) fun value =>
      ∃ last, holds members last ∧ finish last = .ok value := by
  refine .of_peekToken (by decide) ?_
  intro rest after value _ hread
  rw [if_pos rfl, read_bind_of_ok (read_advance _ _), List.append_assoc, List.singleton_append] at hread
  obtain ⟨last, middle, hmembers, hread⟩ := read_bind_eq_ok hread
  obtain ⟨rfl, hlast⟩ := keeps_members h hmember hstart hmembers
  cases hfinish : finish last with
  | error flaw =>
    rw [hfinish] at hread
    cases hread
  | ok found =>
    rw [hfinish] at hread
    cases hread
    exact ⟨rfl, last, hlast, hfinish⟩

/-- Whatever is no object is read as the list of the fields. -/
lemma Keeps.record {expected : String} {fields : Reader α} {finish : δ → Except Flaw α} {c : Char}
    {tail : List Char} (hc : c ≠ '\x7b') (h : (listOf expected fields).Keeps (c :: tail) P) :
    (record expected fields draft member finish).Keeps (c :: tail) P := by
  obtain ⟨_, _, heq, hopens⟩ := h.head
  obtain ⟨rfl, rfl⟩ := List.cons.inj heq
  refine .of_peekToken hopens ?_
  intro rest after value hrest hread
  rw [if_neg (by simpa using hc)] at hread
  exact h.read blank_nil hrest hread

lemma keepsValues_record {expected : String} {fields : Reader α} {finish : δ → Except Flaw α}
    (hfields : (listOf expected fields).KeepsValues)
    (hmember : ∀ draft key text, ValueText text → (member draft key).KeepsMember text fun _ => True) :
    (record expected fields draft member finish).KeepsValues := by
  intro text htext
  obtain ⟨c, tail, rfl, hc⟩ := htext.head
  by_cases hbrace : c = '\x7b'
  · subst hbrace
    obtain ⟨row, members, rfl, hrow, hmembers⟩ := htext.object_of_brace
    have hmaintains : Maintains member members fun _ _ => True :=
      fun _ draft key text hmem _ => hmember draft key text (hmembers _ hmem)
    exact (keeps_record hrow hmaintains trivial).mono fun _ _ => trivial
  · exact (hfields htext).record hbrace

end Objects

end Reader

end FixedSupply.Json
