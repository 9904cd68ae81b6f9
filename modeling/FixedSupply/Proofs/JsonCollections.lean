import FixedSupply.Json.Record
import FixedSupply.Proofs.JsonScalars

/-!
# Lists and objects with any white space

The texts of lists and objects are described apart from the readers: elements with commas and any white
space between them. A list is read if its elements are, and a record if its members fill the draft one
after the other.
-/

namespace FixedSupply.Json

/-- What follows an element: the other elements, each after a comma. -/
inductive Trail {α : Type} (spells : List Char → α → Prop) : List Char → List α → Prop where
  | nil {blank : List Char} (hblank : Blank blank) : Trail spells blank []
  | cons {blank gap text trail : List Char} {value : α} {values : List α} (hblank : Blank blank)
    (hgap : Blank gap) (h : spells text value) (htrail : Trail spells trail values) :
    Trail spells (blank ++ ',' :: (gap ++ (text ++ trail))) (value :: values)

/-- What stands between the brackets of a list or an object. -/
inductive Row {α : Type} (spells : List Char → α → Prop) : List Char → List α → Prop where
  | empty {blank : List Char} (hblank : Blank blank) : Row spells blank []
  | full {gap text trail : List Char} {value : α} {values : List α} (hgap : Blank gap)
    (h : spells text value) (htrail : Trail spells trail values) :
    Row spells (gap ++ (text ++ trail)) (value :: values)

section Row

variable {α : Type} {spells : List Char → α → Prop} {text rest : List Char} {values : List α}

lemma Trail.boundary (h : Trail spells text values) (hrest : Boundary rest) :
    Boundary (text ++ rest) := by
  cases h with
  | nil hblank => exact hblank.boundary hrest
  | cons hblank hgap h htrail =>
    rw [List.append_assoc]
    exact hblank.boundary (boundary_cons (by decide))

section Mono

variable {other : List Char → α → Prop}

lemma Trail.mono_mem (hall : ∀ text value, value ∈ values → spells text value → other text value)
    (h : Trail spells text values) : Trail other text values := by
  induction h with
  | nil hblank => exact .nil hblank
  | cons hblank hgap h _ ih =>
    refine .cons hblank hgap (hall _ _ List.mem_cons_self h) (ih ?_)
    exact fun text value hvalue => hall text value (List.mem_cons_of_mem _ hvalue)

/-- The elements of a row may be described in another way, each with what is known of it. -/
lemma Row.mono_mem (hall : ∀ text value, value ∈ values → spells text value → other text value)
    (h : Row spells text values) : Row other text values := by
  cases h with
  | empty hblank => exact .empty hblank
  | full hgap h htrail =>
    refine .full hgap (hall _ _ List.mem_cons_self h) (htrail.mono_mem ?_)
    exact fun text value hvalue => hall text value (List.mem_cons_of_mem _ hvalue)

lemma Row.mono (hall : ∀ text value, spells text value → other text value)
    (h : Row spells text values) : Row other text values :=
  h.mono_mem fun text value _ => hall text value

end Mono

lemma Trail.exists_of_mem (h : Trail spells text values) {value : α} (hmem : value ∈ values) :
    ∃ spelling, spells spelling value := by
  induction h with
  | nil hblank => exact absurd hmem List.not_mem_nil
  | cons hblank hgap h htrail ih =>
    rcases List.mem_cons.mp hmem with rfl | hmem
    · exact ⟨_, h⟩
    · exact ih hmem

lemma Row.exists_of_mem (h : Row spells text values) {value : α} (hmem : value ∈ values) :
    ∃ spelling, spells spelling value := by
  cases h with
  | empty hblank => exact absurd hmem List.not_mem_nil
  | full hgap h htrail =>
    rcases List.mem_cons.mp hmem with rfl | hmem
    · exact ⟨_, h⟩
    · exact htrail.exists_of_mem hmem

variable {write : α → List Char}

lemma exists_trail_commaSeparated (h : ∀ value ∈ values, spells (write value) value) (first : α) :
    ∃ trail, Trail spells trail values ∧
      commaSeparated ((first :: values).map write) = write first ++ trail := by
  induction values generalizing first with
  | nil => exact ⟨[], .nil blank_nil, (List.append_nil _).symm⟩
  | cons value values ih =>
    obtain ⟨hvalue, hvalues⟩ := List.forall_mem_cons.mp h
    obtain ⟨trail, htrail, hform⟩ := ih hvalues value
    refine ⟨',' :: (write value ++ trail), .cons blank_nil blank_nil hvalue htrail, ?_⟩
    rw [← hform]
    rfl

/-- Elements are written without white space. -/
lemma row_commaSeparated (h : ∀ value ∈ values, spells (write value) value) :
    Row spells (commaSeparated (values.map write)) values := by
  cases values with
  | nil => exact .empty blank_nil
  | cons value values =>
    obtain ⟨hvalue, hvalues⟩ := List.forall_mem_cons.mp h
    obtain ⟨trail, htrail, hform⟩ := exists_trail_commaSeparated hvalues value
    rw [hform]
    exact .full blank_nil hvalue htrail

end Row

namespace Reader

variable {α β δ ι : Type} {item : Reader α} {text blank gap rest : List Char} {value : α}
  {values : List α}

section Lists

lemma read_element?_close (first : Bool) (hblank : Blank blank) :
    (element? first item).read (blank ++ ']' :: rest) = .ok (none, ']' :: rest) := by
  unfold element?
  rw [read_peekToken_bind _ hblank (by decide)]
  rfl

/-- The first element is read as its text opens no closing bracket. -/
lemma read_element?_opens (h : ∃ c tail, text = c :: tail ∧ Opens c) (hgap : Blank gap) :
    (element? true item).read (gap ++ (text ++ rest)) =
      (do return some (← item) : Reader (Option α)).read (text ++ rest) := by
  obtain ⟨c, tail, rfl, hc⟩ := h
  unfold element?
  rw [List.cons_append, read_peekToken_bind _ hgap hc.1]
  dsimp only
  rw [if_neg hc.2.2.1, if_pos rfl]

/-- Another element is read after its comma. -/
lemma read_element?_comma (h : ∃ c tail, text = c :: tail ∧ Opens c) (hblank : Blank blank)
    (hgap : Blank gap) :
    (element? false item).read (blank ++ ',' :: (gap ++ (text ++ rest))) =
      (do return some (← item) : Reader (Option α)).read (text ++ rest) := by
  obtain ⟨c, tail, rfl, hc⟩ := h
  unfold element?
  rw [read_peekToken_bind _ hblank (by decide)]
  dsimp only
  rw [if_neg (by decide), if_neg (by decide), if_pos rfl, read_bind_of_ok (read_advance _ _),
    List.cons_append, read_peekToken_bind _ hgap hc.1]
  dsimp only
  rw [if_neg hc.2.2.1]

lemma read_element?_first (h : item.Takes text value) (hgap : Blank gap) (hrest : Boundary rest) :
    (element? true item).read (gap ++ (text ++ rest)) = .ok (some value, rest) := by
  have hitem := h.read blank_nil hrest
  rw [read_element?_opens h.head hgap]
  exact read_bind_of_ok hitem

lemma read_element?_next (h : item.Takes text value) (hblank : Blank blank) (hgap : Blank gap)
    (hrest : Boundary rest) :
    (element? false item).read (blank ++ ',' :: (gap ++ (text ++ rest))) = .ok (some value, rest) := by
  have hitem := h.read blank_nil hrest
  rw [read_element?_comma h.head hblank hgap]
  exact read_bind_of_ok hitem

lemma elementsFrom_of_close {reversed : List α}
    (h : (element? false item).read text = .ok (none, rest)) :
    elementsFrom item reversed text = .ok (reversed.reverse, rest) := by
  rw [elementsFrom]
  split
  · next hread => exact absurd (hread.symm.trans h) (by simp)
  · next hread =>
    obtain ⟨-, rfl⟩ := Prod.mk.inj (Except.ok.inj (hread.symm.trans h))
    rfl
  · next hread => exact absurd (hread.symm.trans h) (by simp)

lemma elementsFrom_of_next {reversed : List α}
    (h : (element? false item).read text = .ok (some value, rest)) :
    elementsFrom item reversed text = elementsFrom item (value :: reversed) rest := by
  rw [elementsFrom]
  split
  · next hread => exact absurd (hread.symm.trans h) (by simp)
  · next hread => exact absurd (hread.symm.trans h) (by simp)
  · next hread =>
    obtain ⟨hvalue, rfl⟩ := Prod.mk.inj (Except.ok.inj (hread.symm.trans h))
    obtain rfl := Option.some.inj hvalue
    rfl

lemma boundary_bracket (rest : List Char) : Boundary (']' :: rest) := boundary_cons (by decide)

/-- The elements that follow the first are read one after the other. -/
lemma elementsFrom_eq (h : Trail item.Takes text values) (reversed : List α) (rest : List Char) :
    elementsFrom item reversed (text ++ ']' :: rest) =
      .ok (reversed.reverse ++ values, ']' :: rest) := by
  induction h generalizing reversed with
  | nil hblank =>
    rw [elementsFrom_of_close (read_element?_close false hblank), List.append_nil]
  | cons hblank hgap hitem htrail ih =>
    have hnext := read_element?_next hitem hblank hgap (htrail.boundary (boundary_bracket rest))
    simp only [List.append_assoc, List.cons_append]
    rw [elementsFrom_of_next hnext, ih]
    simp

lemma read_closeList (hblank : Blank blank) :
    closeList.read (blank ++ ']' :: rest) = .ok ((), rest) := by
  unfold closeList
  rw [read_peekToken_bind _ hblank (by decide)]
  rfl

/-- A list is read if its content is, up to white space before the closing bracket. -/
lemma takes_listOf {content : Reader β} {result : β} (expected : String)
    (h : ∀ rest, ∃ blank, Blank blank ∧
      content.read (text ++ ']' :: rest) = .ok (result, blank ++ ']' :: rest)) :
    (listOf expected content).Takes ('[' :: (text ++ [']'])) result := by
  refine .of_peekToken (by decide) ?_
  intro rest _
  obtain ⟨blank, hblank, hcontent⟩ := h rest
  rw [if_pos rfl, read_bind_of_ok (read_advance _ _), List.append_assoc, List.singleton_append,
    read_bind_of_ok hcontent, read_bind_of_ok (read_closeList hblank), read_pure]

theorem takes_list (expected : String) (h : Row item.Takes text values) :
    (list expected item).Takes ('[' :: (text ++ [']'])) values := by
  refine takes_listOf expected ?_
  intro rest
  refine ⟨[], blank_nil, ?_⟩
  unfold elements
  cases h with
  | empty hblank =>
    rw [read_bind_of_ok (read_element?_close true hblank)]
    rfl
  | full hgap hitem htrail =>
    have hfirst := read_element?_first hitem hgap (htrail.boundary (boundary_bracket rest))
    simp only [List.append_assoc]
    rw [read_bind_of_ok hfirst]
    exact elementsFrom_eq htrail [_] rest

lemma read_elementsExactly (expected : String) (h : Trail item.Takes text values) (index : ℕ)
    (rest : List Char) :
    ∃ blank, Blank blank ∧
      (elementsExactly expected item (index + 1) values.length).read (text ++ ']' :: rest) =
        .ok (⟨values, rfl⟩, blank ++ ']' :: rest) := by
  induction h generalizing index with
  | nil hblank => exact ⟨_, hblank, rfl⟩
  | cons hblank hgap hitem htrail ih =>
    obtain ⟨last, hlast, hothers⟩ := ih (index + 1)
    have hnext := read_element?_next hitem hblank hgap (htrail.boundary (boundary_bracket rest))
    refine ⟨last, hlast, ?_⟩
    simp only [List.append_assoc, List.cons_append, List.length_cons]
    rw [elementsExactly, elementAt]
    have hindex : (index + 1 == 0) = false := rfl
    rw [hindex, read_bind_of_ok (read_bind_of_ok hnext), read_bind_of_ok hothers]
    rfl

/-- A list with a fixed number of elements. -/
theorem takes_listOf_elementsExactly {count : ℕ} (expected : String) (h : Row item.Takes text values)
    (hlength : values.length = count) :
    (listOf expected (elementsExactly expected item 0 count)).Takes ('[' :: (text ++ [']']))
      ⟨values, hlength⟩ := by
  subst hlength
  refine takes_listOf expected ?_
  intro rest
  cases h with
  | empty hblank => exact ⟨_, hblank, rfl⟩
  | full hgap hitem htrail =>
    obtain ⟨last, hlast, hothers⟩ := read_elementsExactly expected htrail 0 rest
    have hfirst := read_element?_first hitem hgap (htrail.boundary (boundary_bracket rest))
    refine ⟨last, hlast, ?_⟩
    simp only [List.append_assoc, List.length_cons]
    rw [elementsExactly, elementAt]
    have hindex : (0 == 0) = true := rfl
    rw [hindex, read_bind_of_ok (read_bind_of_ok hfirst), read_bind_of_ok hothers]
    rfl

end Lists

section Objects

/-- A member of an object: its key, and the text of its value. -/
inductive MemberText : List Char → String × List Char → Prop where
  | intro {spelling blank gap text : List Char} {key : String} (hkey : StringText spelling key)
    (hblank : Blank blank) (hgap : Blank gap) :
    MemberText (spelling ++ (blank ++ ':' :: (gap ++ text))) (key, text)

lemma memberText_quote (member : String × List Char) :
    MemberText (quote member.1 ++ ':' :: member.2) member :=
  .intro (stringText_quote member.1) blank_nil blank_nil

lemma row_members (members : List (String × List Char)) :
    Row MemberText (commaSeparated (members.map fun member => quote member.1 ++ ':' :: member.2))
      members :=
  row_commaSeparated fun member _ => memberText_quote member

/-- The reader takes the value from what follows the key of a member. -/
def TakesMember (reader : Reader α) (text : List Char) (value : α) : Prop :=
  ∀ ⦃blank gap rest : List Char⦄, Blank blank → Blank gap → Boundary rest →
    reader.read (blank ++ ':' :: (gap ++ (text ++ rest))) = .ok (value, rest)

/-- The members fill the draft, one after the other. -/
inductive Fills (member : δ → String → Reader δ) : δ → List (String × List Char) → δ → Prop where
  | nil {draft : δ} : Fills member draft [] draft
  | cons {draft next last : δ} {key : String} {text : List Char} {members : List (String × List Char)}
    (h : (member draft key).TakesMember text next) (hrest : Fills member next members last) :
    Fills member draft ((key, text) :: members) last

lemma read_colon (hblank : Blank blank) : colon.read (blank ++ ':' :: rest) = .ok ((), rest) := by
  unfold colon
  rw [read_peekToken_bind _ hblank (by decide)]
  rfl

lemma Takes.member (h : item.Takes text value) :
    (colon >>= fun _ => item).TakesMember text value := by
  intro blank gap rest hblank hgap hrest
  rw [read_bind_of_ok (read_colon hblank)]
  exact h.read hgap hrest

lemma TakesMember.map {reader : Reader α} (h : reader.TakesMember text value) (f : α → β) :
    (do return f (← reader) : Reader β).TakesMember text (f value) := by
  intro blank gap rest hblank hgap hrest
  rw [read_bind_of_ok (h hblank hgap hrest), read_pure]

/-- A field that was not read before is read once. -/
lemma Takes.newField (h : item.Takes text value) (name : String) :
    (newField name none item).TakesMember text (some value) :=
  (h.map some).member

variable {member : δ → String → Reader δ} {draft last : δ} {members : List (String × List Char)}
  {spelling : List Char} {key : String}

lemma read_key?_close (first : Bool) (hblank : Blank blank) :
    (key? first).read (blank ++ '\x7d' :: rest) = .ok (none, '\x7d' :: rest) := by
  unfold key?
  rw [read_peekToken_bind _ hblank (by decide)]
  rfl

lemma read_key?_first (h : StringText spelling key) (hgap : Blank gap) :
    (key? true).read (gap ++ (spelling ++ rest)) = .ok (some key, rest) := by
  obtain ⟨tail, rfl, hspells⟩ := exists_spells h
  unfold key?
  rw [List.cons_append, read_peekToken_bind _ hgap (by decide)]
  exact read_bind_of_ok (hspells rest)

lemma read_key?_next (h : StringText spelling key) (hblank : Blank blank) (hgap : Blank gap) :
    (key? false).read (blank ++ ',' :: (gap ++ (spelling ++ rest))) = .ok (some key, rest) := by
  obtain ⟨tail, rfl, hspells⟩ := exists_spells h
  unfold key?
  rw [read_peekToken_bind _ hblank (by decide)]
  dsimp only
  rw [if_neg (by decide), if_neg (by decide), if_pos rfl, read_bind_of_ok (read_advance _ _),
    List.cons_append, read_peekToken_bind _ hgap (by decide)]
  exact read_bind_of_ok (hspells rest)

lemma membersFrom_of_close {first : Bool} (h : (key? first).read text = .ok (none, rest)) :
    membersFrom member first draft text = .ok (draft, rest) := by
  rw [membersFrom]
  split
  · next hread => exact absurd (hread.symm.trans h) (by simp)
  · next hread =>
    obtain ⟨-, rfl⟩ := Prod.mk.inj (Except.ok.inj (hread.symm.trans h))
    rfl
  · next hread => exact absurd (hread.symm.trans h) (by simp)

lemma membersFrom_of_member {first : Bool} {after : List Char}
    (hkey : (key? first).read text = .ok (some key, after))
    (hmember : (member draft key).read after = .ok (last, rest)) :
    membersFrom member first draft text = membersFrom member false last rest := by
  rw [membersFrom]
  split
  · next hread => exact absurd (hread.symm.trans hkey) (by simp)
  · next hread => exact absurd (hread.symm.trans hkey) (by simp)
  · next hread =>
    obtain ⟨hsame, rfl⟩ := Prod.mk.inj (Except.ok.inj (hread.symm.trans hkey))
    obtain rfl := Option.some.inj hsame
    split
    · next hfound => exact absurd (hfound.symm.trans hmember) (by simp)
    · next hfound =>
      obtain ⟨rfl, rfl⟩ := Prod.mk.inj (Except.ok.inj (hfound.symm.trans hmember))
      rfl

lemma boundary_brace (rest : List Char) : Boundary ('\x7d' :: rest) := boundary_cons (by decide)

/-- The members that follow the first are read one after the other. -/
lemma membersFrom_eq (h : Trail MemberText text members) (hfills : Fills member draft members last)
    (rest : List Char) :
    membersFrom member false draft (text ++ '\x7d' :: rest) = .ok (last, '\x7d' :: rest) := by
  induction h generalizing draft with
  | nil hblank =>
    cases hfills with
    | nil => exact membersFrom_of_close (read_key?_close false hblank)
  | cons hblank hgap hmember htrail ih =>
    cases hmember with
    | intro hkey hcolon hspace =>
      cases hfills with
      | cons htakes hrest =>
        have hread := htakes hcolon hspace (htrail.boundary (boundary_brace rest))
        simp only [List.append_assoc, List.cons_append]
        rw [membersFrom_of_member (read_key?_next hkey hblank hgap) hread]
        exact ih hrest

lemma read_members (h : Row MemberText text members) (hfills : Fills member draft members last)
    (rest : List Char) :
    (Reader.members member draft).read (text ++ '\x7d' :: rest) = .ok (last, '\x7d' :: rest) := by
  cases h with
  | empty hblank =>
    cases hfills with
    | nil => exact membersFrom_of_close (read_key?_close true hblank)
  | full hgap hmember htrail =>
    cases hmember with
    | intro hkey hcolon hspace =>
      cases hfills with
      | cons htakes hrest =>
        have hread := htakes hcolon hspace (htrail.boundary (boundary_brace rest))
        simp only [List.append_assoc, List.cons_append]
        have hfirst := membersFrom_of_member (read_key?_first hkey hgap) hread
        exact hfirst.trans (membersFrom_eq htrail hrest rest)

/-- A record is read from an object whose members fill the draft. -/
theorem takes_record {expected : String} {fields : Reader α} {finish : δ → Except Flaw α}
    (h : Row MemberText text members) (hfills : Fills member draft members last)
    (hfinish : finish last = .ok value) :
    (record expected fields draft member finish).Takes ('\x7b' :: (text ++ ['\x7d'])) value := by
  refine .of_peekToken (by decide) ?_
  intro rest _
  rw [if_pos rfl, read_bind_of_ok (read_advance _ _), List.append_assoc, List.singleton_append,
    read_bind_of_ok (read_members h hfills rest), hfinish]
  rfl

lemma read_variantKey {known : List (String × ι)} {name : ι} (hkey : StringText spelling key)
    (hname : known.lookup key = some name) (hgap : Blank gap) :
    (variantKey known).read (gap ++ (spelling ++ rest)) = .ok (name, rest) := by
  obtain ⟨tail, rfl, hspells⟩ := exists_spells hkey
  unfold variantKey
  rw [List.cons_append, read_peekToken_bind _ hgap (by decide)]
  dsimp only
  rw [if_pos rfl]
  unfold variantName
  rw [read_bind_of_ok (read_advance _ _), read_bind_of_ok (hspells rest), hname]
  rfl

lemma read_closeVariant (hblank : Blank blank) :
    closeVariant.read (blank ++ '\x7d' :: rest) = .ok ((), rest) := by
  unfold closeVariant
  rw [read_peekToken_bind _ hblank (by decide)]
  rfl

/-- A variant is read from an object with its name and its content. -/
theorem takes_variant {known : List (String × ι)} {bare content : ι → Reader α} {name : ι}
    {body : List Char} (h : Row MemberText text [(key, body)]) (hname : known.lookup key = some name)
    (hcontent : (content name).Takes body value) :
    (variant known bare content).Takes ('\x7b' :: (text ++ ['\x7d'])) value := by
  refine .of_peekToken (by decide) ?_
  intro rest _
  cases h with
  | full hgap hmember htrail =>
    cases htrail with
    | nil hlast =>
      cases hmember with
      | intro hkey hcolon hspace =>
        have hbody := hcontent.read hspace (hlast.boundary (boundary_brace rest))
        dsimp only
        rw [if_neg (by decide), if_pos rfl, read_bind_of_ok (read_advance _ _)]
        simp only [List.append_assoc, List.cons_append, List.nil_append]
        rw [read_bind_of_ok (read_variantKey hkey hname hgap), read_bind_of_ok (read_colon hcolon),
          read_bind_of_ok hbody, read_bind_of_ok (read_closeVariant hlast), read_pure]

end Objects

end Reader

end FixedSupply.Json
