import Mathlib.Data.List.Basic
import Mathlib.Tactic.Lemma
import FixedSupply.Json.Value

/-!
# Reading a token

A reader takes a value from its text whatever follows, with white space in front of it or without. A
number alone needs that what follows cannot continue it.
-/

namespace FixedSupply.Json

def Blank (text : List Char) : Prop :=
  ∀ c ∈ text, Reader.isSpace c = true

/-- No numeral goes on with the text. -/
def Boundary (text : List Char) : Prop :=
  ∀ c ∈ text.head?, c.isDigit = false ∧ c ≠ '.' ∧ c ≠ 'e' ∧ c ≠ 'E'

/-- A value may start with the character. -/
def Opens (c : Char) : Prop :=
  Reader.isSpace c = false ∧ c ≠ ',' ∧ c ≠ ']' ∧ c ≠ '\x7d'

instance (text : List Char) : Decidable (Blank text) :=
  decidable_of_iff (text.all Reader.isSpace = true) List.all_eq_true

instance (c : Char) : Decidable (Opens c) := inferInstanceAs (Decidable (_ ∧ _))

section Boundary

variable {blank rest : List Char} {c : Char}

@[simp] lemma blank_nil : Blank [] := List.forall_mem_nil _

@[simp] lemma boundary_nil : Boundary [] := by
  intro c hc
  exact absurd hc (by simp)

lemma boundary_cons (h : c.isDigit = false ∧ c ≠ '.' ∧ c ≠ 'e' ∧ c ≠ 'E') : Boundary (c :: rest) := by
  intro d hd
  obtain rfl : c = d := by simpa using hd
  exact h

lemma boundary_of_isSpace (h : Reader.isSpace c = true) : Boundary (c :: rest) := by
  have hspace : c = ' ' ∨ c = '\t' ∨ c = '\n' ∨ c = '\r' := by
    simpa [Reader.isSpace, or_assoc] using h
  apply boundary_cons
  rcases hspace with rfl | rfl | rfl | rfl
  · decide
  · decide
  · decide
  · decide

lemma Blank.boundary (hblank : Blank blank) (h : Boundary rest) : Boundary (blank ++ rest) := by
  cases blank with
  | nil => exact h
  | cons c blank => exact boundary_of_isSpace (hblank c List.mem_cons_self)

variable (rest) in
lemma Blank.dropWhile (hblank : Blank blank) :
    (blank ++ rest).dropWhile Reader.isSpace = rest.dropWhile Reader.isSpace :=
  List.dropWhile_append_of_pos hblank

end Boundary

namespace Reader

variable {α β : Type} {reader : Reader α} {text blank rest : List Char} {value : α}

lemma read_bind_of_ok {next : α → Reader β} (h : reader.read text = .ok (value, rest)) :
    (reader >>= next).read text = (next value).read rest := by
  rw [read_bind, h]

lemma read_advance (c : Char) (rest : List Char) : advance.read (c :: rest) = .ok ((), rest) := rfl

variable (rest) in
/-- White space in front of a token is dropped. -/
lemma read_peekToken {c : Char} (hblank : Blank blank) (hc : isSpace c = false) :
    peekToken.read (blank ++ c :: rest) = .ok (some c, c :: rest) := by
  have hdrop : (blank ++ c :: rest).dropWhile isSpace = c :: rest := by
    rw [hblank.dropWhile (c :: rest), List.dropWhile_cons_of_neg (by simpa using hc)]
  unfold peekToken
  dsimp only
  rw [hdrop]
  rfl

variable (rest) in
lemma read_peekToken_bind {c : Char} (hblank : Blank blank) (hc : isSpace c = false)
    (next : Option Char → Reader β) :
    (peekToken >>= next).read (blank ++ c :: rest) = (next (some c)).read (c :: rest) :=
  read_bind_of_ok (read_peekToken rest hblank hc)

lemma read_letters (word rest : List Char) : (letters word).read (word ++ rest) = .ok ((), rest) := by
  induction word with
  | nil => rfl
  | cons c word ih =>
    have hnext : (next .endInValue).read (c :: (word ++ rest)) = .ok (c, word ++ rest) := rfl
    rw [letters, List.cons_append, read_bind_of_ok hnext, if_pos rfl, ih]

/-- The reader takes the value from the text and leaves whatever follows. -/
structure Takes (reader : Reader α) (text : List Char) (value : α) : Prop where
  head : ∃ c tail, text = c :: tail ∧ Opens c
  read : ∀ {blank rest : List Char}, Blank blank → Boundary rest →
    reader.read (blank ++ (text ++ rest)) = .ok (value, rest)

lemma Takes.of_peekToken {next : Option Char → Reader α} {c : Char} {tail : List Char} (hc : Opens c)
    (h : ∀ rest, Boundary rest → (next (some c)).read (c :: (tail ++ rest)) = .ok (value, rest)) :
    (peekToken >>= next).Takes (c :: tail) value := by
  refine ⟨⟨c, tail, rfl, hc⟩, ?_⟩
  intro blank rest hblank hrest
  rw [List.cons_append, read_peekToken_bind _ hblank hc.1]
  exact h rest hrest

lemma Takes.map (h : reader.Takes text value) (f : α → β) :
    (do return f (← reader) : Reader β).Takes text (f value) := by
  refine ⟨h.head, ?_⟩
  intro blank rest hblank hrest
  rw [read_bind_of_ok (h.read hblank hrest), read_pure]

/-- A text that holds one value and white space around it is read to its end. -/
theorem Takes.run {before after : List Char} (h : reader.Takes text value) (hbefore : Blank before)
    (hafter : Blank after) : reader.run (String.ofList (before ++ (text ++ after))) = .ok value := by
  have hrest : Boundary after := by simpa using hafter.boundary boundary_nil
  have hend : after.dropWhile isSpace = [] := by
    simpa using hafter.dropWhile []
  rw [Reader.run, String.toList_ofList, h.read hbefore hrest]
  simp [hend]

lemma Takes.run_ofList (h : reader.Takes text value) :
    reader.run (String.ofList text) = .ok value := by
  simpa using h.run blank_nil blank_nil

/-! ### Words -/

lemma takes_true : boolean.Takes "true".toList true := by
  have hword : "true".toList = 't' :: ['r', 'u', 'e'] := rfl
  rw [hword]
  refine .of_peekToken (by decide) ?_
  intro rest _
  rw [if_pos rfl]
  exact read_bind_of_ok (read_letters "true".toList rest)

lemma takes_false : boolean.Takes "false".toList false := by
  have hword : "false".toList = 'f' :: ['a', 'l', 's', 'e'] := rfl
  rw [hword]
  refine .of_peekToken (by decide) ?_
  intro rest _
  rw [if_neg (by decide), if_pos rfl]
  exact read_bind_of_ok (read_letters "false".toList rest)

lemma takes_boolean (b : Bool) : boolean.Takes (writeBool b) b := by
  cases b with
  | true => exact takes_true
  | false => exact takes_false

lemma takes_null : (optional reader).Takes "null".toList none := by
  have hword : "null".toList = 'n' :: ['u', 'l', 'l'] := rfl
  rw [hword]
  refine .of_peekToken (by decide) ?_
  intro rest _
  rw [if_pos rfl]
  exact read_bind_of_ok (read_letters "null".toList rest)

/-- The values of the item itself do not start like the word. -/
lemma Takes.optional {c : Char} {tail : List Char} (h : reader.Takes (c :: tail) value) (hc : c ≠ 'n') :
    (optional reader).Takes (c :: tail) (some value) := by
  obtain ⟨d, rest, heq, hopens⟩ := h.head
  obtain ⟨rfl, rfl⟩ := List.cons.inj heq
  refine .of_peekToken hopens ?_
  intro rest hrest
  have hread := h.read blank_nil hrest
  rw [if_neg (by simpa using hc)]
  exact read_bind_of_ok hread

end Reader

end FixedSupply.Json
