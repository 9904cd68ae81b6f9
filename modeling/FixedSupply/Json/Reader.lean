import FixedSupply.Json.Flaw

/-!
# Readers

A reader takes a value from the front of a text and leaves a rest, which is never longer than the
text. That bound is part of the type, so a loop that consumes a character on each round ends.
-/

namespace FixedSupply.Json

/-- Takes a value from the front of a text, or reports the first flaw. -/
structure Reader (α : Type) where
  read : List Char → Except Flaw (α × List Char)
  length_le : ∀ {text : List Char} {value : α} {rest : List Char},
    read text = .ok (value, rest) → rest.length ≤ text.length

namespace Reader

variable {α β : Type}

protected def pure (value : α) : Reader α where
  read text := .ok (value, text)
  length_le h := by cases h; exact Nat.le_refl _

/-- One reader, and then the reader that its value selects. -/
protected def bind (first : Reader α) (next : α → Reader β) : Reader β where
  read text :=
    match first.read text with
    | .error flaw => .error flaw
    | .ok (value, rest) => (next value).read rest
  length_le {text _ _} h := by
    split at h
    · cases h
    · next value rest hfirst =>
      exact Nat.le_trans ((next value).length_le h) (first.length_le hfirst)

instance : Monad Reader where
  pure := Reader.pure
  bind := Reader.bind

def fail (flaw : Flaw) : Reader α where
  read _ := .error flaw
  length_le h := nomatch h

/-- The first character of the text, which stays there. -/
def peek : Reader (Option Char) where
  read text := .ok (text.head?, text)
  length_le h := by cases h; exact Nat.le_refl _

/-- Takes the first character; `atEnd` is the flaw of a text without one. -/
def next (atEnd : Flaw) : Reader Char where
  read
    | [] => .error atEnd
    | c :: rest => .ok (c, rest)
  length_le {text _ _} h := by
    cases text with
    | nil => cases h
    | cons => cases h; simp

/-- Drops a first character that is known to be there. -/
def advance : Reader Unit := do
  let _ ← next .endInValue

/-- The longest beginning of the text whose characters satisfy a test. -/
def takeWhile (test : Char → Bool) : Reader (List Char) where
  read text := .ok (text.takeWhile test, text.dropWhile test)
  length_le h := by cases h; exact (List.dropWhile_suffix test).length_le

def isSpace (c : Char) : Bool :=
  c == ' ' || c == '\t' || c == '\n' || c == '\r'

/-- The first character after white space, which is dropped. -/
def peekToken : Reader (Option Char) where
  read text := .ok ((text.dropWhile isSpace).head?, text.dropWhile isSpace)
  length_le h := by cases h; exact (List.dropWhile_suffix isSpace).length_le

def letters : List Char → Reader Unit
  | [] => return ()
  | expected :: more => do
    if (← next .endInValue) = expected then letters more else fail .wordExpected

/-- A whole text that holds one value and white space around it. -/
def run (reader : Reader α) (text : String) : Except Flaw α :=
  match reader.read text.toList with
  | .error flaw => .error flaw
  | .ok (value, rest) =>
    if (rest.dropWhile isSpace).isEmpty then .ok value else .error .trailingCharacters

/-! ## Readers that consume -/

/-- The reader takes at least one character whenever it succeeds. -/
def Consumes (reader : Reader α) : Prop :=
  ∀ ⦃text value rest⦄, reader.read text = .ok (value, rest) → rest.length < text.length

theorem read_bind (first : Reader α) (next : α → Reader β) (text : List Char) :
    (first >>= next).read text =
      match first.read text with
      | .error flaw => .error flaw
      | .ok (value, rest) => (next value).read rest := rfl

theorem read_pure (value : α) (text : List Char) :
    (pure value : Reader α).read text = .ok (value, text) := rfl

theorem read_bind_eq_ok {first : Reader α} {next : α → Reader β} {text rest : List Char}
    {value : β} (h : (first >>= next).read text = .ok (value, rest)) :
    ∃ a middle, first.read text = .ok (a, middle) ∧ (next a).read middle = .ok (value, rest) := by
  rw [read_bind] at h
  split at h
  · cases h
  · exact ⟨_, _, by assumption, h⟩

theorem Consumes.bind_left {first : Reader α} (h : first.Consumes) (next : α → Reader β) :
    (first >>= next).Consumes := fun _ _ _ hread => by
  obtain ⟨a, middle, hfirst, hnext⟩ := read_bind_eq_ok hread
  exact Nat.lt_of_le_of_lt ((next a).length_le hnext) (h hfirst)

theorem Consumes.bind_right (first : Reader α) {next : α → Reader β}
    (h : ∀ a, (next a).Consumes) : (first >>= next).Consumes := fun _ _ _ hread => by
  obtain ⟨a, middle, hfirst, hnext⟩ := read_bind_eq_ok hread
  exact Nat.lt_of_lt_of_le (h a hnext) (first.length_le hfirst)

theorem consumes_fail (flaw : Flaw) : (fail flaw : Reader α).Consumes :=
  fun _ _ _ h => nomatch h

theorem consumes_next (atEnd : Flaw) : (next atEnd).Consumes := fun text _ _ h => by
  cases text with
  | nil => cases h
  | cons => cases h; simp

theorem consumes_advance : advance.Consumes :=
  (consumes_next _).bind_left _

end Reader

end FixedSupply.Json
