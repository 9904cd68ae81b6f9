import FixedSupply.Json.Skip

/-!
# Values

Readers of strings, integers, truth values, lists and variants, and the written forms of lists and
objects. Each reader reports a value of another type by what it is.
-/

namespace FixedSupply.Json

/-- Items with commas between them. -/
def commaSeparated : List (List Char) → List Char
  | [] => []
  | [item] => item
  | item :: rest => item ++ ',' :: commaSeparated rest

/-- The written form of a list, from those of its elements. -/
def writeList (items : List (List Char)) : List Char :=
  '[' :: commaSeparated items ++ [']']

def writeObject (members : List (String × List Char)) : List Char :=
  '\x7b' :: commaSeparated (members.map fun (key, value) => quote key ++ ':' :: value) ++ ['\x7d']

def writeNat (n : Nat) : List Char :=
  Nat.toDigits 10 n

def writeBool (b : Bool) : List Char :=
  if b then "true".toList else "false".toList

def writeOption {α : Type} (write : α → List Char) : Option α → List Char
  | none => "null".toList
  | some value => write value

namespace Reader

variable {α : Type}

/-- Reports the value that stands where another one was expected. -/
def mismatch (expected : String) : Reader α := do
  match ← peekToken with
  | none => fail .endInValue
  | some c =>
    if c = '[' then fail (.wrongType .sequence expected)
    else if c = '\x7b' then fail (.wrongType .map expected)
    else if c = '"' then
      advance
      fail (.wrongType (.string (← string)) expected)
    else if c = 'n' then
      letters "null".toList
      fail (.wrongType .null expected)
    else if c = 't' then
      letters "true".toList
      fail (.wrongType (.boolean true) expected)
    else if c = 'f' then
      letters "false".toList
      fail (.wrongType (.boolean false) expected)
    else if c = '-' ∨ c.isDigit then
      fail (.wrongType (← number).found expected)
    else fail .valueExpected

/-- A string; `expected` words what else is reported. -/
def text (expected : String) : Reader String := do
  if (← peekToken) = some '"' then
    advance
    string
  else mismatch expected

def boolean : Reader Bool := do
  let token ← peekToken
  if token = some 't' then
    letters "true".toList
    return true
  else if token = some 'f' then
    letters "false".toList
    return false
  else mismatch "a boolean"

/-- A natural number below a bound. -/
def natural (expected : String) (bound : Nat) : Reader Nat := do
  match ← peekToken with
  | none => fail .endInValue
  | some c =>
    if c = '-' ∨ c.isDigit then
      match ← number with
      | .integer value =>
        if 0 ≤ value ∧ value < bound then return value.toNat
        else fail (.wrongValue (.integer value) expected)
      | .float bits => fail (.wrongType (.float bits) expected)
    else mismatch expected

/-- The word `null`, or else a value. -/
def optional (item : Reader α) : Reader (Option α) := do
  if (← peekToken) = some 'n' then
    letters "null".toList
    return none
  else return some (← item)

/-- The word `null`. -/
def null (expected : String) : Reader Unit := do
  if (← peekToken) = some 'n' then letters "null".toList else mismatch expected

/-- The next element of an open list, if the list goes on; its closing bracket stays there. -/
def element? (first : Bool) (item : Reader α) : Reader (Option α) := do
  match ← peekToken with
  | none => fail .endInList
  | some c =>
    if c = ']' then return none
    else if first then return some (← item)
    else if c = ',' then
      advance
      match ← peekToken with
      | none => fail .endInValue
      | some d => if d = ']' then fail .trailingComma else return some (← item)
    else fail .listSeparatorExpected

theorem length_lt_of_element? {item : Reader α} {text rest : List Char} {value : α}
    (h : (element? false item).read text = .ok (some value, rest)) :
    rest.length < text.length := by
  obtain ⟨token, middle, htoken, h⟩ := read_bind_eq_ok h
  refine Nat.lt_of_lt_of_le ?_ (peekToken.length_le htoken)
  cases token with
  | none => cases h
  | some c =>
    dsimp only at h
    split at h
    · cases h
    simp only [Bool.false_eq_true, ↓reduceIte] at h
    split at h
    · exact consumes_advance.bind_left _ h
    · cases h

/-- The elements that follow the first of an open list, after those in `reversed`. -/
def elementsFrom (item : Reader α) (reversed : List α) (text : List Char) :
    Except Flaw (List α × List Char) :=
  match _h : (element? false item).read text with
  | .error flaw => .error flaw
  | .ok (none, rest) => .ok (reversed.reverse, rest)
  | .ok (some value, rest) => elementsFrom item (value :: reversed) rest
termination_by text.length
decreasing_by exact length_lt_of_element? _h

theorem length_le_of_elementsFrom {item : Reader α} {reversed values : List α}
    {text rest : List Char} (h : elementsFrom item reversed text = .ok (values, rest)) :
    rest.length ≤ text.length := by
  fun_induction elementsFrom item reversed text with
  | case1 => cases h
  | case2 _ _ _ hread => cases h; exact (element? false item).length_le hread
  | case3 _ _ _ _ hread ih => exact Nat.le_trans (ih h) ((element? false item).length_le hread)

/-- The elements of an open list whose first element was read. -/
def elementsAfter (item : Reader α) (first : α) : Reader (List α) where
  read := elementsFrom item [first]
  length_le := length_le_of_elementsFrom

/-- The elements of an open list; its closing bracket stays there. -/
def elements (item : Reader α) : Reader (List α) := do
  match ← element? true item with
  | none => return []
  | some value => elementsAfter item value

/-- Closes a list that has all its elements. -/
def closeList : Reader Unit := do
  match ← peekToken with
  | none => fail .endInList
  | some c =>
    if c = ']' then advance
    else if c = ',' then
      advance
      if (← peekToken) = some ']' then fail .trailingComma else fail .trailingCharacters
    else fail .trailingCharacters

/-- A list whose content is read by `content`. -/
def listOf (expected : String) (content : Reader α) : Reader α := do
  if (← peekToken) = some '[' then
    advance
    let value ← content
    closeList
    return value
  else mismatch expected

def list (expected : String) (item : Reader α) : Reader (List α) :=
  listOf expected (elements item)

/-- The element of an open list at an index, which has to be there. -/
def elementAt (index : Nat) (expected : String) (item : Reader α) : Reader α := do
  match ← element? (index == 0) item with
  | some value => return value
  | none => fail (.wrongLength index expected)

/-- Exactly `count` elements of an open list, the first of them at `index`. -/
def elementsExactly (expected : String) (item : Reader α) :
    (index count : Nat) → Reader { values : List α // values.length = count }
  | _, 0 => return ⟨[], rfl⟩
  | index, count + 1 => do
    let value ← elementAt index expected item
    let ⟨values, h⟩ ← elementsExactly expected item (index + 1) count
    return ⟨value :: values, congrArg (· + 1) h⟩

/-- The name of a variant, from its opening quote on, which selects one of the alternatives. -/
def variantName (known : List (String × α)) : Reader α := do
  advance
  let name ← string
  match known.lookup name with
  | some value => return value
  | none => fail (.unknownVariant name (known.map (·.1)))

/-- The key of the object around a variant, which is the name of the variant. -/
def variantKey (known : List (String × α)) : Reader α := do
  match ← peekToken with
  | none => fail .endInObject
  | some c =>
    if c = '"' then variantName known
    else if c = '\x7d' then fail .valueExpected
    else fail .keyNotString

/-- Closes the object around a variant. -/
def closeVariant : Reader Unit := do
  match ← peekToken with
  | none => fail .endInObject
  | some c => if c = '\x7d' then advance else fail .valueExpected

/-- A variant: its bare name, read by `bare`, or an object with its name and its content, read by
`content`. -/
def variant {ι : Type} (known : List (String × ι)) (bare : ι → Reader α) (content : ι → Reader α) :
    Reader α := do
  match ← peekToken with
  | none => fail .endInValue
  | some c =>
    if c = '"' then bare (← variantName known)
    else if c = '\x7b' then
      advance
      let name ← variantKey known
      colon
      let value ← content name
      closeVariant
      return value
    else fail .valueExpected

/-- A variant without content. -/
def unitVariant (known : List (String × α)) : Reader α :=
  variant known pure fun value => do
    null "unit"
    return value

end Reader

end FixedSupply.Json
