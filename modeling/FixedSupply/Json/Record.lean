import FixedSupply.Json.Value

/-!
# Records

A record is read from an object, whose members may stand in any order, or from the list of its fields.
Members of other names are passed over. The fields read so far are kept in a draft.
-/

namespace FixedSupply.Json.Reader

variable {α β δ : Type}

/-- The key of the next member of an open object, if the object goes on; its closing brace stays
there. -/
def key? (first : Bool) : Reader (Option String) := do
  match ← peekToken with
  | none => fail .endInObject
  | some c =>
    if c = '\x7d' then return none
    else if first then
      if c = '"' then
        advance
        return some (← string)
      else fail .keyNotString
    else if c = ',' then
      advance
      match ← peekToken with
      | none => fail .endInValue
      | some d =>
        if d = '\x7d' then fail .trailingComma
        else if d = '"' then
          advance
          return some (← string)
        else fail .keyNotString
    else fail .objectSeparatorExpected

theorem length_lt_of_key? {first : Bool} {key : String} {text rest : List Char}
    (h : (key? first).read text = .ok (some key, rest)) : rest.length < text.length := by
  obtain ⟨token, middle, htoken, h⟩ := read_bind_eq_ok h
  refine Nat.lt_of_lt_of_le ?_ (peekToken.length_le htoken)
  cases token with
  | none => cases h
  | some c =>
    dsimp only at h
    split at h
    · cases h
    split at h
    · split at h
      · exact consumes_advance.bind_left _ h
      · cases h
    split at h
    · exact consumes_advance.bind_left _ h
    · cases h

/-- Reads the members of an open object into a draft; `member` reads the colon and the value of a
member with a given key. -/
def membersFrom (member : δ → String → Reader δ) (first : Bool) (draft : δ) (text : List Char) :
    Except Flaw (δ × List Char) :=
  match _hkey : (key? first).read text with
  | .error flaw => .error flaw
  | .ok (none, rest) => .ok (draft, rest)
  | .ok (some key, rest) =>
    match _hmember : (member draft key).read rest with
    | .error flaw => .error flaw
    | .ok (next, remainder) => membersFrom member false next remainder
termination_by text.length
decreasing_by
  exact Nat.lt_of_le_of_lt ((member draft key).length_le _hmember) (length_lt_of_key? _hkey)

theorem length_le_of_membersFrom {member : δ → String → Reader δ} {first : Bool}
    {draft result : δ} {text rest : List Char}
    (h : membersFrom member first draft text = .ok (result, rest)) :
    rest.length ≤ text.length := by
  fun_induction membersFrom member first draft text with
  | case1 => cases h
  | case2 _ _ _ _ hkey => cases h; exact (key? _).length_le hkey
  | case3 => cases h
  | case4 _ _ _ _ _ hkey _ _ hmember ih =>
    exact Nat.le_trans (ih h) (Nat.le_trans ((member _ _).length_le hmember)
      (Nat.le_of_lt (length_lt_of_key? hkey)))

/-- The members of an open object; its closing brace stays there. -/
def members (member : δ → String → Reader δ) (start : δ) : Reader δ where
  read := membersFrom member true start
  length_le := length_le_of_membersFrom

/-- The value of a member that has not been read before. -/
def newField (name : String) (current : Option β) (item : Reader β) : Reader (Option β) := do
  if current.isSome then fail (.duplicateField name)
  else
    colon
    return some (← item)

/-- Passes over a member that is not a field. -/
def otherField (draft : δ) : Reader δ := do
  colon
  skip
  return draft

/-- A field that has to be in the draft. -/
def requiredField (name : String) (field : Option β) : Except Flaw β :=
  match field with
  | some value => .ok value
  | none => .error (.missingField name)

/-- A record: from a list by `fields`, or from an object by `member` and `finish`. -/
def record (expected : String) (fields : Reader α) (start : δ) (member : δ → String → Reader δ)
    (finish : δ → Except Flaw α) : Reader α := do
  if (← peekToken) = some '\x7b' then
    advance
    match finish (← members member start) with
    | .error flaw => fail flaw
    | .ok value =>
      advance
      return value
  else listOf expected fields

end FixedSupply.Json.Reader
