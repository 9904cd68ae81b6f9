import FixedSupply.Json.Number
import FixedSupply.Json.Quote

/-!
# Skipping a value

Passes over a value of any shape and checks only that it is well formed. The open lists and objects
are kept in a list of frames, so the nesting is not limited.
-/

namespace FixedSupply.Json

/-- An open list or object. -/
inductive Frame where
  | list
  | object
  deriving DecidableEq, Repr

/-- The text ends inside the frame. -/
def Frame.endFlaw : Frame → Flaw
  | .list => .endInList
  | .object => .endInObject

/-- An element is not followed by a separator. -/
def Frame.separatorFlaw : Frame → Flaw
  | .list => .listSeparatorExpected
  | .object => .objectSeparatorExpected

def Frame.closing : Frame → Char
  | .list => ']'
  | .object => '\x7d'

namespace Reader

/-- Passes over the colon between a key and its value. -/
def colon : Reader Unit := do
  match ← peekToken with
  | none => fail .endInObject
  | some ':' => advance
  | some _ => fail .colonExpected

/-- Passes over the key of a member and its colon, if the frame is an object. -/
def skipKey : Frame → Reader Unit
  | .list => return ()
  | .object => do
    match ← peekToken with
    | none => fail .endInObject
    | some '"' =>
      advance
      skipString
      colon
    | some _ => fail .keyNotString

/-- Passes over a scalar, or over the bracket that opens a frame. -/
def skipScalar : Reader (Option Frame) := do
  match ← peekToken with
  | none => fail .endInValue
  | some c =>
    if c = '[' then advance; return some .list
    else if c = '\x7b' then advance; return some .object
    else if c = '"' then advance; skipString; return none
    else if c = 'n' then letters "null".toList; return none
    else if c = 't' then letters "true".toList; return none
    else if c = 'f' then letters "false".toList; return none
    else if c = '-' ∨ c.isDigit then skipNumber; return none
    else fail .valueExpected

/-- Where a value stands in its frame. -/
inductive Position where
  /-- The frame was just opened. -/
  | first
  /-- An element of the frame was just passed. -/
  | next
  deriving DecidableEq, Repr

/-- Passes over what stands before the next element of a frame, its key included: `true` if the
frame was closed instead. -/
def skipGap (frame : Frame) (position : Position) : Reader Bool := do
  match ← peekToken with
  | none => fail frame.endFlaw
  | some c =>
    if c = frame.closing then
      advance
      return true
    else if position = .first then
      skipKey frame
      return false
    else if c = ',' then
      advance
      skipKey frame
      return false
    else fail frame.separatorFlaw

theorem consumes_skipScalar : skipScalar.Consumes := by
  refine .bind_right _ fun token => ?_
  cases token with
  | none => exact consumes_fail _
  | some c =>
    dsimp only
    split
    · exact consumes_advance.bind_left _
    split
    · exact consumes_advance.bind_left _
    split
    · exact consumes_advance.bind_left _
    split
    · exact ((consumes_next _).bind_left _).bind_left _
    split
    · exact ((consumes_next _).bind_left _).bind_left _
    split
    · exact ((consumes_next _).bind_left _).bind_left _
    split
    · exact consumes_skipNumber.bind_left _
    · exact consumes_fail _

theorem length_lt_of_skipGap {frame : Frame} {position : Position} {text rest : List Char}
    (h : (skipGap frame position).read text = .ok (true, rest)) : rest.length < text.length := by
  obtain ⟨token, middle, htoken, h⟩ := read_bind_eq_ok h
  refine Nat.lt_of_lt_of_le ?_ (peekToken.length_le htoken)
  cases token with
  | none => cases h
  | some c =>
    dsimp only at h
    split at h
    · exact consumes_advance.bind_left _ h
    split at h
    · obtain ⟨_, _, _, h⟩ := read_bind_eq_ok h
      cases h
    split at h
    · obtain ⟨_, _, _, h⟩ := read_bind_eq_ok h
      obtain ⟨_, _, _, h⟩ := read_bind_eq_ok h
      cases h
    · cases h

mutual

/-- Passes over a value and over the rest of the frames around it. -/
def skipFrom (frames : List Frame) (text : List Char) : Except Flaw (Unit × List Char) :=
  match _h : skipScalar.read text with
  | .error flaw => .error flaw
  | .ok (some frame, rest) => skipFrame frame frames .first rest
  | .ok (none, rest) =>
    match frames with
    | [] => .ok ((), rest)
    | frame :: outer => skipFrame frame outer .next rest
termination_by (text.length, 0)
decreasing_by
  all_goals exact .left _ _ (consumes_skipScalar _h)

/-- Passes over the rest of a frame and of the frames around it. -/
def skipFrame (frame : Frame) (outer : List Frame) (position : Position) (text : List Char) :
    Except Flaw (Unit × List Char) :=
  match _h : (skipGap frame position).read text with
  | .error flaw => .error flaw
  | .ok (true, rest) =>
    match outer with
    | [] => .ok ((), rest)
    | frame :: outer => skipFrame frame outer .next rest
  | .ok (false, rest) => skipFrom (frame :: outer) rest
termination_by (text.length, 1)
decreasing_by
  · exact .left _ _ (length_lt_of_skipGap _h)
  · rcases Nat.lt_or_eq_of_le ((skipGap frame position).length_le _h) with hlt | heq
    · exact .left _ _ hlt
    · exact heq ▸ .right _ Nat.zero_lt_one

end

theorem length_le_of_skip (n : Nat) :
    (∀ frames text rest, text.length = n → skipFrom frames text = .ok ((), rest) →
      rest.length ≤ n) ∧
    ∀ frame outer position text rest, text.length = n →
      skipFrame frame outer position text = .ok ((), rest) → rest.length ≤ n := by
  induction n using Nat.strongRecOn with
  | ind n ih =>
  have hfrom : ∀ frames text rest, text.length = n → skipFrom frames text = .ok ((), rest) →
      rest.length ≤ n := by
    intro frames text rest hn h
    rw [skipFrom] at h
    split at h
    · cases h
    · next hread =>
      have hlt := hn ▸ consumes_skipScalar hread
      exact Nat.le_of_lt (Nat.lt_of_le_of_lt ((ih _ hlt).2 _ _ _ _ _ rfl h) hlt)
    · next hread =>
      have hlt := hn ▸ consumes_skipScalar hread
      split at h
      · cases h
        exact Nat.le_of_lt hlt
      · exact Nat.le_of_lt (Nat.lt_of_le_of_lt ((ih _ hlt).2 _ _ _ _ _ rfl h) hlt)
  refine ⟨hfrom, fun frame outer position text rest hn h => ?_⟩
  rw [skipFrame] at h
  split at h
  · cases h
  · next hread =>
    have hlt := hn ▸ length_lt_of_skipGap hread
    split at h
    · cases h
      exact Nat.le_of_lt hlt
    · exact Nat.le_of_lt (Nat.lt_of_le_of_lt ((ih _ hlt).2 _ _ _ _ _ rfl h) hlt)
  · next middle hread =>
    rcases Nat.lt_or_eq_of_le (hn ▸ (skipGap frame position).length_le hread) with hlt | heq
    · exact Nat.le_of_lt (Nat.lt_of_le_of_lt ((ih _ hlt).1 _ _ _ rfl h) hlt)
    · exact hfrom _ _ _ heq h

/-- Passes over a value of any shape. -/
def skip : Reader Unit where
  read := skipFrom []
  length_le {text _ rest} h := (length_le_of_skip text.length).1 [] text rest rfl h

end Reader

end FixedSupply.Json
