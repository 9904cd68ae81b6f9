import Mathlib.Data.List.Basic
import Mathlib.Tactic.Lemma

/-!
# Computations that end at their first fault

What a computation in steps returns, and with which fault it ends, in terms of its steps.
-/

namespace FixedSupply

variable {ε α β : Type}

@[simp] lemma throw_eq_error (fault : ε) : (throw fault : Except ε α) = .error fault := rfl

@[simp] lemma pure_eq_ok (value : α) : (pure value : Except ε α) = .ok value := rfl

section Bind

variable {first : Except ε α} {next : α → Except ε β}

lemma bind_eq_ok_iff {value : β} :
    (first >>= next) = .ok value ↔ ∃ middle, first = .ok middle ∧ next middle = .ok value := by
  cases first with
  | error fault => simp [bind, Except.bind]
  | ok middle => simp [bind, Except.bind]

lemma bind_eq_error_iff {fault : ε} :
    (first >>= next) = .error fault ↔
      first = .error fault ∨ ∃ middle, first = .ok middle ∧ next middle = .error fault := by
  cases first with
  | error found => simp [bind, Except.bind]
  | ok middle => simp [bind, Except.bind]

end Bind

section Map

variable {result : Except ε α} {f : α → β}

lemma map_eq_ok_iff {value : β} :
    result.map f = .ok value ↔ ∃ found, result = .ok found ∧ f found = value := by
  cases result with
  | error fault => simp [Except.map]
  | ok found => simp [Except.map]

lemma map_eq_error_iff {fault : ε} : result.map f = .error fault ↔ result = .error fault := by
  cases result with
  | error found => simp [Except.map]
  | ok found => simp [Except.map]

end Map

/-- A list is mapped from left to right, up to the first element that fails. -/
lemma mapM_eq_error_iff {f : α → Except ε β} {xs : List α} {fault : ε} :
    xs.mapM f = .error fault ↔ ∃ before x after, xs = before ++ x :: after ∧
      (∀ earlier ∈ before, ∃ value, f earlier = .ok value) ∧ f x = .error fault := by
  induction xs with
  | nil => simp
  | cons first rest ih =>
    have hstep : (first :: rest).mapM f = .error fault ↔
        f first = .error fault ∨ ∃ value, f first = .ok value ∧ rest.mapM f = .error fault := by
      simp only [List.mapM_cons, bind_eq_error_iff, pure_eq_ok, reduceCtorEq, and_false, exists_false,
        or_false]
    rw [hstep, ih]
    constructor
    · rintro (hfirst | ⟨value, hfirst, before, x, after, rfl, hbefore, hx⟩)
      · exact ⟨[], first, rest, rfl, by simp, hfirst⟩
      · exact ⟨first :: before, x, after, rfl, List.forall_mem_cons.mpr ⟨⟨value, hfirst⟩, hbefore⟩, hx⟩
    · rintro ⟨before, x, after, hform, hbefore, hx⟩
      cases before with
      | nil =>
        obtain ⟨rfl, -⟩ := List.cons.inj hform
        exact .inl hx
      | cons head before =>
        obtain ⟨rfl, rfl⟩ := List.cons.inj hform
        obtain ⟨⟨value, hfirst⟩, hothers⟩ := List.forall_mem_cons.mp hbefore
        exact .inr ⟨value, hfirst, before, x, after, rfl, hothers, hx⟩

end FixedSupply
