import Mathlib.Data.Option.Basic

/-!
# Output parameters

A call through a pointer fills what it points to, or fails and leaves it as it was.
A caller that does not look at the outcome goes on with whatever is there; what it
computes from that is determined by the call exactly when the call succeeded, as
long as the computation depends on its argument at all (`determined_iff`).
-/

namespace OutParam

variable {α β : Type}

/-- What is there after a call that writes `read`, when `old` was there before. -/
def fill (read : Option α) (old : α) : α := read.getD old

/-- What `f` makes of the result does not depend on what was there before. -/
def Determined (f : α → β) (read : Option α) : Prop :=
  ∀ old old', f (fill read old) = f (fill read old')

theorem fill_of_isSome {read : Option α} (h : read.isSome) (old old' : α) :
    fill read old = fill read old' := by
  cases read with
  | none => cases h
  | some _ => rfl

theorem determined_iff {f : α → β} {x y : α} (hf : f x ≠ f y) (read : Option α) :
    Determined f read ↔ read.isSome := by
  constructor
  · intro h
    cases read with
    | none => exact absurd (h x y) hf
    | some _ => rfl
  · intro h old old'
    rw [fill_of_isSome h old old']

end OutParam
