import Mathlib.Logic.Basic

/-!
# An exclusive record lock

The lock of a whole file as POSIX has it: a process owns it, a request is granted
when no other process does, and a process loses it when it closes any descriptor of
the file or exits.
-/

namespace RecordLock

variable {π : Type} [DecidableEq π] {owner : Option π} {p q : π}

def Free (owner : Option π) (p : π) : Prop := owner = none ∨ owner = some p

instance (owner : Option π) (p : π) : Decidable (Free owner p) :=
  inferInstanceAs (Decidable (_ ∨ _))

/-- The owner after `p` closes a descriptor of the file or exits. -/
def drop (owner : Option π) (p : π) : Option π := if owner = some p then none else owner

omit [DecidableEq π] in
theorem Free.owner_eq (h : Free owner p) (hq : owner = some q) : q = p := by
  rcases h with h | h
  · rw [h] at hq
    cases hq
  · exact Option.some.inj (hq.symm.trans h)

theorem drop_of_owner (hq : owner = some q) (hne : q ≠ p) : drop owner p = some q := by
  rw [drop, if_neg, hq]
  rw [hq]
  exact fun h => hne (Option.some.inj h)

end RecordLock
