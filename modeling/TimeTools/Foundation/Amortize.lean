import Mathlib.Algebra.BigOperators.Group.List.Basic
import Mathlib.Algebra.Order.Ring.Int
import TimeTools.Foundation.Run

/-!
# What a run costs in all

The sum of a cost over the steps of a run.  A potential of the states pays for the steps
that cost more than their budget with what cheaper steps have put by.
-/

namespace Machine

variable {σ ε : Type} (m : Machine σ ε)

def total (cost : σ → ε → Nat) : σ → List ε → Nat
  | _, [] => 0
  | s, e :: es => cost s e + total cost (m.step s e) es

variable {m} {C : σ → ε → Prop}

theorem total_mul (cost : σ → ε → Nat) (k : Nat) (s : σ) (es : List ε) :
    m.total (fun s e => cost s e * k) s es = m.total cost s es * k := by
  induction es generalizing s with
  | nil => exact (Nat.zero_mul k).symm
  | cons e es ih => rw [total, total, ih, Nat.add_mul]

theorem total_of_event (cost : ε → Nat) (s : σ) (es : List ε) :
    m.total (fun _ e => cost e) s es = (es.map cost).sum := by
  induction es generalizing s with
  | nil => rfl
  | cons e es ih => rw [total, ih, List.map_cons, List.sum_cons]

theorem total_add_potential_le (cost budget : σ → ε → Nat) (potential : σ → Nat)
    (hstep : ∀ s e, C s e → cost s e + potential (m.step s e) ≤ potential s + budget s e)
    {s : σ} {es : List ε} (h : m.Along C s es) :
    m.total cost s es + potential (m.run s es) ≤ potential s + m.total budget s es := by
  induction es generalizing s with
  | nil => exact Nat.le_of_eq (Nat.add_comm _ _)
  | cons e es ih =>
    have hfirst := hstep s e h.1
    have hrest := ih h.2
    rw [total, total, run_cons]
    omega

end Machine
