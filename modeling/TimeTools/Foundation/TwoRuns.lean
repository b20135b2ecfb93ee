import Mathlib.Data.List.Forall2
import TimeTools.Foundation.Run

/-!
# Two runs side by side

A property of two machines that take their events pairwise.  A relation of their
states that paired steps keep gives the property at every pair of steps
(`alongBoth_of_relation`), as an invariant does for one run.
-/

namespace Machine

variable {σ ε τ δ : Type}

/-- `C` relates the two states and the two events at each step.  Runs of different
lengths have no such property. -/
def AlongBoth (m : Machine σ ε) (n : Machine τ δ) (C : σ → τ → ε → δ → Prop) :
    σ → τ → List ε → List δ → Prop
  | _, _, [], [] => True
  | s, t, e :: es, f :: fs => C s t e f ∧ AlongBoth m n C (m.step s e) (n.step t f) es fs
  | _, _, [], _ :: _ => False
  | _, _, _ :: _, [] => False

variable {m : Machine σ ε} {n : Machine τ δ} {R : σ → τ → Prop} {E : ε → δ → Prop}
  {C : σ → τ → ε → δ → Prop}

theorem alongBoth_of_relation
    (hstep : ∀ s t e f, R s t → E e f → R (m.step s e) (n.step t f))
    (hC : ∀ s t e f, R s t → E e f → C s t e f) {s : σ} {t : τ} (hR : R s t) {es : List ε}
    {fs : List δ} (h : List.Forall₂ E es fs) : AlongBoth m n C s t es fs := by
  induction h generalizing s t with
  | nil => trivial
  | cons hef _ ih => exact ⟨hC s t _ _ hR hef, ih (hstep s t _ _ hR hef)⟩

end Machine
