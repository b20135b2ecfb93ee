import TimeTools.Timespec

/-!
# Chains of timespec operations

The programs feed the result of one operation into the next: a step of the clock is an
`add_time` of two `sub_time`s.  An expression is any such chain, over operands that need
not be normalised.  While no sum in it leaves the word, its value has the exact sum of
the signed operands for its total, and is the only canonical timespec that does; so the
order of the operations, and how often they normalise, does not show
(`timeExpr_exact`).
-/

namespace TimeTools

inductive TimeExpr
  | operand (t : Timespec)
  | addTime (x y : TimeExpr)
  | subTime (x y : TimeExpr)
  | subNs (x : TimeExpr) (y : Int64)
  deriving DecidableEq, Repr

namespace TimeExpr

def eval : TimeExpr → Timespec
  | operand t => t
  | addTime x y => TimeTools.addTime x.eval y.eval
  | subTime x y => TimeTools.subTime x.eval y.eval
  | subNs x y => TimeTools.subNs x.eval y

/-- The sum of the operands, each with its sign. -/
def sum : TimeExpr → Int
  | operand t => t.total
  | addTime x y => x.sum + y.sum
  | subTime x y => x.sum - y.sum
  | subNs x y => x.sum - y.toInt

/-- No 64-bit sum of any operation in the expression overflows. -/
def Fits : TimeExpr → Prop
  | operand _ => True
  | addTime x y => x.Fits ∧ y.Fits ∧ SumFits x.eval y.eval
  | subTime x y => x.Fits ∧ y.Fits ∧ DiffFits x.eval y.eval
  | subNs x y => x.Fits ∧ NsFits x.eval y

/-- The expression has at least one operation. -/
def IsResult : TimeExpr → Prop
  | operand _ => False
  | _ => True

variable {e e' : TimeExpr}

theorem total_eval (h : e.Fits) : e.eval.total = e.sum := by
  induction e with
  | operand t => rfl
  | addTime x y ihx ihy =>
    obtain ⟨hx, hy, hfits⟩ := h
    rw [eval, (addTime_spec hfits).1, ihx hx, ihy hy, sum]
  | subTime x y ihx ihy =>
    obtain ⟨hx, hy, hfits⟩ := h
    rw [eval, (subTime_spec hfits).1, ihx hx, ihy hy, sum]
  | subNs x y ih =>
    obtain ⟨hx, hfits⟩ := h
    rw [eval, (subNs_exact hfits).1, ih hx, sum]

/-- Every operation ends with `normalize_time`. -/
theorem canonical_eval (h : e.IsResult) : e.eval.Canonical := by
  cases e with
  | operand t => exact h.elim
  | addTime x y => exact normalizeTime_canonical _
  | subTime x y => exact normalizeTime_canonical _
  | subNs x y => exact normalizeTime_canonical _

theorem eq_eval {t : Timespec} (h : e.Fits) (hresult : e.IsResult) (ht : t.Canonical)
    (htotal : t.total = e.sum) : t = e.eval :=
  ht.eq_of_total (canonical_eval hresult) (htotal.trans (total_eval h).symm)

end TimeExpr

/-- The value of an expression without overflow is exact; where it is the result of an
operation it is canonical and a fixed point of `normalize_time`, the only canonical
timespec of its total, and that of every other result with the same sum.  Besides,
`normalize_time` is idempotent. -/
theorem timeExpr_exact (e : TimeExpr) (h : e.Fits) :
    e.eval.total = e.sum ∧
      (e.IsResult → e.eval.Canonical ∧ normalizeTime e.eval = e.eval ∧
        (∀ t : Timespec, t.Canonical → t.total = e.sum → t = e.eval) ∧
        ∀ e' : TimeExpr, e'.Fits → e'.IsResult → e'.sum = e.sum → e'.eval = e.eval) ∧
      ∀ t, normalizeTime (normalizeTime t) = normalizeTime t := by
  refine ⟨TimeExpr.total_eval h, fun hresult => ?_,
    fun t => normalizeTime_of_canonical (normalizeTime_canonical t)⟩
  have hcanonical := TimeExpr.canonical_eval hresult
  refine ⟨hcanonical, normalizeTime_of_canonical hcanonical,
    fun t ht htotal => TimeExpr.eq_eval h hresult ht htotal, fun e' h' hresult' hsum => ?_⟩
  have htotal := (TimeExpr.total_eval h').trans hsum
  exact TimeExpr.eq_eval h hresult (TimeExpr.canonical_eval hresult') htotal

/-- A time less an offset that is not normalised, plus the gap between two readings. -/
def steppedExample : TimeExpr :=
  .addTime (.subTime (.operand ⟨1700000000, 100⟩) (.operand ⟨2, -1500000000⟩))
    (.subTime (.operand ⟨1700000000, 90⟩) (.operand ⟨1699999999, 999999950⟩))

theorem timeExpr_exact_of_step : steppedExample.eval.total = 1699999999500000240 :=
  (timeExpr_exact steppedExample ⟨⟨trivial, trivial, by decide, by decide, by decide⟩,
    ⟨trivial, trivial, by decide, by decide, by decide⟩, by decide, by decide, by decide⟩).1

end TimeTools
