import Mathlib.Analysis.Complex.Basic
import Mathlib.Tactic.LinearCombination
import TimeTools.Foundation.Run

/-!
# A sampled PI loop

An error `x` that moves by `h` times a rate in each period, and a controller that takes
`kp * x` and the sum of all `ki * x` so far off that rate.  What the sum is short of the
rate is `e`, so a period takes `e` to `e - ki * x` and `x` to `x + h * (e - ki * x - kp * x)`.

A root `z` of `h * z ^ 2 + h * (kp + ki) * z + ki` makes one coordinate of the two, `z * x + e`,
which each period multiplies by `1 + h * z` (`mode_step`), and what disturbs the period is
added.  A loop that oscillates has two conjugate roots, and their coordinate shrinks by
`sqrt (1 - h * kp)`: what is left in the end is what the disturbances of `2 / (h * kp)` periods
can make of it (`Machine.run_le_of_contraction`).  Beyond `h * (2 * kp + ki) = 4` there is a real
root whose coordinate changes sign and grows (`Machine.le_run_of_expansion`).
-/

namespace Machine

variable {σ ε : Type} {m : Machine σ ε} {I : σ → Prop} {C D : σ → ε → Prop} {V : σ → ℝ}
  {c noise bound : ℝ}

/-- A quantity that each clean step takes a part `c` off, but for some noise, as long as it
is within a bound. -/
theorem run_le_of_contraction (hc : 0 < c) (hc1 : c ≤ 1)
    (hstep : ∀ s e, I s → V s ≤ bound → m.enabled s e → D s e →
      C s e ∧ I (m.step s e) ∧ V (m.step s e) ≤ (1 - c) * V s + noise)
    {s : σ} {es : List ε} (hadm : m.Admits s es) (hclean : m.Along D s es) (hs : I s) {a : ℝ}
    (ha : 0 ≤ a) (hbound : a + noise / c ≤ bound) (hV : V s ≤ a + noise / c) :
    m.Along C s es ∧ V (m.run s es) ≤ (1 - c) ^ es.length * a + noise / c := by
  induction es generalizing s a with
  | nil => exact ⟨trivial, by simpa using hV⟩
  | cons e es ih =>
    obtain ⟨hC, hI, hle⟩ := hstep s e hs (hV.trans hbound) hadm.1 hclean.1
    have hkeep : 0 ≤ 1 - c := sub_nonneg.mpr hc1
    have hnoise : (1 - c) * (noise / c) + noise = noise / c := by
      field_simp
      ring
    have hnext : V (m.step s e) ≤ (1 - c) * a + noise / c :=
      calc V (m.step s e) ≤ (1 - c) * V s + noise := hle
        _ ≤ (1 - c) * (a + noise / c) + noise := by gcongr
        _ = (1 - c) * a + noise / c := by rw [mul_add, add_assoc, hnoise]
    have hless : (1 - c) * a ≤ a := mul_le_of_le_one_left ha (by linarith)
    obtain ⟨hrest, hend⟩ := ih hadm.2 hclean.2 hI (mul_nonneg hkeep ha) (by linarith) hnext
    refine ⟨⟨hC, hrest⟩, ?_⟩
    rw [List.length_cons, pow_succ, mul_assoc]
    exact hend

end Machine

/-- The gains of a loop, and what a unit of the rate makes in a period. -/
structure PiLoop where
  kp : ℝ
  ki : ℝ
  h : ℝ
  kp_pos : 0 < kp
  ki_pos : 0 < ki
  h_pos : 0 < h

namespace PiLoop

variable (p : PiLoop)

def IsRoot (z : ℂ) : Prop := p.h * z ^ 2 + p.h * (p.kp + p.ki) * z + p.ki = 0

/-- The coordinate of an error and a shortfall. -/
noncomputable def mode (z : ℂ) (x e : ℝ) : ℂ := z * x + e

/-- What a period multiplies the coordinate by. -/
noncomputable def factor (z : ℂ) : ℂ := 1 + p.h * z

section Step

variable {p} {z : ℂ} {x x' e e' dx de : ℝ}

theorem mode_step (hz : p.IsRoot z) (x e n m : ℝ) :
    mode z (x + p.h * (e - p.ki * x - p.kp * x) + n) (e - p.ki * x + m) =
      p.factor z * mode z x e + (z * n + m) := by
  rw [IsRoot] at hz
  simp only [mode, factor]
  push_cast
  linear_combination (-x : ℂ) * hz

/-- A period, but for a disturbance of the error and one of the shortfall. -/
theorem norm_mode_step (hz : p.IsRoot z)
    (hx : |x' - (x + p.h * (e - p.ki * x - p.kp * x))| ≤ dx) (he : |e' - (e - p.ki * x)| ≤ de) :
    ‖mode z x' e' - p.factor z * mode z x e‖ ≤ ‖z‖ * dx + de := by
  have hstep := mode_step hz x e (x' - (x + p.h * (e - p.ki * x - p.kp * x)))
    (e' - (e - p.ki * x))
  rw [add_sub_cancel, add_sub_cancel] at hstep
  rw [hstep, add_sub_cancel_left]
  refine (norm_add_le _ _).trans (add_le_add ?_ ?_)
  · rw [norm_mul, Complex.norm_real]
    exact mul_le_mul_of_nonneg_left hx (norm_nonneg _)
  · rw [Complex.norm_real]
    exact he

theorem norm_mode_step_le (hz : p.IsRoot z)
    (hx : |x' - (x + p.h * (e - p.ki * x - p.kp * x))| ≤ dx) (he : |e' - (e - p.ki * x)| ≤ de) :
    ‖mode z x' e'‖ ≤ ‖p.factor z‖ * ‖mode z x e‖ + (‖z‖ * dx + de) := by
  have hnear := norm_mode_step hz hx he
  have htri := norm_sub_norm_le (mode z x' e') (p.factor z * mode z x e)
  rw [norm_mul] at htri
  linarith

theorem norm_mode_le (z : ℂ) (x e : ℝ) : ‖mode z x e‖ ≤ ‖z‖ * |x| + |e| := by
  refine (norm_add_le _ _).trans (add_le_add ?_ ?_)
  · rw [norm_mul, Complex.norm_real, Real.norm_eq_abs]
  · rw [Complex.norm_real, Real.norm_eq_abs]

end Step

/-! ## A loop that oscillates -/

def Oscillates : Prop := p.h * (p.kp + p.ki) ^ 2 < 4 * p.ki

noncomputable def modulus : ℝ := √(p.ki / p.h)

noncomputable def swing : ℝ := √(p.ki / p.h - (p.kp + p.ki) ^ 2 / 4)

/-- The root, by its parts. -/
noncomputable def root : ℂ := ⟨-(p.kp + p.ki) / 2, p.swing⟩

/-- The part of the coordinate that a period takes off, at the least. -/
noncomputable def part : ℝ := p.h * p.kp / 2

theorem modulus_pos : 0 < p.modulus := Real.sqrt_pos.mpr (div_pos p.ki_pos p.h_pos)

theorem part_pos : 0 < p.part := half_pos (mul_pos p.h_pos p.kp_pos)

theorem sq_norm_mode (x e : ℝ) :
    ‖mode p.root x e‖ ^ 2 = (e - (p.kp + p.ki) / 2 * x) ^ 2 + (p.swing * x) ^ 2 := by
  rw [Complex.sq_norm, Complex.normSq_apply]
  simp only [mode, root, Complex.add_re, Complex.add_im, Complex.mul_re, Complex.mul_im,
    Complex.ofReal_re, Complex.ofReal_im]
  ring

namespace Oscillates

variable {p} (hp : p.Oscillates)

include hp

theorem radicand_pos : 0 < p.ki / p.h - (p.kp + p.ki) ^ 2 / 4 := by
  rw [Oscillates] at hp
  rw [sub_pos, div_lt_div_iff₀ (by norm_num) p.h_pos]
  linarith

theorem sq_swing : p.swing ^ 2 = p.ki / p.h - (p.kp + p.ki) ^ 2 / 4 :=
  Real.sq_sqrt hp.radicand_pos.le

theorem h_mul_sq_swing : p.h * p.swing ^ 2 = p.ki - p.h * (p.kp + p.ki) ^ 2 / 4 := by
  have hh := p.h_pos.ne'
  rw [hp.sq_swing]
  field_simp

theorem swing_pos : 0 < p.swing := Real.sqrt_pos.mpr hp.radicand_pos

theorem sq_modulus : p.modulus ^ 2 = p.swing ^ 2 + (p.kp + p.ki) ^ 2 / 4 := by
  rw [modulus, Real.sq_sqrt (div_nonneg p.ki_pos.le p.h_pos.le), hp.sq_swing]
  ring

theorem gains_le_modulus : (p.kp + p.ki) / 2 ≤ p.modulus := by
  have hsq := hp.sq_modulus
  refine (abs_le_of_sq_le_sq' ?_ p.modulus_pos.le).2
  linarith [sq_nonneg p.swing]

theorem norm_root : ‖p.root‖ = p.modulus := by
  have hsq : ‖p.root‖ ^ 2 = p.modulus ^ 2 := by
    rw [Complex.sq_norm, Complex.normSq_apply, hp.sq_modulus, root]
    ring
  exact (sq_eq_sq₀ (norm_nonneg _) p.modulus_pos.le).mp hsq

theorem isRoot : p.IsRoot p.root := by
  have hsq := hp.h_mul_sq_swing
  apply Complex.ext
  · simp [root, pow_two, Complex.add_re, Complex.mul_re]
    nlinarith
  · simp [root, pow_two, Complex.add_im, Complex.mul_im]
    ring

theorem sq_norm_factor : ‖p.factor p.root‖ ^ 2 = 1 - p.h * p.kp := by
  have hsq := hp.h_mul_sq_swing
  rw [Complex.sq_norm, Complex.normSq_apply]
  simp only [factor, root, Complex.add_re, Complex.add_im, Complex.mul_re, Complex.mul_im,
    Complex.ofReal_re, Complex.ofReal_im, Complex.one_re, Complex.one_im]
  linear_combination p.h * hsq

theorem norm_factor_le : ‖p.factor p.root‖ ≤ 1 - p.part := by
  have hsq := hp.sq_norm_factor
  have hle : p.h * p.kp ≤ 1 := by linarith [sq_nonneg ‖p.factor p.root‖]
  rw [part]
  refine (abs_le_of_sq_le_sq' ?_ (by linarith)).2
  rw [hsq]
  linarith [sq_nonneg (p.h * p.kp / 2)]

theorem part_le_one : p.part ≤ 1 := by
  linarith [hp.norm_factor_le, norm_nonneg (p.factor p.root)]

theorem norm_mode_step_le {x x' e e' dx de : ℝ}
    (hx : |x' - (x + p.h * (e - p.ki * x - p.kp * x))| ≤ dx) (he : |e' - (e - p.ki * x)| ≤ de) :
    ‖mode p.root x' e'‖ ≤ (1 - p.part) * ‖mode p.root x e‖ + (p.modulus * dx + de) := by
  have hstep := PiLoop.norm_mode_step_le hp.isRoot hx he
  rw [hp.norm_root] at hstep
  exact hstep.trans (add_le_add_left
    (mul_le_mul_of_nonneg_right hp.norm_factor_le (norm_nonneg _)) _)

theorem abs_error_mul_le (x e : ℝ) : |x| * p.swing ≤ ‖mode p.root x e‖ := by
  have hsq := p.sq_norm_mode x e
  rw [← abs_of_pos hp.swing_pos, ← abs_mul]
  refine abs_le_of_sq_le_sq ?_ (norm_nonneg _)
  rw [hsq]
  linarith [sq_nonneg (e - (p.kp + p.ki) / 2 * x)]

theorem abs_sub_mul_le {k : ℝ} (hk : 0 ≤ k) (hk' : k ≤ p.kp + p.ki) (x e : ℝ) :
    |e - k * x| * p.swing ≤ p.modulus * ‖mode p.root x e‖ := by
  have hpos : 0 ≤ p.modulus * ‖mode p.root x e‖ := mul_nonneg p.modulus_pos.le (norm_nonneg _)
  rw [← abs_of_pos hp.swing_pos, ← abs_mul]
  refine abs_le_of_sq_le_sq ?_ hpos
  have htilt : ((p.kp + p.ki) / 2 - k) ^ 2 ≤ (p.kp + p.ki) ^ 2 / 4 := by nlinarith
  -- Cauchy's inequality for `(swing, tilt)` and the two parts of the mode
  have hcauchy : ((e - k * x) * p.swing) ^ 2 ≤
      (p.swing ^ 2 + ((p.kp + p.ki) / 2 - k) ^ 2) * ‖mode p.root x e‖ ^ 2 := by
    rw [sq_norm_mode]
    linarith [sq_nonneg (p.swing * (p.swing * x) -
      ((p.kp + p.ki) / 2 - k) * (e - (p.kp + p.ki) / 2 * x))]
  rw [mul_pow p.modulus, hp.sq_modulus]
  exact hcauchy.trans (mul_le_mul_of_nonneg_right (by linarith) (sq_nonneg _))

end Oscillates

/-! ## A loop that diverges -/

def Diverges : Prop := 4 < p.h * (2 * p.kp + p.ki)

noncomputable def discriminant : ℝ := (p.h * (p.kp + p.ki)) ^ 2 - 4 * p.h * p.ki

/-- The real root of larger modulus. -/
noncomputable def steep : ℝ := -(p.h * (p.kp + p.ki) + √p.discriminant) / (2 * p.h)

namespace Diverges

variable {p} (hp : p.Diverges)

include hp

/-- The quadratic is negative at `-2 / h`. -/
theorem lt_discriminant : (4 - p.h * (p.kp + p.ki)) ^ 2 < p.discriminant := by
  rw [Diverges] at hp
  rw [discriminant]
  nlinarith [p.h_pos, p.kp_pos, p.ki_pos]

theorem isRoot : p.IsRoot p.steep := by
  have hh := p.h_pos.ne'
  have hsq : √p.discriminant ^ 2 = p.discriminant :=
    Real.sq_sqrt ((sq_nonneg _).trans hp.lt_discriminant.le)
  have hreal : p.h * p.steep ^ 2 + p.h * (p.kp + p.ki) * p.steep + p.ki = 0 := by
    rw [steep]
    field_simp
    rw [discriminant] at hsq ⊢
    linear_combination hsq
  rw [IsRoot]
  exact_mod_cast hreal

end Diverges

end PiLoop
