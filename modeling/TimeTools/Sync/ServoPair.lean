import TimeTools.Foundation.TwoRuns
import TimeTools.Sync.DriftHistory

/-!
# The servo run twice

Two histories of `update_clock` side by side.  A history and its negation drive the
clock in opposite ways, so the servo has no bias; and of two histories of slews the one
with the larger offsets has the larger outputs, so its response is not inverted
(`servo_unbiased_monotone`).

In integers one call truncates twice and clamps once.  Truncation toward zero is odd,
and both are monotone.
-/

namespace TimeTools.Sync

open FixedWidth

variable {d d' : Int32} {p p' : Pass}

/-- The call that `update_clock` ends in. -/
def call (observedDrift : Int32) (p : Pass) : ClockCall :=
  (updateClock observedDrift (splitOffset p.offset) p.readings).2

/-- The local `adj` of `update_clock` when it returns. -/
def finalAdj (observedDrift : Int32) (p : Pass) : Int32 :=
  if TakesStep (splitOffset p.offset) then 0
  else controllerOutput (servo.step observedDrift p) (splitOffset p.offset)

/-- A step sets the clock, and a slew gives the kernel the local `adj` negated. -/
theorem updateClock_call (d : Int32) (p : Pass) :
    call d p =
      if TakesStep (splitOffset p.offset) then
        .setTime (steppedTime (splitOffset p.offset) p.readings)
      else .adjFreq (-finalAdj d p) := by
  rw [call]
  by_cases hstep : TakesStep (splitOffset p.offset)
  · rw [if_pos hstep, updateClock_of_step hstep]
  · rw [if_neg hstep, finalAdj, if_neg hstep, servo_step, updateClock_of_slew hstep]

theorem call_setTime_iff (d : Int32) (p : Pass) :
    (∃ time, call d p = .setTime time) ↔ TakesStep (splitOffset p.offset) := by
  rw [updateClock_call]
  split <;> simp_all

theorem call_of_slew (d : Int32) (hn : p.offset.toInt.natAbs ≤ 100000000) :
    call d p = .adjFreq (-finalAdj d p) := by
  rw [updateClock_call, if_neg]
  rw [takesStep_splitOffset]
  omega

theorem clamp_neg (n : Int) : clamp (-n) = -clamp n := by
  unfold clamp
  omega

theorem clamp_le_clamp {n k : Int} (h : n ≤ k) : clamp n ≤ clamp k := by
  unfold clamp
  omega

theorem toInt_finalAdj_of_slew (hd : DriftClamped d) (hn : p.offset.toInt.natAbs ≤ 100000000) :
    (finalAdj d p).toInt = p.offset.toInt.tdiv 2 + clamp (d.toInt + p.offset.toInt.tdiv 10) := by
  have hslew : ¬ TakesStep (splitOffset p.offset) := by
    rw [takesStep_splitOffset]
    omega
  have hsplit := splitOffset_tvNsec_of_slew hslew
  rw [finalAdj, if_neg hslew, toInt_controllerOutput (servo_step_clamped hd p) (by rwa [hsplit]),
    hsplit, toInt_servo_step_of_slew hd hn]

/-! ## A history and its negation -/

/-- The offset of `p'` is that of `p` negated, which the least word is not. -/
def OppositeOffsets (p p' : Pass) : Prop :=
  p.offset ≠ Int64.minValue ∧ p'.offset = -p.offset

/-- Two calls that do the opposite of each other: both set the clock or neither does, and
`-adj` goes to the kernel with opposite values of `adj`. -/
structure Opposite (d d' : Int32) (p p' : Pass) : Prop where
  branch : (∃ time, call d' p' = .setTime time) ↔ ∃ time, call d p = .setTime time
  drift : (servo.step d' p').toInt = -(servo.step d p).toInt
  adj : ∀ adj, call d p = .adjFreq (-adj) →
    ∃ adj', call d' p' = .adjFreq (-adj') ∧ adj'.toInt = -adj.toInt

theorem OppositeOffsets.toInt (h : OppositeOffsets p p') :
    p'.offset.toInt = -p.offset.toInt := by
  obtain ⟨hmin, heq⟩ := h
  have hlo := p.offset.le_toInt
  have hhi := p.offset.toInt_lt
  have hne : p.offset.toInt ≠ -2 ^ 63 := fun h => hmin (Int64.toInt_inj.mp h)
  rw [heq, Int64.toInt_neg, bmod64_eq_of_fits ⟨by omega, by omega⟩]

theorem opposite_call (hd : DriftClamped d) (hopp : d'.toInt = -d.toInt)
    (h : OppositeOffsets p p') : Opposite d d' p p' := by
  have hd' : DriftClamped d' := by
    unfold DriftClamped at hd ⊢
    omega
  have hn := h.toInt
  have hsame : p'.offset.toInt.natAbs = p.offset.toInt.natAbs := by omega
  refine ⟨?_, ?_, fun adj hadj => ?_⟩
  · rw [call_setTime_iff, call_setTime_iff, takesStep_splitOffset, takesStep_splitOffset, hsame]
  · by_cases hstep : 100000000 < p.offset.toInt.natAbs
    · rw [servo_step_of_step hstep, servo_step_of_step (by rwa [hsame]), hopp]
    · have hslew : p.offset.toInt.natAbs ≤ 100000000 := by omega
      rw [toInt_servo_step_of_slew hd hslew, toInt_servo_step_of_slew hd' (by rwa [hsame]), hn,
        hopp, Int.neg_tdiv, ← Int.neg_add, clamp_neg]
  · have hslew : p.offset.toInt.natAbs ≤ 100000000 := by
      by_contra hfar
      obtain ⟨time, htime⟩ := (call_setTime_iff d p).mpr
        ((takesStep_splitOffset p.offset).mpr (by omega))
      cases htime.symm.trans hadj
    rw [call_of_slew d hslew] at hadj
    have hout : finalAdj d p = adj := Int32.neg_inj.mp (ClockCall.adjFreq.inj hadj)
    refine ⟨_, call_of_slew d' (by rwa [hsame]), ?_⟩
    rw [← hout, toInt_finalAdj_of_slew hd hslew, toInt_finalAdj_of_slew hd' (by rwa [hsame]), hn,
      hopp, Int.neg_tdiv, Int.neg_tdiv, ← Int.neg_add, clamp_neg, ← Int.neg_add]

/-! ## Two histories of slews -/

/-- Both offsets are in the slew range, and the first is at most the second. -/
def SlewOffsetsLe (p p' : Pass) : Prop :=
  p.offset.toInt.natAbs ≤ 100000000 ∧ p'.offset.toInt.natAbs ≤ 100000000 ∧
    p.offset.toInt ≤ p'.offset.toInt

/-- Both calls give `-adj` to the kernel, the first with no larger `adj`. -/
structure OutputsLe (d d' : Int32) (p p' : Pass) : Prop where
  drift : (servo.step d p).toInt ≤ (servo.step d' p').toInt
  adj : ∃ adj adj', call d p = .adjFreq (-adj) ∧ call d' p' = .adjFreq (-adj') ∧
    adj.toInt ≤ adj'.toInt

theorem outputsLe_call (hd : DriftClamped d) (hd' : DriftClamped d') (hle : d.toInt ≤ d'.toInt)
    (h : SlewOffsetsLe p p') : OutputsLe d d' p p' := by
  obtain ⟨hn, hn', hoffset⟩ := h
  have htenth := Int.tdiv_le_tdiv (show (0 : Int) < 10 by decide) hoffset
  have hhalf := Int.tdiv_le_tdiv (show (0 : Int) < 2 by decide) hoffset
  have hclamp := clamp_le_clamp (Int.add_le_add hle htenth)
  constructor
  · rw [toInt_servo_step_of_slew hd hn, toInt_servo_step_of_slew hd' hn']
    exact hclamp
  · refine ⟨_, _, call_of_slew d hn, call_of_slew d' hn', ?_⟩
    rw [toInt_finalAdj_of_slew hd hn, toInt_finalAdj_of_slew hd' hn']
    exact Int.add_le_add hhalf hclamp

/-- From the initial static state, a history and its negation give opposite calls, and of
two histories of slews the one with the larger offsets gives the larger outputs. -/
theorem servo_unbiased_monotone (passes passes' : List Pass) :
    (List.Forall₂ OppositeOffsets passes passes' →
      Machine.AlongBoth servo servo Opposite servo.init servo.init passes passes') ∧
    (List.Forall₂ SlewOffsetsLe passes passes' →
      Machine.AlongBoth servo servo OutputsLe servo.init servo.init passes passes') := by
  constructor
  · refine Machine.alongBoth_of_relation
      (R := fun d d' => DriftClamped d ∧ d'.toInt = -d.toInt) ?_ ?_ ⟨servo_init_clamped, rfl⟩
    · intro d d' p p' hR h
      exact ⟨servo_step_clamped hR.1 p, (opposite_call hR.1 hR.2 h).drift⟩
    · intro d d' p p' hR h
      exact opposite_call hR.1 hR.2 h
  · refine Machine.alongBoth_of_relation
      (R := fun d d' => DriftClamped d ∧ DriftClamped d' ∧ d.toInt ≤ d'.toInt) ?_ ?_
      ⟨servo_init_clamped, servo_init_clamped, Int.le_refl _⟩
    · intro d d' p p' hR h
      obtain ⟨hd, hd', hle⟩ := hR
      exact ⟨servo_step_clamped hd p, servo_step_clamped hd' p',
        (outputsLe_call hd hd' hle h).drift⟩
    · intro d d' p p' hR h
      exact outputsLe_call hR.1 hR.2.1 hR.2.2 h

/-- A pass at which the clock reads zero throughout. -/
def passAt (offset : Int64) : Pass where
  offset := offset
  readings := ⟨⟨0, 0⟩, ⟨0, 0⟩, ⟨0, 0⟩⟩

/-- A slew, a step and a slew, and their negations; and two histories of slews. -/
theorem servo_opposite_slew_step_slew :
    Machine.AlongBoth servo servo Opposite servo.init servo.init
        [passAt 35, passAt 2000000000, passAt (-80000000)]
        [passAt (-35), passAt (-2000000000), passAt 80000000] ∧
      Machine.AlongBoth servo servo OutputsLe servo.init servo.init
        [passAt (-35), passAt 19] [passAt 19, passAt 80000000] :=
  ⟨(servo_unbiased_monotone _ _).1
      (.cons ⟨by decide, rfl⟩ (.cons ⟨by decide, rfl⟩ (.cons ⟨by decide, rfl⟩ .nil))),
    (servo_unbiased_monotone _ _).2
      (.cons ⟨by decide, by decide, by decide⟩ (.cons ⟨by decide, by decide, by decide⟩ .nil))⟩

end TimeTools.Sync
