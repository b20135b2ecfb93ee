import TimeTools.Sync.Servo

/-!
# The accumulator over whole runs

`observed_drift` is the only state of the servo.  A call that steps the clock leaves
it alone and a call that slews adds a tenth of the offset and clamps, so after any
history it is the fold of that clamp over the offsets within 100 ms
(`driftHistory`).
-/

namespace TimeTools.Sync

open FixedWidth

/-- What one call does to the accumulator and to the clock, in integers. -/
structure CallExact (d : Int32) (p : Pass) : Prop where
  one_call : Xor (∃ time, (updateClock d (splitOffset p.offset) p.readings).2 = .setTime time)
    (∃ adj, (updateClock d (splitOffset p.offset) p.readings).2 = .adjFreq adj)
  clamped : DriftClamped (servo.step d p)
  steps : 100000000 < p.offset.toInt.natAbs →
    (∃ time, (updateClock d (splitOffset p.offset) p.readings).2 = .setTime time) ∧
      servo.step d p = d
  slews : p.offset.toInt.natAbs ≤ 100000000 →
    (splitOffset p.offset).tvNsec.toInt = p.offset.toInt ∧
    (d.toInt64 + (splitOffset p.offset).tvNsec / ai.toInt64).toInt =
      d.toInt + p.offset.toInt.tdiv 10 ∧
    FitsInt32 (d.toInt + p.offset.toInt.tdiv 10) ∧
    (servo.step d p).toInt = clamp (d.toInt + p.offset.toInt.tdiv 10) ∧
    ∃ adj : Int32, (updateClock d (splitOffset p.offset) p.readings).2 = .adjFreq (-adj) ∧
      adj.toInt = p.offset.toInt.tdiv 2 + (servo.step d p).toInt ∧ adj.toInt.natAbs ≤ 50512000

/-- The clamped sum of the tenths of the offsets that slew. -/
def driftHistory (offsets : List Int) : Int :=
  (offsets.filter fun n => n.natAbs ≤ 100000000).foldl (fun drift n => clamp (drift + n.tdiv 10)) 0

variable {d : Int32} {p : Pass}

theorem updateClock_of_step (h : TakesStep (splitOffset p.offset)) :
    updateClock d (splitOffset p.offset) p.readings =
      (d, .setTime (steppedTime (splitOffset p.offset) p.readings)) := by
  rw [updateClock, if_pos h]

theorem updateClock_of_slew (h : ¬ TakesStep (splitOffset p.offset)) :
    updateClock d (splitOffset p.offset) p.readings =
      (nextDrift d (splitOffset p.offset), .adjFreq
        (-controllerOutput (nextDrift d (splitOffset p.offset)) (splitOffset p.offset))) := by
  rw [updateClock, if_neg h]

theorem toInt_servo_step_of_slew (hd : DriftClamped d) (hn : p.offset.toInt.natAbs ≤ 100000000) :
    (servo.step d p).toInt = clamp (d.toInt + p.offset.toInt.tdiv 10) := by
  have hslew : ¬ TakesStep (splitOffset p.offset) := by
    rw [takesStep_splitOffset]
    omega
  have hsplit := splitOffset_tvNsec_of_slew hslew
  rw [servo_step, updateClock_of_slew hslew, toInt_nextDrift hd (by rw [hsplit]; exact hn), hsplit]

theorem servo_step_of_step (hn : 100000000 < p.offset.toInt.natAbs) : servo.step d p = d := by
  rw [servo_step, updateClock_of_step ((takesStep_splitOffset p.offset).mpr hn)]

theorem callExact (hd : DriftClamped d) (p : Pass) : CallExact d p := by
  by_cases hstep : TakesStep (splitOffset p.offset)
  · have hbeyond := (takesStep_splitOffset p.offset).mp hstep
    refine ⟨?_, servo_step_clamped hd p, fun hn => ⟨?_, servo_step_of_step hn⟩, fun hn => by omega⟩
    · rw [updateClock_of_step hstep]
      exact .inl ⟨⟨_, rfl⟩, fun ⟨_, h⟩ => by cases h⟩
    · rw [updateClock_of_step hstep]
      exact ⟨_, rfl⟩
  · have hwithin : ¬ 100000000 < p.offset.toInt.natAbs :=
      mt (takesStep_splitOffset p.offset).mpr hstep
    refine ⟨?_, servo_step_clamped hd p, fun hn => absurd hn hwithin, fun hn => ?_⟩
    · rw [updateClock_of_slew hstep]
      exact .inr ⟨⟨_, rfl⟩, fun ⟨_, h⟩ => by cases h⟩
    · have hsplit := splitOffset_tvNsec_of_slew hstep
      have hrange : (splitOffset p.offset).tvNsec.toInt.natAbs ≤ 100000000 := by rwa [hsplit]
      obtain ⟨hsum, hfits⟩ := toInt_driftSum hd hrange
      have hnext := nextDrift_clamped d (splitOffset p.offset)
      have hout := toInt_controllerOutput hnext hrange
      rw [hsplit] at hsum hfits hout
      refine ⟨hsplit, hsum, hfits, toInt_servo_step_of_slew hd hn,
        controllerOutput (nextDrift d (splitOffset p.offset)) (splitOffset p.offset), ?_, ?_, ?_⟩
      · rw [updateClock_of_slew hstep]
      · rw [hout, servo_step, updateClock_of_slew hstep]
      · have hhalf := tdiv_eq_ite p.offset.toInt 2
        unfold DriftClamped at hnext
        omega

theorem toInt_servo_run (hd : DriftClamped d) (passes : List Pass) :
    (servo.run d passes).toInt =
      ((passes.map fun p => p.offset.toInt).filter fun n => n.natAbs ≤ 100000000).foldl
        (fun drift n => clamp (drift + n.tdiv 10)) d.toInt := by
  induction passes generalizing d with
  | nil => rfl
  | cons p passes ih =>
    rw [Machine.run_cons, ih (servo_step_clamped hd p), List.map_cons, List.filter_cons]
    by_cases hn : p.offset.toInt.natAbs ≤ 100000000
    · rw [if_pos (decide_eq_true hn), List.foldl_cons, toInt_servo_step_of_slew hd hn]
    · rw [if_neg (by simpa using hn), servo_step_of_step (by omega)]

/-- Over any run from the initial static state every call is exact, the accumulator
stays within its clamp, and it ends as the fold of the clamp over the offsets that
slewed. -/
theorem servo_history (passes : List Pass) :
    servo.Along CallExact servo.init passes ∧
      servo.Throughout DriftClamped servo.init passes ∧
      (servo.run servo.init passes).toInt = driftHistory (passes.map fun p => p.offset.toInt) := by
  have hadm : servo.Admits servo.init passes := servo.along_true servo.init passes
  have hstep : ∀ d p, DriftClamped d → servo.enabled d p → DriftClamped (servo.step d p) :=
    fun _ p hd _ => servo_step_clamped hd p
  refine ⟨?_, ?_, ?_⟩
  · exact Machine.along_of_invariant hstep (fun _ p hd _ => callExact hd p) servo_init_clamped hadm
  · exact Machine.throughout_of_invariant (C := fun _ _ => True)
      (fun d p hd hen _ => hstep d p hd hen) servo_init_clamped hadm (servo.along_true _ _)
  · exact toInt_servo_run servo_init_clamped passes

end TimeTools.Sync
