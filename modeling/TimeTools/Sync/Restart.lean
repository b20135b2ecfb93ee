import TimeTools.Foundation.ClampedWalk
import TimeTools.Sync.ServoPair

/-!
# A daemon started again

The accumulator `observed_drift` is a static of the process: a daemon that is killed and
started again begins at zero, and another daemon begins with its own.  What it held
before is only forgotten by the clamp.

`restart_unnoticed_iff` says after which passes a restart before them makes no
difference.  An accumulator is a sum clamped after each term, so this is when the slews
in some part of the passes add up to the whole width of the clamp.
-/

namespace TimeTools.Sync

open FixedWidth ClampedWalk

/-- What the passes that slew add to the accumulator. -/
def driftTerms (passes : List Pass) : List Int :=
  ((passes.map fun p => p.offset.toInt).filter fun n => n.natAbs ≤ 100000000).map
    fun n => n.tdiv 10

variable {d d' : Int32}

theorem toInt_servo_run_eq_walk (hd : DriftClamped d) (passes : List Pass) :
    (servo.run d passes).toInt = walk (-512000) 512000 d.toInt (driftTerms passes) := by
  rw [toInt_servo_run hd, driftTerms, walk, List.foldl_map]
  rfl

theorem servo_run_clamped (hd : DriftClamped d) (passes : List Pass) :
    DriftClamped (servo.run d passes) :=
  Machine.run_of_invariant (m := servo) (I := DriftClamped) (C := fun _ _ => True)
    (fun _ p h _ _ => servo_step_clamped h p) hd (servo.along_true d passes)
    (servo.along_true d passes)

theorem DriftClamped.bounds (hd : DriftClamped d) : -512000 ≤ d.toInt ∧ d.toInt ≤ 512000 := by
  unfold DriftClamped at hd
  omega

/-- The daemons whose accumulators are farthest apart meet, and with them all others. -/
theorem servo_run_eq_of_ends_eq {passes : List Pass}
    (hends : walk (-512000) 512000 (-512000) (driftTerms passes) =
      walk (-512000) 512000 512000 (driftTerms passes))
    (hd : DriftClamped d) (hd' : DriftClamped d') : servo.run d passes = servo.run d' passes := by
  apply Int32.toInt_inj.mp
  rw [toInt_servo_run_eq_walk hd, toInt_servo_run_eq_walk hd']
  exact walk_eq_of_ends_eq hends hd.bounds.1 hd.bounds.2 hd'.bounds.1 hd'.bounds.2

/-- One slew takes a fresh daemon to either end of the clamp. -/
theorem servo_run_passAt_ends :
    (servo.run servo.init [passAt (-5120000)]).toInt = -512000 ∧
      (servo.run servo.init [passAt 5120000]).toInt = 512000 := by
  decide

/-- After some passes the accumulator is the one that a daemon started just before them
has, whatever came before, exactly if a part of the slews among them adds up to the
width of the clamp. -/
theorem restart_unnoticed_iff (passes : List Pass) :
    (∀ before, servo.run servo.init (before ++ passes) = servo.run servo.init passes) ↔
      ∃ part, part <:+: driftTerms passes ∧ 1024000 ≤ part.sum.natAbs := by
  have hmeet := walk_lo_eq_walk_hi_iff (show (-512000 : Int) ≤ 512000 by decide)
    (driftTerms passes)
  have hwidth : ∀ n : Nat, (512000 : Int) - -512000 ≤ n ↔ 1024000 ≤ n := by omega
  simp only [hwidth] at hmeet
  rw [← hmeet]
  constructor
  · intro hsame
    have hlow := (hsame [passAt (-5120000)]).trans (hsame [passAt 5120000]).symm
    obtain ⟨hbottom, htop⟩ := servo_run_passAt_ends
    have hwalks := congrArg Int32.toInt hlow
    rw [Machine.run_append, Machine.run_append,
      toInt_servo_run_eq_walk (servo_run_clamped servo_init_clamped _), hbottom,
      toInt_servo_run_eq_walk (servo_run_clamped servo_init_clamped _), htop] at hwalks
    exact hwalks
  · intro hends before
    rw [Machine.run_append]
    exact servo_run_eq_of_ends_eq hends (servo_run_clamped servo_init_clamped before)
      servo_init_clamped

end TimeTools.Sync
