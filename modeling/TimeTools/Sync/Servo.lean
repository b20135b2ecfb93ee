import TimeTools.Foundation.Run
import TimeTools.Timespec

/-!
# The clock servo

`update_clock` of `host_sync`, `guest_sync` and `time_sync`, whose three copies
are the same code.  An offset of more than 100 ms steps the clock; any other goes
through a PI controller whose accumulator, the static `observed_drift`, persists
between calls.

The integer widths are those of the source: the controller divides `long`
nanoseconds, stores `int` sums, and scales an `int` product into `t.freq`.
-/

namespace TimeTools.Sync

open FixedWidth SignedSplit

def ap : Int32 := 2

def ai : Int32 := 10

def adjFreqMax : Int32 := 512000

def threshold : Int32 := 100000000

def freqScale : Int32 := ((1 : Int32) <<< (16 : Int32)) / 1000

@[simp] theorem toInt_freqScale : freqScale.toInt = 65 := by decide

/-- The results of the three `get_time` calls of a step, in call order. -/
structure Readings where
  timeTmpA : Timespec
  timeTmpB : Timespec
  timeTmpD : Timespec
  deriving DecidableEq, Repr

/-- The one call that an `update_clock` ends in, with its argument. -/
inductive ClockCall
  | setTime (time : Timespec)
  | adjFreq (adj : Int32)
  deriving DecidableEq, Repr

def cAbs (x : Int32) : Int32 := if x < 0 then -x else x

def TakesStep (offset : Timespec) : Prop :=
  offset.tvSec ≠ 0 ∨ threshold < cAbs offset.tvNsec.toInt32

instance (offset : Timespec) : Decidable (TakesStep offset) :=
  inferInstanceAs (Decidable (_ ∨ _))

def steppedTime (offset : Timespec) (r : Readings) : Timespec :=
  let timeTmpC := subTime r.timeTmpB r.timeTmpA
  let timeTmpE := subTime r.timeTmpD offset
  addTime timeTmpE timeTmpC

def clampDrift (observedDrift : Int32) : Int32 :=
  if adjFreqMax < observedDrift then adjFreqMax
  else if observedDrift < -adjFreqMax then -adjFreqMax
  else observedDrift

def nextDrift (observedDrift : Int32) (offset : Timespec) : Int32 :=
  clampDrift (observedDrift.toInt64 + offset.tvNsec / ai.toInt64).toInt32

def controllerOutput (observedDrift : Int32) (offset : Timespec) : Int32 :=
  (offset.tvNsec / ap.toInt64 + observedDrift.toInt64).toInt32

/-- `update_clock`: the new `observed_drift` and the call made. -/
def updateClock (observedDrift : Int32) (offset : Timespec) (r : Readings) : Int32 × ClockCall :=
  if TakesStep offset then (observedDrift, .setTime (steppedTime offset r))
  else
    let observedDrift := nextDrift observedDrift offset
    let adj := controllerOutput observedDrift offset
    (observedDrift, .adjFreq (-adj))

theorem updateClock_setTime_iff {observedDrift : Int32} {offset : Timespec} {r : Readings}
    {time : Timespec} :
    (updateClock observedDrift offset r).2 = .setTime time ↔
      TakesStep offset ∧ time = steppedTime offset r := by
  unfold updateClock
  split <;> simp_all [eq_comm]

/-- `t.freq` in `adj_freq`: the product is an `int`, the field a `long`. -/
def adjFreq (adj : Int32) : Int64 := (adj * freqScale).toInt64

def splitOffset (offset : Int64) : Timespec :=
  { tvSec := offset / nsec, tvNsec := offset % nsec }

/-! ## The split and the branch -/

theorem splitOffset_tvSec (offset : Int64) :
    (splitOffset offset).tvSec.toInt = offset.toInt.tdiv 1000000000 := toInt_div_nsec offset

theorem splitOffset_tvNsec (offset : Int64) :
    (splitOffset offset).tvNsec.toInt = offset.toInt.tmod 1000000000 := toInt_mod_nsec offset

theorem splitOffset_total (offset : Int64) : (splitOffset offset).total = offset.toInt := by
  rw [Timespec.total, splitOffset_tvSec, splitOffset_tvNsec, total_tdiv_tmod]

theorem splitOffset_canonical (offset : Int64) : (splitOffset offset).Canonical := by
  rw [Timespec.Canonical, splitOffset_tvSec, splitOffset_tvNsec]
  exact isSplit_tdiv_tmod (by omega) offset.toInt

theorem toInt_cAbs {x : Int32} (h : -2 ^ 31 < x.toInt) : (cAbs x).toInt = x.toInt.natAbs := by
  have hx := fitsInt32_toInt x
  unfold FitsInt32 at hx
  simp only [cAbs, Int32.lt_iff_toInt_lt, Int32.toInt_zero]
  split
  · rw [toInt_neg32_of_fits ⟨by omega, by omega⟩]
    omega
  · omega

theorem takesStep_splitOffset (offset : Int64) :
    TakesStep (splitOffset offset) ↔ 100000000 < offset.toInt.natAbs := by
  have htotal := splitOffset_total offset
  rw [Timespec.total_def] at htotal
  obtain ⟨hlo, hhi, hpos, hneg⟩ := splitOffset_canonical offset
  have h32 := toInt32_of_fits (a := (splitOffset offset).tvNsec) ⟨by omega, by omega⟩
  have hth : threshold.toInt = 100000000 := by decide
  rw [TakesStep, Int32.lt_iff_toInt_lt, hth, toInt_cAbs (by omega), h32, ne_eq,
    ← Int64.toInt_inj, Int64.toInt_zero]
  omega

theorem splitOffset_tvNsec_of_slew {offset : Int64} (h : ¬ TakesStep (splitOffset offset)) :
    (splitOffset offset).tvNsec.toInt = offset.toInt := by
  rw [takesStep_splitOffset] at h
  have htotal := splitOffset_total offset
  rw [Timespec.total_def] at htotal
  obtain ⟨hlo, hhi, hpos, hneg⟩ := splitOffset_canonical offset
  omega

/-! ## The controller in integers -/

def DriftClamped (observedDrift : Int32) : Prop := observedDrift.toInt.natAbs ≤ 512000

def clamp (n : Int) : Int := max (-512000) (min 512000 n)

theorem toInt_clampDrift (d : Int32) : (clampDrift d).toInt = clamp d.toInt := by
  have hmax : adjFreqMax.toInt = 512000 := by decide
  have hmin : (-adjFreqMax).toInt = -512000 := by decide
  simp only [clampDrift, clamp, Int32.lt_iff_toInt_lt, hmax, hmin]
  split
  · omega
  · split
    · omega
    · omega

theorem toInt_div_ten (a : Int64) : (a / ai.toInt64).toInt = a.toInt.tdiv 10 :=
  toInt_div_of_ne (by decide)

theorem toInt_div_two (a : Int64) : (a / ap.toInt64).toInt = a.toInt.tdiv 2 :=
  toInt_div_of_ne (by decide)

theorem tdiv_eq_ite (n k : Int) : n.tdiv k = if 0 ≤ n then n / k else -(-n / k) := by
  split
  · exact Int.tdiv_eq_ediv_of_nonneg (by assumption)
  · rw [← Int.tdiv_eq_ediv_of_nonneg (by omega), Int.neg_tdiv, Int.neg_neg]

variable {d : Int32} {offset : Timespec}

theorem toInt_driftSum (hd : DriftClamped d) (hn : offset.tvNsec.toInt.natAbs ≤ 100000000) :
    (d.toInt64 + offset.tvNsec / ai.toInt64).toInt = d.toInt + offset.tvNsec.toInt.tdiv 10 ∧
      FitsInt32 (d.toInt + offset.tvNsec.toInt.tdiv 10) := by
  unfold DriftClamped at hd
  have hq := tdiv_eq_ite offset.tvNsec.toInt 10
  constructor
  · rw [toInt_add_of_fits] <;> rw [toInt_div_ten, Int32.toInt_toInt64]
    constructor <;> omega
  · constructor <;> omega

/-- Neither the sum under the clamp nor its parts leave the word in the slew
range, so the accumulator is the clamp of the true sum. -/
theorem toInt_nextDrift (hd : DriftClamped d) (hn : offset.tvNsec.toInt.natAbs ≤ 100000000) :
    (nextDrift d offset).toInt = clamp (d.toInt + offset.tvNsec.toInt.tdiv 10) := by
  obtain ⟨hsum, hfits⟩ := toInt_driftSum hd hn
  rw [nextDrift, toInt_clampDrift, toInt32_of_fits, hsum]
  rwa [hsum]

theorem nextDrift_clamped (d : Int32) (offset : Timespec) : DriftClamped (nextDrift d offset) := by
  rw [DriftClamped, nextDrift, toInt_clampDrift, clamp]
  omega

theorem toInt_controllerOutput (hd : DriftClamped d)
    (hn : offset.tvNsec.toInt.natAbs ≤ 100000000) :
    (controllerOutput d offset).toInt = offset.tvNsec.toInt.tdiv 2 + d.toInt := by
  unfold DriftClamped at hd
  have hq := tdiv_eq_ite offset.tvNsec.toInt 2
  have hsum : (offset.tvNsec / ap.toInt64 + d.toInt64).toInt =
      offset.tvNsec.toInt.tdiv 2 + d.toInt := by
    rw [toInt_add_of_fits] <;> rw [toInt_div_two, Int32.toInt_toInt64]
    constructor <;> omega
  rw [controllerOutput, toInt32_of_fits, hsum]
  rw [hsum]
  constructor <;> omega

/-! ## Runs -/

/-- One pass of `main` as the servo sees it: the offset read, and what the three
clock readings would be. -/
structure Pass where
  offset : Int64
  readings : Readings
  deriving DecidableEq, Repr

def servo : Machine Int32 Pass where
  init := 0
  enabled _ _ := True
  step d p := (updateClock d (splitOffset p.offset) p.readings).1

theorem servo_step (d : Int32) (p : Pass) :
    servo.step d p = (updateClock d (splitOffset p.offset) p.readings).1 := by
  simp only [servo]

theorem servo_step_clamped (hd : DriftClamped d) (p : Pass) : DriftClamped (servo.step d p) := by
  rw [servo_step, updateClock]
  split
  · exact hd
  · exact nextDrift_clamped d (splitOffset p.offset)

theorem servo_init_clamped : DriftClamped servo.init := by
  show (0 : Int32).toInt.natAbs ≤ 512000
  decide

/-- What the frequency call of one pass should do, if the pass makes one: the
product under `t.freq` is exact, and the clock slows for a positive controller
output and speeds up for a negative one. -/
def FreqExact (d : Int32) (p : Pass) : Prop :=
  ∀ adj, (updateClock d (splitOffset p.offset) p.readings).2 = .adjFreq adj →
    let output := (splitOffset p.offset).tvNsec.toInt.tdiv 2 +
      (updateClock d (splitOffset p.offset) p.readings).1.toInt
    FitsInt32 (adj.toInt * freqScale.toInt) ∧
    (adjFreq adj).toInt = -65 * output ∧
    (0 < output → (adjFreq adj).toInt < 0) ∧ (output < 0 → 0 < (adjFreq adj).toInt)

theorem toInt_adjFreq {adj : Int32} (h : FitsInt32 (adj.toInt * 65)) :
    (adjFreq adj).toInt = adj.toInt * 65 := by
  rw [adjFreq, Int32.toInt_toInt64, toInt_mul32_of_fits] <;> rw [toInt_freqScale]
  exact h

/-- The output of a slewing pass is in range of the product exactly when the
offset is below 65.05242 ms.  From there on the quotient by `ai` saturates the
accumulator whatever it held, so the bound does not depend on the history. -/
theorem output_fits_iff {n : Int} (hd : DriftClamped d) (hn : n.natAbs ≤ 100000000) :
    FitsInt32 (-(n.tdiv 2 + clamp (d.toInt + n.tdiv 10)) * 65) ↔ n.natAbs < 65052420 := by
  unfold DriftClamped at hd
  have htenth := tdiv_eq_ite n 10
  have hhalf := tdiv_eq_ite n 2
  unfold FitsInt32 clamp
  omega

theorem toInt_slewArgument {p : Pass} (hd : DriftClamped d)
    (hslew : ¬ TakesStep (splitOffset p.offset)) :
    (-(controllerOutput (nextDrift d (splitOffset p.offset)) (splitOffset p.offset))).toInt =
      -(p.offset.toInt.tdiv 2 + clamp (d.toInt + p.offset.toInt.tdiv 10)) := by
  have hn := splitOffset_tvNsec_of_slew hslew
  rw [takesStep_splitOffset] at hslew
  have hrange : (splitOffset p.offset).tvNsec.toInt.natAbs ≤ 100000000 := by omega
  have hout := toInt_controllerOutput (nextDrift_clamped d (splitOffset p.offset)) hrange
  rw [toInt_nextDrift hd hrange, hn] at hout
  have hhalf := tdiv_eq_ite p.offset.toInt 2
  have hclamp : (clamp (d.toInt + p.offset.toInt.tdiv 10)).natAbs ≤ 512000 := by
    unfold clamp
    omega
  rw [toInt_neg32_of_fits, hout]
  rw [hout]
  constructor <;> omega

theorem freqExact_iff (hd : DriftClamped d) (p : Pass) :
    FreqExact d p ↔ (p.offset.toInt.natAbs ≤ 100000000 → p.offset.toInt.natAbs < 65052420) := by
  have hbranch := takesStep_splitOffset p.offset
  by_cases hstep : TakesStep (splitOffset p.offset)
  · have hbeyond := hbranch.mp hstep
    rw [FreqExact, updateClock, if_pos hstep]
    exact ⟨fun _ h => by omega, fun _ adj h => by simp at h⟩
  · have hwithin : p.offset.toInt.natAbs ≤ 100000000 := by
      by_contra h
      exact hstep (hbranch.mpr (by omega))
    have hn := splitOffset_tvNsec_of_slew hstep
    have harg := toInt_slewArgument hd hstep
    have hfits := output_fits_iff hd hwithin
    have hrange : (splitOffset p.offset).tvNsec.toInt.natAbs ≤ 100000000 := by omega
    have hnext := toInt_nextDrift hd hrange
    rw [hn] at hnext
    rw [← harg] at hfits
    rw [FreqExact, updateClock, if_neg hstep]
    simp only [ClockCall.adjFreq.injEq, forall_eq', toInt_freqScale, hn, hnext]
    constructor
    · intro h _
      exact hfits.mp h.1
    · intro h
      have hproduct := hfits.mpr (h hwithin)
      have hfreq := toInt_adjFreq hproduct
      refine ⟨hproduct, by omega, by omega, by omega⟩

/-- In a run of `update_clock` from the initial static state, every frequency
call is exact if and only if no slewed offset reaches 65.05242 ms. -/
theorem servo_freqExact_iff (passes : List Pass) :
    servo.Along FreqExact servo.init passes ↔
      ∀ p ∈ passes, p.offset.toInt.natAbs ≤ 100000000 → p.offset.toInt.natAbs < 65052420 := by
  have hadm : servo.Admits servo.init passes := servo.along_true servo.init passes
  have hsame : servo.Along FreqExact servo.init passes ↔ servo.Along
      (fun _ p => p.offset.toInt.natAbs ≤ 100000000 → p.offset.toInt.natAbs < 65052420)
      servo.init passes :=
    Machine.along_congr (I := DriftClamped) (fun _ p hd _ => servo_step_clamped hd p)
      (fun _ p hd _ => freqExact_iff hd p) servo_init_clamped hadm
  rw [hsame]
  exact Machine.along_event_iff

/-- An offset of 80 ms wraps the product.  The clock is ahead of the card, and the
call that should slow it down speeds it up. -/
theorem not_servo_freqExact_80ms :
    ¬ servo.Along FreqExact servo.init
      [{ offset := 80000000, readings := ⟨⟨0, 0⟩, ⟨0, 0⟩, ⟨0, 0⟩⟩ }] ∧
    (adjFreq (-40512000)).toInt = 1661687296 := by
  refine ⟨fun h => ?_, by decide⟩
  have hwrapped := (h.1 (-40512000) (by decide)).1
  exact absurd hwrapped (by decide)

end TimeTools.Sync
