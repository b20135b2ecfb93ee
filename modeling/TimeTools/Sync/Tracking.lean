import TimeTools.Foundation.PiLoop
import TimeTools.Sync.DriftHistory
import TimeTools.Sync.OneStep

/-!
# What the servo keeps

Passes of `host_sync` against a system clock that runs at a rate of its own and is steered by
`adjtimex`: between two passes it gains on the card what its rate and the frequency last set
make in a period, but for some jitter.  The frequency is in units of 2^-16 ppm, and
`adjtimex` takes it up to 500 ppm.

`adj_freq` scales by 65 where 65.536 would be a nanosecond for each second, so the loop sees
a period that much shorter.  For periods up to 1.12 s it oscillates, and a daemon whose first
offset and whose rate leave room under the 500 ppm never steps the clock again, as long as the
low register does not carry within a read: what the loop is away from its rest, which is the
first offset and the rate together, decays to what truncation and jitter make of it, and with
it the offset and what `observed_drift` is off the rate of the clock (`tracks_of_run`).
-/

namespace TimeTools.Sync

open FixedWidth Driver

/-- The frequency that is set after the call. -/
def ClockCall.freq (freq : Int64) : ClockCall → Int64
  | .setTime _ => freq
  | .adjFreq adj => TimeTools.Sync.adjFreq adj

/-- The nanoseconds in a second that a unit of the argument of `adj_freq` stands for. -/
noncomputable def adjUnit : ℝ := freqScale.toInt * (1000 / 65536)

theorem adjUnit_eq : adjUnit = 65000 / 65536 := by
  rw [adjUnit, toInt_freqScale]
  norm_num

/-- The seconds from one pass to the next, and the nanoseconds that the system clock gains
on the card in each when no frequency is set. -/
structure Oscillator where
  period : ℝ
  rate : ℝ
  jitter : ℝ
  period_pos : 0 < period
  jitter_nonneg : 0 ≤ jitter

/-- The clocks, and the frequency that `adjtimex` was given last. -/
structure Steered where
  clocks : Clocks
  freq : Int64

namespace Steered

def step (s : Steered) (e : Timing) : Steered where
  clocks := s.clocks.step e
  freq := ((s.clocks.after e).pass e).2.freq s.freq

/-- What the controller makes of an offset that it has added to the accumulator. -/
def output (s : Steered) : Int := s.clocks.lead.tdiv 2 + s.clocks.observedDrift.toInt

/-- The frequency set is the output of the controller. -/
structure Settled (s : Steered) : Prop where
  clamped : DriftClamped s.clocks.observedDrift
  freq : s.freq.toInt = -65 * s.output

variable {s : Steered} {e : Timing}

theorem drift_of_fresh (h : s.clocks.observedDrift = 0) :
    DriftClamped s.clocks.observedDrift ∧ s.clocks.observedDrift.toInt = 0 := by
  rw [h]
  exact ⟨servo_init_clamped, rfl⟩

/-- The pass as the servo sees it. -/
def servoPass (s : Steered) (e : Timing) : Pass where
  offset := hostGetOffset ((s.clocks.after e).regs e) (timespecOf (s.clocks.after e).system)
  readings := (s.clocks.after e).readings e

theorem toInt_offset_servoPass (h : s.clocks.Enabled e) (huntorn : s.clocks.Untorn e) :
    (s.servoPass e).offset.toInt = s.clocks.lead + e.wander := by
  rw [servoPass, Clocks.toInt_offset h huntorn, Clocks.lead_after]

theorem pass_after (s : Steered) (e : Timing) : (s.clocks.after e).pass e =
    updateClock s.clocks.observedDrift (splitOffset (s.servoPass e).offset)
      (s.servoPass e).readings := by
  rw [Clocks.pass, hostSyncPass, servoPass, Clocks.after]

theorem observedDrift_step {q : Int32 × ClockCall} (h : (s.clocks.after e).pass e = q) :
    (s.step e).clocks.observedDrift = q.1 := by
  rw [step, Clocks.step, h]

theorem freq_step {q : Int32 × ClockCall} (h : (s.clocks.after e).pass e = q) :
    (s.step e).freq = q.2.freq s.freq := by
  rw [step, h]

theorem step_of_near (h : s.clocks.Enabled e) (huntorn : s.clocks.Untorn e)
    (hd : DriftClamped s.clocks.observedDrift) {d : Int}
    (hd' : s.clocks.observedDrift.toInt + (s.clocks.lead + e.wander).tdiv 10 = d)
    (hclamp : d.natAbs ≤ 512000) (hnear : (s.clocks.lead + e.wander).natAbs < 65052420) :
    ¬ s.clocks.Steps e ∧ (s.step e).Settled ∧
      (s.step e).clocks.lead = s.clocks.lead + e.wander ∧
      (s.step e).clocks.observedDrift.toInt = d := by
  have hsteps : ¬ s.clocks.Steps e := by
    rw [Clocks.steps_iff h huntorn]
    omega
  have hlead : (s.step e).clocks.lead = s.clocks.lead + e.wander := by
    rw [step, Clocks.lead_step h huntorn, if_neg hsteps]
  have hoffset := toInt_offset_servoPass h huntorn
  obtain ⟨hsplit, -, -, hdrift, adj, hcall, -⟩ :=
    (callExact hd (s.servoPass e)).slews (by rw [hoffset]; omega)
  have hstep := observedDrift_step (pass_after s e)
  have hd'' : (s.step e).clocks.observedDrift.toInt = d := by
    rw [hstep, ← servo_step, hdrift, hoffset, hd', clamp]
    omega
  refine ⟨hsteps, ⟨?_, ?_⟩, hlead, hd''⟩
  · rw [DriftClamped, hd'']
    exact hclamp
  · have hexact := (freqExact_iff hd (s.servoPass e)).mpr fun _ => by rw [hoffset]; exact hnear
    obtain ⟨-, hfreq, -⟩ := hexact (-adj) hcall
    rw [freq_step (pass_after s e), hcall, ClockCall.freq, hfreq, hsplit, hoffset, output, hlead,
      hstep]

end Steered

/-! ## The loop -/

/-- A quotient is off by less than one. -/
theorem abs_div_sub_tdiv_le (x : Int) {k : Int} (hk : 0 < k) :
    |(x : ℝ) / k - (x.tdiv k : Int)| ≤ 1 := by
  have hsplit := Int.mul_tdiv_add_tmod x k
  have hlo := Int.lt_tmod_of_pos x hk
  have hhi := Int.tmod_lt_of_pos x hk
  have hk' : (0 : ℝ) < k := Int.cast_pos.mpr hk
  have hrest : (x : ℝ) / k - (x.tdiv k : Int) = (x.tmod k : Int) / k := by
    rw [eq_div_iff hk'.ne', sub_mul, div_mul_cancel₀ _ hk'.ne']
    exact_mod_cast sub_eq_of_eq_add (by linarith)
  rw [hrest, abs_div, abs_of_pos hk', div_le_one hk', abs_le]
  exact_mod_cast And.intro hlo.le hhi.le

theorem natAbs_le_of_abs_le {n : Int} {k : Nat} (h : |(n : ℝ)| ≤ k) : n.natAbs ≤ k := by
  rw [← Int.cast_abs, Int.abs_eq_natAbs] at h
  exact_mod_cast h

theorem toInt_ap : ap.toInt = 2 := rfl

theorem toInt_ai : ai.toInt = 10 := rfl

namespace Oscillator

variable (o : Oscillator)

/-- What the clock gains on the card from one pass to the next. -/
noncomputable def gain (freq : Int64) : ℝ :=
  o.period * (o.rate + freq.toInt * (1000 / 65536))

def Follows (freq : Int64) (wander : Int) : Prop :=
  freq.toInt.natAbs ≤ 32768000 → |wander - o.gain freq| ≤ o.jitter

def machine : Machine Steered Timing where
  init := { clocks := Clocks.machine.init, freq := 0 }
  enabled s e := s.clocks.Enabled e ∧ o.Follows s.freq e.wander
  step := Steered.step

theorem inv_ap_pos : 0 < 1 / (ap.toInt : ℝ) := by
  rw [toInt_ap]
  norm_num

theorem inv_ai_pos : 0 < 1 / (ai.toInt : ℝ) := by
  rw [toInt_ai]
  norm_num

theorem period_mul_adjUnit_pos : 0 < o.period * adjUnit := by
  rw [adjUnit_eq]
  exact mul_pos o.period_pos (by norm_num)

noncomputable def loop : PiLoop where
  kp := 1 / ap.toInt
  ki := 1 / ai.toInt
  h := o.period * adjUnit
  kp_pos := inv_ap_pos
  ki_pos := inv_ai_pos
  h_pos := o.period_mul_adjUnit_pos

theorem kp_eq : o.loop.kp = 1 / 2 := by
  show 1 / (ap.toInt : ℝ) = 1 / 2
  rw [toInt_ap]
  push_cast
  rfl

theorem ki_eq : o.loop.ki = 1 / 10 := by
  show 1 / (ai.toInt : ℝ) = 1 / 10
  rw [toInt_ai]
  push_cast
  rfl

theorem h_eq : o.loop.h = o.period * (65000 / 65536) := by
  show o.period * adjUnit = _
  rw [adjUnit_eq]

theorem oscillates (h : o.period * adjUnit < 10 / 9) : o.loop.Oscillates := by
  rw [PiLoop.Oscillates, kp_eq, ki_eq]
  change o.period * adjUnit * _ < _
  linarith

/-- The output that holds the clock. -/
noncomputable def target : ℝ := o.rate / adjUnit

/-- How far a settled loop is from its rest. -/
noncomputable def away (lead drift : Int) : ℝ :=
  ‖PiLoop.mode o.loop.root lead (o.target - drift + o.loop.ki * lead)‖

noncomputable def awayOf (s : Steered) : ℝ :=
  o.away s.clocks.lead s.clocks.observedDrift.toInt

/-- What truncation and jitter add to it in a pass. -/
noncomputable def noise : ℝ := o.loop.modulus * (o.jitter + o.loop.h) + 1

/-- What is left of it in the end. -/
noncomputable def floor : ℝ := o.noise / o.loop.part

/-- How far the first pass of a daemon can be from rest. -/
noncomputable def reach (lead : Int) : ℝ := o.loop.modulus * |(lead : ℝ)| + |o.target| + 1

/-- The loop oscillates, and the output stays under 500 ppm. -/
structure Within (bound : ℝ) : Prop where
  oscillates : o.loop.Oscillates
  room : bound * o.loop.modulus ≤ (499998 - |o.target|) * o.loop.swing

variable {o} {bound : ℝ}

theorem Within.abs_sub_le (h : o.Within bound) {lead drift : Int}
    (haway : o.away lead drift ≤ bound) {k : ℝ} (hk : 0 ≤ k) (hk' : k ≤ o.loop.kp) :
    |o.target - drift - k * lead| ≤ 499998 - |o.target| := by
  have hswing := h.oscillates.swing_pos
  have hki := o.loop.ki_pos
  have hle := h.oscillates.abs_sub_mul_le (k := k + o.loop.ki) (by linarith) (by linarith) lead
    (o.target - drift + o.loop.ki * lead)
  have hshort : o.target - drift + o.loop.ki * lead - (k + o.loop.ki) * lead =
      o.target - drift - k * lead := by ring
  rw [hshort] at hle
  refine le_of_mul_le_mul_right (hle.trans (le_trans ?_ h.room)) hswing
  rw [mul_comm bound]
  exact mul_le_mul_of_nonneg_left haway o.loop.modulus_pos.le

theorem Within.drift_le (h : o.Within bound) {lead drift : Int}
    (haway : o.away lead drift ≤ bound) : drift.natAbs ≤ 499998 := by
  have hle := h.abs_sub_le haway le_rfl o.loop.kp_pos.le
  have htri := abs_sub_abs_le_abs_sub (drift : ℝ) o.target
  rw [zero_mul, sub_zero, abs_sub_comm] at hle
  refine natAbs_le_of_abs_le ?_
  push_cast
  linarith

theorem Within.output_le (h : o.Within bound) {lead drift : Int}
    (haway : o.away lead drift ≤ bound) : (lead.tdiv 2 + drift).natAbs ≤ 499999 := by
  have hle := h.abs_sub_le haway o.loop.kp_pos.le le_rfl
  have hhalf := abs_div_sub_tdiv_le lead (k := 2) (by decide)
  rw [kp_eq] at hle
  refine natAbs_le_of_abs_le ?_
  rw [abs_le] at hle hhalf ⊢
  have hself := neg_abs_le o.target
  have hself' := le_abs_self o.target
  push_cast at hhalf ⊢
  constructor <;> linarith

theorem Within.lead_le (h : o.Within bound) {lead drift : Int}
    (haway : o.away lead drift ≤ bound) : lead.natAbs ≤ 1666660 := by
  have hswing := h.oscillates.swing_pos
  have hmodulus : 3 / 10 ≤ o.loop.modulus := by
    refine le_trans ?_ h.oscillates.gains_le_modulus
    rw [kp_eq, ki_eq]
    norm_num
  have hle := h.oscillates.abs_error_mul_le lead (o.target - drift + o.loop.ki * lead)
  have hscaled : |(lead : ℝ)| * o.loop.modulus * o.loop.swing ≤ 499998 * o.loop.swing := by
    have htarget := abs_nonneg o.target
    calc |(lead : ℝ)| * o.loop.modulus * o.loop.swing
        = |(lead : ℝ)| * o.loop.swing * o.loop.modulus := by ring
      _ ≤ bound * o.loop.modulus :=
          mul_le_mul_of_nonneg_right (hle.trans haway) o.loop.modulus_pos.le
      _ ≤ (499998 - |o.target|) * o.loop.swing := h.room
      _ ≤ 499998 * o.loop.swing := mul_le_mul_of_nonneg_right (by linarith) hswing.le
  have hlead := le_of_mul_le_mul_right hscaled hswing
  have hthird : |(lead : ℝ)| * (3 / 10) ≤ |(lead : ℝ)| * o.loop.modulus :=
    mul_le_mul_of_nonneg_left hmodulus (abs_nonneg _)
  refine natAbs_le_of_abs_le ?_
  push_cast
  linarith

/-- After a pass within the bound the loop is settled, whatever it was before. -/
theorem Within.settles (h : o.Within bound) {s : Steered} {e : Timing}
    (hen : s.clocks.Enabled e) (huntorn : s.clocks.Untorn e)
    (hd : DriftClamped s.clocks.observedDrift) {lead drift : Int}
    (hlead : s.clocks.lead + e.wander = lead)
    (hdrift : s.clocks.observedDrift.toInt + lead.tdiv 10 = drift)
    (haway : o.away lead drift ≤ bound) :
    ¬ s.clocks.Steps e ∧ (s.step e).Settled ∧ (s.step e).clocks.lead = lead ∧
      (s.step e).clocks.observedDrift.toInt = drift := by
  have hfar := h.lead_le haway
  have hclamp := h.drift_le haway
  subst hlead
  exact Steered.step_of_near hen huntorn hd hdrift (by omega) (by omega)

/-- The offset read in the next pass, but for truncation and jitter. -/
theorem next_lead {s : Steered} (hs : s.Settled) (houtput : s.output.natAbs ≤ 504123)
    {e : Timing} (hfollows : o.Follows s.freq e.wander) :
    |((s.clocks.lead + e.wander : Int) : ℝ) - (s.clocks.lead + o.loop.h *
      (o.target - s.clocks.observedDrift.toInt - o.loop.kp * s.clocks.lead))| ≤
      o.jitter + o.loop.h := by
  have hfreq := hs.freq
  have hgain := hfollows (by omega)
  have hhalf := abs_div_sub_tdiv_le s.clocks.lead (k := 2) (by decide)
  have hh := o.loop.h_pos
  rw [gain, hfreq, Steered.output] at hgain
  have hsplit : ((s.clocks.lead + e.wander : Int) : ℝ) - (s.clocks.lead + o.loop.h *
      (o.target - s.clocks.observedDrift.toInt - o.loop.kp * s.clocks.lead)) =
      (e.wander - o.period * (o.rate + ((-65 * (s.clocks.lead.tdiv 2 +
        s.clocks.observedDrift.toInt) : Int) : ℝ) * (1000 / 65536))) +
      o.loop.h * (s.clocks.lead / (2 : Int) - (s.clocks.lead.tdiv 2 : Int)) := by
    rw [kp_eq, h_eq, target, adjUnit_eq]
    push_cast
    ring
  rw [hsplit]
  refine (abs_add_le _ _).trans (add_le_add hgain ?_)
  rw [abs_mul, abs_of_pos hh]
  exact mul_le_of_le_one_right hh.le hhalf

/-- What the accumulator is short of the target, but for truncation. -/
theorem next_shortfall (lead drift next : Int) :
    |(o.target - ((drift + next.tdiv 10 : Int) : ℝ) + o.loop.ki * next) -
      (o.target - drift + o.loop.ki * lead - o.loop.ki * lead)| ≤ 1 := by
  have htenth := abs_div_sub_tdiv_le next (k := 10) (by decide)
  rw [add_sub_cancel_right, ki_eq]
  push_cast at htenth ⊢
  convert htenth using 2
  ring

/-- A pass takes a part of what the loop is away from its rest. -/
theorem away_next (hosc : o.loop.Oscillates) {lead drift next : Int}
    (hnext : |(next : ℝ) - (lead + o.loop.h * (o.target - drift - o.loop.kp * lead))| ≤
      o.jitter + o.loop.h) :
    o.away next (drift + next.tdiv 10) ≤ (1 - o.loop.part) * o.away lead drift + o.noise :=
  hosc.norm_mode_step_le (by rwa [add_sub_cancel_right]) (next_shortfall lead drift next)

theorem first_shortfall (lead : Int) :
    |(o.target - (lead.tdiv 10 : Int) + o.loop.ki * lead) - o.target| ≤ 1 := by
  simpa using next_shortfall (o := o) 0 0 lead

theorem away_first_le (hosc : o.loop.Oscillates) (lead : Int) :
    o.away lead (lead.tdiv 10) ≤ o.reach lead := by
  have hfirst := first_shortfall (o := o) lead
  have htri := abs_sub_abs_le_abs_sub (o.target - (lead.tdiv 10 : Int) + o.loop.ki * lead) o.target
  have hmode := PiLoop.norm_mode_le o.loop.root lead
    (o.target - (lead.tdiv 10 : Int) + o.loop.ki * lead)
  rw [hosc.norm_root] at hmode
  rw [away, reach]
  linarith

theorem noise_nonneg : 0 ≤ o.noise := by
  have hmodulus := o.loop.modulus_pos
  have hh := o.loop.h_pos
  have hjitter := o.jitter_nonneg
  rw [noise]
  positivity

theorem floor_nonneg : 0 ≤ o.floor := div_nonneg noise_nonneg o.loop.part_pos.le

theorem Within.pass (h : o.Within bound) (hfloor : o.floor ≤ bound) (s : Steered) (e : Timing)
    (hs : s.Settled) (haway : o.awayOf s ≤ bound) (hen : o.machine.enabled s e)
    (huntorn : s.clocks.Untorn e) :
    ¬ s.clocks.Steps e ∧ (o.machine.step s e).Settled ∧
      o.awayOf (o.machine.step s e) ≤ (1 - o.loop.part) * o.awayOf s + o.noise := by
  have hnext := away_next h.oscillates (next_lead hs ((h.output_le haway).trans (by decide)) hen.2)
  have hbound : (1 - o.loop.part) * o.awayOf s + o.noise ≤ bound := by
    have hnoise : o.noise ≤ bound * o.loop.part := (div_le_iff₀ o.loop.part_pos).mp hfloor
    have hkeep := mul_le_mul_of_nonneg_left haway (sub_nonneg.mpr h.oscillates.part_le_one)
    linarith
  obtain ⟨hslews, hsettled, hlead, hdrift⟩ :=
    h.settles hen.1 huntorn hs.clamped rfl rfl (hnext.trans hbound)
  refine ⟨hslews, hsettled, ?_⟩
  change o.away (s.step e).clocks.lead (s.step e).clocks.observedDrift.toInt ≤ _
  rw [hlead, hdrift]
  exact hnext

/-- From any frequency and any two clocks, and with a daemon that has just started: if what
its first offset and its oscillator ask for stays under 500 ppm, and no read is torn, no pass
steps the clock.  What is left of the first offset and the rate together decays to the floor,
and bounds the offset and what `observed_drift` is off the output that holds the clock. -/
theorem tracks_of_run (o : Oscillator) {s : Steered} (hfresh : s.clocks.observedDrift = 0)
    {e : Timing} {es : List Timing} (hadm : o.machine.Admits s (e :: es))
    (huntorn : o.machine.Along (fun s e => s.clocks.Untorn e) s (e :: es))
    (hwithin : o.Within (o.reach (s.clocks.lead + e.wander) + o.floor)) :
    let rest := (1 - o.loop.part) ^ es.length * o.reach (s.clocks.lead + e.wander) + o.floor
    let s' := o.machine.run s (e :: es)
    o.machine.Along (fun s e => ¬ s.clocks.Steps e) s (e :: es) ∧
      |(s'.clocks.lead : ℝ)| * o.loop.swing ≤ rest ∧
      |o.target - s'.clocks.observedDrift.toInt| * o.loop.swing ≤ o.loop.modulus * rest := by
  intro rest s'
  obtain ⟨⟨hen, -⟩, hrest⟩ := hadm
  obtain ⟨hclamped, hzero⟩ := Steered.drift_of_fresh hfresh
  have hfirst := away_first_le hwithin.oscillates (s.clocks.lead + e.wander)
  have hreach : 0 ≤ o.reach (s.clocks.lead + e.wander) := (norm_nonneg _).trans hfirst
  have hfloor := floor_nonneg (o := o)
  obtain ⟨hslews, hsettled, hlead, hdrift⟩ := hwithin.settles hen huntorn.1 hclamped rfl
    (by rw [hzero, Int.zero_add]) (by linarith)
  have hstart : o.awayOf (o.machine.step s e) ≤
      o.reach (s.clocks.lead + e.wander) + o.noise / o.loop.part := by
    change o.away (s.step e).clocks.lead (s.step e).clocks.observedDrift.toInt ≤ _
    rw [hlead, hdrift]
    exact hfirst.trans (le_add_of_nonneg_right hfloor)
  obtain ⟨halong, hend⟩ := Machine.run_le_of_contraction o.loop.part_pos
    hwithin.oscillates.part_le_one
    (hwithin.pass (le_add_of_nonneg_left hreach)) hrest huntorn.2 hsettled hreach le_rfl hstart
  have herror := hwithin.oscillates.abs_error_mul_le s'.clocks.lead
    (o.target - s'.clocks.observedDrift.toInt + o.loop.ki * s'.clocks.lead)
  have hshort := hwithin.oscillates.abs_sub_mul_le o.loop.ki_pos.le
    (le_add_of_nonneg_left o.loop.kp_pos.le) s'.clocks.lead
    (o.target - s'.clocks.observedDrift.toInt + o.loop.ki * s'.clocks.lead)
  rw [add_sub_cancel_right] at hshort
  exact ⟨⟨hslews, halong⟩, herror.trans hend,
    hshort.trans (mul_le_mul_of_nonneg_left hend o.loop.modulus_pos.le)⟩

/-- The default period, and a clock that gains 10 ppm. -/
noncomputable def tenMs : Oscillator where
  period := 1 / 100
  rate := 10000
  jitter := 10
  period_pos := by norm_num
  jitter_nonneg := by norm_num

theorem h_tenMs : tenMs.loop.h = 65000 / 6553600 := by
  rw [h_eq, tenMs]
  norm_num

theorem modulus_tenMs_le : tenMs.loop.modulus ≤ 318 / 100 := by
  rw [PiLoop.modulus, Real.sqrt_le_left (by norm_num), h_tenMs, ki_eq]
  norm_num

theorem le_swing_tenMs : 316 / 100 ≤ tenMs.loop.swing := by
  refine Real.le_sqrt_of_sq_le ?_
  rw [h_tenMs, kp_eq, ki_eq]
  norm_num

/-- Within 0.1 ms there is room at the default period. -/
theorem within_tenMs {lead : Int} (hlead : lead.natAbs ≤ 100000) :
    tenMs.Within (tenMs.reach lead + tenMs.floor) := by
  have hmodulus := modulus_tenMs_le
  have hswing := le_swing_tenMs
  have htarget : |tenMs.target| = 655360 / 65 := by
    rw [target, tenMs, adjUnit_eq]
    norm_num
  have habs : |(lead : ℝ)| ≤ 100000 := by
    rw [← Int.cast_abs, Int.abs_eq_natAbs]
    exact_mod_cast hlead
  have hjitter : tenMs.jitter = 10 := rfl
  have hfloor : tenMs.floor ≤ 13300 := by
    rw [floor, noise, PiLoop.part, h_tenMs, kp_eq, hjitter, div_le_iff₀ (by norm_num)]
    linarith
  have hreach : tenMs.reach lead ≤ 328100 := by
    rw [reach, htarget]
    nlinarith [abs_nonneg (lead : ℝ)]
  refine ⟨tenMs.oscillates (by rw [tenMs, adjUnit_eq]; norm_num), ?_⟩
  rw [htarget]
  nlinarith [tenMs.loop.modulus_pos]

/-- 99.9 us ahead, with no frequency set. -/
def ahead : Steered where
  clocks := { card := 1700000045000000000, system := 1700000010000099900, observedDrift := 0 }
  freq := 0

def firstPass : Timing :=
  { wait := 10000000, wander := 100, toHigh := 80, toA := 120, toB := 0, toD := 0, toSet := 0 }

def secondPass : Timing :=
  { wait := 10000000, wander := -495, toHigh := 90, toA := 120, toB := 0, toD := 0, toSet := 0 }

theorem tracks_two_passes :
    let rest := (1 - tenMs.loop.part) ^ 1 * tenMs.reach 100000 + tenMs.floor
    let s' := tenMs.machine.run ahead [firstPass, secondPass]
    tenMs.machine.Along (fun s e => ¬ s.clocks.Steps e) ahead [firstPass, secondPass] ∧
      |(s'.clocks.lead : ℝ)| * tenMs.loop.swing ≤ rest ∧
      |tenMs.target - s'.clocks.observedDrift.toInt| * tenMs.loop.swing ≤
        tenMs.loop.modulus * rest := by
  have hfirst : tenMs.Follows 0 100 := fun _ => by
    rw [gain, tenMs, Int64.toInt_zero]
    norm_num
  have hsecond : tenMs.Follows (-3900000) (-495) := fun _ => by
    rw [gain, tenMs, show ((-3900000 : Int64).toInt : ℝ) = -3900000 by norm_cast]
    norm_num [abs_le]
  have hadm : tenMs.machine.Admits ahead [firstPass, secondPass] :=
    ⟨⟨⟨by decide, by decide, by decide, by decide, by decide⟩, hfirst⟩,
      ⟨⟨by decide, by decide, by decide, by decide, by decide⟩, hsecond⟩, trivial⟩
  have huntorn : tenMs.machine.Along (fun s e => s.clocks.Untorn e) ahead
      [firstPass, secondPass] := ⟨by decide, by decide, trivial⟩
  exact tracks_of_run tenMs rfl hadm huntorn (within_tenMs (by decide))

end Oscillator

end TimeTools.Sync
