import TimeTools.Foundation.Amortize
import TimeTools.Sync.TornRead

/-!
# How often the clock is stepped

Passes of `host_sync` against a card and a system clock that run on between the calls.  A
step reads the time three times: the gap between the first two readings stands for the time
that passes from the third to `clock_settime`, and what is left of the offset is the
difference of the two.

`HOST_GET_OFFSET` reads the low register together with the system time, with interrupts off,
and the high register some time after them.  A pass in which the low register carries between
the two steps a clock that was right (`torn_offset_steps`).  Without such passes one step
brings the clock within the slew range, and no other follows unless the two clocks wander apart
by 100 ms again (`steps_le`).
-/

namespace TimeTools.Sync

open FixedWidth SignedSplit Driver

/-- The `struct timespec` of a time after the epoch. -/
def timespecOf (n : Int) : Timespec :=
  { tvSec := Int64.ofInt (n / 1000000000), tvNsec := Int64.ofInt (n % 1000000000) }

def ClockCall.isStep : ClockCall → Bool
  | .setTime _ => true
  | .adjFreq _ => false

/-- `clock_settime` refuses a time that is not valid; `adjtimex` acts on the frequency. -/
def ClockCall.systemTime (system : Int) : ClockCall → Int
  | .setTime time => if time.Settable then time.total else system
  | .adjFreq _ => system

structure Clocks where
  card : Nat
  system : Int
  observedDrift : Int32
  deriving DecidableEq, Repr

/-- The nanoseconds that pass before and within a pass: up to the low register, from there to
the high register and also to the first reading of a step, on to each reading after it, and to
the end.  In the first part the system clock gains `wander` on the card, whatever makes it do
so. -/
structure Timing where
  wait : Nat
  wander : Int
  toHigh : Nat
  toA : Nat
  toB : Nat
  toD : Nat
  toSet : Nat
  deriving DecidableEq, Repr

namespace Clocks

/-- What the system clock is ahead of the time on the card. -/
def lead (s : Clocks) : Int := s.system - ((s.card : Int) - 35000000000)

/-- The state in which a pass begins. -/
def after (s : Clocks) (e : Timing) : Clocks :=
  { s with card := s.card + e.wait, system := s.system + e.wait + e.wander }

def readings (s : Clocks) (e : Timing) : Readings where
  timeTmpA := timespecOf (s.system + e.toA)
  timeTmpB := timespecOf (s.system + e.toA + e.toB)
  timeTmpD := timespecOf (s.system + e.toA + e.toB + e.toD)

/-- The registers as `HOST_GET_OFFSET` finds them: the card counts on between its two reads. -/
def regs (s : Clocks) (e : Timing) : Regs where
  tmrCntL := (Regs.ofCounter (UInt64.ofNat s.card)).tmrCntL
  tmrCntH := (Regs.ofCounter (UInt64.ofNat (s.card + e.toHigh))).tmrCntH

def pass (s : Clocks) (e : Timing) : Int32 × ClockCall :=
  hostSyncPass s.observedDrift (s.regs e) (timespecOf s.system) (s.readings e)

def step (s : Clocks) (e : Timing) : Clocks :=
  let s := s.after e
  let elapsed := e.toA + e.toB + e.toD + e.toSet
  { card := s.card + elapsed
    system := (s.pass e).2.systemTime (s.system + elapsed)
    observedDrift := (s.pass e).1 }

/-- The ioctl returns before the first reading, the card is past its TAI offset, and neither
clock comes near the end of its word. -/
structure Enabled (s : Clocks) (e : Timing) : Prop where
  high : e.toHigh ≤ e.toA
  card_lower : 35000000000 ≤ (s.after e).card
  card_upper : (s.after e).card + (e.toA + e.toB + e.toD + e.toSet) < 2 ^ 62
  system_lower : 0 ≤ (s.after e).system
  system_upper : (s.after e).system + (e.toA + e.toB + e.toD + e.toSet) < 2 ^ 62

/-- Runs begin in any state; `init` is the least one that a pass can begin in. -/
def machine : Machine Clocks Timing where
  init := { card := 35000000000, system := 0, observedDrift := 0 }
  enabled := Enabled
  step := step

/-- The pass calls `clock_settime`. -/
def Steps (s : Clocks) (e : Timing) : Prop := ((s.after e).pass e).2.isStep

instance (s : Clocks) (e : Timing) : Decidable (s.Steps e) := inferInstanceAs (Decidable (_ = _))

/-- The low register does not carry between the two reads of the pass. -/
def Untorn (s : Clocks) (e : Timing) : Prop :=
  (s.after e).card / 2 ^ 32 = ((s.after e).card + e.toHigh) / 2 ^ 32

instance (s : Clocks) (e : Timing) : Decidable (s.Untorn e) :=
  inferInstanceAs (Decidable (_ = _))

end Clocks

theorem timespecOf_spec {n : Int} (hlo : 0 ≤ n) (hhi : n < 2 ^ 62) :
    (timespecOf n).Valid ∧ (timespecOf n).total = n := by
  have hsec : (timespecOf n).tvSec.toInt = n / 1000000000 :=
    Int64.toInt_ofInt_of_le (by omega) (by omega)
  have hnsec : (timespecOf n).tvNsec.toInt = n % 1000000000 :=
    Int64.toInt_ofInt_of_le (by omega) (by omega)
  rw [Timespec.Valid, Timespec.total_def, hsec, hnsec]
  omega

namespace Clocks

variable {s : Clocks} {e : Timing}

theorem lead_after (s : Clocks) (e : Timing) : (s.after e).lead = s.lead + e.wander := by
  unfold lead after
  push_cast
  omega

theorem toNat_ofNat_of_lt {n : Nat} (h : n < 2 ^ 62) : (UInt64.ofNat n).toNat = n :=
  UInt64.toNat_ofNat_of_lt' (Nat.lt_trans h (show 2 ^ 62 < UInt64.size by decide))

theorem readTmrCnt_regs (h : Enabled s e) (huntorn : s.Untorn e) :
    (readTmrCnt ((s.after e).regs e)).toNat = (s.after e).card := by
  obtain ⟨hhigh, -, hhi, -, -⟩ := h
  have hlow := toNat_ofNat_of_lt (n := (s.after e).card) (by omega)
  have hlate := toNat_ofNat_of_lt (n := (s.after e).card + e.toHigh) (by omega)
  have hle : UInt64.ofNat (s.after e).card ≤ UInt64.ofNat ((s.after e).card + e.toHigh) :=
    UInt64.le_iff_toNat_le.mpr (by omega)
  have hcount := toNat_withHighWord_of_le hle
  rw [carries, hlow, hlate, ← huntorn, Nat.sub_self, Nat.zero_mul, Nat.add_zero] at hcount
  exact hcount

theorem toInt_offset (h : Enabled s e) (huntorn : s.Untorn e) :
    (hostGetOffset ((s.after e).regs e) (timespecOf (s.after e).system)).toInt =
      (s.after e).lead := by
  have hcount := readTmrCnt_regs h huntorn
  obtain ⟨-, hlo, hhi, hslo, hshi⟩ := h
  obtain ⟨-, htotal⟩ := timespecOf_spec hslo (by omega)
  have hlead : (timespecOf (s.after e).system).total -
      (((readTmrCnt ((s.after e).regs e)).toNat : Int) - 35000000000) = (s.after e).lead := by
    rw [htotal, hcount, lead]
  rw [hostGetOffset, toInt_offsetOf_of_fits, hlead]
  rw [hlead, lead]
  exact ⟨by omega, by omega⟩

theorem steps_iff (h : Enabled s e) (huntorn : s.Untorn e) :
    s.Steps e ↔ 100000000 < (s.lead + e.wander).natAbs := by
  have hbranch := takesStep_splitOffset (hostGetOffset ((s.after e).regs e)
    (timespecOf (s.after e).system))
  rw [toInt_offset h huntorn, lead_after] at hbranch
  rw [← hbranch, Steps, pass, hostSyncPass, updateClock]
  by_cases hstep : TakesStep (splitOffset (hostGetOffset ((s.after e).regs e)
    (timespecOf (s.after e).system)))
  · rw [if_pos hstep]
    exact ⟨fun _ => hstep, fun _ => rfl⟩
  · rw [if_neg hstep]
    exact ⟨fun h => (by cases h), fun h => absurd h hstep⟩

/-- The time that a step sets: the card time at the third reading, and the gap between the
first two. -/
theorem time_of_step (h : Enabled s e) (huntorn : s.Untorn e) {time : Timespec}
    (htime : ((s.after e).pass e).2 = .setTime time) :
    time.total = ((s.after e).card : Int) - 35000000000 + e.toA + e.toB + e.toD + e.toB ∧
      time.Settable := by
  have hoffset := toInt_offset h huntorn
  obtain ⟨-, hlo, hhi, hslo, hshi⟩ := h
  obtain ⟨hAvalid, hA⟩ := timespecOf_spec (n := (s.after e).system + e.toA) (by omega) (by omega)
  obtain ⟨hBvalid, hB⟩ := timespecOf_spec (n := (s.after e).system + e.toA + e.toB) (by omega)
    (by omega)
  obtain ⟨hDvalid, hD⟩ := timespecOf_spec (n := (s.after e).system + e.toA + e.toB + e.toD)
    (by omega) (by omega)
  obtain ⟨-, rfl⟩ := updateClock_setTime_iff.mp htime
  generalize hostGetOffset ((s.after e).regs e) (timespecOf (s.after e).system) = offset
    at hoffset ⊢
  have hsplit := splitOffset_total offset
  rw [hoffset, lead] at hsplit
  obtain ⟨htotal, hcan⟩ := steppedTime_spec (r := (s.after e).readings e)
    (splitOffset_canonical offset) hAvalid hBvalid hDvalid
    (by simp only [readings, hA, hB]; exact ⟨by omega, by omega⟩)
    (by simp only [readings, hD, hsplit]; exact ⟨by omega, by omega⟩)
  simp only [readings, hA, hB, hD, hsplit] at htotal
  refine ⟨?_, hcan.settable ?_⟩ <;> simp only [readings, htotal] <;> omega

/-- After a pass that steps, the clock leads the card by the gap between two readings less
the time that the last of them was old. -/
theorem lead_step (h : Enabled s e) (huntorn : s.Untorn e) :
    (step s e).lead = if s.Steps e then (e.toB : Int) - e.toSet else s.lead + e.wander := by
  have hlead := lead_after s e
  unfold lead at hlead
  cases hcall : ((s.after e).pass e).2 with
  | setTime time =>
    have hsteps : s.Steps e := congrArg ClockCall.isStep hcall
    obtain ⟨htotal, hset⟩ := time_of_step h huntorn hcall
    rw [if_pos hsteps, step, lead, hcall, ClockCall.systemTime, if_pos hset, htotal]
    push_cast
    omega
  | adjFreq adj =>
    have hslews : ¬ s.Steps e := fun hsteps => by
      cases hsteps.symm.trans (congrArg ClockCall.isStep hcall)
    rw [if_neg hslews, step, lead, hcall, ClockCall.systemTime, lead]
    push_cast
    omega

/-- How far the clock is from the card beyond what a step may leave. -/
def excess (latency : Nat) (s : Clocks) : Nat := s.lead.natAbs - latency

/-- Up to a step, and from one step to the next, the clocks wander apart by what a step
corrects beyond what it may leave. -/
theorem cost_add_excess_le {latency : Nat} (h : Enabled s e) (huntorn : s.Untorn e)
    (hlatency : latency ≤ 100000000) (hB : e.toB ≤ latency) (hset : e.toSet ≤ latency) :
    (if s.Steps e then 1 else 0) * (100000001 - latency) + excess latency (step s e) ≤
      excess latency s + e.wander.natAbs := by
  have hsteps := steps_iff h huntorn
  have hlead := lead_step h huntorn
  unfold excess
  rw [hlead]
  by_cases hstep : s.Steps e
  · have hfar := hsteps.mp hstep
    rw [if_pos hstep, if_pos hstep]
    omega
  · rw [if_neg hstep, if_neg hstep]
    omega

/-- The number of passes of a run that step. -/
def stepsTaken (s : Clocks) (es : List Timing) : Nat :=
  machine.total (fun s e => if s.Steps e then 1 else 0) s es

/-- The gap between the first two readings and the age of the last are within `latency`. -/
def Prompt (latency : Nat) (e : Timing) : Prop := e.toB ≤ latency ∧ e.toSet ≤ latency

theorem stepsTaken_mul_le {latency : Nat} (hlatency : latency ≤ 100000000) {es : List Timing}
    (hadm : machine.Admits s es) (huntorn : machine.Along Untorn s es)
    (hprompt : ∀ e ∈ es, Prompt latency e) :
    stepsTaken s es * (100000001 - latency) ≤
      excess latency s + (es.map fun e => e.wander.natAbs).sum := by
  have halong : machine.Along (fun s e => Enabled s e ∧ Untorn s e ∧ Prompt latency e) s es :=
    hadm.and (huntorn.and (Machine.along_event_iff.mpr hprompt))
  have hpaid := Machine.total_add_potential_le (m := machine)
    (fun s e => (if s.Steps e then 1 else 0) * (100000001 - latency))
    (fun _ e => e.wander.natAbs) (excess latency)
    (fun _ _ ⟨hen, huntorn, hB, hset⟩ => cost_add_excess_le hen huntorn hlatency hB hset) halong
  rw [Machine.total_mul, Machine.total_of_event] at hpaid
  exact Nat.le_trans (Nat.le_add_right _ _) hpaid

theorem excess_of_steps {latency : Nat} (h : Enabled s e) (huntorn : s.Untorn e)
    (hB : e.toB ≤ latency) (hset : e.toSet ≤ latency) (hstep : s.Steps e) :
    excess latency (step s e) = 0 := by
  rw [excess, lead_step h huntorn, if_pos hstep]
  omega

theorem lead_le_of_pass {latency : Nat} (h : Enabled s e) (huntorn : s.Untorn e)
    (hlatency : latency ≤ 100000000) (hB : e.toB ≤ latency) (hset : e.toSet ≤ latency) :
    (step s e).lead.natAbs ≤ 100000000 := by
  have hsteps := steps_iff h huntorn
  rw [lead_step h huntorn]
  by_cases hstep : s.Steps e
  · rw [if_pos hstep]
    omega
  · have hnear := mt hsteps.mpr hstep
    rw [if_neg hstep]
    omega

/-- From any state of the two clocks, with no carry of the low register within a read, and
with readings and settings that take at most `latency` each: after every pass the clock is
within 100 ms of the card, and every step but the first is paid for by 100 ms, less the
latency, that the clocks wander apart. -/
theorem steps_le {latency : Nat} (hlatency : latency ≤ 100000000) (s : Clocks)
    (es : List Timing) (hadm : machine.Admits s es) (huntorn : machine.Along Untorn s es)
    (hprompt : ∀ e ∈ es, Prompt latency e) :
    machine.Along (fun s e => (step s e).lead.natAbs ≤ 100000000) s es ∧
      (stepsTaken s es - 1) * (100000001 - latency) ≤
        (es.map fun e => e.wander.natAbs).sum := by
  induction es generalizing s with
  | nil => exact ⟨trivial, by simp [stepsTaken, Machine.total]⟩
  | cons e es ih =>
    obtain ⟨hen, hrest⟩ := hadm
    obtain ⟨hwords, huntorns⟩ := huntorn
    obtain ⟨hB, hset⟩ := hprompt e List.mem_cons_self
    have hprompts : ∀ e ∈ es, Prompt latency e := fun e he => hprompt e (List.mem_cons_of_mem _ he)
    obtain ⟨hwithin, hcount⟩ := ih (step s e) hrest huntorns hprompts
    refine ⟨⟨lead_le_of_pass hen hwords hlatency hB hset, hwithin⟩, ?_⟩
    have hcons : stepsTaken s (e :: es) = (if s.Steps e then 1 else 0) + stepsTaken (step s e) es :=
      rfl
    rw [hcons, List.map_cons, List.sum_cons]
    by_cases hstep : s.Steps e
    · have hpaid := stepsTaken_mul_le (s := step s e) hlatency hrest huntorns hprompts
      rw [excess_of_steps hen hwords hB hset hstep, Nat.zero_add] at hpaid
      rw [if_pos hstep, Nat.add_sub_cancel_left]
      omega
    · rw [if_neg hstep, Nat.zero_add]
      omega

/-- The clock begins ten seconds behind the card, and loses another microsecond before the
second pass. -/
def lateClock : Clocks where
  card := 1700000045000000000
  system := 1700000000000000000
  observedDrift := 0

def latePasses : List Timing :=
  [{ wait := 0, wander := 0, toHigh := 120, toA := 200, toB := 300, toD := 250, toSet := 900 },
    { wait := 1000000000, wander := -1000, toHigh := 150, toA := 200, toB := 300, toD := 250
      toSet := 900 }]

theorem steps_le_late_clock :
    machine.Along (fun s e => (step s e).lead.natAbs ≤ 100000000) lateClock latePasses ∧
      (stepsTaken lateClock latePasses - 1) * (100000001 - 900) ≤
        (latePasses.map fun e => e.wander.natAbs).sum := by
  refine steps_le (by decide) lateClock latePasses
    ⟨⟨by decide, by decide, by decide, by decide, by decide⟩,
      ⟨by decide, by decide, by decide, by decide, by decide⟩, trivial⟩
    ⟨by decide, by decide, trivial⟩ fun e he => ?_
  rcases List.mem_cons.mp he with rfl | he
  · exact ⟨by decide, by decide⟩
  · rw [List.mem_singleton.mp he]
    exact ⟨by decide, by decide⟩

end Clocks

end TimeTools.Sync
