import TimeTools.Foundation.DayTime
import TimeTools.Timer.Handler

/-!
# The first expiry

The timers take the start target, by `mktime` from the given time of day or from
the next second that is a multiple of 5, less a reading of the clock as the first
`it_value`.  The difference is formed in signed words and stored in an unsigned
one.  While the target is ahead it is the time that remains.  A target that has
come gives zero, which disarms the timer, and one that has passed a difference
close to 2^64 (`arms_iff_ahead`).

`localtime` and `mktime` are calendar arithmetic at a fixed offset from UTC, so
that `tm_isdst` has no part in it: between the start and the target the clocks are
not changed.  The day stands for the year, month and day of the month of a
`struct tm`.
-/

namespace TimeTools.Timer

open FixedWidth SignedSplit

structure DateTm where
  day : Int
  time : Tm
  deriving DecidableEq, Repr

/-- One offset for all instants, as a zone has on a day without a clock change. -/
def localtime (utcOffset t : Int) : DateTm :=
  { day := DayTime.day (t + utcOffset)
    time :=
      { tmHour := .ofInt (DayTime.hour (t + utcOffset))
        tmMin := .ofInt (DayTime.minute (t + utcOffset))
        tmSec := .ofInt (DayTime.second (t + utcOffset)) } }

def mktime (utcOffset : Int) (tmp : DateTm) : Int64 :=
  .ofInt (DayTime.instant tmp.day tmp.time.tmHour.toInt tmp.time.tmMin.toInt
    tmp.time.tmSec.toInt - utcOffset)

/-- The fields that `main` gives to `mktime`: those of `-t`, or with `flag` set the
next second that is a multiple of 5, which may be 60. -/
def startTm (tmp : DateTm) : Option Tm → DateTm
  | some tm => { tmp with time := tm }
  | none => { tmp with time.tmSec := tmp.time.tmSec - tmp.time.tmSec % 5 + 5 }

def startTime (utcOffset : Int) (t0 : Int64) (start : Option Tm) : Int64 :=
  mktime utcOffset (startTm (localtime utcOffset t0.toInt) start)

/-- `utime` in `main_user_timer`, `rdtime_cost` and `tcp_client`. -/
def utime (timep : Int64) (tv : Timeval) : UInt64 :=
  (timep * 1000000 - (tv.tvSec * 1000000 + tv.tvUsec)).toUInt64

/-- `tick.it_value`. -/
def tickValue (utime : UInt64) : Timeval :=
  { tvSec := (utime / 1000000).toInt64, tvUsec := (utime % 1000000).toInt64 }

/-- `starttime` in `posix_timer`. -/
def starttime (timep : Int64) (curtime : Timespec) : UInt64 :=
  (timep * nsec - (curtime.tvSec * nsec + curtime.tvNsec)).toUInt64

/-- `its.it_value`. -/
def itsValue (starttime : UInt64) : Timespec :=
  { tvSec := (starttime / 1000000000).toInt64, tvNsec := (starttime % 1000000000).toInt64 }

/-! ## The target -/

/-- What the programs are asked for: the instant of the current day with the given
time, or the first after `t0` whose seconds are a multiple of 5. -/
def IsTarget (utcOffset t0 : Int) : Option Tm → Int → Prop
  | some tm, target =>
    localtime utcOffset target = { day := (localtime utcOffset t0).day, time := tm }
  | none, target =>
    IsLeast {t | t0 < t ∧ (localtime utcOffset t).time.tmSec.toInt % 5 = 0} target

theorem toInt_localtime (utcOffset t : Int) :
    (localtime utcOffset t).time.tmHour.toInt = DayTime.hour (t + utcOffset) ∧
      (localtime utcOffset t).time.tmMin.toInt = DayTime.minute (t + utcOffset) ∧
      (localtime utcOffset t).time.tmSec.toInt = DayTime.second (t + utcOffset) := by
  obtain ⟨hhour, hhour'⟩ := DayTime.hour_range (t + utcOffset)
  obtain ⟨hmin, hmin'⟩ := DayTime.minute_range (t + utcOffset)
  obtain ⟨hsec, hsec'⟩ := DayTime.second_range (t + utcOffset)
  refine ⟨Int32.toInt_ofInt_of_le ?_ ?_, Int32.toInt_ofInt_of_le ?_ ?_,
    Int32.toInt_ofInt_of_le ?_ ?_⟩ <;> omega

theorem mktime_localtime (utcOffset t : Int) :
    mktime utcOffset (localtime utcOffset t) = .ofInt t := by
  obtain ⟨hhour, hmin, hsec⟩ := toInt_localtime utcOffset t
  rw [mktime, hhour, hmin, hsec, localtime, DayTime.instant_fields, Int.add_sub_cancel]

theorem toInt_nextFifth {tmSec : Int32} (hlo : 0 ≤ tmSec.toInt) (hhi : tmSec.toInt < 60) :
    (tmSec - tmSec % 5 + 5).toInt = tmSec.toInt - tmSec.toInt % 5 + 5 := by
  have hmod : (tmSec % 5).toInt = tmSec.toInt % 5 := by
    rw [Int32.toInt_mod]
    exact Int.tmod_eq_emod_of_nonneg hlo
  have hfive : (5 : Int32).toInt = 5 := rfl
  rw [Int32.toInt_add, Int32.toInt_sub, hmod, hfive, Int.bmod_add_bmod, bmod32_eq_of_fits]
  constructor <;> omega

theorem mktime_startTm_none (utcOffset t : Int) :
    mktime utcOffset (startTm (localtime utcOffset t) none) =
      .ofInt (t - (t + utcOffset) % 5 + 5) := by
  obtain ⟨hhour, hmin, hsec⟩ := toInt_localtime utcOffset t
  obtain ⟨hlo, hhi⟩ := DayTime.second_range (t + utcOffset)
  have hfields := DayTime.instant_fields (t + utcOffset)
  have hfifth := DayTime.second_emod (show (5 : Int) ∣ 60 by decide) (t + utcOffset)
  rw [← hsec] at hlo hhi
  rw [mktime, startTm, hhour, hmin, toInt_nextFifth hlo hhi, hsec, hfifth]
  rw [DayTime.instant] at hfields
  congr 1
  simp only [localtime, DayTime.instant]
  omega

theorem isTarget_none_iff {utcOffset t0 target : Int} :
    IsTarget utcOffset t0 none target ↔ target = t0 - (t0 + utcOffset) % 5 + 5 := by
  have hleast := DayTime.isLeast_next (show (0 : Int) < 5 by decide) (t0 + utcOffset)
  have hset : ∀ t, (localtime utcOffset t).time.tmSec.toInt % 5 = (t + utcOffset) % 5 := by
    intro t
    rw [(toInt_localtime utcOffset t).2.2, DayTime.second_emod (by decide)]
  have hnext : IsLeast {t | t0 < t ∧ (t + utcOffset) % 5 = 0}
      (t0 - (t0 + utcOffset) % 5 + 5) := by
    obtain ⟨⟨hlt, hfive⟩, hleast⟩ := hleast
    refine ⟨⟨by omega, ?_⟩, fun t ht => ?_⟩
    · rw [← hfive]
      congr 1
      omega
    · have hle := hleast ⟨Int.add_lt_add_right ht.1 utcOffset, ht.2⟩
      omega
  simp only [IsTarget, hset]
  refine ⟨fun h => h.unique hnext, fun h => ?_⟩
  rw [h]
  exact hnext

/-- `mktime` gives the target, as a word. -/
theorem startTime_eq {utcOffset : Int} {t0 : Int64} {start : Option Tm} {target : Int}
    (h : IsTarget utcOffset t0.toInt start target) :
    startTime utcOffset t0 start = .ofInt target := by
  cases start with
  | none => rw [startTime, mktime_startTm_none, isTarget_none_iff.mp h]
  | some tm =>
    rw [startTime, ← mktime_localtime utcOffset target]
    exact congrArg (mktime utcOffset) h.symm

theorem target_le {utcOffset t0 : Int} {start : Option Tm} {target : Int}
    (h : IsTarget utcOffset t0 start target) : target ≤ t0 + 86400 := by
  cases start with
  | none =>
    rw [isTarget_none_iff.mp h]
    omega
  | some tm =>
    have hday := DayTime.lt_add_of_day_eq (congrArg DateTm.day h)
    omega

/-! ## The difference -/

/-- What is armed: a duration in units of `1 / unit` second, its source the stored
difference, when `remaining` units are left to the target. -/
structure Arms (unit tvSec tvFrac : Int) (stored : UInt64) (remaining : Int) : Prop where
  valid : 0 ≤ tvSec ∧ 0 ≤ tvFrac ∧ tvFrac < unit
  nonzero : total unit tvSec tvFrac ≠ 0
  within_day : total unit tvSec tvFrac ≤ 86400 * unit
  exact : 0 < remaining → total unit tvSec tvFrac = remaining
  unwrapped : (stored.toNat : Int) = remaining

/-- The quotient and the remainder of the stored difference arm exactly what remains,
up to a day ahead, and nothing that is not ahead. -/
theorem arms_iff (unit : UInt64) {stored : UInt64} {remaining : Int}
    (hunit : 1000000 ≤ unit.toNat) (hunit' : unit.toNat ≤ 1000000000)
    (hstored : (stored.toNat : Int) = remaining % 2 ^ 64) (hday : remaining ≤ 86400 * unit.toNat) :
    Arms unit.toNat (stored / unit).toInt64.toInt (stored % unit).toInt64.toInt stored
      remaining ↔ 0 < remaining := by
  have hlt := stored.toNat_lt
  have hdiv : (stored / unit).toNat = stored.toNat / unit.toNat := UInt64.toNat_div _ _
  have hmod : (stored % unit).toNat = stored.toNat % unit.toNat := UInt64.toNat_mod _ _
  have hsmall : stored.toNat / unit.toNat < 2 ^ 63 := by
    have := Nat.div_le_div_left hunit (show 0 < 1000000 by omega) (a := stored.toNat)
    omega
  have hfrac : stored.toNat % unit.toNat < unit.toNat := Nat.mod_lt _ (by omega)
  have hsec := toInt_toInt64_of_lt (a := stored / unit) (by omega)
  have hrest := toInt_toInt64_of_lt (a := stored % unit) (by omega)
  have htotal : total unit.toNat (stored / unit).toInt64.toInt (stored % unit).toInt64.toInt =
      stored.toNat := by
    rw [total, hsec, hrest, hdiv, hmod]
    exact_mod_cast Nat.div_add_mod' stored.toNat unit.toNat
  constructor
  · intro h
    have hnonzero := h.nonzero
    have hunwrapped := h.unwrapped
    rw [htotal] at hnonzero
    omega
  · intro hahead
    have hremaining : (stored.toNat : Int) = remaining := by
      rw [hstored, Int.emod_eq_of_lt (by omega) (by omega)]
    rw [hsec, hrest] at htotal ⊢
    refine ⟨⟨by omega, by omega, by omega⟩, ?_, ?_, fun _ => ?_, hremaining⟩ <;> omega

/-- The products and the sum may leave the word, the difference is the true one modulo
the word. -/
theorem toNat_difference (timep : Int) (tvSec tvFrac unit : Int64) :
    ((Int64.ofInt timep * unit - (tvSec * unit + tvFrac)).toUInt64.toNat : Int) =
      (timep * unit.toInt - total unit.toInt tvSec.toInt tvFrac.toInt) % 2 ^ 64 := by
  have hword : (Int64.ofInt timep).toInt = timep.bmod (2 ^ 64) := Int64.toInt_ofInt
  rw [toNat_toUInt64, Int64.toInt_sub, Int64.toInt_add, Int64.toInt_mul, Int64.toInt_mul, hword,
    Int.bmod_mul_bmod, Int.bmod_add_bmod, Int.bmod_sub_bmod, Int.sub_bmod_bmod, total]
  exact Int.bmod_emod

/-- In all four programs the timer is armed with exactly the time that remains when
the target is after the reading of the clock, and wrongly when it is not. -/
theorem arms_iff_ahead {utcOffset : Int} {t0 : Int64} {start : Option Tm} {target : Int}
    (htarget : IsTarget utcOffset t0.toInt start target) :
    (∀ tv : Timeval, t0.toInt * 1000000 ≤ total 1000000 tv.tvSec.toInt tv.tvUsec.toInt →
      let now := total 1000000 tv.tvSec.toInt tv.tvUsec.toInt
      let stored := utime (startTime utcOffset t0 start) tv
      (Arms 1000000 (tickValue stored).tvSec.toInt (tickValue stored).tvUsec.toInt stored
        (target * 1000000 - now) ↔ now < target * 1000000)) ∧
    (∀ curtime : Timespec, t0.toInt * 1000000000 ≤ curtime.total →
      let stored := starttime (startTime utcOffset t0 start) curtime
      (Arms 1000000000 (itsValue stored).tvSec.toInt (itsValue stored).tvNsec.toInt stored
        (target * 1000000000 - curtime.total) ↔ curtime.total < target * 1000000000)) := by
  have hle := target_le htarget
  rw [startTime_eq htarget]
  refine ⟨fun tv hnow => ?_, fun curtime hnow => ?_⟩
  · have hstored := toNat_difference target tv.tvSec tv.tvUsec 1000000
    have hday : target * 1000000 - total 1000000 tv.tvSec.toInt tv.tvUsec.toInt ≤
        86400 * 1000000 := by omega
    exact (arms_iff 1000000 (by decide) (by decide) hstored hday).trans Int.sub_pos
  · have hstored := toNat_difference target curtime.tvSec curtime.tvNsec nsec
    have hday : target * 1000000000 - curtime.total ≤ 86400 * 1000000000 := by omega
    exact (arms_iff 1000000000 (by decide) (by decide) hstored hday).trans Int.sub_pos

theorem arms_ahead_by_default :
    Arms 1000000 1 750000 1750000 1750000 ∧ Arms 1000000000 1 750000000 1750000000 1750000000 := by
  have htarget : IsTarget 28800 (1700000003 : Int64).toInt none 1700000005 :=
    isTarget_none_iff.mpr (by decide)
  obtain ⟨hmicro, hnano⟩ := arms_iff_ahead htarget
  exact ⟨(hmicro ⟨1700000003, 250000⟩ (by decide)).mpr (by decide),
    (hnano ⟨1700000003, 250000000⟩ (by decide)).mpr (by decide)⟩

/-- At 22:13:30, `-t 22:13:20` arms the timer for half a million years ahead and
`-t 22:13:30` not at all. -/
theorem not_arms_past :
    (IsTarget 0 (1700000010 : Int64).toInt (some ⟨22, 13, 20⟩) 1700000000 ∧
      tickValue (utime (startTime 0 1700000010 (some ⟨22, 13, 20⟩)) ⟨1700000010, 0⟩) =
        ⟨18446744073699, 551616⟩ ∧
      ¬ Arms 1000000 18446744073699 551616
        (utime (startTime 0 1700000010 (some ⟨22, 13, 20⟩)) ⟨1700000010, 0⟩) (-10000000)) ∧
    (IsTarget 0 (1700000010 : Int64).toInt (some ⟨22, 13, 30⟩) 1700000010 ∧
      tickValue (utime (startTime 0 1700000010 (some ⟨22, 13, 30⟩)) ⟨1700000010, 0⟩) = ⟨0, 0⟩ ∧
      ¬ Arms 1000000 0 0
        (utime (startTime 0 1700000010 (some ⟨22, 13, 30⟩)) ⟨1700000010, 0⟩) 0) := by
  have hpast : localtime 0 1700000000 = { day := 19675, time := ⟨22, 13, 20⟩ } := by decide
  have hnow : localtime 0 1700000010 = { day := 19675, time := ⟨22, 13, 30⟩ } := by decide
  refine ⟨⟨hpast, by decide, fun h => ?_⟩, hnow, by decide, fun h => ?_⟩
  · exact absurd h.within_day (by decide)
  · exact h.nonzero rfl

end TimeTools.Timer
