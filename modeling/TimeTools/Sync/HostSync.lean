import TimeTools.Driver.Ioctl
import TimeTools.Sync.Servo

/-!
# One pass of `host_sync`

A pass reads the offset through `HOST_GET_OFFSET`, splits it over `NSEC` and
hands it to `update_clock`.  The results follow the offset from the card
registers to the time that a step gives to `clock_settime`.
-/

namespace TimeTools.Sync

open FixedWidth SignedSplit Driver

/-- The adjusting branch of the main loop, after a successful `HOST_GET_OFFSET`. -/
def hostSyncPass (observedDrift : Int32) (regs : Regs) (curTime : Timespec) (r : Readings) :
    Int32 × ClockCall :=
  let offset := hostGetOffset regs curTime
  updateClock observedDrift (splitOffset offset) r

theorem diffFits_of_valid {x y : Timespec} (hx : x.Valid) (hy : y.Valid)
    (h : FitsInt64 (x.total - y.total)) : DiffFits x y := by
  obtain ⟨hxlo, hxhi⟩ := hx
  obtain ⟨hylo, hyhi⟩ := hy
  have hzero : (x.tvNsec.toInt - y.tvNsec.toInt).tdiv 1000000000 = 0 :=
    tdiv_eq_zero (by omega) (by omega)
  simp only [Timespec.total_def] at h
  unfold FitsInt64 at h
  refine ⟨?_, ?_, ?_⟩
  · constructor <;> omega
  · constructor <;> omega
  · rw [hzero]
    constructor <;> omega

/-- Taking a split offset from a valid reading, when the difference fits in
signed nanoseconds.  The remainder may be negative, so one second can carry. -/
theorem diffFits_of_canonical {x y : Timespec} (hx : x.Valid) (hy : y.Canonical)
    (h : FitsInt64 (x.total - y.total)) : DiffFits x y := by
  obtain ⟨hxlo, hxhi⟩ := hx
  have hlo := hy.lower
  have hhi := hy.upper
  have hcarry := tdiv_eq_ite (x.tvNsec.toInt - y.tvNsec.toInt) 1000000000
  simp only [Timespec.total_def] at h
  unfold FitsInt64 at h
  refine ⟨?_, ?_, ?_⟩ <;> constructor <;> omega

theorem sumFits_of_canonical {x y : Timespec} (hx : x.Canonical) (hy : y.Canonical)
    (hxt : FitsInt64 x.total) (hyt : FitsInt64 y.total) : SumFits x y := by
  have hxlo := hx.lower
  have hxhi := hx.upper
  have hylo := hy.lower
  have hyhi := hy.upper
  have hcarry := tdiv_eq_ite (x.tvNsec.toInt + y.tvNsec.toInt) 1000000000
  simp only [Timespec.total_def] at hxt hyt
  unfold FitsInt64 at hxt hyt
  refine ⟨?_, ?_, ?_⟩ <;> constructor <;> omega

/-- The time of a step is the last reading less the offset plus the gap between
the first two, in canonical form. -/
theorem steppedTime_spec {offset : Timespec} {r : Readings} (ho : offset.Canonical)
    (ha : r.timeTmpA.Valid) (hb : r.timeTmpB.Valid) (hd : r.timeTmpD.Valid)
    (hgap : FitsInt64 (r.timeTmpB.total - r.timeTmpA.total))
    (hbase : FitsInt64 (r.timeTmpD.total - offset.total)) :
    (steppedTime offset r).total =
      r.timeTmpD.total - offset.total + (r.timeTmpB.total - r.timeTmpA.total) ∧
    (steppedTime offset r).Canonical := by
  obtain ⟨hC, hCcan⟩ := subTime_spec (diffFits_of_valid hb ha hgap)
  obtain ⟨hE, hEcan⟩ := subTime_spec (diffFits_of_canonical hd ho hbase)
  have hsum := sumFits_of_canonical hEcan hCcan (by rwa [hE]) (by rwa [hC])
  obtain ⟨hF, hFcan⟩ := addTime_spec hsum
  rw [hE, hC] at hF
  exact ⟨hF, hFcan⟩

/-- A pass of `host_sync` from the card counter to `clock_settime`.  The offset is
exact also when the counter is below the TAI offset and wraps; the pass steps
exactly beyond 100 ms; and the time it sets is the exact correction of the last
reading, and valid whenever it is not before the epoch. -/
theorem hostSyncPass_exact (c : UInt64) (curTime : Timespec) (r : Readings)
    (observedDrift : Int32) (ha : r.timeTmpA.Valid) (hb : r.timeTmpB.Valid)
    (hd : r.timeTmpD.Valid)
    (hoffset : FitsInt64 (curTime.total - ((c.toNat : Int) - 35000000000)))
    (hgap : FitsInt64 (r.timeTmpB.total - r.timeTmpA.total))
    (hbase : FitsInt64
      (r.timeTmpD.total - (curTime.total - ((c.toNat : Int) - 35000000000)))) :
    let regs := Regs.ofCounter c
    let offset := (hostGetOffset regs curTime).toInt
    let call := (hostSyncPass observedDrift regs curTime r).2
    offset = curTime.total - ((c.toNat : Int) - 35000000000) ∧
    ((∃ time, call = .setTime time) ↔ 100000000 < offset.natAbs) ∧
    ∀ time, call = .setTime time →
      time.total = r.timeTmpD.total - offset + (r.timeTmpB.total - r.timeTmpA.total) ∧
      (0 ≤ time.total → time.Settable) := by
  intro regs offset call
  have hexact : offset = curTime.total - ((c.toNat : Int) - 35000000000) := by
    show (offsetOf (readTmrCnt (Regs.ofCounter c)) curTime).toInt = _
    rw [readTmrCnt_ofCounter, toInt_offsetOf_of_fits hoffset]
  have htotal : (splitOffset (hostGetOffset regs curTime)).total = offset :=
    splitOffset_total (hostGetOffset regs curTime)
  refine ⟨hexact, ?_, ?_⟩
  · rw [← takesStep_splitOffset]
    simp only [call, hostSyncPass, updateClock_setTime_iff, exists_and_left, exists_eq, and_true]
  · intro time htime
    obtain ⟨-, rfl⟩ := updateClock_setTime_iff.mp htime
    have hspec := steppedTime_spec (splitOffset_canonical (hostGetOffset regs curTime))
      ha hb hd hgap (by rw [htotal, hexact]; exact hbase)
    rw [htotal] at hspec
    exact ⟨hspec.1, hspec.2.settable⟩

theorem hostSyncPass_exact_card_ahead :
    (hostGetOffset (Regs.ofCounter 1700000040000000007) ⟨1700000000, 250⟩).toInt = -4999999757 ∧
    ∃ time, (hostSyncPass 0 (Regs.ofCounter 1700000040000000007) ⟨1700000000, 250⟩
        ⟨⟨1700000000, 999999999⟩, ⟨1700000001, 7⟩, ⟨1700000001, 100⟩⟩).2 = .setTime time ∧
      time.total = 1700000005999999865 ∧ time.Settable := by
  obtain ⟨hoffset, hbranch, htime⟩ := hostSyncPass_exact 1700000040000000007 ⟨1700000000, 250⟩
    ⟨⟨1700000000, 999999999⟩, ⟨1700000001, 7⟩, ⟨1700000001, 100⟩⟩ 0
    (by decide) (by decide) (by decide) (by decide) (by decide) (by decide)
  have hvalue := hoffset.trans
    (show _ = (-4999999757 : Int) by decide)
  obtain ⟨time, hcall⟩ := hbranch.mpr (by rw [hvalue]; decide)
  obtain ⟨htotal, hset⟩ := htime time hcall
  have htarget : time.total = 1700000005999999865 := by
    rw [htotal, hvalue]
    decide
  exact ⟨hvalue, time, hcall, htarget, hset (by rw [htarget]; decide)⟩

end TimeTools.Sync
