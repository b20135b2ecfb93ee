import TimeTools.Driver.Ioctl

/-!
# The offset that a guest measures

`get_offset` of `guest_sync` repeats the computation of `HOST_GET_OFFSET` from a
hypercall instead of the registers.  Its `TAI_OFFSET` is 35, subtracted from a
count of nanoseconds, where the driver's is 35 seconds in nanoseconds.

The hypercall is implemented outside the repository, so it is a parameter.
-/

namespace TimeTools.Sync.GuestSync

open FixedWidth Driver

def taiOffset : UInt64 := 35

abbrev Hypercall := UInt64 → UInt64 × UInt64

/-- The hypercall returns the raw counter split into seconds and nanoseconds. -/
def SplitsCounter (kvmHcGetPcieTime : Hypercall) : Prop :=
  ∀ c, kvmHcGetPcieTime c = (c / 1000000000, c % 1000000000)

def splitCounter (c : UInt64) : UInt64 × UInt64 := (c / 1000000000, c % 1000000000)

def getPcieTime (kvmHcGetPcieTime : Hypercall) (c : UInt64) : Timespec :=
  { tvSec := (kvmHcGetPcieTime c).1.toInt64, tvNsec := (kvmHcGetPcieTime c).2.toInt64 }

def getOffset (kvmHcGetPcieTime : Hypercall) (c : UInt64) (curTime : Timespec) : Int64 :=
  let tmrTime := getPcieTime kvmHcGetPcieTime c
  let tmrCnt := tmrTime.tvSec.toUInt64 * 1000000000 + tmrTime.tvNsec.toUInt64
  let tmrCnt := tmrCnt - taiOffset
  if curCnt curTime < tmrCnt then (-(tmrCnt - curCnt curTime)).toInt64
  else (curCnt curTime - tmrCnt).toInt64

variable {kvmHcGetPcieTime : Hypercall}

theorem recombine (c : UInt64) : c / 1000000000 * 1000000000 + c % 1000000000 = c := by
  have hc := c.toNat_lt
  apply UInt64.toNat_inj.mp
  simp only [UInt64.toNat_add, UInt64.toNat_mul, UInt64.toNat_div, UInt64.toNat_mod,
    UInt64.reduceToNat]
  omega

theorem getOffset_eq (h : SplitsCounter kvmHcGetPcieTime) (c : UInt64) (curTime : Timespec) :
    getOffset kvmHcGetPcieTime c curTime =
      (curCnt curTime).toInt64 - (c.toInt64 - taiOffset.toInt64) := by
  have hcount : (getPcieTime kvmHcGetPcieTime c).tvSec.toUInt64 * 1000000000 +
      (getPcieTime kvmHcGetPcieTime c).tvNsec.toUInt64 = c := by
    simp only [getPcieTime, h c, UInt64.toUInt64_toInt64]
    exact recombine c
  simp only [getOffset, hcount]
  exact signed_distance (c - taiOffset) (curCnt curTime)

/-- On every count and every system time, the guest's offset is below the host's
by the 35 seconds that it leaves in, less 35 ns. -/
theorem getOffset_eq_sub (h : SplitsCounter kvmHcGetPcieTime) (c : UInt64) (curTime : Timespec) :
    getOffset kvmHcGetPcieTime c curTime =
      hostGetOffset (Regs.ofCounter c) curTime - 34999999965 := by
  have htai : (Driver.taiOffset.toInt64) = GuestSync.taiOffset.toInt64 + 34999999965 := by decide
  rw [getOffset_eq h, hostGetOffset, readTmrCnt_ofCounter, offsetOf_eq, htai]
  grind

/-- A guest and its host never measure the same offset from one card: the guest's
is off by a constant that no 64-bit wrap hides. -/
theorem getOffset_ne_hostGetOffset (h : SplitsCounter kvmHcGetPcieTime) (c : UInt64)
    (curTime : Timespec) :
    getOffset kvmHcGetPcieTime c curTime ≠ hostGetOffset (Regs.ofCounter c) curTime := by
  rw [getOffset_eq_sub h]
  intro heq
  have hzero : (34999999965 : Int64) = 0 := by grind
  exact absurd hzero (by decide)

theorem getOffset_ne_hostGetOffset_in_phase :
    getOffset splitCounter 1700000035000000000 ⟨1700000000, 0⟩ ≠
      hostGetOffset (Regs.ofCounter 1700000035000000000) ⟨1700000000, 0⟩ :=
  getOffset_ne_hostGetOffset (fun _ => rfl) 1700000035000000000 ⟨1700000000, 0⟩

theorem not_getOffset_eq_in_phase :
    SplitsCounter splitCounter ∧
    (hostGetOffset (Regs.ofCounter 1700000035000000000) ⟨1700000000, 0⟩).toInt = 0 ∧
    (getOffset splitCounter 1700000035000000000 ⟨1700000000, 0⟩).toInt = -34999999965 :=
  ⟨fun _ => rfl, by decide, by decide⟩

end TimeTools.Sync.GuestSync
