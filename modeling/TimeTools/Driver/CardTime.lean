import TimeTools.Driver.Ioctl

/-!
# What the card time means

`HOST_GET_PCIE_TIME` divides the count and subtracts 35 from the quotient;
`HOST_GET_OFFSET` subtracts the same 35 seconds in nanoseconds before it compares.
On every count but zero the two agree (`cardIoctlsAgree_iff`).

`host_board_init` can seed the counter from the system clock.  It writes the system
time as it is, while both ioctls take what they read for 35 seconds more, so an
offset of 35 seconds is read back (`offset_after_seed`).
-/

namespace TimeTools.Driver

open FixedWidth ByteOrder

theorem toInt_pcieTime_tvNsec (c : UInt64) :
    (pcieTime c).tvNsec.toInt = (c.toNat % 1000000000 : Nat) := by
  have hlt : c.toNat % 1000000000 < 1000000000 := Nat.mod_lt _ (by omega)
  have hmod : (c % 1000000000).toNat = c.toNat % 1000000000 := UInt64.toNat_mod _ _
  have hnsec : (c % 1000000000).toUInt32.toUInt64.toNat = c.toNat % 1000000000 := by
    rw [UInt32.toNat_toUInt64, UInt64.toNat_toUInt32, hmod]
    exact Nat.mod_eq_of_lt (by omega)
  rw [pcieTime, toInt_toInt64_of_lt (by omega), hnsec]

/-- The seconds of a small count wrap below zero and are read as negative. -/
theorem toInt_pcieTime_tvSec (c : UInt64) :
    (pcieTime c).tvSec.toInt = (c.toNat / 1000000000 : Nat) - 35 := by
  have hc := c.toNat_lt
  have hdiv : (c / 1000000000).toNat = c.toNat / 1000000000 := UInt64.toNat_div _ _
  have hsub : (pcieTime c).tvSec = (c / 1000000000).toInt64 - 35 := rfl
  have h35 : (35 : Int64).toInt = 35 := rfl
  have hquot := toInt_toInt64_of_lt (a := c / 1000000000) (by omega)
  rw [hsub, toInt_sub_of_fits] <;> rw [hquot, hdiv, h35]
  exact ⟨by omega, by omega⟩

theorem pcieTime_valid (c : UInt64) : (pcieTime c).Valid := by
  rw [Timespec.Valid, toInt_pcieTime_tvNsec]
  omega

theorem pcieTime_total (c : UInt64) : (pcieTime c).total = (c.toNat : Int) - 35000000000 := by
  rw [Timespec.total_def, toInt_pcieTime_tvSec, toInt_pcieTime_tvNsec]
  omega

/-- What the two ioctls promise to a caller who reads one count `c` at the system
time `sysTime`: a return of 0 is never without a result, and what is written is right. -/
structure CardIoctlsAgree (c : UInt64) (sysTime : Timespec) : Prop where
  pcieTime : ∀ copyFails,
    (hostIoctl .hostGetPcieTime (Regs.ofCounter c) sysTime copyFails).1 = 0 →
      ∃ t, (hostIoctl .hostGetPcieTime (Regs.ofCounter c) sysTime copyFails).2 =
          some (.timespec t) ∧ t.Valid ∧ t.total = (c.toNat : Int) - 35000000000
  offset : ∀ copyFails,
    (hostIoctl .hostGetOffset (Regs.ofCounter c) sysTime copyFails).1 = 0 →
      ∃ v, (hostIoctl .hostGetOffset (Regs.ofCounter c) sysTime copyFails).2 = some (.s64 v) ∧
        v.toInt = sysTime.total - ((c.toNat : Int) - 35000000000)
  written : ∀ copyFails v,
    (hostIoctl .hostGetOffset (Regs.ofCounter c) sysTime copyFails).2 = some (.s64 v) →
      v.toInt = sysTime.total - ((c.toNat : Int) - 35000000000)

theorem hostIoctl_pcieTime_zero (sysTime : Timespec) (copyFails : Bool) :
    hostIoctl .hostGetPcieTime (Regs.ofCounter 0) sysTime copyFails = (0, none) := by
  rw [hostIoctl, readTmrCnt_ofCounter, if_neg (not_not_intro rfl)]

theorem hostIoctl_pcieTime_of_ne {c : UInt64} (hc : c ≠ 0) (sysTime : Timespec)
    (copyFails : Bool) :
    hostIoctl .hostGetPcieTime (Regs.ofCounter c) sysTime copyFails =
      copyToUser copyFails (.timespec (pcieTime c)) := by
  rw [hostIoctl, readTmrCnt_ofCounter, if_pos hc]

theorem hostIoctl_offset (c : UInt64) (sysTime : Timespec) (copyFails : Bool) :
    hostIoctl .hostGetOffset (Regs.ofCounter c) sysTime copyFails =
      copyToUser copyFails (.s64 (offsetOf c sysTime)) := by
  rw [hostIoctl, hostGetOffset, readTmrCnt_ofCounter]

/-- The data of a successful copy, and none of a failed one. -/
theorem copyToUser_eq_some {fails : Bool} {data data' : UserData}
    (h : (copyToUser fails data).2 = some data') : data = data' := by
  cases fails with
  | true => cases h
  | false => exact Option.some.inj h

theorem copyToUser_of_zero {fails : Bool} {data : UserData} (h : (copyToUser fails data).1 = 0) :
    copyToUser fails data = (0, some data) := by
  cases fails with
  | true => cases h
  | false => rfl

/-- The two ioctls agree on every count but zero, on which one of them reports
success and writes nothing. -/
theorem cardIoctlsAgree_iff (c : UInt64) (sysTime : Timespec)
    (h : FitsInt64 (sysTime.total - ((c.toNat : Int) - 35000000000))) :
    CardIoctlsAgree c sysTime ↔ c ≠ 0 := by
  constructor
  · intro hagree hc
    subst hc
    have hzero := hostIoctl_pcieTime_zero sysTime false
    obtain ⟨t, ht, -⟩ := hagree.pcieTime false (by rw [hzero])
    rw [hzero] at ht
    cases ht
  · intro hc
    refine ⟨fun copyFails hret => ?_, fun copyFails hret => ?_, fun copyFails v hv => ?_⟩
    · rw [hostIoctl_pcieTime_of_ne hc] at hret ⊢
      rw [copyToUser_of_zero hret]
      exact ⟨pcieTime c, rfl, pcieTime_valid c, pcieTime_total c⟩
    · rw [hostIoctl_offset] at hret ⊢
      rw [copyToUser_of_zero hret]
      exact ⟨offsetOf c sysTime, rfl, toInt_offsetOf_of_fits h⟩
    · rw [hostIoctl_offset] at hv
      obtain rfl := UserData.s64.inj (copyToUser_eq_some hv)
      exact toInt_offsetOf_of_fits h

theorem cardIoctlsAgree_in_2023 : CardIoctlsAgree 1700000035000000007 ⟨1700000000, 250⟩ :=
  (cardIoctlsAgree_iff 1700000035000000007 ⟨1700000000, 250⟩ (by decide)).mpr (by decide)

theorem not_cardIoctlsAgree_at_zero :
    ¬ ∀ (c : UInt64) (sysTime : Timespec),
      FitsInt64 (sysTime.total - ((c.toNat : Int) - 35000000000)) → CardIoctlsAgree c sysTime := by
  intro h
  obtain ⟨t, ht, -⟩ := (h 0 ⟨1700000000, 0⟩ (by decide)).pcieTime false
    (by rw [hostIoctl_pcieTime_zero])
  rw [hostIoctl_pcieTime_zero] at ht
  cases ht

/-! ## Seeding the counter -/

def tmrPeriod : UInt64 := 5

/-- `htonl` on a little-endian host. -/
def htonl (x : UInt32) : UInt32 := byteSwap32 x

/-- `cur_cnt` of `host_board_init` after it is rounded; `div_u64_rem` leaves its
remainder in a `u32`. -/
def seedCount (syncSysTime : Timespec) : UInt64 :=
  let remainder := (curCnt syncSysTime % tmrPeriod).toUInt32
  curCnt syncSysTime - remainder.toUInt64

/-- The registers after the two writes under `SYNC_FROM_SYSTEM_TIME`. -/
def seedRegs (syncSysTime : Timespec) : Regs :=
  let hi := (seedCount syncSysTime >>> 32).toUInt32
  let lo := (seedCount syncSysTime &&& 0xffffffff).toUInt32
  { tmrCntL := htonl lo, tmrCntH := htonl hi }

/-- What the seed is for: no offset but the rounding is left, and the card time is
the system time without it. -/
structure SeedAgrees (sysTime : Timespec) : Prop where
  nonneg : 0 ≤ (hostGetOffset (seedRegs sysTime) sysTime).toInt
  lt_period : (hostGetOffset (seedRegs sysTime) sysTime).toInt < tmrPeriod.toNat
  pcieTime : ∃ t, hostIoctl .hostGetPcieTime (seedRegs sysTime) sysTime false =
      (0, some (.timespec t)) ∧
    t.total = sysTime.total - (hostGetOffset (seedRegs sysTime) sysTime).toInt

theorem seedRegs_eq (sysTime : Timespec) :
    seedRegs sysTime = Regs.ofCounter (seedCount sysTime) := by
  have hlo : (seedCount sysTime &&& 0xffffffff).toUInt32 = (seedCount sysTime).toUInt32 := by
    apply UInt32.toNat_inj.mp
    rw [UInt64.toNat_toUInt32, UInt64.toNat_toUInt32, UInt64.toNat_and]
    exact (congrArg (· % 2 ^ 32) (Nat.and_two_pow_sub_one_eq_mod _ 32)).trans (Nat.mod_mod _ _)
  simp only [seedRegs, Regs.ofCounter, htonl, hlo]

theorem toInt_seedCount (sysTime : Timespec) :
    (seedCount sysTime).toInt64 =
      (curCnt sysTime).toInt64 - (curCnt sysTime % tmrPeriod).toInt64 := by
  have hrem : (curCnt sysTime % tmrPeriod).toUInt32.toUInt64 = curCnt sysTime % tmrPeriod := by
    apply UInt64.toNat_inj.mp
    have hlt : (curCnt sysTime % tmrPeriod).toNat < 5 := by
      rw [UInt64.toNat_mod]
      exact Nat.mod_lt _ (by decide)
    rw [UInt32.toNat_toUInt64, UInt64.toNat_toUInt32]
    exact Nat.mod_eq_of_lt (by omega)
  rw [seedCount, hrem, UInt64.toInt64_sub]

/-- The offset read back after a seed is the 35 seconds that the seed leaves out and
the rounding, for every system time. -/
theorem toInt_offset_after_seed (sysTime : Timespec) :
    (hostGetOffset (seedRegs sysTime) sysTime).toInt =
      35000000000 + ((curCnt sysTime).toNat % 5 : Nat) := by
  have hlt : (curCnt sysTime).toNat % 5 < 5 := Nat.mod_lt _ (by omega)
  have hrem : (curCnt sysTime % tmrPeriod).toInt64.toInt = ((curCnt sysTime).toNat % 5 : Nat) := by
    rw [toInt_toInt64_of_lt] <;> rw [UInt64.toNat_mod]
    · rfl
    · exact Nat.lt_trans hlt (by omega)
  have htai : taiOffset.toInt64.toInt = 35000000000 := by decide
  have hdiff : hostGetOffset (seedRegs sysTime) sysTime =
      (curCnt sysTime % tmrPeriod).toInt64 + taiOffset.toInt64 := by
    rw [hostGetOffset, seedRegs_eq, readTmrCnt_ofCounter, offsetOf_eq, toInt_seedCount]
    grind
  rw [hdiff, toInt_add_of_fits] <;> rw [hrem, htai]
  · omega
  · exact ⟨by omega, by omega⟩

theorem offset_after_seed (sysTime : Timespec) :
    (hostGetOffset (seedRegs sysTime) sysTime).toInt =
        35000000000 + ((curCnt sysTime).toNat % 5 : Nat) ∧
      ¬ SeedAgrees sysTime := by
  have hoffset := toInt_offset_after_seed sysTime
  refine ⟨hoffset, fun h => ?_⟩
  have hlt := h.lt_period
  have hperiod : tmrPeriod.toNat = 5 := rfl
  rw [hoffset, hperiod] at hlt
  omega

theorem not_seedAgrees_in_2023 :
    ¬ ∀ sysTime : Timespec, sysTime.Valid → 35000000000 ≤ sysTime.total → SeedAgrees sysTime := by
  intro h
  have hlt := (h ⟨1700000000, 3⟩ (by decide) (by decide)).lt_period
  exact absurd hlt (by decide)

end TimeTools.Driver
