import TimeTools.Foundation.ByteOrder
import TimeTools.Timespec

/-!
# The card registers and `host_ioctl`

The card counts nanoseconds in two big-endian 32-bit registers.  Both ioctls that
use the counter read `TMR_CNT_L`, then `TMR_CNT_H`, and assemble a `u64`.  The
arithmetic after that is unsigned and wraps, and its result is read as signed.

The two reads are separate definitions (`lowWord`, `withHighWord`) because other
callers and the counter itself can act between them.
-/

namespace TimeTools.Driver

open FixedWidth ByteOrder

/-- `be32_to_cpu` on the little-endian hosts the driver runs on. -/
def be32ToCpu (x : UInt32) : UInt32 := byteSwap32 x

structure Regs where
  tmrCntL : UInt32
  tmrCntH : UInt32
  deriving DecidableEq, Repr

def Regs.ofCounter (c : UInt64) : Regs :=
  { tmrCntL := byteSwap32 c.toUInt32, tmrCntH := byteSwap32 (c >>> 32).toUInt32 }

def lowWord (raw : UInt32) : UInt64 := (be32ToCpu raw).toUInt64

def withHighWord (tmrCnt : UInt64) (raw : UInt32) : UInt64 :=
  tmrCnt ||| (be32ToCpu raw).toUInt64 <<< 32

def readTmrCnt (regs : Regs) : UInt64 := withHighWord (lowWord regs.tmrCntL) regs.tmrCntH

theorem readTmrCnt_ofCounter (c : UInt64) : readTmrCnt (Regs.ofCounter c) = c := by
  simp only [readTmrCnt, withHighWord, lowWord, be32ToCpu, Regs.ofCounter, byteSwap32_byteSwap32]
  exact or_shiftLeft_halves c

def taiOffset : UInt64 := 35000000000

def curCnt (curTime : Timespec) : UInt64 :=
  curTime.tvSec.toUInt64 * 1000000000 + curTime.tvNsec.toUInt64

def pcieTime (tmrCnt : UInt64) : Timespec :=
  { tvSec := (tmrCnt / 1000000000 - 35).toInt64
    tvNsec := (tmrCnt % 1000000000).toUInt32.toUInt64.toInt64 }

def offsetOf (tmrCnt : UInt64) (curTime : Timespec) : Int64 :=
  let tmrCnt := tmrCnt - taiOffset
  if curCnt curTime < tmrCnt then (-(tmrCnt - curCnt curTime)).toInt64
  else (curCnt curTime - tmrCnt).toInt64

def hostGetOffset (regs : Regs) (curTime : Timespec) : Int64 := offsetOf (readTmrCnt regs) curTime

inductive Cmd
  | hostGetPcieTime
  | hostGetLocalSystemTime
  | hostGetOffset
  | other
  deriving DecidableEq, Repr

inductive UserData
  | timespec (t : Timespec)
  | s64 (v : Int64)
  deriving DecidableEq, Repr

/-- The end of a command: `copy_to_user` either delivers the data or turns the
return value into `-EFAULT`. -/
def copyToUser (fails : Bool) (data : UserData) : Int32 × Option UserData :=
  if fails then (-14, none) else (0, some data)

/-- `host_ioctl` on registers that hold still: the return value and what reached
the caller.  A zero count copies nothing and still returns 0. -/
def hostIoctl (cmd : Cmd) (regs : Regs) (sysTime : Timespec) (copyFails : Bool) :
    Int32 × Option UserData :=
  match cmd with
  | .hostGetPcieTime =>
    if readTmrCnt regs ≠ 0 then copyToUser copyFails (.timespec (pcieTime (readTmrCnt regs)))
    else (0, none)
  | .hostGetLocalSystemTime => copyToUser copyFails (.timespec sysTime)
  | .hostGetOffset => copyToUser copyFails (.s64 (hostGetOffset regs sysTime))
  | .other => (-25, none)

/-! ## The offset as a wrapped difference -/

theorem toInt_curCnt (t : Timespec) : (curCnt t).toInt64.toInt = t.total.bmod (2 ^ 64) := by
  have hsigned : (curCnt t).toInt64 = t.tvSec * 1000000000 + t.tvNsec := rfl
  rw [hsigned, Int64.toInt_add, Int64.toInt_mul, Int.bmod_add_bmod]
  rfl

/-- Both branches of the comparison compute one wrapped difference. -/
theorem offsetOf_eq (tmrCnt : UInt64) (curTime : Timespec) :
    offsetOf tmrCnt curTime = (curCnt curTime).toInt64 - (tmrCnt.toInt64 - taiOffset.toInt64) :=
  signed_distance (tmrCnt - taiOffset) (curCnt curTime)

/-- The offset is the system time less the TAI-corrected count, wrapped once. -/
theorem toInt_offsetOf (tmrCnt : UInt64) (curTime : Timespec) :
    (offsetOf tmrCnt curTime).toInt =
      (curTime.total - ((tmrCnt.toNat : Int) - 35000000000)).bmod (2 ^ 64) := by
  have htai : (taiOffset.toInt64).toInt = 35000000000 := by decide
  rw [offsetOf_eq, Int64.toInt_sub, Int64.toInt_sub, toInt_curCnt, toInt_toInt64, htai,
    Int.bmod_sub_bmod, Int.bmod_sub_bmod, Int.sub_bmod_bmod]

theorem toInt_offsetOf_of_fits {tmrCnt : UInt64} {curTime : Timespec}
    (h : FitsInt64 (curTime.total - ((tmrCnt.toNat : Int) - 35000000000))) :
    (offsetOf tmrCnt curTime).toInt =
      curTime.total - ((tmrCnt.toNat : Int) - 35000000000) := by
  rw [toInt_offsetOf, bmod64_eq_of_fits h]

end TimeTools.Driver
