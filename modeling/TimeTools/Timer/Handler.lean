import TimeTools.Timer.Record

/-!
# The timer handlers

`printMsg` of `main_user_timer` and `posix_timer` is one function, and `print_msg`
of `tcp_client` extends it by the mode that counts intervals and by the record it
sends.  In the two card modes a handler subtracts `systime.tv_nsec` from the card
time, on the assumption that its expiry fell due on a whole second less than a
second ago.

The modes are the numbers that `-m` sets.  What the handlers read is an
environment, so that each mode reads its own source.
-/

namespace TimeTools.Timer

open FixedWidth SignedSplit

structure Tm where
  tmHour : Int32
  tmMin : Int32
  tmSec : Int32
  deriving DecidableEq, Repr

/-- What one handler call reads: the system clock at each `get_system_time`, the
card through a descriptor and through the hypercall, and the local time. -/
structure Env where
  systemTime : Nat → Timespec
  ioPcieTime : Int32 → Timespec
  hcPcieTime : Timespec
  localtime : Int64 → Tm

/-- The numbers of a line: `%ld`, `%09lu`, and the ordinal. -/
structure Stamp where
  tvSec : Int64
  tvNsec : UInt64
  rdNum : Int32
  deriving DecidableEq, Repr

namespace Stamp

def ofTime (time : Timespec) (rdNum : Int32) : Stamp :=
  { tvSec := time.tvSec, tvNsec := time.tvNsec.toUInt64, rdNum := rdNum }

def instant (s : Stamp) : Int := total 1000000000 s.tvSec.toInt s.tvNsec.toNat

end Stamp

inductive Printed
  | systemTime (stamp : Stamp)
  | called (modeName : String) (stamp : Stamp)
  | calledFixed (modeName : String) (stamp : Stamp)
  deriving DecidableEq, Repr

structure Globals where
  rdNum : Int32
  fd : Int32
  mode : Int32
  modeName : String
  deriving DecidableEq, Repr

structure Report where
  rdNum : Int32
  printed : List Printed
  logged : Stamp
  deriving DecidableEq, Repr

def printMsg (g : Globals) (env : Env) : Report :=
  let (systime, time) :=
    if g.mode = 1 then (env.systemTime 0, env.ioPcieTime g.fd)
    else if g.mode = 2 then (env.systemTime 0, env.hcPcieTime)
    else (env.systemTime 0, env.systemTime 0)
  let rdNum := g.rdNum + 1
  if g.mode = 1 ∨ g.mode = 2 then
    let fixedtime := subNs time systime.tvNsec
    { rdNum := rdNum
      printed := [.systemTime (.ofTime systime rdNum), .called g.modeName (.ofTime time rdNum),
        .calledFixed g.modeName (.ofTime fixedtime rdNum)]
      logged := .ofTime fixedtime rdNum }
  else
    { rdNum := rdNum
      printed := [.called g.modeName (.ofTime time rdNum)]
      logged := .ofTime time rdNum }

namespace TcpClient

structure Globals where
  ivS : Int64
  timep : Int64
  rdNum : Int32
  s : Int32
  fd : Int32
  mode : Int32
  modeName : String
  deriving DecidableEq, Repr

structure Report where
  timep : Int64
  rdNum : Int32
  printed : List Printed
  logged : Stamp
  written : Int32 × List UInt8
  deriving DecidableEq, Repr

/-- The second `if` of `print_msg` is not an `else if`, so mode 0 reads the clock
again and advances `timep` with mode 3.  Mode 3 leaves `time` unread and unused. -/
def printMsg (g : Globals) (env : Env) : Report :=
  let (systime, time, timep) :=
    if g.mode = 1 then (env.systemTime 0, env.ioPcieTime g.fd, g.timep)
    else if g.mode = 2 then (env.systemTime 0, env.hcPcieTime, g.timep)
    else if g.mode = 0 then (env.systemTime 1, env.systemTime 0, g.timep + g.ivS)
    else (env.systemTime 0, { tvSec := 0, tvNsec := 0 }, g.timep + g.ivS)
  let rdNum := g.rdNum + 1
  let (printed, sent) :=
    if g.mode = 1 ∨ g.mode = 2 then
      let fixedtime := subNs time systime.tvNsec
      ([.systemTime (.ofTime systime rdNum), .called g.modeName (.ofTime time rdNum),
        .calledFixed g.modeName (.ofTime fixedtime rdNum)], fixedtime)
    else if g.mode = 0 then ([.called g.modeName (.ofTime time rdNum)], time)
    else
      let reference : Timespec := { tvSec := timep, tvNsec := 0 }
      ([.called g.modeName (.ofTime reference rdNum)], reference)
  let tmp := env.localtime systime.tvSec
  { timep := timep
    rdNum := rdNum
    printed := printed
    logged := .ofTime sent rdNum
    written := (g.s, fillRecord tmp.tmHour tmp.tmMin tmp.tmSec sent) }

end TcpClient

/-! ## Intervals -/

structure Timeval where
  tvSec : Int64
  tvUsec : Int64
  deriving DecidableEq, Repr

def Timeval.total (t : Timeval) : Int :=
  SignedSplit.total 1000000 t.tvSec.toInt t.tvUsec.toInt * 1000

/-- `tick.it_interval` in `main_user_timer` and `tcp_client`, for an interval in
microseconds. -/
def tickInterval (ivtime : Int64) : Timeval :=
  { tvSec := ivtime / 1000000, tvUsec := ivtime % 1000000 }

def itsInterval (ivtime : UInt64) : Timespec :=
  { tvSec := (ivtime / 1000000000).toInt64, tvNsec := (ivtime % 1000000000).toInt64 }

theorem total_tickInterval (ivtime : Int64) :
    (tickInterval ivtime).total = ivtime.toInt * 1000 := by
  have hsec : (ivtime / 1000000).toInt = ivtime.toInt.tdiv 1000000 := toInt_div_of_ne (by decide)
  have husec : (ivtime % 1000000).toInt = ivtime.toInt.tmod 1000000 := Int64.toInt_mod _ _
  rw [Timeval.total, tickInterval, hsec, husec, total_tdiv_tmod]

theorem total_itsInterval (ivtime : UInt64) : (itsInterval ivtime).total = ivtime.toNat := by
  have hdiv : (ivtime / 1000000000).toNat = ivtime.toNat / 1000000000 := UInt64.toNat_div _ _
  have hmod : (ivtime % 1000000000).toNat = ivtime.toNat % 1000000000 := UInt64.toNat_mod _ _
  have hlt := ivtime.toNat_lt
  rw [Timespec.total_def, itsInterval, toInt_toInt64_of_lt (by omega),
    toInt_toInt64_of_lt (by omega), hdiv, hmod]
  omega

end TimeTools.Timer
