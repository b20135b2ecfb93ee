import TimeTools.Timer.Appointment
import TimeTools.Timer.Arming
import TimeTools.Timer.LogFile

/-!
# Logging by the clock

What `main_user_timer` and `posix_timer` are for: a line for each appointment, the first at
the target and one after each interval.  `main` arms the timer with what remains to the
target, the kernel lets it expire no earlier than it is due, and the handler logs a time
that it makes from its readings.

With an interval of whole seconds, and a handler that is called within a second of each
expiry and misses none, the system time logged is in the second of its appointment, and the
card time logged is the appointment and what the card is ahead of the system clock
(`schedule_of_run`).  The zone keeps one offset from UTC up to the target, and the system
clock, which the kernel does not follow when it is set, is left to run.
-/

namespace TimeTools.Timer

open FixedWidth SignedSplit Signal

/-- What `main` hands to the kernel, in nanoseconds: the time left when it read the clock,
and the interval. -/
structure Armed where
  readAt : Int
  value : Int
  interval : Int

/-- `setitimer` in `main_user_timer`. -/
def Armed.tick (utcOffset : Int) (t0 : Int64) (start : Option Tm) (tv : Timeval)
    (ivtime : Int64) : Armed where
  readAt := tv.total
  value := (tickValue (utime (startTime utcOffset t0 start) tv)).total
  interval := (tickInterval ivtime).total

/-- `timer_settime` in `posix_timer`. -/
def Armed.its (utcOffset : Int) (t0 : Int64) (start : Option Tm) (curtime : Timespec)
    (ivtime : UInt64) : Armed where
  readAt := curtime.total
  value := (itsValue (starttime (startTime utcOffset t0 start) curtime)).total
  interval := (itsInterval ivtime).total

/-- When the timer is to expire, not counting the time until it runs. -/
def Armed.due (a : Armed) (n : Nat) : Int := a.readAt + a.value + n * a.interval

/-- The globals before the first call, in the mode that the options select. -/
def Globals.start (mode : Int32) (modeName : String) : Globals where
  rdNum := 0
  fd := -1
  mode := mode
  modeName := modeName

/-- The program with its timer.  `calls` are the calls of the handler so far. -/
structure TimedRun where
  signal : State Globals Stamp
  time : Int
  calls : List Call

/-- What happens to the program, and when. -/
structure TimedEvent where
  event : Event Call
  time : Int

namespace TimedRun

def start (mode : Int32) (modeName : String) : TimedRun where
  signal := .start (.start mode modeName)
  time := 0
  calls := []

/-- Time goes on, no expiry is early, a timer without interval expires once, and the handler
begins with a reading of the clock.  The time is that of the system clock, which nothing sets:
a clock that is set back would be read before the expiry is due. -/
def Enabled (a : Armed) (s : TimedRun) (e : TimedEvent) : Prop :=
  s.time ≤ e.time ∧ s.signal.Enabled e.event ∧
    match e.event with
    | .expire => a.due s.signal.expiries ≤ e.time ∧ (s.signal.expiries = 0 ∨ a.interval ≠ 0)
    | .deliver call => (call.env.systemTime 0).Valid ∧ (call.env.systemTime 0).total = e.time
    | .finish => True

def step (s : TimedRun) (e : TimedEvent) : TimedRun where
  signal := s.signal.step onSignal e.event
  time := e.time
  calls := s.calls ++ e.event.input?.toList

/-- No expiry finds the signal of the one before it pending, and each has its call within a
second of its time. -/
def Prompt (a : Armed) (s : TimedRun) (e : TimedEvent) : Prop :=
  match e.event with
  | .expire => s.signal.pending = false
  | .deliver _ => e.time < a.due (s.signal.expiries - 1) + 1000000000
  | .finish => True

end TimedRun

def timedRun (a : Armed) (mode : Int32) (modeName : String) : Machine TimedRun TimedEvent where
  init := .start mode modeName
  enabled := TimedRun.Enabled a
  step := TimedRun.step

/-- The reading of a call is in the second after its appointment. -/
def OnTime (a : Armed) (k : Nat) (call : Call) : Prop :=
  (call.env.systemTime 0).Valid ∧ a.due k ≤ (call.env.systemTime 0).total ∧
    (call.env.systemTime 0).total < a.due k + 1000000000

/-- No expiry has been merged, so the calls are those of the expiries in turn. -/
structure TimedInv (a : Armed) (mode : Int32) (modeName : String) (s : TimedRun) : Prop where
  accounted : s.signal.Accounted
  unmerged : s.signal.merged = 0
  follows : s.signal.Follows onSignal (.start mode modeName) s.calls
  pending : s.signal.pending = true → a.due (s.signal.expiries - 1) ≤ s.time
  onTime : ∀ k call, s.calls[k]? = some call → OnTime a k call

namespace TimedInv

variable {a : Armed} {mode : Int32} {modeName : String} {s : TimedRun} {e : TimedEvent}

theorem start (a : Armed) (mode : Int32) (modeName : String) :
    TimedInv a mode modeName (.start mode modeName) where
  accounted := State.Accounted.start _
  unmerged := rfl
  follows := State.Follows.start _
  pending h := by cases h
  onTime k call h := by cases h

/-- The next call is for the last expiry. -/
theorem length_calls (h : TimedInv a mode modeName s) (hpending : s.signal.pending = true) :
    s.calls.length = s.signal.expiries - 1 := by
  have haccounted := h.accounted
  have hlength := length_loop onSignal (.start mode modeName) s.calls
  rw [h.follows] at hlength
  rw [State.Accounted, hpending, h.unmerged, Bool.toNat_true] at haccounted
  change s.signal.results.length = s.calls.length at hlength
  omega

theorem step (h : TimedInv a mode modeName s) (hen : s.Enabled a e) (hprompt : s.Prompt a e) :
    TimedInv a mode modeName (s.step e) := by
  obtain ⟨event, time⟩ := e
  obtain ⟨hle, hsignal, htime⟩ := hen
  have haccounted : (s.signal.step onSignal event).Accounted := h.accounted.step hsignal
  have hfollows := h.follows.step hsignal
  cases event with
  | expire =>
    have hidle : s.signal.pending = false := hprompt
    have hstep : s.signal.step onSignal .expire =
        { s.signal with expiries := s.signal.expiries + 1, pending := true } := by
      rw [State.step, hidle, if_neg (by decide)]
    refine ⟨haccounted, ?_, hfollows, fun _ => ?_, fun k call hk => h.onTime k call ?_⟩
    · show (s.signal.step onSignal .expire).merged = 0
      rw [hstep]
      exact h.unmerged
    · show a.due ((s.signal.step onSignal .expire).expiries - 1) ≤ time
      rw [hstep]
      exact htime.1
    · change (s.calls ++ [])[k]? = some call at hk
      rwa [List.append_nil] at hk
  | deliver input =>
    obtain ⟨hvalid, htotal⟩ := htime
    have hlength := h.length_calls hsignal.1
    have hdue := h.pending hsignal.1
    refine ⟨haccounted, h.unmerged, hfollows, fun h => (by cases h), fun k call hk => ?_⟩
    change (s.calls ++ [input])[k]? = some call at hk
    by_cases hold : k < s.calls.length
    · rw [List.getElem?_append_left hold] at hk
      exact h.onTime k call hk
    · rw [List.getElem?_append_right (by omega)] at hk
      have hlast : k = s.calls.length := by
        by_contra hne
        rw [List.getElem?_eq_none (by simp; omega)] at hk
        cases hk
      subst hlast
      rw [Nat.sub_self] at hk
      cases hk
      have hsoon : time < a.due (s.signal.expiries - 1) + 1000000000 := hprompt
      rw [OnTime, htotal, hlength]
      exact ⟨hvalid, by omega, hsoon⟩
  | finish =>
    refine ⟨haccounted, h.unmerged, hfollows, fun hpending => ?_, fun k call hk => ?_⟩
    · exact Int.le_trans (h.pending hpending) hle
    · change (s.calls ++ [])[k]? = some call at hk
      rw [List.append_nil] at hk
      exact h.onTime k call hk

end TimedInv

/-! ## What is logged -/

theorem mode_loop (g : Globals) (calls : List Call) : (loop onSignal g calls).1.mode = g.mode := by
  induction calls generalizing g with
  | nil => rfl
  | cons call calls ih => exact ih (onSignal g call).1

theorem rdNum_loop {g : Globals} {m : Nat} (hg : g.rdNum = .ofNat m) (calls : List Call) :
    (loop onSignal g calls).1.rdNum = .ofNat (m + calls.length) := by
  induction calls generalizing g m with
  | nil => exact hg
  | cons call calls ih =>
    have hnext : (onSignal g call).1.rdNum = .ofNat (m + 1) := by
      rw [counts_onSignal.globals, hg, Int32.ofNat_add]
      rfl
    rw [List.length_cons, ← Nat.add_assoc, Nat.add_right_comm]
    exact ih hnext

/-- What the card is ahead of the system clock in the readings of a call. -/
def Call.ahead (mode : Int32) (call : Call) : Int :=
  (cardTime mode call.fd call.env).total - (call.env.systemTime 0).total

/-- The line for the appointment `k` intervals after the target is the next after `k` others.
Its second is that of the appointment in mode 0, and in modes 1 and 2 it is the appointment
and what the card is ahead of the system clock. -/
structure ShowsAppointment (target : Int) (ivS k : Nat) (mode : Int32) (call : Call)
    (stamp : Stamp) : Prop where
  ordinal : stamp.rdNum = .ofNat (k + 1)
  system : mode ≠ 1 ∧ mode ≠ 2 → stamp.tvSec.toInt = target + k * ivS
  card : mode = 1 ∨ mode = 2 → (cardTime mode call.fd call.env).Valid →
    0 ≤ (target + k * ivS) * 1000000000 + call.ahead mode →
      stamp.instant = (target + k * ivS) * 1000000000 + call.ahead mode

theorem logged_systemTime {g : Globals} (env : Env) (hmode : g.mode ≠ 1 ∧ g.mode ≠ 2) :
    (printMsg g env).logged = .ofTime (env.systemTime 0) (g.rdNum + 1) := by
  simp [printMsg, hmode.1, hmode.2]

theorem OnTime.shows {a : Armed} {target : Int} {ivS k : Nat} {call : Call}
    (h : OnTime a k call) (hinterval : a.interval = ivS * 1000000000)
    (hstart : a.readAt + a.value = target * 1000000000) {g : Globals} (hg : g.rdNum = .ofNat k) :
    ShowsAppointment target ivS k g.mode call (onSignal g call).2 := by
  obtain ⟨hvalid, hdue, hsoon⟩ := h
  have happointment : a.due k = (target + k * ivS) * 1000000000 := by
    rw [Armed.due, hstart, hinterval]
    ring
  rw [happointment] at hdue hsoon
  refine ⟨?_, fun hmode => ?_, fun hmode hcard hshow => ?_⟩
  · rw [counts_onSignal.record, hg, Int32.ofNat_add]
    rfl
  · have hstamp : (onSignal g call).2 = .ofTime (call.env.systemTime 0) (g.rdNum + 1) :=
      logged_systemTime (g := { g with fd := call.fd }) call.env hmode
    rw [hstamp]
    rw [Timespec.total_def] at hdue hsoon
    obtain ⟨hlo, hhi⟩ := hvalid
    show (call.env.systemTime 0).tvSec.toInt = target + k * ivS
    omega
  · have hwhole : (1000000000 : Int) ∣ ((k + 1 : Nat) - 1) * a.interval := by
      refine ⟨k * ivS, ?_⟩
      rw [hinterval]
      push_cast
      ring
    let expiry : Expiry a.interval :=
      { start := target
        ordinal := k + 1
        delay := ((call.env.systemTime 0).total - (target + k * ivS) * 1000000000).toNat
        systime := call.env.systemTime 0
        ordinal_pos := Nat.le_add_left 1 k
        valid := hvalid
        total_systime := by
          rw [hinterval, Int.toNat_of_nonneg (by omega)]
          push_cast
          ring }
    have hdelay : (expiry.delay : Int) =
        (call.env.systemTime 0).total - (target + k * ivS) * 1000000000 :=
      Int.toNat_of_nonneg (by omega)
    unfold Call.ahead at hshow ⊢
    have hshowable : Showable ((cardTime g.mode call.fd call.env).total - expiry.delay) :=
      .inl (by omega)
    have hlogged := (expiry.logged_eq_iff (g := { g with fd := call.fd }) hmode hcard rfl).mpr
      ⟨⟨hwhole, by omega⟩, hshowable⟩
    change (onSignal g call).2.instant =
      (cardTime g.mode call.fd call.env).total - expiry.delay at hlogged
    omega

/-- Every line of a run that is prompt shows its appointment. -/
def LogsSchedule (a : Armed) (target : Int) (ivS : Nat) (mode : Int32) (modeName : String) :
    Prop :=
  ∀ es, (timedRun a mode modeName).Admits (.start mode modeName) es →
    (timedRun a mode modeName).Along (TimedRun.Prompt a) (.start mode modeName) es →
    let s := (timedRun a mode modeName).run (.start mode modeName) es
    s.calls.length = s.signal.results.length ∧
      ∀ k call stamp, s.calls[k]? = some call → s.signal.results[k]? = some stamp →
        ShowsAppointment target ivS k mode call stamp

theorem logsSchedule {a : Armed} {target : Int} {ivS : Nat}
    (hinterval : a.interval = ivS * 1000000000)
    (hstart : a.readAt + a.value = target * 1000000000) (mode : Int32) (modeName : String) :
    LogsSchedule a target ivS mode modeName := by
  intro es hadm hprompt s
  have h : TimedInv a mode modeName s :=
    Machine.run_of_invariant (m := timedRun a mode modeName) (I := TimedInv a mode modeName)
      (fun _ _ h hen hp => h.step hen hp) (TimedInv.start a mode modeName) hadm hprompt
  have hlength := length_loop onSignal (.start mode modeName) s.calls
  have hfollows := h.follows
  rw [State.Follows] at hfollows
  rw [hfollows] at hlength
  refine ⟨hlength.symm, fun k call stamp hcall hstamp => ?_⟩
  have hresult := getElem?_loop onSignal (.start mode modeName) hcall
  rw [hfollows, hstamp] at hresult
  cases hresult
  have hk : (s.calls.take k).length = k :=
    List.length_take_of_le (Nat.le_of_lt (List.getElem?_eq_some_iff.mp hcall).1)
  have hcount := rdNum_loop (m := 0) (g := .start mode modeName) rfl (s.calls.take k)
  rw [hk, Nat.zero_add] at hcount
  have hshows := (h.onTime k call hcall).shows hinterval hstart hcount
  rwa [mode_loop] at hshows

/-! ## From the options to the log -/

section Arming

variable {utcOffset : Int} {t0 : Int64} {start : Option Tm} {target : Int}

theorem tick_starts (htarget : IsTarget utcOffset t0.toInt start target) {tv : Timeval}
    (hnow : t0.toInt * 1000000 ≤ total 1000000 tv.tvSec.toInt tv.tvUsec.toInt)
    (hahead : total 1000000 tv.tvSec.toInt tv.tvUsec.toInt < target * 1000000) (ivtime : Int64) :
    (Armed.tick utcOffset t0 start tv ivtime).readAt +
      (Armed.tick utcOffset t0 start tv ivtime).value = target * 1000000000 := by
  have hle := target_le htarget
  have hstored := toNat_difference target tv.tvSec tv.tvUsec 1000000
  have hday : target * 1000000 - total 1000000 tv.tvSec.toInt tv.tvUsec.toInt ≤
      86400 * 1000000 := by omega
  have hvalue := ((arms_iff 1000000 (by decide) (by decide) hstored hday).mpr
    (Int.sub_pos.mpr hahead)).exact (Int.sub_pos.mpr hahead)
  have htick : (tickValue (utime (.ofInt target) tv)).total =
      (target * 1000000 - total 1000000 tv.tvSec.toInt tv.tvUsec.toInt) * 1000 :=
    congrArg (· * 1000) hvalue
  show tv.total + (tickValue (utime (startTime utcOffset t0 start) tv)).total = _
  rw [startTime_eq htarget, htick, Timeval.total]
  omega

theorem its_starts (htarget : IsTarget utcOffset t0.toInt start target) {curtime : Timespec}
    (hnow : t0.toInt * 1000000000 ≤ curtime.total) (hahead : curtime.total < target * 1000000000)
    (ivtime : UInt64) :
    (Armed.its utcOffset t0 start curtime ivtime).readAt +
      (Armed.its utcOffset t0 start curtime ivtime).value = target * 1000000000 := by
  have hle := target_le htarget
  have hstored := toNat_difference target curtime.tvSec curtime.tvNsec nsec
  have hday : target * 1000000000 - curtime.total ≤ 86400 * 1000000000 := by omega
  have hvalue := ((arms_iff 1000000000 (by decide) (by decide) hstored hday).mpr
    (Int.sub_pos.mpr hahead)).exact (Int.sub_pos.mpr hahead)
  have hits : (itsValue (starttime (.ofInt target) curtime)).total =
      target * 1000000000 - curtime.total := hvalue
  show curtime.total + (itsValue (starttime (startTime utcOffset t0 start) curtime)).total = _
  rw [startTime_eq htarget, hits]
  omega

end Arming

/-- Started before its target, on a day and with a system clock that nobody changes, and with
an interval of whole seconds, a timer logs its schedule: `main_user_timer`, which counts
microseconds, and `posix_timer`, which counts nanoseconds. -/
theorem schedule_of_run {utcOffset : Int} {t0 : Int64} {start : Option Tm} {target : Int}
    (htarget : IsTarget utcOffset t0.toInt start target) (ivS : Nat)
    (mode : Int32) (modeName : String) :
    (∀ (tv : Timeval) (ivtime : Int64),
      t0.toInt * 1000000 ≤ total 1000000 tv.tvSec.toInt tv.tvUsec.toInt →
      total 1000000 tv.tvSec.toInt tv.tvUsec.toInt < target * 1000000 →
      ivtime.toInt = ivS * 1000000 →
        LogsSchedule (.tick utcOffset t0 start tv ivtime) target ivS mode modeName) ∧
    (∀ (curtime : Timespec) (ivtime : UInt64), t0.toInt * 1000000000 ≤ curtime.total →
      curtime.total < target * 1000000000 → ivtime.toNat = ivS * 1000000000 →
        LogsSchedule (.its utcOffset t0 start curtime ivtime) target ivS mode modeName) := by
  refine ⟨fun tv ivtime hnow hahead hiv => ?_, fun curtime ivtime hnow hahead hiv => ?_⟩
  · refine logsSchedule ?_ (tick_starts htarget hnow hahead ivtime) mode modeName
    rw [Armed.tick, total_tickInterval, hiv]
    ring
  · refine logsSchedule ?_ (its_starts htarget hnow hahead ivtime) mode modeName
    rw [Armed.its, total_itsInterval, hiv]
    push_cast
    rfl

/-- Started at 1700000003.25 without `-t`, for every five seconds. -/
def everyFive : Armed := .tick 28800 1700000003 none ⟨1700000003, 250000⟩ 5000000

/-- The card is 5 us ahead of the system clock. -/
def callAt (sec nsec : Int64) : Call where
  fd := 3
  env := readings ⟨sec, nsec⟩ ⟨sec, nsec + 5000⟩

def twoExpiries : List TimedEvent :=
  [⟨.expire, 1700000005000000100⟩, ⟨.deliver (callAt 1700000005 7000), 1700000005000007000⟩,
    ⟨.finish, 1700000005000900000⟩, ⟨.expire, 1700000010000000200⟩,
    ⟨.deliver (callAt 1700000010 20000), 1700000010000020000⟩]

/-- The second line is the card time at 1700000010. -/
theorem schedule_of_two_expiries :
    let s := (timedRun everyFive 1 "io_pcie_time").run (.start 1 "io_pcie_time") twoExpiries
    (s.signal.results[1]?).map Stamp.instant = some 1700000010000005000 := by
  intro s
  have htarget : IsTarget 28800 (1700000003 : Int64).toInt none 1700000005 :=
    isTarget_none_iff.mpr (by decide)
  obtain ⟨-, hlines⟩ := (schedule_of_run htarget 5 1 "io_pcie_time").1 ⟨1700000003, 250000⟩
    5000000 (by decide) (by decide) (by decide) twoExpiries
    ⟨⟨by decide, trivial, by decide, .inl rfl⟩, ⟨by decide, ⟨rfl, rfl⟩, by decide, by decide⟩,
      ⟨by decide, rfl, trivial⟩, ⟨by decide, trivial, by decide, .inr (by decide)⟩,
      ⟨by decide, ⟨rfl, rfl⟩, by decide, by decide⟩, trivial⟩
    ⟨rfl, show (1700000005000007000 : Int) < everyFive.due 0 + 1000000000 by decide, trivial, rfl,
      show (1700000010000020000 : Int) < everyFive.due 1 + 1000000000 by decide, trivial⟩
  obtain ⟨stamp, hstamp⟩ : ∃ stamp, s.signal.results[1]? = some stamp := ⟨_, rfl⟩
  have hline := (hlines 1 (callAt 1700000010 20000) stamp rfl hstamp).card (.inl rfl) (by decide)
    (by decide)
  rw [hstamp, Option.map_some, hline]
  decide

end TimeTools.Timer
