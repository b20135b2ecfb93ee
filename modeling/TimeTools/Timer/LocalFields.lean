import TimeTools.Timer.Arming
import TimeTools.Timer.Setup

/-!
# The local time in a record

In mode 0 `print_msg` reads the clock twice: the second `if` of its chain is not an
`else if`, so mode 0 falls into the last `else` and overwrites `systime`.  The seconds
of the record are from the first reading and its hour, minute and second from the
second one.  They agree exactly when the two readings are whole days of local time apart
(`localFields_iff`).

The zone gives the offset from UTC in effect at an instant.
-/

namespace TimeTools.Timer.TcpClient

/-- The hour, minute and second of the record are the local time of its `tv_sec`. -/
def SelfConsistent (zone : Int → Int) (buf : List UInt8) : Prop :=
  let got := decodeRecord buf
  let tvSec := (longFromBytes (buf.drop 12)).toInt
  ({ tmHour := got.hour, tmMin := got.min, tmSec := got.sec } : Tm) =
    (localtime (zone tvSec) tvSec).time

/-- The `localtime` of a call is that of the zone. -/
def InZone (zone : Int → Int) : SetupEvent → Prop
  | .alarm env => ∀ t : Int64, env.localtime t = (localtime (zone t.toInt) t.toInt).time
  | _ => True

/-- `tcp_client` in mode 0. -/
def systemTimeClient (zone : Int → Int) (ivS target : Int64) (modeName : String) :
    Machine Client SetupEvent where
  init := .start ivS target 0 modeName
  enabled c e := c.Enabled e ∧ InZone zone e
  step := Client.step

def SendsSelfConsistent (zone : Int → Int) (c : Client) : SetupEvent → Prop
  | .alarm env => SelfConsistent zone (printMsg c.globals env).written.2
  | _ => True

/-- The two readings of a call are a whole number of days of local time apart. -/
def ReadsWholeDaysApart (zone : Int → Int) : SetupEvent → Prop
  | .alarm env =>
    let first := (env.systemTime 0).tvSec.toInt
    let second := (env.systemTime 1).tvSec.toInt
    86400 ∣ (second + zone second) - (first + zone first)
  | _ => True

theorem time_localtime_eq_iff (utcOffset t utcOffset' t' : Int) :
    (localtime utcOffset t).time = (localtime utcOffset' t').time ↔
      86400 ∣ (t + utcOffset) - (t' + utcOffset') := by
  obtain ⟨hhour, hmin, hsec⟩ := toInt_localtime utcOffset t
  obtain ⟨hhour', hmin', hsec'⟩ := toInt_localtime utcOffset' t'
  rw [← DayTime.time_eq_iff, ← hhour, ← hmin, ← hsec, ← hhour', ← hmin', ← hsec',
    Int32.toInt_inj, Int32.toInt_inj, Int32.toInt_inj]
  exact iff_of_eq (Tm.mk.injEq _ _ _ _ _ _)

theorem written_printMsg_mode_zero {g : Globals} (h : g.mode = 0) (env : Env) :
    let tmp := env.localtime (env.systemTime 1).tvSec
    (printMsg g env).written = (g.s, fillRecord tmp.tmHour tmp.tmMin tmp.tmSec
      (env.systemTime 0)) := by
  simp [printMsg, h]

theorem selfConsistent_fillRecord_iff (zone : Int → Int) (tm : Tm) (time : Timespec) :
    SelfConsistent zone (fillRecord tm.tmHour tm.tmMin tm.tmSec time) ↔
      tm = (localtime (zone time.tvSec.toInt) time.tvSec.toInt).time := by
  rw [SelfConsistent, decodeRecord_fillRecord, longFromBytes_fillRecord]

theorem sendsSelfConsistent_iff {zone : Int → Int} {c : Client} {e : SetupEvent}
    (hmode : c.globals.mode = 0) (hzone : InZone zone e) :
    SendsSelfConsistent zone c e ↔ ReadsWholeDaysApart zone e := by
  cases e with
  | alarm env =>
    rw [SendsSelfConsistent, written_printMsg_mode_zero hmode, selfConsistent_fillRecord_iff,
      hzone, time_localtime_eq_iff]
    exact Iff.rfl
  | _ => exact Iff.rfl

theorem mode_step (c : Client) (e : SetupEvent) : (c.step e).globals.mode = c.globals.mode := by
  cases e <;> rfl

/-- In every run of `tcp_client` in mode 0 the records are self-consistent exactly when
the two readings of each call are whole days of local time apart, as they are when both
fall in one second. -/
theorem localFields_iff (zone : Int → Int) (ivS target : Int64) (modeName : String)
    (es : List SetupEvent)
    (hadm : (systemTimeClient zone ivS target modeName).Admits
      (.start ivS target 0 modeName) es) :
    (systemTimeClient zone ivS target modeName).Along (SendsSelfConsistent zone)
        (.start ivS target 0 modeName) es ↔
      ∀ e ∈ es, ReadsWholeDaysApart zone e := by
  rw [← Machine.along_event_iff (m := systemTimeClient zone ivS target modeName)
    (s := .start ivS target 0 modeName)]
  refine Machine.along_congr (I := fun c => c.globals.mode = 0) ?_ ?_ rfl hadm
  · intro c e hmode _
    exact (mode_step c e).trans hmode
  · intro c e hmode hen
    exact sendsSelfConsistent_iff hmode hen.2

def readsAt (first second : Timespec) : Env where
  systemTime n := if n = 0 then first else second
  ioPcieTime _ := ⟨0, 0⟩
  hcPcieTime := ⟨0, 0⟩
  localtime t := (localtime 28800 t.toInt).time

def oneSystemRecord (first second : Timespec) : List SetupEvent :=
  [.setitimer 0, .rewind, .socket 3, .connect true, .alarm (readsAt first second)]

theorem admits_oneSystemRecord (first second : Timespec) :
    (systemTimeClient (fun _ => 28800) 5 1700000005 "system_time").Admits
      (.start 5 1700000005 0 "system_time") (oneSystemRecord first second) :=
  ⟨⟨rfl, trivial⟩, ⟨rfl, trivial⟩, ⟨rfl, trivial⟩, ⟨rfl, trivial⟩,
    ⟨⟨rfl, nofun⟩, fun _ => rfl⟩, trivial⟩

theorem localFields_in_one_second :
    (systemTimeClient (fun _ => 28800) 5 1700000005 "system_time").Along
      (SendsSelfConsistent fun _ => 28800) (.start 5 1700000005 0 "system_time")
      (oneSystemRecord ⟨1700000005, 7000⟩ ⟨1700000005, 7400⟩) := by
  refine (localFields_iff (fun _ => 28800) 5 1700000005 "system_time"
    (oneSystemRecord ⟨1700000005, 7000⟩ ⟨1700000005, 7400⟩)
    (admits_oneSystemRecord _ _)).mpr fun e he => ?_
  simp only [oneSystemRecord, List.mem_cons, List.not_mem_nil, or_false] at he
  rcases he with rfl | rfl | rfl | rfl | rfl
  · trivial
  · trivial
  · trivial
  · trivial
  · simp [ReadsWholeDaysApart, readsAt]

/-- The second reading is 400 ns after the first and in the next second. -/
theorem not_localFields_at_boundary :
    (⟨1700000005, 999999800⟩ : Timespec).total ≤ (⟨1700000006, 200⟩ : Timespec).total ∧
      ¬ (systemTimeClient (fun _ => 28800) 5 1700000005 "system_time").Along
        (SendsSelfConsistent fun _ => 28800) (.start 5 1700000005 0 "system_time")
        (oneSystemRecord ⟨1700000005, 999999800⟩ ⟨1700000006, 200⟩) := by
  refine ⟨by decide, fun h => ?_⟩
  have hzone : InZone (fun _ => 28800)
      (.alarm (readsAt ⟨1700000005, 999999800⟩ ⟨1700000006, 200⟩)) := fun _ => rfl
  have hapart := (sendsSelfConsistent_iff rfl hzone).mp h.2.2.2.2.1
  simp only [ReadsWholeDaysApart, readsAt] at hapart
  exact absurd hapart (by decide)

end TimeTools.Timer.TcpClient
