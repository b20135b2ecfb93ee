import TimeTools.Timer.Handler

/-!
# The card time at the appointment

The `n`-th expiry of a timer that starts at a whole second falls due `n - 1`
intervals later, and the handler reads the system clock some delay after that.
The handlers take the nanoseconds of that reading for the delay.  They are the
delay exactly when it is less than a second and the intervals passed make whole
seconds (`Expiry.tvNsec_eq_delay_iff`), so with a fractional interval the time
that is logged and sent is not the card time at the appointment.

The numbers logged and sent have one more limit: nanoseconds are given unsigned,
which no fraction of a time before the epoch survives.
-/

namespace TimeTools.Timer

open FixedWidth SignedSplit

/-- One handler call of a timer with the given interval in nanoseconds: its start,
its ordinal, and the reading `systime` that is `delay` after its appointment. -/
structure Expiry (interval : Int) where
  start : Int
  ordinal : Nat
  delay : Nat
  systime : Timespec
  ordinal_pos : 1 ≤ ordinal
  valid : systime.Valid
  total_systime : systime.total = start * 1000000000 + (ordinal - 1) * interval + delay

/-- `ordinal - 1` intervals make whole seconds, and the delay is less than a second. -/
def OnTheSecond (ordinal : Nat) (interval : Int) (delay : Nat) : Prop :=
  1000000000 ∣ ((ordinal : Int) - 1) * interval ∧ delay < 1000000000

/-- A number of nanoseconds that a canonical time shows unsigned. -/
def Showable (t : Int) : Prop := 0 ≤ t ∨ 1000000000 ∣ t

namespace Expiry

variable {interval : Int} (e : Expiry interval)

theorem tvNsec_eq_delay_iff : e.systime.tvNsec.toInt = e.delay ↔
    OnTheSecond e.ordinal interval e.delay := by
  have htotal := e.total_systime
  obtain ⟨hlo, hhi⟩ := e.valid
  rw [Timespec.total_def] at htotal
  constructor
  · intro h
    refine ⟨⟨e.systime.tvSec.toInt - e.start, ?_⟩, by omega⟩
    rw [Int.mul_sub]
    omega
  · intro h
    obtain ⟨⟨k, hk⟩, hdelay⟩ := h
    rw [hk] at htotal
    omega

end Expiry

/-! ## Unsigned nanoseconds -/

theorem tvNsec_nonneg_iff {t : Timespec} (h : t.Canonical) :
    0 ≤ t.tvNsec.toInt ↔ Showable t.total := by
  have htotal := t.total_def
  constructor
  · intro hn
    by_cases hsec : 0 ≤ t.tvSec.toInt
    · exact .inl (by omega)
    · have hzero := h.nonpos (by omega)
      exact .inr ⟨t.tvSec.toInt, by omega⟩
  · intro hshow
    rcases hshow with hpos | ⟨k, hk⟩
    · exact (h.parts_nonneg hpos).2
    · have hlo := h.lower
      have hhi := h.upper
      omega

/-- Read modulo a word larger than a second, nonnegative nanoseconds keep their
value and others gain the size of the word. -/
theorem emod_tvNsec {t : Timespec} (h : t.Canonical) {w : Int} (hw : 1000000000 ≤ w) :
    t.tvNsec.toInt % w = if 0 ≤ t.tvNsec.toInt then t.tvNsec.toInt else t.tvNsec.toInt + w := by
  have hlo := h.lower
  have hhi := h.upper
  by_cases hn : 0 ≤ t.tvNsec.toInt
  · rw [if_pos hn]
    exact Int.emod_eq_of_lt hn (by omega)
  · rw [if_neg hn, ← Int.add_emod_right]
    exact Int.emod_eq_of_lt (by omega) (by omega)

/-- The card time reduced by the nanoseconds of the reading, shown modulo a word, is
the card time at the appointment exactly on the second and where it is showable.
The size of the word cannot make up for a wrong delay: delays are nonnegative. -/
theorem Expiry.shown_eq_iff {interval : Int} (e : Expiry interval) {card : Timespec}
    (hcard : card.Valid) {w : Int} (hw : 1000000000 ≤ w) :
    total 1000000000 (subNs card e.systime.tvNsec).tvSec.toInt
        ((subNs card e.systime.tvNsec).tvNsec.toInt % w) = card.total - e.delay ↔
      OnTheSecond e.ordinal interval e.delay ∧ Showable (card.total - e.delay) := by
  obtain ⟨hlo, hhi⟩ := e.valid
  obtain ⟨hfixed, hcanonical⟩ := subNs_spec hcard hlo hhi
  have hnonneg := tvNsec_nonneg_iff hcanonical
  have htotal := (subNs card e.systime.tvNsec).total_def
  rw [emod_tvNsec hcanonical hw, ← e.tvNsec_eq_delay_iff, total]
  constructor
  · intro h
    by_cases hn : 0 ≤ (subNs card e.systime.tvNsec).tvNsec.toInt
    · rw [if_pos hn] at h
      have hdelay : e.systime.tvNsec.toInt = e.delay := by omega
      rw [hfixed, hdelay] at hnonneg
      exact ⟨hdelay, hnonneg.mp hn⟩
    · rw [if_neg hn] at h
      omega
  · intro h
    obtain ⟨hdelay, hshow⟩ := h
    rw [← hdelay, ← hfixed] at hshow ⊢
    rw [if_pos (hnonneg.mpr hshow), htotal]

theorem instant_ofTime (t : Timespec) (rdNum : Int32) :
    (Stamp.ofTime t rdNum).instant = total 1000000000 t.tvSec.toInt (t.tvNsec.toInt % 2 ^ 64) := by
  rw [Stamp.instant, Stamp.ofTime, toNat_toUInt64]

def recordInstant (buf : List UInt8) : Int :=
  total 1000000000 (longFromBytes (buf.drop 12)).toInt
    (bytesToInt32 (buf.drop 20)).toUInt32.toNat

theorem recordInstant_fillRecord (hour min sec : Int32) (t : Timespec) :
    recordInstant (fillRecord hour min sec t) =
      total 1000000000 t.tvSec.toInt (t.tvNsec.toInt % 2 ^ 32) := by
  rw [recordInstant, longFromBytes_fillRecord, bytesToInt32_fillRecord, UInt32.toUInt32_toInt32,
    toNat_toUInt32]

/-! ## The three programs -/

def cardTime (mode fd : Int32) (env : Env) : Timespec :=
  if mode = 1 then env.ioPcieTime fd else env.hcPcieTime

theorem logged_printMsg {g : Globals} (env : Env) (hmode : g.mode = 1 ∨ g.mode = 2) :
    (printMsg g env).logged =
      .ofTime (subNs (cardTime g.mode g.fd env) (env.systemTime 0).tvNsec) (g.rdNum + 1) := by
  rcases hmode with h | h <;> simp [printMsg, cardTime, h]

theorem TcpClient.sent_printMsg {g : TcpClient.Globals} (env : Env)
    (hmode : g.mode = 1 ∨ g.mode = 2) :
    let fixedtime := subNs (cardTime g.mode g.fd env) (env.systemTime 0).tvNsec
    let tmp := env.localtime (env.systemTime 0).tvSec
    (TcpClient.printMsg g env).logged = .ofTime fixedtime (g.rdNum + 1) ∧
      (TcpClient.printMsg g env).written =
        (g.s, fillRecord tmp.tmHour tmp.tmMin tmp.tmSec fixedtime) := by
  rcases hmode with h | h <;> simp [TcpClient.printMsg, cardTime, h]

section Programs

variable {g : Globals} {c : TcpClient.Globals} {env : Env} {interval : Int}

theorem Expiry.logged_eq_iff (e : Expiry interval) (hmode : g.mode = 1 ∨ g.mode = 2)
    (hcard : (cardTime g.mode g.fd env).Valid) (hsys : env.systemTime 0 = e.systime) :
    (printMsg g env).logged.instant = (cardTime g.mode g.fd env).total - e.delay ↔
      OnTheSecond e.ordinal interval e.delay ∧
        Showable ((cardTime g.mode g.fd env).total - e.delay) := by
  rw [logged_printMsg env hmode, hsys, instant_ofTime]
  exact e.shown_eq_iff hcard (by omega)

theorem Expiry.sent_eq_iff (e : Expiry interval) (hmode : c.mode = 1 ∨ c.mode = 2)
    (hcard : (cardTime c.mode c.fd env).Valid) (hsys : env.systemTime 0 = e.systime) :
    ((TcpClient.printMsg c env).logged.instant = (cardTime c.mode c.fd env).total - e.delay ∧
        recordInstant (TcpClient.printMsg c env).written.2 =
          (cardTime c.mode c.fd env).total - e.delay) ↔
      OnTheSecond e.ordinal interval e.delay ∧
        Showable ((cardTime c.mode c.fd env).total - e.delay) := by
  obtain ⟨hlogged, hwritten⟩ := TcpClient.sent_printMsg (g := c) env hmode
  rw [hlogged, hwritten, hsys, instant_ofTime, recordInstant_fillRecord,
    e.shown_eq_iff hcard (by omega), e.shown_eq_iff hcard (by omega), and_self]

end Programs

/-- What the timers log and send is the card time at the appointment exactly when
the intervals passed make whole seconds, the delay is less than a second, and the
result is showable.  Intervals are in microseconds, in `posix_timer` in
nanoseconds. -/
theorem fixedTime_eq_iff (env : Env) (mode fd : Int32) (hmode : mode = 1 ∨ mode = 2)
    (hcard : (cardTime mode fd env).Valid) :
    (∀ (ivtime : Int64) (e : Expiry (tickInterval ivtime).total) (g : Globals),
      env.systemTime 0 = e.systime → g.mode = mode → g.fd = fd →
      ((printMsg g env).logged.instant = (cardTime mode fd env).total - e.delay ↔
        OnTheSecond e.ordinal (ivtime.toInt * 1000) e.delay ∧
          Showable ((cardTime mode fd env).total - e.delay))) ∧
    (∀ (ivtime : UInt64) (e : Expiry (itsInterval ivtime).total) (g : Globals),
      env.systemTime 0 = e.systime → g.mode = mode → g.fd = fd →
      ((printMsg g env).logged.instant = (cardTime mode fd env).total - e.delay ↔
        OnTheSecond e.ordinal ivtime.toNat e.delay ∧
          Showable ((cardTime mode fd env).total - e.delay))) ∧
    (∀ (ivtime : Int64) (e : Expiry (tickInterval ivtime).total) (c : TcpClient.Globals),
      env.systemTime 0 = e.systime → c.mode = mode → c.fd = fd →
      ((TcpClient.printMsg c env).logged.instant = (cardTime mode fd env).total - e.delay ∧
          recordInstant (TcpClient.printMsg c env).written.2 =
            (cardTime mode fd env).total - e.delay ↔
        OnTheSecond e.ordinal (ivtime.toInt * 1000) e.delay ∧
          Showable ((cardTime mode fd env).total - e.delay))) := by
  refine ⟨?_, ?_, ?_⟩
  · intro ivtime e g hsys hmodeg hfdg
    subst hmodeg hfdg
    have hinterval := congrArg (OnTheSecond e.ordinal · e.delay) (total_tickInterval ivtime)
    rw [e.logged_eq_iff hmode hcard hsys, ← hinterval]
  · intro ivtime e g hsys hmodeg hfdg
    subst hmodeg hfdg
    have hinterval := congrArg (OnTheSecond e.ordinal · e.delay) (total_itsInterval ivtime)
    rw [e.logged_eq_iff hmode hcard hsys, ← hinterval]
  · intro ivtime e c hsys hmodec hfdc
    subst hmodec hfdc
    have hinterval := congrArg (OnTheSecond e.ordinal · e.delay) (total_tickInterval ivtime)
    rw [e.sent_eq_iff hmode hcard hsys, ← hinterval]

def readings (systime card : Timespec) : Env where
  systemTime _ := systime
  ioPcieTime _ := card
  hcPcieTime := card
  localtime _ := ⟨0, 0, 0⟩

def secondOfFive : Expiry (tickInterval 5000000).total where
  start := 1700000000
  ordinal := 2
  delay := 7000
  systime := ⟨1700000005, 7000⟩
  ordinal_pos := by decide
  valid := by decide
  total_systime := by decide

def secondOfFivePointThree : Expiry (tickInterval 5300000).total where
  start := 1700000000
  ordinal := 2
  delay := 0
  systime := ⟨1700000005, 300000000⟩
  ordinal_pos := by decide
  valid := by decide
  total_systime := by decide

theorem fixedTime_eq_second_of_five :
    (printMsg ⟨1, 3, 1, "io_pcie_time"⟩
      (readings secondOfFive.systime ⟨1700000005, 2000⟩)).logged.instant =
        (⟨1700000005, 2000⟩ : Timespec).total - secondOfFive.delay :=
  ((fixedTime_eq_iff (readings secondOfFive.systime ⟨1700000005, 2000⟩) 1 3 (.inl rfl)
    (by decide)).1 5000000 secondOfFive ⟨1, 3, 1, "io_pcie_time"⟩ rfl rfl rfl).mpr
      ⟨⟨⟨5, rfl⟩, by decide⟩, .inl (by decide)⟩

theorem not_fixedTime_eq_fractional :
    ¬ ∀ (ivtime : Int64) (e : Expiry (tickInterval ivtime).total) (g : Globals) (env : Env),
      0 < ivtime → g.mode = 1 ∨ g.mode = 2 → (cardTime g.mode g.fd env).Valid →
      env.systemTime 0 = e.systime →
      (printMsg g env).logged.instant = (cardTime g.mode g.fd env).total - e.delay := by
  intro h
  have hlogged := h 5300000 secondOfFivePointThree ⟨1, 3, 1, "io_pcie_time"⟩
    (readings secondOfFivePointThree.systime ⟨1700000005, 300000100⟩)
    (by decide) (.inl rfl) (by decide) rfl
  exact absurd hlogged (by decide)

end TimeTools.Timer
