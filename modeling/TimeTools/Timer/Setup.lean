import TimeTools.Foundation.Run
import TimeTools.Timer.Appointment

/-!
# The set-up of `tcp_client`

`main` arms the timer first and then rewinds `timep`, opens the card, creates the
socket and connects it.  From the arming on a `SIGALRM` may come between any two of
these steps, any number of times, and `print_msg` uses whatever is there: until the
socket is created its `s` is descriptor 0.  Every call works on finished set-up
exactly when each signal finds the socket connected (`setup_iff_alarmsConnected`).
-/

namespace TimeTools.Timer.TcpClient

/-- The step of `main` that is next. -/
inductive Step
  | setitimer
  | rewind
  | openCard
  | socket
  | connect
  | pause
  | exited
  deriving DecidableEq, Repr

/-- `fd` is what `open` returned, `connected` the descriptor that `connect` succeeded
on, and `calls` how often `print_msg` has run. -/
structure Client where
  next : Step
  globals : Globals
  target : Int64
  armed : Bool
  fd : Option Int32
  connected : Option Int32
  calls : Nat

/-- Steps of `main` with what their calls return, and deliveries of `SIGALRM` with
what the handler reads. -/
inductive SetupEvent
  | setitimer (res : Int32)
  | rewind
  | openCard (fd : Int32)
  | socket (s : Int32)
  | connect (ok : Bool)
  | alarm (env : Env)

namespace Client

/-- `main` after `timep = mktime(tmp)`. -/
def start (ivS target : Int64) (mode : Int32) (modeName : String) : Client where
  next := .setitimer
  globals :=
    { ivS := ivS
      timep := target
      rdNum := 0
      s := 0
      fd := -1
      mode := mode
      modeName := modeName }
  target := target
  armed := false
  fd := none
  connected := none
  calls := 0

def Enabled (c : Client) : SetupEvent → Prop
  | .setitimer _ => c.next = .setitimer
  | .rewind => c.next = .rewind
  | .openCard fd => c.next = .openCard ∧ (fd = -1 ∨ 0 ≤ fd)
  | .socket _ => c.next = .socket
  | .connect _ => c.next = .connect
  | .alarm _ => c.armed = true ∧ c.next ≠ .exited

def step (c : Client) : SetupEvent → Client
  | .setitimer res => { c with armed := res = 0, next := .rewind }
  | .rewind =>
    { c with
      globals := { c.globals with timep := c.globals.timep - c.globals.ivS }
      next := if c.globals.mode = 1 then .openCard else .socket }
  | .openCard fd =>
    { c with
      globals := { c.globals with fd := fd }
      fd := if fd = -1 then none else some fd
      next := if fd = -1 then .exited else .socket }
  | .socket s =>
    { c with
      globals := { c.globals with s := s }
      next := if s < 0 then .exited else .connect }
  | .connect ok =>
    { c with
      connected := if ok then some c.globals.s else none
      next := .pause }
  | .alarm env =>
    let report := printMsg c.globals env
    { c with
      globals := { c.globals with timep := report.timep, rdNum := report.rdNum }
      calls := c.calls + 1 }

end Client

def setup (ivS target : Int64) (mode : Int32) (modeName : String) : Machine Client SetupEvent where
  init := .start ivS target mode modeName
  enabled := Client.Enabled
  step := Client.step

/-- A call prints the card time that it has through `fd`, and logs and sends it less the
delay. -/
structure ShowsCard (g : Globals) (env : Env) (fd : Int32) : Prop where
  printed : .called g.modeName (.ofTime (env.ioPcieTime fd) (g.rdNum + 1)) ∈
    (printMsg g env).printed
  logged : (printMsg g env).logged =
    .ofTime (subNs (env.ioPcieTime fd) (env.systemTime 0).tvNsec) (g.rdNum + 1)
  sent : ∃ tmp : Tm, (printMsg g env).written.2 = fillRecord tmp.tmHour tmp.tmMin tmp.tmSec
    (subNs (env.ioPcieTime fd) (env.systemTime 0).tvNsec)

/-- A call of `print_msg` in state `c` writes to the connected socket, shows in mode 1 the
time of the card that was opened, and starts mode 3 with the target. -/
structure OnFinishedSetup (c : Client) (env : Env) : Prop where
  socket : c.connected = some (printMsg c.globals env).written.1
  card : c.globals.mode = 1 → ∃ fd, c.fd = some fd ∧ ShowsCard c.globals env fd
  target : c.globals.mode = 3 → c.calls = 0 →
    (printMsg c.globals env).logged.tvSec = c.target ∧
      longFromBytes ((printMsg c.globals env).written.2.drop 12) = c.target

def CallsOnFinishedSetup (c : Client) : SetupEvent → Prop
  | .alarm env => OnFinishedSetup c env
  | _ => True

/-- A signal is delivered only once `connect` has succeeded. -/
def AlarmsConnected (c : Client) : SetupEvent → Prop
  | .alarm _ => c.connected.isSome
  | _ => True

/-- What each step leaves for those after it, however many calls come between. -/
structure SetupInv (c : Client) : Prop where
  rewound : c.next ≠ .setitimer → c.next ≠ .rewind → c.calls = 0 →
    c.globals.timep = c.target - c.globals.ivS
  untouched : c.next = .setitimer ∨ c.next = .rewind → c.calls = 0 → c.globals.timep = c.target
  opened : c.globals.mode = 1 → c.next = .socket ∨ c.next = .connect ∨ c.next = .pause →
    c.fd = some c.globals.fd
  connected : ∀ s, c.connected = some s → c.next = .pause ∧ s = c.globals.s

theorem reference_printMsg {g : Globals} (h : g.mode = 3) (env : Env) :
    (printMsg g env).logged.tvSec = g.timep + g.ivS ∧
      longFromBytes ((printMsg g env).written.2.drop 12) = g.timep + g.ivS := by
  simp only [printMsg, h]
  exact ⟨rfl, longFromBytes_fillRecord _ _ _ _⟩

theorem showsCard_printMsg {g : Globals} (h : g.mode = 1) (env : Env) :
    ShowsCard g env g.fd := by
  obtain ⟨hlogged, hwritten⟩ := sent_printMsg (g := g) env (.inl h)
  rw [cardTime, if_pos h] at hlogged hwritten
  refine ⟨by simp [printMsg, h], hlogged, _, congrArg Prod.snd hwritten⟩

/-- Every step of `main` after the first leaves the rewind behind. -/
theorem rewound_step (c : Client) {e : SetupEvent} (hset : ∀ res, e ≠ .setitimer res)
    (halarm : ∀ env, e ≠ .alarm env) :
    ¬ ((c.step e).next = .setitimer ∨ (c.step e).next = .rewind) := by
  cases e with
  | setitimer res => exact absurd rfl (hset res)
  | rewind | openCard fd | socket fd =>
    simp only [Client.step]
    split <;> simp
  | connect ok => simp [Client.step]
  | alarm env => exact absurd rfl (halarm env)

namespace SetupInv

variable {c : Client} {e : SetupEvent}

theorem start (ivS target : Int64) (mode : Int32) (modeName : String) :
    SetupInv (Client.start ivS target mode modeName) where
  rewound h _ _ := absurd rfl h
  untouched _ _ := rfl
  opened _ h := by rcases h with h | h | h <;> cases h
  connected _ h := nomatch h

theorem onFinishedSetup_iff (h : SetupInv c) (env : Env) :
    OnFinishedSetup c env ↔ c.connected.isSome := by
  constructor
  · intro hc
    rw [hc.socket, Option.isSome_some]
  · intro hc
    obtain ⟨s, hs⟩ := Option.isSome_iff_exists.mp hc
    obtain ⟨hnext, rfl⟩ := h.connected s hs
    refine ⟨hs, fun hmode => ?_, fun hmode hcalls => ?_⟩
    · exact ⟨_, h.opened hmode (.inr (.inr hnext)), showsCard_printMsg hmode env⟩
    have htimep := h.rewound (by simp [hnext]) (by simp [hnext]) hcalls
    have hreference := reference_printMsg hmode env
    rw [htimep, Int64.sub_add_cancel] at hreference
    exact hreference

theorem step (h : SetupInv c) (hen : c.Enabled e) : SetupInv (c.step e) := by
  obtain ⟨hrewound, huntouched, hopened, hconnected⟩ := h
  -- Before `pause` no descriptor is connected.
  have hnone : c.next ≠ .pause → ∀ s, c.connected ≠ some s :=
    fun hnext s hs => hnext (hconnected s hs).1
  cases e with
  | setitimer res =>
    change c.next = .setitimer at hen
    refine ⟨fun _ hne => absurd rfl hne, fun _ => huntouched (.inl hen), fun _ hnext => ?_,
      fun s hs => absurd hs (hnone (by simp [hen]) s)⟩
    rcases hnext with h | h | h <;> cases h
  | rewind =>
    change c.next = .rewind at hen
    refine ⟨fun _ _ hcalls => ?_, fun hnext => absurd hnext (rewound_step c nofun nofun),
      fun hmode hnext => ?_, fun s hs => absurd hs (hnone (by simp [hen]) s)⟩
    · exact congrArg (· - c.globals.ivS) (huntouched (.inr hen) hcalls)
    · change c.globals.mode = 1 at hmode
      simp [Client.step, hmode] at hnext
  | openCard fd =>
    obtain ⟨hen, -⟩ := hen
    have htimep := hrewound (by simp [hen]) (by simp [hen])
    refine ⟨fun _ _ => htimep, fun hnext => absurd hnext (rewound_step c nofun nofun),
      fun hmode hnext => ?_, fun s hs => absurd hs (hnone (by simp [hen]) s)⟩
    simp only [Client.step] at hnext ⊢
    split at hnext
    · rcases hnext with h | h | h <;> cases h
    · rw [if_neg ‹_›]
  | socket s =>
    change c.next = .socket at hen
    have htimep := hrewound (by simp [hen]) (by simp [hen])
    exact ⟨fun _ _ => htimep, fun hnext => absurd hnext (rewound_step c nofun nofun),
      fun hmode _ => hopened hmode (.inl hen), fun s hs => absurd hs (hnone (by simp [hen]) s)⟩
  | connect ok =>
    change c.next = .connect at hen
    have htimep := hrewound (by simp [hen]) (by simp [hen])
    refine ⟨fun _ _ => htimep, fun hnext => absurd hnext (rewound_step c nofun nofun),
      fun hmode _ => hopened hmode (.inr (.inl hen)), fun s hs => ⟨rfl, ?_⟩⟩
    simp only [Client.step] at hs
    split at hs
    · exact (Option.some.inj hs).symm
    · cases hs
  | alarm env =>
    exact ⟨fun _ _ hcalls => absurd hcalls (Nat.succ_ne_zero _),
      fun _ hcalls => absurd hcalls (Nat.succ_ne_zero _), hopened, hconnected⟩

end SetupInv

/-- In every run each call of `print_msg` works on finished set-up exactly when each
signal comes after `connect` has succeeded. -/
theorem setup_iff_alarmsConnected (ivS target : Int64) (mode : Int32) (modeName : String)
    (es : List SetupEvent)
    (hadm : (setup ivS target mode modeName).Admits (.start ivS target mode modeName) es) :
    (setup ivS target mode modeName).Along CallsOnFinishedSetup
        (.start ivS target mode modeName) es ↔
      (setup ivS target mode modeName).Along AlarmsConnected
        (.start ivS target mode modeName) es := by
  refine Machine.along_congr (I := SetupInv) (fun _ _ h hen => h.step hen) (fun c e h _ => ?_)
    (SetupInv.start ivS target mode modeName) hadm
  cases e with
  | alarm env => exact h.onFinishedSetup_iff env
  | _ => exact Iff.rfl

def cardClock : Env where
  systemTime _ := ⟨1700000005, 7000⟩
  ioPcieTime _ := ⟨1700000005, 2000⟩
  hcPcieTime := ⟨1700000005, 2000⟩
  localtime _ := ⟨22, 13, 25⟩

/-- Only descriptor 3 is the card. -/
def cardThree : Env :=
  { cardClock with ioPcieTime := fun fd => if fd = 3 then ⟨1700000005, 2000⟩ else ⟨0, 0⟩ }

def setUpInTime : List SetupEvent :=
  [.setitimer 0, .rewind, .openCard 3, .socket 4, .connect true, .alarm cardThree]

theorem setup_iff_in_time :
    (setup 5 1700000005 1 "io_pcie_time").Along CallsOnFinishedSetup
      (.start 5 1700000005 1 "io_pcie_time") setUpInTime :=
  (setup_iff_alarmsConnected 5 1700000005 1 "io_pcie_time" setUpInTime
    ⟨rfl, rfl, ⟨rfl, .inr (by decide)⟩, rfl, rfl, ⟨rfl, nofun⟩, trivial⟩).mpr
    ⟨trivial, trivial, trivial, trivial, trivial, rfl, trivial⟩

/-- The signal comes right after the arming. -/
def signalFirst : List SetupEvent := [.setitimer 0, .alarm cardClock]

/-- In mode 3 the record goes to descriptor 0 and has the target one interval late. -/
theorem not_onFinishedSetup_first :
    (setup 5 1700000005 3 "ref_timer_time").Admits (.start 5 1700000005 3 "ref_timer_time")
        signalFirst ∧
      ¬ (setup 5 1700000005 3 "ref_timer_time").Along CallsOnFinishedSetup
        (.start 5 1700000005 3 "ref_timer_time") signalFirst ∧
      let report := printMsg (Client.start 5 1700000005 3 "ref_timer_time").globals cardClock
      report.written.1 = 0 ∧ report.logged.tvSec = 1700000010 := by
  refine ⟨⟨rfl, ⟨rfl, nofun⟩, trivial⟩, fun h => ?_, by decide⟩
  cases h.2.1.socket

end TimeTools.Timer.TcpClient
