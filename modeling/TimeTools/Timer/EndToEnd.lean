import TimeTools.Timer.LogFile
import TimeTools.Timer.Server
import TimeTools.Timer.Setup

/-!
# From the client's log to the server's lines

`print_msg` logs a line and sends a record, and the server prints a line for every record
it reads.  The two lines are made from the same call by different routes: the one keeps
its numbers in decimal, the other in the bytes of the record, with an ordinal that the
server counts for itself.  As long as the client is connected before its first signal, the
stream arrives a record at a time and ends in order, and the seconds fit an `int`, the
server's lines are those of the client's log, in all four modes (`server_lines_eq_log`).
-/

namespace TimeTools.Timer

open TextLog FixedWidth

/-- The seconds, nanoseconds and ordinal of a line of the server. -/
def stampOf (fields : Received) (count : Int32) : Stamp :=
  { tvSec := fields.tsSec, tvNsec := fields.tsNsec.toUInt64, rdNum := count }

def Line.stamp (line : Line) : Stamp := stampOf line.fields line.count

/-! ## The server counts its lines -/

namespace Conn

variable {s : Conn} {m : Nat}

theorem count_foldl_data (hreturned : s.returned = false) (hcount : s.count = .ofNat m)
    (cs : List (List UInt8)) :
    ((cs.map .data).foldl step s).lines.map Line.count =
      s.lines.map Line.count ++ ordinals m cs.length := by
  induction cs generalizing s m with
  | nil => simp [ordinals]
  | cons c cs ih =>
    have hnext : (s.step (.data c)).count = .ofNat (m + 1) := by
      rw [Int32.ofNat_add, ← hcount]
      simp [step, hreturned, printLine]
    have hlines : (s.step (.data c)).lines.map Line.count =
        s.lines.map Line.count ++ [.ofNat m + 1] := by
      rw [← hcount]
      simp [step, hreturned, printLine]
    rw [List.map_cons, List.foldl_cons, ih (step_data hreturned c).2.2 hnext, hlines,
      List.append_assoc, List.length_cons, ordinals_succ, List.singleton_append]

end Conn

namespace Delivery

variable {sent : List Message} {d : Delivery sent}

/-- What the server prints of a stream that arrives a record at a time. -/
theorem RecordAtATime.lines (h : d.RecordAtATime) (n : Nat) :
    (d.after n).lines.map Line.stamp =
      List.zipWith stampOf (d.received.map Message.fields) (ordinals 0 d.received.length) := by
  have hframed := d.framed_iff.mpr h
  have hfields := hframed.printed n
  have hcount : (d.after n).lines.map Line.count = ordinals 0 d.received.length := by
    have hzero : (d.after 0).lines.map Line.count = ordinals 0 d.received.length := by
      have hdata := Conn.count_foldl_data (s := Conn.start) (m := 0) rfl rfl d.chunks
      have hlen := congrArg List.length (d.chunks_eq h.full)
      rw [List.length_map] at hlen
      rw [← hlen]
      simpa [after, processConnServer, reads, Conn.start] using hdata
    cases n with
    | zero => exact hzero
    | succ n =>
      rw [d.after_succ_of_endOfStream h.closed]
      exact hzero
  rw [← hfields, ← hcount, Conn.printed, List.zipWith_map, List.zipWith_self]
  rfl

end Delivery

/-! ## What a call logs and what it sends -/

/-- The clock returns times with a fraction of a second, and the card's are past the first
second of 1970. -/
structure Env.Sane (env : Env) : Prop where
  systemTime : ∀ n, (env.systemTime n).Valid
  ioPcieTime : ∀ fd, (env.ioPcieTime fd).Valid ∧ 1 ≤ (env.ioPcieTime fd).tvSec.toInt
  hcPcieTime : env.hcPcieTime.Valid ∧ 1 ≤ env.hcPcieTime.tvSec.toInt

namespace TcpClient

/-- The time that a call logs and sends. -/
def sentTime (g : Globals) (env : Env) : Timespec :=
  if g.mode = 1 ∨ g.mode = 2 then
    subNs (if g.mode = 1 then env.ioPcieTime g.fd else env.hcPcieTime) (env.systemTime 0).tvNsec
  else if g.mode = 0 then env.systemTime 0
  else { tvSec := g.timep + g.ivS, tvNsec := 0 }

/-- Mode 0 takes the local time of its second reading. -/
def message (g : Globals) (env : Env) : Message :=
  let systime := if g.mode = 0 then env.systemTime 1 else env.systemTime 0
  let tmp := env.localtime systime.tvSec
  { hour := tmp.tmHour, min := tmp.tmMin, sec := tmp.tmSec, time := sentTime g env }

theorem printMsg_eq (g : Globals) (env : Env) :
    (printMsg g env).rdNum = g.rdNum + 1 ∧
      (printMsg g env).logged = .ofTime (sentTime g env) (g.rdNum + 1) ∧
      (printMsg g env).written = (g.s, (message g env).record) := by
  by_cases h1 : g.mode = 1
  · simp [printMsg, sentTime, message, Message.record, h1]
  by_cases h2 : g.mode = 2
  · simp [printMsg, sentTime, message, Message.record, h2]
  by_cases h0 : g.mode = 0
  · simp [printMsg, sentTime, message, Message.record, h0]
  · simp [printMsg, sentTime, message, Message.record, h0, h1, h2]

theorem valid_subNs {card systime : Timespec} (hcard : card.Valid) (hsec : 1 ≤ card.tvSec.toInt)
    (hsys : systime.Valid) : (subNs card systime.tvNsec).Valid := by
  obtain ⟨htotal, hcanonical⟩ := subNs_spec hcard hsys.1 hsys.2
  obtain ⟨hlo, hhi⟩ := hcard
  obtain ⟨hslo, hshi⟩ := hsys
  refine (hcanonical.settable ?_).2
  rw [htotal, Timespec.total_def]
  omega

theorem valid_sentTime (g : Globals) {env : Env} (h : env.Sane) : (sentTime g env).Valid := by
  obtain ⟨hsys, hio, hhc⟩ := h
  rw [sentTime]
  split_ifs
  · exact valid_subNs (hio g.fd).1 (hio g.fd).2 (hsys 0)
  · exact valid_subNs hhc.1 hhc.2 (hsys 0)
  · exact hsys 0
  · exact (show (0 : Int) ≤ 0 ∧ (0 : Int) < 1000000000 by decide)

theorem toUInt64_tvNsec {t : Timespec} (h : t.Valid) :
    t.tvNsec.toUInt64.toUInt32.toUInt64 = t.tvNsec.toUInt64 := by
  obtain ⟨hlo, hhi⟩ := h
  have hword := toNat_toUInt64 t.tvNsec
  apply UInt64.toNat_inj.mp
  rw [UInt32.toNat_toUInt64, UInt64.toNat_toUInt32]
  omega

theorem logged_eq_stampOf (g : Globals) {env : Env} (h : env.Sane) :
    (printMsg g env).logged = stampOf (message g env).fields (g.rdNum + 1) := by
  rw [(printMsg_eq g env).2.1, Stamp.ofTime, ← toUInt64_tvNsec (valid_sentTime g h)]
  rfl

/-! ## Runs -/

/-- The calls of a run. -/
def reports : Client → List SetupEvent → List Report
  | _, [] => []
  | c, .alarm env :: es => printMsg c.globals env :: reports (c.step (.alarm env)) es
  | c, e :: es => reports (c.step e) es

def messages : Client → List SetupEvent → List Message
  | _, [] => []
  | c, .alarm env :: es => message c.globals env :: messages (c.step (.alarm env)) es
  | c, e :: es => messages (c.step e) es

theorem logged_reports {c : Client} {m : Nat} {es : List SetupEvent}
    (hcount : c.globals.rdNum = .ofNat m) (hsane : ∀ env, .alarm env ∈ es → env.Sane) :
    (reports c es).map Report.logged =
      List.zipWith stampOf ((messages c es).map Message.fields)
        (ordinals m (messages c es).length) := by
  induction es generalizing c m with
  | nil => rfl
  | cons e es ih =>
    have hrest : ∀ env, .alarm env ∈ es → env.Sane :=
      fun env henv => hsane env (List.mem_cons_of_mem e henv)
    cases e with
    | alarm env =>
      have hnext : (c.step (.alarm env)).globals.rdNum = .ofNat (m + 1) := by
        show (printMsg c.globals env).rdNum = _
        rw [(printMsg_eq c.globals env).1, hcount, Int32.ofNat_add]
        rfl
      have hlogged := logged_eq_stampOf c.globals (hsane env List.mem_cons_self)
      rw [hcount] at hlogged
      rw [reports, messages, List.map_cons, List.map_cons, List.length_cons, ordinals_succ,
        List.zipWith_cons_cons, ih hnext hrest, hlogged]
    | setitimer res | rewind | openCard fd | socket s | connect ok => exact ih hcount hrest

variable {ivS target : Int64} {mode : Int32} {modeName : String} {c : Client} {s : Int32}

theorem connected_run {es : List SetupEvent} (h : SetupInv c) (hs : c.connected = some s)
    (hadm : (setup ivS target mode modeName).Admits c es) :
    ((setup ivS target mode modeName).run c es).connected = some s := by
  induction es generalizing c with
  | nil => exact hs
  | cons e es ih =>
    obtain ⟨hen, hadm⟩ := hadm
    have hnext := (h.connected s hs).1
    refine ih (h.step hen) ?_ hadm
    cases e with
    | alarm env => exact hs
    | setitimer res =>
      have hen : c.next = .setitimer := hen
      rw [hnext] at hen
      cases hen
    | rewind =>
      have hen : c.next = .rewind := hen
      rw [hnext] at hen
      cases hen
    | openCard fd =>
      have hen : c.next = .openCard := hen.1
      rw [hnext] at hen
      cases hen
    | socket s =>
      have hen : c.next = .socket := hen
      rw [hnext] at hen
      cases hen
    | connect ok =>
      have hen : c.next = .connect := hen
      rw [hnext] at hen
      cases hen

/-- Every record is written whole to the socket that the client has connected. -/
theorem written_reports {es : List SetupEvent} (h : SetupInv c)
    (hadm : (setup ivS target mode modeName).Admits c es)
    (halarms : (setup ivS target mode modeName).Along AlarmsConnected c es)
    (hs : ((setup ivS target mode modeName).run c es).connected = some s) :
    (reports c es).map Report.written = (messages c es).map fun m => (s, m.record) := by
  induction es generalizing c with
  | nil => rfl
  | cons e es ih =>
    have hrest := ih (h.step hadm.1) hadm.2 halarms.2 hs
    cases e with
    | alarm env =>
      obtain ⟨s', hs'⟩ := Option.isSome_iff_exists.mp halarms.1
      obtain rfl : s' = s := Option.some.inj ((connected_run h hs' hadm).symm.trans hs)
      have hwritten := (printMsg_eq c.globals env).2.2
      rw [← (h.connected s' hs').2] at hwritten
      rw [reports, messages, List.map_cons, List.map_cons, hwritten]
      exact congrArg _ hrest
    | setitimer res | rewind | openCard fd | socket s | connect ok => exact hrest

/-- If every signal finds the client connected, its records go whole and in order to the
socket; and whatever part of them the server has read, a record at a time, with seconds that
fit an `int` and to the end of the stream, the lines it has printed are the first lines of the
client's log, number for number. -/
theorem server_lines_eq_log (ivS target : Int64) (mode : Int32) (modeName : String)
    (es : List SetupEvent)
    (hadm : (setup ivS target mode modeName).Admits (.start ivS target mode modeName) es)
    (halarms : (setup ivS target mode modeName).Along AlarmsConnected
      (.start ivS target mode modeName) es)
    (hsane : ∀ env, .alarm env ∈ es → env.Sane) {log : List Char}
    (hlog : stampFormat.IsLog
      ((reports (.start ivS target mode modeName) es).map Report.logged) log) :
    let sent := messages (.start ivS target mode modeName) es
    (∀ s, ((setup ivS target mode modeName).run (.start ivS target mode modeName) es).connected =
        some s →
      (reports (.start ivS target mode modeName) es).map Report.written =
        sent.map fun m => (s, m.record)) ∧
      ∀ d : Delivery sent, d.RecordAtATime → ∀ n,
        (d.after n).lines.map Line.stamp =
          (stampFormat.readText log).take (d.chunks.flatten.length / bufferSize) := by
  intro sent
  refine ⟨fun s => written_reports (SetupInv.start ivS target mode modeName) hadm halarms,
    fun d hd n => ?_⟩
  have hreceived : d.received.length ≤ sent.length := List.length_take_le' _ _
  obtain ⟨rest, hlength⟩ := Nat.exists_eq_add_of_le hreceived
  have htake : (ordinals 0 sent.length).take d.received.length =
      ordinals 0 d.received.length := by
    rw [hlength, ordinals_add, List.take_left' (length_ordinals 0 _)]
  have hfields : (sent.map Message.fields).take d.received.length =
      d.received.map Message.fields := by
    rw [← List.map_take, Delivery.received, List.length_take]
    simp
  rw [hd.lines, hlog.readText, logged_reports (m := 0) rfl hsane, ← d.length_received,
    List.take_zipWith, hfields, htake]

/-- One interval later, and a little more of the interval gone. -/
def laterClock : Env where
  systemTime _ := ⟨1700000010, 9000⟩
  ioPcieTime _ := ⟨1700000010, 3000⟩
  hcPcieTime := ⟨1700000010, 3000⟩
  localtime _ := ⟨22, 13, 30⟩

def twoCalls : List SetupEvent :=
  [.setitimer 0, .rewind, .socket 4, .connect true, .alarm cardClock, .alarm laterClock]

theorem endOfStream_final :
    ReadResult.endOfStream = .endOfStream ∨ ReadResult.endOfStream = .error := .inl rfl

/-- The server reads the records of `twoCalls` one by one, and the end of the stream. -/
def twoRecords : Delivery (messages (.start 5 1700000005 2 "hc_pcie_time") twoCalls) where
  chunks := (messages (.start 5 1700000005 2 "hc_pcie_time") twoCalls).map Message.record
  closed := .endOfStream
  chunk_pos := by decide
  chunk_le := by decide
  from_sent := List.prefix_refl _
  closed_final := endOfStream_final

theorem sane_of_twoCalls : ∀ env, .alarm env ∈ twoCalls → env.Sane := by
  have hsystem : (⟨1700000005, 7000⟩ : Timespec).Valid := by decide
  have hcard : (⟨1700000005, 2000⟩ : Timespec).Valid ∧ 1 ≤ (1700000005 : Int64).toInt := by decide
  have hsystem' : (⟨1700000010, 9000⟩ : Timespec).Valid := by decide
  have hcard' : (⟨1700000010, 3000⟩ : Timespec).Valid ∧ 1 ≤ (1700000010 : Int64).toInt := by
    decide
  intro env henv
  simp only [twoCalls, List.mem_cons, List.not_mem_nil, or_false, reduceCtorEq, false_or,
    SetupEvent.alarm.injEq] at henv
  rcases henv with rfl | rfl
  · exact ⟨fun _ => hsystem, fun _ => hcard, hcard⟩
  · exact ⟨fun _ => hsystem', fun _ => hcard', hcard'⟩

theorem server_lines_eq_log_of_two :
    (twoRecords.after 1).lines.map Line.stamp =
      (stampFormat.readText (stampFormat.text
        ((reports (.start 5 1700000005 2 "hc_pcie_time") twoCalls).map
          fun r => .record r.logged))).take 2 := by
  have hrecords := stampFormat.isLog_nil.records
    ((reports (.start 5 1700000005 2 "hc_pcie_time") twoCalls).map Report.logged)
  rw [List.map_map] at hrecords
  exact (server_lines_eq_log 5 1700000005 2 "hc_pcie_time" twoCalls
    ⟨rfl, rfl, rfl, rfl, ⟨rfl, nofun⟩, ⟨rfl, nofun⟩, trivial⟩
    ⟨trivial, trivial, trivial, trivial, rfl, rfl, trivial⟩ sane_of_twoCalls hrecords).2
    twoRecords ⟨Blocks.full_map Message.length_record _, rfl, by decide⟩ 1

end TcpClient

end TimeTools.Timer
