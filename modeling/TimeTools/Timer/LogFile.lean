import TimeTools.Foundation.HandlerLog
import TimeTools.Timer.StartOption

/-!
# The log files

Each timer appends to a log file of its own: `main` the two parts of a header, and the
handler a line for every signal.  Every `fopen` to `fclose` is one append.  Several
processes of a timer share the file, signals arrive at any time, and a header can be split
by lines of the same process or of others; the lines are read back all the same
(`stamp_log_of_run`).
-/

namespace TimeTools.Timer

open CString TextLog Signal

/-! ## What is appended -/

/-- `"%ld, %09lu, %d\n"`, and the numbers as a reader takes them. -/
def stampFormat : Format Stamp where
  print s := (formatInt s.tvSec.toInt, [formatPadded 9 s.tvNsec.toNat, formatInt s.rdNum.toInt])
  read
    | [sec, nsec, num] => some { tvSec := strtol sec, tvNsec := strtoul nsec, rdNum := atoi num }
    | _ => none
  ne_nil _ := formatInt_ne_nil _
  numeric s := by
    intro f hf c hc
    simp only [List.mem_cons, List.not_mem_nil, or_false] at hf
    rcases hf with rfl | rfl | rfl
    · exact isNumeric_iff.mpr (mem_formatInt hc)
    · exact isNumeric_iff.mpr (.inr (isDigit_formatPadded c hc))
    · exact isNumeric_iff.mpr (mem_formatInt hc)
  read_print s := by
    have hsec := strtol_formatInt s.tvSec.le_toInt s.tvSec.toInt_lt
    have hnsec : strtoul (formatPadded 9 s.tvNsec.toNat) = s.tvNsec := by
      rw [strtoul_formatPadded s.tvNsec.toNat_lt, UInt64.ofNat_toNat]
    have hnum := atoi_formatInt s.rdNum.le_toInt s.rdNum.toInt_lt
    rw [Int64.ofInt_toInt] at hsec
    rw [Int32.ofInt_toInt] at hnum
    simp only [List.map_cons, List.map_nil, strtoul_space, atoi_space, hsec, hnsec, hnum]

example : stampFormat.line { tvSec := -1, tvNsec := 20, rdNum := 3 } =
    "-1, 000000020, 3".toList := by decide

/-- What `mktime` has made of `tmp`. -/
structure LocalTime extends Tm where
  tmYear : Int32
  tmMon : Int32
  tmMday : Int32

/-- A start that arms the timer: the arguments of `main` and the settings they end in. -/
structure Start (program : Program) where
  argc : Nat
  opts : List Opt
  settings : Settings
  arms : program.main argc opts = .arms settings

namespace Program

/-- The rule above and below a header. -/
def rule : List Char := List.replicate 68 '='

def setTimer : Program → List Char
  | rdtimeCost => "\tset timer to get COST of ".toList
  | _ => "\tset timer to get ".toList

/-- `"\n====…\n\tset timer to get %s at %02d-%02d-%02d %02d:%02d:%02d\n"`. -/
def headerStart (program : Program) (modeName : String) (tmp : LocalTime) :
    List (List Char) :=
  [[], rule, program.setTimer ++ modeName.toList ++ " at ".toList ++
    formatInt0 2 (tmp.tmYear + 1900).toInt ++ '-' :: formatInt0 2 (tmp.tmMon + 1).toInt ++
    '-' :: formatInt0 2 tmp.tmMday.toInt ++ ' ' :: formatInt0 2 tmp.tmHour.toInt ++
    ':' :: formatInt0 2 tmp.tmMin.toInt ++ ':' :: formatInt0 2 tmp.tmSec.toInt]

/-- `it_interval` as it is printed: seconds, and microseconds or nanoseconds. -/
def printedInterval : Program → Int64 → Int64 × Int64
  | posixTimer, ivtime =>
    ((itsInterval ivtime.toUInt64).tvSec, (itsInterval ivtime.toUInt64).tvNsec)
  | _, ivtime => ((tickInterval ivtime).tvSec, (tickInterval ivtime).tvUsec)

def intervalUnit : Program → List Char
  | posixTimer => "(ns)".toList
  | _ => "(us)".toList

/-- `"\twith interval %ld(s).%ld(us)\n\tTIME FORMAT: …\n====…\n"`. -/
def headerEnd (program : Program) (ivtime : Int64) : List (List Char) :=
  ["\twith interval ".toList ++ formatInt (program.printedInterval ivtime).1.toInt ++
      "(s).".toList ++ formatInt (program.printedInterval ivtime).2.toInt ++ program.intervalUnit,
    "\tTIME FORMAT: seconds(from 1970-01-01), nanoseconds, ordinal".toList, rule]

/-- The two appends of `main`. -/
def IsHeader {program : Program} (start : Start program) (ls : List (List Char)) : Prop :=
  (∃ tmp, ls = program.headerStart start.settings.modeName tmp) ∨
    ls = program.headerEnd start.settings.ivtime

/-! ## No line of a header looks like a record -/

def modeNames : List String :=
  ["system_time", "io_pcie_time", "hc_pcie_time", "hc_do_nothing", "ref_timer_time"]

theorem modeName_mem (program : Program) (mode : Int32) : program.modeName mode ∈ modeNames := by
  cases program <;> simp only [modeName] <;> split_ifs <;> simp [modeNames]

theorem modeName_mem_of_readOptions {program : Program} {settings settings' : Settings}
    {opts : List Opt} (hmode : settings.modeName ∈ modeNames)
    (h : program.readOptions settings opts = .arms settings') :
    settings'.modeName ∈ modeNames := by
  induction opts generalizing settings with
  | nil =>
    obtain rfl := Outcome.arms.inj h
    exact hmode
  | cons opt opts ih =>
    cases opt with
    | h => exact absurd h (by simp [readOptions])
    | t optarg =>
      simp only [readOptions] at h
      cases hparse : parseStart optarg with
      | faults => simp [hparse] at h
      | refused => simp [hparse] at h
      | start tm =>
        rw [hparse] at h
        refine ih ?_ h
        exact hmode
    | i ivtime =>
      rw [readOptions] at h
      refine ih ?_ h
      exact hmode
    | m optarg =>
      simp only [readOptions] at h
      split at h
      · refine ih ?_ h
        exact program.modeName_mem _
      · exact absurd h (by simp)
    | other =>
      rw [readOptions] at h
      exact ih hmode h

theorem modeName_mem_of_start {program : Program} (start : Start program) :
    start.settings.modeName ∈ modeNames := by
  have harms := start.arms
  have hdefault : program.defaults.modeName ∈ modeNames := List.mem_cons_self
  rw [main] at harms
  split at harms
  · exact modeName_mem_of_readOptions hdefault harms
  · split at harms
    · exact absurd harms (by simp)
    · rw [← Outcome.arms.inj harms]
      exact hdefault

theorem oneLine_formatInt (n : Int) : OneLine (formatInt n) :=
  oneLine_of_numeric fun _ hc => isNumeric_iff.mpr (mem_formatInt hc)

theorem oneLine_formatInt0 (width : Nat) (n : Int) : OneLine (formatInt0 width n) :=
  oneLine_of_numeric fun _ hc => isNumeric_iff.mpr (mem_formatInt0 hc)

theorem oneLine_modeName {modeName : String} (h : modeName ∈ modeNames) :
    OneLine modeName.toList := by
  simp only [modeNames, List.mem_cons, List.not_mem_nil, or_false] at h
  rcases h with rfl | rfl | rfl | rfl | rfl <;> decide

theorem headerLine_rule : HeaderLine rule := by decide

theorem headerLine_setTimer (program : Program) : HeaderLine program.setTimer := by
  cases program <;> decide

theorem oneLine_intervalUnit (program : Program) : OneLine program.intervalUnit := by
  cases program <;> decide

theorem headerLine_headerStart (program : Program) {modeName : String}
    (h : modeName ∈ modeNames) (tmp : LocalTime) :
    ∀ l ∈ program.headerStart modeName tmp, HeaderLine l := by
  have hat : OneLine " at ".toList := by decide
  have hsep : isNewline '-' = false ∧ isNewline ' ' = false ∧ isNewline ':' = false :=
    ⟨rfl, rfl, rfl⟩
  intro l hl
  simp only [headerStart, List.mem_cons, List.not_mem_nil, or_false] at hl
  rcases hl with rfl | rfl | rfl
  · decide
  · exact headerLine_rule
  · simp only [List.append_assoc]
    refine (headerLine_setTimer program).append (by cases program <;> decide) ?_
    simp only [oneLine_append, oneLine_cons, oneLine_modeName h, hat, hsep, oneLine_formatInt0,
      and_self]

theorem headerLine_headerEnd (program : Program) (ivtime : Int64) :
    ∀ l ∈ program.headerEnd ivtime, HeaderLine l := by
  have hsec : OneLine "(s).".toList := by decide
  intro l hl
  simp only [headerEnd, List.mem_cons, List.not_mem_nil, or_false] at hl
  rcases hl with rfl | rfl | rfl
  · simp only [List.append_assoc]
    refine HeaderLine.append (by decide) (by decide) ?_
    simp only [oneLine_append, hsec, oneLine_formatInt, oneLine_intervalUnit, and_self]
  · decide
  · exact headerLine_rule

theorem headerLine_of_isHeader {program : Program} (start : Start program)
    (ls : List (List Char)) (h : IsHeader start ls) : ∀ l ∈ ls, HeaderLine l := by
  rcases h with ⟨tmp, rfl⟩ | rfl
  · exact headerLine_headerStart program (modeName_mem_of_start start) tmp
  · exact headerLine_headerEnd program start.settings.ivtime

end Program

/-! ## Handlers that number what they log -/

variable {γ ι ρ : Type} {handler : Handler γ ι ρ} {count : γ → Int32} {ordinal : ρ → Int32}

/-- `m + 1, …, m + n` as an `int` counts them. -/
def ordinals (m n : Nat) : List Int32 := (List.range' (m + 1) n).map Int32.ofNat

theorem ordinals_succ (m n : Nat) : ordinals m (n + 1) = (.ofNat m + 1) :: ordinals (m + 1) n := by
  rw [ordinals, List.range'_succ, List.map_cons, Int32.ofNat_add]
  rfl

theorem ordinals_add (m n k : Nat) : ordinals m (n + k) = ordinals m n ++ ordinals (m + n) k := by
  rw [ordinals, ← List.range'_append_1, List.map_append, ordinals, ordinals, Nat.add_right_comm]

theorem length_ordinals (m n : Nat) : (ordinals m n).length = n := by simp [ordinals]

/-- Each call adds one to `rd_num` and logs it. -/
structure Counts (handler : Handler γ ι ρ) (count : γ → Int32) (ordinal : ρ → Int32) : Prop where
  globals : ∀ g input, count (handler g input).1 = count g + 1
  record : ∀ g input, ordinal (handler g input).2 = count g + 1

theorem Counts.loop (h : Counts handler count ordinal) {g : γ} {m : Nat} (hg : count g = .ofNat m)
    (inputs : List ι) :
    (loop handler g inputs).2.map ordinal = ordinals m inputs.length := by
  induction inputs generalizing g m with
  | nil => rfl
  | cons input inputs ih =>
    have hnext : count (handler g input).1 = .ofNat (m + 1) := by
      rw [h.globals, hg, Int32.ofNat_add]
      rfl
    have hrecord := h.record g input
    rw [hg] at hrecord
    rw [List.length_cons, ordinals_succ, ← ih hnext, ← hrecord]
    rfl

/-- What has been logged is numbered from 1. -/
theorem Counts.output (h : Counts handler count ordinal) {g : γ} (hg : count g = 0)
    {s : State γ ρ} {inputs : List ι} (hs : s.Follows handler g inputs) :
    s.output.map ordinal = ordinals 0 s.output.length := by
  have hloop := h.loop (m := 0) hg inputs
  have hlength : inputs.length = s.output.length + s.handling.toList.length := by
    rw [← length_loop handler g inputs, hs, State.results, List.length_append]
  rw [hs, State.results, List.map_append, hlength, ordinals_add] at hloop
  exact List.append_inj_left hloop (by rw [List.length_map, length_ordinals])

/-! ## The timers that log what they read -/

/-- What a call of the handler finds: the `fd` that `main` has left, and the clocks. -/
structure Call where
  fd : Int32
  env : Env

/-- `printMsg` of `main_user_timer` and `posix_timer` as a handler. -/
def onSignal (g : Globals) (input : Call) : Globals × Stamp :=
  let report := printMsg { g with fd := input.fd } input.env
  ({ g with fd := input.fd, rdNum := report.rdNum }, report.logged)

theorem counts_onSignal : Counts onSignal Globals.rdNum Stamp.rdNum where
  globals g input := by
    show (printMsg _ _).rdNum = _
    simp only [printMsg]
    split_ifs <;> rfl
  record g input := by
    show (printMsg _ _).logged.rdNum = _
    simp only [printMsg]
    split_ifs <;> rfl

/-- Processes of one of these timers. -/
def stampWriters {κ : Type} {program : Program} (starts : κ → Start program) :
    HandlerLog.Writers κ Globals Call Stamp where
  handler := onSignal
  format := stampFormat
  globals k :=
    { rdNum := 0, fd := -1, mode := (starts k).settings.mode
      modeName := (starts k).settings.modeName }
  IsHeader k ls := Program.IsHeader (starts k) ls
  headerLine k := Program.headerLine_of_isHeader (starts k)

/-- The log reads back as a merge of what the processes have logged.  Each of them has
logged what its handler computes from what it was delivered, numbered from 1, and has
handled, merged or yet to handle every expiry of its timer. -/
theorem stamp_log_of_run {κ : Type} [DecidableEq κ] {program : Program}
    (starts : κ → Start program) {es : List (HandlerLog.Event κ Call)}
    (hadm : (stampWriters starts).machine.Admits (stampWriters starts).machine.init es) :
    let w := (stampWriters starts).machine.run (stampWriters starts).machine.init es
    HandlerLog.IsMerge (stampFormat.readText w.file) (fun k => (w.process k).output) ∧
      ∀ k, (w.process k).Accounted ∧
        (w.process k).output.map Stamp.rdNum = ordinals 0 (w.process k).output.length ∧
        (w.process k).Follows onSignal ((stampWriters starts).globals k)
          (HandlerLog.Writers.inputs k es) := by
  intro w
  obtain ⟨hmerge, hprocess⟩ := (stampWriters starts).readText_run hadm
  refine ⟨hmerge, fun k => ?_⟩
  obtain ⟨haccounted, hfollows⟩ := hprocess k
  exact ⟨haccounted, counts_onSignal.output rfl hfollows, hfollows⟩

/-- Two processes of `main_user_timer`.  One logs between the two appends of the other,
whose timer expires twice more before its handler runs. -/
theorem stamp_log_of_two_timers :
    let starts : Bool → Start .mainUserTimer := fun _ =>
      { argc := 1, opts := [], settings := Program.mainUserTimer.defaults, arms := rfl }
    let call (sec : Int64) : Call :=
      { fd := -1, env := { systemTime := fun _ => ⟨sec, 7⟩, ioPcieTime := fun _ => ⟨0, 0⟩
                           hcPcieTime := ⟨0, 0⟩, localtime := fun _ => ⟨0, 0, 0⟩ } }
    let tmp : LocalTime := ⟨⟨8, 30, 0⟩, 116, 3, 1⟩
    let es : List (HandlerLog.Event Bool Call) :=
      [.header true (Program.mainUserTimer.headerStart "system_time" tmp), .signal false .expire,
        .signal false (.deliver (call 5)), .signal false .finish, .signal true .expire,
        .signal true .expire, .header true (Program.mainUserTimer.headerEnd 5000000),
        .signal true (.deliver (call 6)), .signal true .finish]
    let w := (stampWriters starts).machine.run (stampWriters starts).machine.init es
    HandlerLog.IsMerge (stampFormat.readText w.file) (fun k => (w.process k).output) ∧
      (w.process true).output = [⟨6, 7, 1⟩] ∧ (w.process true).merged = 1 := by
  intro starts call tmp es w
  have hadm : (stampWriters starts).machine.Admits (stampWriters starts).machine.init es :=
    ⟨⟨.inl ⟨tmp, rfl⟩, rfl⟩, trivial, ⟨rfl, rfl⟩, rfl, trivial, trivial, ⟨.inr rfl, rfl⟩,
      ⟨rfl, rfl⟩, rfl, trivial⟩
  exact ⟨(stamp_log_of_run starts hadm).1, rfl, rfl⟩

end TimeTools.Timer
