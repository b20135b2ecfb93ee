import TimeTools.Foundation.CString
import TimeTools.Timer.Arming

/-!
# The `-t` option

The four timers read their options in one loop.  `case 't'` takes the hour, the minute
and the second from three calls of `strtok` and looks only at what a fourth one returns,
so a string with fewer than three fields passes `NULL` to `atoi`, and of a string with
three nothing is checked but that there are three (`parseStart_eq`).  Beside the times of
day, only strings with a fourth field are taken as the usage says (`takesTimeOfDay_iff`).
-/

namespace TimeTools.Timer

open CString

def isColon (c : Char) : Bool := c == ':'

/-- What `case 't'` does: `atoi(NULL)`, the usage and `-1`, or the fields of `tmp`. -/
inductive Parsed
  | faults
  | refused
  | start (tm : Tm)
  deriving DecidableEq, Repr

/-- `case 't'`. -/
def parseStart (optarg : List Char) : Parsed :=
  match strtok isColon optarg with
  | none => .faults
  | some (hour, rest) =>
    match strtok isColon rest with
    | none => .faults
    | some (min, rest) =>
      match strtok isColon rest with
      | none => .faults
      | some (sec, rest) =>
        if (strtok isColon rest).isSome then .refused
        else .start { tmHour := atoi hour, tmMin := atoi min, tmSec := atoi sec }

/-! ## The option loop -/

inductive Program
  | mainUserTimer
  | posixTimer
  | rdtimeCost
  | tcpClient
  deriving DecidableEq, Repr

/-- What `getopt` returns, with its argument.  `-i` gives the interval that `atof` makes
of it; `other` are the options that set nothing here. -/
inductive Opt
  | h
  | t (optarg : List Char)
  | i (ivtime : Int64)
  | m (optarg : List Char)
  | other
  deriving DecidableEq, Repr

/-- `start` is there when `flag` has been cleared. -/
structure Settings where
  start : Option Tm
  ivtime : Int64
  mode : Int32
  modeName : String
  deriving DecidableEq, Repr

/-- `main` arms its timer, prints its usage and returns, or calls `atoi(NULL)`. -/
inductive Outcome
  | arms (settings : Settings)
  | usage (res : Int32)
  | faults
  deriving DecidableEq, Repr

namespace Program

def LegalMode : Program → Int32 → Prop
  | mainUserTimer, mode => mode = 0 ∨ mode = 1 ∨ mode = 2
  | posixTimer, mode => mode = 0 ∨ mode = 1 ∨ mode = 2
  | rdtimeCost, mode => ¬ (3 < mode ∨ mode < 0)
  | tcpClient, mode => ¬ (mode < 0 ∨ 3 < mode)

instance (program : Program) (mode : Int32) : Decidable (program.LegalMode mode) :=
  match program with
  | mainUserTimer => inferInstanceAs (Decidable (mode = 0 ∨ mode = 1 ∨ mode = 2))
  | posixTimer => inferInstanceAs (Decidable (mode = 0 ∨ mode = 1 ∨ mode = 2))
  | rdtimeCost => inferInstanceAs (Decidable ¬(3 < mode ∨ mode < 0))
  | tcpClient => inferInstanceAs (Decidable ¬(mode < 0 ∨ 3 < mode))

/-- `tcp_client` sets `"system_time"` for mode 0 and overwrites it, since the `if` after
that has no `else` before it. -/
def modeName : Program → Int32 → String
  | rdtimeCost, mode =>
    if mode = 1 then "io_pcie_time"
    else if mode = 2 then "hc_pcie_time"
    else if mode = 3 then "hc_do_nothing"
    else "system_time"
  | tcpClient, mode =>
    if mode = 1 then "io_pcie_time"
    else if mode = 2 then "hc_pcie_time"
    else "ref_timer_time"
  | _, mode =>
    if mode = 1 then "io_pcie_time"
    else if mode = 2 then "hc_pcie_time"
    else "system_time"

/-- `DFT_IV` in microseconds, `DFT_IV_SEC` in nanoseconds. -/
def defaultInterval : Program → Int64
  | posixTimer => 5000000000
  | _ => 5000000

def defaults (program : Program) : Settings where
  start := none
  ivtime := program.defaultInterval
  mode := 0
  modeName := "system_time"

/-- The `getopt` loop. -/
def readOptions (program : Program) (settings : Settings) : List Opt → Outcome
  | [] => .arms settings
  | .h :: _ => .usage 0
  | .t optarg :: opts =>
    match parseStart optarg with
    | .faults => .faults
    | .refused => .usage (-1)
    | .start tm => readOptions program { settings with start := some tm } opts
  | .i ivtime :: opts => readOptions program { settings with ivtime := ivtime } opts
  | .m optarg :: opts =>
    let mode := atoi optarg
    if program.LegalMode mode then
      readOptions program { settings with mode := mode, modeName := program.modeName mode } opts
    else .usage (-1)
  | .other :: opts => readOptions program settings opts

/-- `main` up to the arming.  Without arguments `tcp_client` prints its usage and the
others go on with their defaults. -/
def main (program : Program) (argc : Nat) (opts : List Opt) : Outcome :=
  if 2 ≤ argc then program.readOptions program.defaults opts
  else if program = .tcpClient then .usage 0
  else .arms program.defaults

end Program

/-! ## Times of day -/

/-- `field` is a decimal number below `bound`, and `n` its value. -/
structure IsField (bound : Nat) (field : List Char) (n : Int32) : Prop where
  ne_nil : field ≠ []
  digits : ∀ c ∈ field, c.isDigit = true
  lt : Nat.ofDigitChars 10 field 0 < bound
  value : n.toInt = Nat.ofDigitChars 10 field 0

/-- `HH:mm:ss`. -/
def IsTimeOfDay (s : List Char) (tm : Tm) : Prop :=
  ∃ hour min sec, s = hour ++ ':' :: (min ++ ':' :: sec) ∧ IsField 24 hour tm.tmHour ∧
    IsField 60 min tm.tmMin ∧ IsField 60 sec tm.tmSec

/-- When `main` comes to `-t optarg` it takes a time of day for the start time and goes on
with the options after it, and on any other string prints the usage and returns `-1`. -/
structure TakesTimeOfDay (program : Program) (optarg : List Char) : Prop where
  accepts : ∀ tm, IsTimeOfDay optarg tm → ∀ argc before settings, 2 ≤ argc →
    program.main argc before = .arms settings → ∀ after,
    program.main argc (before ++ .t optarg :: after) =
      program.readOptions { settings with start := some tm } after
  refuses : (∀ tm, ¬ IsTimeOfDay optarg tm) → ∀ argc before settings, 2 ≤ argc →
    program.main argc before = .arms settings → ∀ after,
    program.main argc (before ++ .t optarg :: after) = .usage (-1)

/-- `case 't'` depends on the tokens only. -/
theorem parseStart_eq (s : List Char) :
    parseStart s =
      match tokens isColon s with
      | [] => .faults
      | [_] => .faults
      | [_, _] => .faults
      | [hour, min, sec] => .start { tmHour := atoi hour, tmMin := atoi min, tmSec := atoi sec }
      | _ :: _ :: _ :: _ :: _ => .refused := by
  rcases strtok_eq isColon s with ⟨hs, ht⟩ | ⟨hour, s1, hs, ht⟩
  · rw [parseStart, hs, ht]
  rcases strtok_eq isColon s1 with ⟨hs1, ht1⟩ | ⟨min, s2, hs1, ht1⟩
  · simp only [parseStart, hs, ht, hs1, ht1]
  rcases strtok_eq isColon s2 with ⟨hs2, ht2⟩ | ⟨sec, s3, hs2, ht2⟩
  · simp only [parseStart, hs, ht, hs1, ht1, hs2, ht2]
  rcases strtok_eq isColon s3 with ⟨hs3, ht3⟩ | ⟨extra, s4, hs3, ht3⟩
  · simp only [parseStart, hs, ht, hs1, ht1, hs2, ht2, hs3, ht3]
    rfl
  · simp only [parseStart, hs, ht, hs1, ht1, hs2, ht2, hs3, ht3]
    rfl

/-! ## What is accepted -/

theorem IsField.toInt_atoi {bound : Nat} {field : List Char} {n : Int32}
    (h : IsField bound field n) (hbound : bound ≤ 2 ^ 31) : atoi field = n := by
  rw [← Int32.toInt_inj, h.value]
  exact atoi_of_digits h.ne_nil h.digits (Nat.lt_of_lt_of_le h.lt hbound)

theorem IsField.not_isColon {bound : Nat} {field : List Char} {n : Int32}
    (h : IsField bound field n) : ∀ c ∈ field, isColon c = false := by
  intro c hc
  by_contra hcolon
  have hdigit := h.digits c hc
  rw [eq_of_beq (Bool.eq_true_of_not_eq_false hcolon)] at hdigit
  exact absurd hdigit (by decide)

theorem IsTimeOfDay.parseStart_eq {s : List Char} {tm : Tm} (h : IsTimeOfDay s tm) :
    parseStart s = .start tm := by
  obtain ⟨hour, min, sec, rfl, hhour, hmin, hsec⟩ := h
  have htokens : tokens isColon (hour ++ ':' :: (min ++ ':' :: sec)) = [hour, min, sec] := by
    rw [tokens_append hhour.ne_nil hhour.not_isColon rfl,
      tokens_append hmin.ne_nil hmin.not_isColon rfl,
      tokens_singleton hsec.ne_nil hsec.not_isColon]
  rw [Timer.parseStart_eq, htokens]
  simp only [hhour.toInt_atoi (by decide), hmin.toInt_atoi (by decide),
    hsec.toInt_atoi (by decide)]

theorem parseStart_eq_refused_iff {s : List Char} :
    parseStart s = .refused ↔ 4 ≤ (tokens isColon s).length := by
  rw [parseStart_eq]
  rcases tokens isColon s with _ | ⟨_, _ | ⟨_, _ | ⟨_, _ | ⟨_, _⟩⟩⟩⟩ <;> simp

namespace Program

/-- Options that leave the loop running hand their settings to those after them. -/
theorem readOptions_append {program : Program} {settings settings' : Settings}
    {before : List Opt} (h : program.readOptions settings before = .arms settings')
    (opts : List Opt) :
    program.readOptions settings (before ++ opts) = program.readOptions settings' opts := by
  induction before generalizing settings with
  | nil =>
    obtain rfl : settings = settings' := Outcome.arms.inj h
    rfl
  | cons opt before ih =>
    cases opt with
    | h => exact absurd h (by simp [readOptions])
    | t optarg =>
      simp only [List.cons_append, readOptions] at h ⊢
      cases hparse : parseStart optarg with
      | faults => simp [hparse] at h
      | refused => simp [hparse] at h
      | start tm =>
        rw [hparse] at h
        exact ih h
    | i ivtime =>
      rw [List.cons_append, readOptions]
      exact ih h
    | m optarg =>
      simp only [List.cons_append, readOptions] at h ⊢
      by_cases hlegal : program.LegalMode (atoi optarg)
      · rw [if_pos hlegal] at h ⊢
        exact ih h
      · simp [hlegal] at h
    | other =>
      rw [List.cons_append, readOptions]
      exact ih h

/-- `main` at `-t optarg`, after options that leave the loop running. -/
theorem main_t {program : Program} {argc : Nat} {before : List Opt} {settings : Settings}
    (hargc : 2 ≤ argc) (h : program.main argc before = .arms settings)
    (optarg : List Char) (after : List Opt) :
    program.main argc (before ++ .t optarg :: after) =
      match parseStart optarg with
      | .faults => .faults
      | .refused => .usage (-1)
      | .start tm => program.readOptions { settings with start := some tm } after := by
  rw [main, if_pos hargc] at h ⊢
  rw [readOptions_append h, readOptions]

end Program

/-- Apart from times of day, `-t` is taken as it should be only where there is a fourth
field: all else starts the timer at another time or ends in `atoi(NULL)`. -/
theorem takesTimeOfDay_iff (program : Program) (optarg : List Char) :
    TakesTimeOfDay program optarg ↔
      (∃ tm, IsTimeOfDay optarg tm) ∨ 4 ≤ (tokens isColon optarg).length := by
  constructor
  · intro h
    by_cases htime : ∃ tm, IsTimeOfDay optarg tm
    · exact .inl htime
    right
    have hrefused := h.refuses (not_exists.mp htime) 2 [] program.defaults le_rfl rfl []
    rw [Program.main_t le_rfl rfl] at hrefused
    rw [← parseStart_eq_refused_iff]
    cases hparse : parseStart optarg with
    | faults => simp [hparse] at hrefused
    | refused => rfl
    | start tm => simp [hparse, Program.readOptions] at hrefused
  · intro h
    constructor
    · intro tm htm argc before settings hargc harms after
      rw [Program.main_t hargc harms, htm.parseStart_eq]
    · intro hno argc before settings hargc harms after
      rcases h with ⟨tm, htm⟩ | hfour
      · exact absurd htm (hno tm)
      rw [Program.main_t hargc harms, parseStart_eq_refused_iff.mpr hfour]

/-- The example of the usage. -/
example : Program.mainUserTimer.main 7 [.t "8:30:0".toList, .i 5300000, .m ['2']] = .arms
    { start := some { tmHour := 8, tmMin := 30, tmSec := 0 }, ivtime := 5300000, mode := 2,
      modeName := "hc_pcie_time" } := by decide

/-- `-t 12:30` ends in `atoi(NULL)`, and `-t 25:0:0` arms the timer. -/
theorem not_takesTimeOfDay_missing_field :
    Program.mainUserTimer.main 3 [.t "12:30".toList] = .faults ∧
      Program.mainUserTimer.main 3 [.t "25:0:0".toList] = .arms
        { start := some { tmHour := 25, tmMin := 0, tmSec := 0 }, ivtime := 5000000, mode := 0,
          modeName := "system_time" } ∧
      ¬ ∀ program optarg, TakesTimeOfDay program optarg := by
  refine ⟨by decide, by decide, fun h => ?_⟩
  have hfaults : parseStart "12:30".toList = .faults := by decide
  have hno : ∀ tm, ¬ IsTimeOfDay "12:30".toList tm := by
    intro tm htm
    rw [htm.parseStart_eq] at hfaults
    exact Parsed.noConfusion hfaults
  have hrefused := (h .mainUserTimer _).refuses hno 3 [] _ (by decide) rfl []
  exact absurd hrefused (by decide)

end TimeTools.Timer
