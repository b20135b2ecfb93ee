import TimeTools.Timer.LogFile

/-!
# What a reading costs

`rdtime_cost` reads the system clock, then the time that its mode names, then the clock
again, and logs the difference.  The two instants are formed in a `long`, and so is their
difference; whatever the instants are, it is the time that has passed as long as that is
less than 2^63 ns.  The calls of one process do not overlap, so their costs add up to no
more than the time in which they all fall (`cost_log_of_run`).
-/

namespace TimeTools.Timer.RdtimeCost

open CString TextLog FixedWidth Signal

/-- What `clock_gettime` returns at each call, the card through the descriptor, and what
the hypercall of a number returns. -/
structure Env where
  clock : Nat → Timespec
  ioPcieTime : Int32 → Timespec
  hc : UInt32 → Timespec

def kvmHcGetPcieTime : UInt32 := 100

def kvmHcDoNothing : UInt32 := 98

structure Cost where
  rdNum : Int32
  cost : Int64
  deriving DecidableEq, Repr

/-- `time` is read and not used. -/
structure Report where
  rdNum : Int32
  time : Timespec
  cost : Cost
  deriving DecidableEq, Repr

def timeStart (env : Env) : Timespec := env.clock 0

/-- In mode 0 the time between the two readings is itself a reading of the clock. -/
def timeEnd (mode : Int32) (env : Env) : Timespec :=
  if mode = 1 ∨ mode = 2 ∨ mode = 3 then env.clock 1 else env.clock 2

def printMsg (g : Globals) (env : Env) : Report :=
  let rdNum := g.rdNum + 1
  let timeStart := timeStart env
  let time :=
    if g.mode = 1 then env.ioPcieTime g.fd
    else if g.mode = 2 then env.hc kvmHcGetPcieTime
    else if g.mode = 3 then env.hc kvmHcDoNothing
    else env.clock 1
  let timeEnd := timeEnd g.mode env
  let cost := (timeEnd.tvSec * nsec + timeEnd.tvNsec) -
    (timeStart.tvSec * nsec + timeStart.tvNsec)
  { rdNum := rdNum, time := time, cost := { rdNum := rdNum, cost := cost } }

/-- `"%d, %ld\n"`. -/
def costFormat : Format Cost where
  print c := (formatInt c.rdNum.toInt, [formatInt c.cost.toInt])
  read
    | [num, cost] => some { rdNum := atoi num, cost := strtol cost }
    | _ => none
  ne_nil _ := formatInt_ne_nil _
  numeric c := by
    intro f hf d hd
    simp only [List.mem_cons, List.not_mem_nil, or_false] at hf
    rcases hf with rfl | rfl
    · exact isNumeric_iff.mpr (mem_formatInt hd)
    · exact isNumeric_iff.mpr (mem_formatInt hd)
  read_print c := by
    have hnum := atoi_formatInt c.rdNum.le_toInt c.rdNum.toInt_lt
    have hcost := strtol_formatInt c.cost.le_toInt c.cost.toInt_lt
    rw [Int32.ofInt_toInt] at hnum
    rw [Int64.ofInt_toInt] at hcost
    simp only [List.map_cons, List.map_nil, strtol_space, hnum, hcost]

example : costFormat.line { rdNum := 12, cost := -80 } = "12, -80".toList := by decide

/-- What a call of the handler finds: the `fd` that `main` has left, and the clocks. -/
structure Call where
  fd : Int32
  env : Env

def onSignal (g : Globals) (input : Call) : Globals × Cost :=
  let report := printMsg { g with fd := input.fd } input.env
  ({ g with fd := input.fd, rdNum := report.rdNum }, report.cost)

theorem counts_onSignal : Counts onSignal Globals.rdNum Cost.rdNum where
  globals _ _ := rfl
  record _ _ := rfl

def costWriters {κ : Type} (starts : κ → Start .rdtimeCost) :
    HandlerLog.Writers κ Globals Call Cost where
  handler := onSignal
  format := costFormat
  globals k :=
    { rdNum := 0, fd := -1, mode := (starts k).settings.mode
      modeName := (starts k).settings.modeName }
  IsHeader k ls := Program.IsHeader (starts k) ls
  headerLine k := Program.headerLine_of_isHeader (starts k)

/-! ## Costs and time -/

/-- The time that passes in a call. -/
def elapsed (mode : Int32) (call : Call) : Int :=
  (timeEnd mode call.env).total - (timeStart call.env).total

/-- The calls fall one after the other between `t` and `t'`, and the clock runs forward in
each. -/
def Falls (mode : Int32) : Int → List Call → Int → Prop
  | t, [], t' => t ≤ t'
  | t, call :: calls, t' =>
    t ≤ (timeStart call.env).total ∧
      (timeStart call.env).total ≤ (timeEnd mode call.env).total ∧
      Falls mode (timeEnd mode call.env).total calls t'

variable {mode : Int32} {t t' : Int} {calls : List Call}

theorem Falls.le (h : Falls mode t calls t') : t ≤ t' := by
  induction calls generalizing t with
  | nil => exact h
  | cons call calls ih =>
    obtain ⟨hstart, hend, hrest⟩ := h
    have hle := ih hrest
    omega

theorem Falls.elapsed_range (h : Falls mode t calls t') :
    ∀ call ∈ calls, 0 ≤ elapsed mode call ∧ elapsed mode call ≤ t' - t := by
  induction calls generalizing t with
  | nil => simp
  | cons call calls ih =>
    obtain ⟨hstart, hend, hrest⟩ := h
    have hle := hrest.le
    intro c hc
    rcases List.mem_cons.mp hc with rfl | hc
    · rw [elapsed]
      omega
    · obtain ⟨hlo, hhi⟩ := ih hrest c hc
      omega

/-- Calls that do not overlap take no longer than the time they fall in. -/
theorem Falls.sum_elapsed (h : Falls mode t calls t') :
    (calls.map (elapsed mode)).sum ≤ t' - t := by
  induction calls generalizing t with
  | nil =>
    have hle : t ≤ t' := h
    simp only [List.map_nil, List.sum_nil]
    omega
  | cons call calls ih =>
    obtain ⟨hstart, hend, hrest⟩ := h
    have hsum := ih hrest
    rw [List.map_cons, List.sum_cons, elapsed]
    omega

theorem toInt_instant (time : Timespec) :
    (time.tvSec * nsec + time.tvNsec).toInt = time.total.bmod (2 ^ 64) := by
  rw [Int64.toInt_add, Int64.toInt_mul, toInt_nsec, Int.bmod_add_bmod, Timespec.total_def]

/-- The cost is what has passed, although the two instants may leave the word. -/
theorem toInt_cost {g : Globals} {call : Call} (hfits : FitsInt64 (elapsed g.mode call)) :
    (onSignal g call).2.cost.toInt = elapsed g.mode call := by
  show Int64.toInt ((_ * nsec + _) - (_ * nsec + _)) = _
  rw [Int64.toInt_sub, toInt_instant, toInt_instant, Int.bmod_sub_bmod, Int.sub_bmod_bmod]
  exact bmod64_eq_of_fits hfits

theorem mode_onSignal (g : Globals) (call : Call) : (onSignal g call).1.mode = g.mode := rfl

theorem cost_loop {g : Globals} (hmode : g.mode = mode)
    (h : ∀ call ∈ calls, FitsInt64 (elapsed mode call)) :
    (loop onSignal g calls).2.map (·.cost.toInt) = calls.map (elapsed mode) := by
  induction calls generalizing g with
  | nil => rfl
  | cons call calls ih =>
    obtain ⟨hcall, hcalls⟩ := List.forall_mem_cons.mp h
    subst hmode
    have hcost := toInt_cost hcall
    have hrest := ih (mode_onSignal g call) hcalls
    exact congr (congrArg List.cons hcost) hrest

/-- What a process has logged when its calls fall into less than 2^63 ns. -/
theorem Falls.costs {g : Globals} {s : State Globals Cost} (hs : s.Follows onSignal g calls)
    (hfalls : Falls g.mode t calls t') (hshort : t' - t < 2 ^ 63) :
    s.results.map (·.cost.toInt) = calls.map (elapsed g.mode) ∧
      (∀ c ∈ s.results, 0 ≤ c.cost.toInt) ∧ (s.results.map (·.cost.toInt)).sum ≤ t' - t := by
  have hfits : ∀ call ∈ calls, FitsInt64 (elapsed g.mode call) := by
    intro call hcall
    obtain ⟨hlo, hhi⟩ := hfalls.elapsed_range call hcall
    exact ⟨by omega, by omega⟩
  have hcosts := cost_loop rfl hfits
  rw [hs] at hcosts
  refine ⟨hcosts, fun c hc => ?_, ?_⟩
  · have hmem : c.cost.toInt ∈ s.results.map (·.cost.toInt) := List.mem_map_of_mem hc
    rw [hcosts] at hmem
    obtain ⟨call, hcall, heq⟩ := List.mem_map.mp hmem
    rw [← heq]
    exact (hfalls.elapsed_range call hcall).1
  · rw [hcosts]
    exact hfalls.sum_elapsed

/-- The log reads back as a merge of the costs of the processes, each numbered from 1.  If
the calls of a process fall one after the other into less than 2^63 ns, each of its costs
is the time that passed in its call, and all of them add up to no more than they fell in. -/
theorem cost_log_of_run {κ : Type} [DecidableEq κ] (starts : κ → Start .rdtimeCost)
    {es : List (HandlerLog.Event κ Call)}
    (hadm : (costWriters starts).machine.Admits (costWriters starts).machine.init es) :
    let w := (costWriters starts).machine.run (costWriters starts).machine.init es
    HandlerLog.IsMerge (costFormat.readText w.file) (fun k => (w.process k).output) ∧
      ∀ k, (w.process k).Accounted ∧
        (w.process k).output.map Cost.rdNum = ordinals 0 (w.process k).output.length ∧
        ∀ t t', Falls (starts k).settings.mode t (HandlerLog.Writers.inputs k es) t' →
          t' - t < 2 ^ 63 →
          (w.process k).results.map (·.cost.toInt) =
              (HandlerLog.Writers.inputs k es).map (elapsed (starts k).settings.mode) ∧
            (∀ c ∈ (w.process k).results, 0 ≤ c.cost.toInt) ∧
            ((w.process k).results.map (·.cost.toInt)).sum ≤ t' - t := by
  intro w
  obtain ⟨hmerge, hprocess⟩ := (costWriters starts).readText_run hadm
  refine ⟨hmerge, fun k => ?_⟩
  obtain ⟨haccounted, hfollows⟩ := hprocess k
  exact ⟨haccounted, counts_onSignal.output rfl hfollows, fun t t' => Falls.costs hfollows⟩

/-- Two processes.  One reads through the driver twice, the first time over the end of a
second, and has an expiry merged in between; the other reads the clock itself meanwhile. -/
theorem cost_log_of_two_processes :
    let starts : Bool → Start .rdtimeCost := fun k =>
      if k then
        { argc := 3, opts := [.m ['1']], arms := rfl
          settings := { start := none, ivtime := 5000000, mode := 1, modeName := "io_pcie_time" } }
      else { argc := 1, opts := [], settings := Program.rdtimeCost.defaults, arms := rfl }
    let call (fd : Int32) (start finish : Timespec) : Call :=
      { fd := fd
        env := { clock := fun n => if n = 0 then start else finish
                 ioPcieTime := fun _ => ⟨0, 0⟩, hc := fun _ => ⟨0, 0⟩ } }
    let first := call 3 ⟨7, 999999000⟩ ⟨8, 300⟩
    let second := call 3 ⟨18, 400⟩ ⟨18, 1600⟩
    let es : List (HandlerLog.Event Bool Call) :=
      [.signal true .expire, .signal true (.deliver first), .signal false .expire,
        .signal true .expire, .signal true .expire,
        .signal false (.deliver (call (-1) ⟨9, 100⟩ ⟨9, 150⟩)), .signal true .finish,
        .signal false .finish, .signal true (.deliver second), .signal true .finish]
    let w := (costWriters starts).machine.run (costWriters starts).machine.init es
    HandlerLog.IsMerge (costFormat.readText w.file) (fun k => (w.process k).output) ∧
      (w.process true).merged = 1 ∧ (w.process true).results.map (·.cost.toInt) = [1300, 1200] ∧
      ((w.process true).results.map (·.cost.toInt)).sum ≤ 18000001600 - 7000000000 := by
  intro starts call first second es w
  have hadm : (costWriters starts).machine.Admits (costWriters starts).machine.init es :=
    ⟨trivial, ⟨rfl, rfl⟩, trivial, trivial, trivial, ⟨rfl, rfl⟩, rfl, rfl, ⟨rfl, rfl⟩, rfl, trivial⟩
  have hend : (timeEnd 1 second.env).total ≤ 18000001600 := by decide
  have hfalls : Falls 1 7000000000 [first, second] 18000001600 :=
    ⟨by decide, by decide, by decide, by decide, hend⟩
  obtain ⟨hmerge, hprocess⟩ := cost_log_of_run starts hadm
  obtain ⟨-, -, hcosts⟩ := hprocess true
  obtain ⟨hlist, -, hsum⟩ := hcosts 7000000000 18000001600 hfalls (by decide)
  exact ⟨hmerge, rfl, hlist.trans (by decide), hsum⟩

end TimeTools.Timer.RdtimeCost
