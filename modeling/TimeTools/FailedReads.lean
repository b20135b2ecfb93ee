import TimeTools.Foundation.OutParam
import TimeTools.Sync.Servo
import TimeTools.Timer.Handler

/-!
# Reads that fail

`host_sync` looks at the outcome of `HOST_GET_OFFSET` and at none of its three reads
of the system time; `main_user_timer` does not look at the outcome of
`HOST_GET_PCIE_TIME`.  A read that fails leaves its structure as it was, in a frame
of the stack that nothing has initialised, and the pass goes on with it.

The parity of `tv_nsec` goes through every sum and difference of timespecs, so
whatever is left in the frame shows in the time that is set or logged.
-/

namespace TimeTools

open OutParam Sync Timer

/-! ## Parity -/

theorem bmod64_emod_two (n : Int) : n.bmod (2 ^ 64) % 2 = n % 2 := by
  rw [Int.bmod_def]
  split <;> omega

theorem repairSigns_parity (t : Timespec) :
    (repairSigns t).tvNsec.toInt % 2 = t.tvNsec.toInt % 2 := by
  rw [repairSigns]
  split
  · show (t.tvNsec + nsec).toInt % 2 = _
    rw [Int64.toInt_add, bmod64_emod_two, toInt_nsec]
    omega
  · split
    · show (t.tvNsec - nsec).toInt % 2 = _
      rw [Int64.toInt_sub, bmod64_emod_two, toInt_nsec]
      omega
    · rfl

theorem normalizeTime_parity (t : Timespec) :
    (normalizeTime t).tvNsec.toInt % 2 = t.tvNsec.toInt % 2 := by
  rw [normalizeTime, repairSigns_parity]
  show (t.tvNsec - t.tvNsec / nsec * nsec).toInt % 2 = _
  rw [toInt_sub_div_mul_nsec]
  omega

theorem addTime_parity (x y : Timespec) :
    (addTime x y).tvNsec.toInt % 2 = (x.tvNsec.toInt + y.tvNsec.toInt) % 2 := by
  rw [addTime, normalizeTime_parity, Int64.toInt_add, bmod64_emod_two]

theorem subTime_parity (x y : Timespec) :
    (subTime x y).tvNsec.toInt % 2 = (x.tvNsec.toInt - y.tvNsec.toInt) % 2 := by
  rw [subTime, normalizeTime_parity, Int64.toInt_sub, bmod64_emod_two]

theorem subNs_parity (x : Timespec) (y : Int64) :
    (subNs x y).tvNsec.toInt % 2 = (x.tvNsec.toInt - y.toInt) % 2 := by
  rw [subNs, normalizeTime_parity, Int64.toInt_sub, bmod64_emod_two]

theorem steppedTime_parity (offset : Timespec) (r : Readings) :
    (steppedTime offset r).tvNsec.toInt % 2 =
      (r.timeTmpD.tvNsec.toInt - offset.tvNsec.toInt +
        (r.timeTmpB.tvNsec.toInt - r.timeTmpA.tvNsec.toInt)) % 2 := by
  have hC := subTime_parity r.timeTmpB r.timeTmpA
  have hE := subTime_parity r.timeTmpD offset
  rw [steppedTime, addTime_parity]
  omega

/-! ## The loop of `host_sync` -/

namespace Sync

/-- What the four ioctls of a pass write, if they succeed. -/
structure Reads where
  offset : Option Int64
  timeTmpA : Option Timespec
  timeTmpB : Option Timespec
  timeTmpD : Option Timespec
  deriving DecidableEq, Repr

/-- A pass: its reads, the answer of `already_running`, and what the structures of
`update_clock` hold when it is called. -/
structure LoopPass where
  reads : Reads
  running : Bool
  frame : Readings
  deriving DecidableEq, Repr

structure LoopState where
  displayPCIETime : Bool
  offset : Int64
  observedDrift : Int32
  deriving DecidableEq, Repr

/-- What a pass does to the card and to the clock, in order. -/
inductive Action
  | getOffset (ok : Bool)
  | getTime (ok : Bool)
  | call (c : ClockCall)
  deriving DecidableEq, Repr

def Reads.getTimes (reads : Reads) (frame : Readings) : Readings :=
  { timeTmpA := fill reads.timeTmpA frame.timeTmpA
    timeTmpB := fill reads.timeTmpB frame.timeTmpB
    timeTmpD := fill reads.timeTmpD frame.timeTmpD }

/-- `update_clock`, with the reads it makes when it steps. -/
def updateClockActions (observedDrift : Int32) (offset : Timespec) (reads : Reads)
    (frame : Readings) : Int32 × List Action :=
  let (observedDrift, c) := updateClock observedDrift offset (reads.getTimes frame)
  if TakesStep offset then
    (observedDrift, [.getTime reads.timeTmpA.isSome, .getTime reads.timeTmpB.isSome,
      .getTime reads.timeTmpD.isSome, .call c])
  else (observedDrift, [.call c])

def loopPass (s : LoopState) (p : LoopPass) : LoopState × List Action :=
  let offset := fill p.reads.offset s.offset
  if p.reads.offset.isSome then
    if s.displayPCIETime && p.running then ({ s with offset := offset }, [.getOffset true])
    else
      let (observedDrift, actions) :=
        updateClockActions s.observedDrift (splitOffset offset) p.reads p.frame
      ({ s with offset := offset, observedDrift := observedDrift }, .getOffset true :: actions)
  else ({ s with offset := offset }, [.getOffset false])

/-- `host_sync` from the first pass on, with whatever its `offset` holds by then. -/
def syncLoop (displayPCIETime : Bool) (offset : Int64) : Machine LoopState LoopPass where
  init := { displayPCIETime := displayPCIETime, offset := offset, observedDrift := 0 }
  enabled _ _ := True
  step s p := (loopPass s p).1

def timesSet (actions : List Action) : List Timespec :=
  actions.filterMap fun
    | .call (.setTime time) => some time
    | _ => none

/-- The times that a pass sets depend on nothing that was in memory before it, and
when a read of the pass fails there is no call. -/
structure OnlyFromReads (s : LoopState) (p : LoopPass) : Prop where
  fresh : ∀ s' frame, s'.displayPCIETime = s.displayPCIETime →
    timesSet (loopPass s' { p with frame := frame }).2 = timesSet (loopPass s p).2
  quiet : .getOffset false ∈ (loopPass s p).2 ∨ .getTime false ∈ (loopPass s p).2 →
    ∀ c, .call c ∉ (loopPass s p).2

/-- A pass that steps the clock gets all three of its readings. -/
def StepsOnFullReads (displayPCIETime : Bool) (p : LoopPass) : Prop :=
  ∀ offset, p.reads.offset = some offset → (displayPCIETime && p.running) = false →
    100000000 < offset.toInt.natAbs →
    p.reads.timeTmpA.isSome ∧ p.reads.timeTmpB.isSome ∧ p.reads.timeTmpD.isSome

variable {s : LoopState} {p : LoopPass} {offset : Int64}

theorem loopPass_of_none (h : p.reads.offset = none) : (loopPass s p).2 = [.getOffset false] := by
  simp [loopPass, h]

theorem loopPass_of_displays (h : p.reads.offset = some offset)
    (hd : (s.displayPCIETime && p.running) = true) : (loopPass s p).2 = [.getOffset true] := by
  simp only [loopPass, h, hd, Option.isSome_some, if_true]

theorem loopPass_of_step (h : p.reads.offset = some offset)
    (hd : (s.displayPCIETime && p.running) = false) (hstep : TakesStep (splitOffset offset)) :
    (loopPass s p).2 = [.getOffset true, .getTime p.reads.timeTmpA.isSome,
      .getTime p.reads.timeTmpB.isSome, .getTime p.reads.timeTmpD.isSome,
      .call (.setTime (steppedTime (splitOffset offset) (p.reads.getTimes p.frame)))] := by
  simp [loopPass, h, hd, fill, updateClockActions, updateClock, hstep]

theorem loopPass_of_slew (h : p.reads.offset = some offset)
    (hd : (s.displayPCIETime && p.running) = false) (hslew : ¬ TakesStep (splitOffset offset)) :
    ∃ adj, (loopPass s p).2 = [.getOffset true, .call (.adjFreq adj)] := by
  simp [loopPass, h, hd, fill, updateClockActions, updateClock, hslew]

theorem loopPass_displayPCIETime (s : LoopState) (p : LoopPass) :
    (loopPass s p).1.displayPCIETime = s.displayPCIETime := by
  unfold loopPass
  split
  · split <;> rfl
  · rfl

/-! ### The time of a step -/

theorem steppedTime_ne {offset : Timespec} {r r' : Readings}
    (h : (r.timeTmpD.tvNsec.toInt + r.timeTmpB.tvNsec.toInt - r.timeTmpA.tvNsec.toInt -
      (r'.timeTmpD.tvNsec.toInt + r'.timeTmpB.tvNsec.toInt - r'.timeTmpA.tvNsec.toInt)) % 2 = 1) :
    steppedTime offset r ≠ steppedTime offset r' := by
  intro heq
  have hr := steppedTime_parity offset r
  have hr' := steppedTime_parity offset r'
  rw [heq] at hr
  omega

/-- A reading that moves the parity of the sum has been read, if the time of the step
does not depend on what was there before. -/
theorem isSome_of_steppedTime {offset : Timespec} {read : Option Timespec}
    (readings : Timespec → Readings)
    (hodd : ((readings ⟨0, 1⟩).timeTmpD.tvNsec.toInt + (readings ⟨0, 1⟩).timeTmpB.tvNsec.toInt -
      (readings ⟨0, 1⟩).timeTmpA.tvNsec.toInt -
      ((readings ⟨0, 0⟩).timeTmpD.tvNsec.toInt + (readings ⟨0, 0⟩).timeTmpB.tvNsec.toInt -
        (readings ⟨0, 0⟩).timeTmpA.tvNsec.toInt)) % 2 = 1)
    (h : ∀ old old', steppedTime offset (readings (fill read old)) =
      steppedTime offset (readings (fill read old'))) : read.isSome :=
  (determined_iff (f := fun t => steppedTime offset (readings t)) (steppedTime_ne hodd) read).mp h

/-- The time of a step is determined by the reads exactly when all of them succeed. -/
theorem steppedTime_determined_iff (offset : Timespec) (reads : Reads) :
    (∀ frame frame', steppedTime offset (reads.getTimes frame) =
      steppedTime offset (reads.getTimes frame')) ↔
      reads.timeTmpA.isSome ∧ reads.timeTmpB.isSome ∧ reads.timeTmpD.isSome := by
  constructor
  · intro h
    refine ⟨?_, ?_, ?_⟩
    · refine isSome_of_steppedTime (fun a => ⟨a, fill reads.timeTmpB ⟨0, 0⟩,
        fill reads.timeTmpD ⟨0, 0⟩⟩) ?_ fun old old' =>
          h ⟨old, ⟨0, 0⟩, ⟨0, 0⟩⟩ ⟨old', ⟨0, 0⟩, ⟨0, 0⟩⟩
      simp only [Int64.toInt_one, Int64.toInt_zero]
      omega
    · refine isSome_of_steppedTime (fun b => ⟨fill reads.timeTmpA ⟨0, 0⟩, b,
        fill reads.timeTmpD ⟨0, 0⟩⟩) ?_ fun old old' =>
          h ⟨⟨0, 0⟩, old, ⟨0, 0⟩⟩ ⟨⟨0, 0⟩, old', ⟨0, 0⟩⟩
      simp only [Int64.toInt_one, Int64.toInt_zero]
      omega
    · refine isSome_of_steppedTime (fun d => ⟨fill reads.timeTmpA ⟨0, 0⟩,
        fill reads.timeTmpB ⟨0, 0⟩, d⟩) ?_ fun old old' =>
          h ⟨⟨0, 0⟩, ⟨0, 0⟩, old⟩ ⟨⟨0, 0⟩, ⟨0, 0⟩, old'⟩
      simp only [Int64.toInt_one, Int64.toInt_zero]
      omega
  · intro h frame frame'
    obtain ⟨ha, hb, hd⟩ := h
    simp only [Reads.getTimes, fill_of_isSome ha frame.timeTmpA frame'.timeTmpA,
      fill_of_isSome hb frame.timeTmpB frame'.timeTmpB,
      fill_of_isSome hd frame.timeTmpD frame'.timeTmpD]

theorem onlyFromReads_of_step (h : p.reads.offset = some offset)
    (hd : (s.displayPCIETime && p.running) = false) (hstep : TakesStep (splitOffset offset)) :
    OnlyFromReads s p ↔
      p.reads.timeTmpA.isSome ∧ p.reads.timeTmpB.isSome ∧ p.reads.timeTmpD.isSome := by
  constructor
  · intro hp
    rw [← steppedTime_determined_iff (splitOffset offset) p.reads]
    have hfresh : ∀ frame, steppedTime (splitOffset offset) (p.reads.getTimes frame) =
        steppedTime (splitOffset offset) (p.reads.getTimes p.frame) := by
      intro frame
      have hframe := hp.fresh s frame rfl
      rw [loopPass_of_step h hd hstep,
        loopPass_of_step (p := { p with frame := frame }) h hd hstep] at hframe
      simpa [timesSet] using hframe
    exact fun frame frame' => (hfresh frame).trans (hfresh frame').symm
  · intro hreads
    have hdet := (steppedTime_determined_iff (splitOffset offset) p.reads).mpr hreads
    obtain ⟨ha, hb, htd⟩ := hreads
    refine ⟨fun s' frame hs' => ?_, ?_⟩
    · rw [loopPass_of_step h hd hstep, loopPass_of_step (s := s') (p := { p with frame := frame })
        h (by rw [hs']; exact hd) hstep]
      simpa [timesSet] using hdet frame p.frame
    · rw [loopPass_of_step h hd hstep, ha, hb, htd]
      simp

/-- A pass without a step reads nothing that is not looked at. -/
theorem onlyFromReads_of_not_step
    (h : ∀ offset, p.reads.offset = some offset → (s.displayPCIETime && p.running) = false →
      ¬ TakesStep (splitOffset offset)) :
    OnlyFromReads s p := by
  cases hoffset : p.reads.offset with
  | none =>
    refine ⟨fun s' frame _ => ?_, ?_⟩
    · rw [loopPass_of_none hoffset,
        loopPass_of_none (s := s') (p := { p with frame := frame }) hoffset]
    · rw [loopPass_of_none hoffset]
      simp
  | some offset =>
    cases hd : s.displayPCIETime && p.running with
    | true =>
      refine ⟨fun s' frame hs' => ?_, ?_⟩
      · rw [loopPass_of_displays hoffset hd, loopPass_of_displays (s := s')
          (p := { p with frame := frame }) hoffset (by rw [hs']; exact hd)]
      · rw [loopPass_of_displays hoffset hd]
        simp
    | false =>
      have hslew := h offset hoffset hd
      obtain ⟨adj, hadj⟩ := loopPass_of_slew (s := s) hoffset hd hslew
      refine ⟨fun s' frame hs' => ?_, ?_⟩
      · obtain ⟨adj', hadj'⟩ := loopPass_of_slew (s := s') (p := { p with frame := frame })
          hoffset (by rw [hs']; exact hd) hslew
        rw [hadj, hadj']
        rfl
      · rw [hadj]
        simp

theorem onlyFromReads_iff (s : LoopState) (p : LoopPass) :
    OnlyFromReads s p ↔ StepsOnFullReads s.displayPCIETime p := by
  by_cases h : ∃ offset, p.reads.offset = some offset ∧
      (s.displayPCIETime && p.running) = false ∧ TakesStep (splitOffset offset)
  · obtain ⟨offset, hoffset, hd, hstep⟩ := h
    rw [onlyFromReads_of_step hoffset hd hstep]
    rw [takesStep_splitOffset] at hstep
    refine ⟨fun hreads _ _ _ _ => hreads, fun hreads => hreads offset hoffset hd hstep⟩
  · simp only [not_exists, not_and] at h
    refine ⟨fun _ offset hoffset hd hfar => ?_, fun _ => onlyFromReads_of_not_step h⟩
    exact absurd ((takesStep_splitOffset offset).mpr hfar) (h offset hoffset hd)

end Sync

/-! ## The handler of `main_user_timer` -/

namespace Timer

/-- A call of the handler: what else it reads, what `HOST_GET_PCIE_TIME` writes if it
succeeds, and what `time` holds when the handler is entered. -/
structure HandlerCall where
  env : Env
  card : Option Timespec
  frame : Timespec

def HandlerCall.filled (c : HandlerCall) : Env :=
  { c.env with ioPcieTime := fun _ => fill c.card c.frame }

/-- The lines that a call appends to the log. -/
def loggedLines (g : Globals) (c : HandlerCall) : List Stamp := [(printMsg g c.filled).logged]

/-- `main_user_timer` in mode 1, with the descriptor it has or `-1`. -/
def ioTimer (fd : Int32) : Machine Globals HandlerCall where
  init := { rdNum := 0, fd := fd, mode := 1, modeName := "io_pcie_time" }
  enabled _ _ := True
  step g c := { g with rdNum := (printMsg g c.filled).rdNum }

/-- What a call logs does not depend on what was in memory before it, and a call whose
read fails logs nothing. -/
structure LogsOnlyReads (g : Globals) (c : HandlerCall) : Prop where
  fresh : ∀ frame, loggedLines g { c with frame := frame } = loggedLines g c
  quiet : c.card = none → loggedLines g c = []

variable {g : Globals}

theorem loggedLines_of_io (h : g.mode = 1) (c : HandlerCall) :
    loggedLines g c =
      [.ofTime (subNs (fill c.card c.frame) (c.env.systemTime 0).tvNsec) (g.rdNum + 1)] := by
  simp [loggedLines, printMsg, HandlerCall.filled, h]

theorem ofTime_subNs_ne {x x' : Timespec} (y : Int64) (rdNum : Int32)
    (h : (x.tvNsec.toInt - x'.tvNsec.toInt) % 2 = 1) :
    Stamp.ofTime (subNs x y) rdNum ≠ Stamp.ofTime (subNs x' y) rdNum := by
  intro heq
  have hnsec : (subNs x y).tvNsec = (subNs x' y).tvNsec := by
    have h64 := congrArg (fun s : Stamp => s.tvNsec.toInt64) heq
    simpa only [Stamp.ofTime, Int64.toInt64_toUInt64] using h64
  have hx := subNs_parity x y
  have hx' := subNs_parity x' y
  rw [hnsec] at hx
  omega

theorem logsOnlyReads_iff (h : g.mode = 1) (c : HandlerCall) :
    LogsOnlyReads g c ↔ c.card.isSome := by
  constructor
  · intro hc
    refine (determined_iff (f := fun time =>
      Stamp.ofTime (subNs time (c.env.systemTime 0).tvNsec) (g.rdNum + 1)) (x := ⟨0, 1⟩)
      (y := ⟨0, 0⟩) (ofTime_subNs_ne _ _ (by decide)) c.card).mp fun old old' => ?_
    have hold := (hc.fresh old).trans (hc.fresh old').symm
    rw [loggedLines_of_io h, loggedLines_of_io h] at hold
    exact List.singleton_inj.mp hold
  · intro hsome
    refine ⟨fun frame => ?_, fun hnone => ?_⟩
    · rw [loggedLines_of_io h, loggedLines_of_io h, fill_of_isSome hsome frame c.frame]
    · rw [hnone] at hsome
      cases hsome

end Timer

/-- Only values read in the same pass are set or logged exactly when no pass that
steps the clock, and no call of the handler in mode 1, has a read that fails. -/
theorem only_reads_reach_iff (displayPCIETime : Bool) (offset : Int64) (fd : Int32)
    (passes : List LoopPass) (calls : List HandlerCall) :
    ((syncLoop displayPCIETime offset).Along OnlyFromReads (syncLoop displayPCIETime offset).init
        passes ↔ ∀ p ∈ passes, StepsOnFullReads displayPCIETime p) ∧
      ((ioTimer fd).Along LogsOnlyReads (ioTimer fd).init calls ↔
        ∀ c ∈ calls, c.card.isSome) := by
  constructor
  · rw [← Machine.along_event_iff (m := syncLoop displayPCIETime offset)
      (s := (syncLoop displayPCIETime offset).init)]
    refine Machine.along_congr (I := fun s => s.displayPCIETime = displayPCIETime) ?_ ?_ rfl
      (Machine.along_true _ _ _)
    · intro s p hs _
      exact (loopPass_displayPCIETime s p).trans hs
    · intro s p hs _
      rw [onlyFromReads_iff, hs]
  · rw [← Machine.along_event_iff (m := ioTimer fd) (s := (ioTimer fd).init)]
    exact Machine.along_congr (I := fun g => g.mode = 1) (fun _ _ hg _ => hg)
      (fun _ c hg _ => logsOnlyReads_iff hg c) rfl (Machine.along_true _ _ _)

/-- The card is two seconds behind and the first reading of the step fails. -/
def firstReadingFails : LoopPass where
  reads :=
    { offset := some 2000000000
      timeTmpA := none
      timeTmpB := some ⟨1700000000, 200⟩
      timeTmpD := some ⟨1700000000, 300⟩ }
  running := false
  frame := ⟨⟨0, 0⟩, ⟨0, 0⟩, ⟨0, 0⟩⟩

def cardReadFails : HandlerCall where
  env :=
    { systemTime := fun _ => ⟨1700000005, 7000⟩
      ioPcieTime := fun _ => ⟨1700000005, 2000⟩
      hcPcieTime := ⟨1700000005, 2000⟩
      localtime := fun _ => ⟨0, 0, 0⟩ }
  card := none
  frame := ⟨0, 0⟩

/-- The step sets a time 54 years ahead: the gap is taken from what the frame held. -/
theorem not_only_reads_reach :
    ¬ (syncLoop false 0).Along OnlyFromReads (syncLoop false 0).init [firstReadingFails] ∧
      timesSet (loopPass (syncLoop false 0).init firstReadingFails).2 = [⟨3399999998, 500⟩] ∧
      ¬ (ioTimer 3).Along LogsOnlyReads (ioTimer 3).init [cardReadFails] := by
  refine ⟨fun h => ?_, by decide, fun h => ?_⟩
  · exact h.1.quiet (by decide) (.setTime ⟨3399999998, 500⟩) (by decide)
  · exact absurd (h.1.quiet rfl) (by decide)

end TimeTools
