import TimeTools.Sync.Moves
import TimeTools.Sync.OneWriter

/-!
# Display mode

With `-t` a process asks for the lock in every pass, and takes a refusal to mean that
a daemon is running whose offset it can display.  When the request is granted it
goes on to `update_clock` like a daemon.  So it only displays for as long as every
request it makes in its loop finds the lock with another process, and from the first
one that is granted two steps take it to `update_clock` (`display_never_steers`).
-/

namespace TimeTools.Sync

open RecordLock

namespace Process

/-- The process was started with `-t`: the option is still to come, or has been read. -/
def StartedWithT (p : Process) : Prop := p.displayPCIETime = true ∨ .t ∈ p.opts

def PastGetopt (p : Process) : Prop :=
  match p.place with
  | .getopt => False
  | .alreadyRunning .optD _ => False
  | .daemon => False
  | .parentExit => False
  | _ => True

/-- A process past its options has none left, and one in display mode has not been
granted the lock in its loop. -/
structure Waits (p : Process) : Prop where
  opts : p.PastGetopt → p.opts = []
  refused : p.displayPCIETime = true →
    p.place ≠ .updateClock ∧ p.place ≠ .alreadyRunning .inLoop .writePid

end Process

variable {owner : Option Pid} {pid : Pid} {fails : Bool} {p p' : Process}

/-- No process that was started with `-t` is in `update_clock`. -/
def World.DisplaysOnly (w : World) : Prop :=
  ∀ pid p, w.process pid = some p → p.StartedWithT → p.place ≠ .updateClock

/-- A request for the lock inside the loop fails, or finds another process with it. -/
def RefusesInLoop (w : World) : SyncEvent → Prop
  | .step pid fails => ∀ p, w.process pid = some p →
    p.place = .alreadyRunning .inLoop .lockFile → fails = true ∨ ∃ q, q ≠ pid ∧ w.owner = some q
  | _ => True

theorem RefusesInLoop.not_free {w : World} (h : RefusesInLoop w (.step pid fails))
    (hp : w.process pid = some p) (hplace : p.place = .alreadyRunning .inLoop .lockFile) :
    fails = true ∨ ¬ Free w.owner pid := by
  rcases h p hp hplace with hfails | ⟨q, hq, howner⟩
  · exact .inl hfails
  · exact .inr fun hfree => hq (hfree.owner_eq howner)

namespace Process.Waits

theorem of_not_pastGetopt (h : ¬ p.PastGetopt) : p.Waits := by
  refine ⟨fun hpast => absurd hpast h, fun _ => ⟨fun hplace => h ?_, fun hplace => h ?_⟩⟩ <;>
    rw [Process.PastGetopt, hplace] <;> trivial

theorem not_updateClock (h : p.Waits) (ht : p.StartedWithT) : p.place ≠ .updateClock := by
  intro hplace
  rcases ht with hdisplay | hmem
  · exact (h.refused hdisplay).1 hplace
  · rw [h.opts (by rw [Process.PastGetopt, hplace]; trivial)] at hmem
    cases hmem

theorem moves (h : p.Waits) (hm : Moves owner pid fails p p')
    (hclean : p.place = .alreadyRunning .inLoop .lockFile → fails = true ∨ ¬ Free owner pid) :
    p'.Waits := by
  obtain ⟨hopts, hrefused⟩ := h
  cases hm with
  | @granted caller hplace hfails hfree =>
    cases caller with
    | optD => exact .of_not_pastGetopt id
    | beforeLoop =>
      exact ⟨fun _ => hopts (by rw [Process.PastGetopt, hplace]; trivial), fun _ => ⟨nofun, nofun⟩⟩
    | inLoop =>
      rcases hclean hplace with hf | hnot
      · rw [hfails] at hf
        cases hf
      · exact absurd hfree hnot
  | wroteInLoop hplace =>
    exact ⟨fun _ => hopts (by rw [Process.PastGetopt, hplace]; trivial),
      fun hd => absurd hplace (hrefused hd).2⟩
  | updates hplace hd =>
    refine ⟨fun _ => hopts (by rw [Process.PastGetopt, hplace]; trivial), fun hd' => ?_⟩
    cases hd.symm.trans hd'
  | @openFile caller hplace =>
    refine ⟨fun h => hopts ?_, fun _ => ⟨nofun, nofun⟩⟩
    rw [Process.PastGetopt, hplace]
    cases caller <;> exact h
  | @refused caller hplace =>
    refine ⟨fun h => hopts ?_, fun _ => ⟨nofun, nofun⟩⟩
    rw [Process.PastGetopt, hplace]
    cases caller <;> exact h
  | optEnd hplace hnil => exact ⟨fun _ => hnil, fun _ => ⟨nofun, nofun⟩⟩
  | optD hplace _ => exact .of_not_pastGetopt id
  | wroteOptD hplace => exact .of_not_pastGetopt id
  | optT hplace _ | optV hplace _ | optS hplace _ _ | optOther hplace _ =>
    exact .of_not_pastGetopt (by simp [Process.PastGetopt, hplace])
  | closeFile hplace | wroteBeforeLoop hplace | displays hplace _ | adjusts hplace _
  | noOffset hplace | asks hplace _ | updated hplace | slept hplace _ =>
    exact ⟨fun _ => hopts (by rw [Process.PastGetopt, hplace]; trivial), fun _ => ⟨nofun, nofun⟩⟩

end Process.Waits

theorem World.all_waits_step {w : World} (h : w.All Process.Waits) {e : SyncEvent}
    (hen : w.Enabled e) (hclean : RefusesInLoop w e) : (w.step e).All Process.Waits := by
  refine h.step hen (fun _ _ _ _ => .of_not_pastGetopt id) ?_
    (fun _ _ _ => ⟨.of_not_pastGetopt id, .of_not_pastGetopt id⟩)
  intro pid fails p p' he hp hwaits hm
  subst he
  exact hwaits.moves hm (hclean.not_free hp)

theorem World.All.displaysOnly {w : World} (h : w.All Process.Waits) : w.DisplaysOnly :=
  fun pid p hp ht => (h pid p hp).not_updateClock ht

/-! ## A granted request -/

theorem LockInv.displays_of_inLoop {w : World} (h : LockInv w) {stage : Stage}
    (hp : w.process pid = some p) (hplace : p.place = .alreadyRunning .inLoop stage) :
    p.displayPCIETime = true := by
  have hasks := (h pid p hp).asks
  rw [Process.AsksInLoop, hplace] at hasks
  exact hasks

theorem step_granted {w : World} {caller : Caller} (hp : w.process pid = some p)
    (hplace : p.place = .alreadyRunning caller .lockFile) (hfree : Free w.owner pid) :
    w.step (.step pid false) =
      { w with owner := some pid }.goto pid p (.alreadyRunning caller .writePid) := by
  simp [World.step, hp, World.stepProcess, hplace, World.alreadyRunning, hfree]

/-- A process whose request in the loop is granted gets to `update_clock` in two steps
of its own. -/
theorem updates_of_granted {w : World} (hp : w.process pid = some p)
    (hplace : p.place = .alreadyRunning .inLoop .lockFile) (hfree : Free w.owner pid) :
    syncMachine.Admits w [.step pid false, .step pid false] ∧
      (syncMachine.run w [.step pid false, .step pid false]).process pid =
        some { p with place := .updateClock } := by
  have hstep : syncMachine.step w (.step pid false) =
      { w with owner := some pid }.goto pid p (.alreadyRunning .inLoop .writePid) :=
    step_granted hp hplace hfree
  have hself := World.process_set { w with owner := some pid } pid
    { p with place := .alreadyRunning .inLoop .writePid }
  refine ⟨⟨⟨p, hp, fun h => ?_⟩, ⟨_, by rw [hstep]; exact hself, fun h => by cases h⟩, trivial⟩, ?_⟩
  · rw [hplace] at h
    cases h
  · rw [Machine.run_cons, hstep, Machine.run_cons, Machine.run_nil]
    show World.process (World.step _ _) pid = _
    simp only [World.step, World.goto, hself, World.stepProcess, World.alreadyRunning,
      World.notLocked]
    exact World.process_set _ _ _

/-- In a run in which no request inside the loop is granted, a process started with
`-t` never gets to `update_clock`; and wherever a run stops before one that can be
granted, two steps more and it has. -/
theorem display_never_steers (es : List SyncEvent) (hadm : syncMachine.Admits .start es) :
    (syncMachine.Along RefusesInLoop .start es →
      syncMachine.Throughout World.DisplaysOnly .start es) ∧
    ∀ pid p, (syncMachine.run .start es).process pid = some p →
      p.place = .alreadyRunning .inLoop .lockFile → Free (syncMachine.run .start es).owner pid →
      syncMachine.Admits .start (es ++ [.step pid false, .step pid false]) ∧
        ¬ syncMachine.Throughout World.DisplaysOnly .start
          (es ++ [.step pid false, .step pid false]) := by
  refine ⟨fun hclean => ?_, fun pid p hp hplace hfree => ?_⟩
  · exact (Machine.throughout_of_invariant (I := fun w => w.All Process.Waits)
      (fun _ _ h hen hc => World.all_waits_step h hen hc) World.all_start hadm hclean).mono
      fun _ h => h.displaysOnly
  · have hinv : LockInv (syncMachine.run .start es) := Machine.reachable_of_invariant LockInv.start
      (fun _ _ h hen => h.step hen) ⟨es, hadm, rfl⟩
    have hdisplay : p.displayPCIETime = true := hinv.displays_of_inLoop hp hplace
    obtain ⟨hsteps, hend⟩ := updates_of_granted hp hplace hfree
    refine ⟨(Machine.along_append _ _ _ _ _).mpr ⟨hadm, hsteps⟩, fun h => ?_⟩
    have hlast := h.run
    rw [Machine.run_append] at hlast
    exact hlast pid _ hend (.inl hdisplay) rfl

/-- `host_sync -t` while process 1 adjusts the clock and so has the lock. -/
def displayBesideDaemon : List SyncEvent :=
  [.exec 1 .hostSync [.v], .step 1 false, .step 1 false, .step 1 false, .step 1 false,
    .step 1 false, .exec 2 .hostSync [.t], .step 2 false, .step 2 false, .step 2 false,
    .step 2 false, .step 2 false, .step 2 false, .step 2 false]

theorem admits_displayBesideDaemon : syncMachine.Admits .start displayBesideDaemon :=
  ⟨rfl, ⟨_, rfl, nofun⟩, ⟨_, rfl, nofun⟩, ⟨_, rfl, nofun⟩, ⟨_, rfl, nofun⟩, ⟨_, rfl, nofun⟩, rfl,
    ⟨_, rfl, nofun⟩, ⟨_, rfl, nofun⟩, ⟨_, rfl, nofun⟩, ⟨_, rfl, nofun⟩, ⟨_, rfl, nofun⟩,
    ⟨_, rfl, nofun⟩, ⟨_, rfl, nofun⟩, trivial⟩

theorem refusesInLoop_of_place {w : World} (hp : w.process pid = some p)
    (hplace : p.place ≠ .alreadyRunning .inLoop .lockFile) :
    RefusesInLoop w (.step pid fails) := fun _ hp' h' =>
  absurd ((Option.some.inj (hp.symm.trans hp')) ▸ h') hplace

theorem refusesInLoop_displayBesideDaemon :
    syncMachine.Along RefusesInLoop .start displayBesideDaemon :=
  ⟨trivial, refusesInLoop_of_place rfl nofun, refusesInLoop_of_place rfl nofun,
    refusesInLoop_of_place rfl nofun, refusesInLoop_of_place rfl nofun,
    refusesInLoop_of_place rfl nofun, trivial, refusesInLoop_of_place rfl nofun,
    refusesInLoop_of_place rfl nofun, refusesInLoop_of_place rfl nofun,
    refusesInLoop_of_place rfl nofun, refusesInLoop_of_place rfl nofun,
    fun _ _ _ => .inr ⟨1, by decide, rfl⟩, refusesInLoop_of_place rfl nofun, trivial⟩

theorem display_never_steers_beside_daemon :
    syncMachine.Throughout World.DisplaysOnly .start displayBesideDaemon :=
  (display_never_steers displayBesideDaemon admits_displayBesideDaemon).1
    refusesInLoop_displayBesideDaemon

/-- `host_sync -t` with no daemon running. -/
def displayAlone : List SyncEvent :=
  [.exec 1 .hostSync [.t], .step 1 false, .step 1 false, .step 1 false, .step 1 false,
    .step 1 false, .step 1 false, .step 1 false]

theorem not_displaysOnly_alone :
    syncMachine.Admits .start displayAlone ∧
      ¬ syncMachine.Throughout World.DisplaysOnly .start displayAlone := by
  refine ⟨⟨rfl, ⟨_, rfl, nofun⟩, ⟨_, rfl, nofun⟩, ⟨_, rfl, nofun⟩, ⟨_, rfl, nofun⟩,
    ⟨_, rfl, nofun⟩, ⟨_, rfl, nofun⟩, ⟨_, rfl, nofun⟩, trivial⟩, fun h => ?_⟩
  exact h.2.2.2.2.2.2.2.2 1 _ rfl (.inl rfl) rfl

end TimeTools.Sync
