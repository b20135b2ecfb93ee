import TimeTools.Sync.Process

/-!
# What one step does to a process

`Moves` lists the steps that leave a process running, each with its guard; any other
step of a process ends it.  A step of one process, and the end of one, leaves every
other process as it was, so a property of single processes that all moves and the
fork in `daemon` keep holds of every process of a run (`World.All.step`).
-/

namespace TimeTools.Sync

open RecordLock

/-- A step takes `p` to another place.  `fails` is the choice of the event. -/
inductive Moves (owner : Option Pid) (pid : Pid) (fails : Bool) (p : Process) : Process → Prop
  | optEnd : p.place = .getopt → p.opts = [] →
    Moves owner pid fails p { p with place := .openCard }
  | optD {opts : List Opt} : p.place = .getopt → p.opts = .d :: opts →
    Moves owner pid fails p { p with place := .alreadyRunning .optD .openFile, opts := opts }
  | optT {opts : List Opt} : p.place = .getopt → p.opts = .t :: opts →
    Moves owner pid fails p { p with displayPCIETime := true, opts := opts }
  | optV {opts : List Opt} : p.place = .getopt → p.opts = .v :: opts →
    Moves owner pid fails p { p with displayResult := true, opts := opts }
  | optS {period : Int32} {opts : List Opt} : p.place = .getopt → p.opts = .s period :: opts →
    10000 ≤ period → Moves owner pid fails p { p with syncPeriod := period, opts := opts }
  | optOther {opts : List Opt} : p.place = .getopt → p.opts = .other :: opts →
    Moves owner pid fails p { p with opts := opts }
  | openFile {caller : Caller} : p.place = .alreadyRunning caller .openFile →
    Moves owner pid fails p
      { p with place := .alreadyRunning caller .lockFile, lockFds := p.lockFds + 1 }
  | granted {caller : Caller} : p.place = .alreadyRunning caller .lockFile → fails = false →
    Free owner pid → Moves owner pid fails p { p with place := .alreadyRunning caller .writePid }
  | refused {caller : Caller} : p.place = .alreadyRunning caller .lockFile →
    ¬ Free owner pid → Moves owner pid fails p { p with place := .alreadyRunning caller .closeFile }
  | closeFile : p.place = .alreadyRunning .inLoop .closeFile →
    Moves owner pid fails p { p with lockFds := p.lockFds - 1, place := .endOfPass }
  | wroteOptD : p.place = .alreadyRunning .optD .writePid →
    Moves owner pid fails p { p with place := .daemon }
  | wroteBeforeLoop : p.place = .alreadyRunning .beforeLoop .writePid →
    Moves owner pid fails p { p with place := .getOffset }
  | wroteInLoop : p.place = .alreadyRunning .inLoop .writePid →
    Moves owner pid fails p { p with place := .updateClock }
  | displays : p.place = .openCard → p.displayPCIETime = true →
    Moves owner pid fails p { p with place := .getOffset }
  | adjusts : p.place = .openCard → p.displayPCIETime = false →
    Moves owner pid fails p { p with place := .alreadyRunning .beforeLoop .openFile }
  | noOffset : p.place = .getOffset → Moves owner pid fails p { p with place := .endOfPass }
  | asks : p.place = .getOffset → p.displayPCIETime = true →
    Moves owner pid fails p { p with place := .alreadyRunning .inLoop .openFile }
  | updates : p.place = .getOffset → p.displayPCIETime = false →
    Moves owner pid fails p { p with place := .updateClock }
  | updated : p.place = .updateClock → Moves owner pid fails p { p with place := .endOfPass }
  | slept : p.place = .endOfPass → 10000 ≤ p.syncPeriod →
    Moves owner pid fails p { p with place := .getOffset }

def Process.fresh (program : Program) (opts : List Opt) : Process :=
  { program := program
    place := .getopt
    opts := opts
    displayPCIETime := false
    displayResult := false
    syncPeriod := 10000
    lockFds := 0 }

namespace World

variable {w : World} {pid q : Pid} {p p' : Process} {fails : Bool}

theorem process_set (w : World) (pid : Pid) (p : Process) :
    (w.set pid p).process pid = some p := Function.update_self _ _ _

theorem process_exit (w : World) (pid : Pid) : (w.exit pid).process pid = none :=
  Function.update_self _ _ _

theorem process_set_of_ne (h : q ≠ pid) : (w.set pid p).process q = w.process q :=
  Function.update_of_ne h _ _

theorem process_exit_of_ne (h : q ≠ pid) : (w.exit pid).process q = w.process q :=
  Function.update_of_ne h _ _

theorem set_set (w : World) (pid : Pid) (p p' : Process) :
    (w.set pid p).set pid p' = w.set pid p' := by
  simp only [set, Function.update_idem]

theorem set_self (hp : w.process pid = some p) : w.set pid p = w := by
  simp only [set, ← hp, Function.update_eq_self]

theorem owner_set (w : World) (pid : Pid) (p : Process) : (w.set pid p).owner = w.owner := rfl

theorem set_owner (w : World) (owner : Option Pid) (pid : Pid) (p : Process) :
    { w.set pid p with owner := owner } = { w with owner := owner }.set pid p := rfl

/-- The process `pid` has ended, or gone on to a process of which `M` holds, and the
others are as they were. -/
def StepsTo (w w' : World) (pid : Pid) (M : Process → Prop) : Prop :=
  (∀ p', w'.process pid = some p' → M p') ∧ ∀ q, q ≠ pid → w'.process q = w.process q

theorem stepsTo_set {M : Process → Prop} {owner : Option Pid} (h : M p) :
    StepsTo w ({ w with owner := owner }.set pid p) pid M :=
  ⟨fun p' hp' => by rw [process_set] at hp'; exact Option.some.inj hp' ▸ h,
    fun _ hq => process_set_of_ne hq⟩

theorem stepsTo_exit {M : Process → Prop} {owner : Option Pid} :
    StepsTo w ({ w with owner := owner }.exit pid) pid M :=
  ⟨fun _ hp' => absurd (process_exit _ _) (by rw [hp']; simp), fun _ hq => process_exit_of_ne hq⟩

theorem getopt_moves (hplace : p.place = .getopt) :
    StepsTo w (w.getopt pid p) pid (Moves w.owner pid fails p) := by
  rw [getopt]
  split
  · exact stepsTo_set (.optEnd hplace ‹_›)
  · exact stepsTo_exit
  · exact stepsTo_set (.optD hplace ‹_›)
  · exact stepsTo_set (.optT hplace ‹_›)
  · exact stepsTo_set (.optV hplace ‹_›)
  · split
    · exact stepsTo_set (.optS hplace ‹_› ‹_›)
    · exact stepsTo_exit
  · exact stepsTo_set (.optOther hplace ‹_›)

theorem alreadyRunning_moves {caller : Caller} {stage : Stage}
    (hplace : p.place = .alreadyRunning caller stage) :
    StepsTo w (w.alreadyRunning pid p caller fails stage) pid (Moves w.owner pid fails p) := by
  cases stage with
  | openFile =>
    rw [alreadyRunning]
    split
    · exact stepsTo_exit
    · exact stepsTo_set (.openFile hplace)
  | lockFile =>
    rw [alreadyRunning]
    split
    · exact stepsTo_exit
    · rename_i hfails
      split
      · exact stepsTo_set (.granted hplace (Bool.eq_false_iff.mpr hfails) ‹_›)
      · exact stepsTo_set (.refused hplace ‹_›)
  | closeFile =>
    cases caller with
    | optD => exact stepsTo_exit
    | beforeLoop => exact stepsTo_exit
    | inLoop => exact stepsTo_set (.closeFile hplace)
  | writePid =>
    cases caller with
    | optD => exact stepsTo_set (.wroteOptD hplace)
    | beforeLoop => exact stepsTo_set (.wroteBeforeLoop hplace)
    | inLoop => exact stepsTo_set (.wroteInLoop hplace)

/-- A step of a process ends it or is one of its moves. -/
theorem stepProcess_moves (w : World) (pid : Pid) (p : Process) (fails : Bool) :
    StepsTo w (w.stepProcess pid p fails) pid (Moves w.owner pid fails p) := by
  cases hplace : p.place with
  | getopt => simpa only [stepProcess, hplace] using getopt_moves hplace
  | alreadyRunning caller stage =>
    simpa only [stepProcess, hplace] using alreadyRunning_moves hplace
  | daemon => simpa only [stepProcess, hplace] using stepsTo_exit
  | parentExit => simpa only [stepProcess, hplace] using stepsTo_exit
  | openCard =>
    simp only [stepProcess, hplace]
    split
    · exact stepsTo_exit
    · split
      · exact stepsTo_set (.displays hplace ‹_›)
      · rename_i hdisplay
        exact stepsTo_set (.adjusts hplace (Bool.eq_false_iff.mpr hdisplay))
  | getOffset =>
    simp only [stepProcess, hplace]
    split
    · exact stepsTo_set (.noOffset hplace)
    · split
      · exact stepsTo_set (.asks hplace ‹_›)
      · rename_i hdisplay
        exact stepsTo_set (.updates hplace (Bool.eq_false_iff.mpr hdisplay))
  | updateClock =>
    simp only [stepProcess, hplace]
    exact stepsTo_set (.updated hplace)
  | endOfPass =>
    simp only [stepProcess, hplace]
    split
    · exact stepsTo_set (.slept hplace ‹_›)
    · exact stepsTo_exit

/-- `J` holds of every process. -/
def All (w : World) (J : Process → Prop) : Prop := ∀ pid p, w.process pid = some p → J p

variable {J : Process → Prop}

theorem all_start : start.All J := fun _ _ h => by cases h

theorem All.stepsTo (h : w.All J) {w' : World} (hs : StepsTo w w' pid J) : w'.All J := by
  intro q p hp
  by_cases hq : q = pid
  · subst hq
    exact hs.1 p hp
  · rw [hs.2 q hq] at hp
    exact h q p hp

/-- A property of single processes that new processes have and that moves and forks
keep is kept by every event. -/
theorem All.step (h : w.All J) {e : SyncEvent} (hen : w.Enabled e)
    (hexec : ∀ pid program opts, e = .exec pid program opts → J (.fresh program opts))
    (hmove : ∀ pid fails p p', e = .step pid fails → w.process pid = some p → J p →
      Moves w.owner pid fails p p' → J p')
    (hfork : ∀ p, p.place = .daemon → J p →
      J { p with place := .parentExit } ∧ J { p with place := .getopt }) :
    (w.step e).All J := by
  cases e with
  | exec pid program opts => exact h.stepsTo (stepsTo_set (hexec pid program opts rfl))
  | step pid fails =>
    obtain ⟨p, hp, -⟩ := hen
    simp only [World.step, hp]
    have hs := w.stepProcess_moves pid p fails
    exact h.stepsTo ⟨fun p' hp' => hmove pid fails p p' rfl hp (h pid p hp) (hs.1 p' hp'), hs.2⟩
  | fork pid child =>
    obtain ⟨-, p, hp, hplace⟩ := hen
    simp only [World.step, hp]
    obtain ⟨hparent, hchild⟩ := hfork p hplace (h pid p hp)
    have hleft : (w.goto pid p .parentExit).All J := h.stepsTo (stepsTo_set hparent)
    exact hleft.stepsTo (stepsTo_set hchild)
  | kill pid => exact h.stepsTo stepsTo_exit

end World

end TimeTools.Sync
