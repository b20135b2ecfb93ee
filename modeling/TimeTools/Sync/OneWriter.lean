import TimeTools.Sync.Process

/-!
# At most one clock writer

The lock is lost in the fork of `daemon` and taken again before the loop, and with
`-t` it is asked for in every pass instead.  Between a lock that was granted and the
`update_clock` it is for, a process neither forks nor closes a descriptor of
`LOCKFILE`: the one `close` in `already_running` follows a refusal, which the owner
of the lock never gets.
-/

namespace TimeTools.Sync

open RecordLock

namespace Process

def Guarded (p : Process) : Prop :=
  match p.place with
  | .alreadyRunning _ .writePid => True
  | .updateClock => True
  | .getOffset => p.displayPCIETime = false
  | .endOfPass => p.displayPCIETime = false
  | _ => False

def AsksInLoop (p : Process) : Prop :=
  match p.place with
  | .alreadyRunning .inLoop _ => p.displayPCIETime = true
  | _ => True

/-- What a process has to satisfy, given the owner of the lock. -/
structure Sound (p : Process) (pid : Pid) (owner : Option Pid) : Prop where
  owns : p.Guarded → owner = some pid
  asks : p.AsksInLoop

end Process

def LockInv (w : World) : Prop := ∀ pid p, w.process pid = some p → p.Sound pid w.owner

namespace LockInv

variable {w : World} {pid : Pid} {p : Process}

theorem start : LockInv World.start := fun _ _ h => by cases h

/-- A step of one process that leaves it sound and the other owners what they own. -/
theorem update (h : LockInv w) {process : Option Process} {owner : Option Pid}
    (hself : ∀ p, process = some p → p.Sound pid owner)
    (hothers : ∀ q, q ≠ pid → w.owner = some q → owner = some q) :
    LockInv { process := Function.update w.process pid process, owner := owner } := by
  intro q p hq
  change Function.update w.process pid process q = some p at hq
  by_cases hqp : q = pid
  · subst hqp
    rw [Function.update_self] at hq
    exact hself p hq
  · rw [Function.update_of_ne hqp] at hq
    have hp := h q p hq
    exact ⟨fun hg => hothers q hqp (hp.owns hg), hp.asks⟩

theorem set (h : LockInv w) (hp : p.Sound pid w.owner) : LockInv (w.set pid p) :=
  h.update (fun _ hp' => by cases hp'; exact hp) (fun _ _ hq => hq)

theorem exit (h : LockInv w) (pid : Pid) : LockInv (w.exit pid) :=
  h.update (fun _ hp => by cases hp) (fun _ hne hq => drop_of_owner hq hne)

theorem dropOwner (h : LockInv w) (hfree : ∀ p, w.process pid = some p → ¬ p.Guarded) :
    LockInv { w with owner := drop w.owner pid } := by
  intro q p hq
  have hp := h q p hq
  refine ⟨fun hg => ?_, hp.asks⟩
  have hne : q ≠ pid := by
    intro hqp
    subst hqp
    exact hfree p hq hg
  exact drop_of_owner (hp.owns hg) hne

theorem getopt (h : LockInv w) (hplace : p.place = .getopt) : LockInv (w.getopt pid p) := by
  have hsound : ∀ opts t v period, ({ p with
      opts := opts, displayPCIETime := t, displayResult := v, syncPeriod := period } :
        Process).Sound pid w.owner := by
    intro opts t v period
    constructor <;> simp [Process.Guarded, Process.AsksInLoop, hplace]
  rw [World.getopt]
  split
  · exact h.set ⟨fun hg => hg.elim, trivial⟩
  · exact h.exit pid
  · exact h.set ⟨fun hg => hg.elim, trivial⟩
  · exact h.set (hsound _ _ _ _)
  · exact h.set (hsound _ _ _ _)
  · split
    · exact h.set (hsound _ _ _ _)
    · exact h.exit pid
  · exact h.set (hsound _ _ _ _)

theorem alreadyRunning (h : LockInv w) (hp : w.process pid = some p) {caller : Caller}
    {stage : Stage} (hplace : p.place = .alreadyRunning caller stage) (fails : Bool) :
    LockInv (w.alreadyRunning pid p caller fails stage) := by
  have hself := h pid p hp
  have hasks : caller = .inLoop → p.displayPCIETime = true := by
    intro hcaller
    have hasks := hself.asks
    rw [Process.AsksInLoop, hplace, hcaller] at hasks
    exact hasks
  have hkeeps : ∀ stage' fds, ({ p with
      place := .alreadyRunning caller stage', lockFds := fds } : Process).AsksInLoop := by
    intro stage' fds
    cases caller with
    | optD => trivial
    | beforeLoop => trivial
    | inLoop => exact hasks rfl
  cases stage with
  | openFile =>
    rw [World.alreadyRunning]
    split
    · exact h.exit pid
    · exact h.set ⟨fun hg => hg.elim, hkeeps _ _⟩
  | lockFile =>
    rw [World.alreadyRunning]
    split
    · exact h.exit pid
    · split
      · rename_i hfree
        exact h.update (fun _ hp' => by cases hp'; exact ⟨fun _ => rfl, hkeeps _ _⟩)
          (fun q hne hq => absurd (hfree.owner_eq hq) hne)
      · exact h.set ⟨fun hg => hg.elim, hkeeps _ _⟩
  | closeFile =>
    have hdropped : LockInv { w with owner := drop w.owner pid } := by
      refine h.dropOwner fun p' hp' hg => ?_
      obtain rfl : p = p' := Option.some.inj (hp.symm.trans hp')
      rwa [Process.Guarded, hplace] at hg
    rw [World.alreadyRunning]
    cases caller with
    | optD => exact hdropped.exit pid
    | beforeLoop => exact hdropped.exit pid
    | inLoop =>
      refine hdropped.set ⟨fun hg => ?_, trivial⟩
      rw [Process.Guarded] at hg
      exact absurd (hasks rfl) (Bool.eq_false_iff.mp hg)
  | writePid =>
    have howner := hself.owns (by rw [Process.Guarded, hplace]; trivial)
    rw [World.alreadyRunning]
    cases caller with
    | optD => exact h.set ⟨fun hg => hg.elim, trivial⟩
    | beforeLoop => exact h.set ⟨fun _ => howner, trivial⟩
    | inLoop => exact h.set ⟨fun _ => howner, trivial⟩

/-- The three programs take their lock where they need it. -/
theorem stepProcess (h : LockInv w) (hp : w.process pid = some p) (fails : Bool) :
    LockInv (w.stepProcess pid p fails) := by
  have hself := h pid p hp
  cases hplace : p.place with
  | getopt => simpa only [World.stepProcess, hplace] using h.getopt hplace
  | alreadyRunning caller stage =>
    simpa only [World.stepProcess, hplace] using h.alreadyRunning hp hplace fails
  | daemon => simpa only [World.stepProcess, hplace] using h.exit pid
  | parentExit => simpa only [World.stepProcess, hplace] using h.exit pid
  | openCard =>
    simp only [World.stepProcess, hplace]
    split
    · exact h.exit pid
    · split
      · rename_i hdisplay
        exact h.set ⟨fun hg => absurd hdisplay (Bool.eq_false_iff.mp hg), trivial⟩
      · exact h.set ⟨fun hg => hg.elim, trivial⟩
  | getOffset =>
    have howns : p.displayPCIETime = false → w.owner = some pid := fun hd =>
      hself.owns (by rwa [Process.Guarded, hplace])
    simp only [World.stepProcess, hplace]
    split
    · exact h.set ⟨howns, trivial⟩
    · split
      · rename_i hdisplay
        exact h.set ⟨fun hg => hg.elim, hdisplay⟩
      · rename_i hdisplay
        exact h.set ⟨fun _ => howns (Bool.eq_false_iff.mpr hdisplay), trivial⟩
  | updateClock =>
    have howner := hself.owns (by rw [Process.Guarded, hplace]; trivial)
    simp only [World.stepProcess, hplace]
    exact h.set ⟨fun _ => howner, trivial⟩
  | endOfPass =>
    have howns : p.displayPCIETime = false → w.owner = some pid := fun hd =>
      hself.owns (by rwa [Process.Guarded, hplace])
    simp only [World.stepProcess, hplace]
    split
    · exact h.set ⟨howns, trivial⟩
    · exact h.exit pid

theorem step (h : LockInv w) {e : SyncEvent} (hen : w.Enabled e) : LockInv (w.step e) := by
  cases e with
  | exec pid program opts => exact h.set ⟨fun hg => hg.elim, trivial⟩
  | step pid fails =>
    obtain ⟨p, hp, -⟩ := hen
    simp only [World.step, hp]
    exact h.stepProcess hp fails
  | fork pid child =>
    obtain ⟨-, p, hp, -⟩ := hen
    simp only [World.step, hp]
    have hparent : LockInv (w.goto pid p .parentExit) := h.set ⟨fun hg => hg.elim, trivial⟩
    exact hparent.set ⟨fun hg => hg.elim, trivial⟩
  | kill pid => exact h.exit pid

end LockInv

def World.Updates (w : World) (pid : Pid) : Prop :=
  ∃ p, w.process pid = some p ∧ p.place = .updateClock

theorem LockInv.owner_of_updates {w : World} (h : LockInv w) {pid : Pid} (hu : w.Updates pid) :
    w.owner = some pid := by
  obtain ⟨p, hp, hplace⟩ := hu
  exact (h pid p hp).owns (by rw [Process.Guarded, hplace]; trivial)

/-- In every reachable state, a process that updates the clock owns the lock, and so
no other process updates it. -/
theorem one_writer {w : World} (h : syncMachine.Reachable w) :
    (∀ pid, w.Updates pid → w.owner = some pid) ∧
      ∀ pid pid', w.Updates pid → w.Updates pid' → pid = pid' := by
  have hinv : LockInv w := Machine.reachable_of_invariant (m := syncMachine) LockInv.start
    (fun _ _ h hen => h.step hen) h
  refine ⟨fun pid hu => hinv.owner_of_updates hu, fun pid pid' hu hu' => ?_⟩
  exact Option.some.inj ((hinv.owner_of_updates hu).symm.trans (hinv.owner_of_updates hu'))

/-- `host_sync -d` up to its first `update_clock`: the parent takes the lock and loses
it, and the daemon takes it again. -/
def daemonRun : List SyncEvent :=
  [.exec 1 .hostSync [.d], .step 1 false, .step 1 false, .step 1 false, .step 1 false, .fork 1 2,
    .step 1 false, .step 2 false, .step 2 false, .step 2 false, .step 2 false, .step 2 false,
    .step 2 false]

theorem admits_daemonRun : syncMachine.Admits .start daemonRun :=
  ⟨rfl, ⟨_, rfl, nofun⟩, ⟨_, rfl, nofun⟩, ⟨_, rfl, nofun⟩, ⟨_, rfl, nofun⟩, ⟨rfl, _, rfl, rfl⟩,
    ⟨_, rfl, nofun⟩, ⟨_, rfl, nofun⟩, ⟨_, rfl, nofun⟩, ⟨_, rfl, nofun⟩, ⟨_, rfl, nofun⟩,
    ⟨_, rfl, nofun⟩, ⟨_, rfl, nofun⟩, trivial⟩

theorem one_writer_daemon : (syncMachine.run .start daemonRun).owner = some 2 :=
  (one_writer ⟨daemonRun, admits_daemonRun, rfl⟩).1 2 ⟨_, rfl, rfl⟩

end TimeTools.Sync
