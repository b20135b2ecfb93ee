import TimeTools.Sync.LockFds

/-!
# Who holds the lock, and for how long

The owner of the lock is a process that is there, so a lock that nobody alive holds is free
(`OwnerAlive`).  A process that adjusts the clock without `-t` keeps its lock and its place
in the loop until it is killed, and nobody else gets to `update_clock` meanwhile
(`tenure_until_killed`).  With `-d` the lock does not go from the parent to its child: the
child asks for it again, and is refused if the parent has not exited by then
(`start_iff_parents_gone`).
-/

namespace TimeTools.Sync

open RecordLock

/-- A process that adjusts the clock without `-t` is in its loop. -/
def Process.InLoop (p : Process) : Prop :=
  p.displayPCIETime = false ∧ (p.place = .getOffset ∨ p.place = .updateClock ∨ p.place = .endOfPass)

/-- What a step of a process leaves: it moves on without a change of the lock, is granted
the lock, closes a descriptor of the file, or ends. -/
inductive Outcome (w : World) (pid : Pid) (fails : Bool) (p : Process) : World → Prop
  | moved {p' : Process} : Moves w.owner pid fails p p' →
    (∀ caller, p'.place ≠ .alreadyRunning caller .writePid) →
    Outcome w pid fails p (w.set pid p')
  | granted {caller : Caller} : p.place = .alreadyRunning caller .lockFile → fails = false →
    Free w.owner pid → Outcome w pid fails p
      ({ w with owner := some pid }.goto pid p (.alreadyRunning caller .writePid))
  | closed : p.place = .alreadyRunning .inLoop .closeFile →
    Outcome w pid fails p ({ w with owner := drop w.owner pid }.set pid
      { p with lockFds := p.lockFds - 1, place := .endOfPass })
  | ended : Outcome w pid fails p (w.exit pid)

namespace World

variable {w : World} {pid q : Pid} {p p' : Process} {fails : Bool}

theorem exit_drop (w : World) (pid : Pid) :
    { w with owner := drop w.owner pid }.exit pid = w.exit pid := by
  have hdrop : drop (drop w.owner pid) pid = drop w.owner pid := by
    by_cases h : w.owner = some pid
    · simp [drop, h]
    · simp [drop, h]
  simp only [exit, hdrop]

theorem getopt_outcome (hplace : p.place = .getopt) :
    Outcome w pid fails p (w.getopt pid p) := by
  rw [getopt]
  split
  · exact .moved (.optEnd hplace ‹_›) fun _ h => by cases h
  · exact .ended
  · exact .moved (.optD hplace ‹_›) fun _ h => by cases h
  · exact .moved (.optT hplace ‹_›) fun _ h => by cases hplace.symm.trans h
  · exact .moved (.optV hplace ‹_›) fun _ h => by cases hplace.symm.trans h
  · split
    · exact .moved (.optS hplace ‹_› ‹_›) fun _ h => by cases hplace.symm.trans h
    · exact .ended
  · exact .moved (.optOther hplace ‹_›) fun _ h => by cases hplace.symm.trans h

theorem alreadyRunning_outcome {caller : Caller} {stage : Stage}
    (hplace : p.place = .alreadyRunning caller stage) :
    Outcome w pid fails p (w.alreadyRunning pid p caller fails stage) := by
  cases stage with
  | openFile =>
    rw [alreadyRunning]
    split
    · exact .ended
    · exact .moved (.openFile hplace) fun _ h => by cases h
  | lockFile =>
    rw [alreadyRunning]
    split
    · exact .ended
    · rename_i hfails
      split
      · exact .granted hplace (Bool.eq_false_iff.mpr hfails) ‹_›
      · exact .moved (.refused hplace ‹_›) fun _ h => by cases h
  | closeFile =>
    cases caller with
    | optD =>
      show Outcome w pid fails p ({ w with owner := drop w.owner pid }.exit pid)
      rw [exit_drop]
      exact .ended
    | beforeLoop =>
      show Outcome w pid fails p ({ w with owner := drop w.owner pid }.exit pid)
      rw [exit_drop]
      exact .ended
    | inLoop => exact .closed hplace
  | writePid =>
    cases caller with
    | optD => exact .moved (.wroteOptD hplace) fun _ h => by cases h
    | beforeLoop => exact .moved (.wroteBeforeLoop hplace) fun _ h => by cases h
    | inLoop => exact .moved (.wroteInLoop hplace) fun _ h => by cases h

theorem stepProcess_outcome (w : World) (pid : Pid) (p : Process) (fails : Bool) :
    Outcome w pid fails p (w.stepProcess pid p fails) := by
  cases hplace : p.place with
  | getopt => simpa only [stepProcess, hplace] using getopt_outcome hplace
  | alreadyRunning caller stage =>
    simpa only [stepProcess, hplace] using alreadyRunning_outcome hplace
  | daemon => simpa only [stepProcess, hplace] using Outcome.ended
  | parentExit => simpa only [stepProcess, hplace] using Outcome.ended
  | openCard =>
    simp only [stepProcess, hplace]
    split
    · exact .ended
    · split
      · exact .moved (.displays hplace ‹_›) fun _ h => by cases h
      · rename_i hdisplay
        exact .moved (.adjusts hplace (Bool.eq_false_iff.mpr hdisplay)) fun _ h => by cases h
  | getOffset =>
    simp only [stepProcess, hplace]
    split
    · exact .moved (.noOffset hplace) fun _ h => by cases h
    · split
      · exact .moved (.asks hplace ‹_›) fun _ h => by cases h
      · rename_i hdisplay
        exact .moved (.updates hplace (Bool.eq_false_iff.mpr hdisplay)) fun _ h => by cases h
  | updateClock =>
    simp only [stepProcess, hplace]
    exact .moved (.updated hplace) fun _ h => by cases h
  | endOfPass =>
    simp only [stepProcess, hplace]
    split
    · exact .moved (.slept hplace ‹_›) fun _ h => by cases h
    · exact .ended

/-! ## The owner is alive -/

def OwnerAlive (w : World) : Prop := ∀ pid, w.owner = some pid → ∃ p, w.process pid = some p

theorem owner_of_drop {owner : Option Pid} (h : drop owner pid = some q) :
    owner = some q ∧ q ≠ pid := by
  rw [drop] at h
  split at h
  · cases h
  · rename_i hne
    exact ⟨h, fun hq => hne (hq ▸ h)⟩

theorem OwnerAlive.set (h : w.OwnerAlive) {owner : Option Pid} (p : Process)
    (howner : ∀ q, q ≠ pid → owner = some q → w.owner = some q) :
    ({ w with owner := owner }.set pid p).OwnerAlive := by
  intro q hq
  by_cases hqp : q = pid
  · subst hqp
    exact ⟨p, process_set _ _ _⟩
  · rw [process_set_of_ne hqp]
    exact h q (howner q hqp hq)

theorem OwnerAlive.exit (h : w.OwnerAlive) (pid : Pid) : (w.exit pid).OwnerAlive := by
  intro q hq
  obtain ⟨howner, hne⟩ := owner_of_drop hq
  rw [process_exit_of_ne hne]
  exact h q howner

theorem OwnerAlive.step (h : w.OwnerAlive) {e : SyncEvent} (hen : w.Enabled e) :
    (w.step e).OwnerAlive := by
  cases e with
  | exec pid program opts => exact h.set _ fun _ _ hq => hq
  | step pid fails =>
    obtain ⟨p, hp, -⟩ := hen
    have hout := w.stepProcess_outcome pid p fails
    simp only [World.step, hp]
    generalize w.stepProcess pid p fails = w' at hout
    cases hout with
    | moved _ _ => exact h.set _ fun _ _ hq => hq
    | granted _ _ _ => exact h.set _ fun q hne hq => absurd (Option.some.inj hq).symm hne
    | closed _ => exact h.set _ fun _ _ hq => (owner_of_drop hq).1
    | ended => exact h.exit pid
  | fork pid child =>
    obtain ⟨-, p, hp, -⟩ := hen
    simp only [World.step, hp]
    have hparent : (w.goto pid p .parentExit).OwnerAlive := h.set _ fun _ _ hq => hq
    exact hparent.set _ fun _ _ hq => hq
  | kill pid => exact h.exit pid

theorem ownerAlive_start : start.OwnerAlive := fun _ h => by cases h

/-! ## Tenure -/

/-- `pid` owns the lock and is in its loop for good. -/
def Steers (w : World) (pid : Pid) : Prop :=
  w.owner = some pid ∧ ∃ p, w.process pid = some p ∧ p.InLoop ∧ 10000 ≤ p.syncPeriod

theorem Steers.of_set (h : w.Steers pid) (hne : pid ≠ q) : (w.set q p).Steers pid := by
  obtain ⟨howner, p', hp', hloop⟩ := h
  exact ⟨howner, p', (process_set_of_ne hne).trans hp', hloop⟩

theorem Steers.of_exit (h : w.Steers pid) (hne : pid ≠ q) : (w.exit q).Steers pid := by
  obtain ⟨howner, p', hp', hloop⟩ := h
  exact ⟨drop_of_owner howner hne, p', (process_exit_of_ne hne).trans hp', hloop⟩

/-- A pass of its own leaves the process in the loop. -/
theorem Steers.own_step (h : w.Steers pid) (hp : w.process pid = some p) (fails : Bool) :
    (w.stepProcess pid p fails).Steers pid := by
  obtain ⟨howner, p', hp', ⟨hdisplay, hplace⟩, hperiod⟩ := h
  obtain rfl : p = p' := Option.some.inj (hp.symm.trans hp')
  have hgoto : ∀ place, place = .getOffset ∨ place = .updateClock ∨ place = .endOfPass →
      (w.goto pid p place).Steers pid := fun place hplace' =>
    ⟨howner, _, process_set _ _ _, ⟨hdisplay, hplace'⟩, hperiod⟩
  rcases hplace with hplace | hplace | hplace
  · simp only [stepProcess, hplace, hdisplay]
    split
    · exact hgoto _ (.inr (.inr rfl))
    · exact hgoto _ (.inr (.inl rfl))
  · simp only [stepProcess, hplace]
    exact hgoto _ (.inr (.inr rfl))
  · simp only [stepProcess, hplace, hperiod, if_true]
    exact hgoto _ (.inl rfl)

theorem Steers.step (h : w.Steers pid) {e : SyncEvent} (hen : w.Enabled e)
    (hkill : e ≠ .kill pid) : (w.step e).Steers pid := by
  obtain ⟨howner, p', hp', ⟨-, hplace⟩, -⟩ := id h
  cases e with
  | exec q program opts =>
    have hen : w.process q = none := hen
    refine h.of_set fun hq => ?_
    rw [← hq, hp'] at hen
    cases hen
  | step q fails =>
    obtain ⟨p, hp, -⟩ := hen
    simp only [World.step, hp]
    by_cases hq : pid = q
    · subst hq
      exact h.own_step hp fails
    have hout := w.stepProcess_outcome q p fails
    generalize w.stepProcess q p fails = w' at hout
    cases hout with
    | moved _ _ => exact h.of_set hq
    | granted _ _ hfree => exact absurd (hfree.owner_eq howner) hq
    | closed _ =>
      rw [drop, if_neg fun hown => hq (Option.some.inj (howner.symm.trans hown))]
      exact h.of_set hq
    | ended => exact h.of_exit hq
  | fork q child =>
    obtain ⟨hchild, p, hp, hdaemon⟩ := hen
    simp only [World.step, hp]
    have hq : pid ≠ q := by
      rintro rfl
      obtain rfl : p = p' := Option.some.inj (hp.symm.trans hp')
      rw [hdaemon] at hplace
      rcases hplace with h | h | h <;> cases h
    have hne : pid ≠ child := by
      rintro rfl
      rw [hchild] at hp'
      cases hp'
    exact (h.of_set hq).of_set hne
  | kill q => exact h.of_exit fun hq => hkill (hq ▸ rfl)

end World

/-- From any reachable state on, a process that adjusts the clock without `-t` stays in its
loop with the lock until it is killed, whatever else is started, fails or is killed; and
nobody else gets to `update_clock` in that time. -/
theorem tenure_until_killed {w : World} (hw : syncMachine.Reachable w) {pid : Pid} {p : Process}
    (hp : w.process pid = some p) (hloop : p.InLoop) (es : List SyncEvent)
    (hadm : syncMachine.Admits w es) (hkill : ∀ e ∈ es, e ≠ .kill pid) :
    syncMachine.Throughout (fun w => w.Steers pid ∧ ∀ q, w.Updates q → q = pid) w es := by
  have hlock : LockInv w := Machine.reachable_of_invariant (m := syncMachine) LockInv.start
    (fun _ _ h hen => h.step hen) hw
  have hperiod : w.All (10000 ≤ ·.syncPeriod) :=
    Machine.reachable_of_invariant (m := syncMachine) World.all_start
      (fun _ _ h hen => World.all_syncPeriod_step h hen) hw
  have howner : w.owner = some pid := by
    refine (hlock pid p hp).owns ?_
    obtain ⟨hdisplay, hplace⟩ := hloop
    rcases hplace with h | h | h <;> simp [Process.Guarded, h, hdisplay]
  refine (Machine.throughout_of_invariant (m := syncMachine)
    (I := fun w => LockInv w ∧ w.Steers pid) (C := fun _ e => e ≠ .kill pid)
    (fun _ _ h hen hne => ⟨h.1.step hen, h.2.step hen hne⟩)
    ⟨hlock, howner, p, hp, hloop, hperiod pid p hp⟩ hadm
    (Machine.along_event_iff.mpr hkill)).mono fun w h => ⟨h.2, fun q hq => ?_⟩
  exact Option.some.inj ((h.1.owner_of_updates hq).symm.trans h.2.1)

/-- The daemon goes on while `guest_sync -t` is started, displays, and is killed. -/
theorem tenure_of_daemon :
    let es : List SyncEvent :=
      [.exec 3 .guestSync [.t], .step 2 true, .step 3 false, .step 2 false, .kill 3, .step 2 false]
    ((syncMachine.run (syncMachine.run .start daemonRun) es).Steers 2) := by
  intro es
  exact ((tenure_until_killed ⟨daemonRun, admits_daemonRun, rfl⟩ rfl ⟨rfl, .inr (.inl rfl)⟩ es
    ⟨rfl, ⟨_, rfl, nofun⟩, ⟨_, rfl, nofun⟩, ⟨_, rfl, nofun⟩, trivial, ⟨_, rfl, nofun⟩, trivial⟩
    (by decide)).run).1

/-! ## The start of the daemon -/

/-- No request for the lock that `lockfile` can grant is refused. -/
def NoneRefused (w : World) : SyncEvent → Prop
  | .step pid fails => ∀ p caller, w.process pid = some p →
    p.place = .alreadyRunning caller .lockFile → fails = true ∨ Free w.owner pid
  | _ => True

/-- A process asks for the lock when there is no other process. -/
def ParentsGone (w : World) : SyncEvent → Prop
  | .step pid fails => ∀ p caller, w.process pid = some p →
    p.place = .alreadyRunning caller .lockFile → fails = true ∨ ∀ q, q ≠ pid → w.process q = none
  | _ => True

def IsExec : SyncEvent → Prop
  | .exec _ _ _ => True
  | _ => False

/-- One start of one of the programs, and what comes of it. -/
def oneStart (pid : Pid) (program : Program) (opts : List Opt) : Machine World SyncEvent where
  init := World.start.exec pid program opts
  enabled w e := w.Enabled e ∧ ¬ IsExec e
  step := World.step

/-- Every process but the newest is about to exit and still has the lock. -/
structure OneStartInv (w : World) : Prop where
  lock : LockInv w
  alive : w.OwnerAlive
  daemon : ∀ pid p, w.process pid = some p → p.place = .daemon → w.owner = some pid
  newest : ∃ newest, ∀ pid p, w.process pid = some p → pid ≠ newest →
    p.place = .parentExit ∧ w.owner = some pid

namespace OneStartInv

variable {w : World} {pid : Pid} {p : Process} {fails : Bool}

theorem noneRefused_iff (h : OneStartInv w) (e : SyncEvent) :
    NoneRefused w e ↔ ParentsGone w e := by
  cases e with
  | step pid fails =>
    refine forall₄_congr fun p caller hp hplace => or_congr_right ?_
    constructor
    · intro hfree q hq
      by_contra hsome
      obtain ⟨p', hp'⟩ := Option.ne_none_iff_exists'.mp hsome
      obtain ⟨newest, hnewest⟩ := h.newest
      have hpid : pid = newest := by
        by_contra hne
        have hparent := (hnewest pid p hp hne).1
        rw [hplace] at hparent
        cases hparent
      exact hq (hfree.owner_eq (hnewest q p' hp' (hpid ▸ hq)).2)
    · intro hnone
      cases howner : w.owner with
      | none => exact .inl rfl
      | some q =>
        obtain ⟨p', hp'⟩ := h.alive q howner
        by_cases hq : q = pid
        · exact .inr (hq ▸ rfl)
        · rw [hnone q hq] at hp'
          cases hp'
  | exec pid program opts => exact Iff.rfl
  | fork pid child => exact Iff.rfl
  | kill pid => exact Iff.rfl

/-- A process that is not about to exit is the newest. -/
theorem others (h : OneStartInv w) (hp : w.process pid = some p) (hplace : p.place ≠ .parentExit)
    {q : Pid} {p' : Process} (hp' : w.process q = some p') (hq : q ≠ pid) :
    p'.place = .parentExit ∧ w.owner = some q := by
  obtain ⟨newest, hnewest⟩ := h.newest
  have hpid : pid = newest := by
    by_contra hne
    exact hplace (hnewest pid p hp hne).1
  exact hnewest q p' hp' (hpid ▸ hq)

theorem of_set (h : OneStartInv w) (hp : w.process pid = some p) (hplace : p.place ≠ .parentExit)
    {owner : Option Pid} {p' : Process} (hlock : LockInv ({ w with owner := owner }.set pid p'))
    (howner : ∀ q, q ≠ pid → w.owner = some q → owner = some q)
    (halive : ∀ q, q ≠ pid → owner = some q → w.owner = some q)
    (hdaemon : p'.place = .daemon → owner = some pid) :
    OneStartInv ({ w with owner := owner }.set pid p') where
  lock := hlock
  alive := h.alive.set p' halive
  daemon q p'' hq hd := by
    by_cases hne : q = pid
    · subst hne
      rw [World.process_set] at hq
      exact hdaemon (Option.some.inj hq ▸ hd)
    · rw [World.process_set_of_ne hne] at hq
      exact howner q hne (h.daemon q p'' hq hd)
  newest := ⟨pid, fun q p'' hq hne => by
    rw [World.process_set_of_ne hne] at hq
    obtain ⟨hparent, hown⟩ := h.others hp hplace hq hne
    exact ⟨hparent, howner q hne hown⟩⟩

theorem exit (h : OneStartInv w) (pid : Pid) : OneStartInv (w.exit pid) where
  lock := h.lock.exit pid
  alive := h.alive.exit pid
  daemon q p hq hd := by
    have hne : q ≠ pid := by
      rintro rfl
      rw [World.process_exit] at hq
      cases hq
    rw [World.process_exit_of_ne hne] at hq
    exact drop_of_owner (h.daemon q p hq hd) hne
  newest := by
    obtain ⟨newest, hnewest⟩ := h.newest
    refine ⟨newest, fun q p hq hnew => ?_⟩
    have hne : q ≠ pid := by
      rintro rfl
      rw [World.process_exit] at hq
      cases hq
    rw [World.process_exit_of_ne hne] at hq
    obtain ⟨hparent, hown⟩ := hnewest q p hq hnew
    exact ⟨hparent, drop_of_owner hown hne⟩

/-- The only way to `daemon` is from a call that was granted the lock. -/
theorem owner_of_daemon (h : OneStartInv w) (hp : w.process pid = some p) {p' : Process}
    (hm : Moves w.owner pid fails p p') (hd : p'.place = .daemon) : w.owner = some pid := by
  cases hm with
  | wroteOptD hplace => exact (h.lock pid p hp).owns (by rw [Process.Guarded, hplace]; trivial)
  | optT hplace _ | optV hplace _ | optS hplace _ _ | optOther hplace _ =>
    cases hplace.symm.trans hd
  | _ => cases hd

theorem stepProcess (h : OneStartInv w) (hp : w.process pid = some p) (fails : Bool) :
    OneStartInv (w.stepProcess pid p fails) := by
  by_cases hplace : p.place = .parentExit
  · simp only [World.stepProcess, hplace]
    exact h.exit pid
  have hlock := h.lock.stepProcess hp fails
  have hout := w.stepProcess_outcome pid p fails
  generalize w.stepProcess pid p fails = w' at hlock hout
  cases hout with
  | moved hm _ =>
    exact h.of_set hp hplace hlock (fun _ _ hq => hq) (fun _ _ hq => hq) (h.owner_of_daemon hp hm)
  | granted _ _ hfree =>
    exact h.of_set hp hplace hlock (fun q hne hq => absurd (hfree.owner_eq hq) hne)
      (fun q hne hq => absurd (Option.some.inj hq).symm hne) fun h => by cases h
  | closed _ =>
    exact h.of_set hp hplace hlock (fun _ hne hq => drop_of_owner hq hne)
      (fun _ _ hq => (World.owner_of_drop hq).1) fun h => by cases h
  | ended => exact h.exit pid

theorem fork (h : OneStartInv w) {child : Pid} (hchild : w.process child = none)
    (hp : w.process pid = some p) (hplace : p.place = .daemon) :
    OneStartInv (w.fork pid child p) := by
  have howner := h.daemon pid p hp hplace
  have hnone : ∀ q, q ≠ pid → w.process q = none := by
    intro q hq
    by_contra hsome
    obtain ⟨p', hp'⟩ := Option.ne_none_iff_exists'.mp hsome
    have hown := (h.others hp (by rw [hplace]; nofun) hp' hq).2
    exact hq (Option.some.inj (hown.symm.trans howner))
  have hself : ∀ q p', (w.fork pid child p).process q = some p' → q ≠ child →
      q = pid ∧ p' = { p with place := .parentExit } := by
    intro q p' hq hne
    rw [World.fork, World.goto, World.process_set_of_ne hne, World.goto] at hq
    by_cases hqp : q = pid
    · subst hqp
      rw [World.process_set] at hq
      exact ⟨rfl, (Option.some.inj hq).symm⟩
    · rw [World.process_set_of_ne hqp, hnone q hqp] at hq
      cases hq
  constructor
  · have hparent : LockInv (w.goto pid p .parentExit) := h.lock.set ⟨fun hg => hg.elim, trivial⟩
    exact hparent.set ⟨fun hg => hg.elim, trivial⟩
  · have hparent : (w.goto pid p .parentExit).OwnerAlive := h.alive.set _ fun _ _ hq => hq
    exact hparent.set _ fun _ _ hq => hq
  · intro q p' hq hd
    by_cases hne : q = child
    · subst hne
      rw [World.fork, World.goto, World.process_set] at hq
      rw [← Option.some.inj hq] at hd
      cases hd
    · rw [(hself q p' hq hne).2] at hd
      cases hd
  · refine ⟨child, fun q p' hq hne => ?_⟩
    obtain ⟨rfl, rfl⟩ := hself q p' hq hne
    exact ⟨rfl, howner⟩

theorem step (h : OneStartInv w) {e : SyncEvent} (hen : w.Enabled e) (hexec : ¬ IsExec e) :
    OneStartInv (w.step e) := by
  cases e with
  | exec pid program opts => exact absurd trivial hexec
  | step pid fails =>
    obtain ⟨p, hp, -⟩ := hen
    simp only [World.step, hp]
    exact h.stepProcess hp fails
  | fork pid child =>
    obtain ⟨hchild, p, hp, hplace⟩ := hen
    simp only [World.step, hp]
    exact h.fork hchild hp hplace
  | kill pid => exact h.exit pid

theorem start (pid : Pid) (program : Program) (opts : List Opt) :
    OneStartInv (World.start.exec pid program opts) where
  lock := LockInv.start.step (e := .exec pid program opts) rfl
  alive := World.ownerAlive_start.step (e := .exec pid program opts) rfl
  daemon q p hq hd := by
    by_cases hne : q = pid
    · subst hne
      rw [World.exec, World.process_set] at hq
      rw [← Option.some.inj hq] at hd
      cases hd
    · rw [World.exec, World.process_set_of_ne hne] at hq
      cases hq
  newest := ⟨pid, fun q p hq hne => by
    rw [World.exec, World.process_set_of_ne hne] at hq
    cases hq⟩

end OneStartInv

/-- However a single start of a program goes on, and whatever options it has, no request
for the lock is refused exactly when each is made after the processes it was forked from
have exited. -/
theorem start_iff_parents_gone (pid : Pid) (program : Program) (opts : List Opt)
    (es : List SyncEvent)
    (hadm : (oneStart pid program opts).Admits (oneStart pid program opts).init es) :
    (oneStart pid program opts).Along NoneRefused (oneStart pid program opts).init es ↔
      (oneStart pid program opts).Along ParentsGone (oneStart pid program opts).init es :=
  Machine.along_congr (m := oneStart pid program opts) (I := OneStartInv)
    (fun _ _ h hen => h.step hen.1 hen.2) (fun _ e h _ => h.noneRefused_iff e)
    (OneStartInv.start pid program opts) hadm

/-- The child asks for the lock before the parent has exited, and no process is left. -/
def lostDaemon : List SyncEvent :=
  [.step 1 false, .step 1 false, .step 1 false, .step 1 false, .fork 1 2, .step 2 false,
    .step 2 false, .step 2 false, .step 2 false, .step 2 false, .step 1 false]

theorem not_noneRefused_lostDaemon :
    ¬ (oneStart 1 .hostSync [.d]).Along NoneRefused (oneStart 1 .hostSync [.d]).init lostDaemon ∧
      ∀ pid, ((oneStart 1 .hostSync [.d]).run (oneStart 1 .hostSync [.d]).init
        lostDaemon).process pid = none := by
  have hadm : (oneStart 1 .hostSync [.d]).Admits (oneStart 1 .hostSync [.d]).init lostDaemon :=
    ⟨⟨⟨_, rfl, nofun⟩, id⟩, ⟨⟨_, rfl, nofun⟩, id⟩, ⟨⟨_, rfl, nofun⟩, id⟩, ⟨⟨_, rfl, nofun⟩, id⟩,
      ⟨⟨rfl, _, rfl, rfl⟩, id⟩, ⟨⟨_, rfl, nofun⟩, id⟩, ⟨⟨_, rfl, nofun⟩, id⟩,
      ⟨⟨_, rfl, nofun⟩, id⟩, ⟨⟨_, rfl, nofun⟩, id⟩, ⟨⟨_, rfl, nofun⟩, id⟩,
      ⟨⟨_, rfl, nofun⟩, id⟩, trivial⟩
  refine ⟨fun h => ?_, fun pid => ?_⟩
  · have hgone := (start_iff_parents_gone 1 .hostSync [.d] lostDaemon hadm).mp h
    have hasks := hgone.2.2.2.2.2.2.2.2.1 _ .beforeLoop rfl rfl
    rcases hasks with hfails | hnone
    · cases hfails
    · cases hnone 1 (by decide)
  · by_cases h1 : pid = 1
    · subst h1
      rfl
    by_cases h2 : pid = 2
    · subst h2
      rfl
    simp [lostDaemon, oneStart, World.step, World.exec, World.start, World.set, World.stepProcess,
      World.getopt, World.alreadyRunning, World.goto, World.exit, World.fork, World.locked,
      World.notLocked, RecordLock.Free, RecordLock.drop, Function.update, h1, h2]

end TimeTools.Sync
