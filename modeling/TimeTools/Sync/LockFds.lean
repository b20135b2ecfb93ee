import TimeTools.Sync.Display

/-!
# Descriptors of the lock file

`already_running` opens a descriptor in each call and closes it only when the lock is
refused.  Each `-d` leaves one open, and so does the call before the loop; the calls
in the loop leave none as long as they are refused.  Once one is granted, every pass
leaves another (`lockFds_bounded`).
-/

namespace TimeTools.Sync

open RecordLock

namespace Process

/-- How many more descriptors `p` can have open at one time as long as its requests
in the loop are refused. -/
def fdsToCome (p : Process) : Nat :=
  match p.place with
  | .getopt => p.opts.count .d + 1
  | .alreadyRunning .optD .openFile => p.opts.count .d + 2
  | .alreadyRunning .optD _ => p.opts.count .d + 1
  | .daemon => p.opts.count .d + 1
  | .parentExit => 0
  | .openCard => 1
  | .alreadyRunning _ .openFile => 1
  | .alreadyRunning _ _ => 0
  | .getOffset => if p.displayPCIETime then 1 else 0
  | .updateClock => 0
  | .endOfPass => if p.displayPCIETime then 1 else 0

/-- `limit` is enough for what is open and what is to come. -/
structure FdsWithin (limit : Nat) (p : Process) : Prop where
  pos : 1 ≤ limit
  fits : p.lockFds + p.fdsToCome ≤ limit
  waits : p.Waits
  adjusts : ∀ stage, p.place = .alreadyRunning .beforeLoop stage → p.displayPCIETime = false

variable {limit : Nat} {owner : Option Pid} {pid : Pid} {fails : Bool} {p p' : Process}

theorem FdsWithin.moves_fits (h : p.FdsWithin limit) (hm : Moves owner pid fails p p') :
    p'.lockFds + p'.fdsToCome ≤ limit := by
  obtain ⟨hpos, hfits, hwaits, hadjusts⟩ := h
  unfold fdsToCome at hfits ⊢
  cases hm with
  | optEnd hplace hnil => simp only [hplace, hnil, List.count_nil] at hfits ⊢; omega
  | optD hplace hcons =>
    simp only [hplace, hcons, List.count_cons_self] at hfits ⊢
    omega
  | optT hplace hcons => simpa [hplace, hcons] using hfits
  | optV hplace hcons => simpa [hplace, hcons] using hfits
  | optS hplace hcons _ => simpa [hplace, hcons] using hfits
  | optOther hplace hcons => simpa [hplace, hcons] using hfits
  | @openFile caller hplace =>
    cases caller <;> simp only [hplace] at hfits ⊢ <;> omega
  | @granted caller hplace _ _ =>
    cases caller <;> simpa only [hplace] using hfits
  | @refused caller hplace _ =>
    cases caller <;> simpa only [hplace] using hfits
  | closeFile hplace =>
    simp only [hplace] at hfits ⊢
    split <;> omega
  | wroteOptD hplace => simpa only [hplace] using hfits
  | wroteBeforeLoop hplace => simpa [hplace, hadjusts _ hplace] using hfits
  | wroteInLoop hplace => simpa only [hplace] using hfits
  | displays hplace hd => simpa [hplace, hd] using hfits
  | adjusts hplace hd => simpa only [hplace] using hfits
  | noOffset hplace => simpa only [hplace] using hfits
  | asks hplace hd => simpa [hplace, hd] using hfits
  | updates hplace hd => simpa [hplace, hd] using hfits
  | updated hplace =>
    have hd : p.displayPCIETime = false :=
      Bool.eq_false_iff.mpr fun hd => (hwaits.refused hd).1 hplace
    simpa [hplace, hd] using hfits
  | slept hplace _ => simpa only [hplace] using hfits

theorem FdsWithin.moves (h : p.FdsWithin limit) (hm : Moves owner pid fails p p')
    (hclean : p.place = .alreadyRunning .inLoop .lockFile → fails = true ∨ ¬ Free owner pid) :
    p'.FdsWithin limit := by
  refine ⟨h.pos, h.moves_fits hm, h.waits.moves hm hclean, fun stage hstage => ?_⟩
  have hadjusts := h.adjusts
  cases hm with
  | @openFile caller hplace | @granted caller hplace _ _ | @refused caller hplace _ =>
    obtain rfl : caller = .beforeLoop := (Place.alreadyRunning.inj hstage).1
    exact hadjusts _ hplace
  | adjusts _ hd => exact hd
  | optT hplace _ | optV hplace _ | optS hplace _ _ | optOther hplace _ =>
    cases hplace.symm.trans hstage
  | _ => cases hstage

theorem fdsWithin_fresh (program : Program) {opts : List Opt} (h : opts.count .d + 1 ≤ limit) :
    (Process.fresh program opts).FdsWithin limit where
  pos := by omega
  fits := by
    show 0 + (opts.count .d + 1) ≤ limit
    omega
  waits := .of_not_pastGetopt id
  adjusts _ hstage := nomatch hstage

end Process

/-- No process has more than `limit` descriptors open on `LOCKFILE`. -/
def World.FdsAtMost (limit : Nat) (w : World) : Prop :=
  ∀ pid p, w.process pid = some p → p.lockFds ≤ limit

/-- A new process has at most `n` options `-d`. -/
def OptDAtMost (n : Nat) : SyncEvent → Prop
  | .exec _ _ opts => opts.count .d ≤ n
  | _ => True

theorem World.all_fdsWithin_step {w : World} {n : Nat} (h : w.All (Process.FdsWithin (n + 1)))
    {e : SyncEvent} (hen : w.Enabled e) (hclean : RefusesInLoop w e) (hopts : OptDAtMost n e) :
    (w.step e).All (Process.FdsWithin (n + 1)) := by
  refine h.step hen ?_ ?_ ?_
  · intro pid program opts he
    subst he
    exact Process.fdsWithin_fresh program (Nat.succ_le_succ hopts)
  · intro pid fails p p' he hp hwithin hm
    subst he
    exact hwithin.moves hm (hclean.not_free hp)
  · intro p hplace hwithin
    have hfits := hwithin.fits
    rw [Process.fdsToCome, hplace] at hfits
    refine ⟨⟨hwithin.pos, ?_, .of_not_pastGetopt id, nofun⟩,
      ⟨hwithin.pos, hfits, .of_not_pastGetopt id, nofun⟩⟩
    show p.lockFds + 0 ≤ n + 1
    omega

/-! ## Granted requests -/

/-- `-s` does not take a period below the default, so no pass is the last one. -/
theorem Moves.syncPeriod_ge {owner : Option Pid} {pid : Pid} {fails : Bool} {p p' : Process}
    (h : 10000 ≤ p.syncPeriod) (hm : Moves owner pid fails p p') : 10000 ≤ p'.syncPeriod := by
  cases hm with
  | optS _ _ hperiod => exact hperiod
  | _ => exact h

theorem World.all_syncPeriod_step {w : World} (h : w.All (10000 ≤ ·.syncPeriod)) {e : SyncEvent}
    (hen : w.Enabled e) : (w.step e).All (10000 ≤ ·.syncPeriod) := by
  refine h.step hen (fun _ _ _ _ => ?_) (fun _ _ _ _ _ _ hp hm => hm.syncPeriod_ge hp)
    (fun _ _ hp => ⟨hp, hp⟩)
  show (10000 : Int32) ≤ 10000
  decide

/-- A pass in which no call fails and the lock is granted: the offset, three calls of
`already_running`, `update_clock` and the end of the pass. -/
def grantedPass (pid : Pid) : List SyncEvent :=
  [.step pid false, .step pid false, .step pid false, .step pid false, .step pid false,
    .step pid false]

def passes (pid : Pid) : Nat → List SyncEvent
  | 0 => []
  | n + 1 => grantedPass pid ++ passes pid n

namespace World

variable {w : World}

theorem step_set (w : World) (pid : Pid) (p : Process) (fails : Bool) :
    (w.set pid p).step (.step pid fails) = (w.set pid p).stepProcess pid p fails := by
  simp only [step, process_set]

theorem enabled_set (w : World) (pid : Pid) (p : Process) (fails : Bool) :
    (w.set pid p).Enabled (.step pid fails) ↔ (p.place = .daemon → fails = true) := by
  simp only [Enabled, process_set, Option.some.injEq, exists_eq_left']

/-- A granted pass leaves one more descriptor open, and the lock with the process. -/
theorem run_grantedPass (hd : p.displayPCIETime = true) (hplace : p.place = .getOffset)
    (hperiod : 10000 ≤ p.syncPeriod) (hfree : Free w.owner pid) :
    syncMachine.Admits (w.set pid p) (grantedPass pid) ∧
      syncMachine.run (w.set pid p) (grantedPass pid) =
        { w with owner := some pid }.set pid { p with lockFds := p.lockFds + 1 } := by
  constructor <;> simp [grantedPass, Machine.Admits, Machine.Along, syncMachine, enabled_set,
    step_set, stepProcess, goto, alreadyRunning, notLocked, set_set, set_owner, owner_set, hplace,
    hd, hperiod, hfree]

theorem run_passes (hd : p.displayPCIETime = true) (hplace : p.place = .getOffset)
    (hperiod : 10000 ≤ p.syncPeriod) (hfree : Free w.owner pid) (n : Nat) :
    syncMachine.Admits (w.set pid p) (passes pid n) ∧
      (syncMachine.run (w.set pid p) (passes pid n)).process pid =
        some { p with lockFds := p.lockFds + n } := by
  induction n generalizing w p with
  | zero => exact ⟨trivial, process_set _ _ _⟩
  | succ n ih =>
    obtain ⟨hadm, hrun⟩ := run_grantedPass (w := w) hd hplace hperiod hfree
    obtain ⟨hadms, hruns⟩ := ih (w := { w with owner := some pid })
      (p := { p with lockFds := p.lockFds + 1 }) hd hplace hperiod (.inr rfl)
    refine ⟨(Machine.along_append _ _ _ _ _).mpr ⟨hadm, ?_⟩, ?_⟩
    · rw [hrun]
      exact hadms
    · rw [passes, Machine.run_append, hrun, hruns]
      simp only [Nat.add_assoc, Nat.add_comm 1]

end World

/-- In a run in which no request inside the loop is granted, no process has more
descriptors open than `-d` options and one; and where a run stops with a process in
display mode that can be granted the lock, the process can go on to have any number of
them, one more with each pass. -/
theorem lockFds_bounded (es : List SyncEvent) (hadm : syncMachine.Admits .start es) :
    (∀ n, (∀ e ∈ es, OptDAtMost n e) → syncMachine.Along RefusesInLoop .start es →
      syncMachine.Throughout (World.FdsAtMost (n + 1)) .start es) ∧
    ∀ pid p, (syncMachine.run .start es).process pid = some p → p.displayPCIETime = true →
      p.place = .getOffset → Free (syncMachine.run .start es).owner pid →
      ∀ n, syncMachine.Admits .start (es ++ passes pid n) ∧
        (syncMachine.run .start (es ++ passes pid n)).process pid =
          some { p with lockFds := p.lockFds + n } := by
  refine ⟨fun n hopts hclean => ?_, fun pid p hp hd hplace hfree n => ?_⟩
  · have hboth := hclean.and (Machine.along_event_iff.mpr hopts)
    refine (Machine.throughout_of_invariant (I := fun w => w.All (Process.FdsWithin (n + 1)))
      (fun _ _ h hen hc => World.all_fdsWithin_step h hen hc.1 hc.2) World.all_start hadm
      hboth).mono ?_
    intro w h pid p hp
    exact Nat.le_trans (Nat.le_add_right _ _) (h pid p hp).fits
  · have hall : (syncMachine.run .start es).All (10000 ≤ ·.syncPeriod) :=
      Machine.reachable_of_invariant (m := syncMachine) (I := fun w => w.All (10000 ≤ ·.syncPeriod))
        World.all_start (fun _ _ h hen => World.all_syncPeriod_step h hen) ⟨es, hadm, rfl⟩
    obtain ⟨hpasses, hrun⟩ := World.run_passes hd hplace (hall pid p hp) hfree n
    rw [World.set_self hp] at hpasses hrun
    refine ⟨(Machine.along_append _ _ _ _ _).mpr ⟨hadm, hpasses⟩, ?_⟩
    rw [Machine.run_append]
    exact hrun

theorem lockFds_bounded_beside_daemon :
    syncMachine.Throughout (World.FdsAtMost 1) .start displayBesideDaemon :=
  (lockFds_bounded displayBesideDaemon admits_displayBesideDaemon).1 0
    (by simp [displayBesideDaemon, OptDAtMost]) refusesInLoop_displayBesideDaemon

/-- `host_sync -t` up to its loop. -/
def displayStart : List SyncEvent :=
  [.exec 1 .hostSync [.t], .step 1 false, .step 1 false, .step 1 false]

theorem not_fdsAtMost_alone :
    ¬ ∃ limit, ∀ n, syncMachine.Admits .start (displayStart ++ passes 1 n) →
      syncMachine.Throughout (World.FdsAtMost limit) .start (displayStart ++ passes 1 n) := by
  intro h
  obtain ⟨limit, h⟩ := h
  have hp : (syncMachine.run .start displayStart).process 1 =
      some ⟨.hostSync, .getOffset, [], true, false, 10000, 0⟩ := rfl
  have hfree : Free (syncMachine.run .start displayStart).owner 1 := .inl rfl
  have hpasses := World.run_passes (p := ⟨.hostSync, .getOffset, [], true, false, 10000, 0⟩)
    rfl rfl (by decide) hfree (limit + 1)
  rw [World.set_self hp] at hpasses
  obtain ⟨hadm, hrun⟩ := hpasses
  have hstart : syncMachine.Admits .start displayStart :=
    ⟨rfl, ⟨_, rfl, nofun⟩, ⟨_, rfl, nofun⟩, ⟨_, rfl, nofun⟩, trivial⟩
  have hthrough := (h (limit + 1) ((Machine.along_append _ _ _ _ _).mpr ⟨hstart, hadm⟩)).run
  rw [Machine.run_append] at hthrough
  have hle : 0 + (limit + 1) ≤ limit := hthrough 1 _ hrun
  omega

end TimeTools.Sync
