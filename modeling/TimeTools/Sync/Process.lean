import Mathlib.Logic.Function.Basic
import TimeTools.Foundation.RecordLock
import TimeTools.Foundation.Run

/-!
# The sync programs as processes

`main` of `host_sync`, `guest_sync` and `time_sync` is one program but for the card:
`guest_sync` opens no device and its offset cannot fail.  A process is a place in
that program with its local variables; a step is one system call on `LOCKFILE` or on
the card, one option, or one call of `update_clock`.  The lock on `LOCKFILE` is the
only thing that the processes share.

Every place where a call may fail is a choice of the event, and so is the moment at
which a process is killed.
-/

namespace TimeTools.Sync

inductive Program
  | hostSync
  | guestSync
  | timeSync
  deriving DecidableEq, Repr

/-- What `getopt` returns.  The argument of `-s` is already a number. -/
inductive Opt
  | h
  | d
  | t
  | v
  | s (syncPeriod : Int32)
  | other
  deriving DecidableEq, Repr

inductive Caller
  | optD
  | beforeLoop
  | inLoop
  deriving DecidableEq, Repr

/-- The next call of `already_running`: `open`, `lockfile`, `close` when the file is
locked, and `ftruncate` and `write` when it is not. -/
inductive Stage
  | openFile
  | lockFile
  | closeFile
  | writePid
  deriving DecidableEq, Repr

/-- The next thing a process does.  `parentExit` is the parent in `daemon` after its
fork. -/
inductive Place
  | getopt
  | alreadyRunning (caller : Caller) (stage : Stage)
  | daemon
  | parentExit
  | openCard
  | getOffset
  | updateClock
  | endOfPass
  deriving DecidableEq, Repr

structure Process where
  program : Program
  place : Place
  opts : List Opt
  displayPCIETime : Bool
  displayResult : Bool
  syncPeriod : Int32
  lockFds : Nat
  deriving DecidableEq, Repr

abbrev Pid := Nat

structure World where
  process : Pid → Option Process
  owner : Option Pid

/-- `fails` chooses the outcome of a step that can fail. -/
inductive SyncEvent
  | exec (pid : Pid) (program : Program) (opts : List Opt)
  | step (pid : Pid) (fails : Bool)
  | fork (pid child : Pid)
  | kill (pid : Pid)
  deriving DecidableEq, Repr

namespace World

open RecordLock

def start : World := { process := fun _ => none, owner := none }

def set (w : World) (pid : Pid) (p : Process) : World :=
  { w with process := Function.update w.process pid (some p) }

def goto (w : World) (pid : Pid) (p : Process) (place : Place) : World :=
  w.set pid { p with place := place }

def exit (w : World) (pid : Pid) : World :=
  { process := Function.update w.process pid none, owner := drop w.owner pid }

def locked (w : World) (pid : Pid) (p : Process) : Caller → World
  | .optD => w.exit pid
  | .beforeLoop => w.exit pid
  | .inLoop => w.goto pid p .endOfPass

def notLocked (w : World) (pid : Pid) (p : Process) : Caller → World
  | .optD => w.goto pid p .daemon
  | .beforeLoop => w.goto pid p .getOffset
  | .inLoop => w.goto pid p .updateClock

def alreadyRunning (w : World) (pid : Pid) (p : Process) (caller : Caller) (fails : Bool) :
    Stage → World
  | .openFile =>
    if fails then w.exit pid
    else
      w.set pid { p with place := .alreadyRunning caller .lockFile, lockFds := p.lockFds + 1 }
  | .lockFile =>
    if fails then w.exit pid
    else if Free w.owner pid then
      { w with owner := some pid }.goto pid p (.alreadyRunning caller .writePid)
    else w.goto pid p (.alreadyRunning caller .closeFile)
  | .closeFile =>
    { w with owner := drop w.owner pid }.locked pid { p with lockFds := p.lockFds - 1 } caller
  | .writePid => w.notLocked pid p caller

def getopt (w : World) (pid : Pid) (p : Process) : World :=
  match p.opts with
  | [] => w.goto pid p .openCard
  | .h :: _ => w.exit pid
  | .d :: opts => w.set pid { p with place := .alreadyRunning .optD .openFile, opts := opts }
  | .t :: opts => w.set pid { p with displayPCIETime := true, opts := opts }
  | .v :: opts => w.set pid { p with displayResult := true, opts := opts }
  | .s syncPeriod :: opts =>
    if 10000 ≤ syncPeriod then w.set pid { p with syncPeriod := syncPeriod, opts := opts }
    else w.exit pid
  | .other :: opts => w.set pid { p with opts := opts }

/-- One step of a process.  At `daemon` the step is a fork that fails. -/
def stepProcess (w : World) (pid : Pid) (p : Process) (fails : Bool) : World :=
  match p.place with
  | .getopt => w.getopt pid p
  | .alreadyRunning caller stage => w.alreadyRunning pid p caller fails stage
  | .daemon => w.exit pid
  | .parentExit => w.exit pid
  | .openCard =>
    if fails ∧ p.program ≠ .guestSync then w.exit pid
    else if p.displayPCIETime then w.goto pid p .getOffset
    else w.goto pid p (.alreadyRunning .beforeLoop .openFile)
  | .getOffset =>
    if fails ∧ p.program ≠ .guestSync then w.goto pid p .endOfPass
    else if p.displayPCIETime then w.goto pid p (.alreadyRunning .inLoop .openFile)
    else w.goto pid p .updateClock
  | .updateClock => w.goto pid p .endOfPass
  | .endOfPass =>
    if 10000 ≤ p.syncPeriod then w.goto pid p .getOffset else w.exit pid

/-- A new process.  Without an argument `main` prints its usage and returns, so such
a process never gets here. -/
def exec (w : World) (pid : Pid) (program : Program) (opts : List Opt) : World :=
  w.set pid
    { program := program
      place := .getopt
      opts := opts
      displayPCIETime := false
      displayResult := false
      syncPeriod := 10000
      lockFds := 0 }

/-- The fork in `daemon`: the child goes on with the options, with the descriptors of
its parent and without its lock. -/
def fork (w : World) (pid child : Pid) (p : Process) : World :=
  (w.goto pid p .parentExit).goto child p .getopt

def step (w : World) : SyncEvent → World
  | .exec pid program opts => w.exec pid program opts
  | .step pid fails =>
    match w.process pid with
    | none => w
    | some p => w.stepProcess pid p fails
  | .fork pid child =>
    match w.process pid with
    | none => w
    | some p => w.fork pid child p
  | .kill pid => w.exit pid

def Enabled (w : World) : SyncEvent → Prop
  | .exec pid _ _ => w.process pid = none
  | .step pid fails =>
    ∃ p, w.process pid = some p ∧ (p.place = .daemon → fails = true)
  | .fork pid child =>
    w.process child = none ∧ ∃ p, w.process pid = some p ∧ p.place = .daemon
  | .kill _ => True

end World

def syncMachine : Machine World SyncEvent where
  init := .start
  enabled := World.Enabled
  step := World.step

end TimeTools.Sync
