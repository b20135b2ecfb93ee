import Mathlib.Data.Finset.Card
import TimeTools.Foundation.Run
import TimeTools.Timer.Server

/-!
# The processes of `tcp_server`

After `fork` parent and child share one loop.  The child goes into
`process_conn_server` with its connection.  When that returns, after a read of 0, it
closes the listening descriptor and falls into the `accept` of the loop, from which it
never comes back (`spins_run`); a read that fails ends the connection as well, and the
child reads on.  Nowhere does a process exit, so the processes are as they should be in
exactly the runs in which no connection that is being served ends
(`lifeCycle_iff_noneEnds`).
-/

namespace TimeTools.Timer.TcpServer

abbrev Pid := Nat

abbrev ConnId := Nat

/-- The next thing a process does in the loop of `main`. -/
inductive Place
  | accept
  | fork
  | processConn (conn : Conn)
  | closeSs
  | closeSc
  deriving DecidableEq, Repr

/-- `ss` says whether the process has its listening descriptor open, `sc` which
connection its `sc` is, and `child` which one it was created for. -/
structure Proc where
  place : Place
  ss : Bool
  sc : Option ConnId
  child : Option ConnId
  deriving DecidableEq, Repr

/-- `accepted` are the connections there have been, `served` those that have a child
which has read neither their end nor an error. -/
structure Server where
  running : Finset Pid
  proc : Pid → Proc
  accepted : Finset ConnId
  served : Finset ConnId

/-- Calls with what they return: a connection or a failure of `accept`, the child or
a failure of `fork`, and one `read`. -/
inductive ServerEvent
  | accept (pid : Pid) (sc : Option ConnId)
  | fork (pid : Pid) (child : Option Pid)
  | read (pid : Pid) (r : ReadResult)
  | closeSs (pid : Pid)
  | closeSc (pid : Pid)
  deriving DecidableEq, Repr

/-- The process that makes the call. -/
def ServerEvent.caller : ServerEvent → Pid
  | .accept pid _ => pid
  | .fork pid _ => pid
  | .read pid _ => pid
  | .closeSs pid => pid
  | .closeSc pid => pid

namespace Server

/-- `main` at its loop. -/
def start : Server where
  running := {0}
  proc _ := { place := .accept, ss := true, sc := none, child := none }
  accepted := ∅
  served := ∅

def set (w : Server) (pid : Pid) (p : Proc) : Server :=
  { w with proc := Function.update w.proc pid p }

/-- A process that is there does what is next in it.  `accept` succeeds on an open
descriptor only, and with a new connection. -/
def Enabled (w : Server) : ServerEvent → Prop
  | .accept pid none => pid ∈ w.running ∧ (w.proc pid).place = .accept
  | .accept pid (some c) => pid ∈ w.running ∧ (w.proc pid).place = .accept ∧
    (w.proc pid).ss = true ∧ c ∉ w.accepted
  | .fork pid none => pid ∈ w.running ∧ (w.proc pid).place = .fork
  | .fork pid (some child) => pid ∈ w.running ∧ (w.proc pid).place = .fork ∧ child ∉ w.running
  | .read pid _ => pid ∈ w.running ∧ ∃ conn, (w.proc pid).place = .processConn conn
  | .closeSs pid => pid ∈ w.running ∧ (w.proc pid).place = .closeSs
  | .closeSc pid => pid ∈ w.running ∧ (w.proc pid).place = .closeSc

def fork (w : Server) (pid child : Pid) (p : Proc) : Server :=
  { (w.set pid { p with place := .closeSc }).set child
      { p with place := .processConn .start, child := p.sc } with
    running := insert child w.running
    served := p.sc.elim w.served fun c => insert c w.served }

/-- One pass of `process_conn_server` with what its `read` gave, and its return.  The
end and an error both are the end of the connection, whatever the process does then. -/
def read (w : Server) (pid : Pid) (p : Proc) (conn : Conn) (r : ReadResult) : Server :=
  { w.set pid { p with place := if conn.returned then .closeSs else .processConn conn } with
    served := if r = .endOfStream ∨ r = .error then p.sc.elim w.served w.served.erase
      else w.served }

def step (w : Server) : ServerEvent → Server
  | .accept pid none => w.set pid { w.proc pid with sc := none }
  | .accept pid (some c) =>
    { w.set pid { w.proc pid with place := .fork, sc := some c } with
      accepted := insert c w.accepted }
  | .fork pid none => w.set pid { w.proc pid with place := .closeSc }
  | .fork pid (some child) => w.fork pid child (w.proc pid)
  | .read pid r =>
    match (w.proc pid).place with
    | .processConn conn => w.read pid (w.proc pid) (conn.step r) r
    | _ => w
  | .closeSs pid => w.set pid { w.proc pid with place := .accept, ss := false }
  | .closeSc pid => w.set pid { w.proc pid with place := .accept, sc := none }

end Server

def serverMachine : Machine Server ServerEvent where
  init := .start
  enabled := Server.Enabled
  step := Server.step

/-! ## What the processes should be -/

/-- The process can come to its end.  None can, in any state: no event ends a process, as
`main` has no exit behind its loop (`not_canTerminate`). -/
def CanTerminate (w : Server) (pid : Pid) : Prop :=
  ∃ es, serverMachine.Admits w es ∧ pid ∉ (serverMachine.run w es).running

structure Serves (w : Server) (p : Proc) (c : ConnId) : Prop where
  place : ∃ conn, p.place = .processConn conn
  sc : p.sc = some c
  served : c ∈ w.served

/-- A child serves its connection, or is on its way out when that has ended; there is
one process more than there are connections served, not counting those on their way
out; and nobody accepts on a closed descriptor.  As none can terminate here, a child
whose connection has ended is in neither case. -/
structure LifeCycle (w : Server) : Prop where
  children : ∀ pid ∈ w.running, ∀ c, (w.proc pid).child = some c →
    Serves w (w.proc pid) c ∨
      c ∉ w.served ∧ (w.proc pid).place ≠ .accept ∧ CanTerminate w pid
  count : (w.running.filter fun pid => (w.proc pid).place ≠ .closeSs).card = 1 + w.served.card
  listening : ∀ pid ∈ w.running, (w.proc pid).place = .accept → (w.proc pid).ss = true

/-- No connection ends on a process that serves it, by its end or by an error. -/
def NoneEnds : ServerEvent → Prop
  | .read _ r => r ≠ .endOfStream ∧ r ≠ .error
  | _ => True

/-! ## Nobody terminates -/

variable {w : Server} {e : ServerEvent} {pid : Pid}

namespace Server

theorem proc_set (w : Server) (pid : Pid) (p : Proc) : (w.set pid p).proc pid = p :=
  Function.update_self _ _ _

theorem proc_set_of_ne (w : Server) {pid q : Pid} (p : Proc) (h : q ≠ pid) :
    (w.set pid p).proc q = w.proc q := Function.update_of_ne h _ _

/-- A call leaves the other processes as they are. -/
theorem proc_step_of_ne (hen : w.Enabled e) (hpid : pid ∈ w.running) (hne : e.caller ≠ pid) :
    (w.step e).proc pid = w.proc pid := by
  cases e with
  | accept q sc => cases sc <;> exact proc_set_of_ne w _ (Ne.symm hne)
  | fork q child =>
    cases child with
    | none => exact proc_set_of_ne w _ (Ne.symm hne)
    | some child =>
      have hchild : pid ≠ child := fun h => hen.2.2 (h ▸ hpid)
      exact (Function.update_of_ne hchild _ _).trans (proc_set_of_ne w _ (Ne.symm hne))
  | read q r =>
    obtain ⟨-, conn, hconn⟩ := hen
    simp only [step, hconn]
    exact proc_set_of_ne w _ (Ne.symm hne)
  | closeSs q => exact proc_set_of_ne w _ (Ne.symm hne)
  | closeSc q => exact proc_set_of_ne w _ (Ne.symm hne)

theorem running_step (w : Server) (e : ServerEvent) : w.running ⊆ (w.step e).running := by
  cases e with
  | accept pid sc => cases sc <;> exact Finset.Subset.refl _
  | fork pid child =>
    cases child with
    | none => exact Finset.Subset.refl _
    | some q => exact Finset.subset_insert _ _
  | read pid r =>
    simp only [step]
    split <;> exact Finset.Subset.refl _
  | closeSs pid => exact Finset.Subset.refl _
  | closeSc pid => exact Finset.Subset.refl _

theorem running_run (w : Server) (es : List ServerEvent) :
    w.running ⊆ (serverMachine.run w es).running := by
  induction es generalizing w with
  | nil => exact Finset.Subset.refl _
  | cons e es ih => exact (w.running_step e).trans (ih (w.step e))

end Server

theorem not_canTerminate (h : pid ∈ w.running) : ¬ CanTerminate w pid :=
  fun ⟨es, _, hend⟩ => hend (w.running_run es h)

/-- The process is in the `accept` of the loop without a listening descriptor. -/
structure Spins (pid : Pid) (w : Server) : Prop where
  running : pid ∈ w.running
  place : (w.proc pid).place = .accept
  ss : (w.proc pid).ss = false

theorem spins_closeSs (h : pid ∈ w.running) : Spins pid (w.step (.closeSs pid)) := by
  refine ⟨h, ?_, ?_⟩ <;> simp [Server.step, Server.proc_set]

theorem Spins.step (h : Spins pid w) (hen : w.Enabled e) : Spins pid (w.step e) := by
  obtain ⟨hrunning, hplace, hss⟩ := h
  have hrunning' := w.running_step e hrunning
  by_cases hcaller : e.caller = pid
  · subst hcaller
    cases e with
    | accept pid sc =>
      cases sc with
      | none =>
        change (w.proc pid).place = _ at hplace
        change (w.proc pid).ss = _ at hss
        exact ⟨hrunning', by simp [Server.step, Server.proc_set, ServerEvent.caller, hplace],
          by simp [Server.step, Server.proc_set, ServerEvent.caller, hss]⟩
      | some c => cases hss.symm.trans hen.2.2.1
    | fork pid child =>
      cases child with
      | none => cases hplace.symm.trans hen.2
      | some q => cases hplace.symm.trans hen.2.1
    | read pid r =>
      obtain ⟨-, conn, hconn⟩ := hen
      cases hplace.symm.trans hconn
    | closeSs pid => cases hplace.symm.trans hen.2
    | closeSc pid => cases hplace.symm.trans hen.2
  · have hsame := Server.proc_step_of_ne hen hrunning hcaller
    exact ⟨hrunning', by rw [hsame, hplace], by rw [hsame, hss]⟩

theorem spins_run (h : Spins pid w) {es : List ServerEvent} (hadm : serverMachine.Admits w es) :
    serverMachine.Throughout (Spins pid) w es :=
  Machine.throughout_of_invariant (C := fun _ _ => True) (fun _ _ h hen _ => h.step hen) h hadm
    (Machine.along_true _ _ _)

/-! ## While no connection ends -/

/-- A child in the middle of `process_conn_server`. -/
structure Serving (w : Server) (p : Proc) (c : ConnId) : Prop extends Serves w p c where
  child : p.child = some c
  goes_on : ∀ conn, p.place = .processConn conn → conn.returned = false

theorem Serving.mono {w' : Server} {p : Proc} {c : ConnId} (h : Serving w p c)
    (hserved : w.served ⊆ w'.served) : Serving w' p c :=
  ⟨⟨h.place, h.sc, hserved h.served⟩, h.child, h.goes_on⟩

theorem returned_step {conn : Conn} (h : conn.returned = false) (r : ReadResult) :
    (conn.step r).returned = true ↔ r = .endOfStream := by
  cases r <;> simp [Conn.step, Conn.printLine, h]

/-- Process 0 is the parent, and all others are children that serve. -/
structure LifeInv (w : Server) : Prop where
  running : 0 ∈ w.running
  parent : (w.proc 0).child = none ∧ (w.proc 0).ss = true
  place : (w.proc 0).place = .accept ∨ (w.proc 0).place = .closeSc ∨
    (w.proc 0).place = .fork ∧ ∃ c, (w.proc 0).sc = some c ∧ c ∈ w.accepted ∧ c ∉ w.served
  children : ∀ pid ∈ w.running, pid ≠ 0 → ∃ c, Serving w (w.proc pid) c
  accepted : w.served ⊆ w.accepted
  count : w.running.card = 1 + w.served.card

namespace LifeInv

theorem start : LifeInv Server.start where
  running := Finset.mem_singleton_self 0
  parent := ⟨rfl, rfl⟩
  place := .inl rfl
  children _ hpid hne := absurd (Finset.mem_singleton.mp hpid) hne
  accepted := Finset.Subset.refl _
  count := rfl

theorem place_ne (h : LifeInv w) (hpid : pid ∈ w.running) : (w.proc pid).place ≠ .closeSs := by
  intro hplace
  by_cases hzero : pid = 0
  · subst hzero
    rcases h.place with h | h | ⟨h, -⟩ <;> cases hplace.symm.trans h
  · obtain ⟨c, hc⟩ := h.children pid hpid hzero
    obtain ⟨conn, hconn⟩ := hc.place
    cases hplace.symm.trans hconn

theorem eq_zero_of_place (h : LifeInv w) (hpid : pid ∈ w.running) {place : Place}
    (hplace : (w.proc pid).place = place) (hne : ∀ conn, place ≠ .processConn conn) :
    pid = 0 := by
  by_contra hzero
  obtain ⟨c, hc⟩ := h.children pid hpid hzero
  obtain ⟨conn, hconn⟩ := hc.place
  exact hne conn (hplace.symm.trans hconn)

theorem ne_zero_of_place (h : LifeInv w) {conn : Conn}
    (hconn : (w.proc pid).place = .processConn conn) : pid ≠ 0 := by
  intro hzero
  subst hzero
  rcases h.place with h | h | ⟨h, -⟩ <;> cases hconn.symm.trans h

theorem lifeCycle (h : LifeInv w) : LifeCycle w where
  children pid hpid c hchild := by
    by_cases hzero : pid = 0
    · rw [hzero, h.parent.1] at hchild
      cases hchild
    · obtain ⟨c', hc⟩ := h.children pid hpid hzero
      obtain rfl : c' = c := Option.some.inj (hc.child.symm.trans hchild)
      exact .inl hc.toServes
  count := by
    rw [Finset.filter_true_of_mem fun pid hpid => h.place_ne hpid]
    exact h.count
  listening pid hpid hplace := by
    have hzero := h.eq_zero_of_place hpid hplace nofun
    rw [hzero]
    exact h.parent.2

/-- A step of the parent that creates no child. -/
theorem parent_step (h : LifeInv w) (hen : w.Enabled e) (hcaller : e.caller = 0)
    (hrunning : (w.step e).running = w.running) (hserved : (w.step e).served = w.served)
    (haccepted : w.accepted ⊆ (w.step e).accepted)
    (hparent : ((w.step e).proc 0).child = none ∧ ((w.step e).proc 0).ss = true)
    (hplace : ((w.step e).proc 0).place = .accept ∨ ((w.step e).proc 0).place = .closeSc ∨
      ((w.step e).proc 0).place = .fork ∧ ∃ c, ((w.step e).proc 0).sc = some c ∧
        c ∈ (w.step e).accepted ∧ c ∉ w.served) : LifeInv (w.step e) where
  running := by
    rw [hrunning]
    exact h.running
  parent := hparent
  place := by
    rw [hserved]
    exact hplace
  children pid hpid hne := by
    rw [hrunning] at hpid
    obtain ⟨c, hc⟩ := h.children pid hpid hne
    rw [Server.proc_step_of_ne hen hpid (by rw [hcaller]; exact hne.symm)]
    exact ⟨c, hc.mono (by rw [hserved])⟩
  accepted := by
    rw [hserved]
    exact h.accepted.trans haccepted
  count := by
    rw [hrunning, hserved]
    exact h.count

/-- A new child serves the connection that the parent has just accepted. -/
theorem fork (h : LifeInv w) {q : Pid} (hen : w.Enabled (.fork 0 (some q))) :
    LifeInv (w.step (.fork 0 (some q))) := by
  obtain ⟨-, hplace, hq⟩ := id hen
  have hzero : q ≠ 0 := fun hzero => hq (hzero ▸ h.running)
  obtain ⟨c, hsc, hc, hfresh⟩ : ∃ c, (w.proc 0).sc = some c ∧ c ∈ w.accepted ∧ c ∉ w.served := by
    rcases h.place with h | h | ⟨-, h⟩
    · cases hplace.symm.trans h
    · cases hplace.symm.trans h
    · exact h
  have hserved : (w.step (.fork 0 (some q))).served = insert c w.served := by
    simp [Server.step, Server.fork, hsc]
  have hparent : (w.step (.fork 0 (some q))).proc 0 = { w.proc 0 with place := .closeSc } := by
    simp [Server.step, Server.fork, Server.set, Function.update_of_ne hzero.symm]
  have hchild : (w.step (.fork 0 (some q))).proc q =
      { w.proc 0 with place := .processConn .start, child := some c } := by
    simp [Server.step, Server.fork, Server.proc_set, hsc]
  refine ⟨Finset.mem_insert_of_mem h.running, ?_, ?_, ?_, ?_, ?_⟩
  · rw [hparent]
    exact h.parent
  · rw [hparent]
    exact .inr (.inl rfl)
  · intro pid hpid hne
    rcases Finset.mem_insert.mp hpid with rfl | hpid
    · rw [hchild]
      refine ⟨c, ⟨⟨⟨_, rfl⟩, hsc, ?_⟩, rfl, ?_⟩⟩
      · rw [hserved]
        exact Finset.mem_insert_self _ _
      · intro conn hconn
        cases hconn
        rfl
    · obtain ⟨c', hc'⟩ := h.children pid hpid hne
      rw [Server.proc_step_of_ne hen hpid hne.symm]
      exact ⟨c', hc'.mono (by rw [hserved]; exact Finset.subset_insert _ _)⟩
  · rw [hserved]
    exact Finset.insert_subset hc h.accepted
  · rw [hserved, Finset.card_insert_of_notMem hfresh]
    exact (Finset.card_insert_of_notMem hq).trans (by rw [h.count]; omega)

theorem read (h : LifeInv w) {r : ReadResult} (hen : w.Enabled (.read pid r))
    (hclean : NoneEnds (.read pid r)) : LifeInv (w.step (.read pid r)) := by
  obtain ⟨hpid, conn, hconn⟩ := id hen
  have hzero := h.ne_zero_of_place hconn
  obtain ⟨c, hc⟩ := h.children pid hpid hzero
  have hgo : (conn.step r).returned = false :=
    Bool.eq_false_iff.mpr (mt (returned_step (hc.goes_on conn hconn) r).mp hclean.1)
  have hstep : w.step (.read pid r) =
      w.set pid { w.proc pid with place := .processConn (conn.step r) } := by
    simp [Server.step, hconn, Server.read, hgo, hclean.1, hclean.2]
    rfl
  have hparent : (w.step (.read pid r)).proc 0 = w.proc 0 :=
    Server.proc_step_of_ne hen h.running hzero
  refine ⟨?_, ?_, ?_, ?_, ?_, ?_⟩
  · rw [hstep]
    exact h.running
  · rw [hparent]
    exact h.parent
  · rw [hparent, hstep]
    exact h.place
  · intro q hq hne
    by_cases hpq : q = pid
    · subst hpq
      rw [hstep, Server.proc_set]
      refine ⟨c, ⟨⟨⟨_, rfl⟩, hc.sc, hc.served⟩, hc.child, fun conn' hconn' => ?_⟩⟩
      cases hconn'
      exact hgo
    · rw [hstep] at hq ⊢
      rw [Server.proc_set_of_ne w _ hpq]
      obtain ⟨c', hc'⟩ := h.children q hq hne
      exact ⟨c', hc'.mono (Finset.Subset.refl _)⟩
  · rw [hstep]
    exact h.accepted
  · rw [hstep]
    exact h.count

theorem step (h : LifeInv w) (hen : w.Enabled e) (hclean : NoneEnds e) :
    LifeInv (w.step e) := by
  cases e with
  | accept pid sc =>
    cases sc with
    | none =>
      obtain ⟨hpid, hplace⟩ := id hen
      obtain rfl := h.eq_zero_of_place hpid hplace nofun
      refine h.parent_step hen rfl rfl rfl (Finset.Subset.refl _) ?_ (.inl ?_)
      · simpa [Server.step, Server.proc_set] using h.parent
      · simpa [Server.step, Server.proc_set] using hplace
    | some c =>
      obtain ⟨hpid, hplace, -, hc⟩ := id hen
      obtain rfl := h.eq_zero_of_place hpid hplace nofun
      refine h.parent_step hen rfl rfl rfl (Finset.subset_insert _ _) ?_ (.inr (.inr ⟨?_, c, ?_⟩))
      · simpa [Server.step, Server.set] using h.parent
      · simp [Server.step, Server.set]
      · refine ⟨by simp [Server.step, Server.set], Finset.mem_insert_self _ _, ?_⟩
        exact fun hserved => hc (h.accepted hserved)
  | fork pid child =>
    cases child with
    | none =>
      obtain ⟨hpid, hplace⟩ := id hen
      obtain rfl := h.eq_zero_of_place hpid hplace nofun
      refine h.parent_step hen rfl rfl rfl (Finset.Subset.refl _) ?_ (.inr (.inl ?_))
      · simpa [Server.step, Server.proc_set] using h.parent
      · simp [Server.step, Server.proc_set]
    | some q =>
      obtain ⟨hpid, hplace, -⟩ := id hen
      obtain rfl := h.eq_zero_of_place hpid hplace nofun
      exact h.fork hen
  | read pid r => exact h.read hen hclean
  | closeSs pid => exact absurd hen.2 (h.place_ne hen.1)
  | closeSc pid =>
    obtain ⟨hpid, hplace⟩ := id hen
    obtain rfl := h.eq_zero_of_place hpid hplace nofun
    refine h.parent_step hen rfl rfl rfl (Finset.Subset.refl _) ?_ (.inl ?_)
    · simpa [Server.step, Server.proc_set] using h.parent
    · simp [Server.step, Server.proc_set]

/-- The child that reads the end of its connection, or an error, can do anything but
terminate. -/
theorem not_lifeCycle_step (h : LifeInv w) (hen : w.Enabled e) (hends : ¬ NoneEnds e) :
    ¬ LifeCycle (w.step e) := by
  cases e with
  | read pid r =>
    have hend : r = .endOfStream ∨ r = .error := by
      rw [NoneEnds, ← not_or, not_not] at hends
      exact hends
    obtain ⟨hpid, conn, hconn⟩ := hen
    obtain ⟨c, hc⟩ := h.children pid hpid (h.ne_zero_of_place hconn)
    have hserved : (w.step (.read pid r)).served = w.served.erase c := by
      simp only [Server.step, hconn, Server.read, if_pos hend, hc.sc, Option.elim_some]
    have hchild : ((w.step (.read pid r)).proc pid).child = some c := by
      simp only [Server.step, hconn, Server.read, Server.set, Function.update_self]
      exact hc.child
    have hrunning := w.running_step (.read pid r) hpid
    intro hcycle
    rcases hcycle.children pid hrunning c hchild with hserves | hleaves
    · have hmem := hserves.served
      rw [hserved] at hmem
      exact Finset.notMem_erase c _ hmem
    · exact not_canTerminate hrunning hleaves.2.2
  | _ => exact absurd trivial hends

end LifeInv

/-- The processes are as they should be in every state of a run exactly when no
connection ends on the process that serves it; and a process that has come out of
`process_conn_server` stays for ever in an `accept` that fails. -/
theorem lifeCycle_iff_noneEnds (es : List ServerEvent)
    (hadm : serverMachine.Admits Server.start es) :
    (serverMachine.Throughout LifeCycle Server.start es ↔ ∀ e ∈ es, NoneEnds e) ∧
      ∀ (w : Server) pid fs, pid ∈ w.running → serverMachine.Admits (w.step (.closeSs pid)) fs →
        serverMachine.Throughout (Spins pid) (w.step (.closeSs pid)) fs := by
  refine ⟨?_, fun w pid fs hpid hfs => spins_run (spins_closeSs hpid) hfs⟩
  rw [← Machine.along_event_iff (m := serverMachine) (s := Server.start)]
  exact Machine.throughout_iff_along (I := LifeInv) (fun _ h => h.lifeCycle)
    (fun _ _ h hen hclean => h.step hen hclean)
    (fun _ _ h hen hends => h.not_lifeCycle_step hen hends) LifeInv.start hadm

/-- Two connections, the second of which gets no process. -/
def twoConnections : List ServerEvent :=
  [.accept 0 (some 7), .fork 0 (some 1), .closeSc 0, .read 1 (.data [8, 30]), .accept 0 (some 8),
    .fork 0 none, .closeSc 0]

theorem admits_twoConnections : serverMachine.Admits Server.start twoConnections :=
  ⟨⟨by decide, rfl, rfl, by decide⟩, ⟨by decide, rfl, by decide⟩, ⟨by decide, rfl⟩,
    ⟨by decide, _, rfl⟩, ⟨by decide, rfl, rfl, by decide⟩, ⟨by decide, rfl⟩, ⟨by decide, rfl⟩,
    trivial⟩

theorem lifeCycle_two_connections :
    serverMachine.Throughout LifeCycle Server.start twoConnections :=
  (lifeCycle_iff_noneEnds twoConnections admits_twoConnections).1.mpr (by
    simp [twoConnections, NoneEnds])

/-- A connection that ends. -/
def oneEnds : List ServerEvent :=
  [.accept 0 (some 7), .fork 0 (some 1), .closeSc 0, .read 1 .endOfStream, .closeSs 1,
    .accept 1 none]

theorem not_lifeCycle_one_ends :
    serverMachine.Admits Server.start oneEnds ∧
      ¬ serverMachine.Throughout LifeCycle Server.start oneEnds := by
  refine ⟨⟨⟨by decide, rfl, rfl, by decide⟩, ⟨by decide, rfl, by decide⟩, ⟨by decide, rfl⟩,
    ⟨by decide, _, rfl⟩, ⟨by decide, rfl⟩, ⟨by decide, rfl⟩, trivial⟩, fun h => ?_⟩
  have hlistening := h.run.listening 1 (by decide) rfl
  cases hlistening

end TimeTools.Timer.TcpServer
