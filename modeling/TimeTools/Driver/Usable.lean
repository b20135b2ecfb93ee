import TimeTools.Driver.Board
import TimeTools.Driver.Ioctl
import TimeTools.Foundation.Run

/-!
# What a bound card is good for

A card for which `host_probe` returns 0 is bound: the core calls `host_remove` for
it, and the nodes of its slot can be opened.  Both use its `host_priv` and the
registers mapped in it without a check.  `host_probe` returns 0 also when `kmalloc`
fails and when the card has no base address, and a slot keeps its pointer when the
`host_priv` is freed.  Runs that meet none of these, and remove no card that is
open, are exactly those in which no access can fault (`usable_iff_keepsUsable`).
-/

namespace TimeTools.Driver

/-- The driver, and what `ioremap` of BAR 1 gave for each card. -/
structure DriverState extends Host where
  immrbar : PciDev → Addr

/-- Open files are told apart by their `private_data` only. -/
inductive DriverEvent
  | probe (pdev : PciDev) (inp : ProbeInput)
  | remove (pdev : PciDev)
  | openNode (minor : Minor)
  | closeNode (privateData : Addr)
  | ioctl (privateData : Addr) (cmd : Cmd)

namespace Host

/-- A read of the counter through `priv->m_immrbar`. -/
def readRegs (s : Host) (priv : Addr) : Host :=
  match s.heap priv with
  | none => { s with oops := true }
  | some p => if .mapping p.mImmrbar ∈ s.ledger.held then s else { s with oops := true }

/-- What `host_ioctl` does to the driver. -/
def ioctl (s : Host) (priv : Addr) : Cmd → Host
  | .hostGetPcieTime => s.readRegs priv
  | .hostGetLocalSystemTime => s
  | .hostGetOffset => s.readRegs priv
  | .other => s

end Host

namespace DriverEvent

def Enabled (s : DriverState) : DriverEvent → Prop
  | .probe pdev inp => s.Offers pdev inp
  | .remove pdev => pdev ∈ s.bound
  | .openNode _ => True
  | .closeNode privateData => privateData ∈ s.files
  | .ioctl privateData _ => privateData ∈ s.files

def step (s : DriverState) : DriverEvent → DriverState
  | .probe pdev inp =>
    { toHost := s.toHost.probe pdev inp
      immrbar := Function.update s.immrbar pdev inp.board.immrbar }
  | .remove pdev => { s with toHost := s.toHost.remove pdev }
  | .openNode minor => { s with toHost := (hostOpen s.toHost minor).1 }
  | .closeNode privateData => { s with files := s.files.erase privateData }
  | .ioctl privateData cmd => { s with toHost := s.toHost.ioctl privateData cmd }

end DriverEvent

def DriverState.start : DriverState := { Host.start with immrbar := fun _ => 0 }

def driverMachine : Machine DriverState DriverEvent where
  init := .start
  enabled := DriverEvent.Enabled
  step := DriverEvent.step

/-- The driver data of the card is its live `host_priv`, which has the mapping of its
BAR 1, and the card is enabled. -/
structure CardUsable (s : DriverState) (pdev : PciDev) : Prop where
  drvdata : s.drvdata pdev ≠ 0
  live : ∃ p, s.heap (s.drvdata pdev) = some p ∧ p.mImmrbar = s.immrbar pdev
  immrbar : s.immrbar pdev ≠ 0
  mapped : .mapping (s.immrbar pdev) ∈ s.ledger.held
  enabled : .enabledDevice pdev ∈ s.ledger.held

/-- Every bound card is usable, an ioctl on any open file would find its registers,
and nothing has faulted. -/
structure Usable (s : DriverState) : Prop where
  cards : ∀ pdev ∈ s.bound, CardUsable s pdev
  files : ∀ a ∈ s.files, ∃ p, s.heap a = some p ∧ .mapping p.mImmrbar ∈ s.ledger.held
  oops : s.oops = false

/-- A probe that finds a slot gets its memory and does not enable a card without base
address, no card is removed that has an open file, and no node is opened whose slot
has a freed `host_priv`. -/
def KeepsUsable (s : DriverState) : DriverEvent → Prop
  | .probe _ inp => (∃ i, s.priv i = 0) →
    inp.kmalloc ≠ 0 ∧ (inp.board.pciEnableDevice = 0 → inp.board.bar1 ≠ 0)
  | .remove pdev => s.drvdata pdev ∉ s.files
  | .openNode minor => s.priv minor ≠ 0 → (s.heap (s.priv minor)).isSome
  | .closeNode _ => True
  | .ioctl _ _ => True

/-- The resources that `host_board_init` neither acquires nor releases stay as they are. -/
theorem held_hostBoardInit {m : Mem} {priv : Addr} {pdev : PciDev} {minor : Minor}
    {inp : BoardInput} {r : Resource} (hdevice : r ≠ .enabledDevice pdev)
    (hregions : r ≠ .regions pdev) (hold : r ≠ .mapping (m.mImmrbar priv))
    (himmrbar : r ≠ .mapping inp.immrbar) (hshm : r ≠ .mapping inp.shm)
    (hnode : r ≠ .deviceNode minor) :
    r ∈ (hostBoardInit m priv pdev minor inp).1.ledger.held ↔ r ∈ m.ledger.held := by
  rw [hostBoardInit]
  split_ifs <;>
    simp_all [errToIounmapImmrbar, errToPciReleaseRegions, errToPciDisableDevice, Mem.mImmrbar]

theorem CardUsable.of_eq {s s' : DriverState} {pdev : PciDev} (h : CardUsable s pdev)
    (hdrvdata : s'.drvdata pdev = s.drvdata pdev) (himmrbar : s'.immrbar pdev = s.immrbar pdev)
    (hheap : s'.heap (s.drvdata pdev) = s.heap (s.drvdata pdev))
    (hheld : .mapping (s.immrbar pdev) ∈ s'.ledger.held ∧
      .enabledDevice pdev ∈ s'.ledger.held) : CardUsable s' pdev := by
  refine ⟨?_, ?_, ?_, ?_, hheld.2⟩
  · rw [hdrvdata]
    exact h.drvdata
  · rw [hdrvdata, hheap, himmrbar]
    exact h.live
  · rw [himmrbar]
    exact h.immrbar
  · rw [himmrbar]
    exact hheld.1

/-- A new key with a new value keeps the values apart. -/
theorem update_inj {ι α : Type} [DecidableEq ι] {f : ι → α} {B : Finset ι} {k : ι} {x : α}
    (hf : ∀ i ∈ B, ∀ j ∈ B, f i = f j → i = j) (hk : k ∉ B) (hx : ∀ i ∈ B, f i ≠ x) :
    ∀ i ∈ insert k B, ∀ j ∈ insert k B, Function.update f k x i = Function.update f k x j →
      i = j := by
  have hold : ∀ i ∈ B, Function.update f k x i = f i := by
    intro i hi
    exact Function.update_of_ne (fun h : i = k => hk (h ▸ hi)) _ _
  intro i hi j hj heq
  rcases Finset.mem_insert.mp hi with rfl | hi' <;> rcases Finset.mem_insert.mp hj with rfl | hj'
  · rfl
  · rw [Function.update_self, hold j hj'] at heq
    exact absurd heq.symm (hx j hj')
  · rw [Function.update_self, hold i hi'] at heq
    exact absurd heq (hx i hi')
  · rw [hold i hi', hold j hj'] at heq
    exact hf i hi' j hj' heq

/-- Cards share neither their `host_priv` nor their mapping, every live `host_priv` is
that of a bound card, and a card that is not bound has no driver data. -/
structure UsableInv (s : DriverState) : Prop where
  null : s.heap 0 = none
  cards : ∀ pdev ∈ s.bound, CardUsable s pdev
  owner : ∀ a p, s.heap a = some p → ∃ pdev ∈ s.bound, s.drvdata pdev = a
  drvdata_inj : ∀ pdev ∈ s.bound, ∀ pdev' ∈ s.bound, s.drvdata pdev = s.drvdata pdev' →
    pdev = pdev'
  immrbar_inj : ∀ pdev ∈ s.bound, ∀ pdev' ∈ s.bound, s.immrbar pdev = s.immrbar pdev' →
    pdev = pdev'
  unbound : ∀ pdev, pdev ∉ s.bound → s.drvdata pdev = 0
  files : ∀ a ∈ s.files, (s.heap a).isSome
  oops : s.oops = false

namespace UsableInv

variable {s : DriverState} {pdev : PciDev} {inp : ProbeInput}

theorem start : UsableInv DriverState.start where
  null := rfl
  cards _ hb := absurd hb (Finset.notMem_empty _)
  owner _ _ hp := nomatch hp
  drvdata_inj _ hb := absurd hb (Finset.notMem_empty _)
  immrbar_inj _ hb := absurd hb (Finset.notMem_empty _)
  unbound _ _ := rfl
  files _ ha := nomatch ha
  oops := rfl

theorem mapped_of_live (h : UsableInv s) {a : Addr} {p : HostPriv} (hp : s.heap a = some p) :
    .mapping p.mImmrbar ∈ s.ledger.held := by
  obtain ⟨pdev, hb, rfl⟩ := h.owner a p hp
  obtain ⟨-, ⟨q, hq, himmrbar⟩, -, hmapped, -⟩ := h.cards pdev hb
  obtain rfl : p = q := Option.some.inj (hp.symm.trans hq)
  rwa [himmrbar]

theorem usable (h : UsableInv s) : Usable s where
  cards := h.cards
  files a ha := by
    obtain ⟨p, hp⟩ := Option.isSome_iff_exists.mp (h.files a ha)
    exact ⟨p, hp, h.mapped_of_live hp⟩
  oops := h.oops

/-- A step that takes nothing from the bound cards and changes no `host_priv`. -/
theorem frame (h : UsableInv s) {s' : DriverState} (hheap : s'.heap = s.heap)
    (hbound : s'.bound = s.bound) (hdrvdata : s'.drvdata = s.drvdata)
    (himmrbar : ∀ pdev ∈ s.bound, s'.immrbar pdev = s.immrbar pdev)
    (hheld : ∀ pdev ∈ s.bound, .mapping (s.immrbar pdev) ∈ s'.ledger.held ∧
      .enabledDevice pdev ∈ s'.ledger.held)
    (hfiles : ∀ a ∈ s'.files, (s.heap a).isSome) (hoops : s'.oops = s.oops) : UsableInv s' where
  null := by rw [hheap, h.null]
  cards pdev hb := by
    rw [hbound] at hb
    exact (h.cards pdev hb).of_eq (by rw [hdrvdata]) (himmrbar pdev hb) (by rw [hheap])
      (hheld pdev hb)
  owner a p hp := by
    rw [hheap] at hp
    rw [hbound, hdrvdata]
    exact h.owner a p hp
  drvdata_inj := by
    rw [hbound, hdrvdata]
    exact h.drvdata_inj
  immrbar_inj pdev hb pdev' hb' heq := by
    rw [hbound] at hb hb'
    rw [himmrbar pdev hb, himmrbar pdev' hb'] at heq
    exact h.immrbar_inj pdev hb pdev' hb' heq
  unbound := by
    rw [hbound, hdrvdata]
    exact h.unbound
  files := by
    rw [hheap]
    exact hfiles
  oops := hoops.trans h.oops

theorem bound_ne_of_offers (hoffer : s.Offers pdev inp) {pdev' : PciDev} (hb : pdev' ∈ s.bound) :
    pdev' ≠ pdev := fun hp => hoffer.unbound (hp ▸ hb)

theorem drvdata_ne_of_offers (h : UsableInv s) (hoffer : s.Offers pdev inp) {pdev' : PciDev}
    (hb : pdev' ∈ s.bound) : s.drvdata pdev' ≠ inp.kmalloc := by
  intro hk
  obtain ⟨p, hp, -⟩ := (h.cards pdev' hb).live
  rw [hk, hoffer.kmalloc] at hp
  cases hp

/-- Whatever a probe does on its way, it leaves the resources of the bound cards. -/
theorem held_of_probe (h : UsableInv s) (hoffer : s.Offers pdev inp) (i : Minor)
    {pdev' : PciDev} (hb : pdev' ∈ s.bound) :
    let held := (hostBoardInit (s.allocated inp.kmalloc) inp.kmalloc pdev i
      inp.board).1.ledger.held
    .mapping (s.immrbar pdev') ∈ held ∧ .enabledDevice pdev' ∈ held := by
  obtain ⟨-, -, hne, hmapped, henabled⟩ := h.cards pdev' hb
  have hpdev := bound_ne_of_offers hoffer hb
  have hzero : (s.allocated inp.kmalloc).mImmrbar inp.kmalloc = 0 := by
    simp [Mem.mImmrbar, Host.allocated, HostPriv.zero]
  have himmrbar : s.immrbar pdev' ≠ inp.board.immrbar := fun heq => hoffer.immrbar (heq ▸ hmapped)
  have hshm : s.immrbar pdev' ≠ inp.board.shm := fun heq => hoffer.shm (heq ▸ hmapped)
  constructor
  · rw [held_hostBoardInit (by simp) (by simp) (by simpa [hzero] using hne)
      (by simpa using himmrbar) (by simpa using hshm) (by simp)]
    simp [Host.allocated, hmapped]
  · rw [held_hostBoardInit (by simpa using hpdev) (by simp) (by simp) (by simp) (by simp)
      (by simp)]
    simp [Host.allocated, henabled]

theorem probe_fails (h : UsableInv s) (hoffer : s.Offers pdev inp) {i : Minor}
    (hfree : freeSlot s.priv = some i) (hk : inp.kmalloc ≠ 0)
    (hret : (hostBoardInit (s.allocated inp.kmalloc) inp.kmalloc pdev i inp.board).2 ≠ 0) :
    UsableInv (DriverEvent.step s (.probe pdev inp)) := by
  rw [DriverEvent.step, Host.probe_of_init_fails hfree hk rfl hret]
  refine h.frame ?_ rfl ?_ ?_ ?_ h.files rfl
  · funext a
    show Function.update (hostBoardInit (s.allocated inp.kmalloc) inp.kmalloc pdev i
      inp.board).1.heap inp.kmalloc none a = s.heap a
    by_cases ha : a = inp.kmalloc
    · rw [ha, Function.update_self, hoffer.kmalloc]
    · rw [Function.update_of_ne ha, hostBoardInit_heap ha]
      exact Function.update_of_ne ha _ _
  · show Function.update s.drvdata pdev 0 = s.drvdata
    rw [← h.unbound pdev hoffer.unbound, Function.update_eq_self]
  · intro pdev' hb
    exact Function.update_of_ne (bound_ne_of_offers hoffer hb) _ _
  · intro pdev' hb
    obtain ⟨hmapped, henabled⟩ := h.held_of_probe hoffer i hb
    constructor
    · exact (Ledger.mem_release _).mpr ⟨by simp, hmapped⟩
    · exact (Ledger.mem_release _).mpr ⟨by simp, henabled⟩

theorem probe_completes (h : UsableInv s) (hoffer : s.Offers pdev inp) {i : Minor}
    (hfree : freeSlot s.priv = some i) (hk : inp.kmalloc ≠ 0) (hinit : inp.board.Completes) :
    UsableInv (DriverEvent.step s (.probe pdev inp)) := by
  rw [DriverEvent.step, Host.probe_of_completes hfree hk hinit]
  have hold : ∀ pdev' ∈ s.bound,
      Function.update s.drvdata pdev inp.kmalloc pdev' = s.drvdata pdev' ∧
      Function.update s.immrbar pdev inp.board.immrbar pdev' = s.immrbar pdev' ∧
      Function.update s.heap inp.kmalloc (some (inp.board.hostPriv i)) (s.drvdata pdev') =
        s.heap (s.drvdata pdev') := by
    intro pdev' hb
    have hne := bound_ne_of_offers hoffer hb
    exact ⟨Function.update_of_ne hne _ _, Function.update_of_ne hne _ _,
      Function.update_of_ne (h.drvdata_ne_of_offers hoffer hb) _ _⟩
  have hfresh : ∀ pdev' ∈ s.bound, s.immrbar pdev' ≠ inp.board.immrbar :=
    fun pdev' hb heq => hoffer.immrbar (heq ▸ (h.cards pdev' hb).mapped)
  refine ⟨?_, ?_, ?_, ?_, ?_, ?_, ?_, h.oops⟩
  · exact (Function.update_of_ne hk.symm _ _).trans h.null
  · intro pdev' hb
    rcases Finset.mem_insert.mp hb with rfl | hb
    · refine ⟨?_, ⟨inp.board.hostPriv i, ?_, ?_⟩, ?_, ?_, ?_⟩ <;>
        simp [hk, hinit.immrbar, BoardInput.hostPriv]
    · obtain ⟨hdrv, himm, hheap⟩ := hold pdev' hb
      have husable := h.cards pdev' hb
      exact husable.of_eq hdrv himm hheap
        ⟨by simp [husable.mapped], by simp [husable.enabled]⟩
  · intro a p hp
    change Function.update s.heap inp.kmalloc (some (inp.board.hostPriv i)) a = some p at hp
    by_cases ha : a = inp.kmalloc
    · exact ⟨pdev, Finset.mem_insert_self _ _, by simp [ha]⟩
    · rw [Function.update_of_ne ha] at hp
      obtain ⟨pdev', hb, hdrv⟩ := h.owner a p hp
      exact ⟨pdev', Finset.mem_insert_of_mem hb, (hold pdev' hb).1.trans hdrv⟩
  · exact update_inj h.drvdata_inj hoffer.unbound fun _ hb => h.drvdata_ne_of_offers hoffer hb
  · exact update_inj h.immrbar_inj hoffer.unbound hfresh
  · intro pdev' hb
    obtain ⟨hne, hb⟩ := not_or.mp (mt Finset.mem_insert.mpr hb)
    exact (Function.update_of_ne hne _ _).trans (h.unbound pdev' hb)
  · intro a ha
    show (Function.update s.heap inp.kmalloc (some (inp.board.hostPriv i)) a).isSome
    by_cases hk : a = inp.kmalloc
    · rw [hk, Function.update_self, Option.isSome_some]
    · rw [Function.update_of_ne hk]
      exact h.files a ha

theorem probe (h : UsableInv s) (hoffer : s.Offers pdev inp)
    (hkeep : KeepsUsable s (.probe pdev inp)) :
    UsableInv (DriverEvent.step s (.probe pdev inp)) := by
  cases hfree : freeSlot s.priv with
  | none =>
    rw [DriverEvent.step, Host.probe_of_full hfree]
    exact h.frame rfl rfl rfl
      (fun _ hb => Function.update_of_ne (bound_ne_of_offers hoffer hb) _ _)
      (fun pdev' hb => ⟨(h.cards pdev' hb).mapped, (h.cards pdev' hb).enabled⟩) h.files rfl
  | some i =>
    obtain ⟨hk, hbar⟩ := hkeep ⟨i, priv_of_freeSlot hfree⟩
    by_cases hcompletes : inp.board.Completes
    · exact h.probe_completes hoffer hfree hk hcompletes
    · refine h.probe_fails hoffer hfree hk fun hret => ?_
      obtain ⟨henable, hret⟩ := hostBoardInit_eq_zero_iff.mp hret
      exact hret.elim (hbar henable) hcompletes

/-- A removal releases what its own card has and nothing of the others. -/
theorem held_of_remove (h : UsableInv s) (hb : pdev ∈ s.bound) {pdev' : PciDev}
    (hb' : pdev' ∈ s.bound.erase pdev) :
    .mapping (s.immrbar pdev') ∈ (s.toHost.remove pdev).ledger.held ∧
      .enabledDevice pdev' ∈ (s.toHost.remove pdev).ledger.held := by
  obtain ⟨p, hp, himm⟩ := (h.cards pdev hb).live
  obtain ⟨hne, hb'⟩ := Finset.mem_erase.mp hb'
  have himmrbar : s.immrbar pdev' ≠ p.mImmrbar :=
    fun heq => hne (h.immrbar_inj _ hb' _ hb (heq.trans himm))
  rw [Host.remove_of_live hp]
  exact ⟨by simp [himmrbar, (h.cards pdev' hb').mapped], by simp [hne, (h.cards pdev' hb').enabled]⟩

theorem remove (h : UsableInv s) (hb : pdev ∈ s.bound)
    (hkeep : KeepsUsable s (.remove pdev)) : UsableInv (DriverEvent.step s (.remove pdev)) := by
  obtain ⟨p, hp, -⟩ := (h.cards pdev hb).live
  have hold : ∀ pdev' ∈ s.bound.erase pdev,
      Function.update s.drvdata pdev 0 pdev' = s.drvdata pdev' ∧
      Function.update s.heap (s.drvdata pdev) none (s.drvdata pdev') =
        s.heap (s.drvdata pdev') := by
    intro pdev' hb'
    obtain ⟨hne, hb'⟩ := Finset.mem_erase.mp hb'
    exact ⟨Function.update_of_ne hne _ _,
      Function.update_of_ne (fun heq => hne (h.drvdata_inj _ hb' _ hb heq)) _ _⟩
  have hheld := fun pdev' (hb' : pdev' ∈ s.bound.erase pdev) => h.held_of_remove hb hb'
  have hheap : (s.toHost.remove pdev).heap = Function.update s.heap (s.drvdata pdev) none := by
    rw [Host.remove_of_live hp]
  have hdrvdata : (s.toHost.remove pdev).drvdata = Function.update s.drvdata pdev 0 := by
    rw [Host.remove_of_live hp]
  have hbound : (s.toHost.remove pdev).bound = s.bound.erase pdev := by
    rw [Host.remove_of_live hp]
  have hfiles : (s.toHost.remove pdev).files = s.files := by
    rw [Host.remove_of_live hp]
  have hoops : (s.toHost.remove pdev).oops = s.oops := by
    rw [Host.remove_of_live hp]
  rw [DriverEvent.step]
  generalize s.toHost.remove pdev = s' at *
  refine ⟨?_, ?_, ?_, ?_, ?_, ?_, ?_, hoops.trans h.oops⟩ <;>
    simp only [hheap, hdrvdata, hbound, hfiles]
  · rw [Function.update_of_ne (h.cards pdev hb).drvdata.symm, h.null]
  · intro pdev' hb'
    obtain ⟨hdrv, hlive⟩ := hold pdev' hb'
    exact (h.cards pdev' (Finset.mem_of_mem_erase hb')).of_eq (by rw [hdrvdata, hdrv]) rfl
      (by rw [hheap, hlive]) (hheld pdev' hb')
  · intro a q hq
    have ha : a ≠ s.drvdata pdev := by
      intro ha
      rw [ha, Function.update_self] at hq
      cases hq
    rw [Function.update_of_ne ha] at hq
    obtain ⟨pdev', hb', rfl⟩ := h.owner a q hq
    have hne : pdev' ≠ pdev := fun heq => ha (heq ▸ rfl)
    have herase := Finset.mem_erase.mpr ⟨hne, hb'⟩
    exact ⟨pdev', herase, (hold pdev' herase).1⟩
  · intro i hi j hj heq
    rw [(hold i hi).1, (hold j hj).1] at heq
    exact h.drvdata_inj i (Finset.mem_of_mem_erase hi) j (Finset.mem_of_mem_erase hj) heq
  · intro i hi j hj heq
    exact h.immrbar_inj i (Finset.mem_of_mem_erase hi) j (Finset.mem_of_mem_erase hj) heq
  · intro pdev' hb'
    by_cases hne : pdev' = pdev
    · rw [hne, Function.update_self]
    · rw [Function.update_of_ne hne]
      exact h.unbound pdev' fun hmem => hb' (Finset.mem_erase.mpr ⟨hne, hmem⟩)
  · intro a ha
    rw [Function.update_of_ne fun heq : a = s.drvdata pdev => hkeep (heq ▸ ha)]
    exact h.files a ha

theorem readRegs_eq (h : UsableInv s) {a : Addr} (ha : a ∈ s.files) : s.readRegs a = s.toHost := by
  obtain ⟨p, hp⟩ := Option.isSome_iff_exists.mp (h.files a ha)
  simp only [Host.readRegs, hp, h.mapped_of_live hp, if_true]

theorem step (h : UsableInv s) {e : DriverEvent} (hen : e.Enabled s) (hkeep : KeepsUsable s e) :
    UsableInv (DriverEvent.step s e) := by
  have hheld : ∀ pdev ∈ s.bound, .mapping (s.immrbar pdev) ∈ s.ledger.held ∧
      .enabledDevice pdev ∈ s.ledger.held :=
    fun pdev hb => ⟨(h.cards pdev hb).mapped, (h.cards pdev hb).enabled⟩
  cases e with
  | probe pdev inp => exact h.probe hen hkeep
  | remove pdev => exact h.remove hen hkeep
  | openNode minor =>
    rw [DriverEvent.step, hostOpen]
    split
    · exact h
    · rename_i hslot
      refine h.frame rfl rfl rfl (fun _ _ => rfl) hheld (fun a ha => ?_) rfl
      rcases List.mem_append.mp ha with ha | ha
      · exact h.files a ha
      · rw [List.mem_singleton.mp ha]
        exact hkeep hslot
  | closeNode privateData =>
    exact h.frame rfl rfl rfl (fun _ _ => rfl) hheld
      (fun a ha => h.files a (List.mem_of_mem_erase ha)) rfl
  | ioctl privateData cmd =>
    have hsame : s.toHost.ioctl privateData cmd = s.toHost := by
      cases cmd <;> first | exact h.readRegs_eq hen | rfl
    rw [DriverEvent.step, hsame]
    exact h

/-! ## Steps that are not clean -/

theorem not_usable_probe (h : UsableInv s) (hoffer : s.Offers pdev inp)
    (hkeep : ¬ KeepsUsable s (.probe pdev inp)) :
    ¬ Usable (DriverEvent.step s (.probe pdev inp)) := by
  rw [KeepsUsable, Classical.not_imp] at hkeep
  obtain ⟨⟨j, hj⟩, hfail⟩ := hkeep
  cases hfree : freeSlot s.priv with
  | none => exact absurd hj (freeSlot_eq_none_iff.mp hfree j)
  | some i =>
    intro husable
    by_cases hk : inp.kmalloc = 0
    · rw [DriverEvent.step, Host.probe_of_kmalloc_fails hfree hk] at husable
      have hcard := husable.cards pdev (Finset.mem_insert_self _ _)
      exact hcard.drvdata (h.unbound pdev hoffer.unbound)
    · have hboth : inp.board.pciEnableDevice = 0 ∧ inp.board.bar1 = 0 := by
        by_contra hboth
        exact hfail ⟨hk, fun henable hbar => hboth ⟨henable, hbar⟩⟩
      have hinit := @hostBoardInit_of_no_bar (s.allocated inp.kmalloc) inp.kmalloc pdev i
        inp.board hboth.1 hboth.2
      rw [DriverEvent.step, Host.probe_of_init_succeeds hfree hk hinit] at husable
      have hcard := husable.cards pdev (Finset.mem_insert_self _ _)
      obtain ⟨p, hp, himmrbar⟩ := hcard.live
      have hzero : { HostPriv.zero with minor := i } = p := by
        simpa [Host.allocated, Mem.write] using hp
      rw [← hzero] at himmrbar
      exact hcard.immrbar himmrbar.symm

theorem not_usable_step (h : UsableInv s) {e : DriverEvent} (hen : e.Enabled s)
    (hkeep : ¬ KeepsUsable s e) : ¬ Usable (DriverEvent.step s e) := by
  cases e with
  | probe pdev inp => exact h.not_usable_probe hen hkeep
  | remove pdev =>
    rw [KeepsUsable, not_not] at hkeep
    obtain ⟨p, hp, -⟩ := (h.cards pdev hen).live
    intro husable
    rw [DriverEvent.step, Host.remove_of_live hp] at husable
    obtain ⟨q, hq, -⟩ := husable.files (s.drvdata pdev) hkeep
    change Function.update s.heap (s.drvdata pdev) none (s.drvdata pdev) = some q at hq
    rw [Function.update_self] at hq
    cases hq
  | openNode minor =>
    rw [KeepsUsable, Classical.not_imp] at hkeep
    obtain ⟨hslot, hdead⟩ := hkeep
    intro husable
    rw [DriverEvent.step, hostOpen, if_neg hslot] at husable
    obtain ⟨q, hq, -⟩ := husable.files (s.priv minor) (by simp)
    change s.heap (s.priv minor) = some q at hq
    exact hdead (Option.isSome_iff_exists.mpr ⟨q, hq⟩)
  | closeNode privateData => exact absurd trivial hkeep
  | ioctl privateData cmd => exact absurd trivial hkeep

end UsableInv

/-- In every state of a run each bound card is usable and no access can fault exactly
when every step keeps it so. -/
theorem usable_iff_keepsUsable (es : List DriverEvent)
    (hadm : driverMachine.Admits DriverState.start es) :
    driverMachine.Throughout Usable DriverState.start es ↔
      driverMachine.Along KeepsUsable DriverState.start es :=
  Machine.throughout_iff_along (I := UsableInv) (fun _ h => h.usable)
    (fun _ _ h hen hkeep => h.step hen hkeep)
    (fun _ _ h hen hkeep => h.not_usable_step hen hkeep)
    UsableInv.start hadm

def useCard : List DriverEvent :=
  [.probe 0 goodProbe, .openNode ⟨0, by decide⟩, .ioctl 64 .hostGetOffset, .closeNode 64, .remove 0]

theorem offers_goodProbe : DriverState.start.Offers 0 goodProbe :=
  ⟨by decide, rfl, by decide, by decide, by decide, by decide, by decide⟩

theorem usable_one_card : driverMachine.Throughout Usable DriverState.start useCard :=
  (usable_iff_keepsUsable useCard
    ⟨offers_goodProbe, trivial, List.mem_singleton.mpr rfl, List.mem_singleton.mpr rfl,
      Finset.mem_singleton.mpr rfl, trivial⟩).mpr
    ⟨fun _ => ⟨by decide, fun _ => by decide⟩, fun _ => rfl, trivial, trivial, List.not_mem_nil,
      trivial⟩

/-- A probe whose `kmalloc` fails, and the removal of its card. -/
def withoutMemory : List DriverEvent := [.probe 0 { goodProbe with kmalloc := 0 }, .remove 0]

/-- A probe of a card without base address, and an ioctl on its node. -/
def withoutBar : List DriverEvent :=
  [.probe 0 { goodProbe with board.bar1 := 0 }, .openNode ⟨0, by decide⟩, .ioctl 64 .hostGetOffset]

theorem not_usable_of_oops {s : DriverState} {es : List DriverEvent}
    (h : (driverMachine.run s es).oops = true) : ¬ driverMachine.Throughout Usable s es := by
  intro husable
  cases h.symm.trans husable.run.oops

theorem not_usable_unchecked :
    (driverMachine.Admits DriverState.start withoutMemory ∧
      ¬ driverMachine.Throughout Usable DriverState.start withoutMemory) ∧
    (driverMachine.Admits DriverState.start withoutBar ∧
      ¬ driverMachine.Throughout Usable DriverState.start withoutBar) := by
  refine ⟨⟨⟨?_, Finset.mem_singleton.mpr rfl, trivial⟩, not_usable_of_oops (by decide)⟩,
    ⟨⟨?_, trivial, List.mem_singleton.mpr rfl, trivial⟩, not_usable_of_oops (by decide)⟩⟩
  · exact ⟨by decide, rfl, by decide, by decide, by decide, by decide, by decide⟩
  · exact ⟨by decide, rfl, by decide, by decide, by decide, by decide, by decide⟩

end TimeTools.Driver
