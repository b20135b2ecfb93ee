import Mathlib.Data.List.FinRange
import TimeTools.Foundation.Ledger

/-!
# Probing and removing a card

`host_probe`, `host_board_init`, `host_remove` and `host_open`, with the kernel
objects they acquire and release in a ledger.  What a kernel call returns is an
input: a return value, or the address that `kmalloc` or `ioremap` yields, which is
0 when the call fails.  `device_create` is taken to succeed, since its result is
not looked at.

`host_board_init` works on memory and on the ledger alone, so these two make a
state of their own.
-/

namespace TimeTools.Driver

abbrev maxPtpPci : Nat := 8

def immrbarSize : UInt32 := 0x100000

def ioresourceMem : UInt32 := 0x200

def ebusy : Int := 16
def enodev : Int := 19
def eio : Int := 5

abbrev Addr := Nat

abbrev Minor := Fin maxPtpPci

abbrev PciDev := Nat

structure HostPriv where
  mImmrbar : Addr
  shmMem : Addr
  mImmrbarPhyAddr : UInt32
  minor : Minor
  deriving DecidableEq, Repr

def HostPriv.zero : HostPriv := { mImmrbar := 0, shmMem := 0, mImmrbarPhyAddr := 0, minor := 0 }

inductive Resource
  | enabledDevice (pdev : PciDev)
  | regions (pdev : PciDev)
  | mapping (addr : Addr)
  | hostPriv (addr : Addr)
  | deviceNode (minor : Minor)
  | ptpPciClass
  | pciDriver
  | chrdevRegion
  deriving DecidableEq, Repr

/-- The `host_priv` objects that are allocated, and the resources held. -/
structure Mem where
  heap : Addr → Option HostPriv
  ledger : Ledger Resource

namespace Mem

def acquire (m : Mem) (r : Resource) : Mem := { m with ledger := m.ledger.acquire r }

def release (m : Mem) (r : Resource) : Mem := { m with ledger := m.ledger.release r }

def write (m : Mem) (a : Addr) (p : HostPriv) : Mem :=
  { m with heap := Function.update m.heap a (some p) }

def kfree (m : Mem) (a : Addr) : Mem :=
  { heap := Function.update m.heap a none, ledger := m.ledger.release (.hostPriv a) }

def mImmrbar (m : Mem) (a : Addr) : Addr := ((m.heap a).getD .zero).mImmrbar

@[simp] theorem heap_acquire (m : Mem) (r : Resource) : (m.acquire r).heap = m.heap := rfl

@[simp] theorem heap_release (m : Mem) (r : Resource) : (m.release r).heap = m.heap := rfl

@[simp] theorem heap_write (m : Mem) (a : Addr) (p : HostPriv) :
    (m.write a p).heap = Function.update m.heap a (some p) := rfl

@[simp] theorem ledger_acquire (m : Mem) (r : Resource) :
    (m.acquire r).ledger = m.ledger.acquire r := rfl

@[simp] theorem ledger_release (m : Mem) (r : Resource) :
    (m.release r).ledger = m.ledger.release r := rfl

@[simp] theorem ledger_write (m : Mem) (a : Addr) (p : HostPriv) :
    (m.write a p).ledger = m.ledger := rfl

end Mem

/-! ## `host_board_init` -/

/-- What the calls of `host_board_init` return: the base register in configuration
space, the resource behind it, and the outcome of each call that can fail. -/
structure BoardInput where
  pciEnableDevice : Int
  bar1 : UInt32
  start : UInt32
  len : UInt32
  flags : UInt32
  pciRequestRegions : Int
  immrbar : Addr
  shm : Addr
  deriving DecidableEq, Repr

namespace BoardInput

def IsMem (inp : BoardInput) : Prop := inp.flags &&& ioresourceMem ≠ 0

instance (inp : BoardInput) : Decidable inp.IsMem := inferInstanceAs (Decidable (_ ≠ _))

end BoardInput

def errToPciDisableDevice (m : Mem) (pdev : PciDev) : Mem := m.release (.enabledDevice pdev)

def errToPciReleaseRegions (m : Mem) (pdev : PciDev) : Mem :=
  errToPciDisableDevice (m.release (.regions pdev)) pdev

def errToIounmapImmrbar (m : Mem) (priv : Addr) (pdev : PciDev) : Mem :=
  errToPciReleaseRegions (m.release (.mapping (m.mImmrbar priv))) pdev

/-- `priv` is the driver data of `pdev`.  A card without a base address leaves with
the `retval` of the call before it. -/
def hostBoardInit (m : Mem) (priv : Addr) (pdev : PciDev) (minor : Minor) (inp : BoardInput) :
    Mem × Int :=
  if inp.pciEnableDevice ≠ 0 then (m, inp.pciEnableDevice)
  else
    let m := m.acquire (.enabledDevice pdev)
    if inp.bar1 = 0 then (errToPciDisableDevice m pdev, inp.pciEnableDevice)
    else if ¬ inp.IsMem then (errToIounmapImmrbar m priv pdev, -enodev)
    else if inp.len < immrbarSize then (errToPciDisableDevice m pdev, -enodev)
    else if inp.pciRequestRegions ≠ 0 then (errToPciDisableDevice m pdev, -enodev)
    else
      let m := m.acquire (.regions pdev)
      if inp.immrbar = 0 then (errToPciReleaseRegions m pdev, -eio)
      else
        let m := m.acquire (.mapping inp.immrbar)
        let p := { HostPriv.zero with mImmrbar := inp.immrbar, mImmrbarPhyAddr := inp.start }
        let m := m.write priv p
        if ¬ inp.IsMem then (errToIounmapImmrbar m priv pdev, -enodev)
        else if inp.shm = 0 then (errToIounmapImmrbar m priv pdev, -eio)
        else
          let m := m.acquire (.mapping inp.shm)
          let m := m.write priv { p with shmMem := inp.shm, minor := minor }
          (m.acquire (.deviceNode minor), 0)

/-! ## What `host_board_init` does -/

namespace BoardInput

def hostPriv (inp : BoardInput) (minor : Minor) : HostPriv :=
  { mImmrbar := inp.immrbar, shmMem := inp.shm, mImmrbarPhyAddr := inp.start, minor := minor }

structure Completes (inp : BoardInput) : Prop where
  enable : inp.pciEnableDevice = 0
  bar : inp.bar1 ≠ 0
  mem : inp.IsMem
  len : immrbarSize ≤ inp.len
  regions : inp.pciRequestRegions = 0
  immrbar : inp.immrbar ≠ 0
  shm : inp.shm ≠ 0

end BoardInput

section Init

variable {m : Mem} {priv : Addr} {pdev : PciDev} {minor : Minor} {inp : BoardInput}

theorem hostBoardInit_of_enable_fails (h : inp.pciEnableDevice ≠ 0) :
    hostBoardInit m priv pdev minor inp = (m, inp.pciEnableDevice) := by
  rw [hostBoardInit, if_pos h]

theorem hostBoardInit_of_no_bar (henable : inp.pciEnableDevice = 0) (hbar : inp.bar1 = 0) :
    hostBoardInit m priv pdev minor inp =
      ((m.acquire (.enabledDevice pdev)).release (.enabledDevice pdev), 0) := by
  rw [hostBoardInit, if_neg (not_not_intro henable), if_pos hbar, errToPciDisableDevice, henable]

theorem hostBoardInit_of_not_mem (henable : inp.pciEnableDevice = 0) (hbar : inp.bar1 ≠ 0)
    (hmem : ¬ inp.IsMem) :
    hostBoardInit m priv pdev minor inp =
      (errToIounmapImmrbar (m.acquire (.enabledDevice pdev)) priv pdev, -enodev) := by
  rw [hostBoardInit, if_neg (not_not_intro henable), if_neg hbar, if_pos hmem]

theorem hostBoardInit_of_completes (h : inp.Completes) :
    hostBoardInit m priv pdev minor inp =
      ({ heap := Function.update m.heap priv (some (inp.hostPriv minor))
         ledger := ((((m.ledger.acquire (.enabledDevice pdev)).acquire (.regions pdev)).acquire
           (.mapping inp.immrbar)).acquire (.mapping inp.shm)).acquire (.deviceNode minor) },
        0) := by
  obtain ⟨henable, hbar, hmem, hlen, hregions, himmrbar, hshm⟩ := h
  rw [hostBoardInit, if_neg (not_not_intro henable), if_neg hbar, if_neg (not_not_intro hmem),
    if_neg (UInt32.not_lt.mpr hlen), if_neg (not_not_intro hregions), if_neg himmrbar,
    if_neg (not_not_intro hmem), if_neg hshm]
  simp [Mem.acquire, Mem.write, BoardInput.hostPriv]

/-- Past the check of its resource, a failing `host_board_init` takes back what it
acquired, whichever call failed. -/
theorem hostBoardInit_backs_out (henable : inp.pciEnableDevice = 0) (hbar : inp.bar1 ≠ 0)
    (hmem : inp.IsMem) (hfail : ¬ inp.Completes)
    (hdevice : .enabledDevice pdev ∉ m.ledger.held) (hregions : .regions pdev ∉ m.ledger.held)
    (hmapping : .mapping inp.immrbar ∉ m.ledger.held) :
    ∃ heap retval, retval ≠ 0 ∧ (∀ a, a ≠ priv → heap a = m.heap a) ∧
      hostBoardInit m priv pdev minor inp = ({ heap := heap, ledger := m.ledger }, retval) := by
  have hdisable : (m.ledger.acquire (.enabledDevice pdev)).release (.enabledDevice pdev) =
      m.ledger := Ledger.release_acquire _ hdevice
  have hrelease : ((m.ledger.acquire (.enabledDevice pdev)).acquire (.regions pdev)).release
      (.regions pdev) = m.ledger.acquire (.enabledDevice pdev) :=
    Ledger.release_acquire _ (by simp [hregions])
  have hunmap : (((m.ledger.acquire (.enabledDevice pdev)).acquire (.regions pdev)).acquire
      (.mapping inp.immrbar)).release (.mapping inp.immrbar) =
        (m.ledger.acquire (.enabledDevice pdev)).acquire (.regions pdev) :=
    Ledger.release_acquire _ (by simp [hmapping])
  rw [hostBoardInit, if_neg (not_not_intro henable), if_neg hbar, if_neg (not_not_intro hmem)]
  by_cases hlen : inp.len < immrbarSize
  · refine ⟨m.heap, -enodev, by decide, fun _ _ => rfl, ?_⟩
    rw [if_pos hlen]
    simp [errToPciDisableDevice, Mem.acquire, Mem.release, hdisable]
  rw [if_neg hlen]
  by_cases hreq : inp.pciRequestRegions = 0
  · rw [if_neg (not_not_intro hreq)]
    by_cases himmrbar : inp.immrbar = 0
    · refine ⟨m.heap, -eio, by decide, fun _ _ => rfl, ?_⟩
      rw [if_pos himmrbar]
      simp [errToPciReleaseRegions, errToPciDisableDevice, Mem.acquire, Mem.release, hrelease,
        hdisable]
    · have hshm : inp.shm = 0 := by
        by_contra hshm
        exact hfail ⟨henable, hbar, hmem, UInt32.not_lt.mp hlen, hreq, himmrbar, hshm⟩
      let p := { HostPriv.zero with mImmrbar := inp.immrbar, mImmrbarPhyAddr := inp.start }
      refine ⟨Function.update m.heap priv (some p), -eio, by decide,
        fun a ha => Function.update_of_ne ha _ _, ?_⟩
      rw [if_neg himmrbar, if_neg (not_not_intro hmem), if_pos hshm]
      simp [errToIounmapImmrbar, errToPciReleaseRegions, errToPciDisableDevice, Mem.mImmrbar,
        Mem.acquire, Mem.release, Mem.write, hunmap, hrelease, hdisable, p]
  · refine ⟨m.heap, -enodev, by decide, fun _ _ => rfl, ?_⟩
    rw [if_pos hreq]
    simp [errToPciDisableDevice, Mem.acquire, Mem.release, hdisable]

/-- The values that `host_board_init` can return, and what each says of its input. -/
theorem hostBoardInit_returns :
    (hostBoardInit m priv pdev minor inp).2 = inp.pciEnableDevice ∧
        (inp.pciEnableDevice ≠ 0 ∨ inp.bar1 = 0) ∨
      (hostBoardInit m priv pdev minor inp).2 = -enodev ∨
      (hostBoardInit m priv pdev minor inp).2 = -eio ∨
      (hostBoardInit m priv pdev minor inp).2 = 0 ∧ inp.Completes := by
  rw [hostBoardInit]
  split_ifs with henable hbar hmem hlen hreq himmrbar hshm
  · exact .inl ⟨rfl, .inl henable⟩
  · exact .inl ⟨rfl, .inr hbar⟩
  · exact .inr (.inl rfl)
  · exact .inr (.inl rfl)
  · exact .inr (.inr (.inl rfl))
  · exact .inr (.inr (.inl rfl))
  · rw [not_not] at henable hreq
    exact .inr (.inr (.inr
      ⟨rfl, henable, hbar, hmem, UInt32.not_lt.mp hlen, hreq, himmrbar, hshm⟩))
  · exact .inr (.inl rfl)

theorem hostBoardInit_eq_zero_iff :
    (hostBoardInit m priv pdev minor inp).2 = 0 ↔
      inp.pciEnableDevice = 0 ∧ (inp.bar1 = 0 ∨ inp.Completes) := by
  constructor
  · intro h
    rcases @hostBoardInit_returns m priv pdev minor inp with
      ⟨hret, hearly⟩ | hret | hret | ⟨-, hcompletes⟩
    · rw [h] at hret
      exact ⟨hret.symm, .inl (hearly.resolve_left (not_not_intro hret.symm))⟩
    · cases h.symm.trans hret
    · cases h.symm.trans hret
    · exact ⟨hcompletes.enable, .inr hcompletes⟩
  · intro h
    obtain ⟨henable, hbar | hcompletes⟩ := h
    · rw [hostBoardInit_of_no_bar henable hbar]
    · rw [hostBoardInit_of_completes hcompletes]

theorem hostBoardInit_ne_busy (henable : inp.pciEnableDevice ≠ -ebusy) :
    (hostBoardInit m priv pdev minor inp).2 ≠ -ebusy := by
  intro h
  rcases @hostBoardInit_returns m priv pdev minor inp with ⟨hret, -⟩ | hret | hret | ⟨hret, -⟩
  · exact henable (hret.symm.trans h)
  · cases h.symm.trans hret
  · cases h.symm.trans hret
  · cases h.symm.trans hret

theorem hostBoardInit_heap {a : Addr} (ha : a ≠ priv) :
    (hostBoardInit m priv pdev minor inp).1.heap a = m.heap a := by
  rw [hostBoardInit]
  split_ifs <;>
    simp [errToIounmapImmrbar, errToPciReleaseRegions, errToPciDisableDevice,
      Function.update_of_ne ha]

end Init

/-! ## The driver -/

/-- The driver with the PCI core around it.  `files` lists the `private_data` of
open files, and `slot` the index that the probe of a bound card left its loop with. -/
structure Host extends Mem where
  drvdata : PciDev → Addr
  priv : Minor → Addr
  files : List Addr
  bound : Finset PciDev
  slot : PciDev → Option Minor
  oops : Bool

structure ProbeInput where
  kmalloc : Addr
  board : BoardInput
  deriving DecidableEq, Repr

def freeSlot (priv : Minor → Addr) : Option Minor :=
  (List.finRange maxPtpPci).find? fun i => priv i = 0

/-- A failed `kmalloc` jumps to `fail` with `retval` still 0. -/
def hostProbe (s : Host) (pdev : PciDev) (inp : ProbeInput) : Host × Int :=
  match freeSlot s.priv with
  | none => (s, -ebusy)
  | some i =>
    let s := { s with priv := Function.update s.priv i inp.kmalloc }
    if inp.kmalloc = 0 then (s, 0)
    else
      let m := (s.toMem.acquire (.hostPriv inp.kmalloc)).write inp.kmalloc .zero
      let s := { s with drvdata := Function.update s.drvdata pdev inp.kmalloc }
      let (m, retval) := hostBoardInit m inp.kmalloc pdev i inp.board
      if retval ≠ 0 then
        let s := { s with drvdata := Function.update s.drvdata pdev 0 }
        ({ s with toMem := m.kfree inp.kmalloc }, retval)
      else
        let p := (m.heap inp.kmalloc).getD .zero
        ({ s with toMem := m.write inp.kmalloc { p with minor := i } }, 0)

/-- `host_board_cleanup` and the rest of `host_remove`.  Without a live `host_priv`
the first access to it faults. -/
def hostRemove (s : Host) (pdev : PciDev) : Option Host :=
  let priv := s.drvdata pdev
  match s.heap priv with
  | none => none
  | some p =>
    let m := s.toMem.release (.deviceNode p.minor)
    let m := m.release (.mapping p.mImmrbar)
    let m := m.release (.regions pdev)
    let m := m.release (.enabledDevice pdev)
    some { s with toMem := m.kfree priv, drvdata := Function.update s.drvdata pdev 0 }

def hostOpen (s : Host) (minor : Minor) : Host × Int :=
  if s.priv minor = 0 then (s, -enodev)
  else ({ s with files := s.files ++ [s.priv minor] }, 0)

namespace Host

def start : Host where
  heap _ := none
  ledger := .empty
  drvdata _ := 0
  priv _ := 0
  files := []
  bound := ∅
  slot _ := none
  oops := false

def probe (s : Host) (pdev : PciDev) (inp : ProbeInput) : Host :=
  let (s', retval) := hostProbe s pdev inp
  if retval = 0 then
    { s' with
      bound := insert pdev s'.bound
      slot := Function.update s'.slot pdev (freeSlot s.priv) }
  else s'

/-- What the kernel can offer: a card that is not bound, and calls that fail with a
negative number or `NULL` and otherwise yield an address that is not in use. -/
structure Offers (s : Host) (pdev : PciDev) (inp : ProbeInput) : Prop where
  unbound : pdev ∉ s.bound
  kmalloc : s.heap inp.kmalloc = none
  immrbar : .mapping inp.board.immrbar ∉ s.ledger.held
  shm : .mapping inp.board.shm ∉ s.ledger.held
  distinct : inp.board.immrbar ≠ 0 → inp.board.immrbar ≠ inp.board.shm
  enable : inp.board.pciEnableDevice ≤ 0
  regions : inp.board.pciRequestRegions ≤ 0

/-- The PCI core takes a bound card away, unless `host_remove` faults. -/
def remove (s : Host) (pdev : PciDev) : Host :=
  match hostRemove s pdev with
  | none => { s with oops := true }
  | some s =>
    { s with bound := s.bound.erase pdev, slot := Function.update s.slot pdev none }

end Host

/-! ## What a probe and a removal do -/

theorem freeSlot_eq_none_iff {priv : Minor → Addr} : freeSlot priv = none ↔ ∀ i, priv i ≠ 0 := by
  rw [freeSlot, List.find?_eq_none]
  simp [List.mem_finRange]

theorem priv_of_freeSlot {priv : Minor → Addr} {i : Minor} (h : freeSlot priv = some i) :
    priv i = 0 := by
  have hi := List.find?_some h
  simpa using hi

theorem freeSlot_of_busy {s : Host} {pdev : PciDev} {inp : ProbeInput}
    (henable : inp.board.pciEnableDevice ≠ -ebusy) (hret : (hostProbe s pdev inp).2 = -ebusy) :
    freeSlot s.priv = none := by
  cases hfree : freeSlot s.priv with
  | none => rfl
  | some i =>
    simp only [hostProbe, hfree] at hret
    split_ifs at hret
    · cases hret
    · exact absurd hret (hostBoardInit_ne_busy henable)
    · cases hret

namespace Host

variable {s : Host} {pdev : PciDev} {inp : ProbeInput} {i : Minor}

def allocated (s : Host) (a : Addr) : Mem := (s.toMem.acquire (.hostPriv a)).write a .zero

theorem probe_of_full (h : freeSlot s.priv = none) : s.probe pdev inp = s := by
  have hbusy : -ebusy ≠ 0 := by decide
  simp only [probe, hostProbe, h, if_neg hbusy]

theorem probe_of_kmalloc_fails (h : freeSlot s.priv = some i) (hk : inp.kmalloc = 0) :
    s.probe pdev inp =
      { s with
        priv := Function.update s.priv i 0
        bound := insert pdev s.bound
        slot := Function.update s.slot pdev (some i) } := by
  simp only [probe, hostProbe, h, hk, if_pos]

/-- A failed `host_board_init` frees the `host_priv` and leaves its address in the
slot. -/
theorem probe_of_init_fails (h : freeSlot s.priv = some i) (hk : inp.kmalloc ≠ 0) {m : Mem}
    {retval : Int}
    (hinit : hostBoardInit (s.allocated inp.kmalloc) inp.kmalloc pdev i inp.board = (m, retval))
    (hret : retval ≠ 0) :
    s.probe pdev inp =
      { s with
        toMem := m.kfree inp.kmalloc
        drvdata := Function.update s.drvdata pdev 0
        priv := Function.update s.priv i inp.kmalloc } := by
  rw [allocated] at hinit
  simp only [probe, hostProbe, h, if_neg hk, hinit, Function.update_idem, ne_eq, hret,
    not_false_eq_true, if_true, if_false]

theorem probe_of_init_succeeds (h : freeSlot s.priv = some i) (hk : inp.kmalloc ≠ 0) {m : Mem}
    (hinit : hostBoardInit (s.allocated inp.kmalloc) inp.kmalloc pdev i inp.board = (m, 0)) :
    s.probe pdev inp =
      { s with
        toMem := m.write inp.kmalloc { (m.heap inp.kmalloc).getD .zero with minor := i }
        drvdata := Function.update s.drvdata pdev inp.kmalloc
        priv := Function.update s.priv i inp.kmalloc
        bound := insert pdev s.bound
        slot := Function.update s.slot pdev (some i) } := by
  rw [allocated] at hinit
  simp only [probe, hostProbe, h, if_neg hk, hinit, ne_eq, not_true_eq_false, if_true, if_false]

theorem probe_of_completes (h : freeSlot s.priv = some i) (hk : inp.kmalloc ≠ 0)
    (hinit : inp.board.Completes) :
    s.probe pdev inp =
      { s with
        heap := Function.update s.heap inp.kmalloc (some (inp.board.hostPriv i))
        ledger := (((((s.ledger.acquire (.hostPriv inp.kmalloc)).acquire
          (.enabledDevice pdev)).acquire (.regions pdev)).acquire
          (.mapping inp.board.immrbar)).acquire (.mapping inp.board.shm)).acquire (.deviceNode i)
        drvdata := Function.update s.drvdata pdev inp.kmalloc
        priv := Function.update s.priv i inp.kmalloc
        bound := insert pdev s.bound
        slot := Function.update s.slot pdev (some i) } := by
  rw [probe_of_init_succeeds h hk (hostBoardInit_of_completes hinit)]
  simp [Mem.write, allocated, BoardInput.hostPriv]

theorem remove_of_live {p : HostPriv} (h : s.heap (s.drvdata pdev) = some p) :
    s.remove pdev =
      { s with
        heap := Function.update s.heap (s.drvdata pdev) none
        ledger := ((((s.ledger.release (.deviceNode p.minor)).release
          (.mapping p.mImmrbar)).release (.regions pdev)).release
          (.enabledDevice pdev)).release (.hostPriv (s.drvdata pdev))
        drvdata := Function.update s.drvdata pdev 0
        bound := s.bound.erase pdev
        slot := Function.update s.slot pdev none } := by
  simp only [remove, hostRemove, h, Mem.kfree, Mem.release]

end Host

def goodProbe : ProbeInput where
  kmalloc := 64
  board :=
    { pciEnableDevice := 0
      bar1 := 0xf0000000
      start := 0xf0000000
      len := 0x100000
      flags := 0x200
      pciRequestRegions := 0
      immrbar := 4096
      shm := 8192 }

theorem completes_goodProbe : goodProbe.board.Completes :=
  ⟨rfl, by decide, by decide, by decide, rfl, by decide, by decide⟩

end TimeTools.Driver
