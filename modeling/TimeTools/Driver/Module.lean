import Mathlib.Data.Finset.Sort
import TimeTools.Driver.Board
import TimeTools.Foundation.Run

/-!
# The module and its resources

`host_module_init` runs in two steps: up to the return of `pci_register_driver`,
from which on cards are probed, and the registration of the device numbers after
it.  Unregistering the driver removes every card that is bound.

In every state the module should hold the set of each bound card and the set that
goes with its phase, and nothing else (`Balanced`).  It does so in exactly the runs
in which initialization succeeds, no card is removed or left bound at exit, and
every probe that finds a slot gets its memory and either cannot enable its card or
finds it to be a memory card with a base address (`balanced_iff_keepsBalance`).
-/

namespace TimeTools.Driver

/-- `registering` is `host_module_init` after `pci_register_driver`. -/
inductive Phase
  | unloaded
  | registering
  | loaded
  deriving DecidableEq, Repr

structure ModuleState extends Host where
  phase : Phase

inductive ModuleEvent
  | initDriver (classCreated : Bool) (pciRegisterDriver : Int)
  | initRegion (registerChrdevRegion : Int)
  | probe (pdev : PciDev) (inp : ProbeInput)
  | remove (pdev : PciDev)
  | moduleExit

namespace Host

def acquire (s : Host) (r : Resource) : Host := { s with toMem := s.toMem.acquire r }

def release (s : Host) (r : Resource) : Host := { s with toMem := s.toMem.release r }

/-- `pci_unregister_driver` takes every bound card away first. -/
def pciUnregisterDriver (s : Host) : Host :=
  ((s.bound.sort (· ≤ ·)).foldl remove s).release .pciDriver

end Host

namespace ModuleState

def start : ModuleState := { Host.start with phase := .unloaded }

/-- `host_module_init` up to `pci_register_driver`, on static data just loaded.
A failed `class_create` returns `IS_ERR`, which is 1, and a positive result loads
the module all the same.  A failed `pci_register_driver` returns at once. -/
def initDriver (s : ModuleState) (classCreated : Bool) (pciRegisterDriver : Int) : ModuleState :=
  let s := { s with priv := fun _ => 0, files := [] }
  if classCreated = false then { s with phase := .loaded }
  else
    let s := { s with toHost := s.toHost.acquire .ptpPciClass }
    if pciRegisterDriver ≠ 0 then s
    else { s with toHost := s.toHost.acquire .pciDriver, phase := .registering }

def initRegion (s : ModuleState) (registerChrdevRegion : Int) : ModuleState :=
  if registerChrdevRegion < 0 then { toHost := s.toHost.pciUnregisterDriver, phase := .unloaded }
  else { toHost := s.toHost.acquire .chrdevRegion, phase := .loaded }

def moduleExit (s : ModuleState) : ModuleState :=
  let h := s.toHost.release .chrdevRegion
  let h := h.pciUnregisterDriver
  { toHost := h.release .ptpPciClass, phase := .unloaded }

end ModuleState

namespace ModuleEvent

def Enabled (s : ModuleState) : ModuleEvent → Prop
  | .initDriver _ pciRegisterDriver => s.phase = .unloaded ∧ pciRegisterDriver ≤ 0
  | .initRegion registerChrdevRegion => s.phase = .registering ∧ registerChrdevRegion ≤ 0
  | .probe pdev inp => .pciDriver ∈ s.ledger.held ∧ s.Offers pdev inp
  | .remove pdev => pdev ∈ s.bound
  | .moduleExit => s.phase = .loaded

def step (s : ModuleState) : ModuleEvent → ModuleState
  | .initDriver classCreated pciRegisterDriver => s.initDriver classCreated pciRegisterDriver
  | .initRegion registerChrdevRegion => s.initRegion registerChrdevRegion
  | .probe pdev inp => { s with toHost := s.toHost.probe pdev inp }
  | .remove pdev => { s with toHost := s.toHost.remove pdev }
  | .moduleExit => s.moduleExit

end ModuleEvent

def moduleMachine : Machine ModuleState ModuleEvent where
  init := .start
  enabled := ModuleEvent.Enabled
  step := ModuleEvent.step

/-! ## What should be held -/

def cardSet (pdev : PciDev) (a : Addr) (p : HostPriv) : List Resource :=
  [.deviceNode p.minor, .mapping p.shmMem, .mapping p.mImmrbar, .regions pdev,
    .enabledDevice pdev, .hostPriv a]

def moduleSet : Phase → List Resource
  | .unloaded => []
  | .registering => [.ptpPciClass, .pciDriver]
  | .loaded => [.ptpPciClass, .pciDriver, .chrdevRegion]

theorem not_mem_moduleSet {pdev : PciDev} {a : Addr} {p : HostPriv} {r : Resource}
    (hr : r ∈ cardSet pdev a p) (phase : Phase) : r ∉ moduleSet phase := by
  simp only [cardSet, List.mem_cons, List.not_mem_nil, or_false] at hr
  cases phase <;> rcases hr with rfl | rfl | rfl | rfl | rfl | rfl <;> simp [moduleSet]

namespace Host

def OwnedBy (s : Host) (pdev : PciDev) (r : Resource) : Prop :=
  pdev ∈ s.bound ∧ ∃ p, s.heap (s.drvdata pdev) = some p ∧ r ∈ cardSet pdev (s.drvdata pdev) p

def removedSet (pdev : PciDev) (a : Addr) (p : HostPriv) : List Resource :=
  [.deviceNode p.minor, .mapping p.mImmrbar, .regions pdev, .enabledDevice pdev, .hostPriv a]

theorem mem_held_remove {s : Host} {pdev : PciDev} {p : HostPriv}
    (hp : s.heap (s.drvdata pdev) = some p) {r : Resource} :
    r ∈ (s.remove pdev).ledger.held ↔
      r ∈ s.ledger.held ∧ r ∉ removedSet pdev (s.drvdata pdev) p := by
  rw [remove_of_live hp]
  simp only [Ledger.mem_release, removedSet, List.mem_cons, List.not_mem_nil, or_false, not_or]
  tauto

theorem class_held_remove (s : Host) (pdev : PciDev) :
    .ptpPciClass ∈ (s.remove pdev).ledger.held ↔ .ptpPciClass ∈ s.ledger.held := by
  cases hp : s.heap (s.drvdata pdev) with
  | none => simp only [remove, hostRemove, hp]
  | some p => rw [mem_held_remove hp, and_iff_left (by simp [removedSet])]

theorem class_held_foldl_remove (l : List PciDev) (s : Host) :
    .ptpPciClass ∈ (l.foldl remove s).ledger.held ↔ .ptpPciClass ∈ s.ledger.held := by
  induction l generalizing s with
  | nil => rfl
  | cons pdev l ih => rw [List.foldl_cons, ih, class_held_remove]

/-- A mapping that no card of the list has as its registers is held after their
removal as before, and the cards of the list are no longer bound. -/
theorem foldl_remove {x : Addr} (l : List PciDev) (s : Host) (hnodup : l.Nodup)
    (hlive : ∀ pdev ∈ l, ∃ p, s.heap (s.drvdata pdev) = some p ∧ p.mImmrbar ≠ x)
    (hinj : ∀ pdev ∈ l, ∀ pdev' ∈ l, s.drvdata pdev = s.drvdata pdev' → pdev = pdev') :
    (.mapping x ∈ (l.foldl remove s).ledger.held ↔ .mapping x ∈ s.ledger.held) ∧
      ∀ pdev, pdev ∈ (l.foldl remove s).bound ↔ pdev ∈ s.bound ∧ pdev ∉ l := by
  induction l generalizing s with
  | nil => simp
  | cons c l ih =>
    obtain ⟨hc, hnodup⟩ := List.nodup_cons.mp hnodup
    obtain ⟨hlivec, hlive⟩ := List.forall_mem_cons.mp hlive
    obtain ⟨p, hp, hpx⟩ := hlivec
    have hheap : ∀ pdev ∈ l, (s.remove c).drvdata pdev = s.drvdata pdev ∧
        (s.remove c).heap (s.drvdata pdev) = s.heap (s.drvdata pdev) := by
      intro pdev hpdev
      have hne : pdev ≠ c := fun h => hc (h ▸ hpdev)
      have hane : s.drvdata pdev ≠ s.drvdata c := fun h =>
        hne (hinj pdev (List.mem_cons_of_mem c hpdev) c List.mem_cons_self h)
      rw [remove_of_live hp]
      exact ⟨Function.update_of_ne hne _ _, Function.update_of_ne hane _ _⟩
    have hrest := ih (s.remove c) hnodup
      (fun pdev hpdev => by
        rw [(hheap pdev hpdev).1, (hheap pdev hpdev).2]
        exact hlive pdev hpdev)
      (fun pdev hpdev pdev' hpdev' heq => by
        rw [(hheap pdev hpdev).1, (hheap pdev' hpdev').1] at heq
        exact hinj pdev (List.mem_cons_of_mem c hpdev) pdev' (List.mem_cons_of_mem c hpdev') heq)
    rw [List.foldl_cons]
    refine ⟨hrest.1.trans ?_, fun pdev => (hrest.2 pdev).trans ?_⟩
    · rw [mem_held_remove hp, and_iff_left (by simp [removedSet, hpx.symm])]
    · rw [remove_of_live hp]
      show pdev ∈ s.bound.erase c ∧ pdev ∉ l ↔ _
      rw [Finset.mem_erase, List.mem_cons, not_or]
      tauto

theorem ownedBy_of_remove {s : Host} {pdev pdev' : PciDev} {p : HostPriv}
    (hp : s.heap (s.drvdata pdev) = some p) {r : Resource}
    (hr : (s.remove pdev).OwnedBy pdev' r) : pdev' ≠ pdev ∧ s.OwnedBy pdev' r := by
  rw [remove_of_live hp] at hr
  obtain ⟨hb, q, hq, hr⟩ := hr
  obtain ⟨hne, hb⟩ := Finset.mem_erase.mp hb
  change Function.update s.heap (s.drvdata pdev) none (Function.update s.drvdata pdev 0 pdev') =
    some q at hq
  change r ∈ cardSet pdev' (Function.update s.drvdata pdev 0 pdev') q at hr
  rw [Function.update_of_ne hne] at hq hr
  by_cases ha : s.drvdata pdev' = s.drvdata pdev
  · rw [ha, Function.update_self] at hq
    cases hq
  · rw [Function.update_of_ne ha] at hq
    exact ⟨hne, hb, q, hq, hr⟩

end Host

namespace ModuleState

def Owed (s : ModuleState) (r : Resource) : Prop :=
  (∃ pdev, s.OwnedBy pdev r) ∨ r ∈ moduleSet s.phase

/-- Every bound card has its `host_priv`, and the ledger is exact. -/
structure Balanced (s : ModuleState) : Prop where
  live : ∀ pdev ∈ s.bound, (s.heap (s.drvdata pdev)).isSome
  exact : s.ledger.Exact s.Owed

end ModuleState

def KeepsBalance (s : ModuleState) : ModuleEvent → Prop
  | .initDriver classCreated pciRegisterDriver => classCreated = true ∧ pciRegisterDriver = 0
  | .initRegion registerChrdevRegion => 0 ≤ registerChrdevRegion
  | .probe _ inp => (∃ i, s.priv i = 0) → inp.kmalloc ≠ 0 ∧
    (inp.board.pciEnableDevice ≠ 0 ∨ inp.board.bar1 ≠ 0 ∧ inp.board.IsMem)
  | .remove _ => False
  | .moduleExit => s.bound = ∅

/-- The invariant behind `Balanced`: cards share nothing, each has a slot that is
taken and two mappings, and a card that is not bound has no driver data. -/
structure BalanceInv (s : ModuleState) : Prop where
  null : s.heap 0 = none
  live : ∀ pdev ∈ s.bound, ∃ p, s.heap (s.drvdata pdev) = some p ∧ p.mImmrbar ≠ p.shmMem ∧
    s.priv p.minor ≠ 0
  apart : ∀ pdev pdev' r, s.OwnedBy pdev r → s.OwnedBy pdev' r → pdev = pdev'
  unbound : ∀ pdev, pdev ∉ s.bound → s.drvdata pdev = 0
  idle : s.phase = .unloaded → s.bound = ∅
  exact : s.ledger.Exact s.Owed

namespace BalanceInv

variable {s : ModuleState} {pdev : PciDev} {inp : ProbeInput}

theorem balanced (h : BalanceInv s) : s.Balanced where
  live pdev hb := by
    obtain ⟨p, hp, -⟩ := h.live pdev hb
    rw [hp, Option.isSome_some]
  exact := h.exact

theorem start : BalanceInv ModuleState.start where
  null := rfl
  live _ hb := absurd hb (Finset.notMem_empty _)
  apart _ _ _ hr := absurd hr.1 (Finset.notMem_empty _)
  unbound _ _ := rfl
  idle _ := rfl
  exact := Ledger.exact_empty.congr fun r => by
    simp [ModuleState.Owed, Host.OwnedBy, ModuleState.start, Host.start, moduleSet]

theorem held_of_ownedBy (h : BalanceInv s) {r : Resource} (hr : s.OwnedBy pdev r) :
    r ∈ s.ledger.held := (h.exact.held r).mpr (.inl ⟨pdev, hr⟩)

theorem owner_of_held (h : BalanceInv s) {a : Addr} {p : HostPriv} {r : Resource}
    (hr : r ∈ cardSet pdev a p) (hheld : r ∈ s.ledger.held) : ∃ pdev', s.OwnedBy pdev' r :=
  ((h.exact.held r).mp hheld).resolve_right (not_mem_moduleSet hr s.phase)

theorem not_held_of_offers (h : BalanceInv s) (hoffer : s.Offers pdev inp) {i : Minor}
    (hi : s.priv i = 0) {r : Resource} (hr : r ∈ cardSet pdev inp.kmalloc (inp.board.hostPriv i)) :
    r ∉ s.ledger.held := by
  intro hheld
  obtain ⟨pdev', hb, p, hp, hr'⟩ := h.owner_of_held hr hheld
  simp only [cardSet, List.mem_cons, List.not_mem_nil, or_false] at hr
  rcases hr with rfl | rfl | rfl | rfl | rfl | rfl
  · obtain ⟨p', hp', -, hslot⟩ := h.live pdev' hb
    obtain rfl : p = p' := Option.some.inj (hp.symm.trans hp')
    have hminor : i = p.minor := by simpa [cardSet, BoardInput.hostPriv] using hr'
    exact hslot (hminor ▸ hi)
  · exact hoffer.shm hheld
  · exact hoffer.immrbar hheld
  · obtain rfl : pdev = pdev' := by simpa [cardSet] using hr'
    exact hoffer.unbound hb
  · obtain rfl : pdev = pdev' := by simpa [cardSet] using hr'
    exact hoffer.unbound hb
  · have ha : inp.kmalloc = s.drvdata pdev' := by simpa [cardSet] using hr'
    rw [← ha, hoffer.kmalloc] at hp
    cases hp

theorem fill (h : BalanceInv s) (i : Minor) {a : Addr} (ha : a ≠ 0) :
    BalanceInv { s with priv := Function.update s.priv i a } where
  null := h.null
  live pdev hb := by
    obtain ⟨p, hp, hdistinct, hslot⟩ := h.live pdev hb
    refine ⟨p, hp, hdistinct, ?_⟩
    show Function.update s.priv i a p.minor ≠ 0
    by_cases hi : p.minor = i
    · rwa [hi, Function.update_self]
    · rwa [Function.update_of_ne hi]
  apart := h.apart
  unbound := h.unbound
  idle := h.idle
  exact := h.exact

theorem probe_eq_fill (h : BalanceInv s) (hoffer : s.Offers pdev inp) {i : Minor}
    (hfree : freeSlot s.priv = some i) (hk : inp.kmalloc ≠ 0) {m : Mem} {retval : Int}
    (hinit : hostBoardInit (s.allocated inp.kmalloc) inp.kmalloc pdev i inp.board = (m, retval))
    (hret : retval ≠ 0) (hheap : ∀ a, a ≠ inp.kmalloc → m.heap a = s.heap a)
    (hledger : m.ledger = s.ledger.acquire (.hostPriv inp.kmalloc)) :
    s.toHost.probe pdev inp =
      { s.toHost with priv := Function.update s.priv i inp.kmalloc } := by
  have hnew : .hostPriv inp.kmalloc ∉ s.ledger.held :=
    h.not_held_of_offers hoffer (priv_of_freeSlot hfree) (by simp [cardSet])
  have hfreed : Function.update m.heap inp.kmalloc none = s.heap := by
    funext a
    by_cases ha : a = inp.kmalloc
    · rw [ha, Function.update_self, hoffer.kmalloc]
    · rw [Function.update_of_ne ha, hheap a ha]
  have hdrvdata : Function.update s.drvdata pdev 0 = s.drvdata := by
    rw [← h.unbound pdev hoffer.unbound, Function.update_eq_self]
  rw [Host.probe_of_init_fails hfree hk hinit hret, Mem.kfree, hfreed, hledger,
    Ledger.release_acquire _ hnew, hdrvdata]

theorem ownedBy_insert (h : BalanceInv s) (hnew : pdev ∉ s.bound) {a : Addr} {p : HostPriv}
    (ha : s.heap a = none) {s' : Host} (hbound : s'.bound = insert pdev s.bound)
    (hheap : s'.heap = Function.update s.heap a (some p))
    (hdrvdata : s'.drvdata = Function.update s.drvdata pdev a) (pdev' : PciDev) (r : Resource) :
    s'.OwnedBy pdev' r ↔ pdev' = pdev ∧ r ∈ cardSet pdev a p ∨ s.OwnedBy pdev' r := by
  by_cases hp : pdev' = pdev
  · subst hp
    simp [Host.OwnedBy, hbound, hheap, hdrvdata, hnew]
  · have hlive : pdev' ∈ s.bound → s.drvdata pdev' ≠ a := by
      intro hb hda
      obtain ⟨q, hq, -⟩ := h.live pdev' hb
      rw [hda, ha] at hq
      cases hq
    rw [Host.OwnedBy, Host.OwnedBy, hbound, hheap, hdrvdata, Function.update_of_ne hp,
      Finset.mem_insert, or_iff_right hp, or_iff_right (fun hr => hp hr.1)]
    exact and_congr_right fun hb => by rw [Function.update_of_ne (hlive hb)]

theorem phase_of_driver (h : BalanceInv s) (hdriver : .pciDriver ∈ s.ledger.held) :
    s.phase ≠ .unloaded := by
  intro hphase
  rcases (h.exact.held _).mp hdriver with ⟨pdev, -, p, -, hr⟩ | hr
  · exact absurd hr (by simp [cardSet])
  · rw [hphase] at hr
    exact absurd hr List.not_mem_nil

theorem probe_completes (h : BalanceInv s) (hoffer : s.Offers pdev inp)
    (hdriver : .pciDriver ∈ s.ledger.held) {i : Minor}
    (hfree : freeSlot s.priv = some i) (hk : inp.kmalloc ≠ 0) (hinit : inp.board.Completes) :
    BalanceInv { s with toHost := s.toHost.probe pdev inp } := by
  have hi := priv_of_freeSlot hfree
  have hprobe := @Host.probe_of_completes s.toHost pdev inp _ hfree hk hinit
  have howned : ∀ pdev' r, (s.toHost.probe pdev inp).OwnedBy pdev' r ↔
      pdev' = pdev ∧ r ∈ cardSet pdev inp.kmalloc (inp.board.hostPriv i) ∨ s.OwnedBy pdev' r :=
    h.ownedBy_insert hoffer.unbound hoffer.kmalloc (by rw [hprobe]) (by rw [hprobe])
      (by rw [hprobe])
  have hnew : ∀ pdev' r, r ∈ cardSet pdev inp.kmalloc (inp.board.hostPriv i) →
      ¬ s.OwnedBy pdev' r :=
    fun pdev' r hr howner => h.not_held_of_offers hoffer hi hr (h.held_of_ownedBy howner)
  refine ⟨?_, ?_, ?_, ?_, fun hp => absurd hp (h.phase_of_driver hdriver), ?_⟩
  · show (s.toHost.probe pdev inp).heap 0 = none
    rw [hprobe]
    exact (Function.update_of_ne hk.symm _ _).trans h.null
  · intro pdev' hb
    change pdev' ∈ (s.toHost.probe pdev inp).bound at hb
    show ∃ p, (s.toHost.probe pdev inp).heap ((s.toHost.probe pdev inp).drvdata pdev') = some p ∧
      p.mImmrbar ≠ p.shmMem ∧ (s.toHost.probe pdev inp).priv p.minor ≠ 0
    rw [hprobe] at hb ⊢
    rcases Finset.mem_insert.mp hb with rfl | hb
    · exact ⟨inp.board.hostPriv i, by simp, hoffer.distinct hinit.immrbar,
        by simpa [BoardInput.hostPriv] using hk⟩
    · obtain ⟨p, hp, hdistinct, hslot⟩ := h.live pdev' hb
      have hne : pdev' ≠ pdev := fun hp => hoffer.unbound (hp ▸ hb)
      have hka : s.drvdata pdev' ≠ inp.kmalloc := by
        intro hka
        rw [hka, hoffer.kmalloc] at hp
        cases hp
      have hji : p.minor ≠ i := fun hji => hslot (hji ▸ hi)
      exact ⟨p, by simpa [Function.update_of_ne hne, Function.update_of_ne hka] using hp, hdistinct,
        by simpa [Function.update_of_ne hji] using hslot⟩
  · intro pdev₁ pdev₂ r h₁ h₂
    rcases (howned pdev₁ r).mp h₁ with ⟨hp₁, hr₁⟩ | ho₁ <;>
      rcases (howned pdev₂ r).mp h₂ with ⟨hp₂, hr₂⟩ | ho₂
    · exact hp₁.trans hp₂.symm
    · exact absurd ho₂ (hnew _ r hr₁)
    · exact absurd ho₁ (hnew _ r hr₂)
    · exact h.apart _ _ r ho₁ ho₂
  · intro pdev' hb
    change pdev' ∉ (s.toHost.probe pdev inp).bound at hb
    show (s.toHost.probe pdev inp).drvdata pdev' = 0
    rw [hprobe] at hb ⊢
    obtain ⟨hne, hb⟩ := not_or.mp (mt Finset.mem_insert.mpr hb)
    exact (Function.update_of_ne hne _ _).trans (h.unbound pdev' hb)
  · show (s.toHost.probe pdev inp).ledger.Exact _
    have hledger := (((((h.exact.acquire (.hostPriv inp.kmalloc)).acquire
      (.enabledDevice pdev)).acquire (.regions pdev)).acquire
      (.mapping inp.board.immrbar)).acquire (.mapping inp.board.shm)).acquire (.deviceNode i)
    rw [hprobe]
    refine hledger.congr fun r => ?_
    have hiff : ({ s with toHost := s.toHost.probe pdev inp } : ModuleState).Owed r ↔
        r ∈ cardSet pdev inp.kmalloc (inp.board.hostPriv i) ∨ s.Owed r := by
      simp only [ModuleState.Owed, howned, exists_or, or_assoc, exists_eq_left]
    rw [← hprobe, hiff]
    simp only [cardSet, BoardInput.hostPriv, List.mem_cons, List.not_mem_nil, or_false, or_assoc]

/-- A probe that cannot enable its card, or that finds a memory card with a base
address, keeps the balance whatever fails after that. -/
theorem probe (h : BalanceInv s) (hoffer : s.Offers pdev inp)
    (hdriver : .pciDriver ∈ s.ledger.held) (hkeep : KeepsBalance s (.probe pdev inp)) :
    BalanceInv { s with toHost := s.toHost.probe pdev inp } := by
  cases hfree : freeSlot s.priv with
  | none => rwa [Host.probe_of_full hfree]
  | some i =>
    have hi := priv_of_freeSlot hfree
    have hallocated : ∀ a, a ≠ inp.kmalloc → (s.allocated inp.kmalloc).heap a = s.heap a :=
      fun a ha => Function.update_of_ne ha _ _
    obtain ⟨hk, hinit⟩ := hkeep ⟨i, hi⟩
    by_cases henable : inp.board.pciEnableDevice = 0
    · obtain ⟨hbar, hmem⟩ := hinit.resolve_left (not_not_intro henable)
      by_cases hcompletes : inp.board.Completes
      · exact h.probe_completes hoffer hdriver hfree hk hcompletes
      · have hnew : ∀ r ∈ cardSet pdev inp.kmalloc (inp.board.hostPriv i),
            r ≠ .hostPriv inp.kmalloc → r ∉ (s.allocated inp.kmalloc).ledger.held := by
          intro r hr hne hheld
          exact h.not_held_of_offers hoffer hi hr
            (((Ledger.mem_acquire _).mp hheld).resolve_left hne)
        obtain ⟨heap, retval, hret, hheap, hboard⟩ :=
          @hostBoardInit_backs_out (s.allocated inp.kmalloc) inp.kmalloc pdev i inp.board
            henable hbar hmem hcompletes
            (hnew (.enabledDevice pdev) (by simp [cardSet]) (by simp))
            (hnew (.regions pdev) (by simp [cardSet]) (by simp))
            (hnew (.mapping inp.board.immrbar) (by simp [cardSet, BoardInput.hostPriv]) (by simp))
        rw [h.probe_eq_fill hoffer hfree hk hboard hret
          (fun a ha => (hheap a ha).trans (hallocated a ha)) rfl]
        exact h.fill i hk
    · rw [h.probe_eq_fill hoffer hfree hk (hostBoardInit_of_enable_fails henable) henable
        hallocated rfl]
      exact h.fill i hk

/-- Without memory the card is bound to nothing; without a base address it is bound
to a card that is not enabled; and when its resource is not memory, regions are
released that were not requested. -/
theorem not_balanced_probe (h : BalanceInv s) (hoffer : s.Offers pdev inp)
    (hkeep : ¬ KeepsBalance s (.probe pdev inp)) :
    ¬ ({ s with toHost := s.toHost.probe pdev inp } : ModuleState).Balanced := by
  rw [KeepsBalance, Classical.not_imp] at hkeep
  obtain ⟨⟨j, hj⟩, hfail⟩ := hkeep
  intro hbalanced
  cases hfree : freeSlot s.priv with
  | none => exact absurd hj (freeSlot_eq_none_iff.mp hfree j)
  | some i =>
    have hi := priv_of_freeSlot hfree
    by_cases hk : inp.kmalloc = 0
    · rw [Host.probe_of_kmalloc_fails hfree hk] at hbalanced
      have hlive := hbalanced.live pdev (Finset.mem_insert_self _ _)
      change (s.heap (s.drvdata pdev)).isSome = true at hlive
      rw [h.unbound pdev hoffer.unbound, h.null] at hlive
      cases hlive
    · have henable : inp.board.pciEnableDevice = 0 := by
        by_contra henable
        exact hfail ⟨hk, .inl henable⟩
      by_cases hbar : inp.board.bar1 = 0
      · rw [Host.probe_of_init_succeeds hfree hk (hostBoardInit_of_no_bar henable hbar)]
          at hbalanced
        refine Ledger.not_exact_of_not_mem (r := .enabledDevice pdev) ?_ ?_ hbalanced.exact
        · simp
        · exact .inl ⟨pdev, Finset.mem_insert_self _ _, _, by simp; rfl, by simp [cardSet]⟩
      · have hmem : ¬ inp.board.IsMem := fun hmem => hfail ⟨hk, .inr ⟨hbar, hmem⟩⟩
        rw [Host.probe_of_init_fails hfree hk (hostBoardInit_of_not_mem henable hbar hmem)
          (by decide)] at hbalanced
        have hregions : .regions pdev ∉ s.ledger.held :=
          h.not_held_of_offers hoffer hi (by simp [cardSet])
        refine Ledger.spurious_release_ne_nil _ (.inr ?_) hbalanced.exact.spurious
        refine Ledger.spurious_release_ne_nil _ (.inr ?_)
        refine Ledger.spurious_release_ne_nil _ (.inl ?_)
        simp [Host.allocated, hregions]

theorem not_balanced_remove (h : BalanceInv s) (hb : pdev ∈ s.bound) :
    ¬ ({ s with toHost := s.toHost.remove pdev } : ModuleState).Balanced := by
  obtain ⟨p, hp, hdistinct, -⟩ := h.live pdev hb
  have howner : s.OwnedBy pdev (.mapping p.shmMem) := ⟨hb, p, hp, by simp [cardSet]⟩
  intro hbalanced
  refine Ledger.not_exact_of_mem (r := .mapping p.shmMem) ?_ ?_ hbalanced.exact
  · exact (Host.mem_held_remove hp).mpr
      ⟨h.held_of_ownedBy howner, by simp [Host.removedSet, hdistinct.symm]⟩
  · intro howed
    rcases howed with ⟨pdev', hr⟩ | hr
    · obtain ⟨hne, hr⟩ := Host.ownedBy_of_remove hp hr
      exact hne (h.apart _ _ _ hr howner)
    · obtain ⟨-, q, -, hq⟩ := howner
      exact not_mem_moduleSet hq _ hr

/-! ### Initialization and exit -/

theorem owed_iff_of_bound_empty (hb : s.bound = ∅) (r : Resource) :
    s.Owed r ↔ r ∈ moduleSet s.phase :=
  or_iff_right fun ⟨_, hr⟩ => absurd (hb ▸ hr.1) (Finset.notMem_empty _)

theorem of_bound_empty (h : BalanceInv s) {s' : ModuleState} (hb : s'.bound = ∅)
    (hheap : s'.heap = s.heap) (hdrvdata : s'.drvdata = s.drvdata) (hs : s.bound = ∅)
    (hexact : s'.ledger.Exact (· ∈ moduleSet s'.phase)) : BalanceInv s' where
  null := by rw [hheap, h.null]
  live pdev hp := absurd (hb ▸ hp) (Finset.notMem_empty _)
  apart _ _ _ hr := absurd (hb ▸ hr.1) (Finset.notMem_empty _)
  unbound pdev _ := by rw [hdrvdata, h.unbound pdev (hs ▸ Finset.notMem_empty _)]
  idle _ := hb
  exact := hexact.congr fun r => (owed_iff_of_bound_empty hb r).symm

theorem initDriver (h : BalanceInv s) (hphase : s.phase = .unloaded) :
    BalanceInv (s.initDriver true 0) := by
  have hb := h.idle hphase
  have hheld : s.ledger.Exact (· ∈ moduleSet .unloaded) :=
    h.exact.congr fun r => by rw [owed_iff_of_bound_empty hb, hphase]
  refine h.of_bound_empty hb rfl rfl hb ?_
  exact ((hheld.acquire .ptpPciClass).acquire .pciDriver).congr fun r => by
    simp [ModuleState.initDriver, moduleSet, or_comm]

theorem not_balanced_initDriver (h : BalanceInv s) (hphase : s.phase = .unloaded)
    {classCreated : Bool} {pciRegisterDriver : Int}
    (hkeep : ¬ (classCreated = true ∧ pciRegisterDriver = 0)) :
    ¬ (s.initDriver classCreated pciRegisterDriver).Balanced := by
  have hb := h.idle hphase
  have hclass : .ptpPciClass ∉ s.ledger.held := by
    rw [h.exact.held, owed_iff_of_bound_empty hb, hphase]
    exact List.not_mem_nil
  intro hbalanced
  cases classCreated with
  | false =>
    -- The module is loaded without its class.
    refine Ledger.not_exact_of_not_mem (r := .ptpPciClass) hclass ?_ hbalanced.exact
    exact .inr (show .ptpPciClass ∈ moduleSet .loaded by decide)
  | true =>
    -- The class is left behind.
    have hfail : pciRegisterDriver ≠ 0 := fun hr => hkeep ⟨rfl, hr⟩
    rw [ModuleState.initDriver, if_neg (by decide), if_pos hfail] at hbalanced
    refine Ledger.not_exact_of_mem (r := .ptpPciClass) (Finset.mem_insert_self _ _)
      (fun howed => ?_) hbalanced.exact
    have hmem : .ptpPciClass ∈ moduleSet s.phase := (owed_iff_of_bound_empty hb _).mp howed
    rw [hphase] at hmem
    exact List.not_mem_nil hmem

theorem initRegion (h : BalanceInv s) (hphase : s.phase = .registering) {r : Int}
    (hr : 0 ≤ r) : BalanceInv (s.initRegion r) := by
  rw [ModuleState.initRegion, if_neg (Int.not_lt.mpr hr)]
  refine ⟨h.null, h.live, h.apart, h.unbound, nofun, ?_⟩
  refine (h.exact.acquire .chrdevRegion).congr fun x => ?_
  show x = .chrdevRegion ∨ (∃ pdev, s.OwnedBy pdev x) ∨ x ∈ moduleSet s.phase ↔
    (∃ pdev, s.OwnedBy pdev x) ∨ x ∈ moduleSet .loaded
  rw [hphase, or_left_comm]
  simp [moduleSet, or_comm, or_left_comm]

theorem not_balanced_initRegion (h : BalanceInv s) (hphase : s.phase = .registering) {r : Int}
    (hr : r < 0) : ¬ (s.initRegion r).Balanced := by
  rw [ModuleState.initRegion, if_pos hr]
  intro hbalanced
  have hclass : .ptpPciClass ∈ s.ledger.held := by
    rw [h.exact.held, ModuleState.Owed, hphase]
    exact .inr List.mem_cons_self
  refine Ledger.not_exact_of_mem (r := .ptpPciClass) ?_ ?_ hbalanced.exact
  · exact (Ledger.mem_release _).mpr ⟨by decide, (Host.class_held_foldl_remove _ _).mpr hclass⟩
  · intro howed
    rcases howed with ⟨pdev, -, p, -, hmem⟩ | hmem
    · simp [cardSet] at hmem
    · exact List.not_mem_nil hmem

theorem moduleExit (h : BalanceInv s) (hphase : s.phase = .loaded) (hb : s.bound = ∅) :
    BalanceInv s.moduleExit := by
  have hheld : s.ledger.Exact (· ∈ moduleSet .loaded) :=
    h.exact.congr fun r => by rw [owed_iff_of_bound_empty hb, hphase]
  have hexit : s.moduleExit =
      { s with
        ledger := ((s.ledger.release .chrdevRegion).release .pciDriver).release .ptpPciClass
        phase := .unloaded } := by
    simp [ModuleState.moduleExit, Host.pciUnregisterDriver, Host.release, Mem.release, hb]
  rw [hexit]
  refine h.of_bound_empty hb rfl rfl hb ?_
  have hreleased := ((hheld.release (r := .chrdevRegion) (by decide)).release (r := .pciDriver)
    (by decide)).release (r := .ptpPciClass) (by decide)
  refine hreleased.congr fun r => ?_
  simp [moduleSet]
  tauto

theorem not_balanced_moduleExit (h : BalanceInv s) (hb : s.bound ≠ ∅) :
    ¬ s.moduleExit.Balanced := by
  obtain ⟨pdev, hpdev⟩ := Finset.nonempty_iff_ne_empty.mpr hb
  obtain ⟨p, hp, hdistinct, -⟩ := h.live pdev hpdev
  have howner : s.OwnedBy pdev (.mapping p.shmMem) := ⟨hpdev, p, hp, by simp [cardSet]⟩
  have hlive : ∀ pdev' ∈ s.bound.sort (· ≤ ·), ∃ p', s.heap (s.drvdata pdev') = some p' ∧
      p'.mImmrbar ≠ p.shmMem := by
    intro pdev' hpdev'
    have hb' := (Finset.mem_sort _).mp hpdev'
    obtain ⟨p', hp', -⟩ := h.live pdev' hb'
    refine ⟨p', hp', fun heq => ?_⟩
    obtain rfl := h.apart pdev' pdev _ ⟨hb', p', hp', by simp [cardSet, heq]⟩ howner
    obtain rfl : p = p' := Option.some.inj (hp.symm.trans hp')
    exact hdistinct heq
  have hinj : ∀ c ∈ s.bound.sort (· ≤ ·), ∀ c' ∈ s.bound.sort (· ≤ ·),
      s.drvdata c = s.drvdata c' → c = c' := by
    intro c hc c' hc' heq
    obtain ⟨q, hq, -⟩ := h.live c ((Finset.mem_sort _).mp hc)
    exact h.apart c c' (.hostPriv (s.drvdata c))
      ⟨(Finset.mem_sort _).mp hc, q, hq, by simp [cardSet]⟩
      ⟨(Finset.mem_sort _).mp hc', q, heq ▸ hq, by simp [cardSet, heq]⟩
  obtain ⟨hheld, hbound⟩ := Host.foldl_remove (x := p.shmMem) _
    (s.toHost.release .chrdevRegion) (Finset.sort_nodup _ _) hlive hinj
  intro hbalanced
  refine Ledger.not_exact_of_mem (r := .mapping p.shmMem) ?_ ?_ hbalanced.exact
  · refine (Ledger.mem_release _).mpr ⟨nofun, (Ledger.mem_release _).mpr ⟨nofun, ?_⟩⟩
    exact hheld.mpr ((Ledger.mem_release _).mpr ⟨nofun, h.held_of_ownedBy howner⟩)
  · intro howed
    rcases howed with ⟨pdev', hr, -⟩ | hr
    · obtain ⟨hr, hnot⟩ := (hbound pdev').mp hr
      exact hnot ((Finset.mem_sort _).mpr hr)
    · exact List.not_mem_nil hr

/-! ### Runs -/

theorem step (h : BalanceInv s) {e : ModuleEvent} (hen : e.Enabled s) (hkeep : KeepsBalance s e) :
    BalanceInv (ModuleEvent.step s e) := by
  cases e with
  | initDriver classCreated pciRegisterDriver =>
    obtain ⟨rfl, rfl⟩ := hkeep
    exact h.initDriver hen.1
  | initRegion r => exact h.initRegion hen.1 hkeep
  | probe pdev inp => exact h.probe hen.2 hen.1 hkeep
  | remove pdev => exact hkeep.elim
  | moduleExit => exact h.moduleExit hen hkeep

theorem not_balanced_step (h : BalanceInv s) {e : ModuleEvent} (hen : e.Enabled s)
    (hkeep : ¬ KeepsBalance s e) : ¬ (ModuleEvent.step s e).Balanced := by
  cases e with
  | initDriver classCreated pciRegisterDriver => exact h.not_balanced_initDriver hen.1 hkeep
  | initRegion r => exact h.not_balanced_initRegion hen.1 (Int.not_le.mp hkeep)
  | probe pdev inp => exact h.not_balanced_probe hen.2 hkeep
  | remove pdev => exact h.not_balanced_remove hen
  | moduleExit => exact h.not_balanced_moduleExit hkeep

end BalanceInv

/-- The resources are balanced in every state of a run exactly when every step keeps
the balance. -/
theorem balanced_iff_keepsBalance (es : List ModuleEvent)
    (hadm : moduleMachine.Admits .start es) :
    moduleMachine.Throughout ModuleState.Balanced .start es ↔
      moduleMachine.Along KeepsBalance .start es :=
  Machine.throughout_iff_along (I := BalanceInv) (fun _ h => h.balanced)
    (fun _ _ h hen hkeep => h.step hen hkeep)
    (fun _ _ h hen hkeep => h.not_balanced_step hen hkeep) BalanceInv.start hadm

def oneCard : List ModuleEvent := [.initDriver true 0, .initRegion 0, .probe 0 goodProbe]

theorem admits_oneCard : moduleMachine.Admits .start oneCard :=
  ⟨⟨rfl, by decide⟩, ⟨rfl, by decide⟩,
    ⟨by decide, by decide, rfl, by decide, by decide, by decide, by decide, by decide⟩, trivial⟩

theorem keepsBalance_oneCard : moduleMachine.Along KeepsBalance .start oneCard :=
  ⟨⟨rfl, rfl⟩, Int.le_refl 0, fun _ => ⟨by decide, .inr ⟨by decide, by decide⟩⟩, trivial⟩

theorem balanced_one_card : moduleMachine.Throughout ModuleState.Balanced .start oneCard :=
  (balanced_iff_keepsBalance oneCard admits_oneCard).mpr keepsBalance_oneCard

theorem not_balanced_after_remove :
    (moduleMachine.Admits .start (oneCard ++ [.remove 0]) ∧
      ¬ moduleMachine.Throughout ModuleState.Balanced .start (oneCard ++ [.remove 0])) ∧
    (moduleMachine.Admits .start [.initDriver true 0, .initRegion (-ebusy)] ∧
      ¬ moduleMachine.Throughout ModuleState.Balanced .start
        [.initDriver true 0, .initRegion (-ebusy)]) := by
  have hbound : 0 ∈ (moduleMachine.run .start oneCard).bound := by decide
  refine ⟨⟨?_, fun h => ?_⟩, ⟨⟨rfl, by decide⟩, ⟨rfl, by decide⟩, trivial⟩, fun h => ?_⟩
  · exact (moduleMachine.along_append _ _ _ _).mpr ⟨admits_oneCard, hbound, trivial⟩
  · have hinv : BalanceInv (moduleMachine.run .start oneCard) :=
      Machine.run_of_invariant (fun _ _ h hen hkeep => h.step hen hkeep) BalanceInv.start
        admits_oneCard keepsBalance_oneCard
    exact hinv.not_balanced_remove hbound h.2.2.2.2
  · exact (BalanceInv.start.initDriver rfl).not_balanced_initRegion rfl
      (show -ebusy < 0 by decide) h.2.2

end TimeTools.Driver
