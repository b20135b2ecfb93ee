import TimeTools.Driver.Usable

/-!
# Registers mapped by processes

`host_mmap` gives a process the first megabyte behind the base address of the card.  The
driver keeps no record of such a mapping; what undoes it is the kernel, when the process
unmaps it.  It holds its file open until then.

Runs with any number of mappings are as safe as runs without: if every step of the driver
keeps the cards usable, then each mapping shows the registers of a card that is bound, and
none outlives its card (`mapsUsable_iff_keepsMaps`).
-/

namespace TimeTools.Driver

def einval : Int := 22
def eagain : Int := 11

def pageShift : Nat := 12

/-- A mapping: the file that it holds open, its first page frame, and its size. -/
structure Vma where
  privateData : Addr
  pfn : Nat
  size : UInt64
  deriving DecidableEq, Repr

/-- The requested page offset is not looked at.  Without a live `host_priv` the read of
its address faults. -/
def hostMmap (s : Host) (privateData : Addr) (vmStart vmEnd : UInt64) (ioRemapPfnRange : Int) :
    Option (Int × Option Vma) :=
  match s.heap privateData with
  | none => none
  | some priv =>
    let addr := priv.mImmrbarPhyAddr
    if vmEnd - vmStart ≠ 0x100000 then some (-einval, none)
    else if ioRemapPfnRange ≠ 0 then some (-eagain, none)
    else
      let vma :=
        { privateData := privateData, pfn := addr.toNat >>> pageShift, size := 0x100000 : Vma }
      some (0, some vma)

/-- The driver, the mappings of all processes, and what the last probe of each card found. -/
structure MmapState extends DriverState where
  vmas : List Vma
  board : PciDev → BoardInput

inductive MmapEvent
  | driver (e : DriverEvent)
  | mmap (privateData : Addr) (vmStart vmEnd : UInt64) (ioRemapPfnRange : Int)
  | munmap (vma : Vma)

/-- The PCI core places a memory resource of a megabyte or more at a page, and a file is not
released while a mapping of it is left. -/
def MmapState.Permits (s : MmapState) : DriverEvent → Prop
  | .probe _ inp => inp.board.Completes → inp.board.start.toNat % 2 ^ pageShift = 0
  | .closeNode privateData =>
    (∃ vma ∈ s.vmas, vma.privateData = privateData) → privateData ∈ s.files.erase privateData
  | _ => True

def boardAfter (board : PciDev → BoardInput) : DriverEvent → PciDev → BoardInput
  | .probe pdev inp => Function.update board pdev inp.board
  | _ => board

namespace MmapEvent

def Enabled (s : MmapState) : MmapEvent → Prop
  | .driver e => e.Enabled s.toDriverState ∧ s.Permits e
  | .mmap privateData _ _ _ => privateData ∈ s.files
  | .munmap vma => vma ∈ s.vmas

def step (s : MmapState) : MmapEvent → MmapState
  | .driver e =>
    { toDriverState := e.step s.toDriverState
      vmas := s.vmas
      board := boardAfter s.board e }
  | .mmap privateData vmStart vmEnd ioRemapPfnRange =>
    match hostMmap s.toHost privateData vmStart vmEnd ioRemapPfnRange with
    | none => { s with oops := true }
    | some (_, none) => s
    | some (_, some vma) => { s with vmas := s.vmas ++ [vma] }
  | .munmap vma => { s with vmas := s.vmas.erase vma }

end MmapEvent

def MmapState.start : MmapState :=
  { DriverState.start with vmas := [], board := fun _ => goodProbe.board }

def mmapMachine : Machine MmapState MmapEvent where
  init := .start
  enabled := MmapEvent.Enabled
  step := MmapEvent.step

/-- The mapping shows the first megabyte of a bound card, and the card has as much. -/
def ShowsCard (s : MmapState) (vma : Vma) : Prop :=
  ∃ pdev ∈ s.bound, s.drvdata pdev = vma.privateData ∧
    vma.pfn * 2 ^ pageShift = (s.board pdev).start.toNat ∧ vma.size = 0x100000 ∧
    immrbarSize ≤ (s.board pdev).len

structure MapsUsable (s : MmapState) : Prop where
  usable : Usable s.toDriverState
  maps : ∀ vma ∈ s.vmas, ShowsCard s vma

def KeepsMaps (s : MmapState) : MmapEvent → Prop
  | .driver e => KeepsUsable s.toDriverState e
  | .mmap _ _ _ _ => True
  | .munmap _ => True

/-! ## What the steps of the driver leave alone -/

section Driver

variable {s : DriverState} {pdev : PciDev} {inp : ProbeInput}

/-- A clean probe binds no card, or its own with the `host_priv` of what it found. -/
theorem probe_heap (hoffer : s.Offers pdev inp)
    (hkeep : KeepsUsable s (.probe pdev inp)) :
    let s' := DriverEvent.step s (.probe pdev inp)
    (∀ a, (s.heap a).isSome → s'.heap a = s.heap a) ∧ s'.files = s.files ∧
      ∀ pdev' ∈ s'.bound, pdev' ∈ s.bound ∧ s'.drvdata pdev' = s.drvdata pdev' ∨
        pdev' = pdev ∧ inp.board.Completes ∧
          ∃ i, s'.heap (s'.drvdata pdev) = some (inp.board.hostPriv i) := by
  have hlive : ∀ a, (s.heap a).isSome → a ≠ inp.kmalloc := by
    intro a ha heq
    rw [heq, hoffer.kmalloc] at ha
    cases ha
  cases hfree : freeSlot s.priv with
  | none =>
    rw [DriverEvent.step, Host.probe_of_full hfree]
    exact ⟨fun _ _ => rfl, rfl, fun _ hb => .inl ⟨hb, rfl⟩⟩
  | some i =>
    obtain ⟨hk, hbar⟩ := hkeep ⟨i, priv_of_freeSlot hfree⟩
    by_cases hcompletes : inp.board.Completes
    · rw [DriverEvent.step, Host.probe_of_completes hfree hk hcompletes]
      refine ⟨fun a ha => Function.update_of_ne (hlive a ha) _ _, rfl, fun pdev' hb => ?_⟩
      rcases Finset.mem_insert.mp hb with rfl | hb
      · refine .inr ⟨rfl, hcompletes, i, ?_⟩
        simp
      · exact .inl ⟨hb, Function.update_of_ne (UsableInv.bound_ne_of_offers hoffer hb) _ _⟩
    · have hret : (hostBoardInit (s.allocated inp.kmalloc) inp.kmalloc pdev i inp.board).2 ≠ 0 := by
        intro hret
        obtain ⟨henable, hret⟩ := hostBoardInit_eq_zero_iff.mp hret
        exact hret.elim (hbar henable) hcompletes
      rw [DriverEvent.step, Host.probe_of_init_fails hfree hk rfl hret]
      refine ⟨fun a ha => ?_, rfl, fun pdev' hb => ?_⟩
      · have hne := hlive a ha
        show Function.update (hostBoardInit (s.allocated inp.kmalloc) inp.kmalloc pdev i
          inp.board).1.heap inp.kmalloc none a = s.heap a
        rw [Function.update_of_ne hne, hostBoardInit_heap hne]
        exact Function.update_of_ne hne _ _
      · exact .inl ⟨hb, Function.update_of_ne (UsableInv.bound_ne_of_offers hoffer hb) _ _⟩

end Driver

/-! ## The invariant -/

/-- A `host_priv` has the address that the probe found, where there is enough memory. -/
structure KnowsBar (priv : Option HostPriv) (board : BoardInput) : Prop where
  address : ∀ p, priv = some p → p.mImmrbarPhyAddr = board.start
  aligned : board.start.toNat % 2 ^ pageShift = 0
  len : immrbarSize ≤ board.len

/-- A mapping holds a file, and was made from its `host_priv`. -/
structure HeldBy (s : MmapState) (vma : Vma) : Prop where
  file : vma.privateData ∈ s.files
  pfn : ∀ p, s.heap vma.privateData = some p →
    vma.pfn = p.mImmrbarPhyAddr.toNat >>> pageShift
  size : vma.size = 0x100000

structure MmapInv (s : MmapState) : Prop where
  usable : UsableInv s.toDriverState
  cards : ∀ pdev ∈ s.bound, KnowsBar (s.heap (s.drvdata pdev)) (s.board pdev)
  vmas : ∀ vma ∈ s.vmas, HeldBy s vma

namespace MmapInv

variable {s : MmapState}

theorem start : MmapInv MmapState.start where
  usable := UsableInv.start
  cards _ hb := absurd hb (Finset.notMem_empty _)
  vmas _ hv := nomatch hv

theorem mapsUsable (h : MmapInv s) : MapsUsable s where
  usable := h.usable.usable
  maps vma hv := by
    obtain ⟨hfile, hpfn, hsize⟩ := h.vmas vma hv
    obtain ⟨p, hp⟩ := Option.isSome_iff_exists.mp (h.usable.files _ hfile)
    obtain ⟨pdev, hb, hdrv⟩ := h.usable.owner _ p hp
    obtain ⟨haddress, haligned, hlen⟩ := h.cards pdev hb
    rw [hdrv] at haddress
    refine ⟨pdev, hb, hdrv, ?_, hsize, hlen⟩
    rw [hpfn p hp, haddress p hp, Nat.shiftRight_eq_div_pow]
    exact Nat.div_mul_cancel (Nat.dvd_of_mod_eq_zero haligned)

/-- A mapping stays what it is while its file stays open and its `host_priv` as it was. -/
theorem heldBy_of_eq (h : MmapInv s) {s' : MmapState} {vma : Vma} (hv : vma ∈ s.vmas)
    (hfile : vma.privateData ∈ s'.files)
    (hheap : s'.heap vma.privateData = s.heap vma.privateData) : HeldBy s' vma where
  file := hfile
  pfn p hp := (h.vmas vma hv).pfn p (hheap ▸ hp)
  size := (h.vmas vma hv).size

theorem isSome_drvdata (h : MmapInv s) {pdev : PciDev} (hb : pdev ∈ s.bound) :
    (s.heap (s.drvdata pdev)).isSome := by
  obtain ⟨p, hp, -⟩ := (h.usable.cards pdev hb).live
  rw [hp, Option.isSome_some]

theorem probe (h : MmapInv s) {pdev : PciDev} {inp : ProbeInput}
    (hoffer : s.Offers pdev inp) (halign : s.Permits (.probe pdev inp))
    (hkeep : KeepsUsable s.toDriverState (.probe pdev inp)) :
    MmapInv (MmapEvent.step s (.driver (.probe pdev inp))) := by
  obtain ⟨hheap, hfiles, hbound⟩ := probe_heap hoffer hkeep
  refine ⟨h.usable.probe hoffer hkeep, fun pdev' hb => ?_, fun vma hv => ?_⟩
  · show KnowsBar ((DriverEvent.step s.toDriverState (.probe pdev inp)).heap
      ((DriverEvent.step s.toDriverState (.probe pdev inp)).drvdata pdev'))
      (Function.update s.board pdev inp.board pdev')
    rcases hbound pdev' hb with ⟨hold, hdrv⟩ | ⟨rfl, hcompletes, i, hnew⟩
    · rw [hdrv, hheap _ (h.isSome_drvdata hold),
        Function.update_of_ne (UsableInv.bound_ne_of_offers hoffer hold)]
      exact h.cards pdev' hold
    · rw [hnew, Function.update_self]
      refine ⟨fun p hp => ?_, halign hcompletes, hcompletes.len⟩
      cases hp
      rfl
  · have hfile := (h.vmas vma hv).file
    refine h.heldBy_of_eq hv ?_ (hheap _ (h.usable.files _ hfile))
    show vma.privateData ∈ (DriverEvent.step s.toDriverState (.probe pdev inp)).files
    rwa [hfiles]

theorem remove (h : MmapInv s) {pdev : PciDev} (hb : pdev ∈ s.bound)
    (hkeep : KeepsUsable s.toDriverState (.remove pdev)) :
    MmapInv (MmapEvent.step s (.driver (.remove pdev))) := by
  obtain ⟨p, hp, -⟩ := (h.usable.cards pdev hb).live
  refine ⟨h.usable.remove hb hkeep, fun pdev' hb' => ?_, fun vma hv => ?_⟩
  · change pdev' ∈ (s.toHost.remove pdev).bound at hb'
    rw [Host.remove_of_live hp] at hb'
    obtain ⟨hne, hold⟩ := Finset.mem_erase.mp hb'
    show KnowsBar ((s.toHost.remove pdev).heap ((s.toHost.remove pdev).drvdata pdev'))
      (s.board pdev')
    rw [Host.remove_of_live hp]
    show KnowsBar (Function.update s.heap (s.drvdata pdev) none
      (Function.update s.drvdata pdev 0 pdev')) (s.board pdev')
    rw [Function.update_of_ne hne,
      Function.update_of_ne fun heq => hne (h.usable.drvdata_inj _ hold _ hb heq)]
    exact h.cards pdev' hold
  · have hfile := (h.vmas vma hv).file
    refine h.heldBy_of_eq hv ?_ ?_
    · show vma.privateData ∈ (s.toHost.remove pdev).files
      rwa [Host.remove_of_live hp]
    · show (s.toHost.remove pdev).heap vma.privateData = s.heap vma.privateData
      rw [Host.remove_of_live hp]
      have hne : vma.privateData ≠ s.drvdata pdev := fun heq => hkeep (heq ▸ hfile)
      exact Function.update_of_ne hne _ _

/-- The other steps of the driver change neither the cards nor their `host_priv`. -/
theorem frame (h : MmapInv s) {s' : MmapState} (husable : UsableInv s'.toDriverState)
    (hheap : s'.heap = s.heap) (hbound : s'.bound = s.bound) (hdrvdata : s'.drvdata = s.drvdata)
    (hboard : s'.board = s.board) (hvmas : ∀ vma ∈ s'.vmas, HeldBy s' vma) : MmapInv s' where
  usable := husable
  cards pdev hb := by
    rw [hbound] at hb
    rw [hheap, hdrvdata, hboard]
    exact h.cards pdev hb
  vmas := hvmas

theorem driver (h : MmapInv s) {e : DriverEvent} (hen : e.Enabled s.toDriverState)
    (hpermits : s.Permits e) (hkeep : KeepsUsable s.toDriverState e) :
    MmapInv (MmapEvent.step s (.driver e)) := by
  have husable := h.usable.step hen hkeep
  cases e with
  | probe pdev inp => exact h.probe hen hpermits hkeep
  | remove pdev => exact h.remove hen hkeep
  | openNode minor =>
    by_cases hslot : s.priv minor = 0
    · have hsame : DriverEvent.step s.toDriverState (.openNode minor) = s.toDriverState := by
        rw [DriverEvent.step, hostOpen, if_pos hslot]
      rw [MmapEvent.step, hsame]
      exact h
    · have hopen : DriverEvent.step s.toDriverState (.openNode minor) =
          { s.toDriverState with files := s.files ++ [s.priv minor] } := by
        rw [DriverEvent.step, hostOpen, if_neg hslot]
      rw [hopen] at husable
      rw [MmapEvent.step, hopen]
      exact h.frame husable rfl rfl rfl rfl fun vma hv =>
        h.heldBy_of_eq hv (List.mem_append_left _ (h.vmas vma hv).file) rfl
  | closeNode privateData =>
    refine h.frame husable rfl rfl rfl rfl fun vma hv => h.heldBy_of_eq hv ?_ rfl
    show vma.privateData ∈ s.files.erase privateData
    by_cases heq : vma.privateData = privateData
    · rw [heq]
      exact hpermits ⟨vma, hv, heq⟩
    · exact (List.mem_erase_of_ne heq).mpr (h.vmas vma hv).file
  | ioctl privateData cmd =>
    have hsame : DriverEvent.step s.toDriverState (.ioctl privateData cmd) = s.toDriverState := by
      have hregs := h.usable.readRegs_eq hen
      rw [DriverEvent.step]
      cases cmd <;> simp only [Host.ioctl, hregs]
    rw [MmapEvent.step, hsame]
    exact h

theorem mmap (h : MmapInv s) {privateData : Addr} (hfile : privateData ∈ s.files)
    (vmStart vmEnd : UInt64) (ioRemapPfnRange : Int) :
    MmapInv (MmapEvent.step s (.mmap privateData vmStart vmEnd ioRemapPfnRange)) := by
  obtain ⟨p, hp⟩ := Option.isSome_iff_exists.mp (h.usable.files _ hfile)
  simp only [MmapEvent.step, hostMmap, hp]
  split_ifs with hsize hremap
  · exact h
  · exact h
  · refine h.frame h.usable rfl rfl rfl rfl fun vma hv => ?_
    rcases List.mem_append.mp hv with hold | hnew
    · exact h.heldBy_of_eq hold (h.vmas vma hold).file rfl
    · rw [List.mem_singleton.mp hnew]
      refine ⟨hfile, fun q hq => ?_, rfl⟩
      cases hp.symm.trans hq
      rfl

theorem step (h : MmapInv s) {e : MmapEvent} (hen : e.Enabled s) (hkeep : KeepsMaps s e) :
    MmapInv (MmapEvent.step s e) := by
  cases e with
  | driver e => exact h.driver hen.1 hen.2 hkeep
  | mmap privateData vmStart vmEnd ioRemapPfnRange => exact h.mmap hen vmStart vmEnd ioRemapPfnRange
  | munmap vma =>
    exact h.frame h.usable rfl rfl rfl rfl fun vma' hv =>
      h.heldBy_of_eq (List.mem_of_mem_erase hv) (h.vmas vma' (List.mem_of_mem_erase hv)).file rfl

theorem not_mapsUsable_step (h : MmapInv s) {e : MmapEvent} (hen : e.Enabled s)
    (hkeep : ¬ KeepsMaps s e) : ¬ MapsUsable (MmapEvent.step s e) := by
  cases e with
  | driver e => exact fun husable => h.usable.not_usable_step hen.1 hkeep husable.usable
  | mmap privateData vmStart vmEnd ioRemapPfnRange => exact absurd trivial hkeep
  | munmap vma => exact absurd trivial hkeep

end MmapInv

/-- In a run with any mappings, every card stays usable and every mapping shows a card that
is bound, exactly when each step of the driver keeps the cards usable. -/
theorem mapsUsable_iff_keepsMaps (es : List MmapEvent)
    (hadm : mmapMachine.Admits MmapState.start es) :
    mmapMachine.Throughout MapsUsable MmapState.start es ↔
      mmapMachine.Along KeepsMaps MmapState.start es :=
  Machine.throughout_iff_along (I := MmapInv) (fun _ h => h.mapsUsable)
    (fun _ _ h hen hkeep => h.step hen hkeep)
    (fun _ _ h hen hkeep => h.not_mapsUsable_step hen hkeep)
    MmapInv.start hadm

theorem maxPtpPci_pos : 0 < maxPtpPci := by decide

/-- The mapping keeps the file open after a refused `mmap`, and the card is removed only
after both are gone. -/
def mapCard : List MmapEvent :=
  [.driver (.probe 0 goodProbe), .driver (.openNode ⟨0, maxPtpPci_pos⟩), .mmap 64 0 4096 0,
    .mmap 64 0x7f0000000000 0x7f0000100000 0, .munmap ⟨64, 0xf0000, 0x100000⟩,
    .driver (.closeNode 64), .driver (.remove 0)]

theorem mapsUsable_one_card : mmapMachine.Throughout MapsUsable MmapState.start mapCard := by
  refine (mapsUsable_iff_keepsMaps mapCard ⟨⟨offers_goodProbe, ?_⟩, ⟨trivial, trivial⟩, ?_, ?_,
    ?_, ⟨?_, ?_⟩, ⟨?_, trivial⟩, trivial⟩).mpr
    ⟨fun _ => ⟨by decide, fun _ => by decide⟩, fun _ => rfl, trivial, trivial, trivial, trivial,
      List.not_mem_nil, trivial⟩
  · intro _
    show (0xf0000000 : UInt32).toNat % 2 ^ pageShift = 0
    decide
  · exact List.mem_singleton.mpr rfl
  · exact List.mem_singleton.mpr rfl
  · exact List.mem_singleton.mpr rfl
  · exact List.mem_singleton.mpr rfl
  · rintro ⟨vma, hv, -⟩
    cases hv
  · exact Finset.mem_singleton.mpr rfl

end TimeTools.Driver
