import Mathlib.Data.Fintype.Card
import TimeTools.Driver.Board
import TimeTools.Foundation.Run

/-!
# The slot table

`priv` maps a minor to the `host_priv` of the card that has it.  A probe fills a
slot before it knows whether the card will be bound, and neither a failed probe
nor a removal empties the slot again.  So the table is right only as long as no
card leaves and every probe that finds a slot ends with its card bound
(`slotTable_iff_keepsTable`).
-/

namespace TimeTools.Driver

inductive SlotEvent
  | probe (pdev : PciDev) (inp : ProbeInput)
  | remove (pdev : PciDev)
  | openNode (minor : Minor)

namespace SlotEvent

def Enabled (s : Host) : SlotEvent → Prop
  | .probe pdev inp => s.Offers pdev inp
  | .remove pdev => pdev ∈ s.bound
  | .openNode _ => True

def step (s : Host) : SlotEvent → Host
  | .probe pdev inp => s.probe pdev inp
  | .remove pdev => s.remove pdev
  | .openNode minor => (hostOpen s minor).1

end SlotEvent

def slotMachine : Machine Host SlotEvent where
  init := .start
  enabled := SlotEvent.Enabled
  step := SlotEvent.step

/-- What the table promises.  A slot belongs to the card whose probe left its loop
with that index.  `host_probe` passes on what `pci_enable_device` returns, so a probe
that finds a slot may return `-EBUSY` too; `busy` is about the `-EBUSY` of its own. -/
structure SlotTable (s : Host) : Prop where
  occupied : ∀ i, s.priv i ≠ 0 ↔ ∃ pdev ∈ s.bound, s.slot pdev = some i
  pointsTo : ∀ pdev ∈ s.bound, ∀ i, s.slot pdev = some i →
    s.priv i = s.drvdata pdev ∧ ∃ p, s.heap (s.priv i) = some p ∧ p.minor = i
  minor_unique : ∀ pdev ∈ s.bound, ∀ pdev' ∈ s.bound, s.slot pdev = s.slot pdev' → pdev = pdev'
  open_live : ∀ i, (hostOpen s i).2 = 0 →
    ∃ a, (hostOpen s i).1.files = s.files ++ [a] ∧ (s.heap a).isSome
  busy : ∀ pdev inp, inp.board.pciEnableDevice ≠ -ebusy → (hostProbe s pdev inp).2 = -ebusy →
    maxPtpPci ≤ s.bound.card

/-- No card leaves, and a probe that finds a slot gets its memory and a
`host_board_init` that succeeds or finds no base address. -/
def KeepsTable (s : Host) : SlotEvent → Prop
  | .probe _ inp => (∃ i, s.priv i = 0) →
    inp.kmalloc ≠ 0 ∧ inp.board.pciEnableDevice = 0 ∧ (inp.board.bar1 = 0 ∨ inp.board.Completes)
  | .remove _ => False
  | .openNode _ => True

structure SlotInv (s : Host) : Prop where
  null : s.heap 0 = none
  placed : ∀ pdev ∈ s.bound, ∃ i, s.slot pdev = some i ∧ s.priv i = s.drvdata pdev ∧
    ∃ p, s.heap (s.drvdata pdev) = some p ∧ p.minor = i
  owned : ∀ i, s.priv i ≠ 0 → ∃ pdev ∈ s.bound, s.slot pdev = some i
  unique : ∀ pdev ∈ s.bound, ∀ pdev' ∈ s.bound, s.slot pdev = s.slot pdev' → pdev = pdev'

namespace SlotInv

variable {s : Host} {pdev : PciDev} {inp : ProbeInput}

theorem start : SlotInv Host.start where
  null := rfl
  placed _ h := absurd h (Finset.notMem_empty _)
  owned _ h := absurd rfl h
  unique _ h := absurd h (Finset.notMem_empty _)

theorem priv_ne_zero (h : SlotInv s) (hbound : pdev ∈ s.bound) {i : Minor}
    (hslot : s.slot pdev = some i) : s.priv i ≠ 0 := by
  intro hzero
  obtain ⟨j, hj, hpriv, p, hlive, -⟩ := h.placed pdev hbound
  obtain rfl : i = j := Option.some.inj (hslot.symm.trans hj)
  rw [← hpriv, hzero, h.null] at hlive
  cases hlive

/-- Slots and bound cards correspond, so a full table means a card for each minor. -/
theorem card_of_full (h : SlotInv s) (hfull : ∀ i, s.priv i ≠ 0) :
    maxPtpPci ≤ s.bound.card := by
  choose card hbound hslot using fun i => h.owned i (hfull i)
  have hinj : Function.Injective card := by
    intro i j hij
    have hj := hslot j
    rw [← hij, hslot i] at hj
    exact Option.some.inj hj
  calc maxPtpPci = (Finset.univ.map ⟨card, hinj⟩).card := by
        rw [Finset.card_map, Finset.card_univ, Fintype.card_fin]
    _ ≤ s.bound.card := Finset.card_le_card (by
        intro pdev hpdev
        obtain ⟨i, -, rfl⟩ := Finset.mem_map.mp hpdev
        exact hbound i)

theorem slotTable (h : SlotInv s) : SlotTable s where
  occupied i := by
    refine ⟨h.owned i, ?_⟩
    intro howned
    obtain ⟨pdev, hbound, hslot⟩ := howned
    exact h.priv_ne_zero hbound hslot
  pointsTo pdev hbound i hslot := by
    obtain ⟨j, hj, hpriv, p, hlive, hminor⟩ := h.placed pdev hbound
    obtain rfl : i = j := Option.some.inj (hslot.symm.trans hj)
    exact ⟨hpriv, p, hpriv ▸ hlive, hminor⟩
  minor_unique := h.unique
  open_live i hopen := by
    by_cases hi : s.priv i = 0
    · rw [hostOpen, if_pos hi] at hopen
      exact absurd (show -enodev = 0 from hopen) (by decide)
    · obtain ⟨pdev, hbound, hslot⟩ := h.owned i hi
      obtain ⟨j, hj, hpriv, p, hlive, -⟩ := h.placed pdev hbound
      obtain rfl : i = j := Option.some.inj (hslot.symm.trans hj)
      refine ⟨s.priv i, by rw [hostOpen, if_neg hi], ?_⟩
      rw [hpriv, hlive, Option.isSome_some]
  busy pdev inp henable hret :=
    h.card_of_full (freeSlot_eq_none_iff.mp (freeSlot_of_busy henable hret))

theorem probe (h : SlotInv s) (hoffer : s.Offers pdev inp)
    (hkeep : KeepsTable s (.probe pdev inp)) : SlotInv (s.probe pdev inp) := by
  cases hfree : freeSlot s.priv with
  | none => rwa [Host.probe_of_full hfree]
  | some i =>
    have hi := priv_of_freeSlot hfree
    obtain ⟨hk, henable, hinit⟩ := hkeep ⟨i, hi⟩
    have hret : (hostBoardInit (s.allocated inp.kmalloc) inp.kmalloc pdev i inp.board).2 = 0 :=
      hostBoardInit_eq_zero_iff.mpr ⟨henable, hinit⟩
    rw [Host.probe_of_init_succeeds hfree hk (Prod.ext rfl hret)]
    have hheap : ∀ a, a ≠ inp.kmalloc →
        (hostBoardInit (s.allocated inp.kmalloc) inp.kmalloc pdev i inp.board).1.heap a =
          s.heap a := by
      intro a ha
      rw [hostBoardInit_heap ha]
      simp [Host.allocated, Function.update_of_ne ha]
    have hold : ∀ pdev' ∈ s.bound, pdev' ≠ pdev := fun _ hb hp => hoffer.unbound (hp ▸ hb)
    refine ⟨?_, ?_, ?_, ?_⟩
    · simp [Function.update_of_ne hk.symm, hheap 0 hk.symm, h.null]
    · intro pdev' hbound
      rcases Finset.mem_insert.mp hbound with rfl | hb
      · exact ⟨i, by simp, by simp, _, by simp; rfl, rfl⟩
      · have hne := hold pdev' hb
        obtain ⟨j, hslot, hpriv, p, hlive, hminor⟩ := h.placed pdev' hb
        have hka : s.drvdata pdev' ≠ inp.kmalloc := by
          intro hka
          rw [hka, hoffer.kmalloc] at hlive
          cases hlive
        have hji : j ≠ i := by
          intro hji
          exact h.priv_ne_zero hb (hji ▸ hslot) hi
        refine ⟨j, ?_, ?_, p, ?_, hminor⟩
        · simpa [Function.update_of_ne hne] using hslot
        · simpa [Function.update_of_ne hne, Function.update_of_ne hji] using hpriv
        · simpa [Function.update_of_ne hne, Function.update_of_ne hka, hheap _ hka] using hlive
    · intro j hj
      by_cases hji : j = i
      · subst hji
        exact ⟨pdev, Finset.mem_insert_self _ _, by simp⟩
      · obtain ⟨pdev', hb, hslot⟩ := h.owned j (by simpa [Function.update_of_ne hji] using hj)
        exact ⟨pdev', Finset.mem_insert_of_mem hb,
          by simpa [Function.update_of_ne (hold pdev' hb)] using hslot⟩
    · have hother : ∀ pdev' ∈ s.bound, s.slot pdev' ≠ some i :=
        fun pdev' hb hslot => h.priv_ne_zero hb hslot hi
      intro pdev₁ h₁ pdev₂ h₂ hslot
      change Function.update s.slot pdev (some i) pdev₁ =
        Function.update s.slot pdev (some i) pdev₂ at hslot
      rcases Finset.mem_insert.mp h₁ with rfl | hb₁ <;>
        rcases Finset.mem_insert.mp h₂ with rfl | hb₂
      · rfl
      · rw [Function.update_self, Function.update_of_ne (hold _ hb₂)] at hslot
        exact absurd hslot.symm (hother _ hb₂)
      · rw [Function.update_self, Function.update_of_ne (hold _ hb₁)] at hslot
        exact absurd hslot (hother _ hb₁)
      · rw [Function.update_of_ne (hold _ hb₁), Function.update_of_ne (hold _ hb₂)] at hslot
        exact h.unique _ hb₁ _ hb₂ hslot

theorem not_slotTable_remove (h : SlotInv s) (hbound : pdev ∈ s.bound) :
    ¬ SlotTable (s.remove pdev) := by
  obtain ⟨i, hslot, hpriv, p, hlive, -⟩ := h.placed pdev hbound
  rw [Host.remove_of_live hlive]
  intro htable
  obtain ⟨pdev', hbound', hslot'⟩ := (htable.occupied i).mp (h.priv_ne_zero hbound hslot)
  obtain ⟨hne, hb'⟩ := Finset.mem_erase.mp hbound'
  change Function.update s.slot pdev none pdev' = some i at hslot'
  rw [Function.update_of_ne hne] at hslot'
  exact hne (h.unique _ hb' _ hbound (hslot'.trans hslot.symm))

/-- A probe without memory binds its card to an empty slot, and a probe whose
`host_board_init` fails fills the slot of no card. -/
theorem not_slotTable_probe (h : SlotInv s) (hkeep : ¬ KeepsTable s (.probe pdev inp)) :
    ¬ SlotTable (s.probe pdev inp) := by
  rw [KeepsTable, Classical.not_imp] at hkeep
  obtain ⟨⟨j, hj⟩, hfail⟩ := hkeep
  cases hfree : freeSlot s.priv with
  | none => exact absurd hj (freeSlot_eq_none_iff.mp hfree j)
  | some i =>
    have hi := priv_of_freeSlot hfree
    intro htable
    by_cases hk : inp.kmalloc = 0
    · rw [Host.probe_of_kmalloc_fails hfree hk] at htable
      have hoccupied := (htable.occupied i).mpr
        ⟨pdev, Finset.mem_insert_self _ _, Function.update_self (f := s.slot) _ _⟩
      exact hoccupied (Function.update_self (f := s.priv) _ _)
    · have hret : (hostBoardInit (s.allocated inp.kmalloc) inp.kmalloc pdev i inp.board).2 ≠ 0 :=
        fun hret => hfail ⟨hk, hostBoardInit_eq_zero_iff.mp hret⟩
      rw [Host.probe_of_init_fails hfree hk rfl hret] at htable
      obtain ⟨pdev', hb, hslot⟩ := (htable.occupied i).mp (by
        show Function.update s.priv i inp.kmalloc i ≠ 0
        rwa [Function.update_self])
      exact h.priv_ne_zero hb hslot hi

theorem step (h : SlotInv s) {e : SlotEvent} (hen : e.Enabled s) (hkeep : KeepsTable s e) :
    SlotInv (SlotEvent.step s e) := by
  cases e with
  | probe pdev inp => exact h.probe hen hkeep
  | remove pdev => exact hkeep.elim
  | openNode minor =>
    rw [SlotEvent.step, hostOpen]
    split
    · exact h
    · exact ⟨h.null, h.placed, h.owned, h.unique⟩

theorem not_slotTable_step (h : SlotInv s) {e : SlotEvent} (hen : e.Enabled s)
    (hkeep : ¬ KeepsTable s e) : ¬ SlotTable (SlotEvent.step s e) := by
  cases e with
  | probe pdev inp => exact h.not_slotTable_probe hkeep
  | remove pdev => exact h.not_slotTable_remove hen
  | openNode minor => exact absurd trivial hkeep

end SlotInv

/-- The table keeps its promise in every state of a run exactly when every step
keeps the table. -/
theorem slotTable_iff_keepsTable (es : List SlotEvent)
    (hadm : slotMachine.Admits Host.start es) :
    slotMachine.Throughout SlotTable Host.start es ↔
      slotMachine.Along KeepsTable Host.start es :=
  Machine.throughout_iff_along (I := SlotInv) (fun _ h => h.slotTable)
    (fun _ _ h hen hkeep => h.step hen hkeep)
    (fun _ _ h hen hkeep => h.not_slotTable_step hen hkeep)
    SlotInv.start hadm

def badProbe : ProbeInput := { goodProbe with board.pciEnableDevice := -eio }

theorem start_offers_goodProbe : Host.start.Offers 0 goodProbe :=
  ⟨by decide, rfl, by decide, by decide, by decide, by decide, by decide⟩

theorem start_offers_badProbe : Host.start.Offers 0 badProbe :=
  ⟨by decide, rfl, by decide, by decide, by decide, by decide, by decide⟩

theorem keepsTable_goodProbe : KeepsTable Host.start (.probe 0 goodProbe) :=
  fun _ => ⟨by decide, rfl, .inr completes_goodProbe⟩

theorem slotTable_one_card :
    slotMachine.Throughout SlotTable Host.start [.probe 0 goodProbe, .openNode 0] :=
  (slotTable_iff_keepsTable [.probe 0 goodProbe, .openNode 0]
    ⟨start_offers_goodProbe, trivial, trivial⟩).mpr ⟨keepsTable_goodProbe, trivial, trivial⟩

theorem not_slotTable_after_free :
    (slotMachine.Admits Host.start [.probe 0 goodProbe, .remove 0] ∧
      ¬ slotMachine.Throughout SlotTable Host.start [.probe 0 goodProbe, .remove 0]) ∧
    (slotMachine.Admits Host.start [.probe 0 badProbe] ∧
      ¬ slotMachine.Throughout SlotTable Host.start [.probe 0 badProbe]) := by
  have hbound : 0 ∈ (Host.start.probe 0 goodProbe).bound := by decide
  have hinv := SlotInv.start.probe start_offers_goodProbe keepsTable_goodProbe
  refine ⟨⟨⟨start_offers_goodProbe, hbound, trivial⟩, fun h => ?_⟩,
    ⟨⟨start_offers_badProbe, trivial⟩, fun h => ?_⟩⟩
  · exact hinv.not_slotTable_remove hbound h.2.2
  · have hfail : ¬ KeepsTable Host.start (.probe 0 badProbe) :=
      fun hkeep => absurd (hkeep ⟨0, rfl⟩).2.1 (by decide)
    exact SlotInv.start.not_slotTable_probe hfail h.2

/-! ## A slot is never given back -/

/-- A probe that gets memory for its `host_priv`, if it comes to ask for it. -/
def Allocates : SlotEvent → Bool
  | .probe _ inp => inp.kmalloc ≠ 0
  | _ => false

/-- The first `n` slots are taken, and no other. -/
def FirstTaken (n : Nat) (s : Host) : Prop := ∀ i, s.priv i ≠ 0 ↔ i.val < n

namespace FirstTaken

variable {n : Nat} {s : Host}

theorem freeSlot_of_lt (h : FirstTaken n s) (hn : n < maxPtpPci) :
    freeSlot s.priv = some ⟨n, hn⟩ := by
  rw [freeSlot, List.find?_eq_some_iff_getElem]
  have hempty : s.priv ⟨n, hn⟩ = 0 := by
    by_contra hne
    exact lt_irrefl n ((h ⟨n, hn⟩).mp hne)
  refine ⟨by simpa using hempty, n, by simpa using hn, by simp, fun j hj => ?_⟩
  have htaken := (h ⟨j, hj.trans hn⟩).mpr hj
  simpa using htaken

theorem freeSlot_of_le (h : FirstTaken n s) (hn : maxPtpPci ≤ n) : freeSlot s.priv = none :=
  freeSlot_eq_none_iff.mpr fun i => (h i).mpr (lt_of_lt_of_le i.isLt hn)

theorem remove_priv (s : Host) (pdev : PciDev) : (s.remove pdev).priv = s.priv := by
  rw [Host.remove, hostRemove]
  split
  · rfl
  · rename_i hsome
    split at hsome
    · cases hsome
    · rw [← Option.some.inj hsome]

theorem openNode_priv (s : Host) (minor : Minor) : (hostOpen s minor).1.priv = s.priv := by
  rw [hostOpen]
  split <;> rfl

/-- Whatever comes of a probe, the address that `kmalloc` gave stays in its slot. -/
theorem probe_priv {i : Minor} (h : freeSlot s.priv = some i) (pdev : PciDev) (inp : ProbeInput) :
    (s.probe pdev inp).priv = Function.update s.priv i inp.kmalloc := by
  by_cases hk : inp.kmalloc = 0
  · rw [Host.probe_of_kmalloc_fails h hk, hk]
  by_cases hret : (hostBoardInit (s.allocated inp.kmalloc) inp.kmalloc pdev i inp.board).2 = 0
  · rw [Host.probe_of_init_succeeds h hk (Prod.ext rfl hret)]
  · rw [Host.probe_of_init_fails h hk rfl hret]

theorem probe (h : FirstTaken n s) (pdev : PciDev) (inp : ProbeInput) :
    FirstTaken (n + if inp.kmalloc ≠ 0 then 1 else 0) (s.probe pdev inp) := by
  by_cases hn : n < maxPtpPci
  · have hfree := h.freeSlot_of_lt hn
    intro i
    rw [probe_priv hfree]
    by_cases hi : i = ⟨n, hn⟩
    · subst hi
      rw [Function.update_self]
      split <;> simp_all
    · have hne : i.val ≠ n := fun heq => hi (Fin.ext heq)
      rw [Function.update_of_ne hi, h i]
      split <;> omega
  · have hfull := h.freeSlot_of_le (not_lt.mp hn)
    rw [Host.probe_of_full hfull]
    intro i
    have hlt : i.val < n := lt_of_lt_of_le i.isLt (not_lt.mp hn)
    have htaken := (h i).mpr hlt
    exact ⟨fun _ => by omega, fun _ => htaken⟩

theorem step (h : FirstTaken n s) (e : SlotEvent) :
    FirstTaken (n + if Allocates e then 1 else 0) (SlotEvent.step s e) := by
  cases e with
  | probe pdev inp =>
    simp only [Allocates, decide_eq_true_eq]
    exact h.probe pdev inp
  | remove pdev =>
    intro i
    rw [SlotEvent.step, remove_priv]
    exact h i
  | openNode minor =>
    intro i
    rw [SlotEvent.step, openNode_priv]
    exact h i

theorem run (h : FirstTaken n s) (es : List SlotEvent) :
    FirstTaken (n + es.countP Allocates) (slotMachine.run s es) := by
  induction es generalizing n s with
  | nil => exact h
  | cons e es ih =>
    have hrest := ih (h.step e)
    rw [List.countP_cons, Nat.add_comm (es.countP Allocates), ← Nat.add_assoc]
    exact hrest

end FirstTaken

/-- The probes of a run that get memory fill the slots in order, whether they end with
their card bound or not, and no removal gives a slot back.  So the next probe gets the
slot after them, and from the eighth on every probe is refused and changes nothing. -/
theorem slots_never_reused (es : List SlotEvent) :
    let s := slotMachine.run Host.start es
    let n := es.countP Allocates
    (∀ i, s.priv i ≠ 0 ↔ i.val < n) ∧
      (∀ hn : n < maxPtpPci, freeSlot s.priv = some ⟨n, hn⟩) ∧
      (maxPtpPci ≤ n → ∀ pdev inp, hostProbe s pdev inp = (s, -ebusy)) := by
  intro s n
  have hstart : FirstTaken 0 Host.start := fun i => by simp [Host.start]
  have htaken : FirstTaken n s := by
    have hrun := hstart.run es
    rwa [Nat.zero_add] at hrun
  refine ⟨htaken, fun hn => htaken.freeSlot_of_lt hn, fun hn pdev inp => ?_⟩
  rw [hostProbe, htaken.freeSlot_of_le hn]

end TimeTools.Driver
