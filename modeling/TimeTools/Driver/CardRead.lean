import Mathlib.Logic.Function.Basic
import TimeTools.Driver.Ioctl
import TimeTools.Foundation.Run

/-!
# Reading a counter that moves

`HOST_GET_PCIE_TIME` and `HOST_GET_OFFSET` assemble the counter from two register
reads, and nothing keeps the counter or other callers out between them:
`local_irq_save` covers the first read only, and the `lock` of `host_priv` is
never taken.  Here one step is one register read of one process, or a move of the
counter.

A reader carries the values that the counter has held since its first read.  They
are part of no register; they are there to say what it may have assembled.
-/

namespace TimeTools.Driver

/-- Where `TMR_CNT_H` takes its value from: the counter at that moment, or one
shadow register that every read of `TMR_CNT_L` reloads. -/
inductive RegModel
  | live
  | shadow
  deriving DecidableEq, Repr

/-- A process with respect to the two reads of its ioctl.  `held` lists the values
of the counter from the first read on. -/
inductive Reader
  | outside
  | betweenReads (cmd : Cmd) (tmrCnt : UInt64) (held : List UInt64)
  | assembled (cmd : Cmd) (tmrCnt : UInt64) (held : List UInt64)
  deriving DecidableEq, Repr

structure Card where
  counter : UInt64
  shadow : UInt32
  readers : Nat → Reader

inductive CardEvent
  | tick (counter : UInt64)
  | readLow (p : Nat) (cmd : Cmd)
  | readHigh (p : Nat)
  deriving DecidableEq, Repr

namespace Reader

def Pending : Reader → Prop
  | .betweenReads _ _ _ => True
  | _ => False

theorem pending_iff {r : Reader} :
    r.Pending ↔ ∃ cmd tmrCnt held, r = .betweenReads cmd tmrCnt held := by
  cases r <;> simp [Pending]

def observe (c : UInt64) : Reader → Reader
  | .betweenReads cmd tmrCnt held => .betweenReads cmd tmrCnt (held ++ [c])
  | r => r

theorem observe_eq_betweenReads {r : Reader} {c : UInt64} {cmd : Cmd} {tmrCnt : UInt64}
    {held : List UInt64} (h : r.observe c = .betweenReads cmd tmrCnt held) :
    ∃ since, r = .betweenReads cmd tmrCnt since ∧ held = since ++ [c] := by
  cases r with
  | outside => cases h
  | assembled cmd' cnt' held' => cases h
  | betweenReads cmd' cnt' since =>
    cases h
    exact ⟨since, rfl, rfl⟩

theorem observe_eq_assembled {r : Reader} {c : UInt64} {cmd : Cmd} {tmrCnt : UInt64}
    {held : List UInt64} (h : r.observe c = .assembled cmd tmrCnt held) :
    r = .assembled cmd tmrCnt held := by
  cases r with
  | outside => cases h
  | betweenReads cmd' cnt' since => cases h
  | assembled cmd' cnt' held' => exact h

end Reader

namespace Card

def start (c : UInt64) : Card := { counter := c, shadow := 0, readers := fun _ => .outside }

def highReg (m : RegModel) (s : Card) : UInt32 :=
  match m with
  | .live => (Regs.ofCounter s.counter).tmrCntH
  | .shadow => s.shadow

def step (m : RegModel) (s : Card) : CardEvent → Card
  | .tick c => { s with counter := c, readers := fun p => (s.readers p).observe c }
  | .readLow p cmd =>
    let regs := Regs.ofCounter s.counter
    { s with
      shadow := regs.tmrCntH
      readers := Function.update s.readers p
        (.betweenReads cmd (lowWord regs.tmrCntL) [s.counter]) }
  | .readHigh p =>
    match s.readers p with
    | .betweenReads cmd tmrCnt held =>
      { s with
        readers := Function.update s.readers p
          (.assembled cmd (withHighWord tmrCnt (highReg m s)) held) }
    | _ => s

/-- The counter only moves forward, and a process makes its reads in order, in one
of the two commands that use the counter. -/
def Enabled (s : Card) : CardEvent → Prop
  | .tick c => s.counter < c
  | .readLow p cmd => ¬ (s.readers p).Pending ∧ (cmd = .hostGetPcieTime ∨ cmd = .hostGetOffset)
  | .readHigh p => (s.readers p).Pending

def machine (m : RegModel) (c : UInt64) : Machine Card CardEvent where
  init := start c
  enabled := Enabled
  step := step m

def Untorn (s : Card) : Prop :=
  ∀ p cmd tmrCnt held, s.readers p = .assembled cmd tmrCnt held → tmrCnt ∈ held

def SomePending (s : Card) : Prop := ∃ p, (s.readers p).Pending

/-- The high word under a pending process does not change.  A live register may
change it by a carry, a shadow register by the latch of another process. -/
def KeepsHigh (m : RegModel) (s : Card) : CardEvent → Prop
  | .tick c => m = .live → s.SomePending → c >>> 32 = s.counter >>> 32
  | .readLow _ _ => m = .shadow → s.SomePending → (Regs.ofCounter s.counter).tmrCntH = s.shadow
  | .readHigh _ => True

/-- A pending process has the low word of a value the counter has held since, and
the high word it would read now belongs to the same value. -/
structure Coherent (m : RegModel) (s : Card) : Prop where
  pending : ∀ p cmd tmrCnt held, s.readers p = .betweenReads cmd tmrCnt held →
    ∃ c ∈ held, tmrCnt = lowWord (Regs.ofCounter c).tmrCntL ∧
      highReg m s = (Regs.ofCounter c).tmrCntH
  untorn : s.Untorn

variable {m : RegModel} {s : Card}

theorem coherent_start (m : RegModel) (c : UInt64) : Coherent m (start c) where
  pending _ _ _ _ h := by cases h
  untorn _ _ _ _ h := by cases h

theorem readers_step_readHigh {p : Nat} {cmd : Cmd} {tmrCnt : UInt64} {held : List UInt64}
    (hp : s.readers p = .betweenReads cmd tmrCnt held) :
    (step m s (.readHigh p)).readers =
      Function.update s.readers p (.assembled cmd (withHighWord tmrCnt (highReg m s)) held) := by
  simp only [step, hp]

theorem highReg_step_readHigh (m : RegModel) (s : Card) (p : Nat) :
    highReg m (step m s (.readHigh p)) = highReg m s := by
  simp only [step]
  split
  · cases m <;> rfl
  · rfl

theorem coherent_tick (h : Coherent m s) {c : UInt64} (hkeep : s.KeepsHigh m (.tick c)) :
    Coherent m (step m s (.tick c)) where
  pending p cmd tmrCnt held hp := by
    obtain ⟨since, hr, rfl⟩ := Reader.observe_eq_betweenReads hp
    obtain ⟨c₀, hmem, hlow, hhigh⟩ := h.pending p cmd tmrCnt since hr
    refine ⟨c₀, List.mem_append_left _ hmem, hlow, ?_⟩
    cases m with
    | shadow => exact hhigh
    | live =>
      have hsame := hkeep rfl ⟨p, by rw [hr]; trivial⟩
      rw [← hhigh]
      simp only [highReg, step, Regs.ofCounter, hsame]
  untorn p cmd tmrCnt held hp :=
    h.untorn p cmd tmrCnt held (Reader.observe_eq_assembled hp)

theorem coherent_readLow (h : Coherent m s) {p : Nat} {cmd : Cmd}
    (hkeep : s.KeepsHigh m (.readLow p cmd)) : Coherent m (step m s (.readLow p cmd)) where
  pending q cmd' tmrCnt held hq := by
    simp only [step] at hq
    by_cases hqp : q = p
    · subst hqp
      rw [Function.update_self] at hq
      cases hq
      refine ⟨s.counter, List.mem_singleton_self _, rfl, ?_⟩
      cases m <;> rfl
    · rw [Function.update_of_ne hqp] at hq
      obtain ⟨c, hmem, hlow, hhigh⟩ := h.pending q cmd' tmrCnt held hq
      refine ⟨c, hmem, hlow, ?_⟩
      cases m with
      | live => exact hhigh
      | shadow =>
        have hsame := hkeep rfl ⟨q, by rw [hq]; trivial⟩
        exact hsame.trans hhigh
  untorn q cmd' tmrCnt held hq := by
    simp only [step] at hq
    by_cases hqp : q = p
    · subst hqp
      rw [Function.update_self] at hq
      cases hq
    · rw [Function.update_of_ne hqp] at hq
      exact h.untorn q cmd' tmrCnt held hq

theorem coherent_readHigh (h : Coherent m s) {p : Nat} {cmd : Cmd} {cnt : UInt64}
    {since : List UInt64} (hp : s.readers p = .betweenReads cmd cnt since) :
    Coherent m (step m s (.readHigh p)) := by
  have hreaders := readers_step_readHigh (m := m) hp
  refine ⟨fun q cmd' tmrCnt held hq => ?_, fun q cmd' tmrCnt held hq => ?_⟩ <;>
    rw [hreaders] at hq
  · by_cases hqp : q = p
    · subst hqp
      rw [Function.update_self] at hq
      cases hq
    · rw [Function.update_of_ne hqp] at hq
      rw [highReg_step_readHigh]
      exact h.pending q cmd' tmrCnt held hq
  · by_cases hqp : q = p
    · subst hqp
      rw [Function.update_self] at hq
      cases hq
      -- The two halves belong to one value, and that value was held.
      obtain ⟨c, hmem, hlow, hhigh⟩ := h.pending q cmd cnt since hp
      rw [hlow, hhigh]
      show readTmrCnt (Regs.ofCounter c) ∈ since
      rwa [readTmrCnt_ofCounter]
    · rw [Function.update_of_ne hqp] at hq
      exact h.untorn q cmd' tmrCnt held hq

theorem coherent_step (h : Coherent m s) {e : CardEvent} (hen : s.Enabled e)
    (hkeep : s.KeepsHigh m e) : Coherent m (step m s e) := by
  cases e with
  | tick c => exact coherent_tick h hkeep
  | readLow p cmd => exact coherent_readLow h hkeep
  | readHigh p =>
    obtain ⟨cmd, cnt, since, hp⟩ := Reader.pending_iff.mp hen
    exact coherent_readHigh h hp

/-- Under either register model, no ioctl assembles a torn value in a run that
keeps the high word under every pending process. -/
theorem untorn_of_keepsHigh (m : RegModel) (c : UInt64) (es : List CardEvent)
    (hadm : (machine m c).Admits (start c) es)
    (hkeep : (machine m c).Along (KeepsHigh m) (start c) es) :
    (machine m c).Throughout Untorn (start c) es :=
  (Machine.throughout_of_invariant (I := Coherent m) (fun _ _ h hen hk => coherent_step h hen hk)
    (coherent_start m c) hadm hkeep).mono (fun _ h => h.untorn)

/-- A caller reads the low word, the counter carries, and the high word of the
next value completes the low word of the last. -/
def tornByCarry : List CardEvent :=
  [.readLow 0 .hostGetOffset, .tick 0x100000000, .readHigh 0]

def tornByLatch : List CardEvent :=
  [.readLow 0 .hostGetOffset, .tick 0x100000000, .readLow 1 .hostGetPcieTime, .readHigh 0]

theorem not_untorn_at_carry :
    ((machine .live 0xffffffff).Admits (start 0xffffffff) tornByCarry ∧
      ¬ (machine .live 0xffffffff).Throughout Untorn (start 0xffffffff) tornByCarry) ∧
    ((machine .shadow 0xffffffff).Admits (start 0xffffffff) tornByLatch ∧
      ¬ (machine .shadow 0xffffffff).Throughout Untorn (start 0xffffffff) tornByLatch) := by
  refine ⟨⟨?_, fun h => ?_⟩, ⟨?_, fun h => ?_⟩⟩
  · refine ⟨⟨nofun, .inr rfl⟩, ?_, trivial, trivial⟩
    show (0xffffffff : UInt64) < 0x100000000
    decide
  · have hmem := h.2.2.2 0 .hostGetOffset 0x1ffffffff [0xffffffff, 0x100000000] (by decide)
    exact absurd hmem (by decide)
  · refine ⟨⟨nofun, .inr rfl⟩, ?_, ⟨nofun, .inl rfl⟩, trivial, trivial⟩
    show (0xffffffff : UInt64) < 0x100000000
    decide
  · have hmem := h.2.2.2.2 0 .hostGetOffset 0x1ffffffff [0xffffffff, 0x100000000] (by decide)
    exact absurd hmem (by decide)

theorem untorn_of_keepsHigh_small_tick :
    (machine .live 7).Throughout Untorn (start 7)
      [.readLow 0 .hostGetPcieTime, .tick 12, .readHigh 0] :=
  untorn_of_keepsHigh .live 7 _
    ⟨⟨nofun, .inl rfl⟩, show (7 : UInt64) < 12 by decide, trivial, trivial⟩
    ⟨nofun, fun _ _ => by decide, trivial, trivial⟩

end Card

end TimeTools.Driver
