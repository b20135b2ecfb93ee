import TimeTools.Driver.CardRead
import TimeTools.Sync.HostSync

/-!
# A torn counter under the servo

Nothing holds the counter between the two register reads of `HOST_GET_OFFSET`, so the
high word may belong to a later value than the low word.  The result is then too large
by a multiple of `2 ^ 32` ns, about 4.3 s, and never too small.

A clock that is in step with the card is slewed when the two words belong together.
When they do not, `update_clock` steps it forward by just that multiple
(`torn_offset_steps`).
-/

namespace TimeTools.Driver

open ByteOrder

/-- How often the low register has carried between two values of the counter. -/
def carries (c₀ c₁ : UInt64) : Nat := c₁.toNat / 2 ^ 32 - c₀.toNat / 2 ^ 32

theorem carries_lt (c₀ c₁ : UInt64) : carries c₀ c₁ < 2 ^ 32 := by
  have hc := c₁.toNat_lt
  unfold carries
  omega

theorem toNat_withHighWord_of_le {c₀ c₁ : UInt64} (h : c₀ ≤ c₁) :
    (withHighWord (lowWord (Regs.ofCounter c₀).tmrCntL) (Regs.ofCounter c₁).tmrCntH).toNat =
      c₀.toNat + carries c₀ c₁ * 2 ^ 32 := by
  have hle := UInt64.le_iff_toNat_le.mp h
  simp only [withHighWord, lowWord, be32ToCpu, Regs.ofCounter, byteSwap32_byteSwap32,
    toNat_or_shiftLeft_halves, carries]
  omega

namespace Card

/-- A pending process began at the first value that it lists, and the high word that it
would read now belongs to one of them. -/
structure Behind (m : RegModel) (s : Card) (c₀ : UInt64) (tmrCnt : UInt64)
    (held : List UInt64) : Prop where
  first : held.head? = some c₀
  low : tmrCnt = lowWord (Regs.ofCounter c₀).tmrCntL
  above : ∀ c ∈ held, c₀ ≤ c ∧ c ≤ s.counter
  current : s.counter ∈ held
  high : ∃ c₁ ∈ held, highReg m s = (Regs.ofCounter c₁).tmrCntH

/-- An assembled value is the first of those listed and the carries up to another. -/
def Late (tmrCnt : UInt64) (held : List UInt64) : Prop :=
  ∃ c₀ c₁, held.head? = some c₀ ∧ c₁ ∈ held ∧ c₀ ≤ c₁ ∧
    tmrCnt.toNat = c₀.toNat + carries c₀ c₁ * 2 ^ 32

structure LateInv (m : RegModel) (s : Card) : Prop where
  pending : ∀ p cmd tmrCnt held, s.readers p = .betweenReads cmd tmrCnt held →
    ∃ c₀, Behind m s c₀ tmrCnt held
  assembled : ∀ p cmd tmrCnt held, s.readers p = .assembled cmd tmrCnt held → Late tmrCnt held

variable {m : RegModel} {s : Card}

theorem lateInv_start (m : RegModel) (c : UInt64) : LateInv m (start c) where
  pending _ _ _ _ h := by cases h
  assembled _ _ _ _ h := by cases h

theorem Behind.tick {c₀ tmrCnt c : UInt64} {held : List UInt64}
    (h : Behind m s c₀ tmrCnt held) (hc : s.counter < c) :
    Behind m (step m s (.tick c)) c₀ tmrCnt (held ++ [c]) where
  first := by rw [List.head?_append, h.first, Option.some_or]
  low := h.low
  above c' hc' := by
    have hcounter : (step m s (.tick c)).counter = c := rfl
    rw [hcounter]
    rcases List.mem_append.mp hc' with hold | hnew
    · obtain ⟨hlo, hhi⟩ := h.above c' hold
      exact ⟨hlo, UInt64.le_of_lt (UInt64.lt_of_le_of_lt hhi hc)⟩
    · rw [List.mem_singleton.mp hnew]
      have hfirst := (h.above s.counter h.current).1
      exact ⟨UInt64.le_of_lt (UInt64.lt_of_le_of_lt hfirst hc), UInt64.le_refl c⟩
  current := List.mem_append_right _ (List.mem_singleton_self c)
  high := by
    cases m with
    | live => exact ⟨c, List.mem_append_right _ (List.mem_singleton_self c), rfl⟩
    | shadow =>
      obtain ⟨c₁, hmem, hhigh⟩ := h.high
      exact ⟨c₁, List.mem_append_left _ hmem, hhigh⟩

/-- The read of another process moves a shadow register, and then to the counter. -/
theorem Behind.readLow {c₀ tmrCnt : UInt64} {held : List UInt64}
    (h : Behind m s c₀ tmrCnt held) (q : Nat) (cmd : Cmd) :
    Behind m (step m s (.readLow q cmd)) c₀ tmrCnt held where
  first := h.first
  low := h.low
  above := h.above
  current := h.current
  high := by
    cases m with
    | live => exact h.high
    | shadow => exact ⟨s.counter, h.current, rfl⟩

theorem counter_step_readHigh (m : RegModel) (s : Card) (q : Nat) :
    (step m s (.readHigh q)).counter = s.counter := by
  simp only [step]
  split <;> rfl

theorem Behind.readHigh {c₀ tmrCnt : UInt64} {held : List UInt64}
    (h : Behind m s c₀ tmrCnt held) (q : Nat) :
    Behind m (step m s (.readHigh q)) c₀ tmrCnt held where
  first := h.first
  low := h.low
  above := by
    rw [counter_step_readHigh]
    exact h.above
  current := by
    rw [counter_step_readHigh]
    exact h.current
  high := by
    rw [highReg_step_readHigh]
    exact h.high

theorem Behind.late {c₀ tmrCnt : UInt64} {held : List UInt64}
    (h : Behind m s c₀ tmrCnt held) : Late (withHighWord tmrCnt (highReg m s)) held := by
  obtain ⟨c₁, hmem, hhigh⟩ := h.high
  have hle := (h.above c₁ hmem).1
  refine ⟨c₀, c₁, h.first, hmem, hle, ?_⟩
  rw [h.low, hhigh]
  exact toNat_withHighWord_of_le hle

theorem lateInv_tick (h : LateInv m s) {c : UInt64} (hc : s.counter < c) :
    LateInv m (step m s (.tick c)) where
  pending p cmd tmrCnt held hp := by
    obtain ⟨since, hr, rfl⟩ := Reader.observe_eq_betweenReads hp
    obtain ⟨c₀, hbehind⟩ := h.pending p cmd tmrCnt since hr
    exact ⟨c₀, hbehind.tick hc⟩
  assembled p cmd tmrCnt held hp :=
    h.assembled p cmd tmrCnt held (Reader.observe_eq_assembled hp)

theorem lateInv_readLow (h : LateInv m s) (q : Nat) (cmd : Cmd) :
    LateInv m (step m s (.readLow q cmd)) where
  pending p cmd' tmrCnt held hp := by
    have hreader : Function.update s.readers q (.betweenReads cmd
        (lowWord (Regs.ofCounter s.counter).tmrCntL) [s.counter]) p =
          .betweenReads cmd' tmrCnt held := hp
    by_cases hpq : p = q
    · subst hpq
      rw [Function.update_self] at hreader
      cases hreader
      have hmem : s.counter ∈ [s.counter] := List.mem_singleton_self _
      refine ⟨s.counter, rfl, rfl, fun c hc => ?_, hmem, s.counter, hmem, ?_⟩
      · rw [List.mem_singleton.mp hc]
        exact ⟨UInt64.le_refl _, UInt64.le_refl _⟩
      · cases m <;> rfl
    · rw [Function.update_of_ne hpq] at hreader
      obtain ⟨c₀, hbehind⟩ := h.pending p cmd' tmrCnt held hreader
      exact ⟨c₀, hbehind.readLow q cmd⟩
  assembled p cmd' tmrCnt held hp := by
    have hreader : Function.update s.readers q (.betweenReads cmd
        (lowWord (Regs.ofCounter s.counter).tmrCntL) [s.counter]) p =
          .assembled cmd' tmrCnt held := hp
    by_cases hpq : p = q
    · subst hpq
      rw [Function.update_self] at hreader
      cases hreader
    · rw [Function.update_of_ne hpq] at hreader
      exact h.assembled p cmd' tmrCnt held hreader

theorem lateInv_readHigh (h : LateInv m s) {q : Nat} {cmd : Cmd} {cnt : UInt64}
    {since : List UInt64} (hq : s.readers q = .betweenReads cmd cnt since) :
    LateInv m (step m s (.readHigh q)) := by
  have hreaders := readers_step_readHigh (m := m) hq
  refine ⟨fun p cmd' tmrCnt held hp => ?_, fun p cmd' tmrCnt held hp => ?_⟩ <;>
    rw [hreaders] at hp
  · by_cases hpq : p = q
    · subst hpq
      rw [Function.update_self] at hp
      cases hp
    · rw [Function.update_of_ne hpq] at hp
      obtain ⟨c₀, hbehind⟩ := h.pending p cmd' tmrCnt held hp
      exact ⟨c₀, hbehind.readHigh q⟩
  · by_cases hpq : p = q
    · subst hpq
      rw [Function.update_self] at hp
      cases hp
      obtain ⟨c₀, hbehind⟩ := h.pending p cmd cnt since hq
      exact hbehind.late
    · rw [Function.update_of_ne hpq] at hp
      exact h.assembled p cmd' tmrCnt held hp

theorem lateInv_step (h : LateInv m s) {e : CardEvent} (hen : s.Enabled e) :
    LateInv m (step m s e) := by
  cases e with
  | tick c => exact lateInv_tick h hen
  | readLow q cmd => exact lateInv_readLow h q cmd
  | readHigh q =>
    obtain ⟨cmd, cnt, since, hq⟩ := Reader.pending_iff.mp hen
    exact lateInv_readHigh h hq

theorem late_of_reachable {m : RegModel} {c : UInt64} {s : Card}
    (hs : (machine m c).Reachable s) {p : Nat} {cmd : Cmd} {tmrCnt : UInt64}
    {held : List UInt64} (hp : s.readers p = .assembled cmd tmrCnt held) : Late tmrCnt held :=
  (Machine.reachable_of_invariant (I := LateInv m) (lateInv_start m c)
    (fun _ _ h hen => lateInv_step h hen) hs).assembled p cmd tmrCnt held hp

end Card

end TimeTools.Driver

namespace TimeTools.Sync

open FixedWidth SignedSplit Driver

/-- The system time of `HOST_GET_OFFSET` is within the slew range of the count that the
low register belongs to. -/
def InStep (c₀ : UInt64) (curTime : Timespec) : Prop :=
  (curTime.total - ((c₀.toNat : Int) - 35000000000)).natAbs ≤ 100000000

instance (c₀ : UInt64) (curTime : Timespec) : Decidable (InStep c₀ curTime) :=
  inferInstanceAs (Decidable (_ ≤ _))

/-- The offset of a late count, for as many carries as there can be. -/
theorem toInt_offsetOf_late {c₀ tmrCnt : UInt64} {k : Nat} {curTime : Timespec}
    (hcnt : tmrCnt.toNat = c₀.toNat + k * 2 ^ 32) :
    (offsetOf tmrCnt curTime).toInt =
      (curTime.total - ((c₀.toNat : Int) - 35000000000) - k * 2 ^ 32).bmod (2 ^ 64) := by
  rw [toInt_offsetOf, hcnt]
  congr 1
  push_cast
  omega

/-- A wrapped multiple of `2 ^ 32` stays away from zero, however large it is. -/
theorem natAbs_offsetOf_late {c₀ tmrCnt : UInt64} {k : Nat} {curTime : Timespec}
    (hk : k < 2 ^ 32) (hstep : InStep c₀ curTime)
    (hcnt : tmrCnt.toNat = c₀.toNat + k * 2 ^ 32) :
    100000000 < (offsetOf tmrCnt curTime).toInt.natAbs ↔ k ≠ 0 := by
  unfold InStep at hstep
  rw [toInt_offsetOf_late hcnt]
  generalize curTime.total - ((c₀.toNat : Int) - 35000000000) = δ at hstep
  rw [Int.bmod_def]
  split <;> omega

theorem toInt_offsetOf_late_of_lt {c₀ tmrCnt : UInt64} {k : Nat} {curTime : Timespec}
    (hk : k < 2 ^ 31) (hstep : InStep c₀ curTime)
    (hcnt : tmrCnt.toNat = c₀.toNat + k * 2 ^ 32) :
    (offsetOf tmrCnt curTime).toInt =
      curTime.total - ((c₀.toNat : Int) - 35000000000) - k * 2 ^ 32 := by
  unfold InStep at hstep
  rw [toInt_offsetOf_late hcnt]
  exact bmod64_eq_of_fits ⟨by omega, by omega⟩

/-- What `update_clock` makes of the count that a `HOST_GET_OFFSET` assembles, in any run of
the card and its readers.  The count is late by `2 ^ 32` ns for each carry of the low
register up to a later value.  A clock that is in step with the card at the first read is
stepped exactly if there was a carry; and with fewer than `2 ^ 31` of them it is set forward
by `2 ^ 32` ns for each, less what the offset was. -/
theorem torn_offset_steps {m : RegModel} {c : UInt64} {s : Card}
    (hs : (Card.machine m c).Reachable s) {p : Nat} {tmrCnt c₀ : UInt64} {held : List UInt64}
    (hp : s.readers p = .assembled .hostGetOffset tmrCnt held) (hfirst : held.head? = some c₀)
    {curTime : Timespec} (hstep : InStep c₀ curTime) {r : Readings}
    (ha : r.timeTmpA.Valid) (hb : r.timeTmpB.Valid) (hd : r.timeTmpD.Valid)
    (hgap : FitsInt64 (r.timeTmpB.total - r.timeTmpA.total))
    (hbase : FitsInt64 (r.timeTmpD.total - (offsetOf tmrCnt curTime).toInt))
    (observedDrift : Int32) :
    let call := (updateClock observedDrift (splitOffset (offsetOf tmrCnt curTime)) r).2
    ∃ c₁ ∈ held, c₀ ≤ c₁ ∧ tmrCnt.toNat = c₀.toNat + carries c₀ c₁ * 2 ^ 32 ∧
      ((∃ time, call = .setTime time) ↔ carries c₀ c₁ ≠ 0) ∧
      (carries c₀ c₁ < 2 ^ 31 → ∀ time, call = .setTime time →
        time.total = r.timeTmpD.total + (r.timeTmpB.total - r.timeTmpA.total) +
          carries c₀ c₁ * 2 ^ 32 - (curTime.total - ((c₀.toNat : Int) - 35000000000))) := by
  intro call
  obtain ⟨c₀', c₁, hfirst', hmem, hle, hcnt⟩ := Card.late_of_reachable hs hp
  rw [hfirst] at hfirst'
  cases hfirst'
  have hsplit := splitOffset_total (offsetOf tmrCnt curTime)
  refine ⟨c₁, hmem, hle, hcnt, ?_, fun hk time htime => ?_⟩
  · rw [← natAbs_offsetOf_late (carries_lt c₀ c₁) hstep hcnt, ← takesStep_splitOffset]
    simp only [call, updateClock_setTime_iff, exists_and_left, exists_eq, and_true]
  · obtain ⟨-, rfl⟩ := updateClock_setTime_iff.mp htime
    obtain ⟨htotal, -⟩ := steppedTime_spec (splitOffset_canonical (offsetOf tmrCnt curTime))
      ha hb hd hgap (by rwa [hsplit])
    rw [htotal, hsplit, toInt_offsetOf_late_of_lt hk hstep hcnt]
    omega

/-- The system time at the first read of `tornByCarry`, just in step, and three readings
100 ns apart. -/
def carryTime : Timespec := ⟨-31, 294967295⟩

def carryReadings : Readings := ⟨⟨-31, 294967400⟩, ⟨-31, 294967500⟩, ⟨-31, 294967600⟩⟩

/-- One carry between the two reads sets the clock forward by `2 ^ 32` ns. -/
theorem torn_offset_steps_at_carry :
    ∃ time, (updateClock 0 (splitOffset (offsetOf 0x1ffffffff carryTime)) carryReadings).2 =
        .setTime time ∧
      time.total = carryReadings.timeTmpD.total + 100 + 2 ^ 32 := by
  have hreach : (Card.machine .live 0xffffffff).Reachable
      ((Card.machine .live 0xffffffff).run (Card.start 0xffffffff) Card.tornByCarry) :=
    ⟨Card.tornByCarry, ⟨⟨nofun, .inr rfl⟩, show (0xffffffff : UInt64) < 0x100000000 by decide,
      trivial, trivial⟩, rfl⟩
  have hread : ((Card.machine .live 0xffffffff).run (Card.start 0xffffffff)
      Card.tornByCarry).readers 0 =
        .assembled .hostGetOffset 0x1ffffffff [0xffffffff, 0x100000000] := by decide
  obtain ⟨c₁, hmem, -, -, hsteps, htime⟩ := torn_offset_steps (r := carryReadings) hreach hread rfl
    (show InStep 0xffffffff carryTime by decide) (by decide) (by decide) (by decide) (by decide)
    (by decide) 0
  have hcall : (updateClock 0 (splitOffset (offsetOf 0x1ffffffff carryTime)) carryReadings).2 =
      .setTime (steppedTime (splitOffset (offsetOf 0x1ffffffff carryTime)) carryReadings) := by
    decide
  have hcarried := hsteps.mp ⟨_, hcall⟩
  rcases List.mem_cons.mp hmem with rfl | hmem
  · exact absurd (by decide) hcarried
  · obtain rfl := List.mem_singleton.mp hmem
    refine ⟨_, hcall, ?_⟩
    rw [htime (by decide) _ hcall]
    decide

end TimeTools.Sync
