import TimeTools.Timer.Setup

/-!
# The reference time of mode 3

In mode 3 `print_msg` does not read a clock for its record but adds `iv_s` to `timep`, as
if it were called once for each expiry.  `SIGALRM` is not queued: an expiry that finds
the signal of an earlier one pending leaves no signal of its own.  So a record carries
the appointment of the expiry it is sent for exactly when every earlier expiry has had a
call (`reference_iff_ownCall`), and once one has not, no later record is right
(`never_sent_after_loss`).
-/

namespace TimeTools.Timer.TcpClient

open FixedWidth

/-- The client and its timer.  `pending` is the expiry whose signal is pending, and
`handling` says that `print_msg` runs, with `SIGALRM` blocked. -/
structure TimerRun where
  client : Client
  expiries : Nat
  pending : Option Nat
  handling : Bool

/-- A step of `main`, an expiry, the start of a `print_msg` call with what it reads, and
its return. -/
inductive TimerEvent
  | main (e : SetupEvent)
  | expire
  | deliver (env : Env)
  | handlerReturns

namespace TimerRun

def start (ivS target : Int64) (modeName : String) : TimerRun where
  client := .start ivS target 3 modeName
  expiries := 0
  pending := none
  handling := false

/-- `T + k * iv_s`. -/
def appointment (s : TimerRun) (k : Nat) : Int :=
  s.client.target.toInt + k * s.client.globals.ivS.toInt

/-- An expiry is at a time that a `time_t` holds. -/
def Enabled (s : TimerRun) : TimerEvent → Prop
  | .main (.alarm _) => False
  | .main e => s.handling = false ∧ s.client.Enabled e
  | .expire => s.client.armed = true ∧ s.client.next ≠ .exited ∧
    FitsInt64 (s.appointment s.expiries)
  | .deliver env => s.handling = false ∧ s.pending.isSome ∧ s.client.Enabled (.alarm env)
  | .handlerReturns => s.handling = true

def step (s : TimerRun) : TimerEvent → TimerRun
  | .main e => { s with client := s.client.step e }
  | .expire =>
    { s with
      expiries := s.expiries + 1
      pending := s.pending <|> some s.expiries }
  | .deliver env =>
    { s with
      client := s.client.step (.alarm env)
      pending := none
      handling := true }
  | .handlerReturns => { s with handling := false }

end TimerRun

def timerRun (ivS target : Int64) (modeName : String) : Machine TimerRun TimerEvent where
  init := .start ivS target modeName
  enabled := TimerRun.Enabled
  step := TimerRun.step

/-- The record of a call carries the appointment of the expiry whose signal it handles. -/
def SendsAppointment (s : TimerRun) : TimerEvent → Prop
  | .deliver env => ∀ k, s.pending = some k →
    (longFromBytes ((printMsg s.client.globals env).written.2.drop 12)).toInt = s.appointment k
  | _ => True

/-- Every earlier expiry has had its own call; or, before `timep` is rewound, every one
but one. -/
def OwnCall (s : TimerRun) : TimerEvent → Prop
  | .deliver _ => ∀ k, s.pending = some k →
    k = s.client.calls + if s.client.next = .rewind then 1 else 0
  | _ => True

theorem timep_printMsg {g : Globals} (h : g.mode = 3) (env : Env) :
    (printMsg g env).timep = g.timep + g.ivS := by
  simp [printMsg, h]

/-- How often `timep` will have been advanced past the target when the next call sends it. -/
def advanced (c : Client) : Int :=
  if c.next = .setitimer ∨ c.next = .rewind then c.calls + 1 else c.calls

theorem advanced_of_before {c : Client} (h : c.next = .setitimer ∨ c.next = .rewind) :
    advanced c = c.calls + 1 := if_pos h

theorem advanced_of_after {c : Client} (h : ¬ (c.next = .setitimer ∨ c.next = .rewind)) :
    advanced c = c.calls := if_neg h

/-- An expiry does not change which expiry the next call is for. -/
theorem getD_pending_expire (s : TimerRun) :
    (s.step .expire).pending.getD (s.step .expire).expiries = s.pending.getD s.expiries := by
  cases hs : s.pending with
  | none => simp [TimerRun.step, hs]
  | some k => simp [TimerRun.step, hs]

/-- The next record has the target and as many intervals as `timep` has been advanced,
and there is a signal or an expiry to come for every call there has been. -/
structure ReferenceInv (ivS target : Int64) (s : TimerRun) : Prop where
  mode : s.client.globals.mode = 3
  interval : s.client.globals.ivS = ivS
  start : s.client.target = target
  timep : s.client.globals.timep + ivS =
    .ofInt (target.toInt + advanced s.client * ivS.toInt)
  unarmed : s.client.next = .setitimer → s.client.armed = false
  calls : s.client.calls ≤ s.pending.getD s.expiries
  pending : ∀ k, s.pending = some k → k < s.expiries ∧ FitsInt64 (s.appointment k)

/-- A sum of intervals is the appointment `k` only if it has `k` of them, also where it
leaves the word by one interval. -/
theorem toInt_ofInt_eq_iff {T iv c k : Int} (hT : FitsInt64 T) (hiv : 1 ≤ iv)
    (hiv' : iv < 2 ^ 63) (hk : FitsInt64 (T + k * iv)) (hc : 0 ≤ c) (hle : c ≤ k + 1) :
    (Int64.ofInt (T + c * iv)).toInt = T + k * iv ↔ c = k := by
  unfold FitsInt64 at hT hk
  by_cases hck : c ≤ k
  · have hlo : 0 ≤ c * iv := Int.mul_nonneg hc (by omega)
    have hhi : c * iv ≤ k * iv := Int.mul_le_mul_of_nonneg_right hck (by omega)
    rw [Int64.toInt_ofInt_of_le (by omega) (by omega)]
    constructor
    · intro h
      exact Int.eq_of_mul_eq_mul_right (show iv ≠ 0 by omega) (by omega)
    · intro h
      rw [h]
  · have hnext : c * iv = k * iv + iv := by
      rw [show c = k + 1 by omega, Int.add_mul, Int.one_mul]
    have hword : (Int64.ofInt (T + c * iv)).toInt = (T + c * iv).bmod (2 ^ 64) :=
      Int64.toInt_ofInt
    rw [hword, hnext, Int.bmod_def]
    constructor
    · intro h
      split at h <;> omega
    · intro h
      omega

theorem ofInt_add_succ_mul (T n : Int) (iv : Int64) :
    Int64.ofInt (T + (n + 1) * iv.toInt) = .ofInt (T + n * iv.toInt) + iv := by
  rw [Int.add_mul, Int.one_mul, ← Int.add_assoc, Int64.ofInt_add, Int64.ofInt_toInt]

namespace ReferenceInv

variable {ivS target : Int64} {s : TimerRun} {e : TimerEvent}

theorem init (ivS target : Int64) (modeName : String) :
    ReferenceInv ivS target (.start ivS target modeName) where
  mode := rfl
  interval := rfl
  start := rfl
  timep := by
    show target + ivS = .ofInt (target.toInt + (0 + 1) * ivS.toInt)
    rw [ofInt_add_succ_mul, Int.zero_mul, Int.add_zero, Int64.ofInt_toInt]
  unarmed _ := rfl
  calls := Nat.le_refl _
  pending _ h := nomatch h

theorem sent (h : ReferenceInv ivS target s) (env : Env) :
    longFromBytes ((printMsg s.client.globals env).written.2.drop 12) =
      .ofInt (target.toInt + advanced s.client * ivS.toInt) := by
  rw [(reference_printMsg h.mode env).2, h.interval, h.timep]

/-- A step of `main` that leaves `timep` alone, after the rewind. -/
theorem main_after (h : ReferenceInv ivS target s) {c : Client}
    (hbefore : ¬ (s.client.next = .setitimer ∨ s.client.next = .rewind))
    (hafter : ¬ (c.next = .setitimer ∨ c.next = .rewind)) (hglobals : c.globals.mode = 3 ∧
      c.globals.ivS = ivS ∧ c.globals.timep = s.client.globals.timep)
    (htarget : c.target = target) (hcalls : c.calls = s.client.calls) :
    ReferenceInv ivS target { s with client := c } := by
  obtain ⟨hmode, hinterval, htimep⟩ := hglobals
  have hsame : ∀ k, TimerRun.appointment { s with client := c } k = s.appointment k := by
    intro k
    simp only [TimerRun.appointment, htarget, hinterval, h.start, h.interval]
  refine ⟨hmode, hinterval, htarget, ?_, fun hnext => absurd (.inl hnext) hafter, ?_, ?_⟩
  · show c.globals.timep + ivS = .ofInt (target.toInt + advanced c * ivS.toInt)
    rw [htimep, h.timep, advanced_of_after hbefore, advanced_of_after hafter, hcalls]
  · show c.calls ≤ s.pending.getD s.expiries
    rw [hcalls]
    exact h.calls
  · intro k hk
    rw [hsame]
    exact h.pending k hk

theorem main (h : ReferenceInv ivS target s) {e : SetupEvent} (hen : s.Enabled (.main e)) :
    ReferenceInv ivS target (s.step (.main e)) := by
  obtain ⟨hmode, hinterval, hstart, htimep, hunarmed, hcalls, hpending⟩ := id h
  cases e with
  | alarm env => exact hen.elim
  | setitimer res =>
    have hnext : s.client.next = .setitimer := hen.2
    rw [advanced_of_before (.inl hnext)] at htimep
    exact ⟨hmode, hinterval, hstart, htimep, nofun, hcalls, hpending⟩
  | rewind =>
    have hnext : s.client.next = .rewind := hen.2
    have hafter := rewound_step s.client (e := .rewind) nofun nofun
    rw [advanced_of_before (.inr hnext), ofInt_add_succ_mul] at htimep
    refine ⟨hmode, hinterval, hstart, ?_, fun hnext => absurd (.inl hnext) hafter, hcalls,
      hpending⟩
    show s.client.globals.timep - s.client.globals.ivS + ivS =
      .ofInt (target.toInt + advanced (s.client.step .rewind) * ivS.toInt)
    rw [advanced_of_after hafter, hinterval, Int64.sub_add_cancel]
    exact (Int64.add_left_inj ivS).mp htimep
  | openCard fd =>
    have hnext : s.client.next = .openCard := hen.2.1
    exact h.main_after (by simp [hnext]) (rewound_step _ nofun nofun) ⟨hmode, hinterval, rfl⟩
      hstart rfl
  | socket fd =>
    have hnext : s.client.next = .socket := hen.2
    exact h.main_after (by simp [hnext]) (rewound_step _ nofun nofun) ⟨hmode, hinterval, rfl⟩
      hstart rfl
  | connect ok =>
    have hnext : s.client.next = .connect := hen.2
    exact h.main_after (by simp [hnext]) (rewound_step _ nofun nofun) ⟨hmode, hinterval, rfl⟩
      hstart rfl

theorem expire (h : ReferenceInv ivS target s) (hen : s.Enabled .expire) :
    ReferenceInv ivS target (s.step .expire) := by
  obtain ⟨hmode, hinterval, hstart, htimep, hunarmed, hcalls, hpending⟩ := id h
  refine ⟨hmode, hinterval, hstart, htimep, hunarmed, ?_, fun k hk => ?_⟩
  · rw [getD_pending_expire]
    exact hcalls
  · cases hs : s.pending with
    | none =>
      obtain rfl : s.expiries = k := by simpa [TimerRun.step, hs] using hk
      exact ⟨Nat.lt_succ_self _, hen.2.2⟩
    | some k' =>
      obtain rfl : k' = k := by simpa [TimerRun.step, hs] using hk
      obtain ⟨hlt, hfits⟩ := hpending k' hs
      exact ⟨Nat.lt_succ_of_lt hlt, hfits⟩

theorem deliver (h : ReferenceInv ivS target s) {env : Env} (hen : s.Enabled (.deliver env)) :
    ReferenceInv ivS target (s.step (.deliver env)) := by
  obtain ⟨-, hsome, -⟩ := hen
  obtain ⟨hmode, hinterval, hstart, htimep, hunarmed, hcalls, hpending⟩ := id h
  obtain ⟨k, hk⟩ := Option.isSome_iff_exists.mp hsome
  have hadvanced : advanced (s.client.step (.alarm env)) = advanced s.client + 1 := by
    show (if s.client.next = .setitimer ∨ s.client.next = .rewind then
      ((s.client.calls + 1 : Nat) : Int) + 1 else (s.client.calls + 1 : Nat)) = _
    rw [advanced]
    split <;> omega
  refine ⟨hmode, hinterval, hstart, ?_, hunarmed, ?_, nofun⟩
  · show (printMsg s.client.globals env).timep + ivS =
      .ofInt (target.toInt + advanced (s.client.step (.alarm env)) * ivS.toInt)
    rw [timep_printMsg hmode, hinterval, htimep, hadvanced, ofInt_add_succ_mul]
  · show s.client.calls + 1 ≤ s.expiries
    rw [hk] at hcalls
    exact Nat.lt_of_le_of_lt hcalls (hpending k hk).1

theorem step (h : ReferenceInv ivS target s) (hen : s.Enabled e) :
    ReferenceInv ivS target (s.step e) := by
  cases e with
  | main e => exact h.main hen
  | expire => exact h.expire hen
  | deliver env => exact h.deliver hen
  | handlerReturns =>
    exact ⟨h.mode, h.interval, h.start, h.timep, h.unarmed, h.calls, h.pending⟩

/-- The calls there have been and, before the rewind, one more are the intervals in the
record, and they are the appointment only where they are as many as the expiries. -/
theorem sendsAppointment_iff (h : ReferenceInv ivS target s) (hiv : 1 ≤ ivS.toInt)
    (hen : s.Enabled e) : SendsAppointment s e ↔ OwnCall s e := by
  cases e with
  | deliver env =>
    obtain ⟨-, hsome, harmed, -⟩ := hen
    obtain ⟨k, hk⟩ := Option.isSome_iff_exists.mp hsome
    have hstart : s.client.next ≠ .setitimer := by
      intro hnext
      rw [h.unarmed hnext] at harmed
      cases harmed
    have hadvanced : advanced s.client =
        (s.client.calls + if s.client.next = .rewind then 1 else 0 : Nat) := by
      simp only [advanced, hstart, false_or]
      split <;> omega
    have hcalls := h.calls
    rw [hk] at hcalls
    change s.client.calls ≤ k at hcalls
    have hfits := (h.pending k hk).2
    simp only [SendsAppointment, OwnCall, hk, Option.some.injEq, forall_eq', h.sent env]
    rw [TimerRun.appointment, h.start, h.interval] at hfits ⊢
    rw [hadvanced, toInt_ofInt_eq_iff (fitsInt64_toInt target) hiv ivS.toInt_lt hfits (by omega)
      (by split <;> omega)]
    omega
  | _ => exact Iff.rfl

/-- `timep` is rewound, and some expiry has gone without a call. -/
structure Behind (s : TimerRun) : Prop where
  rewound : ¬ (s.client.next = .setitimer ∨ s.client.next = .rewind)
  lost : s.client.calls < s.pending.getD s.expiries

/-- The calls never catch up with the expiries. -/
theorem behind_step (h : ReferenceInv ivS target s) (hbehind : Behind s) (hen : s.Enabled e) :
    Behind (s.step e) := by
  obtain ⟨hrewound, hlost⟩ := hbehind
  cases e with
  | main e =>
    cases e with
    | alarm env => exact hen.elim
    | setitimer res => exact absurd (.inl hen.2) hrewound
    | rewind => exact absurd (.inr hen.2) hrewound
    | openCard fd => exact ⟨rewound_step _ nofun nofun, hlost⟩
    | socket fd => exact ⟨rewound_step _ nofun nofun, hlost⟩
    | connect ok => exact ⟨rewound_step _ nofun nofun, hlost⟩
  | expire =>
    refine ⟨hrewound, ?_⟩
    rw [getD_pending_expire]
    exact hlost
  | deliver env =>
    obtain ⟨-, hsome, -⟩ := hen
    obtain ⟨k, hk⟩ := Option.isSome_iff_exists.mp hsome
    refine ⟨hrewound, ?_⟩
    show s.client.calls + 1 < s.expiries
    rw [hk] at hlost
    exact Nat.lt_of_le_of_lt (Nat.succ_le_of_lt hlost) (h.pending k hk).1
  | handlerReturns => exact ⟨hrewound, hlost⟩

theorem not_ownCall_of_behind (hbehind : Behind s) {env : Env} (hen : s.Enabled (.deliver env)) :
    ¬ OwnCall s (.deliver env) := by
  obtain ⟨hrewound, hlost⟩ := hbehind
  obtain ⟨k, hk⟩ := Option.isSome_iff_exists.mp hen.2.1
  intro hown
  have hown := hown k hk
  rw [hk] at hlost
  change s.client.calls < k at hlost
  rw [if_neg fun hnext => hrewound (.inr hnext)] at hown
  omega

end ReferenceInv

/-- With an interval of whole seconds, every record of mode 3 has the appointment of its
expiry exactly when every call comes after the rewind and no expiry before its own has
gone without a call, or before the rewind and one has. -/
theorem reference_iff_ownCall (ivS target : Int64) (modeName : String) (hiv : 1 ≤ ivS.toInt)
    (es : List TimerEvent)
    (hadm : (timerRun ivS target modeName).Admits (.start ivS target modeName) es) :
    (timerRun ivS target modeName).Along SendsAppointment (.start ivS target modeName) es ↔
      (timerRun ivS target modeName).Along OwnCall (.start ivS target modeName) es :=
  Machine.along_congr (I := ReferenceInv ivS target) (fun _ _ h hen => h.step hen)
    (fun _ _ h hen => h.sendsAppointment_iff hiv hen) (.init ivS target modeName) hadm

/-- From a state with an expiry that has gone without a call on, no record has the
appointment of its expiry. -/
theorem never_sent_after_loss {ivS target : Int64} {modeName : String} (hiv : 1 ≤ ivS.toInt)
    {s : TimerRun} (h : ReferenceInv ivS target s) (hbehind : ReferenceInv.Behind s)
    {es : List TimerEvent} (hadm : (timerRun ivS target modeName).Admits s es) :
    (timerRun ivS target modeName).Along
      (fun s e => ∀ env, e = .deliver env → ¬ SendsAppointment s e) s es := by
  refine Machine.along_of_invariant
    (I := fun s => ReferenceInv ivS target s ∧ ReferenceInv.Behind s) ?_ ?_ ⟨h, hbehind⟩ hadm
  · intro s e hI hen
    exact ⟨hI.1.step hen, hI.1.behind_step hI.2 hen⟩
  · intro s e hI hen env he
    subst he
    have hen : s.Enabled (.deliver env) := hen
    rw [hI.1.sendsAppointment_iff hiv hen]
    exact ReferenceInv.not_ownCall_of_behind hI.2 hen

/-- Three expiries, each with its call; the last comes while the call before it runs. -/
def threeCalls : List TimerEvent :=
  [.main (.setitimer 0), .main .rewind, .main (.socket 3), .main (.connect true), .expire,
    .deliver cardClock, .handlerReturns, .expire, .deliver cardClock, .expire, .handlerReturns,
    .deliver cardClock]

theorem reference_three_calls :
    (timerRun 5 1700000005 "ref_timer_time").Along SendsAppointment
      (.start 5 1700000005 "ref_timer_time") threeCalls := by
  refine (reference_iff_ownCall 5 1700000005 "ref_timer_time" (by decide) threeCalls
    ⟨⟨rfl, rfl⟩, ⟨rfl, rfl⟩, ⟨rfl, rfl⟩, ⟨rfl, rfl⟩, ⟨rfl, nofun, by decide⟩,
      ⟨rfl, rfl, rfl, nofun⟩, rfl, ⟨rfl, nofun, by decide⟩, ⟨rfl, rfl, rfl, nofun⟩,
      ⟨rfl, nofun, by decide⟩, rfl, ⟨rfl, rfl, rfl, nofun⟩, trivial⟩).mpr
    ⟨trivial, trivial, trivial, trivial, trivial, ?_, trivial, trivial, ?_, trivial, trivial, ?_,
      trivial⟩ <;>
  · intro k hk
    exact (Option.some.inj hk).symm

/-- Two expiries come while the first call runs, and one after the second call. -/
def oneMerged : List TimerEvent :=
  [.main (.setitimer 0), .main .rewind, .main (.socket 3), .main (.connect true), .expire,
    .deliver cardClock, .expire, .expire, .handlerReturns, .deliver cardClock, .handlerReturns,
    .expire, .deliver cardClock]

/-- The fourth expiry falls due at 1700000020, and its record has 1700000015. -/
theorem not_reference_one_merged :
    (timerRun 5 1700000005 "ref_timer_time").Admits (.start 5 1700000005 "ref_timer_time")
        oneMerged ∧
      ¬ (timerRun 5 1700000005 "ref_timer_time").Along SendsAppointment
        (.start 5 1700000005 "ref_timer_time") oneMerged := by
  refine ⟨⟨⟨rfl, rfl⟩, ⟨rfl, rfl⟩, ⟨rfl, rfl⟩, ⟨rfl, rfl⟩, ⟨rfl, nofun, by decide⟩,
    ⟨rfl, rfl, rfl, nofun⟩, ⟨rfl, nofun, by decide⟩, ⟨rfl, nofun, by decide⟩, rfl,
    ⟨rfl, rfl, rfl, nofun⟩, rfl, ⟨rfl, nofun, by decide⟩, ⟨rfl, rfl, rfl, nofun⟩, trivial⟩,
    fun h => ?_⟩
  have hlast := h.2.2.2.2.2.2.2.2.2.2.2.2.1 3 rfl
  exact absurd hlast (by decide)

end TimeTools.Timer.TcpClient
