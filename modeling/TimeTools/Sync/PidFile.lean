import TimeTools.Foundation.Printf
import TimeTools.Sync.Tenure

/-!
# The process id in the lock file

A process that is granted the lock cuts the file and writes its id into it with the zero
at its end, in two calls whose results it does not look at; a killed process leaves its id
behind.  Between the two calls any other process may take a step.  The file starts with the
id of the owner of the lock whenever the owner is not between its grant and its write, and
is the id when the file could be cut (`pidFile_names_owner`).
-/

namespace TimeTools.Sync

open RecordLock

/-- `sprintf(buf, "%ld", (long)getpid())`, of which `strlen(buf) + 1` bytes are written. -/
def pidText (pid : Pid) : List Char := CString.formatInt pid ++ ['\x00']

/-- `cut` says that a process has called `ftruncate` and not yet `write`. -/
structure PidWorld where
  world : World
  file : List Char
  cut : Pid → Bool

/-- The two calls at `writePid`, with what comes of them, and all other steps. -/
inductive PidEvent
  | sync (e : SyncEvent)
  | ftruncate (pid : Pid) (fails : Bool)
  | write (pid : Pid) (count : Nat)

namespace PidWorld

def AtWritePid (s : PidWorld) (pid : Pid) : Prop :=
  ∃ p caller, s.world.process pid = some p ∧ p.place = .alreadyRunning caller .writePid

def Enabled (s : PidWorld) : PidEvent → Prop
  | .sync e => s.world.Enabled e ∧ ∀ pid fails, e = .step pid fails → ¬ s.AtWritePid pid
  | .ftruncate pid _ => s.AtWritePid pid ∧ s.cut pid = false
  | .write pid count => s.AtWritePid pid ∧ s.cut pid = true ∧ count ≤ (pidText pid).length

/-- A process that ends takes its place in the program with it. -/
def cutAfter (s : PidWorld) : SyncEvent → Pid → Bool
  | .kill pid => Function.update s.cut pid false
  | _ => s.cut

def step (s : PidWorld) : PidEvent → PidWorld
  | .sync e => { s with world := s.world.step e, cut := s.cutAfter e }
  | .ftruncate pid fails =>
    { s with
      file := if fails then s.file else []
      cut := Function.update s.cut pid true }
  | .write pid count =>
    { world := s.world.step (.step pid false)
      file := (pidText pid).take count ++ s.file.drop count
      cut := Function.update s.cut pid false }

end PidWorld

def pidMachine (file : List Char) : Machine PidWorld PidEvent where
  init := { world := .start, file := file, cut := fun _ => false }
  enabled := PidWorld.Enabled
  step := PidWorld.step

/-- The id is written whole, and the file is cut if `exact`. -/
def WritesWhole (exact : Prop) : PidEvent → Prop
  | .sync _ => True
  | .ftruncate _ fails => exact → fails = false
  | .write pid count => count = (pidText pid).length

/-- The file names the owner, unless the owner is about to write its id. -/
def PidWorld.NamesOwner (exact : Prop) (s : PidWorld) : Prop :=
  ∀ pid, s.world.owner = some pid → ¬ s.AtWritePid pid →
    pidText pid <+: s.file ∧ (exact → s.file = pidText pid)

structure PidInv (exact : Prop) (s : PidWorld) : Prop where
  lock : LockInv s.world
  alive : s.world.OwnerAlive
  names : s.NamesOwner exact
  cut : ∀ pid, s.cut pid = true → s.AtWritePid pid ∧ (exact → s.file = [])

namespace PidInv

variable {exact : Prop} {s : PidWorld} {pid q : Pid} {p : Process}

/-- Whoever is about to write owns the lock. -/
theorem owner_of_atWritePid (h : PidInv exact s) (hpid : s.AtWritePid pid) :
    s.world.owner = some pid := by
  obtain ⟨p, caller, hp, hplace⟩ := hpid
  exact (h.lock pid p hp).owns (by rw [Process.Guarded, hplace]; trivial)

/-- Steps that leave the file, and a process between its two calls where it is, unless that
process ends. -/
theorem of_world (h : PidInv exact s) {w' : World} {cut : Pid → Bool} (hlock : LockInv w')
    (halive : w'.OwnerAlive) (hcut : ∀ pid, cut pid = true → s.cut pid = true)
    (hsame : ∀ pid, s.AtWritePid pid → w'.process pid = s.world.process pid ∨
      (w'.owner ≠ some pid ∧ cut pid = false))
    (howner : ∀ pid, w'.owner = some pid → s.world.owner = some pid ∨
      PidWorld.AtWritePid { s with world := w', cut := cut } pid) :
    PidInv exact { s with world := w', cut := cut } where
  lock := hlock
  alive := halive
  names pid hown hnot := by
    refine h.names pid ((howner pid hown).resolve_right hnot) fun hat => hnot ?_
    rcases hsame pid hat with hp | ⟨hne, -⟩
    · rw [PidWorld.AtWritePid, hp]
      exact hat
    · exact absurd hown hne
  cut pid hpid := by
    obtain ⟨hat, hempty⟩ := h.cut pid (hcut pid hpid)
    refine ⟨?_, hempty⟩
    rcases hsame pid hat with hp | ⟨-, hfalse⟩
    · rw [PidWorld.AtWritePid, hp]
      exact hat
    · exact absurd (hfalse.symm.trans hpid) (by decide)

theorem sync (h : PidInv exact s) {e : SyncEvent}
    (hen : s.Enabled (.sync e)) : PidInv exact (s.step (.sync e)) := by
  obtain ⟨hen, hwrite⟩ := hen
  have hlock := h.lock.step hen
  have halive := h.alive.step hen
  have hset : ∀ {pid q : Pid} {p : Process} {w : World}, pid ≠ q →
      (w.set q p).process pid = w.process pid := World.process_set_of_ne
  cases e with
  | exec q program opts =>
    have hen : s.world.process q = none := hen
    refine h.of_world hlock halive (fun _ hc => hc) (fun pid hat => .inl (hset ?_))
      fun _ hown => .inl hown
    rintro rfl
    obtain ⟨p, caller, hp, -⟩ := hat
    rw [hen] at hp
    cases hp
  | step q fails =>
    obtain ⟨p, hp, -⟩ := hen
    have hne : ∀ pid, s.AtWritePid pid → pid ≠ q :=
      fun pid hat heq => hwrite q fails rfl (heq ▸ hat)
    have hout := s.world.stepProcess_outcome q p fails
    simp only [PidWorld.step, World.step, hp] at hlock halive ⊢
    generalize s.world.stepProcess q p fails = w' at hout hlock halive
    cases hout with
    | moved _ _ =>
      exact h.of_world hlock halive (fun _ hc => hc) (fun pid hat => .inl (hset (hne pid hat)))
        fun _ hown => .inl hown
    | @granted caller _ _ _ =>
      refine h.of_world hlock halive (fun _ hc => hc) (fun pid hat => .inl (hset (hne pid hat)))
        fun pid hown => .inr ?_
      obtain rfl : q = pid := Option.some.inj hown
      exact ⟨_, caller, World.process_set _ _ _, rfl⟩
    | closed _ =>
      exact h.of_world hlock halive (fun _ hc => hc) (fun pid hat => .inl (hset (hne pid hat)))
        fun _ hown => .inl (World.owner_of_drop hown).1
    | ended =>
      exact h.of_world hlock halive (fun _ hc => hc)
        (fun pid hat => .inl (World.process_exit_of_ne (hne pid hat)))
        fun _ hown => .inl (World.owner_of_drop hown).1
  | fork q child =>
    obtain ⟨hchild, p, hp, hplace⟩ := hen
    simp only [PidWorld.step, World.step, hp] at hlock halive ⊢
    refine h.of_world hlock halive (fun _ hc => hc) (fun pid hat => .inl ?_) fun _ hown => .inl hown
    obtain ⟨p', caller, hp', hplace'⟩ := hat
    have hne : pid ≠ child := by
      rintro rfl
      rw [hchild] at hp'
      cases hp'
    have hne' : pid ≠ q := by
      rintro rfl
      rw [Option.some.inj (hp.symm.trans hp'), hplace'] at hplace
      cases hplace
    exact (hset hne).trans (hset hne')
  | kill q =>
    refine h.of_world hlock halive (fun pid hc => ?_) (fun pid hat => ?_)
      fun _ hown => .inl (World.owner_of_drop hown).1
    · have hc : Function.update s.cut q false pid = true := hc
      by_cases hne : pid = q
      · subst hne
        rw [Function.update_self] at hc
        cases hc
      · rwa [Function.update_of_ne hne] at hc
    · by_cases hne : pid = q
      · subst hne
        exact .inr ⟨fun hown => (World.owner_of_drop hown).2 rfl, Function.update_self _ _ _⟩
      · exact .inl (World.process_exit_of_ne hne)

theorem ftruncate (h : PidInv exact s) {fails : Bool} (hen : s.Enabled (.ftruncate pid fails))
    (hclean : exact → fails = false) : PidInv exact (s.step (.ftruncate pid fails)) where
  lock := h.lock
  alive := h.alive
  names q hown hnot := by
    have hpid := h.owner_of_atWritePid hen.1
    obtain rfl : q = pid := Option.some.inj (hown.symm.trans hpid)
    exact absurd hen.1 hnot
  cut q hq := by
    have hq : Function.update s.cut pid true q = true := hq
    have hat : s.AtWritePid q := by
      by_cases hne : q = pid
      · subst hne
        exact hen.1
      · rw [Function.update_of_ne hne] at hq
        exact (h.cut q hq).1
    refine ⟨hat, fun hexact => ?_⟩
    rw [PidWorld.step, hclean hexact]
    rfl

theorem write (h : PidInv exact s) {count : Nat} (hen : s.Enabled (.write pid count))
    (hclean : count = (pidText pid).length) : PidInv exact (s.step (.write pid count)) := by
  obtain ⟨hat, hcut, -⟩ := hen
  have hpid := h.owner_of_atWritePid hat
  obtain ⟨p, caller, hp, hplace⟩ := id hat
  have hstep : s.world.Enabled (.step pid false) := ⟨p, hp, by rw [hplace]; nofun⟩
  have hfile : (s.step (.write pid count)).file =
      pidText pid ++ s.file.drop (pidText pid).length := by
    rw [PidWorld.step, hclean, List.take_length]
  refine ⟨h.lock.step hstep, h.alive.step hstep, fun q hown _ => ?_, fun q hq => ?_⟩
  · have howner : (s.world.step (.step pid false)).owner = s.world.owner := by
      simp only [World.step, hp, World.stepProcess, hplace]
      cases caller <;> rfl
    obtain rfl : q = pid := Option.some.inj (hown.symm.trans (howner.trans hpid))
    rw [hfile]
    refine ⟨List.prefix_append _ _, fun hexact => ?_⟩
    rw [(h.cut q hcut).2 hexact, List.drop_nil, List.append_nil]
  · have hq : Function.update s.cut pid false q = true := hq
    by_cases hne : q = pid
    · subst hne
      rw [Function.update_self] at hq
      cases hq
    · rw [Function.update_of_ne hne] at hq
      have hown := h.owner_of_atWritePid (h.cut q hq).1
      exact absurd (Option.some.inj (hown.symm.trans hpid)) hne

theorem step (h : PidInv exact s) {e : PidEvent} (hen : s.Enabled e)
    (hclean : WritesWhole exact e) : PidInv exact (s.step e) := by
  cases e with
  | sync e => exact h.sync hen
  | ftruncate pid fails => exact h.ftruncate hen hclean
  | write pid count => exact h.write hen hclean

theorem start (exact : Prop) (file : List Char) : PidInv exact (pidMachine file).init where
  lock := LockInv.start
  alive := World.ownerAlive_start
  names _ hown := nomatch hown
  cut _ hcut := nomatch hcut

end PidInv

/-- Whatever was in the file, in every run in which the ids are written whole the file names
the owner of the lock, whenever the owner is not about to write; and there is nothing else in
the file if each owner could cut it. -/
theorem pidFile_names_owner (exact : Prop) (file : List Char) (es : List PidEvent)
    (hadm : (pidMachine file).Admits (pidMachine file).init es)
    (hclean : ∀ e ∈ es, WritesWhole exact e) :
    (pidMachine file).Throughout (PidWorld.NamesOwner exact) (pidMachine file).init es :=
  (Machine.throughout_of_invariant (m := pidMachine file) (I := PidInv exact)
    (C := fun _ e => WritesWhole exact e) (fun _ _ h hen hc => h.step hen hc)
    (PidInv.start exact file) hadm (Machine.along_event_iff.mpr hclean)).mono fun _ h => h.names

/-- Process 12 starts on the file that process 340 has left, and cannot cut it. -/
def overLeftId : List PidEvent :=
  [.sync (.exec 12 .guestSync [.v]), .sync (.step 12 false), .sync (.step 12 false),
    .sync (.step 12 false), .sync (.step 12 false), .sync (.step 12 false), .ftruncate 12 true,
    .write 12 3]

theorem not_atWritePid {s : PidWorld} {q : Pid} {fails : Bool} {p : Process}
    (hp : s.world.process q = some p)
    (hplace : ∀ caller, p.place ≠ .alreadyRunning caller .writePid) :
    ∀ pid fails', SyncEvent.step q fails = .step pid fails' → ¬ s.AtWritePid pid := by
  rintro pid fails' heq ⟨p', caller, hp', hplace'⟩
  obtain ⟨rfl, -⟩ := SyncEvent.step.inj heq
  exact hplace caller (Option.some.inj (hp.symm.trans hp') ▸ hplace')

theorem pidFile_names_owner_over_left_id :
    ((pidMachine "340\x00".toList).run (pidMachine "340\x00".toList).init
      overLeftId).NamesOwner False ∧
    ((pidMachine "340\x00".toList).run (pidMachine "340\x00".toList).init overLeftId).file =
      "12\x00\x00".toList := by
  have hadm : (pidMachine "340\x00".toList).Admits (pidMachine "340\x00".toList).init
      overLeftId :=
    ⟨⟨rfl, nofun⟩, ⟨⟨_, rfl, nofun⟩, not_atWritePid rfl nofun⟩,
      ⟨⟨_, rfl, nofun⟩, not_atWritePid rfl nofun⟩, ⟨⟨_, rfl, nofun⟩, not_atWritePid rfl nofun⟩,
      ⟨⟨_, rfl, nofun⟩, not_atWritePid rfl nofun⟩, ⟨⟨_, rfl, nofun⟩, not_atWritePid rfl nofun⟩,
      ⟨⟨_, .beforeLoop, rfl, rfl⟩, rfl⟩, ⟨⟨_, .beforeLoop, rfl, rfl⟩, rfl, by decide⟩, trivial⟩
  have hclean : ∀ e ∈ overLeftId, WritesWhole False e := by
    have hlength : 3 = (pidText 12).length := by decide
    simp [overLeftId, WritesWhole, hlength]
  exact ⟨(pidFile_names_owner False _ overLeftId hadm hclean).run, rfl⟩

end TimeTools.Sync
