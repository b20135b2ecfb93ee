import TimeTools.Foundation.Run

/-!
# A signal and its handler

A signal that expires while it is pending is merged into the one that waits, and the
handler does not interrupt itself.  A handler first reads its input and changes the
globals, and puts out its result at its end.  However expiries and deliveries fall, every
expiry is accounted for (`State.Accounted`), and the program does what a loop over the
delivered inputs would do (`follows_run`).
-/

namespace Signal

abbrev Handler (γ ι ρ : Type) := γ → ι → γ × ρ

/-- `handling` is the result of the handler that has not returned. -/
structure State (γ ρ : Type) where
  globals : γ
  pending : Bool
  handling : Option ρ
  output : List ρ
  expiries : Nat
  merged : Nat

inductive Event (ι : Type)
  | expire
  | deliver (input : ι)
  | finish

variable {γ ι ρ : Type}

def Event.input? : Event ι → Option ι
  | .deliver input => some input
  | _ => none

def State.start (globals : γ) : State γ ρ where
  globals := globals
  pending := false
  handling := none
  output := []
  expiries := 0
  merged := 0

def State.Enabled (s : State γ ρ) : Event ι → Prop
  | .expire => True
  | .deliver _ => s.pending = true ∧ s.handling = none
  | .finish => s.handling.isSome = true

def State.step (handler : Handler γ ι ρ) (s : State γ ρ) : Event ι → State γ ρ
  | .expire =>
    if s.pending then { s with expiries := s.expiries + 1, merged := s.merged + 1 }
    else { s with expiries := s.expiries + 1, pending := true }
  | .deliver input =>
    let (globals, result) := handler s.globals input
    { s with globals := globals, pending := false, handling := some result }
  | .finish => { s with handling := none, output := s.output ++ s.handling.toList }

/-- What a step puts out. -/
def State.puts (s : State γ ρ) : Event ι → List ρ
  | .finish => s.handling.toList
  | _ => []

/-- What the handler has been called for, in order. -/
def State.results (s : State γ ρ) : List ρ := s.output ++ s.handling.toList

/-- Every expiry was handled, is pending, or was merged into another. -/
def State.Accounted (s : State γ ρ) : Prop :=
  s.results.length + s.pending.toNat + s.merged = s.expiries

def machine (handler : Handler γ ι ρ) (globals : γ) : Machine (State γ ρ) (Event ι) where
  init := .start globals
  enabled := State.Enabled
  step := State.step handler

/-- The program that calls its handler in a loop. -/
def loop (handler : Handler γ ι ρ) : γ → List ι → γ × List ρ
  | globals, [] => (globals, [])
  | globals, input :: inputs =>
    let (globals, result) := handler globals input
    let (globals, results) := loop handler globals inputs
    (globals, result :: results)

/-- The program has done what the loop does with `inputs`. -/
def State.Follows (handler : Handler γ ι ρ) (globals : γ) (s : State γ ρ) (inputs : List ι) :
    Prop :=
  loop handler globals inputs = (s.globals, s.results)

variable {handler : Handler γ ι ρ}

theorem loop_append (globals : γ) (is js : List ι) :
    loop handler globals (is ++ js) =
      ((loop handler (loop handler globals is).1 js).1,
        (loop handler globals is).2 ++ (loop handler (loop handler globals is).1 js).2) := by
  induction is generalizing globals with
  | nil => rfl
  | cons input is ih =>
    simp only [List.cons_append, loop]
    rw [ih]

theorem length_loop (handler : Handler γ ι ρ) (globals : γ) (inputs : List ι) :
    (loop handler globals inputs).2.length = inputs.length := by
  induction inputs generalizing globals with
  | nil => rfl
  | cons input inputs ih => exact congrArg (· + 1) (ih _)

/-- The result of a call is that of its input in the globals that the calls before it left. -/
theorem getElem?_loop (handler : Handler γ ι ρ) (globals : γ) {inputs : List ι}
    {k : Nat} {input : ι} (h : inputs[k]? = some input) :
    (loop handler globals inputs).2[k]? =
      some (handler (loop handler globals (inputs.take k)).1 input).2 := by
  induction inputs generalizing globals k with
  | nil => cases h
  | cons first inputs ih =>
    cases k with
    | zero =>
      cases h
      rfl
    | succ k => exact ih (handler globals first).1 h

theorem State.output_step (s : State γ ρ) (e : Event ι) :
    (s.step handler e).output = s.output ++ s.puts e := by
  cases e with
  | expire =>
    rw [step]
    split <;> simp [puts]
  | deliver input => simp [step, puts]
  | finish => rfl

theorem State.Accounted.start (globals : γ) : (State.start globals : State γ ρ).Accounted := rfl

theorem State.Accounted.step {s : State γ ρ} {e : Event ι} (h : s.Accounted) (he : s.Enabled e) :
    (s.step handler e).Accounted := by
  rw [State.Accounted, State.results, List.length_append] at h ⊢
  cases e with
  | expire =>
    cases hpending : s.pending with
    | true =>
      simp only [State.step, hpending, if_true]
      rw [hpending] at h
      omega
    | false =>
      simp only [State.step, hpending, Bool.false_eq_true, if_false]
      rw [hpending] at h
      simp only [Bool.toNat_false] at h
      simp only [Bool.toNat_true]
      omega
  | deliver input =>
    obtain ⟨hpending, hhandling⟩ := he
    rw [hpending, hhandling] at h
    simp only [State.step, Option.toList_some, List.length_singleton, Bool.toNat_false]
    simp only [Option.toList_none, List.length_nil, Bool.toNat_true] at h
    omega
  | finish =>
    simp only [State.step, List.length_append, Option.toList_none, List.length_nil]
    omega

theorem State.Follows.start (globals : γ) :
    (State.start globals : State γ ρ).Follows handler globals [] := rfl

/-- One step of the program is no step of the loop, or one. -/
theorem State.Follows.step {globals : γ} {s : State γ ρ} {inputs : List ι} {e : Event ι}
    (h : s.Follows handler globals inputs) (he : s.Enabled e) :
    (s.step handler e).Follows handler globals (inputs ++ e.input?.toList) := by
  cases e with
  | expire =>
    have hstep : (s.step handler .expire).globals = s.globals ∧
        (s.step handler .expire).results = s.results := by
      rw [State.step]
      split <;> exact ⟨rfl, rfl⟩
    show loop handler globals (inputs ++ []) = _
    rw [List.append_nil, h, hstep.1, hstep.2]
  | deliver input =>
    obtain ⟨-, hhandling⟩ := he
    show loop handler globals (inputs ++ [input]) = _
    rw [loop_append, h]
    simp [State.step, State.results, loop, hhandling]
  | finish =>
    show loop handler globals (inputs ++ []) = _
    rw [List.append_nil, h]
    simp [State.step, State.results]

theorem accounted_run {globals : γ} {es : List (Event ι)}
    (hadm : (machine handler globals).Admits (.start globals) es) :
    ((machine handler globals).run (.start globals) es).Accounted :=
  Machine.run_of_invariant (m := machine handler globals) (C := fun _ _ => True)
    (fun _ _ h he _ => State.Accounted.step h he) (State.Accounted.start globals) hadm
    (Machine.along_true _ _ _)

/-- The program refines the loop. -/
theorem follows_run {globals : γ} {s : State γ ρ} {inputs : List ι} {es : List (Event ι)}
    (h : s.Follows handler globals inputs) (hadm : (machine handler globals).Admits s es) :
    ((machine handler globals).run s es).Follows handler globals
      (inputs ++ es.filterMap Event.input?) := by
  induction es generalizing s inputs with
  | nil =>
    rw [List.filterMap_nil, List.append_nil]
    exact h
  | cons e es ih =>
    have hcons : (e :: es).filterMap Event.input? =
        e.input?.toList ++ es.filterMap Event.input? := by
      cases hinput : e.input? <;> simp [hinput]
    rw [hcons, ← List.append_assoc]
    exact ih (h.step hadm.1) hadm.2

end Signal
