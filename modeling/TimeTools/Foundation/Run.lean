import Mathlib.Data.List.Basic

/-!
# Runs of a machine driven by events

A machine has a start state, a step function, and a relation saying which events
can happen in which state.  Every outcome the environment is free to choose is
part of the event, so a run is a list of events.

The rules here are the two uses of an inductive invariant.  One carries a
property through every run (`throughout_of_invariant`).  The other applies to a
machine that keeps its property only while its steps are clean, and says that
the property holds throughout a run exactly when every step of it is
(`throughout_iff_along`).
-/

structure Machine (σ ε : Type) where
  init : σ
  enabled : σ → ε → Prop
  step : σ → ε → σ

namespace Machine

variable {σ ε : Type} (m : Machine σ ε)

def run (s : σ) (es : List ε) : σ := es.foldl m.step s

/-- `C` relates each event of the run to the state it happens in. -/
def Along (C : σ → ε → Prop) : σ → List ε → Prop
  | _, [] => True
  | s, e :: es => C s e ∧ Along C (m.step s e) es

def Admits (s : σ) (es : List ε) : Prop := m.Along m.enabled s es

/-- `P` holds in every state of the run, the first and the last included. -/
def Throughout (P : σ → Prop) : σ → List ε → Prop
  | s, [] => P s
  | s, e :: es => P s ∧ Throughout P (m.step s e) es

def Reachable (s : σ) : Prop := ∃ es, m.Admits m.init es ∧ m.run m.init es = s

@[simp] theorem run_nil (s : σ) : m.run s [] = s := rfl

@[simp] theorem run_cons (s : σ) (e : ε) (es : List ε) :
    m.run s (e :: es) = m.run (m.step s e) es := rfl

theorem run_append (s : σ) (es fs : List ε) : m.run s (es ++ fs) = m.run (m.run s es) fs :=
  List.foldl_append

theorem along_true (s : σ) (es : List ε) : m.Along (fun _ _ => True) s es := by
  induction es generalizing s with
  | nil => trivial
  | cons e es ih => exact ⟨trivial, ih _⟩

theorem along_append (C : σ → ε → Prop) (s : σ) (es fs : List ε) :
    m.Along C s (es ++ fs) ↔ m.Along C s es ∧ m.Along C (m.run s es) fs := by
  induction es generalizing s with
  | nil => simp [Along]
  | cons e es ih => simp [Along, ih, and_assoc]

variable {m} {I P : σ → Prop} {C D : σ → ε → Prop}

theorem Along.and {s : σ} {es : List ε} (hC : m.Along C s es) (hD : m.Along D s es) :
    m.Along (fun s e => C s e ∧ D s e) s es := by
  induction es generalizing s with
  | nil => trivial
  | cons e es ih => exact ⟨⟨hC.1, hD.1⟩, ih hC.2 hD.2⟩

theorem Throughout.mono (h : ∀ s, P s → I s) {s : σ} {es : List ε}
    (hs : m.Throughout P s es) : m.Throughout I s es := by
  induction es generalizing s with
  | nil => exact h s hs
  | cons e es ih => exact ⟨h s hs.1, ih hs.2⟩

theorem Throughout.run {s : σ} {es : List ε} (h : m.Throughout P s es) : P (m.run s es) := by
  induction es generalizing s with
  | nil => exact h
  | cons e es ih => exact ih h.2

theorem throughout_of_invariant
    (hstep : ∀ s e, I s → m.enabled s e → C s e → I (m.step s e))
    {s : σ} (hs : I s) {es : List ε} (hadm : m.Admits s es) (hclean : m.Along C s es) :
    m.Throughout I s es := by
  induction es generalizing s with
  | nil => exact hs
  | cons e es ih => exact ⟨hs, ih (hstep s e hs hadm.1 hclean.1) hadm.2 hclean.2⟩

theorem run_of_invariant
    (hstep : ∀ s e, I s → m.enabled s e → C s e → I (m.step s e))
    {s : σ} (hs : I s) {es : List ε} (hadm : m.Admits s es) (hclean : m.Along C s es) :
    I (m.run s es) := by
  induction es generalizing s with
  | nil => exact hs
  | cons e es ih => exact ih (hstep s e hs hadm.1 hclean.1) hadm.2 hclean.2

theorem reachable_of_invariant (hinit : I m.init)
    (hstep : ∀ s e, I s → m.enabled s e → I (m.step s e)) {s : σ} (hs : m.Reachable s) :
    I s := by
  obtain ⟨es, hadm, rfl⟩ := hs
  exact run_of_invariant (C := fun _ _ => True) (fun s e h he _ => hstep s e h he) hinit hadm
    (m.along_true _ es)

theorem along_of_invariant (hstep : ∀ s e, I s → m.enabled s e → I (m.step s e))
    (hC : ∀ s e, I s → m.enabled s e → C s e) {s : σ} (hs : I s) {es : List ε}
    (hadm : m.Admits s es) : m.Along C s es := by
  induction es generalizing s with
  | nil => trivial
  | cons e es ih => exact ⟨hC s e hs hadm.1, ih (hstep s e hs hadm.1) hadm.2⟩

/-- When clean steps keep the invariant and any other step breaks the property,
the property holds throughout a run exactly when all its steps are clean. -/
theorem throughout_iff_along (hI : ∀ s, I s → P s)
    (hclean : ∀ s e, I s → m.enabled s e → C s e → I (m.step s e))
    (hdirty : ∀ s e, I s → m.enabled s e → ¬ C s e → ¬ P (m.step s e))
    {s : σ} (hs : I s) {es : List ε} (hadm : m.Admits s es) :
    m.Throughout P s es ↔ m.Along C s es := by
  refine ⟨fun h => ?_, fun h => (throughout_of_invariant hclean hs hadm h).mono hI⟩
  induction es generalizing s with
  | nil => trivial
  | cons e es ih =>
    have hP : P (m.step s e) := by
      cases es with
      | nil => exact h.2
      | cons f es => exact h.2.1
    have hC : C s e := by
      by_contra hC
      exact hdirty s e hs hadm.1 hC hP
    exact ⟨hC, ih (hclean s e hs hadm.1 hC) hadm.2 h.2⟩

/-- Under an invariant, two descriptions of the steps that agree step by step
agree on runs. -/
theorem along_congr (hstep : ∀ s e, I s → m.enabled s e → I (m.step s e))
    (hCD : ∀ s e, I s → m.enabled s e → (C s e ↔ D s e))
    {s : σ} (hs : I s) {es : List ε} (hadm : m.Admits s es) :
    m.Along C s es ↔ m.Along D s es := by
  induction es generalizing s with
  | nil => rfl
  | cons e es ih =>
    exact and_congr (hCD s e hs hadm.1) (ih (hstep s e hs hadm.1) hadm.2)

theorem along_event_iff {Q : ε → Prop} {s : σ} {es : List ε} :
    m.Along (fun _ e => Q e) s es ↔ ∀ e ∈ es, Q e := by
  induction es generalizing s with
  | nil => simp [Along]
  | cons e es ih => simp [Along, ih]

end Machine
