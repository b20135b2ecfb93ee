import Mathlib.Data.Finset.Basic

/-!
# Resources held and resources owed

A ledger follows what a program acquires and releases.  Releasing what is not held
does not change what is held, but it is not forgotten either: it is a spurious
release.  A ledger is exact for a description of what should be held when it holds
that and has seen no spurious release.
-/

structure Ledger (ρ : Type) where
  held : Finset ρ
  spurious : List ρ

namespace Ledger

variable {ρ : Type} {L : Ledger ρ} {E F : ρ → Prop}

def empty : Ledger ρ := { held := ∅, spurious := [] }

/-- The ledger holds what `E` describes, and nothing was released in vain. -/
structure Exact (L : Ledger ρ) (E : ρ → Prop) : Prop where
  spurious : L.spurious = []
  held : ∀ r, r ∈ L.held ↔ E r

theorem exact_empty : (empty : Ledger ρ).Exact (fun _ => False) :=
  ⟨rfl, fun _ => by simp [empty]⟩

theorem Exact.congr (h : L.Exact E) (hEF : ∀ r, E r ↔ F r) : L.Exact F :=
  ⟨h.spurious, fun r => (h.held r).trans (hEF r)⟩

theorem not_exact_of_mem {r : ρ} (hr : r ∈ L.held) (hE : ¬ E r) : ¬ L.Exact E :=
  fun h => hE ((h.held r).mp hr)

theorem not_exact_of_not_mem {r : ρ} (hr : r ∉ L.held) (hE : E r) : ¬ L.Exact E :=
  fun h => hr ((h.held r).mpr hE)

variable [DecidableEq ρ] (L)

def acquire (r : ρ) : Ledger ρ := { L with held := insert r L.held }

def release (r : ρ) : Ledger ρ :=
  if r ∈ L.held then { L with held := L.held.erase r }
  else { L with spurious := L.spurious ++ [r] }

@[simp] theorem mem_acquire {r x : ρ} : x ∈ (L.acquire r).held ↔ x = r ∨ x ∈ L.held :=
  Finset.mem_insert

@[simp] theorem mem_release {r x : ρ} : x ∈ (L.release r).held ↔ x ≠ r ∧ x ∈ L.held := by
  rw [release]
  split
  · exact Finset.mem_erase
  · rename_i hr
    exact ⟨fun hx => ⟨fun hxr => hr (hxr ▸ hx), hx⟩, And.right⟩

theorem spurious_release {r : ρ} (hr : r ∈ L.held) :
    (L.release r).spurious = L.spurious := by
  rw [release, if_pos hr]

/-- A spurious release stays on record. -/
theorem spurious_release_ne_nil {r : ρ} (hr : r ∉ L.held ∨ L.spurious ≠ []) :
    (L.release r).spurious ≠ [] := by
  rw [release]
  split
  · rename_i hmem
    exact hr.resolve_left (not_not_intro hmem)
  · simp

theorem release_acquire {r : ρ} (hr : r ∉ L.held) : (L.acquire r).release r = L := by
  rw [release, if_pos (L.mem_acquire.mpr (.inl rfl)), acquire, Finset.erase_insert hr]

variable {L}

theorem Exact.acquire (h : L.Exact E) (r : ρ) : (L.acquire r).Exact (fun x => x = r ∨ E x) :=
  ⟨h.spurious, fun x => by rw [mem_acquire, h.held]⟩

theorem Exact.release (h : L.Exact E) {r : ρ} (hr : E r) :
    (L.release r).Exact (fun x => x ≠ r ∧ E x) :=
  ⟨by rw [spurious_release L ((h.held r).mpr hr), h.spurious], fun x => by
    rw [mem_release, h.held]⟩

end Ledger
