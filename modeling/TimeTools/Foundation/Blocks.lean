import Mathlib.Data.List.Basic

/-!
# Lists cut into blocks

A sequence of blocks of one size is determined by its concatenation, so a
prefix of the concatenation that is itself cut into such blocks is a prefix of
the sequence.  Without knowing the sizes, blocks of at most one size that reach
the length of full blocks are full.
-/

namespace Blocks

variable {α : Type} {w : Nat}

def Full (w : Nat) (bs : List (List α)) : Prop := ∀ b ∈ bs, b.length = w

theorem full_cons {b : List α} {bs : List (List α)} :
    Full w (b :: bs) ↔ b.length = w ∧ Full w bs := List.forall_mem_cons

theorem full_map {β : Type} {f : β → List α} (hf : ∀ x, (f x).length = w) (xs : List β) :
    Full w (xs.map f) := by
  intro b hb
  obtain ⟨x, -, rfl⟩ := List.mem_map.mp hb
  exact hf x

theorem length_flatten {bs : List (List α)} (h : Full w bs) :
    bs.flatten.length = bs.length * w := by
  induction bs with
  | nil => simp
  | cons b bs ih =>
    obtain ⟨hb, hbs⟩ := full_cons.mp h
    rw [List.flatten_cons, List.length_append, ih hbs, hb, List.length_cons, Nat.succ_mul,
      Nat.add_comm]

theorem length_flatten_le {bs : List (List α)} (h : ∀ b ∈ bs, b.length ≤ w) :
    bs.flatten.length ≤ bs.length * w := by
  induction bs with
  | nil => simp
  | cons b bs ih =>
    obtain ⟨hb, hbs⟩ := List.forall_mem_cons.mp h
    have hrest := ih hbs
    rw [List.flatten_cons, List.length_append, List.length_cons, Nat.succ_mul]
    omega

theorem full_of_length_le {bs : List (List α)} (h : ∀ b ∈ bs, b.length ≤ w)
    (htotal : bs.length * w ≤ bs.flatten.length) : Full w bs := by
  induction bs with
  | nil => exact fun _ hb => absurd hb List.not_mem_nil
  | cons b bs ih =>
    obtain ⟨hb, hbs⟩ := List.forall_mem_cons.mp h
    have hrest := length_flatten_le hbs
    rw [List.flatten_cons, List.length_append, List.length_cons, Nat.succ_mul] at htotal
    exact full_cons.mpr ⟨by omega, ih hbs (by omega)⟩

/-- A prefix of a concatenation, cut into blocks of the same size, is a prefix of
the blocks. -/
theorem prefix_of_flatten_prefix (hw : 0 < w) {cs ds : List (List α)} (hc : Full w cs)
    (hd : Full w ds) (h : cs.flatten <+: ds.flatten) : cs <+: ds := by
  induction cs generalizing ds with
  | nil => exact List.nil_prefix
  | cons c cs ih =>
    obtain ⟨hcw, hcs⟩ := full_cons.mp hc
    cases ds with
    | nil =>
      have hlen := h.length_le
      rw [List.flatten_cons, List.length_append, List.flatten_nil, List.length_nil] at hlen
      omega
    | cons d ds =>
      obtain ⟨hdw, hds⟩ := full_cons.mp hd
      obtain ⟨rest, hrest⟩ := h
      rw [List.flatten_cons, List.flatten_cons, List.append_assoc] at hrest
      obtain ⟨rfl, htail⟩ := List.append_inj hrest (hcw.trans hdw.symm)
      exact List.cons_prefix_cons.mpr ⟨rfl, ih hcs hds ⟨rest, htail⟩⟩

end Blocks
