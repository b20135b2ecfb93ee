import Mathlib.Algebra.Order.Ring.Int
import Mathlib.Tactic.Ring

/-!
# Splitting an integer over a base with one sign

A quantity held in two units, `q` whole units of size `b` and `r` small ones, has
many representations of one total `q * b + r`.  The one with `|r| < b` and with
`q` and `r` never of opposite signs is unique, and it is the split that division
truncating toward zero gives.  `carry` followed by `repair` reaches it from any
representation.
-/

namespace SignedSplit

variable {b q r q' r' : Int}

def total (b q r : Int) : Int := q * b + r

/-- `r` is smaller than a unit, and `q` and `r` do not have opposite signs. -/
structure IsSplit (b q r : Int) : Prop where
  lower : -b < r
  upper : r < b
  nonneg : 0 < q → 0 ≤ r
  nonpos : q < 0 → r ≤ 0

theorem isSplit_tdiv_tmod (hb : 0 < b) (n : Int) : IsSplit b (n.tdiv b) (n.tmod b) := by
  refine ⟨Int.lt_tmod_of_pos n hb, Int.tmod_lt_of_pos n hb, fun hq => ?_, fun hq => ?_⟩
  · refine Int.tmod_nonneg b ?_
    by_contra hn
    have hneg : 0 ≤ (-n).tdiv b := Int.tdiv_nonneg (by omega) (by omega)
    rw [Int.neg_tdiv] at hneg
    omega
  · have hn : n ≤ 0 := by
      by_contra hn
      have : 0 ≤ n.tdiv b := Int.tdiv_nonneg (by omega) (by omega)
      omega
    have : 0 ≤ (-n).tmod b := Int.tmod_nonneg b (by omega)
    rw [Int.neg_tmod] at this
    omega

theorem total_tdiv_tmod (b n : Int) : total b (n.tdiv b) (n.tmod b) = n := by
  rw [total, Int.mul_comm]
  exact Int.mul_tdiv_add_tmod n b

namespace IsSplit

theorem base_pos (h : IsSplit b q r) : 0 < b := by
  have := h.lower
  have := h.upper
  omega

/-- Two splits of one total agree in the large unit: a difference of a whole unit
could only be made up by small parts of opposite signs. -/
theorem fst_le (h : IsSplit b q r) (h' : IsSplit b q' r') (ht : total b q r = total b q' r') :
    q ≤ q' := by
  by_contra hlt
  have hb := h.base_pos
  obtain ⟨d, hd⟩ : ∃ d, q = q' + 1 + d := ⟨q - q' - 1, by omega⟩
  have hd0 : 0 ≤ d := by omega
  have hdb : 0 ≤ d * b := Int.mul_nonneg hd0 (by omega)
  have hgap : r' = b + d * b + r := by
    simp only [total, hd, Int.add_mul, Int.one_mul] at ht
    omega
  have hr := h.lower
  have hr' := h'.upper
  have hq : ¬ 0 < q := fun hpos => by
    have := h.nonneg hpos
    omega
  have hq' := h'.nonpos (by omega)
  omega

theorem fst_unique (h : IsSplit b q r) (h' : IsSplit b q' r')
    (ht : total b q r = total b q' r') : q = q' :=
  Int.le_antisymm (h.fst_le h' ht) (h'.fst_le h ht.symm)

theorem snd_unique (h : IsSplit b q r) (h' : IsSplit b q' r')
    (ht : total b q r = total b q' r') : r = r' := by
  have hq := h.fst_unique h' ht
  subst hq
  simp only [total] at ht
  omega

theorem fst_eq_tdiv (h : IsSplit b q r) : q = (total b q r).tdiv b :=
  h.fst_unique (isSplit_tdiv_tmod h.base_pos _) (total_tdiv_tmod b _).symm

theorem snd_eq_tmod (h : IsSplit b q r) : r = (total b q r).tmod b :=
  h.snd_unique (isSplit_tdiv_tmod h.base_pos _) (total_tdiv_tmod b _).symm

theorem parts_nonneg (h : IsSplit b q r) (ht : 0 ≤ total b q r) : 0 ≤ q ∧ 0 ≤ r := by
  have hb := h.base_pos
  constructor
  · rw [h.fst_eq_tdiv]
    exact Int.tdiv_nonneg ht (by omega)
  · rw [h.snd_eq_tmod]
    exact Int.tmod_nonneg b ht

end IsSplit

theorem tdiv_eq_zero (hlo : -b < r) (hhi : r < b) : r.tdiv b = 0 := by
  have hsplit : IsSplit b 0 r := ⟨hlo, hhi, fun h => by omega, fun h => by omega⟩
  have hq := hsplit.fst_eq_tdiv
  rw [total, Int.zero_mul, Int.zero_add] at hq
  exact hq.symm

/-! ## Reaching the split -/

/-- Move the whole units contained in the small part into the large one. -/
def carry (b q r : Int) : Int × Int := (q + r.tdiv b, r - r.tdiv b * b)

/-- Trade one unit when the parts have opposite signs. -/
def repair (b q r : Int) : Int × Int :=
  if 0 < q ∧ r < 0 then (q - 1, r + b)
  else if q < 0 ∧ 0 < r then (q + 1, r - b)
  else (q, r)

theorem carry_total (b q r : Int) : total b (carry b q r).1 (carry b q r).2 = total b q r := by
  simp only [total, carry, Int.add_mul]
  omega

theorem carry_snd (b q r : Int) : (carry b q r).2 = r.tmod b := by
  have := Int.mul_tdiv_add_tmod r b
  rw [Int.mul_comm] at this
  simp only [carry]
  omega

theorem repair_total (b q r : Int) :
    total b (repair b q r).1 (repair b q r).2 = total b q r := by
  unfold repair
  split
  · simp only [total, Int.sub_mul]; omega
  · split
    · simp only [total, Int.add_mul]; omega
    · rfl

theorem isSplit_repair (hlo : -b < r) (hhi : r < b) :
    IsSplit b (repair b q r).1 (repair b q r).2 := by
  unfold repair
  split
  · exact ⟨by omega, by omega, fun _ => by omega, fun _ => by omega⟩
  · split
    · exact ⟨by omega, by omega, fun _ => by omega, fun _ => by omega⟩
    · exact ⟨hlo, hhi, fun _ => by omega, fun _ => by omega⟩

end SignedSplit
