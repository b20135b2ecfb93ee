import Mathlib.Algebra.Order.Ring.Int

/-!
# Exactness of fixed-width arithmetic

Signed words wrap.  Each lemma here removes the wrap from one operation when the
true result fits in the word, so that an argument about machine words becomes an
argument about integers with one range hypothesis for each operation.  The last
group reads a wrapped difference of two unsigned words as a signed one.
-/

namespace FixedWidth

def FitsInt64 (n : Int) : Prop := -2 ^ 63 ≤ n ∧ n < 2 ^ 63

def FitsInt32 (n : Int) : Prop := -2 ^ 31 ≤ n ∧ n < 2 ^ 31

instance (n : Int) : Decidable (FitsInt64 n) := inferInstanceAs (Decidable (_ ∧ _))

instance (n : Int) : Decidable (FitsInt32 n) := inferInstanceAs (Decidable (_ ∧ _))

theorem fitsInt64_toInt (a : Int64) : FitsInt64 a.toInt := ⟨a.le_toInt, a.toInt_lt⟩

theorem fitsInt32_toInt (a : Int32) : FitsInt32 a.toInt := ⟨a.le_toInt, a.toInt_lt⟩

theorem bmod64_eq_of_fits {n : Int} (h : FitsInt64 n) : n.bmod (2 ^ 64) = n := by
  obtain ⟨lo, hi⟩ := h
  exact Int.bmod_eq_of_le (by omega) (by omega)

theorem bmod32_eq_of_fits {n : Int} (h : FitsInt32 n) : n.bmod (2 ^ 32) = n := by
  obtain ⟨lo, hi⟩ := h
  exact Int.bmod_eq_of_le (by omega) (by omega)

/-- A 32-bit wrap changes exactly the values that do not fit. -/
theorem bmod32_eq_iff_fits {n : Int} : n.bmod (2 ^ 32) = n ↔ FitsInt32 n := by
  refine ⟨fun h => ?_, bmod32_eq_of_fits⟩
  rw [← h]
  have lo := @Int.le_bmod n (2 ^ 32) (by decide)
  have hi := @Int.bmod_lt n (2 ^ 32) (by decide)
  exact ⟨by omega, by omega⟩

/-! ## Signed 64-bit operations -/

theorem toInt_add_of_fits {a b : Int64} (h : FitsInt64 (a.toInt + b.toInt)) :
    (a + b).toInt = a.toInt + b.toInt := by
  rw [Int64.toInt_add, bmod64_eq_of_fits h]

theorem toInt_sub_of_fits {a b : Int64} (h : FitsInt64 (a.toInt - b.toInt)) :
    (a - b).toInt = a.toInt - b.toInt := by
  rw [Int64.toInt_sub, bmod64_eq_of_fits h]

theorem toInt_div_of_ne {a b : Int64} (h : b ≠ -1) :
    (a / b).toInt = a.toInt.tdiv b.toInt := Int64.toInt_div_of_ne_right a b h

theorem toInt32_of_fits {a : Int64} (h : FitsInt32 a.toInt) : a.toInt32.toInt = a.toInt := by
  rw [Int64.toInt_toInt32, bmod32_eq_of_fits h]

/-! ## Signed 32-bit operations -/

theorem toInt_neg32_of_fits {a : Int32} (h : FitsInt32 (-a.toInt)) :
    (-a).toInt = -a.toInt := by
  rw [Int32.toInt_neg, bmod32_eq_of_fits h]

theorem toInt_mul32_of_fits {a b : Int32} (h : FitsInt32 (a.toInt * b.toInt)) :
    (a * b).toInt = a.toInt * b.toInt := by
  rw [Int32.toInt_mul, bmod32_eq_of_fits h]

/-! ## Unsigned words read as signed ones -/

theorem toInt_toInt64 (a : UInt64) : a.toInt64.toInt = (a.toNat : Int).bmod (2 ^ 64) := by
  rw [← UInt64.toNat_toBitVec, ← BitVec.toInt_eq_toNat_bmod]
  rfl

theorem toInt_toInt64_of_lt {a : UInt64} (h : a.toNat < 2 ^ 63) : a.toInt64.toInt = a.toNat := by
  rw [toInt_toInt64, bmod64_eq_of_fits ⟨by omega, by omega⟩]

theorem toNat_toUInt64 (a : Int64) : (a.toUInt64.toNat : Int) = a.toInt % 2 ^ 64 := by
  have hlt := a.toUInt64.toNat_lt
  have ha := toInt_toInt64 a.toUInt64
  rw [Int64.toInt64_toUInt64, Int.bmod_def] at ha
  split at ha <;> omega

theorem toNat_toUInt32 (a : Int64) : (a.toUInt64.toUInt32.toNat : Int) = a.toInt % 2 ^ 32 := by
  have ha := toNat_toUInt64 a
  rw [UInt64.toNat_toUInt32]
  omega

/-- Whichever of two unsigned words is the larger, their distance taken in
unsigned arithmetic and given its sign afterwards is the wrapped difference. -/
theorem signed_distance (a b : UInt64) :
    (if b < a then (-(a - b)).toInt64 else (b - a).toInt64) = b.toInt64 - a.toInt64 := by
  have hneg : -(a - b) = b - a := UInt64.neg_sub
  rw [hneg, ite_self, UInt64.toInt64_sub]

end FixedWidth
