import Mathlib.Data.Nat.Init
import Mathlib.Tactic.Ring

/-!
# Byte strings of a number

A number below `256 ^ n` and its `n` little-endian bytes determine each other.
Code assembles such numbers by shifting bytes and combining them with a bitwise
or, and takes them apart by masking and shifting; `ofLeBytes_concat` and
`masked_byte` turn one step of either into arithmetic.
-/

namespace ByteOrder

/-- The `n` low bytes of `x`, least significant first. -/
def leBytes : Nat → Nat → List UInt8
  | 0, _ => []
  | n + 1, x => UInt8.ofNat x :: leBytes n (x / 256)

def ofLeBytes : List UInt8 → Nat
  | [] => 0
  | b :: bs => b.toNat + 256 * ofLeBytes bs

@[simp] theorem length_leBytes (n x : Nat) : (leBytes n x).length = n := by
  induction n generalizing x with
  | zero => rfl
  | succ n ih => simp [leBytes, ih]

theorem ofLeBytes_lt (bs : List UInt8) : ofLeBytes bs < 256 ^ bs.length := by
  induction bs with
  | nil => decide
  | cons b bs ih =>
    have hb := b.toNat_lt
    rw [List.length_cons, Nat.pow_succ, ofLeBytes]
    omega

theorem ofLeBytes_leBytes (n x : Nat) : ofLeBytes (leBytes n x) = x % 256 ^ n := by
  induction n generalizing x with
  | zero => rw [leBytes, ofLeBytes, Nat.pow_zero, Nat.mod_one]
  | succ n ih =>
    have hlow : (UInt8.ofNat x).toNat = x % 256 := UInt8.toNat_ofNat'
    rw [leBytes, ofLeBytes, ih, hlow, Nat.pow_succ', Nat.mod_mul]

theorem leBytes_ofLeBytes (bs : List UInt8) : leBytes bs.length (ofLeBytes bs) = bs := by
  induction bs with
  | nil => rfl
  | cons b bs ih =>
    have hb := b.toNat_lt
    have hlow : UInt8.ofNat (b.toNat + 256 * ofLeBytes bs) = b := by
      apply UInt8.toNat_inj.mp
      rw [UInt8.toNat_ofNat']
      omega
    have hhigh : (b.toNat + 256 * ofLeBytes bs) / 256 = ofLeBytes bs := by omega
    rw [List.length_cons, ofLeBytes, leBytes, hlow, hhigh, ih]

/-- Or-ing a byte in above the bytes already assembled appends it. -/
theorem ofLeBytes_concat (bs : List UInt8) (b : UInt8) :
    ofLeBytes bs ||| b.toNat <<< (8 * bs.length) = ofLeBytes (bs ++ [b]) := by
  have hlt : ofLeBytes bs < 2 ^ (8 * bs.length) := by
    rw [Nat.pow_mul]
    exact ofLeBytes_lt bs
  rw [Nat.or_comm, ← Nat.shiftLeft_add_eq_or_of_lt hlt, Nat.shiftLeft_eq, Nat.pow_mul]
  clear hlt
  induction bs with
  | nil => simp [ofLeBytes]
  | cons c bs ih =>
    rw [List.cons_append, ofLeBytes, ofLeBytes, ← ih, List.length_cons, Nat.pow_succ]
    ring

/-- Or in each byte at its place, starting from place `k`. -/
def orBytes (acc k : Nat) : List UInt8 → Nat
  | [] => acc
  | b :: bs => orBytes (acc ||| b.toNat <<< (8 * k)) (k + 1) bs

theorem orBytes_ofLeBytes (bs cs : List UInt8) :
    orBytes (ofLeBytes bs) bs.length cs = ofLeBytes (bs ++ cs) := by
  induction cs generalizing bs with
  | nil => rw [orBytes, List.append_nil]
  | cons c cs ih =>
    have h := ih (bs ++ [c])
    rwa [List.length_append, List.append_assoc, ← ofLeBytes_concat] at h

theorem or_bytes (b : UInt8) (bs : List UInt8) :
    orBytes b.toNat 1 bs = ofLeBytes (b :: bs) := by
  have h := orBytes_ofLeBytes [b] bs
  rwa [ofLeBytes, ofLeBytes, Nat.mul_zero, Nat.add_zero] at h

theorem masked_byte (x k : Nat) :
    ((255 <<< (8 * k)) &&& x) >>> (8 * k) = x / 256 ^ k % 256 := by
  rw [Nat.shiftRight_and_distrib, Nat.shiftLeft_shiftRight, Nat.and_comm,
    show (255 : Nat) = 2 ^ 8 - 1 from rfl, Nat.and_two_pow_sub_one_eq_mod,
    Nat.shiftRight_eq_div_pow, Nat.pow_mul]

theorem and_byte (x : Nat) : x &&& 255 = x % 256 := Nat.and_two_pow_sub_one_eq_mod x 8

theorem shifted_byte_and (b : UInt8) (k : Nat) :
    b.toNat <<< (8 * k) &&& 255 <<< (8 * k) = b.toNat <<< (8 * k) := by
  rw [← Nat.shiftLeft_and_distrib, and_byte, Nat.mod_eq_of_lt b.toNat_lt]

theorem shifted_byte_lt (b : UInt8) {k n : Nat} (hk : k < n) :
    b.toNat <<< (8 * k) < 2 ^ (8 * n) := by
  have hplace : 0 < 2 ^ (8 * k) := Nat.two_pow_pos _
  calc b.toNat <<< (8 * k) = b.toNat * 2 ^ (8 * k) := Nat.shiftLeft_eq _ _
    _ < 2 ^ 8 * 2 ^ (8 * k) := Nat.mul_lt_mul_of_pos_right b.toNat_lt hplace
    _ = 2 ^ (8 + 8 * k) := (Nat.pow_add 2 8 _).symm
    _ ≤ 2 ^ (8 * n) := Nat.pow_le_pow_right (by decide) (by omega)

def byteSwap32 (x : UInt32) : UInt32 := UInt32.ofNat (ofLeBytes (leBytes 4 x.toNat).reverse)

theorem byteSwap32_byteSwap32 (x : UInt32) : byteSwap32 (byteSwap32 x) = x := by
  have hlt := ofLeBytes_lt (leBytes 4 x.toNat).reverse
  have hback := leBytes_ofLeBytes (leBytes 4 x.toNat).reverse
  rw [List.length_reverse, length_leBytes] at hlt hback
  have hx : x.toNat < 256 ^ 4 := x.toNat_lt
  have hword : (byteSwap32 x).toNat = ofLeBytes (leBytes 4 x.toNat).reverse :=
    UInt32.toNat_ofNat_of_lt' hlt
  apply UInt32.toNat_inj.mp
  rw [byteSwap32, hword, hback, List.reverse_reverse, ofLeBytes_leBytes, Nat.mod_eq_of_lt hx]
  exact UInt32.toNat_ofNat_of_lt' hx

/-! ## Words from two halves -/

theorem or_shiftLeft_halves (c : UInt64) :
    c.toUInt32.toUInt64 ||| (c >>> 32).toUInt32.toUInt64 <<< 32 = c := by
  have hc := c.toNat_lt
  apply UInt64.toNat_inj.mp
  have hlow : c.toNat % 2 ^ 32 < 2 ^ 32 := Nat.mod_lt _ (by decide)
  simp only [UInt64.toNat_or, UInt64.toNat_shiftLeft, UInt32.toNat_toUInt64, UInt64.toNat_toUInt32,
    UInt64.toNat_shiftRight, UInt64.reduceToNat, Nat.reduceMod]
  rw [Nat.or_comm, Nat.mod_eq_of_lt, ← Nat.shiftLeft_add_eq_or_of_lt hlow, Nat.shiftLeft_eq,
    Nat.shiftRight_eq_div_pow]
  · omega
  · rw [Nat.shiftLeft_eq, Nat.shiftRight_eq_div_pow]
    omega

/-- The low half of one word under the high half of another. -/
theorem toNat_or_shiftLeft_halves (a b : UInt64) :
    (a.toUInt32.toUInt64 ||| (b >>> 32).toUInt32.toUInt64 <<< 32).toNat =
      a.toNat % 2 ^ 32 + 2 ^ 32 * (b.toNat / 2 ^ 32) := by
  have hb := b.toNat_lt
  have hlow : a.toNat % 2 ^ 32 < 2 ^ 32 := Nat.mod_lt _ (by decide)
  simp only [UInt64.toNat_or, UInt64.toNat_shiftLeft, UInt32.toNat_toUInt64, UInt64.toNat_toUInt32,
    UInt64.toNat_shiftRight, UInt64.reduceToNat, Nat.reduceMod]
  rw [Nat.or_comm, Nat.mod_eq_of_lt, ← Nat.shiftLeft_add_eq_or_of_lt hlow, Nat.shiftLeft_eq,
    Nat.shiftRight_eq_div_pow]
  · omega
  · rw [Nat.shiftLeft_eq, Nat.shiftRight_eq_div_pow]
    omega

end ByteOrder
