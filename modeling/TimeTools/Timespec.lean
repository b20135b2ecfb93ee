import TimeTools.Foundation.FixedWidth
import TimeTools.Foundation.SignedSplit

/-!
# Timespec arithmetic

`struct timespec` and the routines that every program of the repository carries
its own copy of: `normalize_time`, `add_time`, `sub_time` and `sub_ns`.  The
copies are the same code, so they are one definition here.

`normalize_time` leaves the signed split of the total over `NSEC`
(`normalizeTime_total`, `normalizeTime_canonical`), which no other timespec of that
total is.  The sums and differences below inherit this from it.
-/

namespace TimeTools

open FixedWidth SignedSplit

/-- `NSEC`, as the `long` operand it becomes in the expressions that use it. -/
def nsec : Int64 := 1000000000

@[simp] theorem toInt_nsec : nsec.toInt = 1000000000 := rfl

/-- `struct timespec` on a 64-bit system: `time_t` and `long` are 64-bit words. -/
structure Timespec where
  tvSec : Int64
  tvNsec : Int64
  deriving DecidableEq, Repr

namespace Timespec

def total (t : Timespec) : Int := SignedSplit.total 1000000000 t.tvSec.toInt t.tvNsec.toInt

/-- What `clock_gettime` and `getnstimeofday` return: the nanoseconds are a
fraction of a second. -/
def Valid (t : Timespec) : Prop := 0 ≤ t.tvNsec.toInt ∧ t.tvNsec.toInt < 1000000000

def Settable (t : Timespec) : Prop := 0 ≤ t.tvSec.toInt ∧ t.Valid

def Canonical (t : Timespec) : Prop := IsSplit 1000000000 t.tvSec.toInt t.tvNsec.toInt

instance (t : Timespec) : Decidable t.Valid := inferInstanceAs (Decidable (_ ∧ _))

instance (t : Timespec) : Decidable t.Settable := inferInstanceAs (Decidable (_ ∧ _))

theorem total_def (t : Timespec) : t.total = t.tvSec.toInt * 1000000000 + t.tvNsec.toInt := rfl

/-- The canonical timespec of a total is the only one. -/
theorem Canonical.eq_of_total {t u : Timespec} (ht : t.Canonical) (hu : u.Canonical)
    (htotal : t.total = u.total) : t = u := by
  have hsec := Int64.toInt_inj.mp (ht.fst_unique hu htotal)
  have hnsec := Int64.toInt_inj.mp (ht.snd_unique hu htotal)
  cases t
  cases u
  exact congr (congrArg Timespec.mk hsec) hnsec

theorem Canonical.settable {t : Timespec} (h : t.Canonical) (ht : 0 ≤ t.total) : t.Settable := by
  obtain ⟨hsec, hnsec⟩ := h.parts_nonneg ht
  exact ⟨hsec, hnsec, h.upper⟩

end Timespec

/-- The second half of `normalize_time`: trade one second when the seconds and the
nanoseconds have opposite signs. -/
def repairSigns (result : Timespec) : Timespec :=
  if 0 < result.tvSec ∧ result.tvNsec < 0 then
    { tvSec := result.tvSec - 1, tvNsec := result.tvNsec + nsec }
  else if result.tvSec < 0 ∧ 0 < result.tvNsec then
    { tvSec := result.tvSec + 1, tvNsec := result.tvNsec - nsec }
  else result

def normalizeTime (result : Timespec) : Timespec :=
  let result := { result with tvSec := result.tvSec + result.tvNsec / nsec }
  let result := { result with tvNsec := result.tvNsec - result.tvNsec / nsec * nsec }
  repairSigns result

def addTime (x y : Timespec) : Timespec :=
  normalizeTime { tvSec := x.tvSec + y.tvSec, tvNsec := x.tvNsec + y.tvNsec }

def subTime (x y : Timespec) : Timespec :=
  normalizeTime { tvSec := x.tvSec - y.tvSec, tvNsec := x.tvNsec - y.tvNsec }

def subNs (x : Timespec) (y : Int64) : Timespec :=
  normalizeTime { tvSec := x.tvSec, tvNsec := x.tvNsec - y }

/-! ## Normalisation reaches the split -/

theorem toInt_div_nsec (a : Int64) : (a / nsec).toInt = a.toInt.tdiv 1000000000 :=
  toInt_div_of_ne (by decide)

theorem toInt_mod_nsec (a : Int64) : (a % nsec).toInt = a.toInt.tmod 1000000000 := by
  rw [Int64.toInt_mod, toInt_nsec]

/-- The remainder that `normalize_time` writes as a difference.  The product may
be formed modulo the word, since the difference is smaller than a second. -/
theorem toInt_sub_div_mul_nsec (a : Int64) :
    (a - a / nsec * nsec).toInt = a.toInt - a.toInt.tdiv 1000000000 * 1000000000 := by
  have hrem := Int.mul_tdiv_add_tmod a.toInt 1000000000
  have hlo := Int.lt_tmod_of_pos a.toInt (show (0 : Int) < 1000000000 by omega)
  have hhi := Int.tmod_lt_of_pos a.toInt (show (0 : Int) < 1000000000 by omega)
  rw [Int64.toInt_sub, Int64.toInt_mul, toInt_div_nsec, toInt_nsec, Int.sub_bmod_bmod,
    bmod64_eq_of_fits]
  exact ⟨by omega, by omega⟩

theorem remainder_range (a : Int64) :
    -1000000000 < (a - a / nsec * nsec).toInt ∧ (a - a / nsec * nsec).toInt < 1000000000 := by
  have hmod : (a - a / nsec * nsec).toInt = a.toInt.tmod 1000000000 :=
    (toInt_sub_div_mul_nsec a).trans (carry_snd 1000000000 0 a.toInt)
  rw [hmod]
  exact ⟨Int.lt_tmod_of_pos _ (by decide), Int.tmod_lt_of_pos _ (by decide)⟩

theorem repairSigns_toInt {t : Timespec} (hlo : -1000000000 < t.tvNsec.toInt)
    (hhi : t.tvNsec.toInt < 1000000000) :
    ((repairSigns t).tvSec.toInt, (repairSigns t).tvNsec.toInt) =
      repair 1000000000 t.tvSec.toInt t.tvNsec.toInt := by
  have hsec := fitsInt64_toInt t.tvSec
  unfold FitsInt64 at hsec
  simp only [repairSigns, repair, Int64.lt_iff_toInt_lt, Int64.toInt_zero]
  -- A trade moves the seconds toward zero, so it cannot leave the word.
  split
  · have h1 : (t.tvSec - 1).toInt = t.tvSec.toInt - 1 :=
      toInt_sub_of_fits ⟨by rw [Int64.toInt_one]; omega, by rw [Int64.toInt_one]; omega⟩
    have h2 : (t.tvNsec + nsec).toInt = t.tvNsec.toInt + 1000000000 :=
      toInt_add_of_fits ⟨by rw [toInt_nsec]; omega, by rw [toInt_nsec]; omega⟩
    rw [h1, h2]
  · split
    · have h1 : (t.tvSec + 1).toInt = t.tvSec.toInt + 1 :=
        toInt_add_of_fits ⟨by rw [Int64.toInt_one]; omega, by rw [Int64.toInt_one]; omega⟩
      have h2 : (t.tvNsec - nsec).toInt = t.tvNsec.toInt - 1000000000 :=
        toInt_sub_of_fits ⟨by rw [toInt_nsec]; omega, by rw [toInt_nsec]; omega⟩
      rw [h1, h2]
    · rfl

theorem repairSigns_canonical {t : Timespec} (hlo : -1000000000 < t.tvNsec.toInt)
    (hhi : t.tvNsec.toInt < 1000000000) : (repairSigns t).Canonical := by
  have hsec : (repairSigns t).tvSec.toInt = _ := congrArg Prod.fst (repairSigns_toInt hlo hhi)
  have hns : (repairSigns t).tvNsec.toInt = _ := congrArg Prod.snd (repairSigns_toInt hlo hhi)
  rw [Timespec.Canonical, hsec, hns]
  exact isSplit_repair hlo hhi

/-- The seconds of `t` once the whole seconds of its `tv_nsec` are carried into
them.  This is the one value of `normalize_time` that can leave the word. -/
def carriedSec (t : Timespec) : Int := t.tvSec.toInt + t.tvNsec.toInt.tdiv 1000000000

/-- `normalize_time` is `carry` followed by `repair` on the true values. -/
theorem normalizeTime_toInt {t : Timespec} (h : FitsInt64 (carriedSec t)) :
    ((normalizeTime t).tvSec.toInt, (normalizeTime t).tvNsec.toInt) =
      repair 1000000000 (carry 1000000000 t.tvSec.toInt t.tvNsec.toInt).1
        (carry 1000000000 t.tvSec.toInt t.tvNsec.toInt).2 := by
  have hsec : (t.tvSec + t.tvNsec / nsec).toInt =
      (carry 1000000000 t.tvSec.toInt t.tvNsec.toInt).1 := by
    rw [toInt_add_of_fits, toInt_div_nsec]
    · rfl
    · rwa [toInt_div_nsec]
  have hns : (t.tvNsec - t.tvNsec / nsec * nsec).toInt =
      (carry 1000000000 t.tvSec.toInt t.tvNsec.toInt).2 := toInt_sub_div_mul_nsec t.tvNsec
  obtain ⟨hlo, hhi⟩ := remainder_range t.tvNsec
  rw [← hsec, ← hns]
  exact repairSigns_toInt hlo hhi

theorem normalizeTime_total {t : Timespec} (h : FitsInt64 (carriedSec t)) :
    (normalizeTime t).total = t.total := by
  have hsec : (normalizeTime t).tvSec.toInt = _ := congrArg Prod.fst (normalizeTime_toInt h)
  have hns : (normalizeTime t).tvNsec.toInt = _ := congrArg Prod.snd (normalizeTime_toInt h)
  rw [Timespec.total, hsec, hns, repair_total, carry_total]
  rfl

/-- Whether or not the carried seconds leave the word, what is left is a split. -/
theorem normalizeTime_canonical (t : Timespec) : (normalizeTime t).Canonical := by
  obtain ⟨hlo, hhi⟩ := remainder_range t.tvNsec
  exact repairSigns_canonical hlo hhi

/-- A canonical timespec has nothing to carry and no signs to repair. -/
theorem normalizeTime_of_canonical {t : Timespec} (h : t.Canonical) : normalizeTime t = t := by
  have hcarried : FitsInt64 (carriedSec t) := by
    rw [carriedSec, tdiv_eq_zero h.lower h.upper, Int.add_zero]
    exact fitsInt64_toInt t.tvSec
  exact (normalizeTime_canonical t).eq_of_total h (normalizeTime_total hcarried)

/-! ## Sums and differences

The operations below form `tv_sec` and `tv_nsec` separately, so exactness asks
that neither of these and nor the carried seconds leave the word. -/

structure SumFits (x y : Timespec) : Prop where
  sec : FitsInt64 (x.tvSec.toInt + y.tvSec.toInt)
  nsec : FitsInt64 (x.tvNsec.toInt + y.tvNsec.toInt)
  carried : FitsInt64 (x.tvSec.toInt + y.tvSec.toInt +
    (x.tvNsec.toInt + y.tvNsec.toInt).tdiv 1000000000)

structure DiffFits (x y : Timespec) : Prop where
  sec : FitsInt64 (x.tvSec.toInt - y.tvSec.toInt)
  nsec : FitsInt64 (x.tvNsec.toInt - y.tvNsec.toInt)
  carried : FitsInt64 (x.tvSec.toInt - y.tvSec.toInt +
    (x.tvNsec.toInt - y.tvNsec.toInt).tdiv 1000000000)

theorem addTime_spec {x y : Timespec} (h : SumFits x y) :
    (addTime x y).total = x.total + y.total ∧ (addTime x y).Canonical := by
  have hsec := toInt_add_of_fits h.sec
  have hns := toInt_add_of_fits h.nsec
  have hcarried : FitsInt64 (carriedSec
      { tvSec := x.tvSec + y.tvSec, tvNsec := x.tvNsec + y.tvNsec }) := by
    rw [carriedSec, hsec, hns]
    exact h.carried
  refine ⟨?_, normalizeTime_canonical _⟩
  rw [addTime, normalizeTime_total hcarried]
  simp only [Timespec.total_def, hsec, hns]
  omega

theorem subTime_spec {x y : Timespec} (h : DiffFits x y) :
    (subTime x y).total = x.total - y.total ∧ (subTime x y).Canonical := by
  have hsec := toInt_sub_of_fits h.sec
  have hns := toInt_sub_of_fits h.nsec
  have hcarried : FitsInt64 (carriedSec
      { tvSec := x.tvSec - y.tvSec, tvNsec := x.tvNsec - y.tvNsec }) := by
    rw [carriedSec, hsec, hns]
    exact h.carried
  refine ⟨?_, normalizeTime_canonical _⟩
  rw [subTime, normalizeTime_total hcarried]
  simp only [Timespec.total_def, hsec, hns]
  omega

structure NsFits (x : Timespec) (y : Int64) : Prop where
  nsec : FitsInt64 (x.tvNsec.toInt - y.toInt)
  carried : FitsInt64 (x.tvSec.toInt + (x.tvNsec.toInt - y.toInt).tdiv 1000000000)

theorem subNs_exact {x : Timespec} {y : Int64} (h : NsFits x y) :
    (subNs x y).total = x.total - y.toInt ∧ (subNs x y).Canonical := by
  have hns := toInt_sub_of_fits h.nsec
  have hcarried : FitsInt64 (carriedSec { tvSec := x.tvSec, tvNsec := x.tvNsec - y }) := by
    rw [carriedSec, hns]
    exact h.carried
  refine ⟨?_, normalizeTime_canonical _⟩
  rw [subNs, normalizeTime_total hcarried]
  simp only [Timespec.total_def, hns]
  omega

/-- Taking less than a second from a valid reading never leaves the word: the
nanoseconds stay within a second of zero, so nothing is carried. -/
theorem subNs_spec {x : Timespec} {y : Int64} (hx : x.Valid) (hlo : 0 ≤ y.toInt)
    (hhi : y.toInt < 1000000000) :
    (subNs x y).total = x.total - y.toInt ∧ (subNs x y).Canonical := by
  obtain ⟨hxlo, hxhi⟩ := hx
  refine subNs_exact ⟨⟨by omega, by omega⟩, ?_⟩
  have hzero : (x.tvNsec.toInt - y.toInt).tdiv 1000000000 = 0 :=
    tdiv_eq_zero (by omega) (by omega)
  rw [hzero, Int.add_zero]
  exact fitsInt64_toInt x.tvSec

end TimeTools
