import Mathlib.Order.Bounds.Basic
import Mathlib.Algebra.Order.Ring.Int

/-!
# The time of day

A count of seconds as a day and a time of the day, and the next multiple of a
number of seconds.  Counts before the epoch are on the days before it.
-/

namespace DayTime

def day (l : Int) : Int := l / 86400

def hour (l : Int) : Int := l % 86400 / 3600

def minute (l : Int) : Int := l % 3600 / 60

def second (l : Int) : Int := l % 60

def instant (day hour minute second : Int) : Int :=
  day * 86400 + hour * 3600 + minute * 60 + second

theorem instant_fields (l : Int) : instant (day l) (hour l) (minute l) (second l) = l := by
  unfold instant day hour minute second
  omega

theorem hour_range (l : Int) : 0 ≤ hour l ∧ hour l < 24 := by
  unfold hour
  omega

theorem minute_range (l : Int) : 0 ≤ minute l ∧ minute l < 60 := by
  unfold minute
  omega

theorem second_range (l : Int) : 0 ≤ second l ∧ second l < 60 := by
  unfold second
  omega

theorem second_emod {k : Int} (hk : k ∣ 60) (l : Int) : second l % k = l % k :=
  Int.emod_emod_of_dvd l hk

/-- The time of day is the same exactly on counts that are whole days apart. -/
theorem time_eq_iff (l l' : Int) :
    hour l = hour l' ∧ minute l = minute l' ∧ second l = second l' ↔ 86400 ∣ l - l' := by
  unfold hour minute second
  omega

/-- Two counts on one day are less than a day apart. -/
theorem lt_add_of_day_eq {l l' : Int} (h : day l = day l') : l < l' + 86400 := by
  unfold day at h
  omega

theorem isLeast_next {k : Int} (hk : 0 < k) (n : Int) :
    IsLeast {m | n < m ∧ m % k = 0} (n - n % k + k) := by
  have hlt := Int.emod_lt_of_pos n hk
  have hdiv := Int.mul_ediv_add_emod n k
  constructor
  · refine ⟨by omega, ?_⟩
    rw [Int.add_emod_right, Int.emod_eq_zero_of_dvd]
    exact Int.dvd_self_sub_emod
  · intro m hm
    obtain ⟨hnm, hm⟩ := hm
    obtain ⟨c, rfl⟩ := Int.dvd_of_emod_eq_zero hm
    have hq : n / k < c := by
      by_contra hc
      have := Int.mul_le_mul_of_nonneg_left (Int.not_lt.mp hc) (Int.le_of_lt hk)
      have := Int.emod_nonneg n (Int.ne_of_gt hk)
      omega
    have := Int.mul_le_mul_of_nonneg_left (Int.add_one_le_iff.mpr hq) (Int.le_of_lt hk)
    rw [Int.mul_add, Int.mul_one] at this
    omega

end DayTime
