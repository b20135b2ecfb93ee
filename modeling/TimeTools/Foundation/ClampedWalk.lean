import Mathlib.Algebra.BigOperators.Group.List.Basic
import Mathlib.Algebra.Order.Ring.Int
import Mathlib.Data.List.Infix

/-!
# A sum clamped after each term

The fold of an accumulator that is clamped to `[lo, hi]` after each addition.  It is
monotone in its start, so the starts `lo` and `hi` enclose all others.

An accumulator forgets where it started when these two meet.  They do so exactly if some
of the terms that follow one another have a sum as large as the interval
(`walk_lo_eq_walk_hi_iff`).
-/

namespace ClampedWalk

def clip (lo hi x : Int) : Int := max lo (min hi x)

def walk (lo hi : Int) (x : Int) (as : List Int) : Int :=
  as.foldl (fun x a => clip lo hi (x + a)) x

variable {lo hi x y : Int} {as : List Int}

@[simp] theorem walk_nil (lo hi x : Int) : walk lo hi x [] = x := rfl

@[simp] theorem walk_cons (lo hi x a : Int) (as : List Int) :
    walk lo hi x (a :: as) = walk lo hi (clip lo hi (x + a)) as := rfl

theorem walk_append (lo hi x : Int) (as bs : List Int) :
    walk lo hi x (as ++ bs) = walk lo hi (walk lo hi x as) bs := List.foldl_append

theorem clip_mono (lo hi : Int) (h : x ≤ y) : clip lo hi x ≤ clip lo hi y := by
  unfold clip
  omega

theorem lo_le_clip (lo hi x : Int) : lo ≤ clip lo hi x := Int.le_max_left lo (min hi x)

theorem clip_le_hi (h : lo ≤ hi) (x : Int) : clip lo hi x ≤ hi := by
  unfold clip
  omega

theorem walk_mono (lo hi : Int) (h : x ≤ y) (as : List Int) :
    walk lo hi x as ≤ walk lo hi y as := by
  induction as generalizing x y with
  | nil => exact h
  | cons a as ih => exact ih (clip_mono lo hi (Int.add_le_add_right h a))

theorem walk_le_hi (hx : x ≤ hi) (h : lo ≤ hi) (as : List Int) : walk lo hi x as ≤ hi := by
  induction as generalizing x with
  | nil => exact hx
  | cons a as ih => exact ih (clip_le_hi h (x + a))

theorem lo_le_walk (hi : Int) (hx : lo ≤ x) (as : List Int) : lo ≤ walk lo hi x as := by
  induction as generalizing x with
  | nil => exact hx
  | cons a as ih => exact ih (lo_le_clip lo hi (x + a))

/-- Two starts in the interval end together if its two ends do. -/
theorem walk_eq_of_ends_eq (hends : walk lo hi lo as = walk lo hi hi as)
    (hx : lo ≤ x) (hx' : x ≤ hi) (hy : lo ≤ y) (hy' : y ≤ hi) :
    walk lo hi x as = walk lo hi y as := by
  have hxlo := walk_mono lo hi hx as
  have hxhi := walk_mono lo hi hx' as
  have hylo := walk_mono lo hi hy as
  have hyhi := walk_mono lo hi hy' as
  omega

/-- Clamped from above once, a walk is the walk from the top.  Never so clamped, it is no
lower than the plain sum. -/
theorem walk_eq_top_or_le (h : lo ≤ hi) (hx : x ≤ hi) (as : List Int) :
    walk lo hi x as = walk lo hi hi as ∨ x + as.sum ≤ walk lo hi x as := by
  induction as generalizing x with
  | nil => exact .inr (by simp)
  | cons a as ih =>
    rw [walk_cons, walk_cons, List.sum_cons]
    by_cases htop : hi ≤ x + a
    · have hclip : clip lo hi (x + a) = clip lo hi (hi + a) := by
        unfold clip
        omega
      rw [hclip]
      exact .inl rfl
    · have hclip : x + a ≤ clip lo hi (x + a) := by
        unfold clip
        omega
      rcases ih (clip_le_hi h (x + a)) with heq | hle
      · -- The walk from `hi` lies between this one and the walk from the top of the rest.
        have hlow := walk_mono lo hi (clip_mono lo hi (Int.add_le_add_right hx a)) as
        have hhigh := walk_mono lo hi (clip_le_hi h (hi + a)) as
        exact .inl (by omega)
      · exact .inr (by omega)

theorem clip_neg (h : lo ≤ hi) (x : Int) : clip (-hi) (-lo) (-x) = -clip lo hi x := by
  unfold clip
  omega

/-- The walk of the negated terms in the negated interval. -/
theorem walk_neg (h : lo ≤ hi) (x : Int) (as : List Int) :
    walk (-hi) (-lo) (-x) (as.map fun a => -a) = -walk lo hi x as := by
  induction as generalizing x with
  | nil => rfl
  | cons a as ih =>
    have hclip : clip (-hi) (-lo) (-x + -a) = -clip lo hi (x + a) := by
      rw [← Int.neg_add]
      exact clip_neg h (x + a)
    rw [List.map_cons, walk_cons, walk_cons, hclip, ih]

theorem sum_map_neg (as : List Int) : (as.map fun a => -a).sum = -as.sum := by
  induction as with
  | nil => rfl
  | cons a as ih =>
    rw [List.map_cons, List.sum_cons, List.sum_cons, ih]
    omega

/-- While no part of the terms sums up to the length of the interval, a walk from the
bottom is at the bottom plus the sum of the terms since it was last there. -/
theorem walk_lo_eq_add_suffix (hsmall : ∀ part, part <:+: as → part.sum < hi - lo) :
    ∃ since, since <:+ as ∧ walk lo hi lo as = lo + since.sum := by
  induction as using List.reverseRecOn with
  | nil => exact ⟨[], List.suffix_rfl, by simp⟩
  | append_singleton as a ih =>
    have hprefix : as <:+: as ++ [a] := (List.prefix_append as [a]).isInfix
    obtain ⟨since, hsuffix, hwalk⟩ := ih fun part hpart => hsmall part (hpart.trans hprefix)
    have hnext : since ++ [a] <:+ as ++ [a] := by
      obtain ⟨before, rfl⟩ := hsuffix
      exact ⟨before, by simp⟩
    have hsum := hsmall (since ++ [a]) hnext.isInfix
    rw [List.sum_append, List.sum_singleton] at hsum
    rw [walk_append, hwalk, walk_cons, walk_nil]
    by_cases hbottom : since.sum + a ≤ 0
    · refine ⟨[], List.nil_suffix, ?_⟩
      rw [List.sum_nil]
      unfold clip
      omega
    · refine ⟨since ++ [a], hnext, ?_⟩
      rw [List.sum_append, List.sum_singleton]
      unfold clip
      omega

theorem walk_hi_eq_add_suffix (h : lo ≤ hi)
    (hsmall : ∀ part, part <:+: as → lo - hi < part.sum) :
    ∃ since, since <:+ as ∧ walk lo hi hi as = hi + since.sum := by
  have hneg : ∀ part, part <:+: as.map (fun a => -a) → part.sum < -lo - -hi := by
    intro part hpart
    have hback := hsmall _ (by simpa [Function.comp_def] using hpart.map fun a => -a)
    rw [sum_map_neg] at hback
    omega
  obtain ⟨since, hsuffix, hwalk⟩ := walk_lo_eq_add_suffix hneg
  refine ⟨since.map fun a => -a, by simpa [Function.comp_def] using hsuffix.map fun a => -a, ?_⟩
  rw [walk_neg h] at hwalk
  rw [sum_map_neg]
  omega

/-- A part of the terms that sums up to the length of the interval brings all starts to
the top, or has met the top before. -/
theorem ends_eq_of_le_sum (h : lo ≤ hi) (hsum : hi - lo ≤ as.sum) :
    walk lo hi lo as = walk lo hi hi as := by
  rcases walk_eq_top_or_le h h as with heq | hle
  · exact heq
  · have hmono := walk_mono lo hi h as
    have htop := walk_le_hi (Int.le_refl hi) h as
    omega

theorem ends_eq_of_sum_le (h : lo ≤ hi) (hsum : as.sum ≤ lo - hi) :
    walk lo hi lo as = walk lo hi hi as := by
  have hneg : -lo - -hi ≤ (as.map fun a => -a).sum := by
    rw [sum_map_neg]
    omega
  have hends := ends_eq_of_le_sum (Int.neg_le_neg h) hneg
  rw [walk_neg h, walk_neg h] at hends
  omega

/-- The walks from the two ends of the interval meet exactly if some part of the terms,
in a row, has a sum at least as large as the interval. -/
theorem walk_lo_eq_walk_hi_iff (h : lo ≤ hi) (as : List Int) :
    walk lo hi lo as = walk lo hi hi as ↔
      ∃ part, part <:+: as ∧ hi - lo ≤ (part.sum.natAbs : Int) := by
  constructor
  · intro hends
    by_contra hnone
    have hsmall : ∀ part, part <:+: as → (part.sum.natAbs : Int) < hi - lo := by
      intro part hpart
      by_contra hlarge
      exact hnone ⟨part, hpart, by omega⟩
    have hbelow : ∀ part, part <:+: as → part.sum < hi - lo := fun part hpart => by
      have hpartSum := hsmall part hpart
      omega
    have habove : ∀ part, part <:+: as → lo - hi < part.sum := fun part hpart => by
      have hpartSum := hsmall part hpart
      omega
    obtain ⟨t, ht, hlow⟩ := walk_lo_eq_add_suffix hbelow
    obtain ⟨u, hu, hhigh⟩ := walk_hi_eq_add_suffix h habove
    -- One of the two suffixes extends the other, by a part of the terms.
    rcases List.suffix_or_suffix_of_suffix ht hu with ⟨v, rfl⟩ | ⟨v, rfl⟩
    · have hv := hsmall v ((List.prefix_append v t).isInfix.trans hu.isInfix)
      rw [List.sum_append] at hhigh
      omega
    · have hv := hsmall v ((List.prefix_append v u).isInfix.trans ht.isInfix)
      rw [List.sum_append] at hlow
      omega
  · rintro ⟨part, ⟨before, after, rfl⟩, hlarge⟩
    have hends : walk lo hi lo part = walk lo hi hi part := by
      rcases Int.le_total 0 part.sum with hpos | hneg
      · exact ends_eq_of_le_sum h (by omega)
      · exact ends_eq_of_sum_le h (by omega)
    have hlow := walk_le_hi h h before
    have hhigh := walk_le_hi (Int.le_refl hi) h before
    have hmeet := walk_eq_of_ends_eq hends (lo_le_walk hi (Int.le_refl lo) before) hlow
      (lo_le_walk hi h before) hhigh
    rw [walk_append, walk_append, walk_append, walk_append, hmeet]

end ClampedWalk
