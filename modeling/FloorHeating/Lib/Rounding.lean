import Mathlib.Algebra.Order.Round
import Mathlib.Tactic.Linarith
import Mathlib.Tactic.Ring

/-!
# Rounding to an integer, and into a window

`HalfAway` and `NearestIn` say what is wanted. Both have one solution.
-/

namespace FloorHeating.Lib

section Field

variable {K : Type*} [Field K] [LinearOrder K] [IsStrictOrderedRing K] [FloorRing K]

def towardZero (x : K) : ℤ := if x < 0 then ⌈x⌉ else ⌊x⌋

def halfAway (x : K) : ℤ := if x < 0 then -round (-x) else round x

/-- The nearest integer, and of two nearest ones the one further from zero. -/
structure HalfAway (x : K) (r : ℤ) : Prop where
  nearest : ∀ n : ℤ, |x - r| ≤ |x - n|
  away : ∀ n : ℤ, |x - r| = |x - n| → |n| ≤ |r|

omit [IsStrictOrderedRing K] [FloorRing K] in
theorem HalfAway.neg {x : K} {r : ℤ} (h : HalfAway x r) : HalfAway (-x) (-r) := by
  have mirror (n : ℤ) : |-x - (-n : ℤ)| = |x - n| := by
    rw [Int.cast_neg, sub_neg_eq_add, ← abs_neg]
    congr 1
    ring
  constructor
  · intro n
    rw [mirror, ← neg_neg n, mirror]
    exact h.nearest (-n)
  · intro n htie
    rw [mirror, ← neg_neg n, mirror] at htie
    simpa using h.away (-n) htie

theorem round_halfAway {x : K} (hx : 0 ≤ x) : HalfAway x (round x) := by
  refine ⟨round_le x, fun n htie => ?_⟩
  have hlow : x - 1 / 2 < round x := sub_half_lt_round x
  have hhigh : (round x : K) ≤ x + 1 / 2 := round_le_add_half x
  have hr : 0 ≤ round x := by
    have hgt : (-1 : K) < round x := by linarith
    have : (-1 : ℤ) < round x := by exact_mod_cast hgt
    omega
  -- A tie with another integer means that `x` is half way, and below the one `round` takes.
  have hn : n = round x ∨ (n : K) = 2 * x - round x := by
    rcases abs_eq_abs.mp htie with heq | heq
    · exact Or.inl (by exact_mod_cast (by linarith : (n : K) = round x))
    · exact Or.inr (by linarith)
  rcases hn with rfl | hn
  · exact le_rfl
  · have hle : (n : K) < round x + 1 := by linarith
    have hge : -(round x : K) ≤ n := by linarith
    have hle' : n < round x + 1 := by exact_mod_cast hle
    have hge' : -round x ≤ n := by exact_mod_cast hge
    rw [abs_of_nonneg hr, abs_le]
    omega

theorem halfAway_spec (x : K) : HalfAway x (halfAway x) := by
  unfold halfAway
  split
  · rename_i hx
    simpa using (round_halfAway (neg_nonneg.mpr hx.le)).neg
  · rename_i hx
    exact round_halfAway (not_lt.mp hx)

theorem HalfAway.unique {x : K} {r s : ℤ} (hr : HalfAway x r) (hs : HalfAway x s) : r = s := by
  have hdist : |x - r| = |x - s| := le_antisymm (hr.nearest s) (hs.nearest r)
  have habs : |r| = |s| := le_antisymm (hs.away r hdist.symm) (hr.away s hdist)
  rcases abs_eq_abs.mp habs with heq | rfl
  · exact heq
  · rcases abs_eq_abs.mp hdist with h | h
    · have : (s : K) = (-s : ℤ) := by linarith
      exact (by exact_mod_cast this : s = -s).symm
    · rw [Int.cast_neg] at h
      have hx : x = 0 := by linarith
      have hzero := hs.nearest 0
      rw [hx, Int.cast_zero, sub_self, abs_zero, zero_sub, abs_neg] at hzero
      have : s = 0 := by exact_mod_cast abs_eq_zero.mp (le_antisymm hzero (abs_nonneg _))
      rw [this, neg_zero]

end Field

section Window

variable {α : Type*} [AddCommGroup α] [LinearOrder α] [IsOrderedAddMonoid α]

/-- Of the values from `lo` to `hi`, `r` is nearest to `v`. -/
structure NearestIn (lo hi v r : α) : Prop where
  low : lo ≤ r
  high : r ≤ hi
  nearest : ∀ n, lo ≤ n → n ≤ hi → n ≠ r → |v - r| < |v - n|

theorem nearestIn_clamp {lo hi : α} (h : lo ≤ hi) (v : α) : NearestIn lo hi v (max lo (min v hi)) := by
  refine ⟨le_max_left _ _, max_le h (min_le_right _ _), fun n hlo hhi hne => ?_⟩
  rcases le_total v lo with hv | hv
  · rw [min_eq_left (hv.trans h), max_eq_left hv] at hne ⊢
    rw [abs_sub_comm v lo, abs_sub_comm v n, abs_of_nonneg (sub_nonneg.mpr hv),
      abs_of_nonneg (sub_nonneg.mpr (hv.trans hlo))]
    exact sub_lt_sub_right (lt_of_le_of_ne hlo hne.symm) v
  · rcases le_total v hi with hv' | hv'
    · rw [min_eq_left hv', max_eq_right hv] at hne ⊢
      rw [sub_self, abs_zero]
      exact abs_pos.mpr (sub_ne_zero.mpr hne.symm)
    · rw [min_eq_right hv', max_eq_right h] at hne ⊢
      rw [abs_of_nonneg (sub_nonneg.mpr hv'), abs_of_nonneg (sub_nonneg.mpr (hhi.trans hv'))]
      exact sub_lt_sub_left (lt_of_le_of_ne hhi hne) v

omit [IsOrderedAddMonoid α] in
theorem NearestIn.unique {lo hi v r s : α} (hr : NearestIn lo hi v r) (hs : NearestIn lo hi v s) : r = s := by
  by_contra hne
  exact lt_asymm (hr.nearest s hs.low hs.high (Ne.symm hne)) (hs.nearest r hr.low hr.high hne)

theorem nearestIn_self {lo hi v : α} (hlo : lo ≤ v) (hhi : v ≤ hi) : NearestIn lo hi v v := by
  have h := nearestIn_clamp (hlo.trans hhi) v
  rwa [min_eq_left hhi, max_eq_right hlo] at h

end Window

end FloorHeating.Lib
