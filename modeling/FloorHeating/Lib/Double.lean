import Mathlib.Algebra.Order.Field.Power
import Mathlib.Data.Int.Log
import Mathlib.Data.Rat.Floor
import Mathlib.Tactic.Linarith
import Mathlib.Tactic.NormNum
import Mathlib.Tactic.Positivity
import Mathlib.Tactic.Ring

/-!
# Binary floating point, with rounding to nearest even

A value is the number it stands for, and an operation is the exact one followed
by `Format.round`. There is no largest value: what overflows stays where a
comparison sees it as it would see the infinity.
-/

namespace FloorHeating.Lib

section Field

variable {K : Type*} [Field K] [LinearOrder K] [FloorRing K]

/-- The nearest integer, and of two nearest ones the even one. -/
def nearestEven (x : K) : ℤ :=
  if x - ⌊x⌋ < 1 / 2 then ⌊x⌋
  else if 1 / 2 < x - ⌊x⌋ then ⌊x⌋ + 1
  else if ⌊x⌋ % 2 = 0 then ⌊x⌋ else ⌊x⌋ + 1

theorem nearestEven_cases (x : K) :
    (nearestEven x = ⌊x⌋ ∧ x - ⌊x⌋ ≤ 1 / 2) ∨ (nearestEven x = ⌊x⌋ + 1 ∧ 1 / 2 ≤ x - ⌊x⌋) := by
  unfold nearestEven
  split_ifs with hlow hhigh heven
  · exact Or.inl ⟨rfl, hlow.le⟩
  · exact Or.inr ⟨rfl, hhigh.le⟩
  · exact Or.inl ⟨rfl, not_lt.mp hhigh⟩
  · exact Or.inr ⟨rfl, not_lt.mp hlow⟩

variable [IsStrictOrderedRing K]

theorem nearestEven_error (x : K) : |(nearestEven x : K) - x| ≤ 1 / 2 := by
  have hfloor := Int.floor_le x
  have hceil := Int.lt_floor_add_one x
  rw [abs_le]
  obtain ⟨h, hx⟩ | ⟨h, hx⟩ := nearestEven_cases x
  · rw [h]
    constructor <;> linarith
  · rw [h]
    push_cast
    constructor <;> linarith

theorem nearestEven_eq {x : K} {n : ℤ} (h : |x - n| < 1 / 2) : nearestEven x = n := by
  have herror := nearestEven_error x
  rw [abs_le] at herror
  rw [abs_lt] at h
  have hlow : ((nearestEven x : ℤ) : K) < n + 1 := by linarith
  have hhigh : (n : K) < (nearestEven x : ℤ) + 1 := by linarith
  have hlow' : nearestEven x < n + 1 := by exact_mod_cast hlow
  have hhigh' : n < nearestEven x + 1 := by exact_mod_cast hhigh
  omega

theorem nearestEven_intCast (n : ℤ) : nearestEven (n : K) = n := nearestEven_eq (by simp)

theorem nearestEven_mono {x y : K} (h : x ≤ y) : nearestEven x ≤ nearestEven y := by
  have hx := nearestEven_cases x
  have hy := nearestEven_cases y
  have hfloor : ⌊x⌋ ≤ ⌊y⌋ := Int.floor_le_floor h
  rcases hfloor.lt_or_eq with hlt | heq
  · omega
  · -- Between two integers the side of the half decides, and at the half itself both are even.
    by_contra hgt
    have hup : nearestEven x = ⌊x⌋ + 1 ∧ 1 / 2 ≤ x - ⌊x⌋ := hx.resolve_left fun hc => by omega
    have hdown : nearestEven y = ⌊y⌋ ∧ y - ⌊y⌋ ≤ 1 / 2 := hy.resolve_right fun hc => by omega
    have hsame : x = y := by
      rw [heq] at hup
      linarith [hup.2, hdown.2]
    rw [hsame] at hgt
    exact hgt le_rfl

theorem nearestEven_half (m : ℤ) : nearestEven ((m : K) + 1 / 2) = if m % 2 = 0 then m else m + 1 := by
  have hfloor : ⌊(m : K) + 1 / 2⌋ = m := by
    rw [Int.floor_eq_iff]
    constructor <;> linarith
  unfold nearestEven
  rw [hfloor, if_neg (by simp), if_neg (by simp)]

theorem nearestEven_even {x : K} {n : ℤ} (hn : n % 2 = 0) (h : |x - n| ≤ 1 / 2) : nearestEven x = n := by
  rcases h.lt_or_eq with hlt | htie
  · exact nearestEven_eq hlt
  · rcases abs_eq (by norm_num : (0 : K) ≤ 1 / 2) |>.mp htie with habove | hbelow
    · rw [show x = n + 1 / 2 by linarith, nearestEven_half, if_pos hn]
    · have hx : x = ((n - 1 : ℤ) : K) + 1 / 2 := by
        push_cast
        linarith
      rw [hx, nearestEven_half, if_neg (by omega), sub_add_cancel]

theorem nearestEven_neg (x : K) : nearestEven (-x) = -nearestEven x := by
  rcases (nearestEven_error x).lt_or_eq with hlt | htie
  · apply nearestEven_eq
    push_cast
    rwa [neg_sub_neg]
  · -- At a tie `x` is half way, and the even neighbour of `-x` is that of `x` the other way round.
    obtain ⟨n, hn⟩ : ∃ n : ℤ, x = n + 1 / 2 := by
      rcases abs_eq (by norm_num : (0 : K) ≤ 1 / 2) |>.mp htie with h | h
      · exact ⟨nearestEven x - 1, by push_cast; linarith⟩
      · exact ⟨nearestEven x, by linarith⟩
    have hneg : -x = ((-n - 1 : ℤ) : K) + 1 / 2 := by
      rw [hn]
      push_cast
      ring
    rw [hneg, hn, nearestEven_half, nearestEven_half]
    split_ifs <;> omega

end Field

/-- The digits of a significand, and the exponent of the least unit. -/
structure Format where
  digits : ℕ
  emin : ℤ
  pos : 0 < digits

def binary64 : Format := ⟨53, -1074, by decide⟩

namespace Format

section Field

variable {K : Type*} [Field K] [LinearOrder K] [IsStrictOrderedRing K] [FloorRing K] (F : Format)

/-- The exponent of the last digit of `x`. -/
def exponent (x : K) : ℤ := max (Int.log 2 |x| + 1 - F.digits) F.emin

def ulp (x : K) : K := 2 ^ F.exponent x

def round (x : K) : K := nearestEven (x / F.ulp x) * F.ulp x

variable {F} {x y : K}

theorem ulp_pos : 0 < F.ulp x := by
  unfold ulp
  positivity

omit [IsStrictOrderedRing K] in
theorem ulp_neg : F.ulp (-x) = F.ulp x := by
  unfold ulp exponent
  rw [abs_neg]

theorem round_neg : F.round (-x) = -F.round x := by
  unfold round
  rw [ulp_neg, neg_div, nearestEven_neg]
  push_cast
  ring

@[simp]
theorem round_zero : F.round (0 : K) = 0 := by
  unfold round
  rw [zero_div, ← Int.cast_zero, nearestEven_intCast]
  simp

theorem round_error : |F.round x - x| ≤ F.ulp x / 2 := by
  have hpos : 0 < F.ulp x := ulp_pos
  have hsplit : F.round x - x = (nearestEven (x / F.ulp x) - x / F.ulp x) * F.ulp x := by
    unfold round
    field_simp
  rw [hsplit, abs_mul, abs_of_pos hpos]
  calc _ ≤ 1 / 2 * F.ulp x := by gcongr; exact nearestEven_error _
    _ = _ := by ring

theorem round_nonneg (hx : 0 ≤ x) : 0 ≤ F.round x := by
  have hpos : 0 < F.ulp x := ulp_pos
  have h : nearestEven (0 : K) ≤ nearestEven (x / F.ulp x) := nearestEven_mono (by positivity)
  rw [← Int.cast_zero, nearestEven_intCast] at h
  have h' : (0 : K) ≤ (nearestEven (x / F.ulp x) : ℤ) := by exact_mod_cast h
  unfold round
  positivity

/-- Below `2 ^ (digits + e)` the last digit is at `e` or lower. -/
theorem exponent_le {e : ℤ} (he : F.emin ≤ e) (hx : x ≠ 0) (h : |x| < 2 ^ (F.digits + e)) : F.exponent x ≤ e := by
  have hlog : Int.log 2 |x| < F.digits + e :=
    (Int.lt_zpow_iff_log_lt Nat.one_lt_two (abs_pos.mpr hx)).mp (by exact_mod_cast h)
  unfold exponent
  omega

theorem round_near {e : ℤ} (he : F.emin ≤ e) (h : |x| < 2 ^ (F.digits + e)) : |F.round x - x| ≤ 2 ^ e / 2 := by
  by_cases hx : x = 0
  · rw [hx, round_zero, sub_zero, abs_zero]
    positivity
  · have hulp : F.ulp x ≤ 2 ^ e := zpow_le_zpow_right₀ one_le_two (exponent_le he hx h)
    exact round_error.trans (by gcongr)

theorem zpow_div_ulp {m : ℤ} (hm : F.exponent x ≤ m) :
    (2 : K) ^ m / F.ulp x = ((2 ^ (m - F.exponent x).toNat : ℤ) : K) := by
  rw [div_eq_iff ulp_pos.ne', ulp]
  push_cast
  rw [← zpow_natCast, ← zpow_add₀ two_ne_zero, Int.toNat_of_nonneg (by omega), sub_add_cancel]

theorem round_multiple {e : ℤ} (n : ℤ) (he : F.exponent x ≤ e) (hx : x = n * 2 ^ e) : F.round x = x := by
  have hpos : 0 < F.ulp x := ulp_pos
  have hn : x / F.ulp x = ((n * 2 ^ (e - F.exponent x).toNat : ℤ) : K) := by
    rw [Int.cast_mul, ← zpow_div_ulp he, ← mul_div_assoc, ← hx]
  unfold round
  rw [hn, nearestEven_intCast, ← hn]
  field_simp

theorem round_exact {e : ℤ} (he : F.emin ≤ e) {n : ℤ} (hn : |n| < 2 ^ F.digits) :
    F.round ((n : K) * 2 ^ e) = n * 2 ^ e := by
  by_cases hzero : (n : K) * 2 ^ e = 0
  · rw [hzero, round_zero]
  · refine round_multiple n (exponent_le he hzero ?_) rfl
    have hcast : |(n : K)| < 2 ^ F.digits := by exact_mod_cast hn
    rw [abs_mul, abs_of_pos (by positivity : (0 : K) < 2 ^ e), zpow_add₀ two_ne_zero, zpow_natCast]
    gcongr

theorem round_intCast (hmin : F.emin ≤ 0) {n : ℤ} (hn : |n| < 2 ^ F.digits) : F.round (n : K) = n := by
  simpa using round_exact (K := K) hmin hn

theorem round_eq {e n : ℤ} (he : F.emin ≤ e) (hlow : 2 ^ (F.digits + e - 1) ≤ |x|) (hhigh : |x| < 2 ^ (F.digits + e))
    (h : nearestEven (x / 2 ^ e) = n) : F.round x = n * 2 ^ e := by
  have hpos : 0 < |x| := lt_of_lt_of_le (by positivity) hlow
  have hlog : F.digits + e - 1 ≤ Int.log 2 |x| :=
    (Int.zpow_le_iff_le_log Nat.one_lt_two hpos).mp (by exact_mod_cast hlow)
  have hexp : F.exponent x = e := by
    have := exponent_le he (abs_pos.mp hpos) hhigh
    unfold exponent at this ⊢
    omega
  unfold round ulp
  rw [hexp, h]

/-- Less than half of the least unit is nothing. -/
theorem round_tiny (h : |x| < 2 ^ (F.emin - 1)) : F.round x = 0 := by
  by_cases hx : x = 0
  · rw [hx, round_zero]
  · have hexp : F.exponent x = F.emin := by
      apply le_antisymm
      · refine exponent_le le_rfl hx (h.trans_le (zpow_le_zpow_right₀ one_le_two ?_))
        omega
      · exact le_max_right _ _
    have hnear : |x / 2 ^ F.emin - (0 : ℤ)| < 1 / 2 := by
      have hpos : (0 : K) < 2 ^ F.emin := by positivity
      rw [Int.cast_zero, sub_zero, abs_div, abs_of_pos hpos, div_lt_iff₀ hpos]
      calc |x| < 2 ^ (F.emin - 1) := h
        _ = 1 / 2 * 2 ^ F.emin := by
          rw [zpow_sub_one₀ two_ne_zero]
          ring
    unfold round ulp
    rw [hexp, nearestEven_eq hnear, Int.cast_zero, zero_mul]

theorem lt_zpow : x < 2 ^ (F.exponent x + F.digits) := by
  have hlog : Int.log 2 |x| + 1 ≤ F.exponent x + F.digits := by
    unfold exponent
    omega
  calc x ≤ |x| := le_abs_self x
    _ < 2 ^ (Int.log 2 |x| + 1) := by exact_mod_cast Int.lt_zpow_succ_log_self Nat.one_lt_two |x|
    _ ≤ _ := zpow_le_zpow_right₀ one_le_two hlog

theorem round_le_zpow {m : ℤ} (hm : F.exponent x ≤ m) (h : x ≤ 2 ^ m) : F.round x ≤ 2 ^ m := by
  have hpos : 0 < F.ulp x := ulp_pos
  have hround : nearestEven (x / F.ulp x) ≤ 2 ^ (m - F.exponent x).toNat := by
    rw [← nearestEven_intCast (K := K) (2 ^ (m - F.exponent x).toNat), ← zpow_div_ulp hm]
    exact nearestEven_mono (by gcongr)
  apply (le_div_iff₀ hpos).mp
  rw [zpow_div_ulp hm]
  exact_mod_cast hround

theorem zpow_le_round {m : ℤ} (hm : F.exponent x ≤ m) (h : 2 ^ m ≤ x) : 2 ^ m ≤ F.round x := by
  have hpos : 0 < F.ulp x := ulp_pos
  have hround : 2 ^ (m - F.exponent x).toNat ≤ nearestEven (x / F.ulp x) := by
    rw [← nearestEven_intCast (K := K) (2 ^ (m - F.exponent x).toNat), ← zpow_div_ulp hm]
    exact nearestEven_mono (by gcongr)
  apply (div_le_iff₀ hpos).mp
  rw [zpow_div_ulp hm]
  exact_mod_cast hround

theorem round_mono_pos (hx : 0 < x) (h : x ≤ y) : F.round x ≤ F.round y := by
  have hlog : Int.log 2 |x| ≤ Int.log 2 |y| := by
    rw [abs_of_pos hx, abs_of_pos (hx.trans_le h)]
    exact Int.log_mono_right hx h
  have hexp : F.exponent x ≤ F.exponent y := by
    unfold exponent
    omega
  rcases hexp.eq_or_lt with heq | hlt
  · have hpos : 0 < F.ulp y := ulp_pos
    have hulp : F.ulp x = F.ulp y := by
      unfold ulp
      rw [heq]
    have hround : nearestEven (x / F.ulp y) ≤ nearestEven (y / F.ulp y) := nearestEven_mono (by gcongr)
    unfold round
    rw [hulp]
    gcongr
  · -- The power of two where the unit of `y` begins lies between the two.
    have hm : Int.log 2 |y| = F.exponent y + F.digits - 1 := by
      unfold exponent at hlt ⊢
      omega
    have hy : (2 : K) ^ (F.exponent y + F.digits - 1) ≤ y := by
      have := Int.zpow_log_le_self Nat.one_lt_two (hx.trans_le h)
      rw [← abs_of_pos (hx.trans_le h), hm, abs_of_pos (hx.trans_le h)] at this
      exact_mod_cast this
    have hxm : x ≤ 2 ^ (F.exponent y + F.digits - 1) :=
      (lt_zpow (F := F)).le.trans (zpow_le_zpow_right₀ one_le_two (by omega))
    have := F.pos
    exact (round_le_zpow (by omega) hxm).trans (zpow_le_round (by omega) hy)

theorem round_mono (h : x ≤ y) : F.round x ≤ F.round y := by
  rcases lt_or_ge 0 x with hx | hx
  · exact round_mono_pos hx h
  · rcases lt_or_ge y 0 with hy | hy
    · rw [← neg_le_neg_iff, ← round_neg, ← round_neg]
      exact round_mono_pos (neg_pos.mpr hy) (neg_le_neg h)
    · have hneg : 0 ≤ F.round (-x) := round_nonneg (neg_nonneg.mpr hx)
      rw [round_neg] at hneg
      exact (neg_nonneg.mp hneg).trans (round_nonneg hy)

end Field

end Format

/-! ## Doubles -/

/-- The double that an operation gives for the exact result `x`. -/
def double (x : ℚ) : ℚ := binary64.round x

theorem double_mono {x y : ℚ} (h : x ≤ y) : double x ≤ double y := Format.round_mono h

theorem double_nonneg {x : ℚ} (h : 0 ≤ x) : 0 ≤ double x := Format.round_nonneg h

@[simp]
theorem double_zero : double 0 = 0 := Format.round_zero

theorem double_intCast {n : ℤ} (hn : |n| < 2 ^ 53) : double n = n := Format.round_intCast (by decide) hn

theorem le_double {n : ℤ} (hn : |n| < 2 ^ 53) {x : ℚ} (h : n ≤ x) : n ≤ double x := by
  rw [← double_intCast hn]
  exact double_mono h

theorem double_le {n : ℤ} (hn : |n| < 2 ^ 53) {x : ℚ} (h : x ≤ n) : double x ≤ n := by
  rw [← double_intCast hn]
  exact double_mono h

theorem double_near {x : ℚ} (h : |x| < 65536) : |double x - x| ≤ 1 / 274877906944 := by
  have hnear := Format.round_near (K := ℚ) (F := binary64) (x := x) (e := -37) (by decide)
    (by norm_num [binary64]; exact h)
  norm_num at hnear
  exact hnear

end FloorHeating.Lib
