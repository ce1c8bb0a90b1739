import Mathlib.Algebra.BigOperators.Group.Finset.Basic
import Mathlib.Algebra.BigOperators.Intervals
import Mathlib.Algebra.Order.BigOperators.Group.Finset
import Mathlib.Data.Nat.Find

/-!
# 32-bit counters

A counter that takes whole numbers modulo 2^32 is exact as long as the sum fits.
-/

namespace FloorHeating.Lib

theorem uint32_toNat_ofInt (x : Int) : ((UInt32.ofInt x).toNat : Int) = x % 2 ^ 32 := by
  rw [UInt32.ofInt, UInt32.toNat_ofNat']
  omega

theorem uint32_ofInt_exact {x : Int} (h0 : 0 ≤ x) (h : x < 2 ^ 32) : ((UInt32.ofInt x).toNat : Int) = x := by
  rw [uint32_toNat_ofInt, Int.emod_eq_of_lt h0 h]

theorem uint32_add_exact {a b : UInt32} (h : a.toNat + b.toNat < 2 ^ 32) :
    (a + b).toNat = a.toNat + b.toNat := by
  rw [UInt32.toNat_add, Nat.mod_eq_of_lt h]

/-! ## A counter that starts again -/

section Since

variable {M : Type*} [AddCommMonoid M] (P : Nat → Prop) [DecidablePred P]

/-- What `g` adds up to at the steps since the last `P`, or since 0. -/
def sinceLast (g : Nat → M) (n : Nat) : M :=
  ∑ k ∈ (Finset.range (n + 1)).filter (Nat.findGreatest P n ≤ ·), g k

theorem sinceLast_zero (g : Nat → M) : sinceLast P g 0 = g 0 := by
  simp [sinceLast]

/-- A `P` drops what was there before its own step is added. -/
theorem sinceLast_succ (g : Nat → M) (n : Nat) :
    sinceLast P g (n + 1) = (if P (n + 1) then 0 else sinceLast P g n) + g (n + 1) := by
  have hle : Nat.findGreatest P n ≤ n := Nat.findGreatest_le n
  unfold sinceLast
  rw [Finset.range_add_one, Finset.filter_insert, Nat.findGreatest_succ]
  split
  · have hnone : (Finset.range (n + 1)).filter (n + 1 ≤ ·) = ∅ := by
      apply Finset.filter_eq_empty_iff.mpr
      intro k hk
      rw [Finset.mem_range] at hk
      omega
    rw [if_pos (le_refl _), hnone]
    simp
  · rw [if_pos (by omega), Finset.sum_insert (by simp), add_comm]

end Since

/-- The same for a 32-bit counter that starts at 0 and may wrap. -/
theorem uint32_sinceLast (P : Nat → Prop) [DecidablePred P] (count : Nat → UInt32) {g : Nat → Int}
    (h0 : count 0 = 0)
    (hs : ∀ n, count (n + 1) = (if P n then 0 else count n) + UInt32.ofInt (g n)) (n : Nat) :
    count (n + 1) = UInt32.ofInt (sinceLast P g n) := by
  induction n with
  | zero => rw [hs, h0, ite_self, UInt32.zero_add, sinceLast_zero]
  | succ n ih =>
    rw [hs, ih, sinceLast_succ, UInt32.ofInt_add]
    split <;> rfl

theorem sinceLast_never (P : Nat → Prop) [DecidablePred P] (g : Nat → Int) (n : Nat)
    (hP : ∀ k, ¬ P k) : sinceLast P g n = ∑ k ∈ Finset.range (n + 1), g k := by
  unfold sinceLast
  rw [Nat.findGreatest_eq_zero_iff.mpr fun k _ _ => hP k]
  simp

theorem sinceLast_nonneg (P : Nat → Prop) [DecidablePred P] {g : Nat → Int} (n : Nat)
    (hg : ∀ k ≤ n, 0 ≤ g k) : 0 ≤ sinceLast P g n := by
  apply Finset.sum_nonneg
  intro k hk
  have := Finset.mem_range.mp (Finset.mem_filter.mp hk).1
  exact hg k (by omega)

theorem sinceLast_le_sum (P : Nat → Prop) [DecidablePred P] {g : Nat → Int} (n : Nat)
    (hg : ∀ k ≤ n, 0 ≤ g k) : sinceLast P g n ≤ ∑ k ∈ Finset.range (n + 1), g k := by
  apply Finset.sum_le_sum_of_subset_of_nonneg (Finset.filter_subset _ _)
  intro k hk _
  have := Finset.mem_range.mp hk
  exact hg k (by omega)

theorem uint32_sinceLast_exact (P : Nat → Prop) [DecidablePred P] {g : Nat → Int} (n : Nat)
    (hg : ∀ k ≤ n, 0 ≤ g k) (hfits : ∑ k ∈ Finset.range (n + 1), g k < 2 ^ 32) :
    ((UInt32.ofInt (sinceLast P g n)).toNat : Int) = sinceLast P g n :=
  uint32_ofInt_exact (sinceLast_nonneg P n hg) ((sinceLast_le_sum P n hg).trans_lt hfits)

/-- A counter since the start and one since the last `P`: if the first is exact then both are. -/
theorem uint32_day_exact (P : Nat → Prop) [DecidablePred P] (part whole : Nat → UInt32) {g : Nat → Int}
    (h0 : part 0 = 0) (hpart : ∀ n, part (n + 1) = UInt32.ofInt (sinceLast P g n))
    (hwhole : ∀ n, whole (n + 1) = UInt32.ofInt (∑ k ∈ Finset.range (n + 1), g k)) {n : Nat}
    (hg : ∀ k ≤ n, 0 ≤ g k) (hfits : ∑ k ∈ Finset.range (n + 1), g k < 2 ^ 32) :
    ((whole (n + 1)).toNat : Int) = ∑ k ∈ Finset.range (n + 1), g k ∧
      ((part (n + 1)).toNat : Int) = sinceLast P g n ∧ part (n + 1) ≤ whole (n + 1) ∧
        (¬ P n → part n ≤ part (n + 1)) := by
  have hle := sinceLast_le_sum P n hg
  have hpos := sinceLast_nonneg P n hg
  have hb : ((whole (n + 1)).toNat : Int) = ∑ k ∈ Finset.range (n + 1), g k := by
    rw [hwhole, uint32_ofInt_exact (hpos.trans hle) hfits]
  have ht : ((part (n + 1)).toNat : Int) = sinceLast P g n := by
    rw [hpart, uint32_sinceLast_exact P n hg hfits]
  refine ⟨hb, ht, ?_, fun hP => ?_⟩
  · rw [UInt32.le_iff_toNat_le]
    omega
  · cases n with
    | zero =>
      rw [h0]
      exact UInt32.zero_le
    | succ n =>
      have hlast := hg (n + 1) (le_refl _)
      rw [Finset.sum_range_succ] at hfits
      have ht' : ((part (n + 1)).toNat : Int) = sinceLast P g n := by
        rw [hpart, uint32_sinceLast_exact P n (fun k hk => hg k (by omega)) (by omega)]
      rw [sinceLast_succ, if_neg hP] at ht
      rw [UInt32.le_iff_toNat_le]
      omega

end FloorHeating.Lib
