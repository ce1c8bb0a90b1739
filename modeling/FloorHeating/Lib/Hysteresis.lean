import Mathlib.Algebra.Order.Group.Abs
import Mathlib.Tactic.Abel
import Mathlib.Tactic.Common

/-!
# A flag with hysteresis

One side of the input raises the flag, another clears it, and in between it
stays. Where the sides are `d` apart, each change but the first costs the input
a way of `d`.
-/

namespace FloorHeating.Lib

variable {α : Type*}

def trigger (up down : α → Bool) (on : Bool) (x : α) : Bool := up x || (on && !down x)

def flips (up down : α → Bool) : (on : Bool) → List α → Nat
  | _, [] => 0
  | on, x :: l => (if trigger up down on x = on then 0 else 1) + flips up down (trigger up down on x) l

/-- `x` is on the side that makes the flag what it is. -/
def Side (up down : α → Bool) (on : Bool) (x : α) : Prop := if on then up x = true else down x = true

theorem side_flipped {up down : α → Bool} {on : Bool} {x : α} (h : trigger up down on x ≠ on) :
    trigger up down on x = (!on) ∧ Side up down (!on) x := by
  revert h
  unfold trigger Side
  cases on <;> cases up x <;> cases down x <;> simp

variable [AddCommGroup α] [LinearOrder α]

/-- The way from `p` along the inputs. -/
def way (p : α) : List α → α
  | [] => 0
  | x :: l => |x - p| + way x l

def variation : List α → α
  | [] => 0
  | x :: l => way x l

variable [IsOrderedAddMonoid α]

section Bound

variable {up down : α → Bool} {d : α} (hapart : ∀ x y, up x = true → down y = true → d ≤ |x - y|)

include hapart

omit [IsOrderedAddMonoid α] in
theorem side_apart {on : Bool} {x y : α} (hx : Side up down on x) (hy : Side up down (!on) y) : d ≤ |y - x| := by
  cases on with
  | true =>
    rw [abs_sub_comm]
    exact hapart x y hx hy
  | false => exact hapart y x hy hx

/-- The flag is what it is because of `a`, and the input is at `p`. -/
theorem flips_anchored {on : Bool} {a : α} (ha : Side up down on a) (p : α) (l : List α) :
    flips up down on l • d ≤ |p - a| + way p l := by
  induction l generalizing on a p with
  | nil =>
    rw [flips, zero_nsmul, way, add_zero]
    exact abs_nonneg _
  | cons x l ih =>
    have htriangle : |x - a| ≤ |x - p| + |p - a| := abs_sub_le x p a
    rw [flips, way]
    by_cases hsame : trigger up down on x = on
    · rw [if_pos hsame, hsame, zero_add]
      calc flips up down on l • d ≤ |x - a| + way x l := ih ha x
        _ ≤ |x - p| + |p - a| + way x l := add_le_add_left htriangle _
        _ = |p - a| + (|x - p| + way x l) := by abel
    · obtain ⟨hother, hx⟩ := side_flipped hsame
      have hd : d ≤ |x - a| := side_apart hapart ha hx
      have hrest := ih hx x
      rw [sub_self, abs_zero, zero_add] at hrest
      rw [if_neg hsame, hother, add_nsmul, one_nsmul]
      calc d + flips up down (!on) l • d ≤ |x - p| + |p - a| + way x l := add_le_add (hd.trans htriangle) hrest
        _ = |p - a| + (|x - p| + way x l) := by abel

theorem flips_from (hd : 0 ≤ d) (on : Bool) (p : α) (l : List α) : flips up down on l • d ≤ d + way p l := by
  induction l generalizing on p with
  | nil =>
    rw [flips, zero_nsmul, way, add_zero]
    exact hd
  | cons x l ih =>
    rw [flips, way]
    by_cases hsame : trigger up down on x = on
    · rw [if_pos hsame, hsame, zero_add]
      calc flips up down on l • d ≤ d + way x l := ih on x
        _ ≤ d + (|x - p| + way x l) := add_le_add_right (le_add_of_nonneg_left (abs_nonneg _)) d
    · obtain ⟨hother, hx⟩ := side_flipped hsame
      have hrest := flips_anchored hapart hx x l
      rw [sub_self, abs_zero, zero_add] at hrest
      rw [if_neg hsame, hother, add_nsmul, one_nsmul]
      exact add_le_add_right (hrest.trans (le_add_of_nonneg_left (abs_nonneg _))) d

/-- Each change of the flag but one takes the input a way of `d`. -/
theorem flips_le (hd : 0 ≤ d) (on : Bool) (l : List α) : flips up down on l • d ≤ d + variation l := by
  cases l with
  | nil =>
    rw [flips, zero_nsmul, variation, add_zero]
    exact hd
  | cons x l =>
    have hfrom := flips_from hapart hd on x (x :: l)
    rwa [way, sub_self, abs_zero, zero_add] at hfrom

end Bound

end FloorHeating.Lib
