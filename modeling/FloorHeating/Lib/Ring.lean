import Mathlib.Algebra.Group.Nat.Defs
import Mathlib.Data.List.Induction
import Mathlib.Tactic.Common

/-!
# A ring of slots

The writer overwrites the oldest slot; a reader takes the newest ones, in either
order. What it gets is the end of the list of everything that was ever pushed.
-/

namespace FloorHeating.Lib

variable {α : Type*} {N : Nat}

/-- `slot` is only looked at below `N`. -/
structure Ring (N : Nat) (α : Type*) where
  slot : Nat → α
  head : Nat
  count : Nat

namespace Ring

def push (r : Ring N α) (x : α) : Ring N α where
  slot := fun j => if j = r.head then x else r.slot j
  head := (r.head + 1) % N
  count := if r.count < N then r.count + 1 else r.count

/-- `l` is everything that was pushed; push `j` went to slot `j % N`. -/
structure Holds (r : Ring N α) (l : List α) : Prop where
  head : r.head = l.length % N
  count : r.count = min l.length N
  slot : ∀ j x, l[j]? = some x → l.length ≤ j + N → r.slot (j % N) = x

theorem holds_nil (slot : Nat → α) : Holds (⟨slot, 0, 0⟩ : Ring N α) [] where
  head := (Nat.zero_mod N).symm
  count := (Nat.zero_min N).symm
  slot := by simp

theorem mod_ne_of_lap {i j : Nat} (hij : i < j) (hlap : j < i + N) : i % N ≠ j % N := by
  intro he
  have hd : N ∣ j - i := Nat.dvd_of_mod_eq_zero (Nat.sub_mod_eq_zero_of_mod_eq he.symm)
  have := Nat.le_of_dvd (by omega) hd
  omega

theorem holds_push {r : Ring N α} {l : List α} (h : Holds r l) (x : α) : Holds (r.push x) (l ++ [x]) where
  head := by
    simp only [push, h.head, List.length_append, List.length_singleton, Nat.mod_add_mod]
  count := by
    simp only [push, h.count, List.length_append, List.length_singleton]
    split <;> omega
  slot := by
    intro j y hj hlen
    rw [List.length_append, List.length_singleton] at hlen
    simp only [push, h.head]
    rcases Nat.lt_trichotomy j l.length with hlt | rfl | hgt
    · rw [if_neg (mod_ne_of_lap hlt (by omega))]
      rw [List.getElem?_append_left hlt] at hj
      exact h.slot j y hj (by omega)
    · rw [if_pos rfl]
      simpa using hj
    · rw [List.getElem?_eq_none (by simp; omega)] at hj
      cases hj

/-- A program whose every step is seen as a push. -/
theorem holds_foldl {σ β : Type*} {step : σ → β → σ} {s₀ : σ} (view : σ → Ring N α) (entry : β → α)
    (h0 : Holds (view s₀) []) (hpush : ∀ s b, view (step s b) = (view s).push (entry b)) (l : List β) :
    Holds (view (l.foldl step s₀)) (l.map entry) := by
  induction l using List.reverseRecOn with
  | nil => exact h0
  | append_singleton l b ih =>
    rw [List.foldl_append, List.map_append]
    simp only [List.foldl_cons, List.foldl_nil, hpush]
    exact holds_push ih (entry b)

/-! ## Head and count as 32-bit words -/

theorem toNat_next {head size : UInt32} (h : head < size) :
    ((head + 1) % size).toNat = (head.toNat + 1) % size.toNat := by
  have hlt := UInt32.lt_iff_toNat_lt.mp h
  have hsize := size.toNat_lt
  have h1 : (1 : UInt32).toNat = 1 := rfl
  have hsum : (head + 1).toNat = head.toNat + 1 := by
    rw [UInt32.toNat_add, h1]
    omega
  rw [UInt32.toNat_mod, hsum]

theorem toNat_counted (count size : UInt32) :
    (if count < size then count + 1 else count).toNat =
      if count.toNat < size.toNat then count.toNat + 1 else count.toNat := by
  have hsize := size.toNat_lt
  have h1 : (1 : UInt32).toNat = 1 := rfl
  by_cases hlt : count < size
  · rw [if_pos hlt, if_pos (UInt32.lt_iff_toNat_lt.mp hlt), UInt32.toNat_add, h1]
    have := UInt32.lt_iff_toNat_lt.mp hlt
    omega
  · rw [if_neg hlt, if_neg (mt UInt32.lt_iff_toNat_lt.mpr hlt)]

/-- One lap ahead, and then back: neither leaves 32 bits. -/
theorem toNat_back {head size n : UInt32} (hroom : head.toNat + size.toNat < 2 ^ 32)
    (hn : n.toNat ≤ head.toNat + size.toNat) :
    (head + size - n).toNat = head.toNat + size.toNat - n.toNat := by
  have hsum : (head + size).toNat = head.toNat + size.toNat := by
    rw [UInt32.toNat_add, Nat.mod_eq_of_lt hroom]
  rw [UInt32.toNat_sub_of_le _ _ (UInt32.le_iff_toNat_le.mpr (by omega)), hsum]

/-! ## The two readers -/

section Read

variable {r : Ring N α} {l : List α} (h : Holds r l)

include h

theorem newest_index {i : Nat} (hi : i < r.count) : (r.head + N - 1 - i) % N = (l.length - 1 - i) % N := by
  rw [h.count] at hi
  have hlap := Nat.div_add_mod l.length N
  have hmod : l.length % N < N := Nat.mod_lt _ (by omega)
  rw [h.head]
  -- Both sides are the same number of whole laps apart.
  have hsum : l.length - 1 - i + N = (l.length % N + N - 1 - i) + N * (l.length / N) := by omega
  rw [← Nat.add_mod_right (l.length - 1 - i), hsum, Nat.add_mul_mod_self_left]

theorem oldest_index {n i : Nat} (hn : n ≤ r.count) :
    ((r.head + N - n) % N + i) % N = (l.length - n + i) % N := by
  rw [h.count] at hn
  have hlap := Nat.div_add_mod l.length N
  rw [Nat.mod_add_mod, h.head]
  have hsum : l.length - n + i + N = (l.length % N + N - n + i) + N * (l.length / N) := by omega
  rw [← Nat.add_mod_right (l.length - n + i), hsum, Nat.add_mul_mod_self_left]

theorem read_newest {n : Nat} (hn : n ≤ r.count) :
    (List.range n).map (fun i => r.slot ((r.head + N - 1 - i) % N)) = l.reverse.take n := by
  have hlen : n ≤ l.length := by
    rw [h.count] at hn
    omega
  apply List.ext_getElem
  · simp [hlen]
  · intro i hi hi'
    rw [List.length_map, List.length_range] at hi
    have hc := h.count
    simp only [List.getElem_map, List.getElem_range, List.getElem_take, List.getElem_reverse]
    rw [newest_index h (by omega)]
    exact h.slot _ _ (List.getElem?_eq_getElem (by omega)) (by omega)

theorem read_oldest {n : Nat} (hn : n ≤ r.count) :
    (List.range n).map (fun i => r.slot (((r.head + N - n) % N + i) % N)) = l.drop (l.length - n) := by
  have hlen : n ≤ l.length := by
    rw [h.count] at hn
    omega
  apply List.ext_getElem
  · simp
    omega
  · intro i hi hi'
    rw [List.length_map, List.length_range] at hi
    have hc := h.count
    simp only [List.getElem_map, List.getElem_range, List.getElem_drop]
    rw [oldest_index h hn]
    exact h.slot _ _ (List.getElem?_eq_getElem (by omega)) (by omega)

end Read

end Ring

end FloorHeating.Lib
