import Mathlib.Data.List.DropRight
import Mathlib.Data.List.Infix
import Mathlib.Tactic.Common

/-!
# Streaks

How long the run of equal outcomes at the end of a log is, and a bound on every
such run inside it.
-/

namespace FloorHeating.Lib

variable {α : Type*} (p : α → Bool)

/-- The number of last entries that all have `p`. -/
def streak (l : List α) : ℕ := (l.rtakeWhile p).length

theorem streak_snoc (l : List α) (a : α) : streak p (l ++ [a]) = if p a then streak p l + 1 else 0 := by
  unfold streak
  rw [List.rtakeWhile_concat]
  split
  · rw [List.length_append, List.length_singleton]
  · rfl

theorem length_le_streak (l seg : List α) (hp : ∀ a ∈ seg, p a = true) : seg.length ≤ streak p (l ++ seg) := by
  induction seg using List.reverseRecOn with
  | nil => exact Nat.zero_le _
  | append_singleton seg a ih =>
    rw [← List.append_assoc, streak_snoc, if_pos (hp a (by simp)), List.length_append]
    exact Nat.succ_le_succ (ih fun b hb => hp b (by simp [hb]))

def StreaksUpTo (n : ℕ) (l : List α) : Prop := ∀ pre, pre <+: l → streak p pre ≤ n

theorem streaksUpTo_nil (n : ℕ) : StreaksUpTo p n [] := by
  intro pre hpre
  rw [List.prefix_nil.mp hpre]
  exact Nat.zero_le n

theorem streaksUpTo_snoc (n : ℕ) (l : List α) (a : α) :
    StreaksUpTo p n (l ++ [a]) ↔ StreaksUpTo p n l ∧ streak p (l ++ [a]) ≤ n := by
  constructor
  · intro h
    exact ⟨fun pre hpre => h pre (hpre.trans (List.prefix_append _ _)), h _ (List.prefix_refl _)⟩
  · rintro ⟨h, ha⟩ pre hpre
    rcases List.prefix_concat_iff.mp hpre with rfl | hpre
    · exact ha
    · exact h pre hpre

theorem StreaksUpTo.segment {p : α → Bool} {n : ℕ} {l seg : List α} (h : StreaksUpTo p n l) (hseg : seg <:+: l)
    (hp : ∀ a ∈ seg, p a = true) : seg.length ≤ n := by
  obtain ⟨pre, post, rfl⟩ := hseg
  exact (length_le_streak p pre seg hp).trans (h _ (List.prefix_append _ _))

end FloorHeating.Lib
