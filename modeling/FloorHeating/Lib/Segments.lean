import Mathlib.Data.List.Basic
import Mathlib.Tactic.Common

/-!
# Maximal runs of a flag

The loop that walks over the indices, and at each one that is set goes on to
the last of the run. What it finds are exactly the maximal runs, in order.
-/

namespace FloorHeating.Lib

/-- The last index of the run that `j` is in; `left` more indices come after `j`. -/
def runEnd (on : Nat → Bool) : (left : Nat) → (j : Nat) → Nat
  | 0, j => j
  | left + 1, j => if on (j + 1) then runEnd on left (j + 1) else j

def spansFrom (on : Nat → Bool) (n : Nat) : (fuel : Nat) → (i : Nat) → List (Nat × Nat)
  | 0, _ => []
  | fuel + 1, i =>
    if n ≤ i then []
    else if on i then
      let j := runEnd on (n - 1 - i) i
      (i, j) :: spansFrom on n fuel (j + 1)
    else spansFrom on n fuel (i + 1)

/-- The runs among the indices below `n`, first and last index of each. -/
def spans (on : Nat → Bool) (n : Nat) : List (Nat × Nat) := spansFrom on n n 0

structure MaximalRun (on : Nat → Bool) (n : Nat) (s : Nat × Nat) : Prop where
  le : s.1 ≤ s.2
  lt : s.2 < n
  all : ∀ k, s.1 ≤ k → k ≤ s.2 → on k = true
  left : ∀ k, k + 1 = s.1 → on k = false
  right : s.2 + 1 < n → on (s.2 + 1) = false

section Runs

variable {on : Nat → Bool} {n : Nat}

theorem MaximalRun.disjoint {s s' : Nat × Nat} (h : MaximalRun on n s) (h' : MaximalRun on n s') {k : Nat}
    (hk : s.1 ≤ k ∧ k ≤ s.2) (hk' : s'.1 ≤ k ∧ k ≤ s'.2) : s = s' := by
  have hleft : ∀ {a b : Nat × Nat}, MaximalRun on n a → MaximalRun on n b → a.1 ≤ k ∧ k ≤ a.2 → b.1 ≤ k ∧ k ≤ b.2 →
      a.1 ≤ b.1 := by
    intro a b ha hb hka hkb
    by_contra hlt
    have hoff := ha.left (a.1 - 1) (by omega)
    rw [hb.all (a.1 - 1) (by omega) (by omega)] at hoff
    cases hoff
  have hright : ∀ {a b : Nat × Nat}, MaximalRun on n a → MaximalRun on n b → a.1 ≤ k ∧ k ≤ a.2 → b.1 ≤ k ∧ k ≤ b.2 →
      b.2 ≤ a.2 := by
    intro a b ha hb hka hkb
    by_contra hlt
    have hlow := hb.lt
    have hoff := ha.right (by omega)
    rw [hb.all (a.2 + 1) (by omega) (by omega)] at hoff
    cases hoff
  exact Prod.ext (Nat.le_antisymm (hleft h h' hk hk') (hleft h' h hk' hk))
    (Nat.le_antisymm (hright h' h hk' hk) (hright h h' hk hk'))

theorem runEnd_spec {left j : Nat} (hj : on j = true) (hn : j + left + 1 = n) :
    j ≤ runEnd on left j ∧ runEnd on left j < n ∧ (∀ k, j ≤ k → k ≤ runEnd on left j → on k = true) ∧
      (runEnd on left j + 1 < n → on (runEnd on left j + 1) = false) := by
  induction left generalizing j with
  | zero =>
    unfold runEnd
    refine ⟨Nat.le_refl j, by omega, fun k hlow hhigh => ?_, by omega⟩
    rwa [Nat.le_antisymm hhigh hlow]
  | succ left ih =>
    unfold runEnd
    by_cases hnext : on (j + 1) = true
    · obtain ⟨hle, hlt, hall, hend⟩ := ih hnext (by omega)
      rw [if_pos hnext]
      refine ⟨by omega, hlt, fun k hlow hhigh => ?_, hend⟩
      rcases Nat.eq_or_lt_of_le hlow with rfl | hlow
      · exact hj
      · exact hall k hlow hhigh
    · rw [if_neg hnext]
      refine ⟨Nat.le_refl j, by omega, fun k hlow hhigh => ?_, fun _ => ?_⟩
      · rwa [Nat.le_antisymm hhigh hlow]
      · rwa [Bool.not_eq_true] at hnext

structure Walked (on : Nat → Bool) (n i : Nat) (l : List (Nat × Nat)) : Prop where
  runs : ∀ s ∈ l, MaximalRun on n s ∧ i ≤ s.1
  found : ∀ k, i ≤ k → k < n → on k = true → ∃ s ∈ l, s.1 ≤ k ∧ k ≤ s.2
  sorted : l.Pairwise fun s s' => s.2 + 1 < s'.1

theorem spansFrom_walked {fuel i : Nat} (hfuel : n ≤ i + fuel)
    (hi : i < n → on i = true → ∀ k, k + 1 = i → on k = false) :
    Walked on n i (spansFrom on n fuel i) := by
  induction fuel generalizing i with
  | zero => exact ⟨by simp [spansFrom], fun k hlow hhigh => by omega, List.Pairwise.nil⟩
  | succ fuel ih =>
    unfold spansFrom
    by_cases hend : n ≤ i
    · rw [if_pos hend]
      exact ⟨by simp, fun k hlow hhigh => by omega, List.Pairwise.nil⟩
    · rw [if_neg hend]
      by_cases hon : on i = true
      · rw [if_pos hon]
        dsimp only
        obtain ⟨hle, hlt, hall, hright⟩ := runEnd_spec hon (show i + (n - 1 - i) + 1 = n by omega)
        generalize runEnd on (n - 1 - i) i = j at hle hlt hall hright
        obtain ⟨hruns, hfound, hsorted⟩ := ih (i := j + 1) (by omega) fun hin hset => by
          rw [hright hin] at hset
          cases hset
        refine ⟨fun s hs => ?_, fun k hlow hhigh hk => ?_, List.Pairwise.cons (fun s hs => ?_) hsorted⟩
        · rcases List.mem_cons.mp hs with rfl | hs
          · exact ⟨⟨hle, hlt, hall, hi (by omega) hon, hright⟩, Nat.le_refl i⟩
          · exact ⟨(hruns s hs).1, by have := (hruns s hs).2; omega⟩
        · by_cases hin : k ≤ j
          · exact ⟨(i, j), List.mem_cons_self, hlow, hin⟩
          · obtain ⟨s, hs, hcover⟩ := hfound k (by omega) hhigh hk
            exact ⟨s, List.mem_cons_of_mem _ hs, hcover⟩
        · obtain ⟨hrun, hstart⟩ := hruns s hs
          rcases Nat.eq_or_lt_of_le hstart with heq | hstart
          · -- The index after a run is not set.
            have hset := hrun.all s.1 (Nat.le_refl _) hrun.le
            have hin := hrun.le
            have hin' := hrun.lt
            rw [← heq, hright (by omega)] at hset
            cases hset
          · exact hstart
      · rw [if_neg hon]
        rw [Bool.not_eq_true] at hon
        obtain ⟨hruns, hfound, hsorted⟩ := ih (i := i + 1) (by omega) fun _ _ k hk => by
          obtain rfl : k = i := by omega
          exact hon
        refine ⟨fun s hs => ⟨(hruns s hs).1, by have := (hruns s hs).2; omega⟩, fun k hlow hhigh hk => ?_, hsorted⟩
        rcases Nat.eq_or_lt_of_le hlow with rfl | hlow
        · rw [hon] at hk
          cases hk
        · exact hfound k hlow hhigh hk

theorem spans_walked : Walked on n 0 (spans on n) := spansFrom_walked (by omega) fun _ _ k hk => by omega

theorem mem_spans (s : Nat × Nat) : s ∈ spans on n ↔ MaximalRun on n s := by
  have hwalk : Walked on n 0 (spans on n) := spans_walked
  constructor
  · exact fun hs => (hwalk.runs s hs).1
  · intro hs
    obtain ⟨s', hmem, hcover⟩ := hwalk.found s.1 (Nat.zero_le _) (Nat.lt_of_le_of_lt hs.le hs.lt)
      (hs.all s.1 (Nat.le_refl _) hs.le)
    rwa [hs.disjoint (hwalk.runs s' hmem).1 ⟨Nat.le_refl _, hs.le⟩ hcover]

theorem spans_sorted : (spans on n).Pairwise fun s s' => s.2 + 1 < s'.1 := spans_walked.sorted

end Runs

end FloorHeating.Lib
