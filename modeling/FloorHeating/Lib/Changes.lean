import Mathlib.Data.List.Chain

/-!
# A log of changes

A flag starts false, and each change of it is logged with the new value. Then
the log alternates, starts with true, and ends with the flag.
-/

namespace FloorHeating.Lib

/-- `log` alternates from true, and its last entry (false if there is none) is `flag`. -/
def Tracks (log : List Bool) (flag : Bool) : Prop :=
  (false :: log).IsChain (· ≠ ·) ∧ log.getLast?.getD false = flag

def change (before after : Bool) : List Bool := if after = before then [] else [after]

theorem tracks_nil : Tracks [] false := ⟨List.isChain_singleton _, rfl⟩

theorem tracks_change {log : List Bool} {before : Bool} (h : Tracks log before) (after : Bool) :
    Tracks (log ++ change before after) after := by
  obtain ⟨hc, hl⟩ := h
  unfold change
  split <;> rename_i ha
  · subst ha
    exact ⟨by simpa using hc, by simpa using hl⟩
  · refine ⟨?_, by simp⟩
    rw [← List.cons_append]
    refine hc.append (List.isChain_singleton _) ?_
    intro x hx y hy
    rw [Option.mem_def, List.getLast?_cons, Option.some.injEq, hl] at hx
    simp only [List.head?_cons, Option.mem_def, Option.some.injEq] at hy
    subst hx hy
    exact fun he => ha he.symm

/-- If the flag is as before and has not been raised since, it has not changed since. -/
theorem tracks_quiet {log new : List Bool} {flag : Bool} (h : Tracks log flag) (h' : Tracks (log ++ new) flag)
    (hnew : new.count true = 0) : new = [] := by
  rw [List.count_eq_zero] at hnew
  cases new with
  | nil => rfl
  | cons b rest =>
    exfalso
    have hfalse : ∀ x ∈ b :: rest, x = false := fun x hx => by
      cases x with
      | false => rfl
      | true => exact absurd hx hnew
    obtain ⟨-, hlast⟩ := h
    obtain ⟨hchain, hlast'⟩ := h'
    have hflag : flag = false := by
      rw [← hlast', List.getLast?_append_of_ne_nil _ (List.cons_ne_nil b rest),
        List.getLast?_eq_some_getLast (List.cons_ne_nil b rest)]
      exact hfalse _ (List.getLast_mem _)
    rw [← List.cons_append, List.isChain_append] at hchain
    refine hchain.2.2 false ?_ b rfl (hfalse b List.mem_cons_self).symm
    rw [List.getLast?_cons, hlast, hflag]
    rfl

end FloorHeating.Lib
