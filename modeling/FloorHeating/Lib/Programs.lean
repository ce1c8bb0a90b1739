import FloorHeating.Lib.Locks
import Mathlib.Computability.RegularExpressions
import Mathlib.Data.List.Forall2

/-!
# Programs that take locks

What a program may do, whatever its conditions are, is a regular expression:
`+` for a branch, `star` for a loop. Whether every run of it keeps a discipline
can be computed.
-/

namespace FloorHeating.Lib

variable {L C : Type}

/-! ## No more steps left -/

def Held.Below (h g : Held L) : Prop := List.Forall₂ (fun x y => x.1 = y.1 ∧ x.2 ≤ y.2) h g

variable {h h' g : Held L}

theorem below_trans {k : Held L} (hg : h.Below g) (hk : g.Below k) : h.Below k := by
  induction hg generalizing k with
  | nil => exact hk
  | cons hxy _ ih =>
    cases hk with
    | cons hyz hrest => exact .cons ⟨hxy.1.trans hyz.1, hxy.2.trans hyz.2⟩ (ih hrest)

theorem below_spent (hg : h.Below g) : h.spent.Below g.spent := by
  induction hg with
  | nil => exact .nil
  | cons hxy _ ih => exact .cons ⟨hxy.1, Nat.sub_le_sub_right hxy.2 1⟩ ih

theorem below_nil (hg : Held.Below [] g) : g = [] := by
  cases hg
  rfl

theorem below_mem (hg : h.Below g) {y : L × Nat} (hy : y ∈ g) : ∃ x ∈ h, x.1 = y.1 ∧ x.2 ≤ y.2 := by
  induction hg with
  | nil => cases hy
  | cons hxy _ ih =>
    rcases List.mem_cons.mp hy with rfl | hy
    · exact ⟨_, List.mem_cons_self, hxy⟩
    · obtain ⟨x, hx, hrest⟩ := ih hy
      exact ⟨x, List.mem_cons_of_mem _ hx, hrest⟩

theorem below_spend (hpos : ∀ x ∈ h, 0 < x.2) (hg : h.Below g) : g.spend = some g.spent := by
  apply spend_some
  intro y hy
  obtain ⟨x, hx, -, hle⟩ := below_mem hg hy
  exact (hpos x hx).trans_le hle

theorem below_all (hg : h.Below g) {Q : L → Prop} (hq : ∀ x ∈ h, Q x.1) : ∀ y ∈ g, Q y.1 := by
  intro y hy
  obtain ⟨x, hx, hxy, -⟩ := below_mem hg hy
  exact hxy ▸ hq x hx

variable [DecidableEq L] {P : Discipline L C}

theorem op_below {a : LockOp L C} (ho : P.op h a = some h') (hg : h.Below g) :
    ∃ g', P.op g a = some g' ∧ h'.Below g' := by
  obtain ⟨hpos, hdoes⟩ := op_does ho
  cases hdoes with
  | acquire l hrank =>
    refine ⟨(l, P.limit l) :: g.spent, ?_, .cons ⟨rfl, le_refl _⟩ (below_spent hg)⟩
    simp only [Discipline.op]
    rw [if_pos (below_all hg (Q := fun l' => P.rank l' < P.rank l) hrank), below_spend hpos hg]
    rfl
  | release l n rest heq =>
    subst heq
    obtain ⟨hn, hrest⟩ := List.forall_mem_cons.mp hpos
    cases hg with
    | @cons _ y _ tail hxy htail =>
      refine ⟨Held.spent tail, ?_, below_spent htail⟩
      simp only [Discipline.op]
      rw [if_pos ⟨hxy.1.symm, hn.trans_le hxy.2⟩, below_spend hrest htail]
  | call c hcall =>
    refine ⟨g.spent, ?_, below_spent hg⟩
    simp only [Discipline.op]
    rw [if_pos (below_all hg (Q := fun l' => P.allowed l' c = true) hcall), below_spend hpos hg]

/-! ## What is left after a program -/

/-- What is left to both, if they hold the same. -/
def Held.meet (h g : Held L) : Option (Held L) :=
  if h.map Prod.fst = g.map Prod.fst then some (List.zipWith (fun x y => (x.1, min x.2 y.2)) h g) else none

theorem meet_below {k : Held L} (hk : h.meet g = some k) : k.Below h ∧ k.Below g := by
  unfold Held.meet at hk
  split at hk
  · rename_i hlocks
    obtain rfl := Option.some.inj hk
    clear hk
    induction h generalizing g with
    | nil =>
      cases g with
      | nil => exact ⟨.nil, .nil⟩
      | cons y g => simp at hlocks
    | cons x h ih =>
      cases g with
      | nil => simp at hlocks
      | cons y g =>
        obtain ⟨hxy, hrest⟩ := List.cons.inj hlocks
        obtain ⟨hh, hg⟩ := ih hrest
        exact ⟨.cons ⟨rfl, min_le_left _ _⟩ hh, .cons ⟨hxy, min_le_right _ _⟩ hg⟩
  · cases hk

/-- What a thread that holds `h` holds after any run of the program, with at least so many steps left. It is `none` if
a run may break the discipline. A loop is only for a thread that holds nothing. -/
def Discipline.after (P : Discipline L C) : RegularExpression (LockOp L C) → Held L → Option (Held L)
  | .zero, h => some h
  | .epsilon, h => some h
  | .char a, h => P.op h a
  | .plus r s, h => do (← P.after r h).meet (← P.after s h)
  | .comp r s, h => do P.after s (← P.after r h)
  | .star r, h => if h = [] ∧ P.after r [] = some [] then some [] else none

/-- Every run of the program does what was computed. -/
theorem after_sound {r : RegularExpression (LockOp L C)} {w : List (LockOp L C)} (hr : P.after r h = some h')
    (hg : h.Below g) (hw : w ∈ r.matches') : ∃ g', w.foldlM P.op g = some g' ∧ h'.Below g' := by
  induction r generalizing h h' g w with
  | zero => cases hw
  | epsilon =>
    obtain rfl : w = [] := hw
    obtain rfl := Option.some.inj hr
    exact ⟨g, rfl, hg⟩
  | char a =>
    obtain rfl : w = [a] := hw
    obtain ⟨g', hop, hg'⟩ := op_below hr hg
    exact ⟨g', by simp [hop], hg'⟩
  | plus r s ihr ihs =>
    simp only [Discipline.after, Option.bind_eq_bind, Option.bind_eq_some_iff] at hr
    obtain ⟨k, hk, k', hk', hmeet⟩ := hr
    obtain ⟨hleft, hright⟩ := meet_below hmeet
    rcases hw with hw | hw
    · obtain ⟨g', hrun, hg'⟩ := ihr hk hg hw
      exact ⟨g', hrun, below_trans hleft hg'⟩
    · obtain ⟨g', hrun, hg'⟩ := ihs hk' hg hw
      exact ⟨g', hrun, below_trans hright hg'⟩
  | comp r s ihr ihs =>
    simp only [Discipline.after, Option.bind_eq_bind, Option.bind_eq_some_iff] at hr
    obtain ⟨k, hk, hs⟩ := hr
    obtain ⟨u, hu, v, hv, rfl⟩ := Language.mem_mul.mp hw
    obtain ⟨g', hrun, hg'⟩ := ihr hk hg hu
    obtain ⟨g'', hrun', hg''⟩ := ihs hs hg' hv
    exact ⟨g'', by simp [List.foldlM_append, hrun, hrun'], hg''⟩
  | star r ih =>
    simp only [Discipline.after] at hr
    split at hr
    · rename_i hloop
      obtain ⟨rfl, hbody⟩ := hloop
      obtain rfl := Option.some.inj hr
      obtain rfl := below_nil hg
      refine ⟨[], ?_, .nil⟩
      obtain ⟨words, rfl, hwords⟩ := Language.mem_kstar.mp hw
      clear hw
      induction words with
      | nil => rfl
      | cons u words ihw =>
        obtain ⟨hu, hrest⟩ := List.forall_mem_cons.mp hwords
        obtain ⟨g', hrun, hg'⟩ := ih hbody .nil hu
        obtain rfl := below_nil hg'
        rw [List.flatten_cons, List.foldlM_append, hrun]
        exact ihw hrest
    · cases hr

/-- A program that gives everything back keeps the discipline in every run. -/
theorem keeps_of_after {r : RegularExpression (LockOp L C)} {w : List (LockOp L C)} (hr : P.after r [] = some [])
    (hw : w ∈ r.matches') : P.Keeps [] w := by
  obtain ⟨g', hrun, hg'⟩ := after_sound hr .nil hw
  rw [below_nil hg'] at hrun
  exact hrun

/-! ## What a program may do at all -/

def opsOf {α : Type} : RegularExpression α → List α
  | .zero | .epsilon => []
  | .char a => [a]
  | .plus r s | .comp r s => opsOf r ++ opsOf s
  | .star r => opsOf r

theorem mem_opsOf {α : Type} {r : RegularExpression α} {w : List α} {a : α} (hw : w ∈ r.matches') (ha : a ∈ w) :
    a ∈ opsOf r := by
  induction r generalizing w with
  | zero => cases hw
  | epsilon =>
    obtain rfl : w = [] := hw
    cases ha
  | char b =>
    obtain rfl : w = [b] := hw
    exact ha
  | plus r s ihr ihs =>
    rcases hw with hw | hw
    · exact List.mem_append_left _ (ihr hw ha)
    · exact List.mem_append_right _ (ihs hw ha)
  | comp r s ihr ihs =>
    obtain ⟨u, hu, v, hv, rfl⟩ := Language.mem_mul.mp hw
    rcases List.mem_append.mp ha with ha | ha
    · exact List.mem_append_left _ (ihr hu ha)
    · exact List.mem_append_right _ (ihs hv ha)
  | star r ih =>
    obtain ⟨words, rfl, hwords⟩ := Language.mem_kstar.mp hw
    obtain ⟨u, hu, ha⟩ := List.mem_flatten.mp ha
    exact ih (hwords u hu) ha

end FloorHeating.Lib
