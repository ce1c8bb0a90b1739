import Mathlib.Data.List.Induction
import Mathlib.Tactic.Common

/-!
# Runs of a state machine

Nothing here knows what the machine does. A run is a list of actions, oldest
first, so the histories of a run are its prefixes and every proof goes from
the end.
-/

namespace FloorHeating.Lib

variable {σ α : Type*}

/-! ## Runs and invariants -/

def run (step : σ → α → σ) (s₀ : σ) (h : List α) : σ := h.foldl step s₀

theorem run_append (step : σ → α → σ) (s₀ : σ) (h k : List α) :
    run step s₀ (h ++ k) = run step (run step s₀ h) k := List.foldl_append

@[simp] theorem run_snoc (step : σ → α → σ) (s₀ : σ) (h : List α) (a : α) :
    run step s₀ (h ++ [a]) = step (run step s₀ h) a := by
  rw [run_append]; rfl

/-- Each action of `h` was allowed by `C`, which sees the history before it. -/
def Along (C : List α → α → Prop) (h : List α) : Prop := ∀ pre a, pre ++ [a] <+: h → C pre a

theorem along_nil (C : List α → α → Prop) : Along C [] := by
  intro pre a hp
  simp at hp

theorem along_snoc (C : List α → α → Prop) (h : List α) (a : α) :
    Along C (h ++ [a]) ↔ Along C h ∧ C h a := by
  constructor
  · intro hc
    exact ⟨fun pre b hp => hc pre b (hp.trans (List.prefix_append _ _)), hc h a (List.prefix_refl _)⟩
  · rintro ⟨hc, ha⟩ pre b hp
    rcases List.prefix_concat_iff.mp hp with he | hp
    · obtain ⟨rfl, rfl⟩ := List.append_singleton_inj.mp he
      exact ha
    · exact hc pre b hp

theorem along_append (C : List α → α → Prop) (h k : List α) :
    Along C (h ++ k) ↔ Along C h ∧ Along (fun pre a => C (h ++ pre) a) k := by
  induction k using List.reverseRecOn with
  | nil => simpa using fun _ => along_nil _
  | append_singleton k a ih => rw [← List.append_assoc, along_snoc, along_snoc, ih, and_assoc]

theorem along_of_forall {C : List α → α → Prop} {h : List α} (hc : ∀ a ∈ h, ∀ pre, C pre a) : Along C h :=
  fun pre a hp => hc a (hp.subset (by simp)) pre

theorem along_initial {C : List α → α → Prop} {h k : List α} (hc : Along C k) (hp : h <+: k) :
    Along C h := fun pre a ha => hc pre a (ha.trans hp)

/-- What holds at first, and is kept by every allowed action, holds after every allowed run. -/
theorem run_invariant {step : σ → α → σ} {s₀ : σ} {I : σ → Prop} {C : List α → α → Prop}
    (h0 : I s₀) (hs : ∀ h a, I (run step s₀ h) → C h a → I (step (run step s₀ h) a)) :
    ∀ h, Along C h → I (run step s₀ h) := by
  intro h
  induction h using List.reverseRecOn with
  | nil => intro _; exact h0
  | append_singleton h a ih =>
    intro hc
    obtain ⟨hc, ha⟩ := (along_snoc C h a).mp hc
    rw [run_snoc]
    exact hs h a (ih hc) ha

/-- A phase `I` that lasts until an action of `E` ends it for good. -/
theorem run_until {step : σ → α → σ} {C E : α → Prop} {I D : σ → Prop}
    (hkeep : ∀ s a, I s → C a → ¬ E a → I (step s a)) (hend : ∀ s a, I s → C a → E a → D (step s a))
    (hdone : ∀ s a, D s → C a → D (step s a)) {l : List α} (hl : ∀ a ∈ l, C a) {s : σ} (hs : I s) :
    ((∀ a ∈ l, ¬ E a) ∧ I (run step s l)) ∨
      (D (run step s l) ∧ ∃ pre a post, l = pre ++ a :: post ∧ (∀ b ∈ pre, ¬ E b) ∧ E a ∧ I (run step s pre)) := by
  induction l using List.reverseRecOn with
  | nil => exact Or.inl ⟨by simp, hs⟩
  | append_singleton l a ih =>
    have ha : C a := hl a (by simp)
    rw [run_snoc]
    rcases ih fun b hb => hl b (by simp [hb]) with ⟨hno, hi⟩ | ⟨hd, pre, b, post, rfl, hno, hb, hi⟩
    · by_cases he : E a
      · exact Or.inr ⟨hend _ a hi ha he, l, a, [], rfl, hno, he, hi⟩
      · refine Or.inl ⟨fun b hb => ?_, hkeep _ a hi ha he⟩
        rcases List.mem_append.mp hb with hb | hb
        · exact hno b hb
        · rwa [List.mem_singleton.mp hb]
    · exact Or.inr ⟨hdone _ a hd ha, pre, b, post ++ [a], by simp, hno, hb, hi⟩

/-! ## What happened since

`start` and `stop` see the history before an action and the action.
-/

/-- Some action of `h` was a start, and no later one was a stop. -/
def Since (start stop : List α → α → Prop) (h : List α) : Prop :=
  ∃ pre a post, h = pre ++ a :: post ∧ start pre a ∧
    ∀ mid b rest, post = mid ++ b :: rest → ¬ stop (pre ++ a :: mid) b

theorem not_since_nil (start stop : List α → α → Prop) : ¬ Since start stop [] := by
  rintro ⟨pre, a, post, h, -⟩
  simp at h

theorem since_snoc (start stop : List α → α → Prop) (h : List α) (a : α) :
    Since start stop (h ++ [a]) ↔ start h a ∨ (¬ stop h a ∧ Since start stop h) := by
  constructor
  · rintro ⟨pre, b, post, he, hb, hno⟩
    rcases List.eq_nil_or_concat post with rfl | ⟨mid, c, rfl⟩
    · obtain ⟨rfl, rfl⟩ := List.append_singleton_inj.mp he
      exact Or.inl hb
    · rw [List.concat_eq_append, ← List.cons_append, ← List.append_assoc] at he
      obtain ⟨rfl, rfl⟩ := List.append_singleton_inj.mp he
      refine Or.inr ⟨hno mid a [] (by simp), pre, b, mid, rfl, hb, ?_⟩
      intro m d rest hm
      exact hno m d (rest ++ [a]) (by simp [hm])
  · rintro (hs | ⟨hs, pre, b, post, rfl, hb, hno⟩)
    · refine ⟨h, a, [], rfl, hs, ?_⟩
      intro mid b rest hm
      simp at hm
    · refine ⟨pre, b, post ++ [a], by simp, hb, ?_⟩
      intro mid c rest hm
      rcases List.eq_nil_or_concat rest with rfl | ⟨rest', d, rfl⟩
      · obtain ⟨rfl, rfl⟩ := List.append_singleton_inj.mp hm
        exact hs
      · rw [List.concat_eq_append, ← List.cons_append, ← List.append_assoc] at hm
        exact hno mid c rest' (List.append_singleton_inj.mp hm).1

/-- A bit that is set by `start`, cleared by `stop` and kept otherwise says what happened since. -/
theorem latch_iff_since (bit : List α → Prop) {start stop : List α → α → Prop} (h0 : ¬ bit [])
    (hs : ∀ h a, bit (h ++ [a]) ↔ start h a ∨ (¬ stop h a ∧ bit h)) :
    ∀ h, bit h ↔ Since start stop h := by
  intro h
  induction h using List.reverseRecOn with
  | nil => exact iff_of_false h0 (not_since_nil start stop)
  | append_singleton h a ih => rw [hs, since_snoc, ih]

def Past (P : List α → α → Prop) (h : List α) : Prop := ∃ pre a, pre ++ [a] <+: h ∧ P pre a

theorem not_past_nil (P : List α → α → Prop) : ¬ Past P [] := by
  rintro ⟨pre, a, hp, -⟩
  simp at hp

theorem past_snoc (P : List α → α → Prop) (h : List α) (a : α) :
    Past P (h ++ [a]) ↔ Past P h ∨ P h a := by
  constructor
  · rintro ⟨pre, b, hp, hb⟩
    rcases List.prefix_concat_iff.mp hp with he | hp
    · obtain ⟨rfl, rfl⟩ := List.append_singleton_inj.mp he
      exact Or.inr hb
    · exact Or.inl ⟨pre, b, hp, hb⟩
  · rintro (⟨pre, b, hp, hb⟩ | ha)
    · exact ⟨pre, b, hp.trans (List.prefix_append _ _), hb⟩
    · exact ⟨h, a, List.prefix_refl _, ha⟩

theorem past_of_since {start stop : List α → α → Prop} {h : List α} (hs : Since start stop h) :
    Past start h := by
  obtain ⟨pre, a, post, rfl, ha, -⟩ := hs
  exact ⟨pre, a, ⟨post, by simp⟩, ha⟩

end FloorHeating.Lib
