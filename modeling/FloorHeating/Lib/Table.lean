import Mathlib.Data.Finmap
import Mathlib.Order.Bounds.Basic

/-!
# Tables with a primary key

A table is a finite map from the key to the other columns, so it never has two
rows with one key.
-/

namespace FloorHeating.Lib

universe u v

abbrev Table (κ : Type u) (ρ : Type v) := Finmap fun _ : κ => ρ

section Insert

variable {κ : Type u} {ρ : Type v} [DecidableEq κ]

/-- `INSERT ... ON CONFLICT DO NOTHING`. -/
def Table.insertOrIgnore (t : Table κ ρ) (k : κ) (row : ρ) : Table κ ρ := if k ∈ t then t else t.insert k row

/-- `INSERT ... ON CONFLICT DO UPDATE`; `update` gets the row that is there. -/
def Table.upsert (t : Table κ ρ) (k : κ) (row : ρ) (update : ρ → ρ) : Table κ ρ :=
  t.insert k ((t.lookup k).elim row update)

variable (t : Table κ ρ) (k : κ) (row : ρ) (update : ρ → ρ)

theorem lookup_insert_eq (j : κ) : (t.insert k row).lookup j = if j = k then some row else t.lookup j := by
  split
  · rename_i hj
    rw [hj, Finmap.lookup_insert]
  · rename_i hj
    exact Finmap.lookup_insert_of_ne t hj

theorem lookup_insertOrIgnore (j : κ) :
    (t.insertOrIgnore k row).lookup j = if j = k then some ((t.lookup k).getD row) else t.lookup j := by
  unfold Table.insertOrIgnore
  split
  · rename_i hk
    obtain ⟨old, hold⟩ := Finmap.mem_iff.mp hk
    split
    · rename_i hj
      rw [hj, hold]
      rfl
    · rfl
  · rename_i hk
    rw [lookup_insert_eq, Finmap.lookup_eq_none.mpr hk]
    rfl

theorem lookup_upsert (j : κ) :
    (t.upsert k row update).lookup j = if j = k then some ((t.lookup k).elim row update) else t.lookup j :=
  lookup_insert_eq t k _ j

variable {t k update}

theorem insertOrIgnore_known {old : ρ} (h : t.lookup k = some old) : t.insertOrIgnore k row = t :=
  if_pos (Finmap.mem_of_lookup_eq_some h)

theorem upsert_unchanged {old : ρ} (h : t.lookup k = some old) (hu : update old = old) :
    t.upsert k row update = t := by
  apply Finmap.ext_lookup
  intro j
  rw [lookup_upsert, h, Option.elim_some, hu]
  split
  · rename_i hj
    rw [hj, h]
  · rfl

/-- What one column becomes, when the new value depends on the old one only. -/
theorem column_upsert {γ : Type v} (col : ρ → Option γ) (new : Option γ → Option γ) {row : ρ}
    (hrow : col row = new none) (hupdate : ∀ old, col (update old) = new (col old)) (j : κ) :
    ((t.upsert k row update).lookup j).bind col =
      if j = k then new ((t.lookup k).bind col) else (t.lookup j).bind col := by
  rw [lookup_upsert]
  split
  · cases t.lookup k with
    | none => exact hrow
    | some old => exact hupdate old
  · rfl

theorem column_kept {γ : Type v} (col : ρ → Option γ) {row : ρ} (hrow : col row = none)
    (hupdate : ∀ old, col (update old) = col old) (j : κ) :
    ((t.upsert k row update).lookup j).bind col = (t.lookup j).bind col := by
  rw [column_upsert col id hrow hupdate, id]
  split
  · rename_i hj
    rw [hj]
  · rfl

end Insert

/-! ## `greatest` -/

section Greatest

variable {τ : Type u} [LinearOrder τ]

/-- SQL's `greatest`, which ignores nulls. -/
def greatest : Option τ → Option τ → Option τ
  | none, b => b
  | a, none => a
  | some a, some b => some (max a b)

/-- `m` is the greatest of `times`, and null if there is none. -/
def Latest (times : Set τ) : Option τ → Prop
  | none => times = ∅
  | some m => IsGreatest times m

theorem latest_empty : Latest (∅ : Set τ) none := rfl

theorem latest_insert {times : Set τ} {m : Option τ} (h : Latest times m) (t : τ) :
    Latest (insert t times) (greatest m (some t)) := by
  cases m with
  | none =>
    rw [show times = ∅ from h, insert_empty_eq]
    exact isGreatest_singleton
  | some m =>
    rw [greatest, max_comm]
    exact IsGreatest.insert t h

theorem greatest_old {times : Set τ} {m : Option τ} (h : Latest times m) {t : τ} (ht : t ∈ times) :
    greatest m (some t) = m := by
  cases m with
  | none =>
    rw [show times = ∅ from h] at ht
    cases ht
  | some m => exact congrArg some (max_eq_left (h.2 ht))

end Greatest

end FloorHeating.Lib
