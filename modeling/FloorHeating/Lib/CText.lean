import Mathlib.Tactic.Common

/-!
# Text in a buffer of bytes

A text is cut to the room there is. A character that would not fit whole is
left out, so the cut text is UTF-8 again.
-/

namespace FloorHeating.Lib

def bytes : List Char → Nat
  | [] => 0
  | c :: cs => c.utf8Size + bytes cs

@[simp] theorem bytes_nil : bytes [] = 0 := rfl

@[simp] theorem bytes_cons (c : Char) (cs : List Char) : bytes (c :: cs) = c.utf8Size + bytes cs := rfl

@[simp] theorem bytes_append (cs ds : List Char) : bytes (cs ++ ds) = bytes cs + bytes ds := by
  induction cs with
  | nil => simp
  | cons c cs ih =>
    rw [List.cons_append, bytes_cons, bytes_cons, ih, Nat.add_assoc]

/-- The characters at the front that fit into `room` bytes. -/
def fitting : Nat → List Char → List Char
  | _, [] => []
  | room, c :: cs => if c.utf8Size ≤ room then c :: fitting (room - c.utf8Size) cs else []

theorem fitting_bytes_le (room : Nat) (cs : List Char) : bytes (fitting room cs) ≤ room := by
  induction cs generalizing room with
  | nil => simp [fitting]
  | cons c cs ih =>
    unfold fitting
    split
    · rename_i hfits
      have := ih (room - c.utf8Size)
      rw [bytes_cons]
      omega
    · simp

theorem fitting_of_fits {room : Nat} {cs : List Char} (h : bytes cs ≤ room) : fitting room cs = cs := by
  induction cs generalizing room with
  | nil => rfl
  | cons c cs ih =>
    rw [bytes_cons] at h
    unfold fitting
    rw [if_pos (by omega), ih (by omega)]

/-! ## One byte a character -/

def Ascii (cs : List Char) : Prop := ∀ c ∈ cs, c.utf8Size = 1

theorem ascii_of_all {cs : List Char} (h : (cs.all fun c => decide (c.utf8Size = 1)) = true) : Ascii cs :=
  fun c hc => of_decide_eq_true (List.all_eq_true.mp h c hc)

theorem ascii_append {cs ds : List Char} (hc : Ascii cs) (hd : Ascii ds) : Ascii (cs ++ ds) := by
  intro c hm
  rcases List.mem_append.mp hm with hm | hm
  · exact hc c hm
  · exact hd c hm

theorem isDigit_utf8Size {c : Char} (h : c.isDigit = true) : c.utf8Size = 1 := by
  rw [Char.utf8Size_eq_one_iff]
  unfold Char.isDigit at h
  simp only [Bool.and_eq_true, decide_eq_true_eq] at h
  exact UInt32.le_trans h.2 (by decide)

theorem bytes_ascii {cs : List Char} (h : Ascii cs) : bytes cs = cs.length := by
  induction cs with
  | nil => rfl
  | cons c cs ih =>
    have hc := h c List.mem_cons_self
    rw [bytes_cons, hc, ih fun d hd => h d (List.mem_cons_of_mem c hd), List.length_cons, Nat.add_comm]

theorem fitting_ascii {cs : List Char} (h : Ascii cs) (room : Nat) : fitting room cs = cs.take room := by
  induction cs generalizing room with
  | nil => simp [fitting]
  | cons c cs ih =>
    have hc := h c List.mem_cons_self
    have htail := ih (fun d hd => h d (List.mem_cons_of_mem c hd)) (room - 1)
    unfold fitting
    rw [hc, htail]
    cases room with
    | zero => simp
    | succ room => simp

/-! ## Separators -/

theorem cut_unique {α : Type*} {sep : α} {x x' z z' : List α} (hx : sep ∉ x) (hx' : sep ∉ x')
    (h : x ++ sep :: z = x' ++ sep :: z') : x = x' ∧ z = z' := by
  induction x generalizing x' with
  | nil =>
    cases x' with
    | nil => exact ⟨rfl, (List.cons.inj h).2⟩
    | cons c x' => exact absurd (by simpa using Or.inl (List.cons.inj h).1) hx'
  | cons c x ih =>
    cases x' with
    | nil => exact absurd (by simpa using Or.inl (List.cons.inj h).1.symm) hx
    | cons c' x' =>
      obtain ⟨rfl, htail⟩ := List.cons.inj h
      obtain ⟨rfl, hz⟩ := ih (fun hm => hx (List.mem_cons_of_mem _ hm))
        (fun hm => hx' (List.mem_cons_of_mem _ hm)) htail
      exact ⟨rfl, hz⟩

end FloorHeating.Lib
