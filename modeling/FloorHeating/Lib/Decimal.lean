import Mathlib.Algebra.Order.Field.Rat
import Mathlib.Tactic.Common
import Mathlib.Tactic.FieldSimp
import Mathlib.Tactic.Ring

/-!
# Decimal numbers in text

A reader for the numbers of JSON (sign, digits, fraction, exponent), and what it
makes of a printed integer or of a printed number with one decimal.
-/

namespace FloorHeating.Lib

/-! ## The reader -/

/-- The digits at the front, and the rest. -/
def digits (cs : List Char) : List Char × List Char := cs.span Char.isDigit

def digitsValue (ds : List Char) : Nat := Nat.ofDigitChars 10 ds 0

def fraction : List Char → Option (Rat × List Char)
  | '.' :: cs =>
    let (ds, cs) := digits cs
    if ds = [] then none else some (digitsValue ds / 10 ^ ds.length, cs)
  | cs => some (0, cs)

def exponentDigits (cs : List Char) : Option (Nat × List Char) :=
  let (ds, cs) := digits cs
  if ds = [] then none else some (digitsValue ds, cs)

def exponent : List Char → Option (Rat × List Char)
  | c :: cs =>
    if c = 'e' ∨ c = 'E' then
      match cs with
      | '-' :: cs => (exponentDigits cs).map fun (n, cs) => (1 / 10 ^ n, cs)
      | '+' :: cs => (exponentDigits cs).map fun (n, cs) => (10 ^ n, cs)
      | cs => (exponentDigits cs).map fun (n, cs) => (10 ^ n, cs)
    else some (1, c :: cs)
  | [] => some (1, [])

/-- A number without its sign. It has no leading zero. -/
def unsigned (cs : List Char) : Option (Rat × List Char) := do
  let (ds, cs) := digits cs
  if ds = [] ∨ (ds.head? = some '0' ∧ ds ≠ ['0']) then none
  else
    let (frac, cs) ← fraction cs
    let (scale, cs) ← exponent cs
    return ((digitsValue ds + frac) * scale, cs)

def number : List Char → Option (Rat × List Char)
  | '-' :: cs => (unsigned cs).map fun (x, cs) => (-x, cs)
  | cs => unsigned cs

/-! ## What was printed -/

theorem digits_append {ds rest : List Char} (hd : ∀ c ∈ ds, c.isDigit = true)
    (hr : ∀ c ∈ rest.head?, c.isDigit = false) : digits (ds ++ rest) = (ds, rest) := by
  unfold digits
  rw [List.span_eq_takeWhile_dropWhile]
  have hstop : rest.takeWhile Char.isDigit = [] ∧ rest.dropWhile Char.isDigit = rest := by
    cases rest with
    | nil => exact ⟨rfl, rfl⟩
    | cons c cs =>
      have hc := hr c rfl
      exact ⟨List.takeWhile_cons_of_neg (by simp [hc]), List.dropWhile_cons_of_neg (by simp [hc])⟩
  rw [List.takeWhile_append_of_pos hd, List.dropWhile_append_of_pos hd, hstop.1, hstop.2, List.append_nil]

theorem toDigits_isDigit (n : Nat) : ∀ c ∈ Nat.toDigits 10 n, c.isDigit = true :=
  fun _ hc => Nat.isDigit_of_mem_toDigits (by decide) (by decide) hc

theorem toDigits_head (n : Nat) (h : (Nat.toDigits 10 n).head? = some '0') : Nat.toDigits 10 n = ['0'] := by
  induction n using Nat.strongRecOn with
  | _ n ih =>
    by_cases hn : n < 10
    · rw [Nat.toDigits_of_lt_base hn] at h ⊢
      simp only [List.head?_cons, Option.some.injEq] at h
      rw [h]
    · rw [Nat.toDigits_of_base_le (by decide) (by omega)] at h
      have hne : Nat.toDigits 10 (n / 10) ≠ [] := Nat.toDigits_ne_nil
      rw [List.head?_append_of_ne_nil _ hne] at h
      -- The leading digits are a number of their own, so they are zero, but `n` is not below 10.
      have hzero := ih (n / 10) (by omega) h
      have hval := @Nat.ofDigitChars_ten_toDigits (n / 10)
      rw [hzero] at hval
      have h0 : Nat.ofDigitChars 10 ['0'] 0 = 0 := by decide
      omega

theorem unsigned_digits (n : Nat) (cs : List Char) (hcs : ∀ c ∈ cs.head?, c.isDigit = false) :
    unsigned (Nat.toDigits 10 n ++ cs) = (do
      let (frac, cs) ← fraction cs
      let (scale, cs) ← exponent cs
      return ((n + frac) * scale, cs)) := by
  have hlead : ¬ (Nat.toDigits 10 n = [] ∨
      ((Nat.toDigits 10 n).head? = some '0' ∧ Nat.toDigits 10 n ≠ ['0'])) := by
    rintro (h | ⟨h, hne⟩)
    · exact Nat.toDigits_ne_nil h
    · exact hne (toDigits_head n h)
  unfold unsigned
  rw [digits_append (toDigits_isDigit n) hcs]
  simp only [if_neg hlead, digitsValue, Nat.ofDigitChars_ten_toDigits]

/-- Where a printed number ends, if what follows cannot be a part of it. -/
def Stops (rest : List Char) : Prop := ∀ c ∈ rest.head?, c.isDigit = false ∧ c ≠ '.' ∧ c ≠ 'e' ∧ c ≠ 'E'

theorem fraction_stops {rest : List Char} (hr : Stops rest) : fraction rest = some (0, rest) := by
  unfold fraction
  split
  · rename_i cs
    exact absurd rfl (hr '.' rfl).2.1
  · rfl

theorem exponent_stops {rest : List Char} (hr : Stops rest) : exponent rest = some (1, rest) := by
  unfold exponent
  split
  · rename_i c cs
    obtain ⟨-, -, he, hE⟩ := hr c rfl
    rw [if_neg (by simp [he, hE])]
  · rfl

theorem unsigned_nat (n : Nat) {rest : List Char} (hr : Stops rest) :
    unsigned (Nat.toDigits 10 n ++ rest) = some ((n : Rat), rest) := by
  rw [unsigned_digits n rest fun c hc => (hr c hc).1, fraction_stops hr]
  simp [exponent_stops hr]

theorem unsigned_tenths (n : Nat) {d : Nat} (hd : d < 10) {rest : List Char} (hr : Stops rest) :
    unsigned (Nat.toDigits 10 n ++ '.' :: (Nat.toDigits 10 d ++ rest)) =
      some ((n : Rat) + d / 10, rest) := by
  have hf : fraction ('.' :: (Nat.toDigits 10 d ++ rest)) = some ((d : Rat) / 10, rest) := by
    unfold fraction
    simp only [digits_append (toDigits_isDigit d) fun c hc => (hr c hc).1, if_neg Nat.toDigits_ne_nil]
    rw [digitsValue, Nat.ofDigitChars_ten_toDigits, Nat.toDigits_of_lt_base hd]
    simp
  rw [unsigned_digits n _ (by simp), hf]
  simp [exponent_stops hr]

/-! ## Printed integers -/

theorem toList_toString (n : Int) :
    (toString n).toList = (if n < 0 then ['-'] else []) ++ Nat.toDigits 10 n.natAbs := by
  rw [Int.toString_eq_repr, Int.repr_eq_if]
  by_cases hn : 0 ≤ n
  · rw [if_pos hn, if_neg (by omega), Nat.toList_repr, List.nil_append]
    congr 1
    omega
  · have habs : (-n).toNat = n.natAbs := by omega
    rw [if_neg hn, if_pos (by omega), String.toList_append, Nat.toList_repr, habs]
    rfl

theorem number_signed (neg : Bool) (n : Nat) (cs : List Char) :
    number ((if neg then ['-'] else []) ++ (Nat.toDigits 10 n ++ cs)) =
      (unsigned (Nat.toDigits 10 n ++ cs)).map fun (x, cs) => (if neg then -x else x, cs) := by
  cases neg with
  | true => rfl
  | false =>
    have hhead : ∀ rest, Nat.toDigits 10 n ++ cs ≠ '-' :: rest := by
      intro rest he
      have hne : Nat.toDigits 10 n ≠ [] := Nat.toDigits_ne_nil
      have hmem : '-' ∈ Nat.toDigits 10 n := by
        have hh := congrArg List.head? he
        rw [List.head?_append_of_ne_nil _ hne] at hh
        exact List.mem_of_mem_head? hh
      exact absurd (toDigits_isDigit n '-' hmem) (by decide)
    simp only [Bool.false_eq_true, if_false, List.nil_append]
    unfold number
    split
    · rename_i rest he
      exact absurd he (hhead rest)
    · simp

theorem number_int (n : Int) {rest : List Char} (hr : Stops rest) :
    number ((toString n).toList ++ rest) = some ((n : Rat), rest) := by
  have hsign := number_signed (decide (n < 0)) n.natAbs rest
  rw [toList_toString, List.append_assoc]
  simp only [decide_eq_true_eq] at hsign
  rw [hsign, unsigned_nat _ hr, Option.map_some]
  congr 2
  rcases lt_or_ge n 0 with hn | hn
  · have habs : n = -(n.natAbs : Int) := by omega
    calc (if n < 0 then -(n.natAbs : Rat) else n.natAbs) = ((-(n.natAbs : Int) : Int) : Rat) := by
          rw [if_pos hn, Int.cast_neg, Int.cast_natCast]
      _ = n := by rw [← habs]
  · have habs : n = (n.natAbs : Int) := by omega
    calc (if n < 0 then -(n.natAbs : Rat) else n.natAbs) = ((n.natAbs : Int) : Rat) := by
          rw [if_neg (by omega), Int.cast_natCast]
      _ = n := by rw [← habs]

end FloorHeating.Lib
