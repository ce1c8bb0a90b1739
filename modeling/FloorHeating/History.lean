import FloorHeating.Lib.Ring
import FloorHeating.Spec.Samples

/-!
# The history is the end of the list of all samples

A pump flag is one bit of a byte that it shares with seven others. Reading
back gives exactly what was written, and writing touches no other flag.
-/

open FloorHeating.Lib

namespace FloorHeating.HistoryRing

/-! ## Bits -/

def flag (b : UInt8) (k : Nat) : Bool := b.toBitVec.getLsbD k

theorem shift_toNat (idx : UInt32) : ((idx % 8).toUInt8.toBitVec % 8).toNat = idx.toNat % 8 := by simp

theorem bit_getLsbD (idx : UInt32) (k : Nat) :
    ((1 : UInt8) <<< (idx % 8).toUInt8).toBitVec.getLsbD k = decide (k = idx.toNat % 8) := by
  have hlt := Nat.mod_lt idx.toNat (show 0 < 8 by decide)
  rw [UInt8.toBitVec_shiftLeft, BitVec.shiftLeft_eq', shift_toNat, UInt8.toBitVec_one,
    BitVec.getLsbD_shiftLeft]
  by_cases hk : k = idx.toNat % 8
  · simp [hk, hlt]
  · simp [hk]
    intro h1 h2
    omega

theorem flag_set (b : UInt8) (idx : UInt32) (k : Nat) :
    flag (b ||| 1 <<< (idx % 8).toUInt8) k = (decide (k = idx.toNat % 8) || flag b k) := by
  unfold flag
  rw [UInt8.toBitVec_or, BitVec.getLsbD_or, bit_getLsbD, Bool.or_comm]

theorem flag_clear (b : UInt8) (idx : UInt32) {k : Nat} (hk : k < 8) :
    flag (b &&& ~~~(1 <<< (idx % 8).toUInt8)) k = (!decide (k = idx.toNat % 8) && flag b k) := by
  unfold flag
  rw [UInt8.toBitVec_and, BitVec.getLsbD_and, UInt8.toBitVec_not, BitVec.getLsbD_not, bit_getLsbD,
    Bool.and_comm]
  simp [hk]

theorem flag_read (b : UInt8) (idx : UInt32) :
    decide ((b >>> (idx % 8).toUInt8) &&& 1 ≠ 0) = flag b (idx.toNat % 8) := by
  have hnat : ((b >>> (idx % 8).toUInt8) &&& 1).toNat = (flag b (idx.toNat % 8)).toNat := by
    have hk : (idx % 8).toUInt8.toNat % 8 = idx.toNat % 8 := by simp
    rw [UInt8.toNat_and, UInt8.toNat_shiftRight, UInt8.toNat_one, Nat.and_one_is_mod, hk]
    unfold flag
    rw [BitVec.getLsbD, Nat.testBit, Nat.one_and_eq_mod_two]
    rcases Nat.mod_two_eq_zero_or_one (b.toNat >>> (idx.toNat % 8)) with h | h
    all_goals simp [h]
  cases hf : flag b (idx.toNat % 8) with
  | false =>
    have h0 : (b >>> (idx % 8).toUInt8) &&& 1 = 0 := UInt8.toNat_inj.mp (by rw [hnat, hf]; rfl)
    simp [h0]
  | true =>
    have h1 : (b >>> (idx % 8).toUInt8) &&& 1 = 1 := UInt8.toNat_inj.mp (by rw [hnat, hf]; rfl)
    simp [h1]

/-! ## The two arrays as one ring -/

def tempAt (h : History) (j : Nat) : Int16 := h.s_temps[j]?.getD 0

def pumpAt (h : History) (j : Nat) : Bool := flag (h.s_pump[j / 8]?.getD 0) (j % 8)

def toRing (h : History) : Ring 1440 (Int16 × Bool) where
  slot := fun j => (tempAt h j, pumpAt h j)
  head := h.s_head.toNat
  count := h.s_count.toNat

theorem tempAt_add (h : History) (a : HistoryAdd) (j : Nat) :
    tempAt (a.exec h) j = if j = h.s_head.toNat then a.sample.1 else tempAt h j := by
  unfold tempAt HistoryAdd.exec History.history_add
  rw [Vector.getElem?_set]
  split
  · rename_i he
    rw [if_pos he.symm]
    rfl
  · rename_i hne
    rw [if_neg (Ne.symm hne)]

/-- The bit at `j` is written; the other seven of its byte, and all other bytes, stay. -/
theorem pumpAt_add (h : History) (a : HistoryAdd) (j : Nat) :
    pumpAt (a.exec h) j = if j = h.s_head.toNat then a.pump_on else pumpAt h j := by
  have hdiv : (h.s_head / 8).toNat = h.s_head.toNat / 8 := by
    rw [UInt32.toNat_div]
    rfl
  have hbyte := History.byte_lt h.head_lt
  have hold : h.s_pump.get ⟨(h.s_head / 8).toNat, hbyte⟩ = h.s_pump[h.s_head.toNat / 8]?.getD 0 := by
    rw [← hdiv, Vector.getElem?_eq_getElem hbyte]
    rfl
  unfold pumpAt HistoryAdd.exec History.history_add
  simp only [Vector.getElem?_set, hold]
  rw [hdiv]
  by_cases hsame : h.s_head.toNat / 8 = j / 8
  · rw [if_pos hsame, hsame, Option.getD_some]
    have hlt := Nat.mod_lt j (show 0 < 8 by decide)
    have hj : decide (j % 8 = h.s_head.toNat % 8) = decide (j = h.s_head.toNat) :=
      decide_eq_decide.mpr (by omega)
    cases a.pump_on with
    | true =>
      rw [if_pos rfl, flag_set, hj]
      by_cases he : j = h.s_head.toNat <;> simp [he]
    | false =>
      rw [if_neg Bool.false_ne_true, flag_clear _ _ hlt, hj]
      by_cases he : j = h.s_head.toNat <;> simp [he]
  · have hne : j ≠ h.s_head.toNat := by
      rintro rfl
      exact hsame rfl
    rw [if_neg hsame, if_neg hne]

theorem toRing_add (h : History) (a : HistoryAdd) : toRing (a.exec h) = (toRing h).push a.sample := by
  have hslot : (toRing (a.exec h)).slot = ((toRing h).push a.sample).slot := by
    funext j
    simp only [toRing, Ring.push, tempAt_add, pumpAt_add]
    by_cases hj : j = h.s_head.toNat
    · simp [hj, HistoryAdd.sample]
    · simp [hj]
  have hhead : (a.exec h).s_head.toNat = (h.s_head.toNat + 1) % 1440 := Ring.toNat_next h.head_lt
  have hcount : (a.exec h).s_count.toNat =
      if h.s_count.toNat < 1440 then h.s_count.toNat + 1 else h.s_count.toNat := Ring.toNat_counted ..
  simp only [toRing] at hslot ⊢
  rw [hhead, hcount]
  simp only [Ring.push, Ring.mk.injEq] at hslot ⊢
  exact ⟨hslot, trivial, trivial⟩

theorem holds (l : List HistoryAdd) : (toRing (historyAfter l)).Holds (l.map HistoryAdd.sample) :=
  Ring.holds_foldl toRing HistoryAdd.sample (Ring.holds_nil _) toRing_add l

/-! ## The copy -/

theorem sample_eq (h : History) (idx : UInt32) (hi : idx < HISTORY_SAMPLES) :
    h.sample idx hi = (toRing h).slot idx.toNat := by
  have hdiv : (idx / 8).toNat = idx.toNat / 8 := by
    rw [UInt32.toNat_div]
    rfl
  unfold History.sample toRing tempAt pumpAt
  simp only [flag_read, ← hdiv]
  rw [Vector.getElem?_eq_getElem (History.index_lt hi), Vector.getElem?_eq_getElem (History.byte_lt hi)]
  rfl

/-- The start and the index of the copy loop do not leave 32 bits. -/
theorem copy_index_toNat {h : History} {n : UInt32} {i : Nat} (hn : n.toNat ≤ 1440) (hi : i < n.toNat) :
    (History.copy_index ((h.s_head + HISTORY_SAMPLES - n) % HISTORY_SAMPLES) i).toNat =
      ((h.s_head.toNat + 1440 - n.toNat) % 1440 + i) % 1440 := by
  have hlt : h.s_head.toNat < 1440 := History.index_lt h.head_lt
  have hsize : HISTORY_SAMPLES.toNat = 1440 := rfl
  have hstart : (h.s_head + HISTORY_SAMPLES - n).toNat = h.s_head.toNat + 1440 - n.toNat :=
    Ring.toNat_back (by omega) (by omega)
  have hi' : (UInt32.ofNat i).toNat = i := by
    rw [UInt32.toNat_ofNat']
    exact Nat.mod_eq_of_lt (by omega)
  unfold History.copy_index
  rw [UInt32.toNat_mod, UInt32.toNat_add, UInt32.toNat_mod, hstart, hi', hsize]
  rw [Nat.mod_eq_of_lt (b := 2 ^ 32) (by omega)]

theorem copy_eq {h : History} {max n : UInt32} (hn : n = if h.s_count < max then h.s_count else max)
    (hle : n.toNat ≤ 1440) :
    (h.history_copy max).1 = (List.range n.toNat).map fun i =>
      (toRing h).slot (((h.s_head.toNat + 1440 - n.toNat) % 1440 + i) % 1440) := by
  unfold History.history_copy
  simp only [← hn]
  apply List.map_congr_left
  intro i hi
  rw [List.mem_range] at hi
  rw [sample_eq, copy_index_toNat hle hi]

theorem newest (l : List HistoryAdd) :
    (historyAfter l).s_newest_mono_s = (l.getLast?.map HistoryAdd.now).getD 0 := by
  unfold historyAfter
  induction l using List.reverseRecOn with
  | nil => rfl
  | append_singleton l a ih =>
    rw [run_snoc, List.getLast?_append]
    rfl

theorem copied (l : List HistoryAdd) (max : UInt32) :
    ((historyAfter l).history_copy max).1 =
      (l.map HistoryAdd.sample).drop (l.length - min (min l.length 1440) max.toNat) := by
  have hr := holds l
  have hcount : (historyAfter l).s_count.toNat = min l.length 1440 := by
    have := hr.count
    rwa [List.length_map] at this
  obtain ⟨n, hn⟩ : ∃ n, n = if (historyAfter l).s_count < max then (historyAfter l).s_count else max :=
    ⟨_, rfl⟩
  have hmin : n.toNat = min (min l.length 1440) max.toNat := by
    have hnat := congrArg UInt32.toNat hn
    by_cases hlt : (historyAfter l).s_count < max
    · rw [if_pos hlt] at hnat
      rw [UInt32.lt_iff_toNat_lt] at hlt
      omega
    · rw [if_neg hlt] at hnat
      rw [UInt32.lt_iff_toNat_lt] at hlt
      omega
  have hle : n.toNat ≤ (toRing (historyAfter l)).count := by
    simp only [toRing]
    omega
  rw [copy_eq hn (by omega), ← hmin, ← List.length_map (f := HistoryAdd.sample), ← Ring.read_oldest hr hle]
  rfl

/-- All that a reader of the history ever gets: the last samples, oldest first, and the time of the
newest. One `history_add` changes one sample, in any state of the bytes. -/
theorem history_is_the_end_of_the_list (l : List HistoryAdd) (max : UInt32) :
    let n := min (min l.length 1440) max.toNat
    let copy := (historyAfter l).history_copy max
    copy.1 = (l.map HistoryAdd.sample).drop (l.length - n) ∧ copy.1.length = n ∧
      copy.2 = (l.getLast?.map HistoryAdd.now).getD 0 ∧
      ∀ (h : History) (a : HistoryAdd) (idx : UInt32) (hi : idx < HISTORY_SAMPLES),
        (a.exec h).sample idx hi = if idx = h.s_head then a.sample else h.sample idx hi := by
  refine ⟨copied l max, ?_, newest l, ?_⟩
  · rw [copied, List.length_drop, List.length_map]
    omega
  · intro h a idx hi
    have hslot : (toRing (a.exec h)).slot idx.toNat = ((toRing h).push a.sample).slot idx.toNat := by
      rw [toRing_add]
    rw [sample_eq, sample_eq, hslot]
    simp only [Ring.push, UInt32.toNat_inj, toRing]

theorem two_adds :
    (historyAfter [⟨60, true, 215, true⟩, ⟨120, false, 0, false⟩]).history_copy 7 =
        ([(215, true), (-32768, false)], 120) ∧
      (HistoryAdd.exec History.init ⟨60, true, 215, true⟩).sample 1 (by decide) =
        History.init.sample 1 (by decide) := by
  obtain ⟨hcopy, -, hnewest, hframe⟩ :=
    history_is_the_end_of_the_list [⟨60, true, 215, true⟩, ⟨120, false, 0, false⟩] 7
  exact ⟨Prod.ext hcopy hnewest, hframe History.init ⟨60, true, 215, true⟩ 1 (by decide)⟩

end FloorHeating.HistoryRing
