import FloorHeating.Control
import FloorHeating.Spec.Counters

/-! # The counters are exact -/

open FloorHeating.Lib FloorHeating.Control

namespace FloorHeating.Counters

variable (boot : Int) (calls : Nat → DecideCall)

theorem callsAfter_succ (n : Nat) :
    callsAfter boot calls (n + 1) = (calls n).exec (callsAfter boot calls n) := rfl

/-! ## One call -/

theorem exec_eq (c : Control) (a : DecideCall) :
    (a.exec c).s_last_tick_s = a.now_s ∧ (a.exec c).s_today_yday = ydayAfter c a.date ∧
      (a.exec c).s_runtime_boot_s = c.s_runtime_boot_s + ticked c a.now_s ∧
      (a.exec c).s_runtime_today_s =
        (if newDay c a.date then 0 else c.s_runtime_today_s) + ticked c a.now_s := by
  have hon : ticked { c with s_state := a.before c.s_state } a.now_s = ticked c a.now_s := by
    simp only [ticked, a.keeps_pump]
  rw [DecideCall.exec, decide_locked_eq]
  simp only [hon]
  exact ⟨trivial, rfl, trivial, rfl⟩

theorem exec_starts_eq (c : Control) (a : DecideCall) :
    (a.exec c).s_starts_boot = c.s_starts_boot +
        (if c.s_state.on = false ∧ (a.exec c).s_state.on = true then 1 else 0) ∧
      (a.exec c).s_starts_today = (if newDay c a.date then 0 else c.s_starts_today) +
        (if c.s_state.on = false ∧ (a.exec c).s_state.on = true then 1 else 0) := by
  rw [DecideCall.exec, decide_locked_eq]
  have hstart : started (decision { c with s_state := a.before c.s_state } a.settings a.now_s a.r).1
      (decision { c with s_state := a.before c.s_state } a.settings a.now_s a.r).2 =
        if c.s_state.on = false ∧
          (decision { c with s_state := a.before c.s_state } a.settings a.now_s a.r).1.on = true then 1 else 0 := by
    unfold started decision
    rw [ctl_decide_result]
    simp only [a.fresh, a.keeps_pump, Bool.false_or]
    cases c.s_state.on <;> simp
  simp only [hstart]
  exact ⟨trivial, rfl⟩

/-! ## Days -/

theorem yday_eq (n : Nat) :
    ((∀ j < n, (calls j).date.synced = false) ∧ (callsAfter boot calls n).s_today_yday = -1) ∨
      ∃ j < n, (calls j).date.synced = true ∧ (∀ i, j < i → i < n → (calls i).date.synced = false) ∧
        (callsAfter boot calls n).s_today_yday = (calls j).date.tm_yday := by
  induction n with
  | zero => exact Or.inl ⟨fun j hj => absurd hj (Nat.not_lt_zero j), rfl⟩
  | succ n ih =>
    have hy := (exec_eq (callsAfter boot calls n) (calls n)).2.1
    rw [ydayAfter] at hy
    cases hsync : (calls n).date.synced with
    | true =>
      rw [hsync, if_pos rfl] at hy
      exact Or.inr ⟨n, Nat.lt_succ_self n, hsync, fun i h1 h2 => by omega, hy⟩
    | false =>
      rw [hsync, if_neg (by simp)] at hy
      -- An unsynced call leaves the day, and so the last synced call, as they were.
      rcases ih with ⟨hno, he⟩ | ⟨j, hj, hs, hlast, he⟩
      · refine Or.inl ⟨fun j hj => ?_, hy.trans he⟩
        rcases Nat.lt_succ_iff_lt_or_eq.mp hj with hj | rfl
        · exact hno j hj
        · exact hsync
      · refine Or.inr ⟨j, by omega, hs, fun i h1 h2 => ?_, hy.trans he⟩
        rcases Nat.lt_succ_iff_lt_or_eq.mp h2 with h2 | rfl
        · exact hlast i h1 h2
        · exact hsync

theorem newDay_iff (n : Nat) :
    newDay (callsAfter boot calls n) (calls n).date = true ↔ DayChange calls n := by
  rw [newDay, decide_eq_true_eq, DayChange]
  rcases yday_eq boot calls n with ⟨hno, he⟩ | ⟨j, hj, hs, hlast, he⟩
  · rw [he]
    constructor
    · rintro ⟨-, h0, -⟩
      omega
    · rintro ⟨-, j, hj, hs, -⟩
      rw [hno j hj] at hs
      cases hs
  · rw [he]
    constructor
    · rintro ⟨hsync, -, hne⟩
      exact ⟨hsync, j, hj, hs, hlast, fun h => hne (by rw [h])⟩
    · rintro ⟨hsync, j', hj', hs', hlast', hne⟩
      -- Both are the last synced call before `n`.
      have hjj : j = j' := by
        rcases Nat.lt_trichotomy j j' with h | h | h
        · rw [hlast j' h hj'] at hs'
          cases hs'
        · exact h
        · rw [hlast' j h hj] at hs
          cases hs
      subst hjj
      refine ⟨hsync, Int.natCast_nonneg _, fun h => hne ?_⟩
      exact_mod_cast h.symm

/-! ## The sums, modulo 2^32 -/

theorem ticked_eq (n : Nat) :
    ticked (callsAfter boot calls n) (calls n).now_s = UInt32.ofInt (onTime boot calls n) := by
  cases n with
  | zero => rfl
  | succ n =>
    have ht : (callsAfter boot calls (n + 1)).s_last_tick_s = (calls n).now_s :=
      (exec_eq (callsAfter boot calls n) (calls n)).1
    have hon : ((callsAfter boot calls (n + 1)).s_state.on = true ∧ 0 < (calls n).now_s) ↔
        (0 < (calls n).now_s ∧ (callsAfter boot calls (n + 1)).s_state.on = true) := and_comm
    rw [ticked, onTime, ht]
    simp only [hon]
    split <;> rfl

theorem switch_eq (n : Nat) :
    (if (callsAfter boot calls n).s_state.on = false ∧
        ((calls n).exec (callsAfter boot calls n)).s_state.on = true then 1 else 0) =
      UInt32.ofInt (switches boot calls n) := by
  have hs : SwitchesOn boot calls n ↔ (callsAfter boot calls n).s_state.on = false ∧
      ((calls n).exec (callsAfter boot calls n)).s_state.on = true := Iff.rfl
  simp only [switches, hs]
  split <;> rfl

section Modular

open Classical

theorem runtime_today_mod (n : Nat) :
    (callsAfter boot calls (n + 1)).s_runtime_today_s =
      UInt32.ofInt (sinceLast (DayChange calls) (onTime boot calls) n) := by
  refine uint32_sinceLast (DayChange calls) (fun n => (callsAfter boot calls n).s_runtime_today_s) rfl
    (fun n => ?_) n
  have he := (exec_eq (callsAfter boot calls n) (calls n)).2.2.2
  simpa only [callsAfter_succ, ticked_eq, newDay_iff] using he

theorem starts_today_mod (n : Nat) :
    (callsAfter boot calls (n + 1)).s_starts_today =
      UInt32.ofInt (sinceLast (DayChange calls) (switches boot calls) n) := by
  refine uint32_sinceLast (DayChange calls) (fun n => (callsAfter boot calls n).s_starts_today) rfl
    (fun n => ?_) n
  have he := (exec_starts_eq (callsAfter boot calls n) (calls n)).2
  simpa only [callsAfter_succ, switch_eq, newDay_iff] using he

theorem runtime_boot_mod (n : Nat) :
    (callsAfter boot calls (n + 1)).s_runtime_boot_s =
      UInt32.ofInt (∑ k ∈ Finset.range (n + 1), onTime boot calls k) := by
  rw [← sinceLast_never (fun _ => False) _ n fun _ => id]
  refine uint32_sinceLast (fun _ => False) (fun n => (callsAfter boot calls n).s_runtime_boot_s) rfl
    (fun n => ?_) n
  have he := (exec_eq (callsAfter boot calls n) (calls n)).2.2.1
  simpa only [callsAfter_succ, ticked_eq, if_false] using he

theorem starts_boot_mod (n : Nat) :
    (callsAfter boot calls (n + 1)).s_starts_boot =
      UInt32.ofInt (∑ k ∈ Finset.range (n + 1), switches boot calls k) := by
  rw [← sinceLast_never (fun _ => False) _ n fun _ => id]
  refine uint32_sinceLast (fun _ => False) (fun n => (callsAfter boot calls n).s_starts_boot) rfl
    (fun n => ?_) n
  have he := (exec_starts_eq (callsAfter boot calls n) (calls n)).1
  simpa only [callsAfter_succ, switch_eq, if_false] using he

end Modular

/-! ## Within 32 bits -/

section Timely

variable {n : Nat} (ht : ∀ i < n, (calls i).now_s ≤ (calls (i + 1)).now_s)

include ht in
theorem onTime_nonneg : ∀ k ≤ n, 0 ≤ onTime boot calls k := by
  intro k hk
  cases k with
  | zero => exact le_refl _
  | succ k =>
    have := ht k (by omega)
    rw [onTime]
    split <;> omega

include ht in
theorem onTime_sum_le : ∀ m ≤ n,
    ∑ k ∈ Finset.range (m + 1), onTime boot calls k ≤ (calls m).now_s - (calls 0).now_s := by
  intro m
  induction m with
  | zero => simp [onTime]
  | succ m ih =>
    intro hm
    have hsum := ih (by omega)
    have hle := ht m (by omega)
    rw [Finset.sum_range_succ, onTime]
    split <;> omega

end Timely

theorem switches_nonneg (k : Nat) : 0 ≤ switches boot calls k := by
  rw [switches]
  split <;> omega

theorem dayChange_synced {n : Nat} (hsync : (calls n).date.synced = false) : ¬ DayChange calls n := by
  rintro ⟨hs, -⟩
  rw [hsync] at hs
  cases hs

theorem exact_runtime {n : Nat} (ht : ∀ i < n, (calls i).now_s ≤ (calls (i + 1)).now_s)
    (htotal : (calls n).now_s - (calls 0).now_s < 2 ^ 32) : ExactRuntime boot calls n := by
  classical
  have hsum := onTime_sum_le boot calls ht n (le_refl n)
  obtain ⟨hb, htoday, hle, hkeep⟩ := uint32_day_exact (DayChange calls)
    (fun n => (callsAfter boot calls n).s_runtime_today_s) (fun n => (callsAfter boot calls n).s_runtime_boot_s)
    rfl (runtime_today_mod boot calls) (runtime_boot_mod boot calls) (onTime_nonneg boot calls ht) (by omega)
  exact ⟨hb, htoday, hle, fun hs => hkeep (dayChange_synced calls hs)⟩

theorem exact_starts {n : Nat} (hswitches : ∑ k ∈ Finset.range (n + 1), switches boot calls k < 2 ^ 32) :
    ExactStarts boot calls n := by
  classical
  obtain ⟨hb, htoday, hle, hkeep⟩ := uint32_day_exact (DayChange calls)
    (fun n => (callsAfter boot calls n).s_starts_today) (fun n => (callsAfter boot calls n).s_starts_boot)
    rfl (starts_today_mod boot calls) (starts_boot_mod boot calls) (fun k _ => switches_nonneg boot calls k)
    hswitches
  exact ⟨hb, htoday, hle, fun hs => hkeep (dayChange_synced calls hs)⟩

open Classical in
/-- Over every sequence of calls whose time fits into 32 bits: the runtimes are exact. The numbers of
starts are so modulo 2^32, and without that while they fit as well. -/
theorem counters_exact {n : Nat} (ht : ∀ i < n, (calls i).now_s ≤ (calls (i + 1)).now_s)
    (htotal : (calls n).now_s - (calls 0).now_s < 2 ^ 32) :
    ExactRuntime boot calls n ∧
      (callsAfter boot calls (n + 1)).s_starts_today =
        UInt32.ofInt (sinceLast (DayChange calls) (switches boot calls) n) ∧
      (∑ k ∈ Finset.range (n + 1), switches boot calls k < 2 ^ 32 → ExactStarts boot calls n) :=
  ⟨exact_runtime boot calls ht htotal, starts_today_mod boot calls n, exact_starts boot calls⟩

/-! ## Too many switches -/

/-- The pump goes on and off again, all within one second. -/
def toggling (i : Nat) : DecideCall where
  settings := default_settings
  date := ⟨false, 0⟩
  now_s := 1
  r := {}
  detail := none
  before := fun s => { ctl_init 0 with on := s.on, overheat := decide (i % 2 = 0) }
  keeps_pump := fun _ => rfl
  fresh := rfl

theorem toggling_on (c : Control) (i : Nat) : ((toggling i).exec c).s_state.on = decide (i % 2 = 0) := by
  rw [DecideCall.exec, decide_locked_eq]
  simp only [decision, toggling]
  cases c.s_state.on <;> cases decide (i % 2 = 0) <;> rfl

theorem toggling_switches (m : Nat) : ∑ k ∈ Finset.range (2 * m), switches 0 toggling k = m := by
  have hoff : ∀ m, (callsAfter 0 toggling (2 * m)).s_state.on = false := by
    intro m
    cases m with
    | zero => rfl
    | succ m =>
      rw [Nat.mul_succ, callsAfter_succ, toggling_on, decide_eq_false_iff_not]
      omega
  induction m with
  | zero => rfl
  | succ m ih =>
    have hon : (callsAfter 0 toggling (2 * m + 1)).s_state.on = true := by
      rw [callsAfter_succ, toggling_on, decide_eq_true_eq]
      omega
    have h0 : switches 0 toggling (2 * m) = 1 := by
      rw [switches, if_pos ⟨hoff m, hon⟩]
    have h1 : switches 0 toggling (2 * m + 1) = 0 := by
      rw [switches, if_neg]
      rintro ⟨h, -⟩
      rw [hon] at h
      cases h
    rw [Nat.mul_succ, Finset.sum_range_succ, Finset.sum_range_succ, ih, h0, h1]
    push_cast
    omega

open Classical in
theorem toggling_wraps (m : Nat) (hm : 2 ^ 32 ≤ m) :
    ((callsAfter 0 toggling (2 * m - 1 + 1)).s_starts_today.toNat : Int) ≠
      sinceLast (DayChange toggling) (switches 0 toggling) (2 * m - 1) := by
  intro hs
  have hno : ∀ k, ¬ DayChange toggling k := fun k => dayChange_synced toggling rfl
  rw [sinceLast_never _ _ _ hno, Nat.sub_add_cancel (by omega), toggling_switches] at hs
  have hlt := UInt32.toNat_lt (callsAfter 0 toggling (2 * m)).s_starts_today
  omega

open Classical in
/-- 2^32 switches within one second: the time fits, the number of starts does not. -/
theorem starts_today_wraps :
    (∀ i, (toggling i).now_s ≤ (toggling (i + 1)).now_s) ∧
      (toggling (2 * 2 ^ 32 - 1)).now_s - (toggling 0).now_s < 2 ^ 32 ∧
      ((callsAfter 0 toggling (2 * 2 ^ 32 - 1 + 1)).s_starts_today.toNat : Int) ≠
        sinceLast (DayChange toggling) (switches 0 toggling) (2 * 2 ^ 32 - 1) :=
  ⟨fun _ => le_refl _, by decide, toggling_wraps (2 ^ 32) (le_refl _)⟩

theorem one_second_of_runtime :
    ((callsAfter 0 (fun i => { toggling i with now_s := 5 + i }) (1 + 1)).s_runtime_boot_s.toNat : Int) = 1 := by
  have hx := (@counters_exact 0 (fun i => { toggling i with now_s := 5 + i }) 1 (fun i _ => by simp)
    (by simp)).1
  rw [hx.since_boot]
  decide

end FloorHeating.Counters
