import FloorHeating.Feed
import FloorHeating.Spec.Chatter

/-!
# The thermostat does not chatter

Both flags of the controller are triggers with a hysteresis of 2 °C. Each
automatic switch of the pump takes a change of the one, and each overheat event
a change of the other.
-/

open FloorHeating.Lib FloorHeating.Control FloorHeating.Account FloorHeating.MachineRun

namespace FloorHeating.Chatter

/-! ## The flags -/

theorem hot_apart {st : Settings} (h : st.Sane) (x y : Int) (hx : hotUp st x = true) (hy : hotDown st y = true) :
    20 ≤ |x - y| := by
  have hhyst := h.hysteresis
  have hup := of_decide_eq_true hx
  have hdown := of_decide_eq_true hy
  have habs := le_abs_self (x - y)
  omega

theorem heat_apart (st : Settings) (x y : Int) (hx : heatUp st x = true) (hy : heatDown st y = true) :
    20 ≤ |x - y| := by
  have hclear : OVERHEAT_CLEAR_X10 = 20 := rfl
  have hup := of_decide_eq_true hx
  have hdown := of_decide_eq_true hy
  have habs := le_abs_self (x - y)
  omega

def flagAfter (up down : Int → Bool) (on : Bool) (sec : Section) : Bool :=
  match sec.valid with
  | some r => trigger up down on r.1
  | none => on

theorem flips_cons (up down : Int → Bool) (on : Bool) (sec : Section) (l : List Section) :
    flips up down on (readingsOf (sec :: l)) =
      (if flagAfter up down on sec = on then 0 else 1) + flips up down (flagAfter up down on sec) (readingsOf l) := by
  unfold readingsOf flagAfter
  cases hv : sec.valid with
  | none => simp [hv]
  | some r => simp [hv, flips]

theorem exec_flags (c : Control) {sec : Section} {st : Settings} (h : sec.ReadsWith st) :
    (sec.exec c).s_state.hot = flagAfter (hotUp st) (hotDown st) c.s_state.hot sec ∧
      (sec.exec c).s_state.overheat = flagAfter (heatUp st) (heatDown st) c.s_state.overheat sec := by
  cases hs : sec.seen c with
  | none =>
    rw [exec_refused hs]
    obtain ⟨settings, date, now, m, d, who, rfl, -⟩ := seen_none hs
    exact ⟨rfl, rfl⟩
  | some s =>
    rw [exec_s_state hs]
    simp only [decisionOf, ctl_decide_hot, ctl_decide_overheat]
    cases sec with
    | task for_sensor settings date now read =>
      obtain rfl : for_sensor = st := h
      rcases read with - | - | t
      · cases hs
        exact ⟨rfl, rfl⟩
      · cases hs
        simp [ctl_sensor_failed, flagAfter, Section.valid]
      · cases hs
        simp only [ctl_sensor_valid, Option.isSome_some, Option.getD_some]
        exact ⟨rfl, rfl⟩
    | command settings date now m d who =>
      obtain ⟨-, rfl⟩ := ctl_manual_accepted hs
      exact ⟨rfl, rfl⟩

/-! ## One section -/

theorem choose_cold {s : CtlState} (h : (choose s).2 = .AutoCold) : s.hot = false := by
  unfold choose at h
  split_ifs at h with _ _ _ _ hhot
  exact Bool.eq_false_iff.mpr hhot

theorem choose_hot {s : CtlState} (h : (choose s).2 = .AutoHot) : s.hot = true := by
  unfold choose at h
  split_ifs at h with _ _ _ _ hhot
  exact hhot

theorem seen_of_event {c : Control} {sec : Section} {e : Event} (he : e ∈ sec.events c) : ∃ s, sec.seen c = some s := by
  cases hs : sec.seen c with
  | some s => exact ⟨s, rfl⟩
  | none =>
    rw [events_refused hs] at he
    cases he

theorem pump_count (c : Control) (sec : Section) : (sec.events c).countP (fun e => e.Automatic) ≤ 1 := by
  cases hs : sec.seen c with
  | none =>
    rw [events_refused hs]
    exact Nat.zero_le 1
  | some s =>
    have hlog := congrArg List.length (log_pump hs)
    have hone : (change c.s_state.on (sec.exec c).s_state.on).length ≤ 1 := by
      unfold change
      split <;> simp
    unfold logOf at hlog
    rw [List.length_map, ← List.countP_eq_length_filter] at hlog
    have hle : (sec.events c).countP (fun e => e.Automatic) ≤ (sec.events c).countP (fun e => e.type = .EV_PUMP) :=
      List.countP_mono_left fun e _ ha => by
        simp only [decide_eq_true_eq] at ha ⊢
        exact ha.1
    omega

theorem overheat_length (c : Control) (sec : Section) :
    (logOf .EV_OVERHEAT (sec.events c)).length =
      if (sec.exec c).s_state.overheat = c.s_state.overheat then 0 else 1 := by
  cases hs : sec.seen c with
  | none =>
    rw [events_refused hs, exec_refused hs]
    simp [logOf]
  | some s =>
    rw [log_overheat hs]
    unfold change
    split <;> rfl

section Section

variable (boot : Int) (h : List Section) (sec : Section)

theorem settled_reason (k : List Section) :
    (choose (controlAfter boot k).s_state).2 = (controlAfter boot k).s_state.reason := by
  rw [settled_eq]

theorem automatic_flips {e : Event} (he : e ∈ sec.events (controlAfter boot h)) (ha : e.Automatic) :
    (controlAfter boot (h ++ [sec])).s_state.hot ≠ (controlAfter boot h).s_state.hot := by
  have hstep : controlAfter boot (h ++ [sec]) = sec.exec (controlAfter boot h) := run_snoc ..
  have hbefore := settled_reason boot h
  have hafter := settled_reason boot (h ++ [sec])
  obtain ⟨s, hs⟩ := seen_of_event he
  obtain ⟨-, hreason, hprev, -⟩ := Feed.pump_event hs he ha.1
  rw [← hstep] at hreason
  rcases ha.2 with ⟨hcold, hhot⟩ | ⟨hhot, hcold⟩
  · rw [hprev] at hcold
    rw [hreason] at hhot
    rw [choose_cold (hbefore.trans hcold), choose_hot (hafter.trans hhot)]
    decide
  · rw [hprev] at hhot
    rw [hreason] at hcold
    rw [choose_hot (hbefore.trans hhot), choose_cold (hafter.trans hcold)]
    decide

end Section

/-! ## A stretch of a run with the same thresholds -/

theorem publishedIn_eq (boot : Int) (h l : List Section) :
    publishedIn boot h l = eventsFrom (controlAfter boot h) l := by
  unfold publishedIn
  rw [published_append, List.drop_left]

/-- Each switch takes a change of its flag. -/
theorem switches_flip (boot : Int) {st : Settings} (h : List Section) {l : List Section}
    (hl : ∀ sec ∈ l, sec.ReadsWith st) :
    (eventsFrom (controlAfter boot h) l).countP (fun e => e.Automatic) ≤
        flips (hotUp st) (hotDown st) (controlAfter boot h).s_state.hot (readingsOf l) ∧
      (logOf .EV_OVERHEAT (eventsFrom (controlAfter boot h) l)).length =
        flips (heatUp st) (heatDown st) (controlAfter boot h).s_state.overheat (readingsOf l) := by
  induction l generalizing h with
  | nil => exact ⟨Nat.le_refl 0, rfl⟩
  | cons sec l ih =>
    obtain ⟨hhot, hheat⟩ := ih (h ++ [sec]) fun sec' hsec' => hl sec' (List.mem_cons_of_mem _ hsec')
    have hstep : controlAfter boot (h ++ [sec]) = sec.exec (controlAfter boot h) := run_snoc ..
    obtain ⟨hhot_after, hheat_after⟩ := exec_flags (controlAfter boot h) (hl sec List.mem_cons_self)
    have hswitch (e : Event) (he : e ∈ sec.events (controlAfter boot h)) (ha : e.Automatic) :
        (controlAfter boot (h ++ [sec])).s_state.hot ≠ (controlAfter boot h).s_state.hot :=
      automatic_flips boot h sec he ha
    rw [hstep] at hhot hheat hswitch
    rw [hhot_after] at hhot hswitch
    rw [hheat_after] at hheat
    rw [flips_cons, flips_cons, eventsFrom, List.countP_append, logOf_append, List.length_append]
    refine ⟨Nat.add_le_add ?_ hhot, ?_⟩
    · split
      · rename_i hsame
        rw [Nat.le_zero, List.countP_eq_zero]
        intro e he ha
        exact hswitch e he (of_decide_eq_true ha) hsame
      · exact pump_count _ sec
    · rw [hheat, overheat_length, hheat_after]

/-- As long as the thresholds are the same, the thermostat switches the pump at most once for every 2 °C
that the water changes, and once more; overheat likewise starts and ends. -/
theorem no_chattering (boot : Int) {st : Settings} (hst : st.Sane) (h : List Section) {l : List Section}
    (hl : ∀ sec ∈ l, sec.ReadsWith st) :
    let new := publishedIn boot h l
    20 * ((new.countP fun e => e.Automatic : Nat) : Int) ≤ 20 + variation (readingsOf l) ∧
      20 * ((logOf .EV_OVERHEAT new).length : Int) ≤ 20 + variation (readingsOf l) := by
  have hhot := flips_le (hot_apart hst) (by decide) (controlAfter boot h).s_state.hot (readingsOf l)
  have hheat := flips_le (heat_apart st) (by decide) (controlAfter boot h).s_state.overheat (readingsOf l)
  obtain ⟨hswitches, hoverheats⟩ := switches_flip boot h hl
  dsimp only
  rw [publishedIn_eq]
  rw [nsmul_eq_mul] at hhot hheat
  constructor <;> omega

def twoReads : List Section :=
  [.task default_settings default_settings ⟨false, 0⟩ 5 (some (some 310)),
    .task default_settings default_settings ⟨false, 0⟩ 10 (some (some 240))]

theorem on_and_off :
    (publishedIn 0 [] twoReads).countP (fun e => e.Automatic) = 2 ∧
      20 * (((publishedIn 0 [] twoReads).countP fun e => e.Automatic : Nat) : Int) ≤
        20 + variation (readingsOf twoReads) := by
  have hl : ∀ sec ∈ twoReads, sec.ReadsWith default_settings := by
    intro sec hsec
    simp only [twoReads, List.mem_cons, List.not_mem_nil, or_false] at hsec
    rcases hsec with rfl | rfl <;> rfl
  exact ⟨by decide, (no_chattering 0 Thresholds.default_sane [] hl).1⟩

end FloorHeating.Chatter
