import FloorHeating.Control
import FloorHeating.Overheat
import FloorHeating.Thresholds

/-!
# New thresholds wait for a reading

`ctl_decide` sees the stop threshold only where it looks for maintenance. The
others go into the latches, and only `ctl_sensor` moves those.
-/

open FloorHeating.Lib FloorHeating.Priority FloorHeating.Control FloorHeating.Overheat

namespace FloorHeating.NewThresholds

/-! ## One decision -/

section Auto

variable {s : CtlState} {cfg : CtlConfig} {now : Int} {res : CtlResult}

theorem decide_overheat_iff :
    ((ctl_decide s cfg now res).1.on = true ∧ (ctl_decide s cfg now res).1.reason = .Overheat) ↔
      s.overheat = true := by
  have hc := ctl_decide_choice s cfg now res
  rw [← ctl_decide_overheat s cfg now res]
  constructor
  · rintro ⟨-, hr⟩
    rw [hr] at hc
    exact choose_reason_overheat (congrArg Prod.snd hc)
  · intro ho
    rw [choose_overheat ho] at hc
    exact ⟨(Prod.mk.inj hc).1.symm, (Prod.mk.inj hc).2.symm⟩

theorem moved_prescribed {new : Settings} (hn : new.Sane) (hm : s.manual = .None)
    (hf : s.sensor_failed = false) {heat hot : Bool}
    (hheat : s.overheat = heatAfter heat (config_from_settings new) s.temp_x10)
    (hhot : s.hot = hotAfter hot (config_from_settings new) s.temp_x10) :
    Prescribed new (ctl_decide s cfg now res).1 := by
  obtain ⟨_, _, _, hh, hmargin, _⟩ := hn
  have hheat : s.overheat = true ↔ new.critical_x10 ≤ s.temp_x10 ∨
      (¬ s.temp_x10 < new.critical_x10 - 20 ∧ heat = true) := by
    rw [hheat]
    exact heatAfter_iff ..
  have hhot : s.hot = true ↔ new.start_x10 < s.temp_x10 ∨
      (¬ s.temp_x10 < new.stop_x10 ∧ hot = true) := by
    rw [hhot]
    exact hotAfter_iff ..
  constructor
  · rw [ctl_decide_temp_x10, decide_overheat_iff, hheat]
    exact Or.inl
  · rw [ctl_decide_temp_x10, auto_on hm, hhot]
    intro hs
    exact Or.inr (Or.inr (Or.inl (Or.inl hs)))
  · rw [ctl_decide_temp_x10]
    intro hstop hclear hrun
    rw [Bool.eq_false_iff, ne_eq, auto_on hm, hf, hrun]
    rintro (h | h | h | h)
    · have := hheat.mp h
      omega
    · cases h
    · have := hhot.mp h
      omega
    · cases h

/-- A latch that keeps the pump on leaves no room for a maintenance run. -/
theorem latched_no_start (h : s.on = true ∨ s.sensor_failed = true) : startsRun s cfg now = false := by
  rw [Bool.eq_false_iff, ne_eq, startsRun_iff]
  rintro ⟨-, hoff, -, hf, -⟩
  rcases h with h | h
  · rw [h] at hoff
    cases hoff
  · rw [h] at hf
    cases hf

theorem prescribed_latches {new : Settings} (hn : new.Sane) (hm : s.manual = .None)
    (hg : s.overheat = true → s.hot = true) (hon : s.hot = true → s.on = true) (hcfg : cfg.stop_x10 = new.stop_x10)
    (h : Prescribed new (ctl_decide s cfg now res).1) :
    (new.critical_x10 ≤ s.temp_x10 → s.overheat = true) ∧
      (new.start_x10 < s.temp_x10 → s.hot = true ∨ s.sensor_failed = true ∨ stillRuns s now = true) ∧
      (s.temp_x10 < new.stop_x10 → stillRuns s now = false →
        s.hot = false ∧ s.sensor_failed = false) := by
  obtain ⟨_, _, _, hh, hmargin, _⟩ := hn
  have hdon := @auto_on s cfg now res hm
  obtain ⟨hcrit, hstart, hstop⟩ := h
  rw [ctl_decide_temp_x10] at hcrit hstart hstop
  rw [decide_overheat_iff] at hcrit
  refine ⟨hcrit, fun ht => ?_, fun ht hrun => ?_⟩
  · -- Above the start threshold no maintenance run can start.
    have hst : startsRun s cfg now = false := by
      rw [Bool.eq_false_iff, ne_eq, startsRun_iff]
      omega
    have hkeeps := hdon.mp (hstart ht)
    rw [ctl_decide_maintenance, hst, Bool.or_false] at hkeeps
    rcases hkeeps with ho | hf | hhot | hrun
    · exact Or.inl (hg ho)
    · exact Or.inr (Or.inl hf)
    · exact Or.inl hhot
    · exact Or.inr (Or.inr hrun)
  · have hquiet : startsRun s cfg now = false → (ctl_decide s cfg now res).1.on = false := by
      intro hst
      exact hstop ht (by omega) (by rw [ctl_decide_maintenance, hst, hrun]; rfl)
    constructor
    · rw [Bool.eq_false_iff]
      intro hhot
      have hoff := hquiet (latched_no_start (Or.inl (hon hhot)))
      rw [hdon.mpr (Or.inr (Or.inr (Or.inl hhot)))] at hoff
      cases hoff
    · rw [Bool.eq_false_iff]
      intro hf
      have hoff := hquiet (latched_no_start (Or.inr hf))
      rw [hdon.mpr (Or.inr (Or.inl hf))] at hoff
      cases hoff

theorem latches_prescribe {new : Settings} (hm : s.manual = .None) (hg : s.overheat = true → s.hot = true)
    (h : (new.critical_x10 ≤ s.temp_x10 → s.overheat = true) ∧
      (new.start_x10 < s.temp_x10 → s.hot = true ∨ s.sensor_failed = true ∨ stillRuns s now = true) ∧
      (s.temp_x10 < new.stop_x10 → stillRuns s now = false →
        s.hot = false ∧ s.sensor_failed = false)) :
    Prescribed new (ctl_decide s cfg now res).1 := by
  have hdon := @auto_on s cfg now res hm
  obtain ⟨hcrit, hstart, hstop⟩ := h
  constructor
  · rw [ctl_decide_temp_x10, decide_overheat_iff]
    exact hcrit
  · rw [ctl_decide_temp_x10]
    intro ht
    rcases hstart ht with hhot | hf | hrun
    · exact hdon.mpr (Or.inr (Or.inr (Or.inl hhot)))
    · exact hdon.mpr (Or.inr (Or.inl hf))
    · exact hdon.mpr (Or.inr (Or.inr (Or.inr (by rw [ctl_decide_maintenance, hrun, Bool.true_or]))))
  · rw [ctl_decide_temp_x10]
    intro ht _ hflag
    have hrun := hflag
    rw [ctl_decide_maintenance, Bool.or_eq_false_iff] at hrun
    obtain ⟨hhot, hf⟩ := hstop ht hrun.1
    rw [Bool.eq_false_iff, ne_eq, hdon]
    rintro (h | h | h | h)
    · rw [hg h] at hhot
      cases hhot
    · rw [h] at hf
      cases hf
    · rw [h] at hhot
      cases hhot
    · rw [h] at hflag
      cases hflag

theorem kept_prescribed_iff {new : Settings} (hn : new.Sane) (hm : s.manual = .None)
    (hg : s.overheat = true → s.hot = true) (hon : s.hot = true → s.on = true)
    (hcfg : cfg.stop_x10 = new.stop_x10) :
    Prescribed new (ctl_decide s cfg now res).1 ↔
      (new.critical_x10 ≤ s.temp_x10 → s.overheat = true) ∧
      (new.start_x10 < s.temp_x10 → s.hot = true ∨ s.sensor_failed = true ∨ stillRuns s now = true) ∧
      (s.temp_x10 < new.stop_x10 → stillRuns s now = false →
        s.hot = false ∧ s.sensor_failed = false) :=
  ⟨prescribed_latches hn hm hg hon hcfg, latches_prescribe hm hg⟩

end Auto

/-! ## The first section -/

theorem step_sane {sec : Section} (hs : sec.Sane) : sec.step.Sane := by
  cases sec with
  | task for_sensor settings date now read =>
    cases read with
    | none => exact hs.2
    | some reading => exact hs
  | command settings date now m d who => exact hs

/-- Between sections the overheat implies hot, and a hot floor in automatic control the pump. -/
theorem latches_reachable (boot : Int) (h : List Section) (hs : ∀ sec ∈ h, sec.Sane) :
    ((controlAfter boot h).s_state.overheat = true → (controlAfter boot h).s_state.hot = true) ∧
      ((controlAfter boot h).s_state.manual = .None → (controlAfter boot h).s_state.hot = true →
        (controlAfter boot h).s_state.on = true) := by
  rw [s_state_eq]
  have hg := guarded_history boot (h.map Section.step) fun st hst => by
    obtain ⟨sec, hsec, rfl⟩ := List.mem_map.mp hst
    exact step_sane (hs sec hsec)
  refine ⟨hg.hot, fun hm hhot => ?_⟩
  have hset := history_settled boot (h.map Section.step)
  unfold Settled at hset
  have hc := (choose_auto hm).mpr (Or.inr (Or.inr (Or.inl hhot)))
  rw [hset] at hc
  exact hc

theorem trips_iff (s : CtlState) :
    SENSOR_FAIL_READS ≤ failuresAfter s.failures ↔ SENSOR_FAIL_READS.toNat ≤ s.failures.toNat + 1 := by
  rw [UInt8.le_iff_toNat_le, failuresAfter_toNat]
  have : SENSOR_FAIL_READS.toNat = 3 := rfl
  omega

theorem seen_with_reading {new : Settings} {c : Control} {sec : Section} (hsec : sec.Follows new)
    (hm : c.s_state.manual = .None) {t : Int} (hr : sec.reading = some (some t)) :
    ∃ s, sec.seen c = some s ∧ s.manual = .None ∧ s.sensor_failed = false ∧
      s.overheat = heatAfter c.s_state.overheat (config_from_settings new) s.temp_x10 ∧
      s.hot = hotAfter c.s_state.hot (config_from_settings new) s.temp_x10 := by
  cases sec with
  | task for_sensor settings date now read =>
    obtain rfl : read = some (some t) := hr
    obtain ⟨rfl, rfl⟩ := hsec
    refine ⟨(ctl_sensor c.s_state (config_from_settings settings) now true t {}).1, rfl, ?_⟩
    rw [ctl_sensor_valid]
    exact ⟨hm, rfl, rfl, rfl⟩
  | command settings date now m d who => cases hr

theorem seen_without_reading {new : Settings} {c : Control} {sec : Section} (hsec : sec.Follows new)
    (hm : c.s_state.manual = .None) (hf : c.s_state.sensor_failed = false)
    (hr : ¬ ∃ t, sec.reading = some (some t)) :
    ∃ s, sec.seen c = some s ∧ s.manual = .None ∧ s.on = c.s_state.on ∧ s.hot = c.s_state.hot ∧
      s.overheat = c.s_state.overheat ∧ s.temp_x10 = c.s_state.temp_x10 ∧
      stillRuns s sec.now_s = stillRuns c.s_state sec.now_s ∧
      (s.sensor_failed = true ↔ Trips c.s_state sec) := by
  cases sec with
  | task for_sensor settings date now read =>
    rcases read with - | - | t
    · refine ⟨_, rfl, hm, rfl, rfl, rfl, rfl, rfl, ?_⟩
      simp [hf, Trips, Section.reading]
    · refine ⟨_, rfl, ?_⟩
      rw [Option.isSome_none, ctl_sensor_failed]
      refine ⟨hm, rfl, rfl, rfl, rfl, rfl, ?_⟩
      simp [hf, Trips, Section.reading, config_from_settings, trips_iff]
    · exact absurd ⟨t, rfl⟩ hr
  | command settings date now m d who =>
    obtain ⟨-, rfl⟩ := hsec
    refine ⟨_, rfl, rfl, rfl, rfl, rfl, rfl, rfl, ?_⟩
    simp [hf, Trips, Section.reading]

/-- After a change of the thresholds, from any state that a run with sane ones can reach, in
automatic control and with a working sensor: the first section puts the pump where the new ones
want it exactly when it gets a reading, or the old latches agree. -/
theorem new_thresholds_iff (boot : Int) (h : List Section) (hs : ∀ sec ∈ h, sec.Sane) (st : Store)
    (in_out : Settings) (io : NvsCalls) (sec : Section)
    (hsec : sec.Follows (settings_get (settings_set st in_out io).1))
    (hf : (controlAfter boot h).s_state.sensor_failed = false)
    (hm : (controlAfter boot h).s_state.manual = .None) :
    Prescribed (settings_get (settings_set st in_out io).1) (sec.exec (controlAfter boot h)).s_state ↔
      (∃ t, sec.reading = some (some t)) ∨
        Agree (settings_get (settings_set st in_out io).1) (controlAfter boot h).s_state sec := by
  have hn : (settings_get (settings_set st in_out io).1).Sane := by
    rw [Thresholds.settings_set_eq]
    exact Thresholds.sanitize_sane in_out
  revert hsec hn
  generalize settings_get (settings_set st in_out io).1 = new
  intro hsec hn
  obtain ⟨hg, hon⟩ := latches_reachable boot h hs
  by_cases hr : ∃ t, sec.reading = some (some t)
  · refine iff_of_true ?_ (Or.inl hr)
    obtain ⟨t, hr⟩ := hr
    obtain ⟨s, hseen, hsm, hsf, hheat, hhot⟩ := seen_with_reading hsec hm hr
    rw [exec_s_state hseen]
    exact moved_prescribed hn hsm hsf hheat hhot
  · rw [or_iff_right hr]
    obtain ⟨s, hseen, hsm, hson, hhot, hoh, htemp, hrun, htrips⟩ := seen_without_reading hsec hm hf hr
    have hstop : (config_from_settings (settingsOf sec)).stop_x10 = new.stop_x10 := by
      cases sec with
      | task for_sensor settings date now read => rw [← hsec.2]; rfl
      | command settings date now m d who => rw [← hsec.1]; rfl
    rw [exec_s_state hseen, decisionOf]
    rw [kept_prescribed_iff hn hsm (by rwa [hoh, hhot]) (by rw [hhot, hson]; exact hon hm) hstop]
    rw [hoh, hhot, htemp, hrun, htrips]
    rw [← Bool.not_eq_true (stillRuns _ _), stillRuns_iff, ← Bool.not_eq_true s.sensor_failed, htrips]
    constructor
    · rintro ⟨h1, h2, h3⟩
      exact ⟨h1, h2, h3⟩
    · rintro ⟨h1, h2, h3⟩
      exact ⟨h1, h2, h3⟩

/-! ### A lowered start threshold -/

def coolFloor : List Section := [.task default_settings default_settings ⟨false, 0⟩ 6 (some (some 280))]

def lowered : Settings :=
  settings_get (settings_set (settings_init .missing) ⟨260, 240, 450⟩ ⟨.ESP_OK, .ESP_OK, .ESP_OK⟩).1

theorem coolFloor_sane : ∀ sec ∈ coolFloor, sec.Sane := by
  intro sec hsec
  obtain rfl := List.mem_singleton.mp hsec
  exact ⟨Thresholds.default_sane, Thresholds.default_sane⟩

theorem new_thresholds_with_reading :
    Prescribed lowered
      ((Section.task lowered lowered ⟨false, 0⟩ 7 (some (some 280))).exec (controlAfter 0 coolFloor)).s_state :=
  (new_thresholds_iff 0 coolFloor coolFloor_sane (settings_init .missing) ⟨260, 240, 450⟩
    ⟨.ESP_OK, .ESP_OK, .ESP_OK⟩ (.task lowered lowered ⟨false, 0⟩ 7 (some (some 280))) ⟨rfl, rfl⟩
    (by decide) (by decide)).mpr (Or.inl ⟨280, rfl⟩)

/-- An iteration without a read leaves the pump off, 2 °C above the new start threshold. -/
theorem lowered_start_waits :
    (∀ sec ∈ coolFloor, sec.Sane) ∧
    (controlAfter 0 coolFloor).s_state.have_temp = true ∧
    (controlAfter 0 coolFloor).s_state.sensor_failed = false ∧
    (controlAfter 0 coolFloor).s_state.manual = .None ∧
    ¬ Prescribed lowered
      ((Section.task lowered lowered ⟨false, 0⟩ 7 none).exec (controlAfter 0 coolFloor)).s_state := by
  refine ⟨coolFloor_sane, by decide, by decide, by decide, fun hp => ?_⟩
  have hon := hp.above_start (by decide)
  revert hon
  decide

end FloorHeating.NewThresholds
