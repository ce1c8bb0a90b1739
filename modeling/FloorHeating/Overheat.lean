import FloorHeating.Priority
import FloorHeating.Spec.Thresholds

/-! # The end of an overheat does not stop the pump -/

open FloorHeating.Lib FloorHeating.Priority

namespace FloorHeating.Overheat

/-- What holds of an overheated controller between steps. -/
structure Guarded (s : CtlState) : Prop where
  hot : s.overheat = true → s.hot = true
  on : s.overheat = true → s.on = true
  no_stop : s.overheat = true → s.manual ≠ .Stop

theorem guarded_init (boot : Int) : Guarded (ctl_init boot) := by
  constructor <;> simp [ctl_init]

theorem sensor_hot (s : CtlState) (cfg : CtlConfig) (now t : Int) (valid : Bool) (res : CtlResult)
    (hs : cfg.thresholds.Sane) (hh : s.overheat = true → s.hot = true) :
    (ctl_sensor s cfg now valid t res).1.overheat = true → (ctl_sensor s cfg now valid t res).1.hot = true := by
  have hh1 := hs.hysteresis
  have hm := hs.margin
  simp only [CtlConfig.thresholds] at hh1 hm
  cases valid with
  | false => simpa [ctl_sensor_failed] using hh
  | true =>
    simp only [ctl_sensor_valid, heatAfter_iff, hotAfter_iff]
    intro ho
    have hstart : cfg.start_x10 < t := by omega
    exact Or.inl hstart

theorem decide_guarded (s : CtlState) (cfg : CtlConfig) (now : Int) (res : CtlResult)
    (hh : s.overheat = true → s.hot = true) : Guarded (ctl_decide s cfg now res).1 where
  hot := by simpa using hh
  on := by
    intro ho
    have hc := ctl_decide_choice s cfg now res
    rw [choose_overheat ho] at hc
    exact (Prod.mk.inj hc).1.symm
  no_stop := by
    intro ho hm
    have := (ctl_decide_stop s cfg now res hm).2.2
    rw [ho] at this
    cases this

theorem guarded_step (boot : Int) (h : List Call) (st : Step) (hs : st.Sane)
    (hg : Guarded (after boot h)) : Guarded (after boot (h ++ st.calls (after boot h))) := by
  cases st with
  | read cfg now valid t cfg' =>
    rw [Step.calls, List.append_cons, after_snoc, after_snoc]
    exact decide_guarded _ _ _ _ (sensor_hot _ _ _ _ _ _ hs.1 hg.hot)
  | decide cfg now =>
    rw [Step.calls, after_snoc]
    exact decide_guarded _ _ _ _ hg.hot
  | command cfg now m d =>
    simp only [Step.calls]
    split
    · rw [List.append_cons, after_snoc, after_snoc, apply_manual]
      exact decide_guarded _ _ _ _ hg.hot
    · rename_i hr
      rwa [after_refused boot hr]

theorem guarded_history (boot : Int) (steps : List Step) (hs : ∀ st ∈ steps, st.Sane) :
    Guarded (after boot (history boot steps)) := by
  induction steps using List.reverseRecOn with
  | nil => exact guarded_init boot
  | append_singleton steps st ih =>
    rw [history_snoc]
    exact guarded_step boot _ st (hs st (by simp)) (ih fun st hm => hs st (List.mem_append_left _ hm))

/-- The pump stays on at the reading that ends the overheat, unless that reading is itself below the
stop threshold. -/
theorem read_ends_overheat (s : CtlState) (cfg cfg' : CtlConfig) (now t : Int) (valid : Bool)
    (hg : Guarded s) (he : (ctl_sensor s cfg now valid t {}).2.overheat_ended = true) :
    (ctl_decide (ctl_sensor s cfg now valid t {}).1 cfg' now {}).1.on = true ∨ t < cfg.stop_x10 := by
  cases valid with
  | false => simp [ctl_sensor_failed] at he
  | true =>
    simp only [ctl_sensor_valid, Bool.false_or, Bool.and_eq_true, Bool.not_eq_true'] at he
    obtain ⟨ho, hno⟩ := he
    by_cases hstop : t < cfg.stop_x10
    · exact Or.inr hstop
    · left
      have hhot : hotAfter s.hot cfg t = true := by
        rw [hotAfter_iff]
        exact Or.inr ⟨hstop, hg.hot ho⟩
      -- No stop command is left, so hysteresis or a start keeps the pump on.
      have hm : manualAfter (ctl_sensor s cfg now true t {}).1 now ≠ .Stop := by
        rw [ne_eq, manualAfter_iff _ _ (by decide), ctl_sensor_valid]
        exact fun hx => hg.no_stop ho hx.2
      have hc := ctl_decide_choice (ctl_sensor s cfg now true t {}).1 cfg' now {}
      rw [choose, ctl_decide_overheat, ctl_decide_manual, ctl_decide_sensor_failed, ctl_decide_hot] at hc
      rw [if_neg hm] at hc
      simp only [ctl_sensor_valid, hno, hhot, Bool.false_eq_true, if_false, if_true] at hc ⊢
      split at hc
      · exact (Prod.mk.inj hc).1.symm
      · exact (Prod.mk.inj hc).1.symm

/-- Over every run, with thresholds that move: overheated implies hot, on and no stop command, and
the read that ends an overheat keeps the pump on unless it is below the stop threshold. -/
theorem leaving_overheat_keeps_pump (boot : Int) (steps : List Step) (hs : ∀ st ∈ steps, st.Sane) :
    Guarded (after boot (history boot steps)) ∧
      ∀ cfg now valid t cfg',
        (ctl_sensor (after boot (history boot steps)) cfg now valid t {}).2.overheat_ended = true →
          (after boot (history boot (steps ++ [.read cfg now valid t cfg']))).on = true ∨
            t < cfg.stop_x10 := by
  have hg := guarded_history boot steps hs
  refine ⟨hg, fun cfg now valid t cfg' he => ?_⟩
  rw [history_snoc, Step.calls, List.append_cons, after_snoc, after_snoc]
  exact read_ends_overheat _ cfg cfg' now t valid hg he

theorem defaultConfig_sane : defaultConfig.thresholds.Sane := by constructor <;> decide

theorem overheat_over_pump_on :
    (after 0 (history 0 [.read defaultConfig 5 true 460 defaultConfig,
      .read defaultConfig 10 true 420 defaultConfig])).on = true := by
  have hlaw := leaving_overheat_keeps_pump 0 [.read defaultConfig 5 true 460 defaultConfig]
    (by simp [Step.Sane, defaultConfig_sane])
  exact (hlaw.2 defaultConfig 10 true 420 defaultConfig (by decide)).resolve_right (by decide)

end FloorHeating.Overheat
