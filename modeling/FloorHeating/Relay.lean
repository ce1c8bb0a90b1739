import FloorHeating.Account
import FloorHeating.Spec.Relay

/-!
# The relay follows the state

No section looks at the relay but the end of a pass, which sets it. So whatever
sets the level of the pin, everything else goes on as without it.
-/

open FloorHeating.Lib FloorHeating.Control

namespace FloorHeating.Relay

/-! ## One section -/

section Section

variable (c : Control) (b : Bool)

theorem decide_pin (settings : Settings) (date : LocalDate) (now : Int) (r : CtlResult) (detail : Option String) :
    ∃ b', decide_locked (pump_set c b) settings date now r detail =
      pump_set (decide_locked c settings date now r detail) b' := by
  rw [decide_locked_eq, decide_locked_eq]
  exact ⟨_, rfl⟩

/-- The last line of the lock section sets the relay, whatever it was. -/
theorem follow (c : Control) :
    (if c.relay ≠ c.s_state.on then pump_set c c.s_state.on else c) = pump_set c c.s_state.on := by
  split
  · rfl
  · rename_i hsame
    unfold pump_set
    rw [← not_not.mp hsame]

theorem pass_eq (for_sensor settings : Settings) (date : LocalDate) (now : Int) (read : Option (Option Int)) :
    ∃ s, ∀ b, (Section.task for_sensor settings date now read).exec (pump_set c b) =
      let c' := decided (pump_set c b) (.task for_sensor settings date now read) s
      { pump_set c' c'.s_state.on with s_heartbeat_s := now } := by
  cases read with
  | none =>
    refine ⟨c.s_state, fun b => ?_⟩
    dsimp only
    rw [← follow]
    rfl
  | some reading =>
    refine ⟨(ctl_sensor c.s_state (config_from_settings for_sensor) now reading.isSome (reading.getD 0) {}).1,
      fun b => ?_⟩
    dsimp only
    rw [← follow]
    rfl

theorem pass_pin (for_sensor settings : Settings) (date : LocalDate) (now : Int) (read : Option (Option Int)) :
    (Section.task for_sensor settings date now read).exec (pump_set c b) =
      (Section.task for_sensor settings date now read).exec c := by
  obtain ⟨s, heq⟩ := pass_eq c for_sensor settings date now read
  have hsame : pump_set c c.relay = c := rfl
  have hplain := heq c.relay
  rw [hsame] at hplain
  obtain ⟨b', hpin⟩ : ∃ b', decided (pump_set c b) (.task for_sensor settings date now read) s =
      pump_set (decided c (.task for_sensor settings date now read) s) b' := by
    cases read <;> exact decide_pin { c with s_state := s } b settings date now _ none
  rw [heq, hplain, hpin]
  rfl

theorem section_pin (sec : Section) : ∃ b', sec.exec (pump_set c b) = pump_set (sec.exec c) b' := by
  cases sec with
  | task for_sensor settings date now read =>
    refine ⟨((Section.task for_sensor settings date now read).exec c).relay, ?_⟩
    rw [pass_pin]
    rfl
  | command settings date now m d who =>
    unfold Section.exec control_manual
    dsimp only
    cases hm : ctl_manual c.s_state m (clamp_duration d) now with
    | none => exact ⟨b, by simp [pump_set, hm]⟩
    | some s =>
      obtain ⟨b', hpin⟩ := decide_pin { c with s_state := s } b settings date now {}
        (some (manual_detail m (clamp_duration d) who))
      exact ⟨b', by simpa [pump_set, hm] using hpin⟩

end Section

/-! ## Runs -/

/-- Only the relay is ever different from a run in which nothing else sets the pin, and only from then
until the next pass. -/
theorem relay_recovers (boot : Int) (h : List PinStep) :
    let c := run PinStep.exec (control_start boot) h
    let clean := controlAfter boot (h.filterMap PinStep.locked)
    (∃ b, c = pump_set clean b) ∧ (¬ Disturbed h → c = clean ∧ c.relay = c.s_state.on) := by
  induction h using List.reverseRecOn with
  | nil => exact ⟨⟨false, rfl⟩, fun _ => ⟨rfl, rfl⟩⟩
  | append_singleton h a ih =>
    have hdisturbed : Disturbed (h ++ [a]) ↔ a.isLevel = true ∨ (¬ a.isPass = true ∧ Disturbed h) := since_snoc ..
    obtain ⟨⟨b, hpin⟩, hclean⟩ := ih
    dsimp only
    rw [run_snoc, List.filterMap_append]
    cases a with
    | level on =>
      refine ⟨⟨on, ?_⟩, fun hno => absurd (hdisturbed.mpr (Or.inl rfl)) hno⟩
      have hsame : [PinStep.level on].filterMap PinStep.locked = [] := rfl
      rw [hpin, hsame, List.append_nil]
      rfl
    | lock sec =>
      have hlocked : controlAfter boot (h.filterMap PinStep.locked ++ [PinStep.lock sec].filterMap PinStep.locked) =
          sec.exec (controlAfter boot (h.filterMap PinStep.locked)) := run_snoc ..
      refine ⟨?_, fun hno => ?_⟩
      · rw [hlocked, hpin]
        exact section_pin _ b sec
      · have hsame : PinStep.exec (run PinStep.exec (control_start boot) h) (.lock sec) =
            sec.exec (controlAfter boot (h.filterMap PinStep.locked)) := by
          cases sec with
          | task for_sensor settings date now read =>
            rw [hpin]
            exact pass_pin _ b for_sensor settings date now read
          | command settings date now m d who =>
            have hquiet : ¬ Disturbed h := fun hd => hno (hdisturbed.mpr (Or.inr ⟨Bool.false_ne_true, hd⟩))
            rw [(hclean hquiet).1]
            rfl
        rw [hsame, ← hlocked]
        exact ⟨rfl, (Account.faithful_run boot _).relay⟩

end FloorHeating.Relay
