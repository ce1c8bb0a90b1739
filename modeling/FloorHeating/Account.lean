import FloorHeating.Control
import FloorHeating.Lib.Changes

/-! # The events, the start counter and the relay tell the truth about the controller -/

open FloorHeating.Lib FloorHeating.Control

namespace FloorHeating.Account

theorem logOf_append (type : EventType) (l k : List Event) :
    logOf type (l ++ k) = logOf type l ++ logOf type k := by
  simp [logOf]

/-- The events that tell the end of a command: the pump switched, or the command just ended. -/
def pumpOrEnd (e : Event) : Bool := e.type = .EV_PUMP || e.type = .EV_MANUAL_END

structure Faithful (c : Control) : Prop where
  relay : c.relay = c.s_state.on
  pump : Tracks (logOf .EV_PUMP c.published) c.s_state.on
  starts : c.s_starts_boot = UInt32.ofNat ((logOf .EV_PUMP c.published).count true)
  overheat : Tracks (logOf .EV_OVERHEAT c.published) c.s_state.overheat
  sensor : Tracks (logOf .EV_SENSOR c.published) c.s_state.sensor_failed
  /-- Between sections a manual stop has the pump off, and nothing overheats. -/
  stop : c.s_state.manual = .Stop →
    c.s_state.on = false ∧ c.s_state.reason = .ManualOff ∧ c.s_state.overheat = false
  ends : ∀ e ∈ c.published, e.type = .EV_MANUAL_END → e.detail = "expired"

theorem faithful_start (boot : Int) : Faithful (control_start boot) where
  relay := rfl
  pump := tracks_nil
  starts := rfl
  overheat := tracks_nil
  sensor := tracks_nil
  stop := by simp [control_start, ctl_init]
  ends := by simp [control_start]

/-! ## What a read reports -/

section Read

variable {c : Control} {sec : Section} {s : CtlState} (h : sec.seen c = some s)

theorem sensed_clean (c : Control) (sec : Section) :
    (sensed c sec).changed = false ∧ (sensed c sec).manual_expired = false ∧
      (sensed c sec).manual_cancelled = false := by
  unfold sensed
  split
  · rename_i reading
    cases reading <;> simp [ctl_sensor_failed, ctl_sensor_valid]
  · simp

include h in
theorem sensed_sensor :
    (if (sensed c sec).sensor_failed ∨ (sensed c sec).sensor_recovered then [(sensed c sec).sensor_failed]
      else []) = change c.s_state.sensor_failed s.sensor_failed := by
  cases sec with
  | task fs st date now read =>
    cases read with
    | none => cases h; simp [sensed, change]
    | some reading =>
      cases h
      cases reading with
      | none =>
        simp only [sensed, Option.isSome_none, ctl_sensor_failed]
        generalize c.s_state.sensor_failed = was
        generalize decide ((config_from_settings fs).sensor_fail_reads ≤ failuresAfter c.s_state.failures) = out
        cases was <;> cases out <;> rfl
      | some t =>
        simp only [sensed, Option.isSome_some, ctl_sensor_valid]
        cases c.s_state.sensor_failed <;> rfl
  | command st date now m d who =>
    obtain ⟨-, rfl⟩ := ctl_manual_accepted h
    simp [sensed, change]

include h in
theorem sensed_overheat :
    (if (sensed c sec).overheat_started ∨ (sensed c sec).overheat_ended then [(sensed c sec).overheat_started]
      else []) = change c.s_state.overheat s.overheat := by
  cases sec with
  | task fs st date now read =>
    cases read with
    | none => cases h; simp [sensed, change]
    | some reading =>
      cases h
      cases reading with
      | none => simp [sensed, ctl_sensor_failed, change]
      | some t =>
        simp only [sensed, Option.isSome_some, Option.getD_some, ctl_sensor_valid]
        generalize heatAfter c.s_state.overheat (config_from_settings fs) t = now
        cases c.s_state.overheat <;> cases now <;> rfl
  | command st date now m d who =>
    obtain ⟨-, rfl⟩ := ctl_manual_accepted h
    simp [sensed, change]

end Read

/-! ## What a section publishes -/

section Published

variable {c : Control} {sec : Section} {s : CtlState} (h : sec.seen c = some s)

theorem decision_result (c : Control) (sec : Section) (s : CtlState) :
    (decisionOf c sec s).2 =
      { sensed c sec with
        changed := decide ((decisionOf c sec s).1.on ≠ s.on)
        prev_reason := s.reason
        manual_expired := decide (s.manual ≠ .None ∧ s.manual_until_s ≤ sec.now_s)
        manual_cancelled := decide (s.manual = .Stop ∧ s.overheat = true ∧ sec.now_s < s.manual_until_s)
        maintenance_started := (decisionOf c sec s).2.maintenance_started } := by
  obtain ⟨h1, h2, h3⟩ := sensed_clean c sec
  unfold decisionOf
  rw [ctl_decide_result]
  simp [h1, h2, h3]

include h in
theorem events_eq :
    sec.events c =
      sectionEvents { c with s_state := (decisionOf c sec s).1 } sec.now_s (decisionOf c sec s).2
        (detailOf sec) := by
  obtain ⟨_, _, he, -⟩ := exec_decided h
  unfold Section.events
  rw [he]
  simp only [decided, decide_locked_eq, List.drop_left]
  rfl

include h in
theorem published_eq : (sec.exec c).published = c.published ++ sec.events c := by
  rw [events_eq h]
  obtain ⟨_, _, he, -⟩ := exec_decided h
  rw [he]
  simp only [decided, decide_locked_eq]
  rfl

include h in
theorem log_pump : logOf .EV_PUMP (sec.events c) = change c.s_state.on (sec.exec c).s_state.on := by
  rw [events_eq h, exec_s_state h, ← (seen_frame h).1, decision_result]
  generalize (decisionOf c sec s).1 = s'
  unfold sectionEvents sensorEvents overheatEvents pumpEvents make_event change logOf
  by_cases hon : s'.on = s.on
  · simp only [hon]
    split <;> split <;> split <;> simp_all
  · simp only [hon]
    split <;> split <;> simp_all

include h in
theorem log_overheat :
    logOf .EV_OVERHEAT (sec.events c) = change c.s_state.overheat (sec.exec c).s_state.overheat := by
  have ho : (sec.exec c).s_state.overheat = s.overheat := by
    rw [exec_s_state h]
    simp [decisionOf]
  rw [ho, ← sensed_overheat h, events_eq h, decision_result]
  generalize (decisionOf c sec s).1 = s'
  unfold sectionEvents sensorEvents overheatEvents pumpEvents make_event logOf
  split <;> split <;> split <;> (try split) <;> simp_all

include h in
theorem log_sensor :
    logOf .EV_SENSOR (sec.events c) = change c.s_state.sensor_failed (sec.exec c).s_state.sensor_failed := by
  have ho : (sec.exec c).s_state.sensor_failed = s.sensor_failed := by
    rw [exec_s_state h]
    simp [decisionOf]
  rw [ho, ← sensed_sensor h, events_eq h, decision_result]
  generalize (decisionOf c sec s).1 = s'
  unfold sectionEvents sensorEvents overheatEvents pumpEvents make_event logOf
  split <;> split <;> split <;> (try split) <;> simp_all

include h in
theorem started_eq :
    started (decisionOf c sec s).1 (decisionOf c sec s).2 =
      UInt32.ofNat ((logOf .EV_PUMP (sec.events c)).count true) := by
  rw [log_pump h, exec_s_state h, decision_result]
  simp only [started, ← (seen_frame h).1]
  cases (decisionOf c sec s).1.on <;> cases s.on <;> rfl

include h in
theorem exec_starts :
    (sec.exec c).s_starts_boot =
      c.s_starts_boot + UInt32.ofNat ((logOf .EV_PUMP (sec.events c)).count true) := by
  rw [(exec_start_counters h).1, started_eq h]

include h in
theorem exec_relay (hr : c.relay = c.s_state.on) : (sec.exec c).relay = (sec.exec c).s_state.on := by
  obtain ⟨relay, _, he, hrelay⟩ := exec_decided h
  have hon : (sec.exec c).s_state.on = (decided c sec s).s_state.on := by rw [he]
  rw [hon, he]
  rcases hrelay with rfl | rfl
  · -- The decision leaves the relay alone only if the pump stays as it was.
    simp only [decided, decide_locked_eq]
    change (if (decisionOf c sec s).2.changed then (decisionOf c sec s).1.on else c.relay) =
      (decisionOf c sec s).1.on
    rw [decision_result, hr, ← (seen_frame h).1]
    by_cases hc : (decisionOf c sec s).1.on = s.on <;> simp [hc]
  · rfl

include h in
theorem exec_stop (hm : (sec.exec c).s_state.manual = .Stop) :
    (sec.exec c).s_state.on = false ∧ (sec.exec c).s_state.reason = .ManualOff ∧
      (sec.exec c).s_state.overheat = false := by
  rw [exec_s_state h] at hm ⊢
  exact ctl_decide_stop _ _ _ _ hm

include h in
/-- A stop that a decision drops was set by an earlier section, so the pump is off. -/
theorem dropped_off (hf : Faithful c) (hm : s.manual = .Stop) (ho : s.overheat = true) :
    s.on = false ∧ s.reason = .ManualOff := by
  obtain ⟨hon, hreason⟩ := seen_frame h
  have hc : c.s_state.manual = .Stop := by
    cases sec with
    | task fs st date now read =>
      cases read with
      | none => cases h; exact hm
      | some reading =>
        cases h
        simpa using hm
    | command st date now m d who =>
      obtain ⟨hn, rfl⟩ := ctl_manual_accepted h
      exact absurd ⟨hm, ho⟩ hn
  obtain ⟨h1, h2, -⟩ := hf.stop hc
  exact ⟨hon.trans h1, hreason.trans h2⟩

include h in
theorem pumpOrEnd_eq :
    (sec.events c).filter pumpOrEnd =
      pumpEvents { c with s_state := (decisionOf c sec s).1 } sec.now_s (decisionOf c sec s).2
        (detailOf sec) := by
  rw [events_eq h]
  generalize (decisionOf c sec s).2 = r
  unfold sectionEvents sensorEvents overheatEvents pumpEvents make_event
  split <;> split <;> split <;> (try split) <;> simp [pumpOrEnd]

include h in
theorem dropped_event (hf : Faithful c) (hm : s.manual = .Stop) (ho : s.overheat = true) :
    ∃ e, (sec.events c).filter pumpOrEnd = [e] ∧
      e.type = .EV_PUMP ∧ e.on = true ∧ e.reason = .Overheat ∧ e.prev_reason = .ManualOff := by
  obtain ⟨hoff, hreason⟩ := dropped_off h hf hm ho
  have hc := ctl_decide_choice s (config_from_settings (settingsOf sec)) sec.now_s (sensed c sec)
  rw [choose_overheat (by rw [ctl_decide_overheat]; exact ho)] at hc
  obtain ⟨hon, hre⟩ := Prod.mk.inj hc
  rw [pumpOrEnd_eq h, decision_result]
  refine ⟨_, if_pos ?_, rfl, hon.symm, hre.symm, hreason⟩
  rw [hoff, decide_eq_true_eq]
  exact fun he => absurd (hon.trans he) (by decide)

include h in
theorem expired_event (hm : s.manual ≠ .None) (ht : s.manual_until_s ≤ sec.now_s) :
    ((sec.events c).filter pumpOrEnd).length = 1 := by
  have he : decide (s.manual ≠ .None ∧ s.manual_until_s ≤ sec.now_s) = true := decide_eq_true ⟨hm, ht⟩
  rw [pumpOrEnd_eq h, decision_result, he]
  unfold pumpEvents
  split <;> simp

include h in
theorem exec_ends (hf : Faithful c) (e : Event) (he : e ∈ sec.events c) (ht : e.type = .EV_MANUAL_END) :
    e.detail = "expired" := by
  have hmem : e ∈ (sec.events c).filter pumpOrEnd := List.mem_filter.mpr ⟨he, by simp [pumpOrEnd, ht]⟩
  by_cases hd : s.manual = .Stop ∧ s.overheat = true
  · obtain ⟨e', hev, htype, -⟩ := dropped_event h hf hd.1 hd.2
    rw [hev, List.mem_singleton] at hmem
    rw [hmem, htype] at ht
    cases ht
  · have hn : decide (s.manual = .Stop ∧ s.overheat = true ∧ sec.now_s < s.manual_until_s) = false :=
      decide_eq_false fun hn => hd ⟨hn.1, hn.2.1⟩
    rw [pumpOrEnd_eq h, decision_result, hn] at hmem
    unfold pumpEvents at hmem
    split at hmem
    · rw [List.mem_singleton] at hmem
      rw [hmem] at ht
      cases ht
    · split at hmem
      · rw [List.mem_singleton] at hmem
        have hx : snprintf DETAIL_SIZE "expired" = "expired" := by decide
        rw [hmem]
        exact hx
      · cases hmem

end Published

/-! ## Every run -/

theorem faithful_exec (c : Control) (sec : Section) (hf : Faithful c) : Faithful (sec.exec c) := by
  cases h : sec.seen c with
  | none => rwa [exec_refused h]
  | some s =>
    exact {
      relay := exec_relay h hf.relay
      pump := by
        rw [published_eq h, logOf_append, log_pump h]
        exact tracks_change hf.pump _
      starts := by
        rw [exec_starts h, published_eq h, logOf_append, List.count_append, UInt32.ofNat_add, hf.starts]
      overheat := by
        rw [published_eq h, logOf_append, log_overheat h]
        exact tracks_change hf.overheat _
      sensor := by
        rw [published_eq h, logOf_append, log_sensor h]
        exact tracks_change hf.sensor _
      stop := exec_stop h
      ends := by
        intro e he ht
        rw [published_eq h, List.mem_append] at he
        rcases he with he | he
        · exact hf.ends e he ht
        · exact exec_ends h hf e he ht }

theorem faithful_run (boot : Int) (h : List Section) : Faithful (controlAfter boot h) := by
  apply run_invariant (C := fun _ _ => True) (faithful_start boot)
  · intro h sec hf _
    exact faithful_exec _ sec hf
  · exact fun _ _ _ => trivial

/-- After every run the published events, the start counter and the relay agree with the state. The
next section reports an expired override once, and a stop dropped by overheat as a pump event. -/
theorem account_is_faithful (boot : Int) (h : List Section) :
    Faithful (controlAfter boot h) ∧
      ∀ (sec : Section) (s : CtlState), sec.seen (controlAfter boot h) = some s →
        (s.manual ≠ .None → s.manual_until_s ≤ sec.now_s →
          ((sec.events (controlAfter boot h)).filter pumpOrEnd).length = 1) ∧
        (s.manual = .Stop → s.overheat = true → sec.now_s < s.manual_until_s →
          ∃ e, (sec.events (controlAfter boot h)).filter pumpOrEnd = [e] ∧
            e.type = .EV_PUMP ∧ e.on = true ∧ e.reason = .Overheat ∧ e.prev_reason = .ManualOff) := by
  have hf := faithful_run boot h
  exact ⟨hf, fun sec s hs => ⟨expired_event hs, fun hm ho _ => dropped_event hs hf hm ho⟩⟩

end FloorHeating.Account
