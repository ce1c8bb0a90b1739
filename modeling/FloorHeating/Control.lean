import FloorHeating.Code.Control
import FloorHeating.Priority
import FloorHeating.Spec.Sections

/-!
# What a lock section does, field by field

`decide_locked` in one equation, then the two functions that call it. Both
make exactly the calls of a `Step`, so what `Priority.lean` shows of histories
holds of the firmware's state.
-/

open FloorHeating.Lib FloorHeating.Priority

namespace FloorHeating.Control

/-! ## `count_runtime_locked` -/

def newDay (c : Control) (date : LocalDate) : Bool :=
  decide (date.synced = true ∧ 0 ≤ c.s_today_yday ∧ (date.tm_yday : Int) ≠ c.s_today_yday)

def ydayAfter (c : Control) (date : LocalDate) : Int :=
  if date.synced then date.tm_yday else c.s_today_yday

def ticked (c : Control) (now : Int) : UInt32 :=
  if c.s_state.on ∧ 0 < c.s_last_tick_s then UInt32.ofInt (now - c.s_last_tick_s) else 0

theorem update_today_eq (c : Control) (date : LocalDate) :
    update_today c date =
      { c with
        s_today_yday := ydayAfter c date
        s_runtime_today_s := if newDay c date then 0 else c.s_runtime_today_s
        s_starts_today := if newDay c date then 0 else c.s_starts_today } := by
  obtain ⟨synced, yday⟩ := date
  obtain ⟨_, _, _, today, _, _, _, _, _, _⟩ := c
  unfold update_today newDay ydayAfter
  cases synced with
  | false => simp
  | true =>
    by_cases hd : (yday : Int) = today
    · simp [hd]
    · by_cases h0 : 0 ≤ today <;> simp [hd, h0]

theorem count_runtime_locked_eq (c : Control) (date : LocalDate) (now : Int) :
    count_runtime_locked c date now =
      { c with
        s_last_tick_s := now
        s_today_yday := ydayAfter c date
        s_runtime_today_s := (if newDay c date then 0 else c.s_runtime_today_s) + ticked c now
        s_starts_today := if newDay c date then 0 else c.s_starts_today
        s_runtime_boot_s := c.s_runtime_boot_s + ticked c now } := by
  unfold count_runtime_locked ticked
  rw [update_today_eq]
  by_cases h : c.s_state.on = true ∧ 0 < c.s_last_tick_s <;> simp [h]

/-! ## `decide_locked` -/

def started (s : CtlState) (r : CtlResult) : UInt32 := if r.changed && s.on then 1 else 0

theorem switch_pump_eq (c : Control) (r : CtlResult) :
    switch_pump c r =
      { c with
        relay := if r.changed then c.s_state.on else c.relay
        s_starts_today := c.s_starts_today + started c.s_state r
        s_starts_boot := c.s_starts_boot + started c.s_state r } := by
  unfold switch_pump started pump_set
  cases hc : r.changed <;> cases ho : c.s_state.on <;> simp [ho]

def sensorEvents (c : Control) (now : Int) (r : CtlResult) : List Event :=
  if r.sensor_failed ∨ r.sensor_recovered then [{ make_event c .EV_SENSOR now with on := r.sensor_failed }]
  else []

def overheatEvents (c : Control) (now : Int) (r : CtlResult) : List Event :=
  if r.overheat_started ∨ r.overheat_ended then
    [{ make_event c .EV_OVERHEAT now with on := r.overheat_started }]
  else []

def pumpEvents (c : Control) (now : Int) (r : CtlResult) (detail : Option String) : List Event :=
  if r.changed then
    [{ make_event c .EV_PUMP now with
        prev_reason := r.prev_reason
        detail := (detail.map (snprintf DETAIL_SIZE)).getD "" }]
  else if r.manual_expired ∨ r.manual_cancelled then
    [{ make_event c .EV_MANUAL_END now with
        prev_reason := r.prev_reason
        detail := snprintf DETAIL_SIZE (if r.manual_cancelled then "overheat" else "expired") }]
  else []

def sectionEvents (c : Control) (now : Int) (r : CtlResult) (detail : Option String) : List Event :=
  sensorEvents c now r ++ overheatEvents c now r ++ pumpEvents c now r detail

theorem publish_changes_eq (c : Control) (now : Int) (r : CtlResult) (detail : Option String) :
    publish_changes c now r detail =
      { c with published := c.published ++ sectionEvents c now r detail } := by
  have hs : (if r.sensor_failed ∨ r.sensor_recovered then
        events_publish c { make_event c .EV_SENSOR now with on := r.sensor_failed } else c) =
      { c with published := c.published ++ sensorEvents c now r } := by
    unfold sensorEvents events_publish
    split <;> simp
  have ho : ∀ c : Control, (if r.overheat_started ∨ r.overheat_ended then
        events_publish c { make_event c .EV_OVERHEAT now with on := r.overheat_started } else c) =
      { c with published := c.published ++ overheatEvents c now r } := by
    intro c
    unfold overheatEvents events_publish
    split <;> simp
  unfold publish_changes sectionEvents
  rw [hs]
  simp only [ho]
  unfold pumpEvents events_publish
  split
  · simp [make_event, overheatEvents]
  · split <;> simp [make_event, overheatEvents]

section Decide

variable (c : Control) (settings : Settings) (date : LocalDate) (now : Int) (r : CtlResult)
  (detail : Option String)

def decision : CtlState × CtlResult := ctl_decide c.s_state (config_from_settings settings) now r

theorem decide_locked_eq :
    decide_locked c settings date now r detail =
      let d := decision c settings now r
      { c with
        s_state := d.1
        s_last_tick_s := now
        s_today_yday := ydayAfter c date
        s_runtime_today_s := (if newDay c date then 0 else c.s_runtime_today_s) + ticked c now
        s_starts_today := (if newDay c date then 0 else c.s_starts_today) + started d.1 d.2
        s_runtime_boot_s := c.s_runtime_boot_s + ticked c now
        s_starts_boot := c.s_starts_boot + started d.1 d.2
        relay := if d.2.changed then d.1.on else c.relay
        published := c.published ++ sectionEvents { c with s_state := d.1 } now d.2 detail } := by
  unfold decide_locked
  rw [count_runtime_locked_eq]
  simp only [switch_pump_eq, publish_changes_eq]
  rfl

end Decide

theorem clamp_duration_toNat (d : UInt32) : (clamp_duration d).toNat = max 60 (min d.toNat 43200) := by
  have hmin : MANUAL_MIN_S.toNat = 60 := rfl
  have hmax : MANUAL_MAX_S.toNat = 43200 := rfl
  unfold clamp_duration
  by_cases hlow : d < MANUAL_MIN_S
  · have hsane : ¬ MANUAL_MAX_S < MANUAL_MIN_S := by decide
    rw [if_pos hlow]
    rw [UInt32.lt_iff_toNat_lt] at hlow
    simp only [if_neg hsane]
    omega
  · rw [if_neg hlow]
    rw [UInt32.lt_iff_toNat_lt] at hlow
    simp only
    split
    · rename_i hhigh
      rw [UInt32.lt_iff_toNat_lt] at hhigh
      omega
    · rename_i hhigh
      rw [UInt32.lt_iff_toNat_lt] at hhigh
      omega

/-! ## Sections -/

def settingsOf : Section → Settings
  | .task _ settings _ _ _ => settings
  | .command settings .. => settings

def dateOf : Section → LocalDate
  | .task _ _ date _ _ => date
  | .command _ date .. => date

def sensed (c : Control) : Section → CtlResult
  | .task for_sensor _ _ now (some reading) =>
    (ctl_sensor c.s_state (config_from_settings for_sensor) now reading.isSome (reading.getD 0) {}).2
  | _ => {}

def detailOf : Section → Option String
  | .task .. => none
  | .command _ _ _ m d who => some (manual_detail m (clamp_duration d) who)

def decided (c : Control) (sec : Section) (s : CtlState) : Control :=
  decide_locked { c with s_state := s } (settingsOf sec) (dateOf sec) sec.now_s (sensed c sec) (detailOf sec)

theorem seen_none {c : Control} {sec : Section} (h : sec.seen c = none) :
    ∃ st date now m d who, sec = .command st date now m d who ∧
      ctl_manual c.s_state m (clamp_duration d) now = none := by
  cases sec with
  | task fs st date now read => cases read <;> cases h
  | command st date now m d who => exact ⟨st, date, now, m, d, who, rfl, h⟩

theorem exec_refused {c : Control} {sec : Section} (h : sec.seen c = none) : sec.exec c = c := by
  obtain ⟨st, date, now, m, d, who, rfl, hm⟩ := seen_none h
  unfold Section.exec control_manual
  simp only [hm]

theorem exec_decided {c : Control} {sec : Section} {s : CtlState} (h : sec.seen c = some s) :
    ∃ relay heartbeat,
      sec.exec c = { decided c sec s with relay := relay, s_heartbeat_s := heartbeat } ∧
        (relay = (decided c sec s).relay ∨ relay = (decided c sec s).s_state.on) := by
  cases sec with
  | task fs st date now read =>
    have he : (Section.task fs st date now read).exec c =
        { (if (decided c (.task fs st date now read) s).relay ≠ (decided c (.task fs st date now read) s).s_state.on
            then pump_set (decided c (.task fs st date now read) s)
              (decided c (.task fs st date now read) s).s_state.on
            else decided c (.task fs st date now read) s) with s_heartbeat_s := now } := by
      cases read <;> (simp only [Section.seen, Option.some.injEq] at h; subst h; rfl)
    rw [he]
    generalize decided c (.task fs st date now read) s = r
    split
    · exact ⟨_, _, rfl, Or.inr rfl⟩
    · exact ⟨_, _, rfl, Or.inl rfl⟩
  | command st date now m d who =>
    simp only [Section.seen] at h
    have he : (Section.command st date now m d who).exec c = decided c (.command st date now m d who) s := by
      simp only [Section.exec, control_manual, h, decided, settingsOf, dateOf, sensed, detailOf, Section.now_s]
    rw [he]
    exact ⟨_, _, rfl, Or.inl rfl⟩

/-- Neither a read nor a command switches the pump; only the decision does. -/
theorem seen_frame {c : Control} {sec : Section} {s : CtlState} (h : sec.seen c = some s) :
    s.on = c.s_state.on ∧ s.reason = c.s_state.reason := by
  cases sec with
  | task fs st date now read =>
    cases read with
    | none => cases h; exact ⟨rfl, rfl⟩
    | some reading =>
      cases h
      exact ⟨ctl_sensor_on .., ctl_sensor_reason ..⟩
  | command st date now m d who =>
    obtain ⟨-, rfl⟩ := ctl_manual_accepted h
    exact ⟨rfl, rfl⟩

def decisionOf (c : Control) (sec : Section) (s : CtlState) : CtlState × CtlResult :=
  ctl_decide s (config_from_settings (settingsOf sec)) sec.now_s (sensed c sec)

theorem exec_s_state {c : Control} {sec : Section} {s : CtlState} (h : sec.seen c = some s) :
    (sec.exec c).s_state = (decisionOf c sec s).1 := by
  obtain ⟨_, _, he, -⟩ := exec_decided h
  rw [he]
  simp only [decided, decide_locked_eq]
  rfl

theorem exec_counters {c : Control} {sec : Section} {s : CtlState} (h : sec.seen c = some s) :
    (sec.exec c).s_last_tick_s = sec.now_s ∧
      (sec.exec c).s_runtime_boot_s = c.s_runtime_boot_s + ticked c sec.now_s ∧
      (sec.exec c).s_runtime_today_s =
        (if newDay c (dateOf sec) then 0 else c.s_runtime_today_s) + ticked c sec.now_s := by
  have hon : ticked { c with s_state := s } sec.now_s = ticked c sec.now_s := by
    simp only [ticked, (seen_frame h).1]
  obtain ⟨_, _, he, -⟩ := exec_decided h
  rw [he]
  simp only [decided, decide_locked_eq, hon]
  exact ⟨trivial, trivial, rfl⟩

theorem exec_start_counters {c : Control} {sec : Section} {s : CtlState} (h : sec.seen c = some s) :
    (sec.exec c).s_starts_boot =
        c.s_starts_boot + started (decisionOf c sec s).1 (decisionOf c sec s).2 ∧
      (sec.exec c).s_starts_today = (if newDay c (dateOf sec) then 0 else c.s_starts_today) +
        started (decisionOf c sec s).1 (decisionOf c sec s).2 := by
  obtain ⟨_, _, he, -⟩ := exec_decided h
  rw [he]
  simp only [decided, decide_locked_eq]
  exact ⟨rfl, rfl⟩

/-! ## The firmware runs the control logic step by step -/

theorem exec_step (c : Control) (sec : Section) :
    (sec.exec c).s_state = run Call.apply c.s_state (sec.step.calls c.s_state) := by
  cases hs : sec.seen c with
  | none =>
    rw [exec_refused hs]
    obtain ⟨st, date, now, m, d, who, rfl, hm⟩ := seen_none hs
    simp [Section.step, Step.calls, run, Call.apply, hm]
  | some s =>
    rw [exec_s_state hs]
    unfold decisionOf
    rw [ctl_decide_state]
    cases sec with
    | task fs st date now read => cases read <;> (cases hs; rfl)
    | command st date now m d who =>
      simp only [Section.seen] at hs
      simp [Section.step, Step.calls, run, Call.apply, hs, settingsOf, Section.now_s]

/-- The state in `control.c` is the state of the control logic after the same calls. -/
theorem s_state_eq (boot : Int) (h : List Section) :
    (controlAfter boot h).s_state = after boot (history boot (h.map Section.step)) := by
  induction h using List.reverseRecOn with
  | nil => rfl
  | append_singleton h sec ih =>
    rw [List.map_append, List.map_singleton, history_snoc]
    unfold controlAfter after at *
    rw [run_snoc, run_append, exec_step, ih]

/-- Between two sections the pump is what the table of priorities says. -/
theorem settled_eq (boot : Int) (secs : List Section) :
    choose (controlAfter boot secs).s_state =
      ((controlAfter boot secs).s_state.on, (controlAfter boot secs).s_state.reason) := by
  rw [s_state_eq]
  exact history_settled boot _

/-- Three failed reads in a row are the fail-safe, nothing else is. -/
theorem failed_eq (boot : Int) (secs : List Section) :
    (controlAfter boot secs).s_state.sensor_failed =
      decide (3 ≤ (controlAfter boot secs).s_state.failures.toNat) := by
  have hlimit := history_failReads boot 3 (secs.map Section.step) fun st hst => by
    obtain ⟨sec, -, rfl⟩ := List.mem_map.mp hst
    rcases sec with ⟨fs, st, date, now, - | read⟩ | ⟨st, date, now, m, d, who⟩
    · trivial
    · rfl
    · trivial
  rw [s_state_eq]
  have hfailed := sensor_failed_iff boot 3 _ hlimit
  have hcount := failures_eq boot (history boot (secs.map Section.step))
  have h3 : (3 : UInt8).toNat = 3 := rfl
  rw [Bool.eq_iff_iff, hfailed, decide_eq_true_eq, hcount]
  unfold SensorFailed
  omega

end FloorHeating.Control
