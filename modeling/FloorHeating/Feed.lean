import FloorHeating.Documents
import FloorHeating.Spec.Feed

/-!
# No switch of the pump goes untold

What one lock section publishes, then the whole log. The ring has the end of
the log, so the page's list agrees with the flags.
-/

open FloorHeating.Lib FloorHeating.Control FloorHeating.Account FloorHeating.Priority
  FloorHeating.MachineRun FloorHeating.Documents

namespace FloorHeating.Feed

/-! ## The events of a section -/

theorem choose_runs (s : CtlState) : (choose s).1 = (choose s).2.runs := by
  unfold choose
  repeat' split
  all_goals rfl

theorem choose_reason_sensor {s : CtlState} (h : (choose s).2 = .SensorFail) : s.sensor_failed = true := by
  by_contra hf
  simp only [choose, hf, if_false] at h
  repeat' split at h
  all_goals cases h

section Events

variable {c : Control} {sec : Section} {s : CtlState} (h : sec.seen c = some s)

theorem flag_events (c : Control) (now : Int) (r : CtlResult) :
    ∀ e ∈ sensorEvents c now r ++ overheatEvents c now r, e.type ≠ .EV_PUMP := by
  intro e he
  unfold sensorEvents overheatEvents make_event at he
  rw [List.mem_append] at he
  rcases he with he | he
  all_goals
    split at he
    · rw [List.mem_singleton] at he
      subst he
      simp
    · simp at he

theorem pumpEvents_length (c : Control) (now : Int) (r : CtlResult) (detail : Option String) :
    (pumpEvents c now r detail).length ≤ 1 := by
  unfold pumpEvents
  split
  · simp
  · split <;> simp

include h

theorem pump_last {pre : List Event} {e : Event} (hp : pre ++ [e] <+: sec.events c) (ht : e.type = .EV_PUMP) :
    pre ++ [e] = sec.events c := by
  apply hp.eq_of_length_le
  obtain ⟨rest, hrest⟩ := hp
  rw [events_eq h] at hrest ⊢
  unfold sectionEvents at hrest ⊢
  generalize hflags : sensorEvents _ _ _ ++ overheatEvents _ _ _ = flags at hrest ⊢
  have hpump := pumpEvents_length { c with s_state := (decisionOf c sec s).1 } sec.now_s (decisionOf c sec s).2
    (detailOf sec)
  have hlate : flags.length ≤ pre.length := by
    by_contra hlt
    rw [not_le] at hlt
    have hget := congrArg (·[pre.length]?) hrest
    simp only [List.append_assoc, List.getElem?_append_right (le_refl _), List.getElem?_append_left hlt,
      Nat.sub_self, List.cons_append, List.getElem?_cons_zero] at hget
    have hmem : e ∈ flags := List.mem_of_getElem? hget.symm
    rw [← hflags] at hmem
    exact flag_events _ _ _ e hmem ht
  simp only [List.length_append, List.length_singleton]
  omega

theorem pump_event {e : Event} (he : e ∈ sec.events c) (ht : e.type = .EV_PUMP) :
    e.on = (sec.exec c).s_state.on ∧ e.reason = (sec.exec c).s_state.reason ∧ e.prev_reason = c.s_state.reason ∧
      (sec.exec c).s_state.on ≠ c.s_state.on := by
  have hmem : e ∈ (sec.events c).filter pumpOrEnd := List.mem_filter.mpr ⟨he, by simp [pumpOrEnd, ht]⟩
  rw [pumpOrEnd_eq h, decision_result] at hmem
  rw [exec_s_state h, ← (seen_frame h).1, ← (seen_frame h).2]
  unfold pumpEvents at hmem
  split at hmem
  · rename_i hchanged
    rw [List.mem_singleton] at hmem
    subst hmem
    exact ⟨rfl, rfl, rfl, of_decide_eq_true hchanged⟩
  · split at hmem
    · rw [List.mem_singleton] at hmem
      subst hmem
      cases ht
    · cases hmem

end Events

theorem logOf_snoc (kind : EventType) (l : List Event) (e : Event) :
    logOf kind (l ++ [e]) = if e.type = kind then logOf kind l ++ [e.on] else logOf kind l := by
  rw [logOf_append]
  split <;> rename_i ht <;> simp [logOf, ht]

/-! ## Notifications -/

section Notices

variable (snprintf : Nat → String → String)

theorem notify_alert {kind : EventType} (hkind : kind = .EV_OVERHEAT ∨ kind = .EV_SENSOR) {e : Event}
    (ht : e.type = kind) :
    if e.on then ∃ line, notify snprintf e = some (.esp_loge line)
    else ∃ msg, notify snprintf e = some (.hi_notify_error msg) := by
  unfold notify
  rcases hkind with rfl | rfl
  all_goals
    rw [ht]
    cases e.on <;> exact ⟨_, rfl⟩

theorem alerted_of_log {kind : EventType} (hkind : kind = .EV_OVERHEAT ∨ kind = .EV_SENSOR) {l : List Event}
    (hl : (logOf kind l).getLast? = some true) : Alerted snprintf kind l := by
  induction l using List.reverseRecOn with
  | nil => cases hl
  | append_singleton l e ih =>
    unfold Alerted at *
    rw [logOf_snoc] at hl
    rw [since_snoc]
    by_cases ht : e.type = kind
    · rw [if_pos ht, List.getLast?_concat] at hl
      have halert := notify_alert snprintf hkind ht
      rw [if_pos (Option.some.inj hl)] at halert
      exact Or.inl ⟨ht, halert⟩
    · rw [if_neg ht] at hl
      exact Or.inr ⟨fun hstop => ht hstop.1, ih hl⟩

theorem notify_pump_cases {e : Event} (ht : e.type = .EV_PUMP) (hon : e.on = e.reason.runs) :
    (∃ title msg prio tags, notify snprintf e = some (.hi_notify_event_ex title msg prio tags) ∧
        (tags = "zzz" ↔ e.on = false)) ∨
      (e.on = true ∧ e.reason = .Overheat) ∨ (e.on = true ∧ e.reason = .SensorFail) ∨
      (e.on = false ∧ e.prev_reason = .Maintenance) := by
  unfold notify notify_pump
  rw [ht]
  cases hr : e.reason with
  | AutoCold =>
    rw [hr] at hon
    by_cases hp : e.prev_reason = .Maintenance
    · exact Or.inr (Or.inr (Or.inr ⟨hon, hp⟩))
    · refine Or.inl ?_
      simp only [if_neg hp]
      exact ⟨_, _, _, _, rfl, iff_of_true rfl hon⟩
  | AutoHot =>
    rw [hr] at hon
    exact Or.inl ⟨_, _, _, _, rfl, iff_of_false (by decide) (by rw [hon]; decide)⟩
  | ManualOn =>
    rw [hr] at hon
    refine Or.inl ⟨_, _, _, _, rfl, ?_⟩
    rw [hon]
    decide
  | ManualOff =>
    rw [hr] at hon
    refine Or.inl ⟨_, _, _, _, rfl, ?_⟩
    rw [hon]
    decide
  | Maintenance =>
    rw [hr] at hon
    exact Or.inl ⟨_, _, _, _, rfl, iff_of_false (by decide) (by rw [hon]; decide)⟩
  | SensorFail =>
    rw [hr] at hon
    exact Or.inr (Or.inr (Or.inl ⟨hon, rfl⟩))
  | Overheat =>
    rw [hr] at hon
    exact Or.inr (Or.inl ⟨hon, rfl⟩)

/-- The flag of an alert that was sent is up. -/
theorem alerted_flag {kind : EventType} (hkind : kind = .EV_OVERHEAT ∨ kind = .EV_SENSOR) {l : List Event} {e : Event}
    (ht : e.type = .EV_PUMP) (htracks : Tracks (logOf kind (l ++ [e])) true) : Alerted snprintf kind l := by
  have hne : ¬ e.type = kind := by
    rw [ht]
    rcases hkind with rfl | rfl <;> decide
  rw [logOf_snoc, if_neg hne] at htracks
  refine alerted_of_log snprintf hkind ?_
  have hlast := htracks.2
  cases hl : (logOf kind l).getLast? with
  | none => simp [hl] at hlast
  | some b => simpa [hl] using hlast

theorem told_exec {c : Control} {sec : Section} (htold : Along (SwitchTold snprintf) c.published)
    (hf : Faithful (sec.exec c))
    (hsettled : choose (sec.exec c).s_state = ((sec.exec c).s_state.on, (sec.exec c).s_state.reason)) :
    Along (SwitchTold snprintf) (sec.exec c).published := by
  cases h : sec.seen c with
  | none => rwa [exec_refused h]
  | some s =>
    rw [published_eq h, along_append]
    refine ⟨htold, fun pre e hp ht => ?_⟩
    obtain ⟨hon, hreason, -, -⟩ := pump_event h (hp.subset (by simp)) ht
    have hruns : e.on = e.reason.runs := by
      have hchoose := choose_runs (sec.exec c).s_state
      rwa [hsettled, ← hon, ← hreason] at hchoose
    have hwhole : (sec.exec c).published = (c.published ++ pre) ++ [e] := by
      rw [published_eq h, ← pump_last h hp ht, List.append_assoc]
    have hchoice : (choose (sec.exec c).s_state).2 = e.reason := by rw [hsettled, hreason]
    rcases notify_pump_cases snprintf ht hruns with ⟨title, msg, prio, tags, hsent, hsleeps⟩ | hforced | hforced | hover
    · exact .notice title msg prio tags hsent hsleeps
    · have hflag := choose_reason_overheat (hchoice.trans hforced.2)
      have htracks := hf.overheat
      rw [hflag, hwhole] at htracks
      exact .overheat hforced (alerted_flag snprintf (Or.inl rfl) ht htracks)
    · have hflag := choose_reason_sensor (hchoice.trans hforced.2)
      have htracks := hf.sensor
      rw [hflag, hwhole] at htracks
      exact .sensor hforced (alerted_flag snprintf (Or.inr rfl) ht htracks)
    · exact .maintenance hover

end Notices

theorem told_run (snprintf : Nat → String → String) (boot : Int) (h : List Section) :
    Along (SwitchTold snprintf) (controlAfter boot h).published := by
  induction h using List.reverseRecOn with
  | nil => exact along_nil _
  | append_singleton h sec ih =>
    have hstep : controlAfter boot (h ++ [sec]) = sec.exec (controlAfter boot h) := run_snoc ..
    have hf := faithful_run boot (h ++ [sec])
    have hsettled := settled_eq boot (h ++ [sec])
    rw [hstep] at hf hsettled ⊢
    exact told_exec snprintf ih hf hsettled

/-- Whatever the interleaving, every switch of the pump since boot was told: by a notification that
says which way it went, or by an alert that no all-clear has ended. Only the end of a maintenance run
is not told. -/
theorem every_switch_told (snprintf : Nat → String → String) (nvs : Nvs) (ring : EventRing) (boot : Int)
    (h : List Move) : Along (SwitchTold snprintf) (machineAfter nvs ring boot h).task.control.published := by
  obtain ⟨boot', secs, -, hc⟩ := reached_run nvs ring boot h
  rw [hc]
  exact told_run snprintf boot' secs

/-! ## The list on the page -/

def shown (events_unix_time : Int → Int) (e : Event) : App.Event where
  ts := events_unix_time e.mono_s
  type := type_name e.type
  on := e.on
  reason := ctl_reason_name e.reason
  prev_reason := ctl_reason_name e.prev_reason
  temp_c := if e.has_temp then some (celsius e.temp_x10) else none
  detail := e.detail

theorem event_read (events_unix_time : Int → Int) (e : Event) :
    App.Event.read (event_json events_unix_time e) = some (shown events_unix_time e) := by
  cases ht : e.has_temp <;> simp [shown, App.Event.read, event_json, Json.item, ht, App.asNumber, App.asText,
    App.asBool, App.asOptional]

/-- The pump event of every section, whatever the section is. -/
theorem pump_sound (boot : Int) (h : List Section) :
    ∀ e ∈ (controlAfter boot h).published, e.type = .EV_PUMP →
      e.on = e.reason.runs ∧ e.prev_reason.runs = !e.on := by
  induction h using List.reverseRecOn with
  | nil => simp [controlAfter, run, control_start]
  | append_singleton h sec ih =>
    intro e he ht
    have hstep : controlAfter boot (h ++ [sec]) = sec.exec (controlAfter boot h) := run_snoc ..
    have hbefore := settled_eq boot h
    have hafter := settled_eq boot (h ++ [sec])
    rw [hstep] at he hafter
    cases hs : sec.seen (controlAfter boot h) with
    | none =>
      rw [exec_refused hs] at he
      exact ih e he ht
    | some s =>
      rw [published_eq hs, List.mem_append] at he
      rcases he with he | he
      · exact ih e he ht
      · obtain ⟨hon, hreason, hprev, hswitch⟩ := pump_event hs he ht
        have hruns := choose_runs (sec.exec (controlAfter boot h)).s_state
        have hran := choose_runs (controlAfter boot h).s_state
        rw [hafter] at hruns
        rw [hbefore] at hran
        dsimp only at hruns hran
        rw [hon, hreason, hprev, ← hran, ← hruns]
        exact ⟨rfl, Bool.eq_not.mpr hswitch.symm⟩

theorem pumpItem_running (item : App.Item) (by_ : String) {e : App.Event} {reason : CtlReason}
    (hon : e.on = true) (hreason : e.reason = ctl_reason_name reason) (hruns : reason.runs = true) :
    (App.pumpItem item by_ e).what ∈ runningTexts ∧ (App.pumpItem item by_ e).amt = "on" := by
  unfold App.pumpItem
  rw [hon, hreason]
  cases reason with
  | AutoCold | ManualOff => cases hruns
  | AutoHot | ManualOn | Maintenance | SensorFail | Overheat => exact ⟨by simp [ctl_reason_name, runningTexts], rfl⟩

theorem pumpItem_stopped (item : App.Item) (by_ : String) {e : App.Event} {reason prev_reason : CtlReason}
    (hoff : e.on = false) (hreason : e.reason = ctl_reason_name reason) (hruns : reason.runs = false)
    (hprev : e.prev_reason = ctl_reason_name prev_reason) (hran : prev_reason.runs = true) :
    (App.pumpItem item by_ e).what ∈ stoppedTexts ∧ (App.pumpItem item by_ e).amt = "off" := by
  unfold App.pumpItem
  rw [hoff, hreason, hprev]
  cases reason with
  | AutoHot | ManualOn | Maintenance | SensorFail | Overheat => cases hruns
  | ManualOff => exact ⟨by simp [ctl_reason_name, stoppedTexts], rfl⟩
  | AutoCold =>
    cases prev_reason with
    | AutoCold | ManualOff => cases hran
    | AutoHot | ManualOn | Maintenance | SensorFail | Overheat =>
      exact ⟨by simp [ctl_reason_name, stoppedTexts], rfl⟩

theorem event_truthful (events_unix_time : Int → Int) {e : Event}
    (hpump : e.type = .EV_PUMP → e.on = e.reason.runs ∧ e.prev_reason.runs = !e.on)
    (hend : e.type = .EV_MANUAL_END → e.detail = "expired") :
    Truthful e (App.eventItem (shown events_unix_time e)) where
  running ht hon := by
    obtain ⟨hruns, -⟩ := hpump ht
    have hpumped : (shown events_unix_time e).type = "pump" := by rw [shown, ht]; rfl
    unfold App.eventItem
    rw [if_pos hpumped]
    exact pumpItem_running _ _ hon rfl (hruns ▸ hon)
  stopped ht hoff := by
    obtain ⟨hruns, hran⟩ := hpump ht
    have hpumped : (shown events_unix_time e).type = "pump" := by rw [shown, ht]; rfl
    unfold App.eventItem
    rw [if_pos hpumped]
    rw [hoff] at hruns hran
    exact pumpItem_stopped _ _ hoff rfl hruns.symm rfl hran
  overheat ht := by
    unfold App.eventItem shown
    rw [ht]
    rfl
  sensor ht := by
    unfold App.eventItem shown
    rw [ht]
    rfl
  ended ht := by
    unfold App.eventItem shown
    rw [ht, hend ht]
    rfl

/-! ### The newest of each kind -/

theorem find_newest (kind : EventType) (l : List Event) :
    (l.reverse.find? (·.type = kind)).map (·.on) = (logOf kind l).getLast? := by
  unfold logOf
  rw [List.getLast?_map, List.getLast?_eq_head?_reverse, ← List.filter_reverse, List.head?_filter]

theorem tells_of_tracks {kind : EventType} {l : List Event} {flag : Bool} (ht : Tracks (logOf kind l) flag) :
    Tells (l.reverse.take 50) kind flag := by
  have hlast := ht.2
  rw [← find_newest] at hlast
  have hsplit : l.reverse = l.reverse.take 50 ++ l.reverse.drop 50 := (List.take_append_drop 50 _).symm
  unfold Tells
  split
  · rename_i e he
    rw [hsplit, List.find?_append, he] at hlast
    exact hlast
  · rename_i hnone
    intro hshort
    have hall : l.reverse.take 50 = l.reverse := by
      rw [List.length_take] at hshort
      exact List.take_of_length_le (by omega)
    rw [← hall, hnone] at hlast
    exact hlast.symm

/-- Whatever the interleaving: each event that `/api/events` lists is shown on the page as what it was,
and the newest of each kind agrees with the controller, unless that is just about to publish. -/
theorem feed_tells_the_state (nvs : Nvs) (ring : EventRing) (boot : Int) (h : List Move)
    (events_unix_time : Int → Int) :
    let m := machineAfter nvs ring boot h
    let log := m.ring.events_recent EVENTS_RING_SIZE
    events_handler events_unix_time m.ring = .obj [("events", .arr (log.map (event_json events_unix_time)))] ∧
      (∀ e ∈ log, ∃ shown, App.Event.read (event_json events_unix_time e) = some shown ∧
        Truthful e (App.eventItem shown)) ∧
      (m.pending = [] → Tells log .EV_PUMP m.task.control.s_state.on ∧
        Tells log .EV_OVERHEAT m.task.control.s_state.overheat ∧
        Tells log .EV_SENSOR m.task.control.s_state.sensor_failed) := by
  obtain ⟨turns, hr⟩ := refines_sane nvs ring boot h
  obtain ⟨r, hring⟩ := hr.ring
  obtain ⟨boot', secs, -, hc⟩ := refines_reached hr
  have hf := faithful_run boot' secs
  have hsound := pump_sound boot' secs
  rw [← hc] at hf hsound
  have hlog := Events.newest_events r (machineAfter nvs ring boot h).log EVENTS_RING_SIZE
  have hhandler := Events.handler_newest events_unix_time r (machineAfter nvs ring boot h).log
  rw [← hring] at hlog hhandler
  dsimp only
  rw [hlog]
  have hmin : min 50 EVENTS_RING_SIZE.toNat = 50 := rfl
  rw [hmin]
  refine ⟨hhandler, fun e he => ?_, fun hidle => ?_⟩
  · have hmem := List.mem_of_mem_take (List.mem_reverse.mp (List.mem_of_mem_take he))
    exact ⟨_, event_read events_unix_time e, event_truthful events_unix_time (hsound e hmem) (hf.ends e hmem)⟩
  · rw [log_idle hidle]
    exact ⟨tells_of_tracks hf.pump, tells_of_tracks hf.overheat, tells_of_tracks hf.sensor⟩

end FloorHeating.Feed
