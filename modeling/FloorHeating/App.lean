import FloorHeating.Feed
import FloorHeating.Spec.App
import Mathlib.Data.List.Basic

/-!
# The page and the firmware agree

The page has its own order of cases for the headline, its own idea of when a
swipe is possible, and a marker instead of the events. Each fits the firmware.
-/

open FloorHeating.Lib FloorHeating.Control FloorHeating.Account FloorHeating.Priority FloorHeating.MachineRun
  FloorHeating.Documents FloorHeating.Http

namespace FloorHeating.AppPage

/-! ## The status -/

def statusOf (c : Control) (st : Settings) : App.Status where
  on := c.s_state.on
  reason := ctl_reason_name c.s_state.reason
  manual := manual_name c.s_state.manual
  c := if c.s_state.have_temp then some (celsius c.s_state.temp_x10) else none
  sensor_failed := c.s_state.sensor_failed
  overheat := c.s_state.overheat
  starts := c.s_starts_boot.toNat
  start_c := celsius st.start_x10
  stop_c := celsius st.stop_x10
  critical_c := celsius st.critical_x10

theorem status_read (c : Control) (st : Settings) (now : Int) (events_unix_time : Int → Int)
    (system : List (String × Json)) :
    App.Status.read (api_status_json (control_status c now) st events_unix_time system) = some (statusOf c st) := by
  have hstarts : App.asCount (.num ((c.s_starts_boot.toNat : Nat) : Rat)) = some c.s_starts_boot.toNat := by
    simp [App.asCount]
  change ((App.asOptional (if c.s_state.have_temp then .num (celsius c.s_state.temp_x10) else .null)).bind fun temp =>
    (App.asCount (.num ((c.s_starts_boot.toNat : Nat) : Rat))).bind fun starts =>
      some { statusOf c st with c := temp, starts := starts }) = _
  rw [hstarts]
  cases ht : c.s_state.have_temp with
  | true => simp [statusOf, ht, App.asOptional]
  | false => simp [statusOf, ht, App.asOptional]

theorem describes_eq {s : App.Status} {c : Control} {st : Settings} (h : Describes s c st) : s = statusOf c st := by
  obtain ⟨now, events_unix_time, system, hread⟩ := h
  rw [status_read] at hread
  exact (Option.some.inj hread).symm

/-! ## The headline -/

theorem headline_right {c : Control} (st : Settings) (hc : choose c.s_state = (c.s_state.on, c.s_state.reason)) :
    HeadlineRight (statusOf c st) := by
  have hruns := Feed.choose_runs c.s_state
  rw [hc] at hruns
  refine ⟨c.s_state.reason, rfl, hruns, ?_⟩
  have hknown : (statusOf c st).c.isSome = c.s_state.have_temp := by
    unfold statusOf
    dsimp only
    split <;> simp [*]
  rw [hknown]
  -- The firmware's order of cases, one after the other.
  unfold choose at hc
  unfold App.headline statusOf headlineOf
  split_ifs at hc with hoverheat hstart hstop hfailed hhot hmaintenance
  all_goals
    obtain ⟨hon, hreason⟩ := Prod.mk.inj hc
    rw [← hreason, ← hon]
    clear hon hreason hc hruns hknown
    simp [ctl_reason_name, manual_name, *]
  cases c.s_state.have_temp <;> rfl

/-- Whatever the interleaving, the page can read every status document, and its headline is the one for
the reason of the decision. -/
theorem headlines_right (nvs : Nvs) (ring : EventRing) (boot : Int) (h : List Move) :
    ∀ doc ∈ (machineAfter nvs ring boot h).documents, ∃ s, App.Status.read doc = some s ∧ HeadlineRight s := by
  intro doc hdoc
  obtain ⟨c, now, st, events_unix_time, system, hsnap, -, rfl⟩ := (sound_run nvs ring boot h).documents doc hdoc
  exact ⟨statusOf c st, status_read c st now events_unix_time system, headline_right st (reached_settled hsnap.1)⟩

theorem overtaken_reader_headline :
    ∃ doc s, (machineAfter .missing zeroedRing 0 overtakenReader).documents = [doc] ∧ App.Status.read doc = some s ∧
      HeadlineRight s := by
  have hsent : ∃ doc, (machineAfter .missing zeroedRing 0 overtakenReader).documents = [doc] := ⟨_, rfl⟩
  obtain ⟨doc, hdoc⟩ := hsent
  obtain ⟨s, hread, hright⟩ := headlines_right .missing zeroedRing 0 overtakenReader doc (by simp [hdoc])
  exact ⟨doc, s, hdoc, hread, hright⟩

/-! ## The swipe -/

theorem minutes_pos {minutes : Rat} (hm : minutes ∈ App.MINUTES) : 0 < double minutes := by
  have hone : ((1 : Int) : Rat) ≤ double minutes := by
    apply le_double (by decide)
    simp only [App.MINUTES, List.mem_cons, List.not_mem_nil, or_false] at hm
    rcases hm with rfl | rfl | rfl <;> norm_num
  exact lt_of_lt_of_le (by norm_num) hone

theorem fired_order (c : Control) (st : Settings) {minutes : Rat} (hm : minutes ∈ App.MINUTES) :
    ∃ word m, Commands.Order word m ∧ App.fired (statusOf c st) = word ∧ manual_name m = word ∧
      (m = .Stop ↔ c.s_state.on = true) ∧ decide (m = .Start) = !c.s_state.on ∧
      Asks (App.command word minutes) word ∧ Minutes (App.command word minutes) minutes ∧ 0 < double minutes := by
  have hpos := minutes_pos hm
  unfold App.fired statusOf
  cases c.s_state.on with
  | true => exact ⟨"stop", .Stop, Or.inr ⟨rfl, rfl⟩, rfl, rfl, by decide, rfl, rfl, rfl, hpos⟩
  | false => exact ⟨"start", .Start, Or.inl ⟨rfl, rfl⟩, rfl, rfl, by decide, rfl, rfl, rfl, hpos⟩

theorem serve_pump {env : HttpEnv} {f : Firmware} {req : Request} {body : Json}
    (hguard : req.hi_httpd_guard .HI_GUARD_MUTATION = true) (hbody : req.read_json = some body) :
    serve .HTTP_POST "/api/pump" env f req =
      let r := FloorHeating.pump_command env.to_uint32 f.task.control (settings_get f.store) env.date env.now_s body
        req.client_ip
      (f.locked r.1, .reply r.2) := by
  change guarded .HI_GUARD_MUTATION (Http.pump_command Request.client_ip) env f req = _
  unfold guarded Http.pump_command
  rw [if_neg (not_not.mpr hguard), hbody]

/-- A swipe that the page lets through is carried out as shown, in every status before the next pass, and one that it
does not would have been refused. -/
theorem swipe_fits_firmware (nvs : Nvs) (ring : EventRing) (boot : Int) (h : List Move) (env : HttpEnv) {req : Request}
    {minutes : Rat} (hm : minutes ∈ App.MINUTES) {s : App.Status}
    (hs : Describes s (machineAfter nvs ring boot h).task.control (settings_get (machineAfter nvs ring boot h).store))
    (hguard : req.hi_httpd_guard .HI_GUARD_MUTATION = true)
    (hbody : req.read_json = some (App.command (App.fired s) minutes)) :
    let f := (machineAfter nvs ring boot h).toFirmware
    let r := serve .HTTP_POST "/api/pump" env f req
    (App.canStart false (some s) = true → r.2 = .reply .status ∧ r.1.task.control.relay = (!s.on) ∧
        ∀ s' st, Describes s' r.1.task.control st → s'.on = (!s.on) ∧ s'.manual = App.fired s) ∧
      (App.canStart false (some s) = false → r = (f, .reply (.error "409 Conflict" "overheat"))) := by
  obtain ⟨boot', secs, -, hc⟩ := reached_run nvs ring boot h
  obtain rfl := describes_eq hs
  generalize machineAfter nvs ring boot h = m at *
  obtain ⟨word, manual, horder, hfired, hname, hstop, hstart, hasks, hminutes, hpos⟩ :=
    fired_order m.task.control (settings_get m.store) hm
  have hcan : App.canStart false (some (statusOf m.task.control (settings_get m.store))) =
      !(m.task.control.s_state.on && m.task.control.s_state.overheat) := rfl
  rw [hfired] at hbody
  dsimp only
  rw [serve_pump hguard hbody,
    Commands.pump_ordered env.to_uint32 m.task.control _ env.date env.now_s _ req.client_ip horder hasks hminutes hpos,
    hcan, hfired]
  constructor
  · intro hfree
    have hok : ¬ (manual = .Stop ∧ m.task.control.s_state.overheat = true) := by
      rw [hstop]
      rintro ⟨hon, hoverheat⟩
      rw [hon, hoverheat] at hfree
      cases hfree
    have hset : manual ≠ .None := by rcases horder with ⟨-, rfl⟩ | ⟨-, rfl⟩ <;> decide
    have hholds : Holds (control_manual m.task.control (settings_get m.store) env.date env.now_s manual
        (Commands.asked env.to_uint32 minutes) req.client_ip).1.s_state manual _ (decide (manual = .Start)) :=
      Commands.order_holds hset hok
    obtain ⟨hstate, hreply, hrelay⟩ := Commands.answer_ok boot' secs (settings_get m.store) env.date env.now_s
      (Commands.asked env.to_uint32 minutes) req.client_ip (hc ▸ hok)
    rw [← hc] at hstate hreply hrelay
    rw [← hstate] at hholds
    have hon := hholds.pump.trans hstart
    refine ⟨congrArg Response.reply hreply, hrelay.trans hon, fun s' st hs' => ?_⟩
    rw [describes_eq hs']
    exact ⟨hon, (congrArg manual_name hholds.manual).trans hname⟩
  · intro hshut
    have hrefused : manual = .Stop ∧ m.task.control.s_state.overheat = true := by
      rw [hstop]
      simpa using hshut
    rw [Commands.control_manual_refused hrefused]
    exact Prod.ext (locked_same m.toFirmware) rfl

def phoneEnv : HttpEnv where
  to_uint32 := Commands.truncated
  to_int16 := towardZero
  io := ⟨.ESP_OK, .ESP_OK, .ESP_OK⟩
  httpd := fun _ => .ESP_OK
  date := ⟨false, 0⟩
  time := 0
  now_s := 3
  status_s := 3
  system := []

def phone : Request where
  hi_httpd_guard := fun _ => true
  admin_header_valid := false
  readonly_header_valid := false
  client_ip := "192.168.11.20"
  read_json := some (App.command "start" 60)

theorem first_swipe :
    let r := serve .HTTP_POST "/api/pump" phoneEnv (machineAfter .missing zeroedRing 0 []).toFirmware phone
    r.2 = .reply .status ∧ r.1.task.control.relay = true ∧
      ∃ s', Describes s' r.1.task.control default_settings ∧ s'.on = true ∧ s'.manual = "start" := by
  have hs : Describes (statusOf (control_start 0) default_settings) (machineAfter .missing zeroedRing 0 []).task.control
      (settings_get (machineAfter .missing zeroedRing 0 []).store) :=
    ⟨0, fun t => t, [], status_read (control_start 0) default_settings 0 (fun t => t) []⟩
  have hm : (60 : Rat) ∈ App.MINUTES := by simp [App.MINUTES]
  have hguard : phone.hi_httpd_guard .HI_GUARD_MUTATION = true := rfl
  obtain ⟨hfits, -⟩ := swipe_fits_firmware .missing zeroedRing 0 [] phoneEnv hm hs hguard rfl
  obtain ⟨hreply, hrelay, hshows⟩ := hfits rfl
  have hafter (c : Control) : Describes (statusOf c default_settings) c default_settings :=
    ⟨0, fun t => t, [], status_read c default_settings 0 (fun t => t) []⟩
  exact ⟨hreply, hrelay, _, hafter _, hshows _ _ (hafter _)⟩

/-! ## The marker -/

theorem bool_text (b : Bool) : '|' ∉ (toString b).toList := by
  cases b <;> decide

theorem bool_text_injective : Function.Injective (toString : Bool → String) := by
  intro b b' h
  revert h
  cases b <;> cases b' <;> decide

theorem reason_text (r : CtlReason) : '|' ∉ (ctl_reason_name r).toList := by
  cases r <;> decide

theorem manual_text (m : CtlManual) : '|' ∉ (manual_name m).toList := by
  cases m <;> decide

theorem starts_text (n : Nat) : '|' ∉ (toString n).toList := by
  have hdigits : (toString n).toList = Nat.toDigits 10 n := Nat.toList_repr
  rw [hdigits]
  intro hbar
  exact absurd (toDigits_isDigit n '|' hbar) (by decide)

theorem marker_toList (s : App.Status) :
    (App.marker s).toList = (toString s.on).toList ++ '|' :: (s.reason.toList ++ '|' :: (s.manual.toList ++ '|' ::
      ((toString s.starts).toList ++ '|' :: ((toString s.sensor_failed).toList ++ '|' ::
        (toString s.overheat).toList)))) := by
  unfold App.marker
  simp only [String.toList_append, List.append_assoc]
  rfl

theorem marker_tells {c c' : Control} {st st' : Settings}
    (h : App.marker (statusOf c st) = App.marker (statusOf c' st')) :
    c.s_state.on = c'.s_state.on ∧ c.s_starts_boot = c'.s_starts_boot := by
  have hchars := congrArg String.toList h
  rw [marker_toList, marker_toList] at hchars
  obtain ⟨hon, hchars⟩ := cut_unique (bool_text _) (bool_text _) hchars
  obtain ⟨-, hchars⟩ := cut_unique (reason_text _) (reason_text _) hchars
  obtain ⟨-, hchars⟩ := cut_unique (manual_text _) (manual_text _) hchars
  obtain ⟨hstarts, -⟩ := cut_unique (starts_text _) (starts_text _) hchars
  constructor
  · exact bool_text_injective (String.toList_inj.mp hon)
  · have hdigits (n : Nat) : (toString n).toList = Nat.toDigits 10 n := Nat.toList_repr
    change (toString c.s_starts_boot.toNat).toList = (toString c'.s_starts_boot.toNat).toList at hstarts
    rw [hdigits, hdigits] at hstarts
    have hval := congrArg (fun ds => Nat.ofDigitChars 10 ds 0) hstarts
    exact UInt32.toNat_inj.mp (by simpa [Nat.ofDigitChars_ten_toDigits] using hval)

def startsIn (l : List Event) : Nat := (logOf .EV_PUMP l).count true

theorem pumpLog_grows (boot : Int) (h k : List Section) :
    pumpLog (controlAfter boot h).published <+: pumpLog (controlAfter boot (h ++ k)).published := by
  unfold pumpLog
  rw [published_append, List.filter_append]
  exact List.prefix_append _ _

theorem same_marker_quiet {boot : Int} {h k : List Section} {st st' : Settings}
    (hmarker : App.marker (statusOf (controlAfter boot h) st) = App.marker (statusOf (controlAfter boot (h ++ k)) st'))
    (hfew : startsIn (controlAfter boot (h ++ k)).published < startsIn (controlAfter boot h).published + 2 ^ 32) :
    pumpLog (controlAfter boot (h ++ k)).published = pumpLog (controlAfter boot h).published := by
  obtain ⟨hon, hstarts⟩ := marker_tells hmarker
  have hf := faithful_run boot h
  have hf' := faithful_run boot (h ++ k)
  have hnew := published_append boot h k
  generalize eventsFrom (controlAfter boot h) k = new at hnew
  rw [hf.starts, hf'.starts, hnew, logOf_append, List.count_append, UInt32.ofNat_add] at hstarts
  unfold startsIn at hfew
  rw [hnew, logOf_append, List.count_append] at hfew
  have hquiet : (logOf .EV_PUMP new).count true = 0 := by
    have hzero : UInt32.ofNat ((logOf .EV_PUMP new).count true) = 0 := by
      simpa using hstarts.symm
    have hmod := congrArg UInt32.toNat hzero
    rw [UInt32.toNat_ofNat', UInt32.toNat_zero] at hmod
    omega
  have htracks := hf'.pump
  rw [hnew, logOf_append, ← hon] at htracks
  have hnone := tracks_quiet hf.pump htracks hquiet
  unfold logOf at hnone
  rw [List.map_eq_nil_iff] at hnone
  unfold pumpLog
  rw [hnew, List.filter_append, hnone, List.append_nil]

/-- As long as the marker is the same, the log gets no switch of the pump, whatever else it gets in between. -/
theorem same_marker_same_switches {boot : Int} {h k l : List Section} {s s' : App.Status} {st st' : Settings}
    (hs : Describes s (controlAfter boot h) st) (hs' : Describes s' (controlAfter boot (h ++ k ++ l)) st')
    (hmarker : App.marker s = App.marker s')
    (hfew : (logOf .EV_PUMP (controlAfter boot (h ++ k ++ l)).published).count true <
      (logOf .EV_PUMP (controlAfter boot h).published).count true + 2 ^ 32) :
    pumpLog (controlAfter boot (h ++ k)).published = pumpLog (controlAfter boot h).published ∧
      pumpLog (controlAfter boot (h ++ k ++ l)).published = pumpLog (controlAfter boot h).published := by
  obtain rfl := describes_eq hs
  obtain rfl := describes_eq hs'
  have hfirst := pumpLog_grows boot h k
  have hsecond := pumpLog_grows boot (h ++ k) l
  rw [List.append_assoc] at hmarker hfew hsecond ⊢
  have hquiet := same_marker_quiet hmarker hfew
  refine ⟨(hfirst.eq_of_length_le ?_).symm, hquiet⟩
  rw [← hquiet]
  exact hsecond.length_le

def pass (now : Int) (read : Option Int) : Section := .task default_settings default_settings ⟨false, 0⟩ now (some read)

/-- The pump is on at 31 degrees when the sensor fails, and still when it is back. -/
theorem failure_in_between :
    let hot := [pass 6 (some 310)]
    let failed := [pass 11 none, pass 16 none, pass 21 none]
    let back := [pass 26 (some 305)]
    logOf .EV_SENSOR (controlAfter 0 (hot ++ failed ++ back)).published = [true, false] ∧
      logOf .EV_PUMP (controlAfter 0 hot).published = [true] ∧
      pumpLog (controlAfter 0 (hot ++ failed)).published = pumpLog (controlAfter 0 hot).published ∧
      pumpLog (controlAfter 0 (hot ++ failed ++ back)).published = pumpLog (controlAfter 0 hot).published := by
  intro hot failed back
  have hs (h : List Section) :
      Describes (statusOf (controlAfter 0 h) default_settings) (controlAfter 0 h) default_settings :=
    ⟨0, fun t => t, [], status_read _ _ _ _ _⟩
  exact ⟨by decide, by decide, same_marker_same_switches (hs hot) (hs (hot ++ failed ++ back)) (by decide +kernel)
    (by decide)⟩

end FloorHeating.AppPage
