import FloorHeating.Code.ControlLogic
import FloorHeating.Code.Settings
import FloorHeating.Lib.CText

/-!
# control.c, and the events it publishes

The file's statics are one record, with the relay level and the list of events
published since boot. A function that runs under `s_lock` maps that record to
the next one. What it asks of the rest of the firmware is an argument: the
settings, the clock, the local date and the sensor.
-/

namespace FloorHeating

/-! ## events.h -/

inductive EventType where
  | EV_PUMP
  | EV_OVERHEAT
  | EV_SENSOR
  | EV_MANUAL_END
deriving DecidableEq, Repr

/-- `event_t`; the defaults are what the designated initializer leaves. -/
structure Event where
  type : EventType
  mono_s : Int
  on : Bool
  reason : CtlReason
  prev_reason : CtlReason := .AutoCold
  has_temp : Bool
  temp_x10 : Int
  detail : String := ""
deriving DecidableEq, Repr

def DETAIL_SIZE : Nat := 24

/-- What `snprintf(buf, size, "%s", text)` leaves in `buf`. -/
def snprintf (size : Nat) (text : String) : String := String.ofList (Lib.fitting (size - 1) text.toList)

/-! ## control.c -/

structure Control where
  s_state : CtlState
  s_heartbeat_s : Int
  s_last_tick_s : Int
  s_today_yday : Int
  s_runtime_today_s : UInt32
  s_starts_today : UInt32
  s_runtime_boot_s : UInt32
  s_starts_boot : UInt32
  relay : Bool
  published : List Event
deriving DecidableEq, Repr

/-- `hi_ntp_synced()` and the `tm_yday` of `localtime_r()`. -/
structure LocalDate where
  synced : Bool
  tm_yday : Nat
deriving DecidableEq, Repr

def config_from_settings (s : Settings) : CtlConfig where
  start_x10 := s.start_x10
  stop_x10 := s.stop_x10
  critical_x10 := s.critical_x10
  maintenance_interval_s := MAINTENANCE_INTERVAL_S
  maintenance_run_s := MAINTENANCE_RUN_S
  sensor_fail_reads := SENSOR_FAIL_READS

def pump_set (c : Control) (on : Bool) : Control := { c with relay := on }

def events_publish (c : Control) (e : Event) : Control := { c with published := c.published ++ [e] }

def make_event (c : Control) (type : EventType) (now_s : Int) : Event where
  type := type
  mono_s := now_s
  on := c.s_state.on
  reason := c.s_state.reason
  has_temp := c.s_state.have_temp
  temp_x10 := c.s_state.temp_x10

def update_today (c : Control) (date : LocalDate) : Control :=
  let yday : Int := if date.synced then date.tm_yday else -1
  if 0 ≤ yday ∧ yday ≠ c.s_today_yday then
    let c := if 0 ≤ c.s_today_yday then { c with s_runtime_today_s := 0, s_starts_today := 0 } else c
    { c with s_today_yday := yday }
  else c

/-- `UInt32.ofInt` is the C cast `(uint32_t)`. -/
def count_runtime_locked (c : Control) (date : LocalDate) (now_s : Int) : Control :=
  let c := update_today c date
  let c :=
    if c.s_state.on ∧ 0 < c.s_last_tick_s then
      let dt := UInt32.ofInt (now_s - c.s_last_tick_s)
      { c with
        s_runtime_today_s := c.s_runtime_today_s + dt
        s_runtime_boot_s := c.s_runtime_boot_s + dt }
    else c
  { c with s_last_tick_s := now_s }

def switch_pump (c : Control) (r : CtlResult) : Control :=
  if r.changed then
    let c := pump_set c c.s_state.on
    if c.s_state.on then
      { c with s_starts_today := c.s_starts_today + 1, s_starts_boot := c.s_starts_boot + 1 }
    else c
  else c

def publish_changes (c : Control) (now_s : Int) (r : CtlResult) (detail : Option String) : Control :=
  let c :=
    if r.sensor_failed ∨ r.sensor_recovered then
      events_publish c { make_event c .EV_SENSOR now_s with on := r.sensor_failed }
    else c
  let c :=
    if r.overheat_started ∨ r.overheat_ended then
      events_publish c { make_event c .EV_OVERHEAT now_s with on := r.overheat_started }
    else c
  if r.changed then
    events_publish c { make_event c .EV_PUMP now_s with
      prev_reason := r.prev_reason
      detail := (detail.map (snprintf DETAIL_SIZE)).getD "" }
  else if r.manual_expired ∨ r.manual_cancelled then
    events_publish c { make_event c .EV_MANUAL_END now_s with
      prev_reason := r.prev_reason
      detail := snprintf DETAIL_SIZE (if r.manual_cancelled then "overheat" else "expired") }
  else c

def decide_locked (c : Control) (settings : Settings) (date : LocalDate) (now_s : Int) (r : CtlResult)
    (detail : Option String) : Control :=
  let cfg := config_from_settings settings
  let c := count_runtime_locked c date now_s
  let (s, r) := ctl_decide c.s_state cfg now_s r
  let c := switch_pump { c with s_state := s } r
  publish_changes c now_s r detail

/-- What `control_task` does under the lock. `read` is what `temp_sensor_read` returned (`some none`
is a failed read), or `none` in an iteration without a read. The settings are fetched twice. -/
def task_locked (c : Control) (for_sensor settings : Settings) (date : LocalDate) (now_s : Int)
    (read : Option (Option Int)) : Control :=
  let (c, r) : Control × CtlResult :=
    match read with
    | some reading =>
      let (s, r) :=
        ctl_sensor c.s_state (config_from_settings for_sensor) now_s reading.isSome (reading.getD 0) {}
      ({ c with s_state := s }, r)
    | none => (c, {})
  let c := decide_locked c settings date now_s r none
  let c := if c.relay ≠ c.s_state.on then pump_set c c.s_state.on else c
  { c with s_heartbeat_s := now_s }

/-- The statics at boot; `control_start` resets the relay and calls `ctl_init`. -/
def control_start (now_s : Int) : Control where
  s_state := ctl_init now_s
  s_heartbeat_s := 0
  s_last_tick_s := 0
  s_today_yday := -1
  s_runtime_today_s := 0
  s_starts_today := 0
  s_runtime_boot_s := 0
  s_starts_boot := 0
  relay := false
  published := []

inductive ControlResult where
  | CONTROL_OK
  | CONTROL_REFUSED_OVERHEAT
deriving DecidableEq, Repr

def clamp_duration (duration_s : UInt32) : UInt32 :=
  let duration_s := if duration_s < MANUAL_MIN_S then MANUAL_MIN_S else duration_s
  if MANUAL_MAX_S < duration_s then MANUAL_MAX_S else duration_s

def manual_detail (manual : CtlManual) (duration_s : UInt32) (who : String) : String :=
  if manual = .None then snprintf DETAIL_SIZE s!"auto, {who}"
  else snprintf DETAIL_SIZE s!"{duration_s / 60} min, {who}"

def control_manual (c : Control) (settings : Settings) (date : LocalDate) (now_s : Int)
    (manual : CtlManual) (duration_s : UInt32) (who : String) : Control × ControlResult :=
  let duration_s := clamp_duration duration_s
  let detail := manual_detail manual duration_s who
  match ctl_manual c.s_state manual duration_s now_s with
  | none => (c, .CONTROL_REFUSED_OVERHEAT)
  | some s => (decide_locked { c with s_state := s } settings date now_s {} (some detail), .CONTROL_OK)

structure ControlStatus where
  state : CtlState
  now_mono_s : Int
  heartbeat_mono_s : Int
  runtime_today_s : UInt32
  starts_today : UInt32
  runtime_boot_s : UInt32
  starts_boot : UInt32
deriving DecidableEq, Repr

/-- `now_mono_s` is read after the lock is given back. -/
def control_status (c : Control) (now_mono_s : Int) : ControlStatus where
  state := c.s_state
  now_mono_s := now_mono_s
  heartbeat_mono_s := c.s_heartbeat_s
  runtime_today_s := c.s_runtime_today_s
  starts_today := c.s_starts_today
  runtime_boot_s := c.s_runtime_boot_s
  starts_boot := c.s_starts_boot

/-- `s` is what `control_status` gives. -/
def control_alive (s : ControlStatus) : Bool := s.now_mono_s - s.heartbeat_mono_s ≤ 3 * CONTROL_READ_PERIOD_S

end FloorHeating
