import FloorHeating.Code.Events
import FloorHeating.Code.Locks
import FloorHeating.Spec.Sensor

/-!
# The order of the locks

What a thread may do while it holds a lock, and what the functions of the model
lock and call on the way.
-/

open FloorHeating.Lib

namespace FloorHeating.Locks

/-! ## The discipline -/

def flash (c : Outside) : Bool := decide (c ∈ [.nvs_open, .nvs_set_blob, .nvs_commit, .nvs_close])

def QUICK : List Outside :=
  [.hi_ntp_synced, .time, .localtime_r, .esp_timer_get_time, .gpio_set_level, .gpio_get_level, .esp_log,
    .hi_notify_event_ex, .hi_notify_error, .hi_mqtt_state_publish_now]

/-- What other packages promise of these: `slow` is what may take long. -/
structure Quick (slow : Outside → Bool) : Prop where
  clocks : ∀ c ∈ [.hi_ntp_synced, .time, .localtime_r, .esp_timer_get_time], slow c = false
  pins : ∀ c ∈ [.gpio_set_level, .gpio_get_level], slow c = false
  log : slow .esp_log = false
  /-- "Queues notifications." -/
  notifications : ∀ c ∈ [.hi_notify_event_ex, .hi_notify_error], slow c = false
  /-- "Only signals the state task." -/
  publish_now : slow .hi_mqtt_state_publish_now = false

/-- A spinlock is never held over a call, and `s_lock` only over quick ones. -/
def discipline : Discipline Lock Outside where
  rank
    | .s_lock | .s_write_lock => 0
    | .settings_mux | .events_mux | .history_mux => 1
  limit
    | .s_lock => 27
    | .s_write_lock => 7
    | .settings_mux | .events_mux | .history_mux => 1
  allowed
    | .s_lock, c => decide (c ∈ QUICK)
    | .s_write_lock, c => decide (c ∈ QUICK) || flash c
    | .settings_mux, _ | .events_mux, _ | .history_mux, _ => false

/-- Only the flash is ever waited for under a lock, and only under its own. -/
def MayCall (slow : Outside → Bool) (l : Lock) (c : Outside) : Prop :=
  slow c = true → l = .s_write_lock ∧ flash c = true

/-- So many steps of others are enough for any thread to get the lock. -/
def DELAY : Lock → Nat
  | .s_lock => 54
  | .s_write_lock => 14
  | .settings_mux | .events_mux | .history_mux => 1

/-! ## What the functions of the model lock and call -/

section Ops

variable (snprintf : Nat → String → String)

def lockedOps (l : Lock) (body : List Op) : List Op := .acquire l :: body ++ [.release l]

def settingsOps : List Op := lockedOps .settings_mux []

def dateOps (date : LocalDate) : List Op :=
  .call .hi_ntp_synced :: if date.synced then [.call .time, .call .localtime_r] else []

def noticeOps : Option Notice → List Op
  | none => []
  | some (.hi_notify_event_ex ..) => [.call .hi_notify_event_ex]
  | some (.hi_notify_error _) => [.call .esp_log, .call .hi_notify_error]
  | some (.esp_loge _) => [.call .esp_log]

def eventOps (e : Event) : List Op :=
  lockedOps .events_mux [] ++ noticeOps (FloorHeating.notify snprintf e) ++ [.call .hi_mqtt_state_publish_now]

def decideOps (c : Control) (settings : Settings) (date : LocalDate) (now_s : Int) (r : CtlResult)
    (detail : Option String) : List Op :=
  let c' := FloorHeating.decide_locked c settings date now_s r detail
  settingsOps ++ dateOps date ++
    (if c'.s_state.on ≠ c.s_state.on then [.call .gpio_set_level, .call .esp_log] else []) ++
    (c'.published.drop c.published.length).flatMap (eventOps snprintf)

/-- From the sensor's reading on; `task_locked` has fetched the settings for it already. -/
def taskOps (c : Control) (settings : Settings) (date : LocalDate) (now_s : Int) (r : CtlResult) : List Op :=
  let c' := FloorHeating.decide_locked c settings date now_s r none
  decideOps snprintf c settings date now_s r none ++
    (.call .gpio_get_level :: if c'.relay ≠ c'.s_state.on then [.call .gpio_set_level] else [])

def manualOps (c : Control) (settings : Settings) (date : LocalDate) (now_s : Int) (manual : CtlManual)
    (duration_s : UInt32) (who : String) : List Op :=
  match ctl_manual c.s_state manual (clamp_duration duration_s) now_s with
  | none => lockedOps .s_lock [.call .esp_timer_get_time]
  | some s =>
    lockedOps .s_lock ([.call .esp_timer_get_time] ++
      decideOps snprintf { c with s_state := s } settings date now_s {}
        (some (manual_detail manual (clamp_duration duration_s) who))) ++
      [.call .esp_log] ++ [.call .xTaskNotifyGive]

def sensorOps (s : TempSensor) (bus : Bus) : List Op :=
  (if s.s_found then [] else [.call .ds18x20_scan_devices, .call .esp_log]) ++
    if (scan_devices s bus).2 then
      .call .ds18x20_measure_and_read ::
        if (FloorHeating.temp_sensor_read s bus).2.isNone then [.call .esp_log] else []
    else []

def passOps (d : Device) (p : Pass) (bus : Bus) : List Op :=
  let c := d.task.control
  let locked : List Op :=
    if d.task.reads p then
      let reading := (FloorHeating.temp_sensor_read d.sensor bus).2.map Int16.toInt
      let (s, r) := ctl_sensor c.s_state (FloorHeating.config_from_settings p.for_sensor) p.read_s reading.isSome
        (reading.getD 0) {}
      sensorOps d.sensor bus ++ [.call .esp_timer_get_time] ++
        lockedOps .s_lock (settingsOps ++ taskOps snprintf { c with s_state := s } p.settings p.date p.read_s r) ++
        if d.task.samples p then [.call .esp_timer_get_time] ++ lockedOps .history_mux [] else []
    else lockedOps .s_lock (taskOps snprintf c p.settings p.date p.top_s {})
  [.call .esp_timer_get_time] ++ locked ++ [.call .esp_task_wdt] ++ [.call .ulTaskNotifyTake]

def opsFrom (d : Device) : List DeviceTurn → List Op
  | [] => []
  | x :: l =>
    (match x with
      | .pass p bus => passOps snprintf d p bus
      | .command .. => []) ++ opsFrom (x.exec d) l

end Ops

end FloorHeating.Locks
