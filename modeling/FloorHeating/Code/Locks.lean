import FloorHeating.Lib.Programs

/-!
# What each function locks and calls

The locks of the firmware and the calls that leave it, in the order of the
source. What a function only computes is left out, and a condition may go
either way: each function is the expression of all its runs.
-/

open FloorHeating.Lib

namespace FloorHeating.Locks

/-- Each module has a spinlock `s_mux` of its own. -/
inductive Lock where
  | s_lock
  | s_write_lock
  | settings_mux
  | events_mux
  | history_mux
deriving DecidableEq

inductive Outside where
  | ds18x20_scan_devices
  | ds18x20_measure_and_read
  | nvs_open
  | nvs_set_blob
  | nvs_commit
  | nvs_close
  | ulTaskNotifyTake
  | hi_httpd_guard
  | hi_httpd_read_json
  | hi_httpd_send_json
  | hi_httpd_send_error
  | hi_httpd_add_system_status
  | httpd_resp_send
  | httpd_resp_send_chunk
  | hi_httpd_client_ip
  | hi_auth_header_valid
  | hi_wifi
  | gpio_set_level
  | gpio_get_level
  | hi_ntp_synced
  | time
  | localtime_r
  | esp_timer_get_time
  | esp_log
  | hi_notify_event_ex
  | hi_notify_error
  | hi_mqtt_state_publish_now
  | xTaskNotifyGive
  | esp_task_wdt
deriving DecidableEq

abbrev Op := LockOp Lock Outside

abbrev Skeleton := RegularExpression Op

def call (c : Outside) : Skeleton := .char (.call c)

def maybe (body : Skeleton) : Skeleton := 1 + body

def locked (l : Lock) (body : Skeleton) : Skeleton := .char (.acquire l) * body * .char (.release l)

/-! ## settings.c -/

def apply : Skeleton := locked .settings_mux 1

def settings_get : Skeleton := locked .settings_mux 1

def settings_set : Skeleton :=
  locked .s_write_lock (apply * call .nvs_open *
    maybe (call .nvs_set_blob * maybe (call .nvs_commit) * call .nvs_close)) *
  maybe (call .esp_log)

/-! ## temp_sensor.c and history.c -/

def temp_sensor_read : Skeleton :=
  call .ds18x20_scan_devices * call .esp_log +
  maybe (call .ds18x20_scan_devices * call .esp_log) * call .ds18x20_measure_and_read * maybe (call .esp_log)

def history_add : Skeleton := call .esp_timer_get_time * locked .history_mux 1

def history_copy : Skeleton := locked .history_mux 1

/-! ## events.c -/

def events_unix_time : Skeleton := call .hi_ntp_synced * maybe (call .time * call .esp_timer_get_time)

def notify : Skeleton :=
  maybe (call .hi_notify_event_ex) + (call .esp_log + call .esp_log * call .hi_notify_error)

def events_publish : Skeleton := locked .events_mux 1 * notify * call .hi_mqtt_state_publish_now

def events_recent : Skeleton := locked .events_mux 1

/-! ## control.c -/

def config_from_settings : Skeleton := settings_get

def count_runtime_locked : Skeleton := call .hi_ntp_synced * maybe (call .time * call .localtime_r)

def decide_locked : Skeleton :=
  config_from_settings * count_runtime_locked * maybe (call .gpio_set_level * call .esp_log) *
  maybe events_publish * maybe events_publish * maybe events_publish

/-- What a pass of `control_task` does under the lock after the sensor. -/
def task_decision : Skeleton := decide_locked * call .gpio_get_level * maybe (call .gpio_set_level)

/-- The three tests of `read` go the same way. -/
def control_task_pass : Skeleton :=
  call .esp_timer_get_time *
  (temp_sensor_read * call .esp_timer_get_time * locked .s_lock (config_from_settings * task_decision) *
      maybe history_add +
    locked .s_lock task_decision) *
  call .esp_task_wdt * call .ulTaskNotifyTake

def control_task : Skeleton := call .esp_task_wdt * .star control_task_pass

def control_status : Skeleton := locked .s_lock 1 * call .esp_timer_get_time

def control_alive : Skeleton := control_status

def control_manual : Skeleton :=
  locked .s_lock (call .esp_timer_get_time) +
  locked .s_lock (call .esp_timer_get_time * decide_locked) * call .esp_log * call .xTaskNotifyGive

def control_settings_changed : Skeleton := maybe (call .xTaskNotifyGive)

/-! ## api.c -/

def api_status_json : Skeleton :=
  control_status * settings_get * events_unix_time * call .hi_httpd_add_system_status

def guarded (handler : Skeleton) : Skeleton := call .hi_httpd_guard * maybe handler

def admin_ok (handler : Skeleton) : Skeleton := call .hi_auth_header_valid * (call .httpd_resp_send + handler)

def send_status : Skeleton := api_status_json * call .hi_httpd_send_json

def status_handler : Skeleton := guarded send_status

def admin_status_handler : Skeleton := admin_ok send_status

def events_handler : Skeleton := guarded (events_recent * .star events_unix_time * call .hi_httpd_send_json)

/-- C leaves the order of the two clocks open. -/
def send_history : Skeleton :=
  history_copy *
  maybe (events_unix_time * call .esp_timer_get_time + call .esp_timer_get_time * events_unix_time) *
  .star (call .httpd_resp_send_chunk)

def history_handler : Skeleton := guarded send_history

def admin_history_handler : Skeleton := admin_ok send_history

def pump_command : Skeleton :=
  call .hi_httpd_read_json *
  maybe (call .hi_httpd_send_error + control_manual * (call .hi_httpd_send_error + send_status))

def pump_handler : Skeleton := guarded (call .hi_httpd_client_ip * pump_command)

def admin_pump_handler : Skeleton := admin_ok pump_command

def apply_settings : Skeleton :=
  call .hi_httpd_read_json *
  maybe (settings_get * settings_set * control_settings_changed * call .esp_log *
    (call .hi_httpd_send_error + send_status))

def settings_handler : Skeleton := guarded apply_settings

def admin_settings_handler : Skeleton := admin_ok apply_settings

/-! ## main.c -/

def healthy : Skeleton := control_alive * maybe (call .hi_wifi)

def log_stats : Skeleton := control_status * call .hi_wifi * call .esp_log

/-! ## The tasks -/

/-- The control task, the HTTP server, and what main.c gives to `hi_mqtt_start` and `hi_health_start`. -/
inductive Role where
  | control_task
  | httpd
  | hi_mqtt
  | hi_health
deriving DecidableEq

def Role.skeleton : Role → Skeleton
  | .control_task => Locks.control_task
  | .httpd => .star (status_handler + events_handler + history_handler + pump_handler + settings_handler +
      admin_pump_handler + admin_settings_handler + admin_status_handler + admin_history_handler)
  | .hi_mqtt => .star api_status_json
  | .hi_health => .star (healthy + log_stats)

end FloorHeating.Locks
