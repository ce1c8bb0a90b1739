import FloorHeating.Code.Control
import FloorHeating.Lib.Json

/-!
# api.c: the status document

JSON numbers are the decimals in the text, so `x10 / 10.0` is exact here: it is
printed with one decimal. The clock on the wall (`events_unix_time`) and the
system part of the document are arguments.
-/

namespace FloorHeating

def celsius (x10 : Int) : Rat := x10 / 10

def manual_name (m : CtlManual) : String :=
  if m = .Start then "start" else if m = .Stop then "stop" else "none"

/-- The status that `control_status` gives and the settings that `settings_get` gives. -/
def api_status_json (c : ControlStatus) (s : Settings) (events_unix_time : Int → Int)
    (system : List (String × Json)) : Json :=
  let st := c.state
  .obj [
    ("pump", .obj [
      ("on", .bool st.on),
      ("reason", .str (ctl_reason_name st.reason)),
      ("since", .num (events_unix_time st.changed_s)),
      ("state_s", .num (c.now_mono_s - st.changed_s : Int)),
      ("manual", .str (manual_name st.manual)),
      ("manual_left_s", .num (if st.manual = .None then 0 else (st.manual_until_s - c.now_mono_s : Int))),
      ("maintenance", .bool st.maintenance),
      ("idle_s", .num (if st.on then 0 else (c.now_mono_s - st.last_on_s : Int))),
      ("control_alive", .bool (c.now_mono_s - c.heartbeat_mono_s ≤ 3 * CONTROL_READ_PERIOD_S))]),
    ("temp", .obj [
      ("c", if st.have_temp then .num (celsius st.temp_x10) else .null),
      ("age_s", .num (if st.have_temp then c.now_mono_s - st.temp_s else -1 : Int)),
      ("failures", .num st.failures.toNat),
      ("sensor_failed", .bool st.sensor_failed),
      ("overheat", .bool st.overheat)]),
    ("today", .obj [
      ("runtime_s", .num (c.runtime_today_s.toNat : Int)),
      ("starts", .num (c.starts_today.toNat : Int))]),
    ("since_boot", .obj [
      ("runtime_s", .num c.runtime_boot_s.toNat),
      ("starts", .num c.starts_boot.toNat)]),
    ("settings", .obj [
      ("start_c", .num (celsius s.start_x10)),
      ("stop_c", .num (celsius s.stop_x10)),
      ("critical_c", .num (celsius s.critical_x10)),
      ("start_min_c", .num (celsius START_MIN_X10)),
      ("start_max_c", .num (celsius START_MAX_X10)),
      ("stop_min_c", .num (celsius STOP_MIN_X10)),
      ("hysteresis_min_c", .num (celsius HYSTERESIS_MIN_X10)),
      ("critical_margin_min_c", .num (celsius CRITICAL_MARGIN_MIN_X10)),
      ("critical_max_c", .num (celsius CRITICAL_MAX_X10)),
      ("maintenance_interval_s", .num MAINTENANCE_INTERVAL_S.toNat),
      ("maintenance_run_s", .num MAINTENANCE_RUN_S.toNat),
      ("manual_max_s", .num MANUAL_MAX_S.toNat)]),
    ("system", .obj system)]

end FloorHeating
