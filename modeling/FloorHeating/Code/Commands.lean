import FloorHeating.Code.Api
import FloorHeating.Lib.Double

/-!
# api.c: the commands

A handler gets the parsed body and gives back its reply. What C leaves
undefined, the conversion of a `double` that does not fit, is an argument.
-/

open FloorHeating.Lib

namespace FloorHeating

/-- `hi_httpd_send_error` or `hi_httpd_send_json`. Of `status`, the json is that of `api_status_json`, which takes
the lock again: see `Reply.sent`. -/
inductive Reply where
  | error (status text : String)
  | json (status : String) (body : Json)
  | status

/-- What else `api_status_json` asks for. -/
structure StatusEnv where
  now_mono_s : Int
  events_unix_time : Int → Int
  system : List (String × Json)

/-- What is sent, with the statics and the thresholds that `api_status_json` finds. -/
def Reply.sent (c : Control) (s : Settings) (env : StatusEnv) : Reply → Reply
  | .status => .json "200 OK" (api_status_json (control_status c env.now_mono_s) s env.events_unix_time env.system)
  | r => r

/-! ## `pump_command` -/

/-- `manual` and `ok` after the three tests of `state`. -/
def command_of (state : Option Json) : CtlManual × Bool :=
  match state with
  | some (.str s) =>
    if s = "start" then (.Start, true) else if s = "stop" then (.Stop, true) else (.None, decide (s = "auto"))
  | _ => (.None, false)

/-- The double nearest to the decimals in the text. -/
def valuedouble (item : Option Json) : Rat :=
  match item with
  | some (.num v) => double v
  | _ => 0

def positive_number (minutes : Option Json) : Bool :=
  match minutes with
  | some (.num _) => decide (0 < valuedouble minutes)
  | _ => false

/-- `to_uint32` is the cast `(uint32_t)`. -/
def pump_command (to_uint32 : Rat → UInt32) (c : Control) (settings : Settings) (date : LocalDate) (now_s : Int)
    (body : Json) (who : String) : Control × Reply :=
  let state := body.item "state"
  let minutes := body.item "minutes"
  let (manual, ok) := command_of state
  let minutes_ok := decide (manual = .None) || positive_number minutes
  let duration_s : UInt32 :=
    if minutes_ok ∧ manual ≠ .None then
      if MANUAL_MAX_S.toNat < double (valuedouble minutes * 60) then MANUAL_MAX_S
      else to_uint32 (double (valuedouble minutes * 60))
    else 0
  if ¬ ok then (c, .error "400 Bad Request" "state")
  else if ¬ minutes_ok then (c, .error "400 Bad Request" "minutes")
  else
    let (c, result) := control_manual c settings date now_s manual duration_s who
    if result = .CONTROL_REFUSED_OVERHEAT then (c, .error "409 Conflict" "overheat")
    else (c, .status)

/-! ## `apply_settings` -/

/-- The value of `field` afterwards; `to_int16` is the cast `(int16_t)`. -/
def json_celsius (to_int16 : Rat → Int) (body : Json) (key : String) (field : Int) : Int :=
  let item := body.item key
  match item with
  | some (.num _) =>
    if -100 < valuedouble item ∧ valuedouble item < 200 then
      let v := double (valuedouble item * 10)
      to_int16 (if v < 0 then double (v - 1 / 2) else double (v + 1 / 2))
    else field
  | _ => field

def apply_settings (to_int16 : Rat → Int) (st : Store) (io : NvsCalls) (body : Json) : Store × Reply :=
  let s := settings_get st
  let s := { s with start_x10 := json_celsius to_int16 body "start_c" s.start_x10 }
  let s := { s with stop_x10 := json_celsius to_int16 body "stop_c" s.stop_x10 }
  let s := { s with critical_x10 := json_celsius to_int16 body "critical_c" s.critical_x10 }
  let (st, _, err) := settings_set st s io
  if err ≠ .ESP_OK then (st, .error "500 Internal Server Error" "save_failed")
  else (st, .status)

end FloorHeating
