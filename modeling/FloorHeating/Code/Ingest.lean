import FloorHeating.Code.Api
import Mathlib.Algebra.Group.Int.Defs

/-!
# fh_ingest.py: the parser of the server

`hcdata.validate` is another package, so its functions are an argument. An
argument that a call does not pass is `none`.
-/

namespace FloorHeating

inductive PyError where
  | ValueError (text : String)
  | TypeError
deriving DecidableEq, Repr

/-- A `dict` that `json.loads` made: the last of equal keys stays. -/
abbrev Dict := List (String × Json)

def Dict.get (d : Dict) (key : String) : Option Json := d.reverse.lookup key

/-- The functions of `hcdata.validate` that `parse` calls. -/
structure Validate where
  device_id : String → Except PyError Unit
  integer : Dict → String → (lo hi : Option Int) → (required : Option Bool) → Except PyError (Option Int)
  number : Dict → String → (lo hi : Int) → Except PyError (Option Rat)
  boolean : Dict → String → Except PyError Bool
  string : Dict → String → (required : Bool) → (pattern : String) → Except PyError String

/-- The bytes of a message, as `decode("utf-8", "replace")` and `json.loads` see them. -/
structure Payload where
  text : String
  json : Option Json

structure StateFields where
  device : String
  temp_c : Option Rat
  temp_age_s : Option Int
  pump_on : Bool
  reason : String
  manual : String
  maintenance : Bool
  overheat : Bool
  sensor_failed : Bool
  start_c : Option Rat
  stop_c : Option Rat
  critical_c : Option Rat
  runtime_today_s : Option Int
  starts_today : Option Int
deriving DecidableEq

inductive Parsed where
  | status (device : String) (online : Bool)
  | state (f : StateFields)
deriving DecidableEq

/-- `[a-z][a-z0-9_]` and so on; the braces are written as escapes. -/
def WORD : String := "[a-z][a-z0-9_]\x7b0,31\x7d"

def object (data : Dict) (key : String) : Except PyError Dict :=
  match data.get key with
  | some (.obj o) => .ok o
  | _ => .error (.ValueError s!"{key} not an object")

/-- The `state` branch of `parse`. -/
def parse_state (v : Validate) (device : String) (data : Dict) : Except PyError Parsed := do
  let pump ← object data "pump"
  let temp ← object data "temp"
  let settings ← object data "settings"
  let today ← object data "today"
  let age ← v.integer temp "age_s" (some (-1)) (some (10 ^ 9)) none
  let temp_c ← v.number temp "c" (-55) 125
  let temp_age_s ← match age with
    | some age => pure (if age < 0 then none else some age)
    | none => throw .TypeError
  let pump_on ← v.boolean pump "on"
  let reason ← v.string pump "reason" true WORD
  let manual ← v.string pump "manual" true WORD
  let maintenance ← v.boolean pump "maintenance"
  let overheat ← v.boolean temp "overheat"
  let sensor_failed ← v.boolean temp "sensor_failed"
  let start_c ← v.number settings "start_c" 0 100
  let stop_c ← v.number settings "stop_c" 0 100
  let critical_c ← v.number settings "critical_c" 0 100
  let runtime_today_s ← v.integer today "runtime_s" none (some (86400 * 2)) (some false)
  let starts_today ← v.integer today "starts" none (some 100000) (some false)
  return .state {
    device := device
    temp_c := temp_c
    temp_age_s := temp_age_s
    pump_on := pump_on
    reason := reason
    manual := manual
    maintenance := maintenance
    overheat := overheat
    sensor_failed := sensor_failed
    start_c := start_c
    stop_c := stop_c
    critical_c := critical_c
    runtime_today_s := runtime_today_s
    starts_today := starts_today }

def parse (v : Validate) (topic : String) (payload : Payload) : Except PyError Parsed := do
  match (topic.toList.splitOn '/').map String.ofList with
  | [top, device, kind] =>
    if top ≠ "floorheating" then throw (.ValueError "unexpected topic")
    v.device_id device
    if kind = "status" then
      if payload.text ≠ "online" ∧ payload.text ≠ "offline" then throw (.ValueError "bad status")
      return .status device (payload.text = "online")
    if kind ≠ "state" then throw (.ValueError "unexpected topic")
    match payload.json with
    | none => throw (.ValueError "JSONDecodeError")
    | some (.obj data) => parse_state v device data
    | some _ => throw (.ValueError "payload not an object")
  | _ => throw (.ValueError "unexpected topic")

end FloorHeating
