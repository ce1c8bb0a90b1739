import FloorHeating.Lib.Double
import FloorHeating.Lib.Json

/-!
# app.html: what the page shows and asks for

Numbers are exact, but for the arithmetic of a button. The page's `state` and
the events it gets are read into records first; a document of another shape is
not modelled. Colours and durations are left out.
-/

open FloorHeating.Lib

namespace FloorHeating.App

/-! ## What it reads -/

/-- `state`, as far as it is read below. -/
structure Status where
  on : Bool
  reason : String
  manual : String
  c : Option Rat
  sensor_failed : Bool
  overheat : Bool
  starts : Nat
  start_c : Rat
  stop_c : Rat
  critical_c : Rat
deriving DecidableEq

def asBool : Json → Option Bool
  | .bool b => some b
  | _ => none

def asText : Json → Option String
  | .str s => some s
  | _ => none

def asNumber : Json → Option Rat
  | .num x => some x
  | _ => none

def asOptional : Json → Option (Option Rat)
  | .num x => some (some x)
  | .null => some none
  | _ => none

def asCount : Json → Option Nat
  | .num x => if x.den = 1 ∧ 0 ≤ x then some x.num.toNat else none
  | _ => none

def Status.read (state : Json) : Option Status := do
  let pump ← state.item "pump"
  let temp ← state.item "temp"
  let since_boot ← state.item "since_boot"
  let settings ← state.item "settings"
  return {
    on := ← (← pump.item "on") |> asBool
    reason := ← (← pump.item "reason") |> asText
    manual := ← (← pump.item "manual") |> asText
    c := ← (← temp.item "c") |> asOptional
    sensor_failed := ← (← temp.item "sensor_failed") |> asBool
    overheat := ← (← temp.item "overheat") |> asBool
    starts := ← (← since_boot.item "starts") |> asCount
    start_c := ← (← settings.item "start_c") |> asNumber
    stop_c := ← (← settings.item "stop_c") |> asNumber
    critical_c := ← (← settings.item "critical_c") |> asNumber }

structure Event where
  ts : Rat
  type : String
  on : Bool
  reason : String
  prev_reason : String
  temp_c : Option Rat
  detail : String
deriving DecidableEq

def Event.read (e : Json) : Option Event := do
  return {
    ts := ← (← e.item "ts") |> asNumber
    type := ← (← e.item "type") |> asText
    on := ← (← e.item "on") |> asBool
    reason := ← (← e.item "reason") |> asText
    prev_reason := ← (← e.item "prev_reason") |> asText
    temp_c := ← (← e.item "temp_c") |> asOptional
    detail := ← (← e.item "detail") |> asText }

/-! ## What it shows -/

def toFixed1 (x : Rat) : String :=
  let n := ⌊|x| * 10 + 1 / 2⌋.toNat
  (if x < 0 then "-" else "") ++ s!"{n / 10}.{n % 10}"

def degU (c : Rat) : String := s!"{toFixed1 c} °C"

/-- The text, its kind and the pill. -/
def headline (s : Status) : String × String × String :=
  if s.overheat then ("Overheat: pump forced on", "bad", "Overheat")
  else if s.reason = "sensor_fail" then ("Sensor failure: pump on to be safe", "bad", "Sensor error")
  else if s.manual = "start" then ("Pump running by hand", "flow", "Manual")
  else if s.manual = "stop" then ("Pump stopped by hand", "warn", "Manual")
  else if s.reason = "maintenance" then ("Maintenance run", "flow", "Maintenance")
  else if s.on then ("Pump running", "flow", "Running")
  else (if s.c.isNone then "Waiting for the sensor" else "Pump idle", "ok", "Idle")

structure Item where
  ts : Rat
  what : String
  small : String
  amt : String
  kind : String
deriving DecidableEq

/-- `by` is what the detail adds. -/
def pumpItem (item : Item) (by_ : String) (e : Event) : Item :=
  let item :=
    if e.reason = "auto_hot" then { item with what := "Pump started" }
    else if e.reason = "manual_on" then { item with what := "Started by hand", small := item.small ++ by_ }
    else if e.reason = "manual_off" then
      { item with what := "Stopped by hand", small := item.small ++ by_, kind := "warn" }
    else if e.reason = "maintenance" then { item with what := "Maintenance run" }
    else if e.reason = "sensor_fail" then { item with what := "Pump on: sensor failure", kind := "bad" }
    else if e.reason = "overheat" then { item with what := "Pump on: overheat", kind := "bad" }
    else if e.prev_reason = "maintenance" then { item with what := "Maintenance run done" }
    else if e.prev_reason = "manual_on" ∨ e.prev_reason = "manual_off" then
      { item with what := if e.on then "Back to auto, pump running" else "Back to auto, pump stopped" }
    else { item with what := if e.on then "Pump running" else "Pump stopped" }
  { item with amt := if e.on then "on" else "off" }

def eventItem (e : Event) : Item :=
  let item : Item := {
    ts := e.ts
    what := ""
    small := match e.temp_c with
      | none => ""
      | some c => s!"water {degU c}"
    amt := ""
    kind := "" }
  let by_ := if e.detail = "" then "" else s!", {e.detail}"
  if e.type = "pump" then pumpItem item by_ e
  else if e.type = "overheat" then
    { item with what := if e.on then "Overheat" else "Overheat over", kind := if e.on then "bad" else "" }
  else if e.type = "sensor" then
    { item with
      what := if e.on then "Temperature sensor failed" else "Temperature sensor back"
      kind := if e.on then "bad" else "" }
  else
    { item with
      what := if e.detail = "overheat" then "Manual stop cancelled by overheat" else "Back to auto"
      kind := if e.detail = "overheat" then "warn" else "" }

/-- The `marker` of `refresh`: the events are loaded again when it changes. -/
def marker (s : Status) : String :=
  s!"{s.on}|{s.reason}|{s.manual}|{s.starts}|{s.sensor_failed}|{s.overheat}"

/-! ## What it asks for -/

/-- The values of `data-minutes`; the page starts with an hour. -/
def MINUTES : List Rat := [30, 60, 240]

def canStart (busy : Bool) (state : Option Status) : Bool :=
  !busy && state.any fun s => !(s.on && s.overheat)

def fired (s : Status) : String := if s.on then "stop" else "start"

def command (stateName : String) (minutes : Rat) : Json :=
  if stateName = "auto" then .obj [("state", .str "auto")]
  else .obj [("state", .str stateName), ("minutes", .num minutes)]

def mathRound (x : Rat) : Int := ⌊x + 1 / 2⌋

/-- `state.settings[key]` of a button's `data-set`. -/
def setting (s : Status) (key : String) : Rat :=
  if key = "start_c" then s.start_c else if key = "stop_c" then s.stop_c else s.critical_c

structure Button where
  set : String
  step : Rat

def BUTTONS : List Button :=
  [⟨"start_c", -1 / 2⟩, ⟨"start_c", 1 / 2⟩, ⟨"stop_c", -1 / 2⟩, ⟨"stop_c", 1 / 2⟩, ⟨"critical_c", -1 / 2⟩,
    ⟨"critical_c", 1 / 2⟩]

/-- The body that a press of the button posts. The last quotient is printed as its tenths. -/
def pressed (s : Status) (b : Button) : Json :=
  .obj [(b.set, .num (mathRound (double (double (double (setting s b.set) + b.step) * 10)) / 10))]

end FloorHeating.App
