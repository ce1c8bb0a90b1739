import FloorHeating.Spec.Consistent
import FloorHeating.Spec.Machine
import FloorHeating.Spec.Summary

/-!
# From the devices to the tables

Each device is a whole firmware. The broker may bring what a device sent late,
again, out of order or never, but nobody else publishes under its topic.
-/

open FloorHeating.Lib

namespace FloorHeating

section Fleet

variable {τ : Type}

def Fleet (fleet : String → Machine) : Prop :=
  ∀ device, ∃ nvs ring boot h, fleet device = machineAfter nvs ring boot h

def Authentic (fleet : String → Machine) (m : Message τ) : Prop :=
  ∀ device, m.topic = stateTopic device → ∃ doc ∈ (fleet device).documents, m.payload.json = some doc

def Concerns (v : Validate) (device : String) (m : Message τ) : Bool :=
  match parse v m.topic m.payload with
  | .ok (.status d _) => d = device
  | .ok (.state f) => f.device = device
  | .error _ => false

end Fleet

structure Says (to_real : Rat → Rat) (doc : Json) (row : SampleRow) : Prop where
  pump_on : doc.field "pump" "on" = some (.bool row.pump_on)
  reason : doc.field "pump" "reason" = some (.str row.reason)
  manual : doc.field "pump" "manual" = some (.str row.manual)
  maintenance : doc.field "pump" "maintenance" = some (.bool row.maintenance)
  overheat : doc.field "temp" "overheat" = some (.bool row.overheat)
  sensor_failed : doc.field "temp" "sensor_failed" = some (.bool row.sensor_failed)
  temp_c : ∃ c : Option Rat, doc.field "temp" "c" = some (c.elim .null .num) ∧ row.temp_c = c.map to_real
  temp_age_s : ∃ age : Int, doc.field "temp" "age_s" = some (.num age) ∧
    row.temp_age_s = if age < 0 then none else some age
  settings : ∀ (key : String) (col : Option Rat),
    (key, col) ∈ [("start_c", row.start_c), ("stop_c", row.stop_c), ("critical_c", row.critical_c)] →
      ∃ c, doc.field "settings" key = some (.num c) ∧ col = some (to_real c)
  today : ∀ (key : String) (col : Option Int),
    (key, col) ∈ [("runtime_s", row.runtime_today_s), ("starts", row.starts_today)] →
      ∃ n : Int, doc.field "today" key = some (.num n) ∧ col = some n

/-- What the columns of a row say about each other. -/
structure SampleRow.Consistent (row : SampleRow) : Prop where
  pump : row.pump_on = decide (row.reason ∉ ["auto_cold", "manual_off"])
  overheat : row.overheat = true ↔ row.reason = "overheat"
  stopped : row.manual = "stop" ↔ row.reason = "manual_off"
  fail_safe : row.sensor_failed = true → row.pump_on = true ∨ row.manual = "stop"
  temp : row.temp_c.isSome = row.temp_age_s.isSome
  age : ∀ age ∈ row.temp_age_s, 0 ≤ age

end FloorHeating
