import FloorHeating.Lib.Json

/-! # A status document that does not contradict itself -/

namespace FloorHeating

def Json.field (doc : Json) (part key : String) : Option Json := (doc.item part).bind (·.item key)

structure Consistent (doc : Json) : Prop where
  pump : ∃ reason, doc.field "pump" "reason" = some (.str reason) ∧
    doc.field "pump" "on" = some (.bool (decide (reason ∉ ["auto_cold", "manual_off"])))
  overheat : doc.field "temp" "overheat" = some (.bool true) ↔ doc.field "pump" "reason" = some (.str "overheat")
  stopped : doc.field "pump" "manual" = some (.str "stop") ↔ doc.field "pump" "reason" = some (.str "manual_off")
  failures : ∃ n : Nat, doc.field "temp" "failures" = some (.num n) ∧
    doc.field "temp" "sensor_failed" = some (.bool (decide (3 ≤ n)))
  fail_safe : doc.field "temp" "sensor_failed" = some (.bool true) →
    doc.field "pump" "on" = some (.bool true) ∨ doc.field "pump" "manual" = some (.str "stop")
  manual_left : ∃ left : Int, doc.field "pump" "manual_left_s" = some (.num left) ∧ left ≤ 43200 ∧
    (doc.field "pump" "manual" = some (.str "none") → left = 0)
  times : ∃ state idle : Int, doc.field "pump" "state_s" = some (.num state) ∧
    doc.field "pump" "idle_s" = some (.num idle) ∧ 0 ≤ state ∧ 0 ≤ idle
  /-- No reading since boot, or one that the sensor can measure. -/
  temp : (doc.field "temp" "c" = some .null ∧ doc.field "temp" "age_s" = some (.num (-1 : Int))) ∨
    ∃ (c : Rat) (age : Int), doc.field "temp" "c" = some (.num c) ∧ doc.field "temp" "age_s" = some (.num age) ∧
      -55 ≤ c ∧ c ≤ 125 ∧ 0 ≤ age
  thresholds : ∃ start stop critical : Rat, doc.field "settings" "start_c" = some (.num start) ∧
    doc.field "settings" "stop_c" = some (.num stop) ∧ doc.field "settings" "critical_c" = some (.num critical) ∧
    20 ≤ start ∧ start ≤ 60 ∧ 10 ≤ stop ∧ stop + 2 ≤ start ∧ start + 5 ≤ critical ∧ critical ≤ 80

end FloorHeating
