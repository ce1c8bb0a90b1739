import FloorHeating.Code.Settings

/-!
# temp_sensor.c

What the 1-Wire library answers in one call is an argument, and so is the tenths
that `lroundf(t * 10)` makes of a measured value.
-/

namespace FloorHeating

def SENSOR_POWER_ON_VALUE_X10 : Int := 850

/-- `ds18x20_scan_devices`: `addr` is what it wrote to `s_addr`, if anything. -/
structure Scan where
  err : EspErr
  addr : Option UInt64
  found : Nat

/-- `ds18x20_measure_and_read`, in tenths. -/
structure Measurement where
  err : EspErr
  value : Int

structure Bus where
  scan : Scan
  measure : UInt64 → Measurement

structure TempSensor where
  s_addr : UInt64
  s_found : Bool
  s_failures : UInt8
deriving DecidableEq, Repr

def TempSensor.init : TempSensor := ⟨0, false, 0⟩

/-- The scan while no sensor is known, and whether one is known now. -/
def scan_devices (s : TempSensor) (bus : Bus) : TempSensor × Bool :=
  if s.s_found then (s, true)
  else
    let s := { s with s_addr := bus.scan.addr.getD s.s_addr }
    if bus.scan.err ≠ .ESP_OK ∨ bus.scan.found < 1 then (s, false)
    else ({ s with s_found := true }, true)

/-- `none` where the C function returns false. -/
def temp_sensor_read (s : TempSensor) (bus : Bus) : TempSensor × Option Int16 :=
  let (s, known) := scan_devices s bus
  if ¬ known then (s, none)
  else
    let m := bus.measure s.s_addr
    let value := if m.err = .ESP_OK then m.value else 0
    if m.err ≠ .ESP_OK ∨ value = SENSOR_POWER_ON_VALUE_X10 ∨ value < -550 ∨ 1250 < value then
      let s := { s with s_failures := s.s_failures + 1 }
      (if SENSOR_FAIL_READS ≤ s.s_failures then { s with s_found := false, s_failures := 0 } else s, none)
    else ({ s with s_failures := 0 }, some (Int16.ofInt value))

end FloorHeating
