import FloorHeating.Code.TempSensor
import FloorHeating.Spec.Task

/-!
# The control task with the bus

The sensor's statics go along with those of the task, and the bus answers
whatever it likes. In the end a working sensor is on it.
-/

open FloorHeating.Lib

namespace FloorHeating

structure Device where
  task : Task
  sensor : TempSensor

inductive DeviceTurn where
  | pass (p : Pass) (bus : Bus)
  | command (settings : Settings) (date : LocalDate) (now_s : Int) (manual : CtlManual)
      (duration_s : UInt32) (who : String)

def Device.asks (d : Device) : DeviceTurn → Option Bus
  | .pass p bus => if d.task.reads p then some bus else none
  | .command .. => none

/-- The turn of the task; the reading of a pass is the one that the sensor gives. -/
def DeviceTurn.turn (d : Device) : DeviceTurn → Turn
  | .pass p bus => .pass { p with reading := (temp_sensor_read d.sensor bus).2 }
  | .command settings date now m duration_s who => .command settings date now m duration_s who

def DeviceTurn.exec (d : Device) (x : DeviceTurn) : Device where
  task := (x.turn d).exec d.task
  sensor := match d.asks x with
    | some bus => (temp_sensor_read d.sensor bus).1
    | none => d.sensor

def device_start (boot : Int) : Device := ⟨task_start boot, .init⟩

def deviceAfter (boot : Int) (l : List DeviceTurn) : Device := run DeviceTurn.exec (device_start boot) l

def readingsFrom (d : Device) : List DeviceTurn → List (Option Int16)
  | [] => []
  | x :: l => ((d.asks x).map fun bus => (temp_sensor_read d.sensor bus).2).toList ++ readingsFrom (x.exec d) l

/-! ## The calls on the bus -/

inductive BusCall where
  | scan
  | measure (addr : UInt64) (failed : Bool)

def busCalls (s : TempSensor) (bus : Bus) : List BusCall :=
  let (s', known) := scan_devices s bus
  (if s.s_found then [] else [.scan]) ++
    (if known then [.measure s'.s_addr (temp_sensor_read s bus).2.isNone] else [])

def busLog (d : Device) : List DeviceTurn → List BusCall
  | [] => []
  | x :: l => ((d.asks x).map (busCalls d.sensor)).getD [] ++ busLog (x.exec d) l

/-! ## A working sensor -/

/-- A temperature that the sensor can measure, and not its power-on value. -/
def Measurement.Valid (m : Measurement) : Prop :=
  m.err = .ESP_OK ∧ m.value ≠ 850 ∧ -550 ≤ m.value ∧ m.value ≤ 1250

instance (m : Measurement) : Decidable m.Valid := inferInstanceAs (Decidable (_ ∧ _))

/-- The sensor with the address `b`, and no other one. -/
structure Working (bus : Bus) (b : UInt64) : Prop where
  scan : bus.scan = ⟨.ESP_OK, some b, 1⟩
  measure : (bus.measure b).Valid
  other : ∀ a, a ≠ b → ¬ (bus.measure a).Valid

def sensorCall (c : Control) (p : Pass) (reading : Option Int16) : CtlState × CtlResult :=
  ctl_sensor c.s_state (config_from_settings p.for_sensor) p.read_s reading.isSome (reading.getD 0).toInt {}

/-- The call ends the fail-safe, if it was active, and nothing in the pass starts it again. -/
structure Released (before : Control) (call : CtlState × CtlResult) (after : Control) : Prop where
  cleared : call.1.sensor_failed = false ∧ call.1.failures = 0
  reported : call.2.sensor_recovered = true ↔ before.s_state.sensor_failed = true
  kept : after.s_state.sensor_failed = false ∧ after.s_state.failures = 0
  published : logOf .EV_SENSOR (after.published.drop before.published.length) =
    if before.s_state.sensor_failed then [false] else []

end FloorHeating
