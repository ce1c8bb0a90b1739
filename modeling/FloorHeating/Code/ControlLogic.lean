/-!
# control_logic.c

Temperatures are tenths of a degree. Clock values are whole seconds since boot
and `Int`, so the `int64_t` sums below cannot overflow.
-/

namespace FloorHeating

def UINT8_MAX : UInt8 := 255

def OVERHEAT_CLEAR_X10 : Int := 20

inductive CtlReason where
  | AutoCold
  | AutoHot
  | ManualOn
  | ManualOff
  | Maintenance
  | SensorFail
  | Overheat
deriving DecidableEq, Repr

inductive CtlManual where
  | None
  | Start
  | Stop
deriving DecidableEq, Repr

structure CtlConfig where
  start_x10 : Int
  stop_x10 : Int
  critical_x10 : Int
  maintenance_interval_s : UInt32
  maintenance_run_s : UInt32
  sensor_fail_reads : UInt8
deriving DecidableEq, Repr

structure CtlState where
  on : Bool
  reason : CtlReason
  changed_s : Int
  have_temp : Bool
  temp_x10 : Int
  temp_s : Int
  failures : UInt8
  sensor_failed : Bool
  overheat : Bool
  hot : Bool
  manual : CtlManual
  manual_until_s : Int
  maintenance : Bool
  maintenance_until_s : Int
  last_on_s : Int
deriving DecidableEq, Repr

/-- `ctl_result_t`; the defaults are what `memset` leaves. -/
structure CtlResult where
  changed : Bool := false
  prev_reason : CtlReason := .AutoCold
  sensor_failed : Bool := false
  sensor_recovered : Bool := false
  overheat_started : Bool := false
  overheat_ended : Bool := false
  manual_expired : Bool := false
  manual_cancelled : Bool := false
  maintenance_started : Bool := false
deriving DecidableEq, Repr

def ctl_init (now_s : Int) : CtlState where
  on := false
  reason := .AutoCold
  changed_s := now_s
  have_temp := false
  temp_x10 := 0
  temp_s := 0
  failures := 0
  sensor_failed := false
  overheat := false
  hot := false
  manual := .None
  manual_until_s := 0
  maintenance := false
  maintenance_until_s := 0
  last_on_s := now_s

/-! ## A sensor read -/

/-- The branch `if (!valid)` of `ctl_sensor`. -/
def read_failed (s : CtlState) (cfg : CtlConfig) (res : CtlResult) : CtlState × CtlResult :=
  let s := { s with failures := if s.failures < UINT8_MAX then s.failures + 1 else s.failures }
  if s.sensor_failed = false ∧ cfg.sensor_fail_reads ≤ s.failures then
    ({ s with sensor_failed := true }, { res with sensor_failed := true })
  else (s, res)

def update_overheat (s : CtlState) (cfg : CtlConfig) (temp_x10 : Int) (res : CtlResult) :
    CtlState × CtlResult :=
  if s.overheat = false ∧ cfg.critical_x10 ≤ temp_x10 then
    ({ s with overheat := true }, { res with overheat_started := true })
  else if s.overheat = true ∧ temp_x10 < cfg.critical_x10 - OVERHEAT_CLEAR_X10 then
    ({ s with overheat := false }, { res with overheat_ended := true })
  else (s, res)

def update_hot (s : CtlState) (cfg : CtlConfig) (temp_x10 : Int) : CtlState :=
  if cfg.start_x10 < temp_x10 then { s with hot := true }
  else if temp_x10 < cfg.stop_x10 then { s with hot := false }
  else s

def ctl_sensor (s : CtlState) (cfg : CtlConfig) (now_s : Int) (valid : Bool) (temp_x10 : Int)
    (res : CtlResult) : CtlState × CtlResult :=
  if valid = false then read_failed s cfg res
  else
    let res := if s.sensor_failed then { res with sensor_recovered := true } else res
    let s := { s with
      sensor_failed := false, failures := 0, have_temp := true, temp_x10 := temp_x10, temp_s := now_s }
    let (s, res) := update_overheat s cfg temp_x10 res
    (update_hot s cfg temp_x10, res)

/-! ## A command -/

/-- `none` for a refused command (the C function returns false and changes nothing). -/
def ctl_manual (s : CtlState) (manual : CtlManual) (duration_s : UInt32) (now_s : Int) :
    Option CtlState :=
  if manual = .Stop ∧ s.overheat = true then none
  else some { s with
    manual := manual
    manual_until_s := if manual = .None then 0 else now_s + duration_s.toNat }

/-! ## A decision -/

def expire_manual (s : CtlState) (now_s : Int) (res : CtlResult) : CtlState × CtlResult :=
  let (s, res) :=
    if s.manual ≠ .None ∧ s.manual_until_s ≤ now_s then
      ({ s with manual := .None }, { res with manual_expired := true })
    else (s, res)
  if s.manual = .Stop ∧ s.overheat = true then
    ({ s with manual := .None }, { res with manual_cancelled := true })
  else (s, res)

def update_maintenance (s : CtlState) (cfg : CtlConfig) (now_s : Int) (res : CtlResult) :
    CtlState × CtlResult :=
  let s := if s.on then { s with last_on_s := now_s } else s
  let s := if s.maintenance ∧ s.maintenance_until_s ≤ now_s then { s with maintenance := false } else s
  if s.maintenance = false ∧ s.on = false ∧ s.manual = .None ∧ s.sensor_failed = false ∧
      s.have_temp = true ∧ s.temp_x10 < cfg.stop_x10 ∧
      (cfg.maintenance_interval_s.toNat : Int) ≤ now_s - s.last_on_s then
    ({ s with maintenance := true, maintenance_until_s := now_s + cfg.maintenance_run_s.toNat },
      { res with maintenance_started := true })
  else (s, res)

/-- The `if`/`else if` chain of `ctl_decide` that picks the pump state. -/
def choose (s : CtlState) : Bool × CtlReason :=
  if s.overheat then (true, .Overheat)
  else if s.manual = .Start then (true, .ManualOn)
  else if s.manual = .Stop then (false, .ManualOff)
  else if s.sensor_failed then (true, .SensorFail)
  else if s.hot then (true, .AutoHot)
  else if s.maintenance then (true, .Maintenance)
  else (false, .AutoCold)

/-- The end of `ctl_decide`: the picked state takes effect. -/
def apply_choice (s : CtlState) (now_s : Int) (on : Bool) (reason : CtlReason) (res : CtlResult) :
    CtlState × CtlResult :=
  let res := { res with prev_reason := s.reason }
  let (s, res) :=
    if on ≠ s.on then
      ({ s with on := on, changed_s := now_s }, { res with changed := true })
    else (s, res)
  let s := if on then { s with last_on_s := now_s } else s
  ({ s with reason := reason }, res)

def ctl_decide (s : CtlState) (cfg : CtlConfig) (now_s : Int) (res : CtlResult) :
    CtlState × CtlResult :=
  let (s, res) := expire_manual s now_s res
  let (s, res) := update_maintenance s cfg now_s res
  let (on, reason) := choose s
  apply_choice s now_s on reason res

def ctl_reason_name : CtlReason → String
  | .AutoCold => "auto_cold"
  | .AutoHot => "auto_hot"
  | .ManualOn => "manual_on"
  | .ManualOff => "manual_off"
  | .Maintenance => "maintenance"
  | .SensorFail => "sensor_fail"
  | .Overheat => "overheat"

end FloorHeating
