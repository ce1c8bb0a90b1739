import FloorHeating.Spec.Sections

/-! # Sane thresholds, and new ones -/

namespace FloorHeating

/-! ## The bounds that `sanitize` promises -/

structure Settings.Sane (s : Settings) : Prop where
  start_min : 200 ≤ s.start_x10
  start_max : s.start_x10 ≤ 600
  stop_min : 100 ≤ s.stop_x10
  hysteresis : s.stop_x10 ≤ s.start_x10 - 20
  margin : s.start_x10 + 50 ≤ s.critical_x10
  critical_max : s.critical_x10 ≤ 800

def CtlConfig.thresholds (cfg : CtlConfig) : Settings := ⟨cfg.start_x10, cfg.stop_x10, cfg.critical_x10⟩

def Step.Sane : Step → Prop
  | .read cfg _ _ _ cfg' => cfg.thresholds.Sane ∧ cfg'.thresholds.Sane
  | .decide cfg _ => cfg.thresholds.Sane
  | .command cfg _ _ _ => cfg.thresholds.Sane

def Section.Sane : Section → Prop
  | .task for_sensor settings _ _ _ => for_sensor.Sane ∧ settings.Sane
  | .command settings _ _ _ _ _ => settings.Sane

/-! ## New thresholds -/

/-- The section after a change to `new`: every fetch gives `new`, and no command holds the pump. -/
def Section.Follows (new : Settings) : Section → Prop
  | .task for_sensor settings _ _ _ => for_sensor = new ∧ settings = new
  | .command settings _ _ m _ _ => settings = new ∧ m = .None

def Section.reading : Section → Option (Option Int)
  | .task _ _ _ _ read => read
  | .command .. => none

/-- The pump is where `new` wants it for the last reading. -/
structure Prescribed (new : Settings) (s : CtlState) : Prop where
  critical : new.critical_x10 ≤ s.temp_x10 → s.on = true ∧ s.reason = .Overheat
  above_start : new.start_x10 < s.temp_x10 → s.on = true
  below_stop : s.temp_x10 < new.stop_x10 → s.temp_x10 < new.critical_x10 - 20 → s.maintenance = false →
    s.on = false

def Trips (s : CtlState) (sec : Section) : Prop :=
  sec.reading = some none ∧ SENSOR_FAIL_READS.toNat ≤ s.failures.toNat + 1

/-- The latches, which the old thresholds set, happen to agree with `new`. -/
structure Agree (new : Settings) (s : CtlState) (sec : Section) : Prop where
  critical : new.critical_x10 ≤ s.temp_x10 → s.overheat = true
  above_start : new.start_x10 < s.temp_x10 →
    s.hot = true ∨ Trips s sec ∨ (s.maintenance = true ∧ sec.now_s < s.maintenance_until_s)
  below_stop : s.temp_x10 < new.stop_x10 → ¬ (s.maintenance = true ∧ sec.now_s < s.maintenance_until_s) →
    s.hot = false ∧ ¬ Trips s sec

end FloorHeating
