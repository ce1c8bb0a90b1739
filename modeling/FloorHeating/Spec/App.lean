import FloorHeating.Code.App
import FloorHeating.Code.Commands
import FloorHeating.Spec.Feed

/-! # What the page should show, by the reason of the last decision -/

namespace FloorHeating

/-- `known`: there was a reading since boot. -/
def headlineOf (known : Bool) : CtlReason → String × String × String
  | .Overheat => ("Overheat: pump forced on", "bad", "Overheat")
  | .SensorFail => ("Sensor failure: pump on to be safe", "bad", "Sensor error")
  | .ManualOn => ("Pump running by hand", "flow", "Manual")
  | .ManualOff => ("Pump stopped by hand", "warn", "Manual")
  | .Maintenance => ("Maintenance run", "flow", "Maintenance")
  | .AutoHot => ("Pump running", "flow", "Running")
  | .AutoCold => (if known then "Pump idle" else "Waiting for the sensor", "ok", "Idle")

/-- The page's table of priorities gives what the firmware's gave. -/
structure HeadlineRight (s : App.Status) : Prop where
  reason : ∃ reason, s.reason = ctl_reason_name reason ∧ s.on = reason.runs ∧
    App.headline s = headlineOf s.c.isSome reason

def pumpLog (l : List Event) : List Event := l.filter (·.type = .EV_PUMP)

def Describes (s : App.Status) (c : Control) (st : Settings) : Prop :=
  ∃ now_mono_s events_unix_time system,
    App.Status.read (api_status_json (control_status c now_mono_s) st events_unix_time system) = some s

/-! ## The buttons of the thresholds -/

/-- Half a degree on, or to the bound; the start threshold pushes the others where their margins need it. -/
def Settings.pressed (old : Settings) (b : App.Button) : Settings :=
  let d : Int := if 0 < b.step then 5 else -5
  if b.set = "start_c" then
    let start := max 200 (min (old.start_x10 + d) 600)
    ⟨start, min old.stop_x10 (start - 20), max old.critical_x10 (start + 50)⟩
  else if b.set = "stop_c" then { old with stop_x10 := max 100 (min (old.stop_x10 + d) (old.start_x10 - 20)) }
  else { old with critical_x10 := max (old.start_x10 + 50) (min (old.critical_x10 + d) 800) }

structure Settings.HalfDegrees (s : Settings) : Prop where
  start : 5 ∣ s.start_x10
  stop : 5 ∣ s.stop_x10
  critical : 5 ∣ s.critical_x10

/-- Buttons pressed one after the other on pages that show the store's thresholds, with or without luck in saving. -/
inductive Presses (to_int16 : Rat → Int) : Store → List App.Button → Store → Prop where
  | none (st : Store) : Presses to_int16 st [] st
  | more {st st' : Store} {l : List App.Button} {b : App.Button} {s : App.Status} {c : Control} (io : NvsCalls)
      (before : Presses to_int16 st l st') (known : b ∈ App.BUTTONS) (shown : Describes s c (settings_get st')) :
      Presses to_int16 st (l ++ [b]) (apply_settings to_int16 st' io (App.pressed s b)).1

end FloorHeating
