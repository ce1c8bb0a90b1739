import FloorHeating.Code.Control
import FloorHeating.Spec.History

/-!
# Runs of lock sections

`s_lock` makes the control task and the commands take turns. A run is the list
of the sections that got the lock, in order.
-/

open FloorHeating.Lib

namespace FloorHeating

inductive Section where
  | task (for_sensor settings : Settings) (date : LocalDate) (now_s : Int) (read : Option (Option Int))
  | command (settings : Settings) (date : LocalDate) (now_s : Int) (manual : CtlManual)
      (duration_s : UInt32) (who : String)

def Section.exec (c : Control) : Section → Control
  | .task for_sensor settings date now read => task_locked c for_sensor settings date now read
  | .command settings date now m d who => (control_manual c settings date now m d who).1

def controlAfter (boot : Int) (h : List Section) : Control := run Section.exec (control_start boot) h

def Section.step : Section → Step
  | .task for_sensor settings _ now (some reading) =>
    .read (config_from_settings for_sensor) now reading.isSome (reading.getD 0)
      (config_from_settings settings)
  | .task _ settings _ now none => .decide (config_from_settings settings) now
  | .command settings _ now m d _ => .command (config_from_settings settings) now m (clamp_duration d)

def Section.now_s : Section → Int
  | .task _ _ _ now _ => now
  | .command _ _ now _ _ _ => now

/-- The state that the section's decision looks at, or `none` for a refused command. -/
def Section.seen (c : Control) : Section → Option CtlState
  | .task for_sensor _ _ now (some reading) =>
    some (ctl_sensor c.s_state (config_from_settings for_sensor) now reading.isSome (reading.getD 0) {}).1
  | .task _ _ _ _ none => some c.s_state
  | .command _ _ now m d _ => ctl_manual c.s_state m (clamp_duration d) now

def Section.events (c : Control) (sec : Section) : List Event :=
  (sec.exec c).published.drop c.published.length

def logOf (type : EventType) (l : List Event) : List Bool := (l.filter (·.type = type)).map (·.on)

end FloorHeating
