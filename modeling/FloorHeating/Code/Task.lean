import FloorHeating.Code.Control
import FloorHeating.Code.History

/-!
# control.c: the control task

The task's own variables, the history it fills and the statics of control.c in
one record. A pass is one round of the task's loop, up to its wait.
-/

namespace FloorHeating

structure Task where
  control : Control
  next_read_s : Int
  next_history_s : Int
  history : History

/-- What the rest of the firmware gives to one pass: `events_mono_s()` at the top of the loop and after
the sensor was asked, and what `temp_sensor_read` returns if it is asked. -/
structure Pass where
  top_s : Int
  read_s : Int
  reading : Option Int16
  for_sensor : Settings
  settings : Settings
  date : LocalDate

def task_start (boot_s : Int) : Task where
  control := control_start boot_s
  next_read_s := 0
  next_history_s := 0
  history := History.init

/-- `history_add` reads the clock once more; it shows `read_s` too. -/
def control_task (t : Task) (p : Pass) : Task :=
  let now_s := p.top_s
  let read := decide (t.next_read_s ≤ now_s)
  let t := if read then { t with next_read_s := now_s + CONTROL_READ_PERIOD_S } else t
  let now_s := if read then p.read_s else now_s
  let c := task_locked t.control p.for_sensor p.settings p.date now_s
    (if read then some (p.reading.map Int16.toInt) else none)
  let on := c.s_state.on
  let t := { t with control := c }
  if read ∧ t.next_history_s ≤ now_s then
    { t with
      next_history_s := now_s + HISTORY_PERIOD_S
      history := t.history.history_add now_s p.reading.isSome (p.reading.getD 0) on }
  else t

end FloorHeating
