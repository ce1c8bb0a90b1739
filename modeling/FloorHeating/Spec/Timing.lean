import FloorHeating.Spec.Task

/-! # What the clock promises, pass by pass -/

namespace FloorHeating

def firstTop : List Turn → Option Int
  | [] => none
  | .pass p :: _ => some p.top_s
  | _ :: l => firstTop l

/-- When the last pass ended; the one before the run ended at `last`. -/
def lastEnd (last : Option Int) : List Turn → Option Int
  | [] => last
  | .pass p :: l => lastEnd (some p.read_s) l
  | _ :: l => lastEnd last l

/-- The time of the last valid reading; without one, a period and a second before the first pass. -/
def Task.lastSeen (t : Task) (first : Int) : Int :=
  if t.control.s_state.have_temp then t.control.s_state.temp_s else first - 6

structure OnTime (t : Task) (first b : Int) : Prop where
  due : b < t.next_read_s
  /-- No read is more than six seconds after the one before it. -/
  next : t.control.s_state.failures.toNat < 255 →
    t.next_read_s ≤ t.lastSeen first + 6 * t.control.s_state.failures.toNat + 5
  heartbeat : t.control.s_heartbeat_s = b

end FloorHeating
