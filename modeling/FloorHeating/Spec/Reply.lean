import FloorHeating.Spec.Commands
import FloorHeating.Spec.Consistent

/-!
# The reply to a command, with the control task in between

`pump_command` has given `s_lock` back when `api_status_json` takes it again,
and the control task may take it in between. Another command may not: the
server runs its handlers one after the other.
-/

open FloorHeating.Lib

namespace FloorHeating

def Section.isTask : Section → Prop
  | .task .. => True
  | .command .. => False

def Section.AtCritical : Section → Prop
  | .task for_sensor _ _ _ (some (some t)) => for_sensor.critical_x10 ≤ t
  | _ => False

def Section.Ends (m : CtlManual) (til : Int) (sec : Section) : Prop :=
  til ≤ sec.now_s ∨ (m = .Stop ∧ sec.AtCritical)

def Lasts (m : CtlManual) (til : Int) (mid : List Section) : Prop := ∀ sec ∈ mid, ¬ sec.Ends m til

structure ShowsOverride (doc : Json) (word : String) (left : Int) : Prop where
  manual : doc.field "pump" "manual" = some (.str word)
  left : doc.field "pump" "manual_left_s" = some (.num left)

/-- The event is of an override `m` that ended: the pump switched, or it is as before and the time was up. -/
def TellsEnd (m : CtlManual) (e : Event) : Prop :=
  (e.type = .EV_PUMP ∧ e.on = decide (m ≠ .Start)) ∨
    (e.type = .EV_MANUAL_END ∧ e.on = decide (m = .Start) ∧ e.detail = "expired")

end FloorHeating
