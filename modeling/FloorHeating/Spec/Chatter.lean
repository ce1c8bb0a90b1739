import FloorHeating.Lib.Hysteresis
import FloorHeating.Spec.Api

/-! # Switches that the thermostat makes -/

open FloorHeating.Lib

namespace FloorHeating

def Section.ReadsWith (st : Settings) : Section → Prop
  | .task for_sensor _ _ _ _ => for_sensor = st
  | .command .. => True

def readingsOf (l : List Section) : List Int := l.filterMap fun sec => sec.valid.map Prod.fst

def Event.Automatic (e : Event) : Prop :=
  e.type = .EV_PUMP ∧ ((e.prev_reason = .AutoCold ∧ e.reason = .AutoHot) ∨
    (e.prev_reason = .AutoHot ∧ e.reason = .AutoCold))

instance : DecidablePred Event.Automatic := fun e => inferInstanceAs (Decidable (e.type = .EV_PUMP ∧ _))

/-- What was published after the run `h`, in the run `h ++ l`. -/
def publishedIn (boot : Int) (h l : List Section) : List Event :=
  (controlAfter boot (h ++ l)).published.drop (controlAfter boot h).published.length

/-! ## The two flags -/

def hotUp (st : Settings) (t : Int) : Bool := decide (st.start_x10 < t)

def hotDown (st : Settings) (t : Int) : Bool := decide (t < st.stop_x10)

def heatUp (st : Settings) (t : Int) : Bool := decide (st.critical_x10 ≤ t)

def heatDown (st : Settings) (t : Int) : Bool := decide (t < st.critical_x10 - OVERHEAT_CLEAR_X10)

end FloorHeating
