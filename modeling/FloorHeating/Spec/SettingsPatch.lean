import FloorHeating.Code.Commands
import FloorHeating.Lib.Rounding
import Mathlib.Data.Rat.Floor

/-! # A settings patch, as the API describes it -/

open FloorHeating.Lib

namespace FloorHeating

/-- A temperature that counts; anything else is as good as no member. -/
def Gives (body : Json) (key : String) (c : Rat) : Prop :=
  body.item key = some (.num c) ∧ -100 < double c ∧ double c < 200

/-- `c` in tenths, as doubles round it. -/
def tenthsOf (c : Rat) : Int :=
  let v := double (double c * 10)
  towardZero (if v < 0 then double (v - 1 / 2) else double (v + 1 / 2))

def Absent (body : Json) (key : String) : Prop := ∀ c, ¬ Gives body key c

/-- The tenths wanted for a threshold: those of the patch, or else the `current` ones. -/
def Wanted (body : Json) (key : String) (current v : Int) : Prop :=
  (∃ c, Gives body key c ∧ v = tenthsOf c) ∨ (Absent body key ∧ v = current)

/-- `new` is `old` with the patch. The start threshold goes first. -/
structure Patched (body : Json) (old new : Settings) : Prop where
  start : ∃ v, Wanted body "start_c" old.start_x10 v ∧ NearestIn 200 600 v new.start_x10
  stop : ∃ v, Wanted body "stop_c" old.stop_x10 v ∧ NearestIn 100 (new.start_x10 - 20) v new.stop_x10
  critical : ∃ v, Wanted body "critical_c" old.critical_x10 v ∧
    NearestIn (new.start_x10 + 50) 800 v new.critical_x10

def PostsBack (body : Json) (s : Settings) : Prop :=
  ∃ status events_unix_time system part,
    (api_status_json status s events_unix_time system).item "settings" = some part ∧
      ∀ key ∈ ["start_c", "stop_c", "critical_c"], body.item key = part.item key

end FloorHeating
