import FloorHeating.Code.ControlLogic
import FloorHeating.Lib.Runs
import Mathlib.Data.List.DropRight

/-!
# The control rules, told by the history

The README gives the rules as a table of priorities. Here each row is a
statement about the calls made so far, with no latch and no timer in it.
`Priority.lean` shows that the latches and timers of the code say the same.
-/

open FloorHeating.Lib

namespace FloorHeating

/-! ## Calls and steps -/

inductive Call where
  | sensor (cfg : CtlConfig) (now_s : Int) (valid : Bool) (temp_x10 : Int)
  | manual (manual : CtlManual) (duration_s : UInt32) (now_s : Int)
  | decide (cfg : CtlConfig) (now_s : Int)

def Call.apply (s : CtlState) : Call → CtlState
  | .sensor cfg now valid t => (ctl_sensor s cfg now valid t {}).1
  | .manual m d now => (ctl_manual s m d now).getD s
  | .decide cfg now => (ctl_decide s cfg now {}).1

def after (boot : Int) (h : List Call) : CtlState := run Call.apply (ctl_init boot) h

/-- What one lock section of `control.c` does. The task fetches the settings twice, once for
`ctl_sensor` and once for `ctl_decide`. -/
inductive Step where
  | read (cfg : CtlConfig) (now_s : Int) (valid : Bool) (temp_x10 : Int) (cfg' : CtlConfig)
  | decide (cfg : CtlConfig) (now_s : Int)
  | command (cfg : CtlConfig) (now_s : Int) (manual : CtlManual) (duration_s : UInt32)

def Step.calls (s : CtlState) : Step → List Call
  | .read cfg now valid t cfg' => [.sensor cfg now valid t, .decide cfg' now]
  | .decide cfg now => [.decide cfg now]
  | .command cfg now m d =>
    .manual m d now :: if (ctl_manual s m d now).isSome then [.decide cfg now] else []

def history (boot : Int) (steps : List Step) : List Call :=
  steps.foldl (fun h st => h ++ st.calls (after boot h)) []

/-! ## Rule 1: overheat -/

def Call.AtCritical : Call → Prop
  | .sensor cfg _ true t => cfg.critical_x10 ≤ t
  | _ => False

def Call.BelowClear : Call → Prop
  | .sensor cfg _ true t => t < cfg.critical_x10 - 20
  | _ => False

def Overheated (h : List Call) : Prop := Since (fun _ a => a.AtCritical) (fun _ a => a.BelowClear) h

/-! ## Rule 2: the command -/

/-- A stop is refused while rule 1 holds. -/
def Accepted (h : List Call) : Call → Prop
  | .manual m _ _ => ¬ (m = .Stop ∧ Overheated h)
  | _ => False

def Commands (m : CtlManual) (til : Int) (h : List Call) (a : Call) : Prop :=
  Accepted h a ∧ ∃ d now, a = .manual m d now ∧ til = now + d.toNat

/-- The next accepted command, or a decision at the deadline, or for a stop under rule 1. -/
def EndsCommand (m : CtlManual) (til : Int) (h : List Call) (a : Call) : Prop :=
  Accepted h a ∨ ∃ cfg now, a = .decide cfg now ∧ (til ≤ now ∨ (m = .Stop ∧ Overheated h))

def Override (m : CtlManual) (h : List Call) : Prop :=
  ∃ til, Since (Commands m til) (EndsCommand m til) h

/-! ## Rule 3: the sensor -/

def Call.outcome : Call → Option Bool
  | .sensor _ _ valid _ => some valid
  | _ => none

def failedReads (h : List Call) : Nat := ((h.filterMap Call.outcome).rtakeWhile (!·)).length

def SensorFailed (failReads : UInt8) (h : List Call) : Prop :=
  0 < failedReads h ∧ failReads.toNat ≤ failedReads h

/-! ## Rule 4: hysteresis -/

def Call.AboveStart : Call → Prop
  | .sensor cfg _ true t => cfg.start_x10 < t
  | _ => False

def Call.BelowStop : Call → Prop
  | .sensor cfg _ true t => t < cfg.stop_x10
  | _ => False

def Hot (h : List Call) : Prop := Since (fun _ a => a.AboveStart) (fun _ a => a.BelowStop) h

/-! ## Rule 5: maintenance -/

/-- The decision reports the start of a run that ends at `til`. -/
def StartsRun (boot til : Int) (h : List Call) (a : Call) : Prop :=
  ∃ cfg now, a = .decide cfg now ∧ til = now + cfg.maintenance_run_s.toNat ∧
    (ctl_decide (after boot h) cfg now {}).2.maintenance_started = true

def EndsRun (til : Int) (_ : List Call) (a : Call) : Prop := ∃ cfg now, a = .decide cfg now ∧ til ≤ now

def Maintaining (boot : Int) (h : List Call) : Prop := ∃ til, Since (StartsRun boot til) (EndsRun til) h

/-! ## The table -/

open Classical in
/-- The pump and the reason that the rules give, highest priority first. -/
noncomputable def priority (failReads : UInt8) (boot : Int) (h : List Call) : Bool × CtlReason :=
  if Overheated h then (true, .Overheat)
  else if Override .Start h then (true, .ManualOn)
  else if Override .Stop h then (false, .ManualOff)
  else if SensorFailed failReads h then (true, .SensorFail)
  else if Hot h then (true, .AutoHot)
  else if Maintaining boot h then (true, .Maintenance)
  else (false, .AutoCold)

end FloorHeating
