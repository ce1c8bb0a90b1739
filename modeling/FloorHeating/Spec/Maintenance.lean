import FloorHeating.Spec.History
import Mathlib.Data.Set.Insert
import Mathlib.Order.Bounds.Defs

/-! # When a maintenance run may start, must start, and ends -/

open FloorHeating.Lib

namespace FloorHeating

def Call.now_s : Call → Int
  | .sensor _ now _ _ => now
  | .manual _ _ now => now
  | .decide _ now => now

def Timely (boot : Int) (h : List Call) : Prop := (boot :: h.map Call.now_s).Pairwise (· ≤ ·)

def Call.reading : Call → Option Int
  | .sensor _ _ true t => some t
  | _ => none

def lastReading (h : List Call) : Option Int := (h.filterMap Call.reading).getLast?

def Call.Uses (interval run_s : UInt32) : Call → Prop
  | .decide cfg _ => cfg.maintenance_interval_s = interval ∧ cfg.maintenance_run_s = run_s
  | _ => True

def Runs (boot now : Int) (h : List Call) (a : Call) : Prop :=
  ∃ cfg, a = .decide cfg now ∧ ((after boot h).on = true ∨ (after boot (h ++ [a])).on = true)

def Starts (boot now : Int) (h : List Call) (a : Call) : Prop :=
  ∃ cfg, a = .decide cfg now ∧ (ctl_decide (after boot h) cfg now {}).2.maintenance_started = true

def LastRunning (boot : Int) (h : List Call) (t : Int) : Prop :=
  IsGreatest (insert boot {t | Past (Runs boot t) h}) t

def LastStart (boot : Int) (h : List Call) (start : Int) : Prop :=
  Since (Starts boot start) (fun h a => ∃ t, Starts boot t h a) h

/-- A decision at `now` that starts a maintenance run, after the history `h`. -/
structure RightStart (interval : UInt32) (boot : Int) (h : List Call) (cfg : CtlConfig) (now : Int) :
    Prop where
  since_boot : (interval.toNat : Int) ≤ now - boot
  idle : ∀ t, now - interval.toNat < t → ¬ Past (Runs boot t) h
  cold : ∃ t, lastReading h = some t ∧ t < cfg.stop_x10
  sensor : (after boot h).sensor_failed = false
  no_override : (after boot (h ++ [.decide cfg now])).manual = .None
  found_off : (after boot h).on = false
  left_on : (after boot (h ++ [.decide cfg now])).on = true
  reported : (ctl_decide (after boot h) cfg now {}).2.changed = true
  apart : ∀ t, Past (Starts boot t) h → t + interval.toNat ≤ now

end FloorHeating
