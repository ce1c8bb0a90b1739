import FloorHeating.Lib.Runs
import FloorHeating.Spec.Sections

/-! # A relay that something else switches too -/

open FloorHeating.Lib

namespace FloorHeating

inductive PinStep where
  | lock (sec : Section)
  | level (on : Bool)

namespace PinStep

def exec (c : Control) : PinStep → Control
  | .lock sec => sec.exec c
  | .level on => pump_set c on

def locked : PinStep → Option Section
  | .lock sec => some sec
  | .level _ => none

def isPass : PinStep → Bool
  | .lock (.task ..) => true
  | _ => false

def isLevel : PinStep → Bool
  | .level _ => true
  | .lock _ => false

end PinStep

def Disturbed (h : List PinStep) : Prop := Since (fun _ a => a.isLevel = true) (fun _ a => a.isPass = true) h

end FloorHeating
