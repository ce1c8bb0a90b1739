import FloorHeating.Code.App
import FloorHeating.Code.Events
import FloorHeating.Lib.Runs
import FloorHeating.Spec.Sections

/-! # What the notifications and the page's list of events say -/

open FloorHeating.Lib

namespace FloorHeating

def CtlReason.runs : CtlReason → Bool
  | .AutoCold | .ManualOff => false
  | _ => true

/-! ## Notifications -/

/-- The error topic got an alert of this kind, and no all-clear since. -/
def Alerted (snprintf : Nat → String → String) (kind : EventType) : List Event → Prop :=
  Since (fun _ e => e.type = kind ∧ ∃ line, notify snprintf e = some (.esp_loge line))
    (fun _ e => e.type = kind ∧ ∃ msg, notify snprintf e = some (.hi_notify_error msg))

/-- A notification tells of the switch, or the error topic has told, or a maintenance run is over. -/
inductive Told (snprintf : Nat → String → String) (before : List Event) (e : Event) : Prop where
  | notice (title msg : String) (prio : NotifyPrio) (tags : String)
      (sent : notify snprintf e = some (.hi_notify_event_ex title msg prio tags)) (sleeps : tags = "zzz" ↔ e.on = false)
  | overheat (forced : e.on = true ∧ e.reason = .Overheat) (alert : Alerted snprintf .EV_OVERHEAT before)
  | sensor (forced : e.on = true ∧ e.reason = .SensorFail) (alert : Alerted snprintf .EV_SENSOR before)
  | maintenance (ended : e.on = false ∧ e.prev_reason = .Maintenance)

def SwitchTold (snprintf : Nat → String → String) (before : List Event) (e : Event) : Prop :=
  e.type = .EV_PUMP → Told snprintf before e

/-! ## The list on the page -/

def runningTexts : List String :=
  ["Pump started", "Started by hand", "Maintenance run", "Pump on: sensor failure", "Pump on: overheat"]

def stoppedTexts : List String :=
  ["Stopped by hand", "Maintenance run done", "Back to auto, pump stopped", "Pump stopped"]

structure Truthful (e : Event) (item : App.Item) : Prop where
  running : e.type = .EV_PUMP → e.on = true → item.what ∈ runningTexts ∧ item.amt = "on"
  stopped : e.type = .EV_PUMP → e.on = false → item.what ∈ stoppedTexts ∧ item.amt = "off"
  overheat : e.type = .EV_OVERHEAT → item.what = if e.on then "Overheat" else "Overheat over"
  sensor : e.type = .EV_SENSOR → item.what = if e.on then "Temperature sensor failed" else "Temperature sensor back"
  /-- No command ends by an overheat without a switch of the pump. -/
  ended : e.type = .EV_MANUAL_END → item.what = "Back to auto"

/-- The newest event of a kind, if the list goes back to one, has the flag's value. -/
def Tells (log : List Event) (kind : EventType) (flag : Bool) : Prop :=
  match log.find? (·.type = kind) with
  | some e => e.on = flag
  | none => log.length < 50 → flag = false

end FloorHeating
