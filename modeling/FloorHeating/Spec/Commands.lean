import FloorHeating.Code.Commands
import FloorHeating.Spec.Sections

/-! # Pump commands, as the API describes them -/

open FloorHeating.Lib

namespace FloorHeating

def Asks (body : Json) (word : String) : Prop := body.item "state" = some (.str word)

def Minutes (body : Json) (v : Rat) : Prop := body.item "minutes" = some (.num v)

def BadState (body : Json) : Prop := ∀ word ∈ ["start", "stop", "auto"], ¬ Asks body word

def BadMinutes (body : Json) : Prop := (Asks body "start" ∨ Asks body "stop") ∧ ∀ v, Minutes body v → double v ≤ 0

def clampSeconds (seconds : Rat) : Int := max 60 (min ⌊seconds⌋ 43200)

/-- The product is that of doubles. -/
def heldFor (minutes : Rat) : Int := clampSeconds (double (double minutes * 60))

structure Holds (s : CtlState) (m : CtlManual) (til : Int) (on : Bool) : Prop where
  manual : s.manual = m
  deadline : s.manual_until_s = til
  pump : s.on = on

/-- What a command that is not refused leaves. -/
structure Performed (body : Json) (now : Int) (c : Control) : Prop where
  start : Asks body "start" → ∀ v, Minutes body v → Holds c.s_state .Start (now + heldFor v) true
  stop : Asks body "stop" → ∀ v, Minutes body v → Holds c.s_state .Stop (now + heldFor v) false
  auto : Asks body "auto" → c.s_state.manual = .None

def AcceptedCommand (boot : Int) (h : List Section) : Section → Prop
  | .command _ _ now m d _ => (ctl_manual (controlAfter boot h).s_state m (clamp_duration d) now).isSome = true
  | .task .. => False

/-- The section sets the override `m` with a deadline at most twelve hours away. -/
def SetsOverride (boot : Int) (m : CtlManual) (til : Int) (h : List Section) (sec : Section) : Prop :=
  AcceptedCommand boot h sec ∧
    (∃ settings date d who, sec = .command settings date sec.now_s m d who) ∧ til ≤ sec.now_s + 43200

end FloorHeating
