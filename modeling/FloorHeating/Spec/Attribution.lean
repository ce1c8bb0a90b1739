import FloorHeating.Spec.Sections

/-! # Manual switches, and what the event log should say of them -/

namespace FloorHeating

def dotted (a b c d : UInt8) : String := s!"{a}.{b}.{c}.{d}"

/-- Who can give a command: the admin interface, or a client by its address. -/
inductive Client : String → Prop
  | admin : Client "admin"
  | ip (a b c d : UInt8) : Client (dotted a b c d)

def attribution (minutes : Nat) (who : String) : String := s!"{minutes} min, {who}"

structure Switch where
  before : Control
  settings : Settings
  date : LocalDate
  now_s : Int
  manual : CtlManual
  duration_s : UInt32
  who : String
  ordered : manual ≠ .None
  client : Client who
  switched :
    ((Section.command settings date now_s manual duration_s who).exec before).s_state.on ≠ before.s_state.on

namespace Switch

def command (x : Switch) : Section := .command x.settings x.date x.now_s x.manual x.duration_s x.who

def events (x : Switch) : List Event := x.command.events x.before

def minutes (x : Switch) : Nat := (clamp_duration x.duration_s / 60).toNat

/-- Three digits of minutes and fifteen characters of address. -/
def Overlong (x : Switch) : Prop := 100 ≤ x.minutes ∧ x.who.length = 15

end Switch

end FloorHeating
