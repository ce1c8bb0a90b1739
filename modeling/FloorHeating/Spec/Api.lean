import FloorHeating.Code.Ingest
import FloorHeating.Spec.Sections
import Mathlib.Data.Rat.Cast.Order

/-! # What the server should make of the status document -/

open FloorHeating.Lib

namespace FloorHeating

/-! ## The validators -/

def isWord (s : String) : Bool :=
  match s.toList with
  | c :: rest => c.isLower && decide (rest.length ≤ 31) && rest.all fun c => c.isLower || c.isDigit || c == '_'
  | [] => false

def isMac (device : String) : Bool :=
  decide (device.toList.length = 12) && device.toList.all ("0123456789abcdef".toList.contains ·)

def stateTopic (device : String) : String := "floorheating/" ++ device ++ "/state"

/-- The documented behaviour of `hcdata.validate`: null is taken where nothing is required, a number
exactly within its limits, and an integer is not negative unless its call says so. -/
structure Validate.Lawful (v : Validate) : Prop where
  device_id : ∀ device, isMac device = true → v.device_id device = .ok ()
  integer_accepts : ∀ d key lo hi required (n : Int), d.get key = some (.num n) → lo.getD 0 ≤ n → n ≤ hi →
    v.integer d key lo (some hi) required = .ok (some n)
  integer_rejects : ∀ d key lo hi required (n : Int), d.get key = some (.num n) → hi < n →
    ∃ text, v.integer d key lo (some hi) required = .error (.ValueError text)
  number_accepts : ∀ d key (lo hi : Int) (x : Rat), d.get key = some (.num x) → lo ≤ x → x ≤ hi →
    v.number d key lo hi = .ok (some x)
  number_null : ∀ d key lo hi, d.get key = some .null → v.number d key lo hi = .ok none
  boolean : ∀ d key b, d.get key = some (.bool b) → v.boolean d key = .ok b
  string : ∀ d key s required, d.get key = some (.str s) → isWord s = true →
    v.string d key required WORD = .ok s

/-! ## The device -/

def Section.valid : Section → Option (Int × Int)
  | .task _ _ _ now (some (some t)) => some (t, now)
  | _ => none

def lastRead (h : List Section) : Option (Int × Int) := (h.filterMap Section.valid).getLast?

/-- The times of the sections, between the boot and the status. -/
def Serial (boot : Int) (h : List Section) (now : Int) : Prop :=
  (boot :: (h.map Section.now_s ++ [now])).Pairwise (· ≤ ·)

def Section.InRange (sec : Section) : Prop := ∀ r, sec.valid = some r → -550 ≤ r.1 ∧ r.1 ≤ 1250

def pumpStarts (c : Control) : Nat := (logOf .EV_PUMP c.published).count true

def deviceFields (device : String) (h : List Section) (c : ControlStatus) (s : Settings) : StateFields where
  device := device
  temp_c := (lastRead h).map fun r => celsius r.1
  temp_age_s := (lastRead h).map fun r => c.now_mono_s - r.2
  pump_on := c.state.on
  reason := ctl_reason_name c.state.reason
  manual := manual_name c.state.manual
  maintenance := c.state.maintenance
  overheat := c.state.overheat
  sensor_failed := c.state.sensor_failed
  start_c := some (celsius s.start_x10)
  stop_c := some (celsius s.stop_x10)
  critical_c := some (celsius s.critical_x10)
  runtime_today_s := some c.runtime_today_s.toNat
  starts_today := some c.starts_today.toNat

end FloorHeating
