/-!
# config.h and settings.c

`int16_t` fields are `Int`; the one cast back to `int16_t` is `int16`.
-/

namespace FloorHeating

/-! ## config.h -/

def CONTROL_READ_PERIOD_S : Int := 5
def SENSOR_FAIL_READS : UInt8 := 3
def MAINTENANCE_INTERVAL_S : UInt32 := 7 * 24 * 3600
def MAINTENANCE_RUN_S : UInt32 := 60
def MANUAL_MIN_S : UInt32 := 60
def MANUAL_MAX_S : UInt32 := 12 * 3600

def START_DEFAULT_X10 : Int := 300
def STOP_DEFAULT_X10 : Int := 250
def CRITICAL_DEFAULT_X10 : Int := 450
def START_MIN_X10 : Int := 200
def START_MAX_X10 : Int := 600
def STOP_MIN_X10 : Int := 100
def HYSTERESIS_MIN_X10 : Int := 20
def CRITICAL_MARGIN_MIN_X10 : Int := 50
def CRITICAL_MAX_X10 : Int := 800

/-! ## settings.c -/

structure Settings where
  start_x10 : Int
  stop_x10 : Int
  critical_x10 : Int
deriving DecidableEq, Repr

def default_settings : Settings := ⟨START_DEFAULT_X10, STOP_DEFAULT_X10, CRITICAL_DEFAULT_X10⟩

def int16 (v : Int) : Int := v.bmod 65536

def clamp (v lo hi : Int) : Int := int16 (if v < lo then lo else if hi < v then hi else v)

def sanitize (s : Settings) : Settings :=
  let s := { s with start_x10 := clamp s.start_x10 START_MIN_X10 START_MAX_X10 }
  let s := { s with stop_x10 := clamp s.stop_x10 STOP_MIN_X10 (s.start_x10 - HYSTERESIS_MIN_X10) }
  { s with
    critical_x10 := clamp s.critical_x10 (s.start_x10 + CRITICAL_MARGIN_MIN_X10) CRITICAL_MAX_X10 }

inductive EspErr where
  | ESP_OK
  | ESP_FAIL
deriving DecidableEq, Repr

inductive Nvs where
  | missing
  | wrong_length
  | blob (stored : Settings)
deriving DecidableEq, Repr

/-- What the three NVS calls of one `settings_set` return. -/
structure NvsCalls where
  nvs_open : EspErr
  nvs_set_blob : EspErr
  nvs_commit : EspErr
deriving DecidableEq, Repr

structure Store where
  s_settings : Settings
  nvs : Nvs
deriving DecidableEq, Repr

def settings_init (nvs : Nvs) : Store where
  s_settings := sanitize (match nvs with
    | .blob stored => stored
    | .missing | .wrong_length => default_settings)
  nvs := nvs

def settings_get (st : Store) : Settings := st.s_settings

/-- The store, the values written back and the returned code. NVS keeps its blob unless the set
and the commit both succeed. -/
def settings_set (st : Store) (in_out : Settings) (io : NvsCalls) : Store × Settings × EspErr :=
  let in_out := sanitize in_out
  let st := { st with s_settings := in_out }
  let err := io.nvs_open
  if err = .ESP_OK then
    let err := io.nvs_set_blob
    let err := if err = .ESP_OK then io.nvs_commit else err
    (if err = .ESP_OK then { st with nvs := .blob in_out } else st, in_out, err)
  else (st, in_out, err)

end FloorHeating
