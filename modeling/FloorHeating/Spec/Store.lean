import FloorHeating.Lib.Runs
import FloorHeating.Spec.Thresholds

/-! # Runs of the threshold store, with failed saves and reboots -/

open FloorHeating.Lib

namespace FloorHeating

inductive StoreCall where
  | set (in_out : Settings) (io : NvsCalls)
  | reboot

def StoreCall.exec (st : Store) : StoreCall → Store
  | .set in_out io => (settings_set st in_out io).1
  | .reboot => settings_init st.nvs

def storeAfter (nvs : Nvs) (h : List StoreCall) : Store := run StoreCall.exec (settings_init nvs) h

/-- The call gives `t` back to its caller, with `err`. -/
def Returns (nvs : Nvs) (t : Settings) (err : EspErr) (h : List StoreCall) (a : StoreCall) : Prop :=
  ∃ in_out io, a = .set in_out io ∧ (settings_set (storeAfter nvs h) in_out io).2 = (t, err)

def LastSaved (nvs : Nvs) (t : Settings) (h : List StoreCall) : Prop :=
  Since (Returns nvs t .ESP_OK) (fun h a => ∃ t', Returns nvs t' .ESP_OK h a) h

/-- Each threshold goes to the nearest value of its window. The start threshold goes first. -/
def nearestSane (s : Settings) : Settings :=
  let start := max 200 (min s.start_x10 600)
  ⟨start, max 100 (min s.stop_x10 (start - 20)), max (start + 50) (min s.critical_x10 800)⟩

def Nvs.initial : Nvs → Settings
  | .blob stored => nearestSane stored
  | .missing | .wrong_length => ⟨300, 250, 450⟩

end FloorHeating
