import FloorHeating.Spec.Consistent
import FloorHeating.Spec.Machine

/-! # Thresholds that outlive a reboot -/

open FloorHeating.Lib FloorHeating.Http

namespace FloorHeating

def settingsRoutes : List String := ["/api/settings", "/admin/settings"]

def Move.MaySet : Move → Prop
  | .request method uri _ req => uri ∈ settingsRoutes ∧ MayChange method uri req
  | _ => False

structure Shows (doc : Json) (s : Settings) : Prop where
  start : doc.field "settings" "start_c" = some (.num (celsius s.start_x10))
  stop : doc.field "settings" "stop_c" = some (.num (celsius s.stop_x10))
  critical : doc.field "settings" "critical_c" = some (.num (celsius s.critical_x10))

end FloorHeating
