import FloorHeating.Code.History
import FloorHeating.Lib.Json

/-! # The history document, in one piece -/

namespace FloorHeating

def entry (t : Int16) : List Char := if t = HISTORY_NO_READING then "null".toList else (toString t.toInt).toList

def pump_char (on : Bool) : Char := if on then '1' else '0'

def document (samples : List (Int16 × Bool)) (newest newest_age_s : Int64) : List Char :=
  "\x7b\"period_s\":60,\"newest\":".toList ++ (toString newest.toInt).toList ++
    ",\"newest_age_s\":".toList ++ (toString newest_age_s.toInt).toList ++
    ",\"t\":[".toList ++ [','].intercalate (samples.map fun s => entry s.1) ++
    "],\"p\":\"".toList ++ samples.map (fun s => pump_char s.2) ++ "\"\x7d".toList

def history_json (samples : List (Int16 × Bool)) (newest newest_age_s : Int64) : Json :=
  .obj [
    ("period_s", .num 60),
    ("newest", .num newest.toInt),
    ("newest_age_s", .num newest_age_s.toInt),
    ("t", .arr (samples.map fun s => if s.1 = -32768 then .null else .num s.1.toInt)),
    ("p", .str (String.ofList (samples.map fun s => if s.2 then '1' else '0')))]

end FloorHeating
