import FloorHeating.Code.History
import FloorHeating.Lib.Runs

/-! # Calls of `history_add`, and what they should leave -/

open FloorHeating.Lib

namespace FloorHeating

structure HistoryAdd where
  now : Int
  valid : Bool
  temp_x10 : Int16
  pump_on : Bool

def HistoryAdd.exec (h : History) (a : HistoryAdd) : History :=
  h.history_add a.now a.valid a.temp_x10 a.pump_on

def historyAfter (l : List HistoryAdd) : History := run HistoryAdd.exec History.init l

/-- `INT16_MIN` stands for an invalid read. -/
def HistoryAdd.sample (a : HistoryAdd) : Int16 × Bool := (if a.valid then a.temp_x10 else -32768, a.pump_on)

end FloorHeating
