import FloorHeating.Code.App
import FloorHeating.Lib.Segments

/-!
# app.html: the chart of the last day

What `loadHistory` appends to the chart. Coordinates are exact; the texts and
the rounding of the path to one decimal are left out.
-/

open FloorHeating.Lib

namespace FloorHeating.App

structure History where
  newest_age_s : Rat
  period_s : Rat
  t : List (Option Rat)
  p : List Char

def asList : Json → Option (List Json)
  | .arr items => some items
  | _ => none

def History.read (h : Json) : Option History := do
  return {
    newest_age_s := ← (← h.item "newest_age_s") |> asNumber
    period_s := ← (← h.item "period_s") |> asNumber
    t := ← (← (← h.item "t") |> asList).mapM asOptional
    p := (← (← h.item "p") |> asText).toList }

/-! ## The scales -/

def W : Rat := 360
def H : Rat := 170
def L : Rat := 30
def R : Rat := 6
def T : Rat := 8
def B : Rat := 22
def span : Rat := 24 * 3600

def x (age : Rat) : Rat := L + (W - L - R) * (1 - age / span)

/-- The vertical scale goes from `lo` to `hi_`. -/
structure Scale where
  lo : Int
  hi_ : Int

def Scale.y (s : Scale) (c : Rat) : Rat := T + (H - T - B) * (1 - (c - s.lo) / (s.hi_ - s.lo))

def History.vals (h : History) : List Rat := (h.t.filterMap id).map (· / 10)

def scale (vals : List Rat) (st : Status) : Scale where
  lo := ⌊vals.foldl min st.stop_c - 2⌋
  hi_ := ⌈vals.foldl max st.critical_c + 1⌉

def History.ageOf (h : History) (i : Nat) : Rat := h.newest_age_s + (h.t.length - 1 - i) * h.period_s

/-! ## The pump -/

structure Rect where
  x : Rat
  y : Rat
  width : Rat
  height : Rat
deriving DecidableEq

def History.pumped (h : History) (i : Nat) : Bool := decide (h.p[i]? = some '1')

/-- The shaded column of the samples from `i` to `j`, if it reaches into the chart. -/
def History.column (h : History) (i j : Nat) : Option Rect :=
  let x1 := App.x (h.ageOf i + h.period_s / 2)
  let x2 := App.x (max 0 (h.ageOf j - h.period_s / 2))
  if L < x2 then
    some { x := max L x1, y := T, width := max (3 / 2) (x2 - max L x1), height := H - T - B }
  else none

def History.columns (h : History) : List Rect :=
  (spans h.pumped h.t.length).filterMap fun s => h.column s.1 s.2

/-! ## The temperature -/

structure Point where
  pen : Bool
  x : Rat
  y : Rat
deriving DecidableEq

/-- The loop over the readings from index `i` on. -/
def History.path (h : History) (s : Scale) : (pen : Bool) → (i : Nat) → List (Option Rat) → List Point
  | _, _, [] => []
  | pen, i, v :: rest =>
    match v with
    | none => h.path s false (i + 1) rest
    | some v =>
      if span < h.ageOf i then h.path s false (i + 1) rest
      else ⟨pen, App.x (h.ageOf i), s.y (v / 10)⟩ :: h.path s true (i + 1) rest

structure Chart where
  /-- The heights of the three lines of the grid, and of the three thresholds. -/
  grid : List Rat
  guides : List Rat
  columns : List Rect
  path : List Point

/-- Nothing is drawn without a reading. -/
def loadHistory (st : Status) (h : History) : Option Chart :=
  if h.vals = [] then none
  else
    let s := scale h.vals st
    some {
      grid := [s.lo, mathRound ((s.lo + s.hi_) / 2), s.hi_].map fun c : Int => s.y c
      guides := [st.start_c, st.stop_c, st.critical_c].map s.y
      columns := h.columns
      path := h.path s false 0 h.t }

end FloorHeating.App
