import FloorHeating.Code.Chart
import FloorHeating.Spec.Document
import FloorHeating.Spec.Samples

/-! # What the chart should show -/

open FloorHeating.Lib

namespace FloorHeating

structure Gets (h : App.History) (samples : List (Int16 × Bool)) : Prop where
  t : h.t = samples.map fun s => if s.1 = -32768 then none else some (s.1.toInt : Rat)
  p : h.p = samples.map fun s => if s.2 then '1' else '0'
  period : h.period_s = 60

/-- The reading at index `i`, if that is on the axis, by `ageOf`. -/
def App.History.drawn (h : App.History) (i : Nat) : Option Rat :=
  if h.ageOf i ≤ App.span then (h.t[i]?).join else none

/-- The point at index `i`; it is joined to the one before if that index has one too. -/
def App.History.pointAt (h : App.History) (s : App.Scale) (i : Nat) : Option App.Point :=
  (h.drawn i).map fun v =>
    ⟨decide (0 < i ∧ (h.drawn (i - 1)).isSome = true), App.x (h.ageOf i), s.y (v / 10)⟩

def InPlot (x y : Rat) : Prop := App.L ≤ x ∧ x ≤ App.W - App.R ∧ App.T ≤ y ∧ y ≤ App.H - App.B

structure ChartRight (st : App.Status) (h : App.History) (samples : List (Int16 × Bool)) (chart : App.Chart) :
    Prop where
  /-- The columns are the maximal runs of samples with the pump on, as far as they reach into the chart. -/
  columns : ∀ rect, rect ∈ chart.columns ↔ ∃ i j,
    MaximalRun (fun k => (samples[k]?).any Prod.snd) samples.length (i, j) ∧ h.column i j = some rect
  /-- The line has every reading on the axis, in order, and is broken where one is missing. -/
  path : chart.path = (List.range samples.length).filterMap (h.pointAt (App.scale h.vals st))
  points : ∀ point ∈ chart.path, InPlot point.x point.y
  guides : ∀ y ∈ chart.guides, App.T ≤ y ∧ y ≤ App.H - App.B
  inside : ∀ rect ∈ chart.columns, App.L ≤ rect.x ∧ 0 < rect.width ∧ rect.x + rect.width ≤ App.W
  columns_sorted : chart.columns.Pairwise fun rect rect' => rect.x < rect'.x
  path_sorted : chart.path.Pairwise fun point point' => point.x < point'.x

end FloorHeating
