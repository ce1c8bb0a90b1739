import FloorHeating.Code.Chart
import FloorHeating.Code.Http

/-!
# app.html: the script as it runs

What happens at once when something comes is one function: a press, a callback,
or the end of an `await`. Each gives the next page, and the calls that it makes
before it waits again. An error that `hi.api` throws is `none`; banners, flashes
and what only the other tabs show are left out.
-/

open FloorHeating.Http

namespace FloorHeating.App

/-- A call of `hi.api`, by the function that waits for it. -/
inductive Call where
  | refresh
  | command (body : Json)
  | saveSettings (patch : Json)
  | loadEvents

def Call.method : Call → HttpMethod
  | .refresh | .loadEvents => .HTTP_GET
  | .command _ | .saveSettings _ => .HTTP_POST

def Call.uri : Call → String
  | .refresh => "/api/status"
  | .command _ => "/api/pump"
  | .saveSettings _ => "/api/settings"
  | .loadEvents => "/api/events"

def Call.body : Call → Option Json
  | .refresh | .loadEvents => none
  | .command body => some body
  | .saveSettings patch => some patch

structure Page where
  state : Option Status
  minutes : Rat
  busy : Bool
  eventsSeen : String
  /-- What `swipe.setText` got last. -/
  swipe : String × String
  /-- The `manual` of `renderLive`: it shows the chip for auto instead of those for the minutes. -/
  manual : Bool
  events : List Item

def Page.init : Page where
  state := none
  minutes := 60
  busy := false
  eventsSeen := ""
  swipe := ("Slide to start pump", "")
  manual := false
  events := []

/-! ## Rendering -/

/-- For a whole number of minutes. -/
def fmtMin (m : Rat) : String := if (m / 60).den = 1 then s!"{(m / 60).num} h" else s!"{m.num} min"

def swipeText (s : Status) (minutes : Rat) : String × String :=
  if s.on && s.overheat then ("Overheat: stop not allowed", "shut")
  else (if s.on then s!"Slide to stop for {fmtMin minutes}" else s!"Slide to start for {fmtMin minutes}",
    if s.on then "shut" else "")

def Page.render (p : Page) (s : Status) : Page :=
  { p with swipe := swipeText s p.minutes, manual := decide (s.manual ≠ "none") }

/-! ## The ends of the `await`s -/

def Page.refresh (p : Page) (reply : Option Status) : Page × Option Call :=
  match reply with
  | some s =>
    let p := { p with state := some s }.render s
    if marker s ≠ p.eventsSeen then ({ p with eventsSeen := marker s }, some .loadEvents) else (p, none)
  | none => (p, none)

def Page.command (p : Page) (reply : Option Status) : Page × Option Call :=
  match reply with
  | some s => ({ { p with state := some s }.render s with busy := false }, some .loadEvents)
  | none => ({ p with busy := false }, none)

def Page.saveSettings (p : Page) (reply : Option Status) : Page :=
  match reply with
  | some s => { p with state := some s }.render s
  | none => p

def Page.loadEvents (p : Page) (reply : Option (List Event)) : Page :=
  match reply with
  | some events => { p with events := events.map eventItem }
  | none => p

def readEvents (doc : Json) : Option (List Event) := do
  (← (← doc.item "events") |> asList).mapM Event.read

def Page.reply (p : Page) (call : Call) (doc : Option Json) : Page × Option Call :=
  match call with
  | .refresh => p.refresh (doc.bind Status.read)
  | .command _ => p.command (doc.bind Status.read)
  | .saveSettings _ => (p.saveSettings (doc.bind Status.read), none)
  | .loadEvents => (p.loadEvents (doc.bind readEvents), none)

/-! ## The hand of the user -/

/-- The callback of `hi.tabs`. -/
def tabs (name : String) : List Call := if name = "history" then [.loadEvents, .refresh] else [.refresh]

/-- The `onFire` of the swipe; without a state it throws. -/
def Page.onFire (p : Page) : Page × Option Call :=
  match p.state with
  | some s => ({ p with busy := true }, some (.command (App.command (fired s) p.minutes)))
  | none => (p, none)

def Page.auto (p : Page) : Page × Option Call :=
  if p.manual ∧ ¬ p.busy then ({ p with busy := true }, some (.command (App.command "auto" p.minutes))) else (p, none)

def Page.choose (p : Page) (minutes : Rat) : Page :=
  if minutes ∈ MINUTES ∧ ¬ p.manual then
    let p := { p with minutes := minutes }
    match p.state with
    | some s => p.render s
    | none => p
  else p

def Page.press (p : Page) (b : Button) : Option Call := p.state.map fun s => .saveSettings (pressed s b)

end FloorHeating.App
