import FloorHeating.Code.Page
import FloorHeating.Spec.App
import FloorHeating.Spec.Commands
import FloorHeating.Spec.Machine

/-!
# A visit to the page

The page and the firmware go on at the same time, with any number of calls
between them. The firmware answers them in any order, and anything can come
between a handler and the status that it sends. The answers come in any order,
and any call can fail instead. The person at the page has a session.
-/

open FloorHeating.Lib FloorHeating.Http

namespace FloorHeating

/-- `hi.api` is another package's: it gives the document of a 200, and throws on anything else. -/
def HiApi (hi_api : Response → Option Json) : Prop :=
  ∀ r doc, hi_api r = some doc ↔ r = .reply (.json "200 OK" doc)

/-- What `hi.api` will give, the statics of then, and the events that were in the ring. -/
structure Answer where
  doc : Option Json
  control : Control
  log : List Event

inductive Progress where
  | sent
  | handled
  | answered (a : Answer)

/-- A call on its way. `number` counts the loads of events. -/
structure Flight where
  call : App.Call
  number : Nat
  progress : Progress

structure Visit where
  machine : Machine
  page : App.Page
  flights : List Flight
  loads : Nat
  /-- `canStart` has said yes to a swipe that is not over. -/
  granted : Bool
  /-- The statics that `state` is of, if it came with a poll or a command. -/
  taken : Option Control
  /-- The load that the list on the page came with, and the events of then. -/
  shown : Option (Nat × List Event)

inductive VisitMove where
  | machine (a : Move)
  | poll
  | tab (name : String)
  | canStart
  | letGo
  | onFire
  | auto
  | choose (minutes : Rat)
  | press (b : App.Button)
  | answer (i : Nat) (env : HttpEnv) (client_ip : String)
  | status (i : Nat) (env : StatusEnv)
  | reply (i : Nat)
  | fail (i : Nat)

def App.Call.request (call : App.Call) (client_ip : String) : Request where
  hi_httpd_guard := fun _ => true
  admin_header_valid := false
  readonly_header_valid := false
  client_ip := client_ip
  read_json := call.body

namespace Visit

def opened (m : Machine) : Visit where
  machine := m
  page := .init
  flights := []
  loads := 0
  granted := false
  taken := none
  shown := none

def send (v : Visit) : Option App.Call → Visit
  | some .loadEvents => { v with flights := v.flights ++ [⟨.loadEvents, v.loads + 1, .sent⟩], loads := v.loads + 1 }
  | some call => { v with flights := v.flights ++ [⟨call, v.loads, .sent⟩] }
  | none => v

def ends (v : Visit) (i : Nat) (f : Flight) (doc : Option Json) : Visit :=
  let r := v.page.reply f.call doc
  { v with page := r.1, flights := v.flights.eraseIdx i }.send r.2

def takes (v : Visit) (f : Flight) (a : Answer) : Visit :=
  match f.call with
  | .refresh | .command _ => { v with taken := some a.control }
  | .saveSettings _ => { v with taken := none }
  | .loadEvents => { v with shown := some (f.number, a.log) }

variable (hi_api : Response → Option Json)

def handled (m : Machine) : Response → Progress
  | .reply .status => .handled
  | r => .answered ⟨hi_api r, m.task.control, m.log⟩

def step (v : Visit) : VisitMove → Visit
  | .machine a => { v with machine := v.machine.step a }
  | .poll => v.send (some .refresh)
  | .tab name => (App.tabs name).foldl (fun v call => v.send (some call)) v
  | .canStart => { v with granted := App.canStart v.page.busy v.page.state }
  | .letGo => { v with granted := false }
  | .onFire => { v with page := v.page.onFire.1, granted := false }.send v.page.onFire.2
  | .auto => { v with page := v.page.auto.1 }.send v.page.auto.2
  | .choose minutes => { v with page := v.page.choose minutes }
  | .press b => v.send (v.page.press b)
  | .answer i env client_ip =>
    match v.flights[i]? with
    | some ⟨call, number, .sent⟩ =>
      if v.machine.blocks call.uri then v
      else
        let r := serve call.method call.uri { env with now_s := v.machine.clock } v.machine.toFirmware
          (call.request client_ip)
        let machine := { v.machine with toFirmware := r.1 }
        { v with machine := machine, flights := v.flights.set i ⟨call, number, handled hi_api machine r.2⟩ }
    | _ => v
  | .status i env =>
    match v.flights[i]? with
    | some ⟨call, number, .handled⟩ =>
      if v.machine.s_lock then v
      else
        let doc := hi_api (.reply (Reply.status.sent v.machine.task.control (settings_get v.machine.store) env))
        { v with flights := v.flights.set i ⟨call, number, .answered ⟨doc, v.machine.task.control, v.machine.log⟩⟩ }
    | _ => v
  | .reply i =>
    match v.flights[i]? with
    | some f =>
      match f.progress with
      | .answered a => if a.doc.isSome then (v.takes f a).ends i f a.doc else v.ends i f none
      | _ => v
    | none => v
  | .fail i =>
    match v.flights[i]? with
    | some f => v.ends i f none
    | none => v

end Visit

def visitAfter (hi_api : Response → Option Json) (m : Machine) (l : List VisitMove) : Visit :=
  run (Visit.step hi_api) (Visit.opened m) l

def VisitMove.isReboot : VisitMove → Bool
  | .machine a => a.isReboot
  | _ => false

/-! ## The swipe -/

/-- `hi.swipe` is another package's: `onFire` comes once after a yes of `canStart`. And the finger that swipes
does not touch the chip for auto. -/
def VisitMove.Fits (v : Visit) : VisitMove → Prop
  | .onFire => v.granted = true
  | .auto => v.granted = false
  | _ => True

def SwipesFit (hi_api : Response → Option Json) (m : Machine) : List VisitMove → Prop :=
  Along fun pre a => a.Fits (visitAfter hi_api m pre)

def App.Call.isCommand : App.Call → Bool
  | .command _ => true
  | _ => false

def Visit.underWay (v : Visit) : Nat := v.flights.countP (·.call.isCommand)

def LABELS : List (String × Int) := [("30 min", 1800), ("1 h", 3600), ("4 h", 14400)]

def Offers (text : String) : Prop := ∃ word ∈ ["start", "stop"], ∃ p ∈ LABELS, text = s!"Slide to {word} for {p.1}"

instance (text : String) : Decidable (Offers text) := inferInstanceAs (Decidable (∃ word ∈ _, ∃ p ∈ _, _))

/-- What a swipe for `seconds` may do at `now`: what it says, or nothing where a stop would be in an overheat. -/
inductive SwipeKept (f : Firmware) (now seconds : Int) (word : String) (r : Firmware × Response) : Prop where
  | done (reply : r.2 = .reply .status) (on : r.1.task.control.relay = decide (word = "start"))
      (holds : ∃ m, manual_name m = word ∧
        Holds r.1.task.control.s_state m (now + seconds) (decide (word = "start")))
  | refused (stop : word = "stop") (overheat : f.task.control.s_state.overheat = true)
      (reply : r = (f, .reply (.error "409 Conflict" "overheat")))

/-! ## The list of events -/

/-- The page's list of the newest 50 events of a log. -/
def ListOf (log : List Event) (items : List App.Item) : Prop :=
  ∃ events_unix_time shown,
    ((log.reverse.take 50).map (event_json events_unix_time)).mapM App.Event.read = some shown ∧
      items = shown.map App.eventItem

/-- No switch before `c` is missing from the list of the last load, if that is on the page or on its way. -/
structure Visit.Covers (v : Visit) (c : Control) : Prop where
  shown : ∀ log, v.shown = some (v.loads, log) → pumpLog c.published <+: pumpLog log
  flights : ∀ f ∈ v.flights, f.call = .loadEvents → f.number = v.loads → ∀ a, f.progress = .answered a →
    pumpLog c.published <+: pumpLog a.log

end FloorHeating
