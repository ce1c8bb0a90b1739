import FloorHeating.Code.Http
import FloorHeating.Lib.Runs
import FloorHeating.Spec.Sensor
import FloorHeating.Spec.Store

/-!
# The whole firmware, interleaved

The control task goes from one lock or clock to the next in steps of its own.
Between two of them the server may answer any request, so new thresholds can
come between the two fetches of one iteration, and a reader of the ring between
two events of one section. A status document is built in three steps, by any
number of readers at a time: the server, which also sends one when a command or
new thresholds are through, and MQTT.
-/

open FloorHeating.Lib FloorHeating.Http

namespace FloorHeating

/-- Where `control_task` is in its loop. A `read` is what `temp_sensor_read` returned, if it was asked. -/
inductive TaskAt where
  | top
  | sensing (top_s : Int)
  | waiting (top_s now_s : Int) (read : Option (Option Int16))
  | locked (top_s now_s : Int) (read : Option (Option Int16)) (for_sensor : Settings)
  /-- The decision is made, and these events are still to go into the ring. -/
  | publishing (now_s : Int) (read : Option (Option Int16)) (pending : List Event)
  | unlocked (now_s : Int) (read : Option (Option Int16)) (on : Bool)

structure Machine extends Firmware where
  clock : Int
  pc : TaskAt
  /-- What each `control_status` call copied, and those that have read the clock too. -/
  copies : List Control
  taken : List ControlStatus
  documents : List Json

inductive Move where
  | tick (d : Nat)
  | sample
  | sensor (bus : Bus)
  | lock
  | decision (date : LocalDate)
  | publish
  | unlock
  | history
  | request (method : HttpMethod) (uri : String) (env : HttpEnv) (req : Request)
  | copy
  | stamp (i : Nat)
  | send (i : Nat) (events_unix_time : Int → Int) (system : List (String × Json))
  | reboot (boot : Int)

def commands : List String := ["/api/pump", "/admin/pump"]

namespace Machine

def power_on (boot : Int) (st : Store) (ring : EventRing) (documents : List Json) : Machine where
  task := task_start boot
  sensor := .init
  store := st
  ring := ring.events_init
  clock := boot
  pc := .top
  copies := []
  taken := []
  documents := documents

def s_lock (m : Machine) : Bool :=
  match m.pc with
  | .locked .. | .publishing .. => true
  | _ => false

def pending (m : Machine) : List Event :=
  match m.pc with
  | .publishing _ _ pending => pending
  | _ => []

/-- The events since boot that the ring has, or had. -/
def log (m : Machine) : List Event :=
  m.task.control.published.take (m.task.control.published.length - m.pending.length)

def blocks (m : Machine) (uri : String) : Bool := m.s_lock && decide (uri ∈ commands)

/-- What the task does under the lock, up to its events. -/
def decision (m : Machine) (now_s : Int) (read : Option (Option Int16)) (for_sensor : Settings) (date : LocalDate) :
    Machine :=
  let c := task_locked m.task.control for_sensor (settings_get m.store) date now_s (read.map (·.map Int16.toInt))
  { m with
    task := { m.task with control := c }
    pc := .publishing now_s read (c.published.drop m.task.control.published.length) }

/-- What it does after the lock. `history_add` reads the clock itself. -/
def sampled (m : Machine) (now_s : Int) (read : Option (Option Int16)) (on : Bool) : Task :=
  match read with
  | some reading =>
    if m.task.next_history_s ≤ now_s then
      { m.task with
        next_history_s := now_s + HISTORY_PERIOD_S
        history := m.task.history.history_add m.clock reading.isSome (reading.getD 0) on }
    else m.task
  | none => m.task

/-- A move that is not possible changes nothing. -/
def step (m : Machine) : Move → Machine
  | .tick d => { m with clock := m.clock + d }
  | .sample =>
    match m.pc with
    | .top =>
      if m.task.next_read_s ≤ m.clock then
        { m with task := { m.task with next_read_s := m.clock + CONTROL_READ_PERIOD_S }, pc := .sensing m.clock }
      else { m with pc := .waiting m.clock m.clock none }
    | _ => m
  | .sensor bus =>
    match m.pc with
    | .sensing top_s =>
      let (s, reading) := temp_sensor_read m.sensor bus
      { m with sensor := s, pc := .waiting top_s m.clock (some reading) }
    | _ => m
  | .lock =>
    match m.pc with
    | .waiting top_s now_s read => { m with pc := .locked top_s now_s read (settings_get m.store) }
    | _ => m
  | .decision date =>
    match m.pc with
    | .locked _ now_s read for_sensor => m.decision now_s read for_sensor date
    | _ => m
  | .publish =>
    match m.pc with
    | .publishing now_s read (e :: pending) =>
      { m with ring := m.ring.events_publish e, pc := .publishing now_s read pending }
    | _ => m
  | .unlock =>
    match m.pc with
    | .publishing now_s read [] => { m with pc := .unlocked now_s read m.task.control.s_state.on }
    | _ => m
  | .history =>
    match m.pc with
    | .unlocked now_s read on => { m with task := m.sampled now_s read on, pc := .top }
    | _ => m
  | .request method uri env req =>
    if m.blocks uri then m
    else { m with toFirmware := (serve method uri { env with now_s := m.clock } m.toFirmware req).1 }
  | .copy => if m.s_lock then m else { m with copies := m.copies ++ [m.task.control] }
  | .stamp i =>
    match m.copies[i]? with
    | some c => { m with taken := m.taken ++ [control_status c m.clock] }
    | none => m
  | .send i events_unix_time system =>
    match m.taken[i]? with
    | some c =>
      { m with documents := m.documents ++ [api_status_json c (settings_get m.store) events_unix_time system] }
    | none => m
  | .reboot boot => power_on boot (settings_init m.store.nvs) m.ring m.documents

end Machine

def machineAfter (nvs : Nvs) (ring : EventRing) (boot : Int) (h : List Move) : Machine :=
  run Machine.step (Machine.power_on boot (settings_init nvs) ring []) h

def Move.isReboot : Move → Bool
  | .reboot _ => true
  | _ => false

/-! ## Who may do what -/

def MayChange (method : HttpMethod) (uri : String) (req : Request) : Prop :=
  method = .HTTP_POST ∧
    ((uri ∈ ["/api/pump", "/api/settings"] ∧ req.hi_httpd_guard .HI_GUARD_MUTATION = true) ∨
      (uri ∈ ["/admin/pump", "/admin/settings"] ∧ req.admin_header_valid = true))

def MayRead (method : HttpMethod) (uri : String) (req : Request) : Prop :=
  method = .HTTP_GET ∧
    ((uri ∈ ["/api/status", "/api/events", "/api/history"] ∧ req.hi_httpd_guard .HI_GUARD_SESSION = true) ∨
      (uri ∈ ["/admin/status", "/admin/history"] ∧ req.readonly_header_valid = true))

instance (method : HttpMethod) (uri : String) (req : Request) : Decidable (MayChange method uri req) :=
  inferInstanceAs (Decidable (_ ∧ _))

/-- Anything but a request that may not change a thing. -/
def Move.Counts : Move → Prop
  | .request method uri _ req => MayChange method uri req
  | _ => True

instance : DecidablePred Move.Counts
  | .request method uri _ req => inferInstanceAs (Decidable (MayChange method uri req))
  | .tick _ | .sample | .sensor _ | .lock | .decision _ | .publish | .unlock | .history | .copy | .stamp _ | .send ..
  | .reboot _ => inferInstanceAs (Decidable True)

/-! ## The runs it refines -/

def bootOf (boot : Int) : List Move → Int
  | [] => boot
  | .reboot boot' :: h => bootOf boot' h
  | _ :: h => bootOf boot h

/-- The store gave `s` at some time of the run, since the last reboot. -/
def Held (nvs : Nvs) (ring : EventRing) (boot : Int) (h : List Move) (s : Settings) : Prop :=
  ∃ pre post, h = pre ++ post ∧ (∀ a ∈ post, a.isReboot = false) ∧
    s = settings_get (machineAfter nvs ring boot pre).store

def DeviceTurn.Fetched (held : Settings → Prop) : DeviceTurn → Prop
  | .pass p _ => held p.for_sensor ∧ held p.settings
  | .command settings .. => held settings

def Firmware.device (f : Firmware) : Device := ⟨f.task, f.sensor⟩

/-- But for the time of the newest sample, which `history_add` reads after the pass. -/
def History.unstamped (h : History) : History := { h with s_newest_mono_s := 0 }

def Device.unstamped (d : Device) : Device := { d with task := { d.task with history := d.task.history.unstamped } }

/-- The task has read the clock at `top_s`, and the sensor `d.sensor` if that is due. -/
def Started (d : Device) (top_s now_s : Int) (read : Option (Option Int16)) (d' : Device) : Prop :=
  match read with
  | none => now_s = top_s ∧ ¬ d.task.next_read_s ≤ top_s ∧ d' = d
  | some reading => d.task.next_read_s ≤ top_s ∧ ∃ bus,
      reading = (temp_sensor_read d.sensor bus).2 ∧
        d' = ⟨{ d.task with next_read_s := top_s + CONTROL_READ_PERIOD_S }, (temp_sensor_read d.sensor bus).1⟩

/-- `d` is the device after the turns that are decided, and the machine is before or after the next decision. -/
def Midway (m : Machine) (d : Device) : Prop :=
  let m' := m.device.unstamped
  match m.pc with
  | .top => m' = d
  | .sensing top_s => d.task.next_read_s ≤ top_s ∧
      m' = { d with task := { d.task with next_read_s := top_s + CONTROL_READ_PERIOD_S } }
  | .waiting top_s now_s read | .locked top_s now_s read _ => Started d top_s now_s read m'
  | .publishing now_s read _ => (⟨m.sampled now_s read m.task.control.s_state.on, m.sensor⟩ : Device).unstamped = d
  | .unlocked now_s read on => (⟨m.sampled now_s read on, m.sensor⟩ : Device).unstamped = d

end FloorHeating
