import FloorHeating.Code.Commands
import FloorHeating.Code.Events
import FloorHeating.Code.Task
import FloorHeating.Code.TempSensor

/-!
# api.c: the routes

The HTTP server, the sessions and the secrets are another package's. What it
says of a request is part of the request here, and what it sends by itself is
`answered`. A handler asks the rest of the firmware through `HttpEnv`.
-/

namespace FloorHeating

structure Firmware where
  task : Task
  sensor : TempSensor
  store : Store
  ring : EventRing

/-- After a lock section of the server that left `next`. What it published is in the ring at once: nobody but the
server reads that, and it runs one handler at a time. -/
def Firmware.locked (f : Firmware) (next : Control) : Firmware :=
  let published := next.published.drop f.task.control.published.length
  { f with
    task := { f.task with control := next }
    ring := published.foldl EventRing.events_publish f.ring }

/-- `synced` and `time` are `hi_ntp_synced()` and `time(NULL)`, `now_s` is `events_mono_s()`. -/
def events_unix_time (synced : Bool) (time now_s mono_s : Int) : Int :=
  if ¬ synced then 0 else time - (now_s - mono_s)

namespace Http

inductive HiGuard where
  | HI_GUARD_SESSION
  | HI_GUARD_MUTATION
deriving DecidableEq, Repr

/-- `hi_httpd_guard`, the two header checks, `hi_httpd_client_ip` and `hi_httpd_read_json`. -/
structure Request where
  hi_httpd_guard : HiGuard → Bool
  admin_header_valid : Bool
  readonly_header_valid : Bool
  client_ip : String
  read_json : Option Json

inductive Response where
  | answered
  | empty (status : String)
  | reply (r : Reply)
  | chunks (sent : Except SendError (List (List Char)))
  | not_found

/-- `now_s` is the clock under the lock, `status_s` the one of `control_status`. -/
structure HttpEnv where
  to_uint32 : Rat → UInt32
  to_int16 : Rat → Int
  io : NvsCalls
  httpd : Nat → EspErr
  date : LocalDate
  time : Int
  now_s : Int
  status_s : Int
  system : List (String × Json)

def HttpEnv.status (env : HttpEnv) : StatusEnv where
  now_mono_s := env.status_s
  events_unix_time := events_unix_time env.date.synced env.time env.now_s
  system := env.system

abbrev Handler := HttpEnv → Firmware → Request → Firmware × Response

/-! ## The guards -/

def guarded (kind : HiGuard) (handler : Handler) : Handler := fun env f req =>
  if ¬ req.hi_httpd_guard kind then (f, .answered) else handler env f req

def admin_ok (handler : Handler) : Handler := fun env f req =>
  if req.admin_header_valid then handler env f req else (f, .empty "401 Unauthorized")

def admin_read_ok (handler : Handler) : Handler := fun env f req =>
  if req.readonly_header_valid then handler env f req else (f, .empty "401 Unauthorized")

/-! ## The handlers -/

def send_status : Handler := fun _ f _ =>
  (f, .reply .status)

def status_handler : Handler := guarded .HI_GUARD_SESSION send_status

def admin_status_handler : Handler := admin_read_ok send_status

def events_handler : Handler := guarded .HI_GUARD_SESSION fun env f _ =>
  (f, .reply (.json "200 OK" (FloorHeating.events_handler env.status.events_unix_time f.ring)))

def send_history : Handler := fun env f _ =>
  (f, .chunks (FloorHeating.send_history env.httpd f.task.history
    (fun mono_s => Int64.ofInt (env.status.events_unix_time mono_s)) env.now_s))

def history_handler : Handler := guarded .HI_GUARD_SESSION send_history

def admin_history_handler : Handler := admin_read_ok send_history

/-- The settings are those that `decide_locked` fetches. -/
def pump_command (who : Request → String) : Handler := fun env f req =>
  match req.read_json with
  | none => (f, .answered)
  | some body =>
    let (c, reply) := FloorHeating.pump_command env.to_uint32 f.task.control (settings_get f.store) env.date env.now_s
      body (who req)
    (f.locked c, .reply reply)

def pump_handler : Handler := guarded .HI_GUARD_MUTATION (pump_command Request.client_ip)

def admin_pump_handler : Handler := admin_ok (pump_command fun _ => "admin")

/-- `who` is only logged. -/
def apply_settings : Handler := fun env f req =>
  match req.read_json with
  | none => (f, .answered)
  | some body =>
    let (st, reply) := FloorHeating.apply_settings env.to_int16 f.store env.io body
    ({ f with store := st }, .reply reply)

def settings_handler : Handler := guarded .HI_GUARD_MUTATION apply_settings

def admin_settings_handler : Handler := admin_ok apply_settings

/-! ## `api_start` -/

inductive HttpMethod where
  | HTTP_GET
  | HTTP_POST
deriving DecidableEq, Repr

structure HttpdUri where
  uri : String
  method : HttpMethod
  handler : Handler

def routes : List HttpdUri := [
  ⟨"/api/status", .HTTP_GET, status_handler⟩,
  ⟨"/api/events", .HTTP_GET, events_handler⟩,
  ⟨"/api/history", .HTTP_GET, history_handler⟩,
  ⟨"/api/pump", .HTTP_POST, pump_handler⟩,
  ⟨"/api/settings", .HTTP_POST, settings_handler⟩,
  ⟨"/admin/pump", .HTTP_POST, admin_pump_handler⟩,
  ⟨"/admin/settings", .HTTP_POST, admin_settings_handler⟩,
  ⟨"/admin/status", .HTTP_GET, admin_status_handler⟩,
  ⟨"/admin/history", .HTTP_GET, admin_history_handler⟩]

/-- The server's own routes are left out. -/
def serve (method : HttpMethod) (uri : String) : Handler := fun env f req =>
  match routes.find? fun route => route.uri = uri ∧ route.method = method with
  | some route => route.handler env f req
  | none => (f, .not_found)

end Http

end FloorHeating
