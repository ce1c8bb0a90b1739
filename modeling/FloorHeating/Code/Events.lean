import FloorHeating.Code.Api

/-!
# events.c, and how api.c sends the events

`size_t` has 32 bits. A notification is what `notify` hands to `hi_notify` or
to `ESP_LOGE`, whose lines go to the error topic too. `ESP_LOGW` lines are left out.
-/

namespace FloorHeating

def EVENTS_RING_SIZE : UInt32 := 50

/-! ## The ring -/

structure EventRing where
  s_ring : Vector Event EVENTS_RING_SIZE.toNat
  s_head : UInt32
  s_count : UInt32
  head_lt : s_head < EVENTS_RING_SIZE

namespace EventRing

/-- The events of before stay in the slots. -/
def events_init (r : EventRing) : EventRing :=
  { r with s_head := 0, s_count := 0, head_lt := by decide }

theorem index_lt {idx : UInt32} (h : idx < EVENTS_RING_SIZE) : idx.toNat < EVENTS_RING_SIZE.toNat :=
  UInt32.lt_iff_toNat_lt.mp h

theorem mod_lt (x : UInt32) : x % EVENTS_RING_SIZE < EVENTS_RING_SIZE := UInt32.mod_lt _ (by decide)

/-- The part of `events_publish` under the lock. -/
def events_publish (r : EventRing) (e : Event) : EventRing where
  s_ring := r.s_ring.set r.s_head.toNat e (index_lt r.head_lt)
  s_head := (r.s_head + 1) % EVENTS_RING_SIZE
  s_count := if r.s_count < EVENTS_RING_SIZE then r.s_count + 1 else r.s_count
  head_lt := mod_lt _

def recent_index (r : EventRing) (i : Nat) : UInt32 :=
  (r.s_head + EVENTS_RING_SIZE - 1 - UInt32.ofNat i) % EVENTS_RING_SIZE

/-- The loop of `events_recent` with `left` of the stored events to go. Its `i` and its `n` are both
the length of `out`. -/
def recent_from (r : EventRing) (max : UInt32) : (left : Nat) → (out : List Event) → List Event
  | 0, out => out
  | left + 1, out =>
    if out.length < max.toNat then
      recent_from r max left
        (out ++ [r.s_ring.get ⟨(r.recent_index out.length).toNat, index_lt (mod_lt _)⟩])
    else out

/-- What `out` holds. The returned count is its length. -/
def events_recent (r : EventRing) (max : UInt32) : List Event := r.recent_from max r.s_count.toNat []

end EventRing

/-! ## The notification -/

def TEMP_SIZE : Nat := 16
def MSG_SIZE : Nat := 160

/-- `"%d.%d °C"`, with C's division. -/
def temp_format (temp_x10 : Int) : String := s!"{temp_x10.tdiv 10}.{(temp_x10.tmod 10).natAbs} °C"

/-- `snprintf size text` is the text left in a buffer. -/
def temp_text (snprintf : Nat → String → String) (e : Event) (len : Nat) : String :=
  if e.has_temp then snprintf len (temp_format e.temp_x10) else snprintf len "no reading"

inductive NotifyPrio where
  | HI_NOTIFY_PRIO_DEFAULT
  | HI_NOTIFY_PRIO_LOW
deriving DecidableEq, Repr

inductive Notice where
  | hi_notify_event_ex (title msg : String) (prio : NotifyPrio) (tags : String)
  | hi_notify_error (msg : String)
  | esp_loge (line : String)
deriving DecidableEq, Repr

def notify_pump (snprintf : Nat → String → String) (e : Event) (temp : String) : Option Notice :=
  match e.reason with
  | .AutoHot =>
    let msg := snprintf MSG_SIZE s!"Water {temp}"
    some (.hi_notify_event_ex "Pump started" msg .HI_NOTIFY_PRIO_DEFAULT "arrows_counterclockwise")
  | .AutoCold =>
    if e.prev_reason = .Maintenance then none
    else
      let ended := if e.prev_reason = .ManualOn then ", manual run ended" else ""
      let msg := snprintf MSG_SIZE s!"Water {temp}{ended}"
      let prio : NotifyPrio :=
        if e.prev_reason = .ManualOn then .HI_NOTIFY_PRIO_LOW else .HI_NOTIFY_PRIO_DEFAULT
      some (.hi_notify_event_ex "Pump stopped" msg prio "zzz")
  | .ManualOn | .ManualOff =>
    let msg := snprintf MSG_SIZE s!"Water {temp}, {e.detail}"
    some (.hi_notify_event_ex (if e.on then "Pump started manually" else "Pump stopped manually") msg
      .HI_NOTIFY_PRIO_LOW (if e.on then "arrows_counterclockwise" else "zzz"))
  | .Maintenance =>
    let msg := snprintf MSG_SIZE
      s!"Anti-seize run for {MAINTENANCE_RUN_S} s after {MAINTENANCE_INTERVAL_S / 86400} days idle, water {temp}"
    some (.hi_notify_event_ex "Pump maintenance run" msg .HI_NOTIFY_PRIO_LOW "wrench")
  | .SensorFail | .Overheat => none

def notify (snprintf : Nat → String → String) (e : Event) : Option Notice :=
  let temp := temp_text snprintf e TEMP_SIZE
  match e.type with
  | .EV_PUMP => notify_pump snprintf e temp
  | .EV_OVERHEAT =>
    if e.on then some (.esp_loge s!"Overheat: water {temp}, pump forced on")
    else some (.hi_notify_error (snprintf MSG_SIZE s!"Overheat over: water {temp}"))
  | .EV_SENSOR =>
    if e.on then
      some (.esp_loge
        s!"Temperature sensor failed {SENSOR_FAIL_READS} times in a row, pump on as a fail-safe")
    else some (.hi_notify_error (snprintf MSG_SIZE s!"Temperature sensor recovered: water {temp}"))
  | .EV_MANUAL_END => none

/-! ## `events_handler` -/

def type_name : EventType → String
  | .EV_PUMP => "pump"
  | .EV_OVERHEAT => "overheat"
  | .EV_SENSOR => "sensor"
  | .EV_MANUAL_END => "manual_end"

def event_json (events_unix_time : Int → Int) (e : Event) : Json :=
  .obj [
    ("ts", .num (events_unix_time e.mono_s)),
    ("type", .str (type_name e.type)),
    ("on", .bool e.on),
    ("reason", .str (ctl_reason_name e.reason)),
    ("prev_reason", .str (ctl_reason_name e.prev_reason)),
    ("temp_c", if e.has_temp then .num (celsius e.temp_x10) else .null),
    ("detail", .str e.detail)]

def events_handler (events_unix_time : Int → Int) (r : EventRing) : Json :=
  .obj [("events", .arr ((r.events_recent EVENTS_RING_SIZE).map (event_json events_unix_time)))]

end FloorHeating
