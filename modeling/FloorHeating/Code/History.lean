import FloorHeating.Code.Settings

/-!
# history.c, and how api.c sends it

`size_t` has 32 bits. The buffer of `send_history` is the text in it; where C
would cut a text or write past the end, the model stops with `overrun`.
-/

namespace FloorHeating

def HISTORY_PERIOD_S : Int := 60
def HISTORY_SAMPLES : UInt32 := 1440

def HISTORY_NO_READING : Int16 := -32768

/-! ## history.c -/

structure History where
  s_temps : Vector Int16 HISTORY_SAMPLES.toNat
  s_pump : Vector UInt8 ((HISTORY_SAMPLES + 7) / 8).toNat
  s_head : UInt32
  s_count : UInt32
  s_newest_mono_s : Int
  head_lt : s_head < HISTORY_SAMPLES

namespace History

def init : History where
  s_temps := Vector.replicate _ 0
  s_pump := Vector.replicate _ 0
  s_head := 0
  s_count := 0
  s_newest_mono_s := 0
  head_lt := by decide

theorem index_lt {idx : UInt32} (h : idx < HISTORY_SAMPLES) : idx.toNat < HISTORY_SAMPLES.toNat :=
  UInt32.lt_iff_toNat_lt.mp h

theorem byte_lt {idx : UInt32} (h : idx < HISTORY_SAMPLES) :
    (idx / 8).toNat < ((HISTORY_SAMPLES + 7) / 8).toNat := by
  have hsize : ((HISTORY_SAMPLES + 7) / 8).toNat = 180 := by decide
  have hlt : idx.toNat < 1440 := index_lt h
  rw [hsize, UInt32.toNat_div]
  simp only [UInt32.reduceToNat]
  omega

theorem mod_lt (x : UInt32) : x % HISTORY_SAMPLES < HISTORY_SAMPLES := UInt32.mod_lt _ (by decide)

/-- `now` is `events_mono_s()`. -/
def history_add (h : History) (now : Int) (valid : Bool) (temp_x10 : Int16) (pump_on : Bool) : History :=
  let bit : UInt8 := 1 <<< (h.s_head % 8).toUInt8
  let byte := h.s_pump.get ⟨(h.s_head / 8).toNat, byte_lt h.head_lt⟩
  { s_temps := h.s_temps.set h.s_head.toNat (if valid then temp_x10 else HISTORY_NO_READING) (index_lt h.head_lt)
    s_pump := h.s_pump.set (h.s_head / 8).toNat (if pump_on then byte ||| bit else byte &&& ~~~bit)
      (byte_lt h.head_lt)
    s_head := (h.s_head + 1) % HISTORY_SAMPLES
    s_count := if h.s_count < HISTORY_SAMPLES then h.s_count + 1 else h.s_count
    s_newest_mono_s := now
    head_lt := mod_lt _ }

def copy_index (start : UInt32) (i : Nat) : UInt32 := (start + UInt32.ofNat i) % HISTORY_SAMPLES

def sample (h : History) (idx : UInt32) (hi : idx < HISTORY_SAMPLES) : Int16 × Bool :=
  (h.s_temps.get ⟨idx.toNat, index_lt hi⟩,
    (h.s_pump.get ⟨(idx / 8).toNat, byte_lt hi⟩ >>> (idx % 8).toUInt8) &&& 1 ≠ 0)

/-- What `temps` and `pump` hold, entry by entry, and `newest_mono_s`. The returned count is the
number of entries. -/
def history_copy (h : History) (max : UInt32) : List (Int16 × Bool) × Int :=
  let n := if h.s_count < max then h.s_count else max
  let start := (h.s_head + HISTORY_SAMPLES - n) % HISTORY_SAMPLES
  ((List.range n.toNat).map fun i => h.sample (copy_index start i) (mod_lt _), h.s_newest_mono_s)

end History

/-! ## `send_history` -/

def BUF_SIZE : Nat := 512

inductive SendError where
  | overrun
  | failed (sent : List (List Char))

/-- The chunks sent so far, and `buf` up to `len`. -/
structure Stream where
  sent : List (List Char)
  buf : List Char

namespace Stream

/-- `len += snprintf(buf + len, sizeof(buf) - len, ..)` -/
def snprintf (s : Stream) (text : String) : Except SendError Stream :=
  if s.buf.length + text.length < BUF_SIZE then .ok { s with buf := s.buf ++ text.toList } else .error .overrun

def put (s : Stream) (c : Char) : Except SendError Stream :=
  if s.buf.length < BUF_SIZE then .ok { s with buf := s.buf ++ [c] } else .error .overrun

/-- `httpd k` is what the `k`-th `httpd_resp_send_chunk` returns. -/
def send_chunk (httpd : Nat → EspErr) (s : Stream) : Except SendError Stream :=
  if httpd s.sent.length = .ESP_OK then .ok ⟨s.sent ++ [s.buf], []⟩ else .error (.failed (s.sent ++ [s.buf]))

/-- The check at the top of both loops. -/
def flush_above (httpd : Nat → EspErr) (margin : Nat) (s : Stream) : Except SendError Stream :=
  if BUF_SIZE - margin < s.buf.length then s.send_chunk httpd else .ok s

def put_temp (httpd : Nat → EspErr) (s : Stream) (entry : Int16 × Nat) : Except SendError Stream := do
  let s ← s.flush_above httpd 16
  let sep := if entry.2 = 0 then "" else ","
  s.snprintf (sep ++ if entry.1 = HISTORY_NO_READING then "null" else toString entry.1.toInt)

def put_pump (httpd : Nat → EspErr) (s : Stream) (on : Bool) : Except SendError Stream := do
  let s ← s.flush_above httpd 8
  s.put (if on then '1' else '0')

end Stream

def header (newest newest_age_s : Int64) : String :=
  s!"\x7b\"period_s\":{HISTORY_PERIOD_S},\"newest\":{newest.toInt},\"newest_age_s\":{newest_age_s.toInt},\"t\":["

/-- `send_history` after the copy: all chunks, the terminating empty one included. -/
def send_samples (httpd : Nat → EspErr) (samples : List (Int16 × Bool)) (newest newest_age_s : Int64) :
    Except SendError (List (List Char)) := do
  let s ← Stream.snprintf ⟨[], []⟩ (header newest newest_age_s)
  let s ← (samples.map Prod.fst).zipIdx.foldlM (Stream.put_temp httpd) s
  let s ← s.snprintf "],\"p\":\""
  let s ← (samples.map Prod.snd).foldlM (Stream.put_pump httpd) s
  let s ← s.snprintf "\"\x7d"
  let s ← s.send_chunk httpd
  let s ← s.send_chunk httpd
  return s.sent

def send_history (httpd : Nat → EspErr) (h : History) (events_unix_time : Int → Int64) (events_mono_s : Int) :
    Except SendError (List (List Char)) :=
  let (samples, newest_mono_s) := h.history_copy HISTORY_SAMPLES
  send_samples httpd samples
    (if samples.length ≠ 0 then events_unix_time newest_mono_s else 0)
    (if samples.length ≠ 0 then Int64.ofInt (events_mono_s - newest_mono_s) else 0)

/-! ## app.html -/

/-- `ageOf(i)` in `loadHistory`; `n` is the length of `h.t`. -/
def ageOf (newest_age_s : Int) (n i : Nat) : Int := newest_age_s + ((n : Int) - 1 - i) * HISTORY_PERIOD_S

end FloorHeating
