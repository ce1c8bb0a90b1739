import FloorHeating.Code.Ingest
import FloorHeating.Lib.Table

/-!
# fh_ingest.py and schema.sql: what is stored

Times are as a `timestamptz` column keeps them. What a `real` column keeps of a
number is an argument.
-/

open FloorHeating.Lib

namespace FloorHeating

/-! ## schema.sql -/

/-- The columns of `sample` after its key: those of `COLUMNS`. -/
structure SampleRow where
  temp_c : Option Rat
  temp_age_s : Option Int
  pump_on : Bool
  reason : String
  manual : String
  maintenance : Bool
  overheat : Bool
  sensor_failed : Bool
  start_c : Option Rat
  stop_c : Option Rat
  critical_c : Option Rat
  runtime_today_s : Option Int
  starts_today : Option Int
deriving DecidableEq

structure DeviceStatus (τ : Type) where
  online : Option Bool
  status_ts : Option τ
  last_sample_ts : Option τ

structure Db (τ : Type) where
  sample : Table (String × τ) SampleRow
  device_status : Table String (DeviceStatus τ)

inductive DbError where
  | CheckViolation
  | NumericValueOutOfRange
deriving DecidableEq

def device_check (device : String) : Bool :=
  decide (device.toList.length = 12) && device.toList.all ("0123456789abcdef".toList.contains ·)

/-- A column of type `integer` can hold it. -/
def fits_integer (n : Option Int) : Bool := n.all fun n => decide (-2147483648 ≤ n ∧ n ≤ 2147483647)

/-! ## fh_ingest.py -/

section Store

variable {τ : Type} [LinearOrder τ]

def sample_row (to_real : Rat → Rat) (f : StateFields) : SampleRow where
  temp_c := f.temp_c.map to_real
  temp_age_s := f.temp_age_s
  pump_on := f.pump_on
  reason := f.reason
  manual := f.manual
  maintenance := f.maintenance
  overheat := f.overheat
  sensor_failed := f.sensor_failed
  start_c := f.start_c.map to_real
  stop_c := f.stop_c.map to_real
  critical_c := f.critical_c.map to_real
  runtime_today_s := f.runtime_today_s
  starts_today := f.starts_today

def insert_sample (to_real : Rat → Rat) (db : Db τ) (f : StateFields) (ts : τ) : Except DbError (Db τ) :=
  if ¬ (fits_integer f.temp_age_s && fits_integer f.runtime_today_s && fits_integer f.starts_today) then
    .error .NumericValueOutOfRange
  else if ¬ device_check f.device then .error .CheckViolation
  else .ok { db with sample := db.sample.insertOrIgnore (f.device, ts) (sample_row to_real f) }

/-- `time` is what `time.time()` gives, and `db_now` what the server's `now()` gives. -/
def store_message (to_real : Rat → Rat) (db : Db τ) (p : Parsed) (now : Option τ) (retained : Bool)
    (time db_now : τ) : Except DbError (Db τ) :=
  match p with
  | .status device online =>
    .ok { db with
      device_status := db.device_status.upsert device ⟨some online, some db_now, none⟩ fun row =>
        { row with online := some online, status_ts := some db_now } }
  | .state f =>
    if retained then .ok db
    else do
      let ts := now.getD time
      let db ← insert_sample to_real db f ts
      return { db with
        device_status := db.device_status.upsert f.device ⟨none, none, some ts⟩ fun row =>
          { row with last_sample_ts := greatest row.last_sample_ts (some ts) } }

structure Message (τ : Type) where
  topic : String
  payload : Payload
  retain : Bool
  time : τ
  db_now : τ

inductive IngestError where
  | parse (e : PyError)
  | db (e : DbError)

structure FhIngest (τ : Type) where
  retained : Bool
  db : Db τ

def FhIngest.handle (v : Validate) (to_real : Rat → Rat) (s : FhIngest τ) (msg : Message τ) :
    Except IngestError (FhIngest τ) := do
  let p ← (parse v msg.topic msg.payload).mapError .parse
  let db ← (store_message to_real s.db p none s.retained msg.time msg.db_now).mapError .db
  return { s with db := db }

/-- The `_on_message` of the base class, which is another package's, calls `handle` once. -/
def FhIngest.on_message (v : Validate) (to_real : Rat → Rat) (s : FhIngest τ) (msg : Message τ) :
    Except IngestError (FhIngest τ) :=
  FhIngest.handle v to_real { s with retained := msg.retain } msg

end Store

end FloorHeating
