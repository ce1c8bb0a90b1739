import FloorHeating.Code.Database
import FloorHeating.Spec.Api

/-! # The messages, and the tables as their summary -/

open FloorHeating.Lib

namespace FloorHeating

/-- What `hcdata.validate` accepts is what it is documented to accept. -/
structure Validate.Sound (v : Validate) : Prop where
  device_id : ∀ device, v.device_id device = .ok () → isMac device = true
  integer : ∀ d key lo hi required (n : Int), v.integer d key lo (some hi) required = .ok (some n) →
    lo.getD 0 ≤ n ∧ n ≤ hi

section Messages

variable {τ : Type} [LinearOrder τ] (v : Validate)

def ParseAccepts (m : Message τ) : Prop := ∃ p, parse v m.topic m.payload = .ok p

/-- The sample of a message: one from `device` that is live and carries a state. -/
def sampleOf (device : String) (m : Message τ) : Option (τ × StateFields) :=
  match parse v m.topic m.payload with
  | .ok (.state f) => if f.device = device ∧ m.retain = false then some (m.time, f) else none
  | _ => none

def statusOf (device : String) (m : Message τ) : Option (Bool × τ) :=
  match parse v m.topic m.payload with
  | .ok (.status d online) => if d = device then some (online, m.db_now) else none
  | _ => none

def samplesOf (device : String) (msgs : List (Message τ)) : List (τ × StateFields) :=
  msgs.filterMap (sampleOf v device)

def statusesOf (device : String) (msgs : List (Message τ)) : List (Bool × τ) :=
  msgs.filterMap (statusOf v device)

def ingest (to_real : Rat → Rat) (msgs : List (Message τ)) : Except IngestError (FhIngest τ) :=
  msgs.foldlM (FhIngest.on_message v to_real) ⟨false, ∅, ∅⟩

/-! ## The summary -/

def Db.online (db : Db τ) (device : String) : Option Bool := (db.device_status.lookup device).bind (·.online)

def Db.status_ts (db : Db τ) (device : String) : Option τ := (db.device_status.lookup device).bind (·.status_ts)

def Db.last_sample_ts (db : Db τ) (device : String) : Option τ :=
  (db.device_status.lookup device).bind (·.last_sample_ts)

structure Summary (to_real : Rat → Rat) (msgs : List (Message τ)) (db : Db τ) : Prop where
  sample : ∀ device ts, db.sample.lookup (device, ts) =
    ((samplesOf v device msgs).find? fun s => s.1 = ts).map fun s => sample_row to_real s.2
  last_sample : ∀ device, Latest {ts | ∃ f, (ts, f) ∈ samplesOf v device msgs} (db.last_sample_ts device)
  online : ∀ device, db.online device = (statusesOf v device msgs).getLast?.map Prod.fst
  status_ts : ∀ device, db.status_ts device = (statusesOf v device msgs).getLast?.map Prod.snd
  known : ∀ device, device ∈ db.device_status ↔ samplesOf v device msgs ≠ [] ∨ statusesOf v device msgs ≠ []

/-- What the message `m` leaves alone after `msgs`. -/
structure Leaves (msgs : List (Message τ)) (m : Message τ) (db db' : Db τ) : Prop where
  state : ∀ f, parse v m.topic m.payload = .ok (.state f) → ∀ device, db'.online device = db.online device
  status : ∀ device online, parse v m.topic m.payload = .ok (.status device online) →
    db'.sample = db.sample ∧ ∀ device, db'.last_sample_ts device = db.last_sample_ts device
  retained : ∀ f, parse v m.topic m.payload = .ok (.state f) → m.retain = true → db' = db
  replayed : ∀ f, parse v m.topic m.payload = .ok (.state f) →
    (m ∈ msgs ∨ ∃ f₀, (m.time, f₀) ∈ samplesOf v f.device msgs) → db' = db

end Messages

end FloorHeating
