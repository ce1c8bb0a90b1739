import FloorHeating.Documents
import FloorHeating.Spec.Pipeline
import FloorHeating.Summary

/-!
# The tables have what the devices sent

What the parser makes of a document that a device sent, then the rows of any
number of devices, and last that no device has a say in another's rows.
-/

open FloorHeating.Lib FloorHeating.Documents

namespace FloorHeating.Pipeline

/-! ## The parser -/

section Parse

variable {v : Validate} {topic device : String} {payload : Payload} {f : StateFields}

theorem topic_of_parts {topic top device kind : String}
    (h : (topic.toList.splitOn '/').map String.ofList = [top, device, kind]) :
    topic = top ++ "/" ++ device ++ "/" ++ kind := by
  have hchars : topic.toList.splitOn '/' = [top.toList, device.toList, kind.toList] := by
    have hlists := congrArg (List.map String.toList) h
    simpa using hlists
  have hback : ['/'].intercalate (topic.toList.splitOn '/') = topic.toList := List.intercalate_splitOn '/'
  rw [hchars] at hback
  apply String.toList_inj.mp
  rw [← hback]
  simp [List.intercalate]

theorem parse_state_device {data : Dict} (h : parse_state v device data = .ok (.state f)) : f.device = device := by
  simp only [parse_state, Ingest.bind_ok] at h
  obtain ⟨pump, -, temp, -, settings, -, today, -, age, -, temp_c, -, h⟩ := h
  cases age with
  | none =>
    simp only [Ingest.throw_eq, Ingest.error_bind] at h
    cases h
  | some age =>
    simp only [pure_bind, Ingest.bind_ok] at h
    obtain ⟨pump_on, -, reason, -, manual, -, maintenance, -, overheat, -, sensor_failed, -, start_c, -, stop_c, -,
      critical_c, -, runtime, -, starts, -, hf⟩ := h
    exact (congrArg StateFields.device (Parsed.state.inj (Except.ok.inj hf))).symm

theorem state_topic (h : parse v topic payload = .ok (.state f)) :
    topic = stateTopic f.device ∧ ∃ data, payload.json = some (.obj data) ∧
      parse_state v f.device data = .ok (.state f) := by
  unfold parse at h
  split at h
  · rename_i top device kind hparts
    by_cases htop : top = "floorheating"
    · simp only [htop, ne_eq, not_true_eq_false, if_false] at h
      obtain ⟨⟨⟩, hdevice, h⟩ := Ingest.bind_ok.mp h
      split at h
      · split at h
        · cases h
        · cases h
      · split at h
        · cases h
        · rename_i hkind
          split at h
          · cases h
          · rename_i data hdata
            obtain rfl := parse_state_device h
            rw [htop, not_not.mp hkind] at hparts
            refine ⟨?_, data, hdata, h⟩
            rw [topic_of_parts hparts, String.append_assoc, String.append_assoc, String.append_assoc]
            rw [stateTopic, String.append_assoc]
            rfl
          · cases h
    · rw [if_pos htop] at h
      cases h
  · cases h

theorem state_of_topic (hs : v.Sound) (hmac : isMac device = true) {p : Parsed}
    (h : parse v (stateTopic device) payload = .ok p) : ∃ f, p = .state f ∧ f.device = device := by
  unfold parse at h
  rw [Api.topic_parts hmac] at h
  dsimp only at h
  rw [if_neg (not_not.mpr rfl)] at h
  obtain ⟨⟨⟩, -, h⟩ := Ingest.bind_ok.mp h
  rw [if_neg (by decide), if_neg (by decide)] at h
  split at h
  · cases h
  · obtain ⟨f, rfl, -⟩ := Ingest.parse_state_ok hs h hmac
    exact ⟨f, rfl, parse_state_device h⟩
  · cases h

end Parse

/-! ## A document that a device sent -/

section Document

variable {v : Validate} (hv : v.Lawful) {c : Control} {now : Int} (hsnap : Snapshot c now) {st : Settings}
  (hsane : st.Sane) {events_unix_time : Int → Int} {system : List (String × Json)} {device : String} {data : Dict}
  {f : StateFields}

section Integers

include hv

theorem integer_le {d : Dict} {key : String} {lo : Option Int} {hi : Int} {required : Option Bool} {n : Int}
    {got : Option Int} (hn : d.get key = some (.num n)) (h : v.integer d key lo (some hi) required = .ok got) :
    n ≤ hi := by
  by_contra hlarge
  obtain ⟨text, hreject⟩ := hv.integer_rejects d key lo hi required n hn (not_le.mp hlarge)
  rw [h] at hreject
  cases hreject

theorem integer_same {d : Dict} {key : String} {hi : Int} {required : Option Bool} {n : Nat} {got : Option Int}
    (hn : d.get key = some (.num (n : Int))) (h : v.integer d key none (some hi) required = .ok got) :
    got = some (n : Int) := by
  have hle := integer_le hv hn h
  rw [hv.integer_accepts d key none hi required n hn (Int.natCast_nonneg n) hle] at h
  exact (Except.ok.inj h).symm

end Integers

include hsnap

theorem row_says (to_real : Rat → Rat) :
    Says to_real (api_status_json (control_status c now) st events_unix_time system)
      (sample_row to_real (Api.statusFields device (control_status c now) st)) where
  pump_on := rfl
  reason := rfl
  manual := rfl
  maintenance := rfl
  overheat := rfl
  sensor_failed := rfl
  temp_c := by
    refine ⟨if c.s_state.have_temp then some (celsius c.s_state.temp_x10) else none, ?_, rfl⟩
    change some (if c.s_state.have_temp then Json.num (celsius c.s_state.temp_x10) else .null) = _
    cases c.s_state.have_temp <;> rfl
  temp_age_s := by
    refine ⟨if c.s_state.have_temp then now - c.s_state.temp_s else -1, rfl, ?_⟩
    change (if c.s_state.have_temp then some (now - c.s_state.temp_s) else none) = _
    split
    · rename_i ht
      have hpast := hsnap.2.temp ht
      rw [if_neg (by omega)]
    · rfl
  settings key col hkey := by
    simp only [List.mem_cons, List.not_mem_nil, or_false, Prod.mk.injEq] at hkey
    rcases hkey with ⟨rfl, rfl⟩ | ⟨rfl, rfl⟩ | ⟨rfl, rfl⟩ <;> exact ⟨_, rfl, rfl⟩
  today key col hkey := by
    simp only [List.mem_cons, List.not_mem_nil, or_false, Prod.mk.injEq] at hkey
    rcases hkey with ⟨rfl, rfl⟩ | ⟨rfl, rfl⟩ <;> exact ⟨_, rfl, rfl⟩

include hv

theorem accepted_fits (hdoc : api_status_json (control_status c now) st events_unix_time system = .obj data)
    (h : parse_state v device data = .ok (.state f)) : Api.ReadingFits (control_status c now) := by
  obtain ⟨pump, temp, settings, today, hpump, htemp, hsettings, htoday, -, ⟨-, hage, -, -⟩, -, -, -⟩ :=
    Api.document_fields hdoc
  unfold parse_state at h
  rw [hpump, htemp, hsettings, htoday] at h
  simp only [Ingest.ok_bind] at h
  obtain ⟨age, hint, -⟩ := Ingest.bind_ok.mp h
  refine ⟨fun ht => reached_temp hsnap.1 ht, fun ht => ⟨?_, ?_⟩⟩
  · have := hsnap.2.temp ht
    exact Int.sub_nonneg.mpr this
  · rw [if_pos ht] at hage
    exact integer_le hv hage hint

include hsane

theorem accepted_fields (hdoc : api_status_json (control_status c now) st events_unix_time system = .obj data)
    (h : parse_state v device data = .ok (.state f)) : f = Api.statusFields device (control_status c now) st := by
  have hfits := accepted_fits hv hsnap hdoc h
  obtain ⟨today, hruntime, hstarts, heq⟩ := Api.parse_state_eq hv device hfits hsane hdoc
  rw [heq] at h
  obtain ⟨runtime, hruntime_got, h⟩ := Ingest.bind_ok.mp h
  obtain ⟨starts, hstarts_got, h⟩ := Ingest.bind_ok.mp h
  rw [integer_same hv hruntime hruntime_got, integer_same hv hstarts hstarts_got] at h
  exact (Parsed.state.inj (Except.ok.inj h)).symm

end Document

theorem says_consistent {to_real : Rat → Rat} {doc : Json} {row : SampleRow} (hd : Consistent doc)
    (h : Says to_real doc row) : row.Consistent where
  pump := by
    obtain ⟨reason, hreason, hon⟩ := hd.pump
    rw [h.reason] at hreason
    rw [h.pump_on] at hon
    cases hreason
    exact Json.bool.inj (Option.some.inj hon)
  overheat := by
    have hiff := hd.overheat
    rw [h.overheat, h.reason] at hiff
    simpa using hiff
  stopped := by
    have hiff := hd.stopped
    rw [h.manual, h.reason] at hiff
    simpa using hiff
  fail_safe := by
    have hsafe := hd.fail_safe
    rw [h.sensor_failed, h.pump_on, h.manual] at hsafe
    simpa using hsafe
  temp := by
    obtain ⟨c, hc, hcol⟩ := h.temp_c
    obtain ⟨age, hage, hcol'⟩ := h.temp_age_s
    rw [hcol, hcol']
    rcases hd.temp with ⟨hnull, hnone⟩ | ⟨x, age', hx, hsome, -, -, hpos⟩
    · rw [hc] at hnull
      rw [hage] at hnone
      have hcast : (age : Rat) = -1 := by simpa using hnone
      obtain rfl : age = -1 := by exact_mod_cast hcast
      cases c with
      | none => rfl
      | some c => simp at hnull
    · rw [hc] at hx
      rw [hage] at hsome
      obtain rfl : age = age' := by simpa using hsome
      rw [if_neg (not_lt.mpr hpos)]
      cases c with
      | none => simp at hx
      | some c => rfl
  age := by
    obtain ⟨age, -, hcol⟩ := h.temp_age_s
    intro age' hage'
    rw [hcol] at hage'
    split at hage'
    · cases hage'
    · cases hage'
      omega

/-! ## The rows -/

section Rows

variable {τ : Type} {v : Validate} {fleet : String → Machine} {m : Message τ} {f : StateFields}

theorem sampled {device : String} {msgs : List (Message τ)} {ts : τ} (h : (ts, f) ∈ samplesOf v device msgs) :
    f.device = device ∧ ∃ m ∈ msgs, m.retain = false ∧ m.time = ts ∧ parse v m.topic m.payload = .ok (.state f) := by
  obtain ⟨m, hm, hsample⟩ := List.mem_filterMap.mp h
  unfold sampleOf at hsample
  split at hsample
  · rename_i f' hparse
    split at hsample
    · rename_i hlive
      cases hsample
      exact ⟨hlive.1, m, hm, hlive.2, rfl, hparse⟩
    · cases hsample
  · cases hsample

/-- What is accepted from a device is a document of its, and the row has what it says. -/
theorem sent_row (hv : v.Lawful) (hfleet : Fleet fleet) (hauth : Authentic fleet m)
    (hparse : parse v m.topic m.payload = .ok (.state f)) (to_real : Rat → Rat) :
    m.topic = stateTopic f.device ∧ (sample_row to_real f).Consistent ∧
      ∃ doc ∈ (fleet f.device).documents, m.payload.json = some doc ∧ Says to_real doc (sample_row to_real f) := by
  obtain ⟨htopic, data, hdata, hstate⟩ := state_topic hparse
  obtain ⟨doc, hdoc, hpayload⟩ := hauth f.device htopic
  obtain ⟨nvs, ring, boot, h, hmachine⟩ := hfleet f.device
  have hsound := sound_run nvs ring boot h
  rw [← hmachine] at hsound
  obtain ⟨c, now, st, events_unix_time, system, hsnap, hsane, heq⟩ := hsound.documents doc hdoc
  have hobj : api_status_json (control_status c now) st events_unix_time system = .obj data := by
    rw [← heq]
    exact Option.some.inj (hpayload.symm.trans hdata)
  have hfields := accepted_fields hv hsnap hsane hobj hstate
  have hsays : Says to_real doc (sample_row to_real f) := by
    rw [heq, hfields]
    exact row_says hsnap to_real
  have hconsistent : FloorHeating.Consistent doc := by
    rw [heq]
    exact honest_consistent hsnap hsane events_unix_time system
  exact ⟨htopic, says_consistent hconsistent hsays, doc, hdoc, hpayload, hsays⟩

/-- From any number of firmwares to the tables, with messages that the parser accepts: every row has what its device
said in a document that came then, and every live document has a row at the time it came. -/
theorem tables_have_the_documents [LinearOrder τ] (hv : v.Lawful) (hs : v.Sound) (hfleet : Fleet fleet)
    (to_real : Rat → Rat) {msgs : List (Message τ)} (hauth : ∀ m ∈ msgs, Authentic fleet m)
    (hok : ∀ m ∈ msgs, ParseAccepts v m) :
    ∃ s, ingest v to_real msgs = .ok s ∧
      (∀ device ts row, s.db.sample.lookup (device, ts) = some row → row.Consistent ∧
        ∃ m ∈ msgs, m.topic = stateTopic device ∧ m.retain = false ∧ m.time = ts ∧
          ∃ doc ∈ (fleet device).documents, m.payload.json = some doc ∧ Says to_real doc row) ∧
      ∀ m ∈ msgs, ∀ device, isMac device = true → m.topic = stateTopic device → m.retain = false →
        ∃ row, s.db.sample.lookup (device, m.time) = some row := by
  obtain ⟨s, hingest, hsum⟩ := Ingest.ingest_ok hs to_real msgs hok
  refine ⟨s, hingest, ?_, ?_⟩
  · intro device ts row hrow
    rw [hsum.sample, Option.map_eq_some_iff] at hrow
    obtain ⟨⟨ts', f⟩, hfind, rfl⟩ := hrow
    obtain rfl : ts' = ts := by simpa using List.find?_some hfind
    obtain ⟨rfl, m, hm, hlive, htime, hparse⟩ := sampled (List.mem_of_find?_eq_some hfind)
    obtain ⟨htopic, hconsistent, hsays⟩ := sent_row hv hfleet (hauth m hm) hparse to_real
    exact ⟨hconsistent, m, hm, htopic, hlive, htime, hsays⟩
  · intro m hm device hmac htopic hlive
    obtain ⟨p, hparse⟩ := hok m hm
    rw [htopic] at hparse
    obtain ⟨f, rfl, rfl⟩ := state_of_topic hs hmac hparse
    rw [← htopic] at hparse
    have hsample : (m.time, f) ∈ samplesOf v f.device msgs := by
      refine List.mem_filterMap.mpr ⟨m, hm, ?_⟩
      rw [(Ingest.of_state hparse f.device).1, if_pos ⟨rfl, hlive⟩]
    rw [hsum.sample, ← Option.isSome_iff_exists, Option.isSome_map, List.find?_isSome]
    exact ⟨_, hsample, by simp⟩

/-- Every device runs as the overtaken reader's, and then another document is built. -/
def readAgain : List Move := overtakenReader ++ [.tick 4, .copy, .stamp 1, .send 1 (fun t => t) []]

def readFleet (_ : String) : Machine := machineAfter .missing zeroedRing 0 readAgain

def bootDocument : Json := api_status_json (control_status (control_start 0) 6) default_settings (fun t => t) []

def warmControl : Control := (machineAfter .missing zeroedRing 0 overtakenReader).task.control

def warmDocument : Json := api_status_json (control_status warmControl 10) default_settings (fun t => t) []

def stateMessage (doc : Json) (retain : Bool) (time : Int) : Message Int :=
  ⟨stateTopic "98cdac4e7554", ⟨"", some doc⟩, retain, time, time⟩

/-- A retained one, both documents, the second one twice, and the first one again. -/
def lateMessages : List (Message Int) :=
  [stateMessage warmDocument true 90, stateMessage bootDocument false 100, stateMessage warmDocument false 110,
    stateMessage warmDocument false 110, stateMessage bootDocument false 120]

theorem message_accepted {c : ControlStatus} {events_unix_time : Int → Int} {system : List (String × Json)}
    (hfits : Api.ReadingFits c) (hstarts : c.starts_today.toNat ≤ 100000) (hruntime : c.runtime_today_s.toNat ≤ 172800)
    (retain : Bool) (time : Int) : ParseAccepts Api.plainValidate
      (stateMessage (api_status_json c default_settings events_unix_time system) retain time) := by
  obtain ⟨data, hdata⟩ : ∃ data, api_status_json c default_settings events_unix_time system = .obj data := ⟨_, rfl⟩
  have hstate := (Api.parse_state_iff Api.plainValidate_lawful "98cdac4e7554" hfits Thresholds.default_sane hdata
    hstarts).mpr hruntime
  exact ⟨_, (Api.parse_topic Api.plainValidate_lawful (by decide) (congrArg some hdata)).trans hstate⟩

theorem late_messages_accepted : ∀ m ∈ lateMessages, ParseAccepts Api.plainValidate m := by
  have hboot (retain : Bool) (time : Int) : ParseAccepts Api.plainValidate (stateMessage bootDocument retain time) :=
    message_accepted ⟨fun ht => absurd ht (by decide), fun ht => absurd ht (by decide)⟩ (by decide) (by decide) retain
      time
  have hwarm (retain : Bool) (time : Int) : ParseAccepts Api.plainValidate (stateMessage warmDocument retain time) :=
    message_accepted ⟨fun _ => by decide +kernel, fun _ => by decide +kernel⟩ (by decide +kernel) (by decide +kernel)
      retain time
  intro m hm
  simp only [lateMessages, List.mem_cons, List.not_mem_nil, or_false] at hm
  rcases hm with rfl | rfl | rfl | rfl | rfl
  · exact hwarm _ _
  · exact hboot _ _
  · exact hwarm _ _
  · exact hwarm _ _
  · exact hboot _ _

theorem late_messages_stored :
    ∃ s row, ingest Api.plainValidate id lateMessages = .ok s ∧
      s.db.sample.lookup ("98cdac4e7554", 110) = some row ∧ row.Consistent ∧ row.pump_on = true ∧
      row.temp_c = some 31 := by
  have hsent (device : String) : (readFleet device).documents = [bootDocument, warmDocument] := rfl
  have hfleet : Fleet readFleet := fun _ => ⟨.missing, zeroedRing, 0, readAgain, rfl⟩
  have hauth : ∀ m ∈ lateMessages, Authentic readFleet m := by
    intro m hm device _
    simp only [lateMessages, List.mem_cons, List.not_mem_nil, or_false] at hm
    rcases hm with rfl | rfl | rfl | rfl | rfl <;> exact ⟨_, by simp [hsent], rfl⟩
  obtain ⟨s, hingest, hrows, hstored⟩ := tables_have_the_documents Api.plainValidate_lawful Ingest.plainValidate_sound
    hfleet id hauth late_messages_accepted
  obtain ⟨row, hrow⟩ := hstored (stateMessage warmDocument false 110) (by simp [lateMessages]) "98cdac4e7554"
    (by decide) rfl rfl
  obtain ⟨hconsistent, m, hm, -, -, htime, doc, -, hpayload, hsays⟩ := hrows _ _ row hrow
  have hdoc : doc = warmDocument := by
    simp only [lateMessages, List.mem_cons, List.not_mem_nil, or_false] at hm
    rcases hm with rfl | rfl | rfl | rfl | rfl
    · exact absurd htime (by decide)
    · exact absurd htime (by decide)
    · exact (Option.some.inj hpayload).symm
    · exact (Option.some.inj hpayload).symm
    · exact absurd htime (by decide)
  have hon := hsays.pump_on
  obtain ⟨c, hc, htemp⟩ := hsays.temp_c
  have hwarm : warmDocument.field "pump" "on" = some (.bool true) ∧
      warmDocument.field "temp" "c" = some (.num (celsius 310)) := ⟨rfl, rfl⟩
  rw [hdoc, hwarm.1] at hon
  rw [hdoc, hwarm.2] at hc
  refine ⟨s, row, hingest, hrow, hconsistent, (Json.bool.inj (Option.some.inj hon)).symm, ?_⟩
  cases c with
  | none => cases hc
  | some c =>
    obtain rfl : celsius 310 = c := Json.num.inj (Option.some.inj hc)
    rw [htemp]
    norm_num [celsius]

end Rows

/-! ## One device and the others -/

section Others

variable {τ : Type} {v : Validate} {device : String}

theorem concerns_not {m : Message τ} (h : Concerns v device m = false) :
    sampleOf v device m = none ∧ FloorHeating.statusOf v device m = none := by
  unfold Concerns at h
  unfold sampleOf FloorHeating.statusOf
  cases hparse : parse v m.topic m.payload with
  | error e => exact ⟨rfl, rfl⟩
  | ok p =>
    rw [hparse] at h
    cases p with
    | status d online => exact ⟨rfl, if_neg (of_decide_eq_false h)⟩
    | state f => exact ⟨if_neg fun hboth => of_decide_eq_false h hboth.1, rfl⟩

theorem filterMap_kept {α β : Type} {p : α → Bool} {f : α → Option β} (h : ∀ a, p a = false → f a = none)
    (l : List α) : (l.filter p).filterMap f = l.filterMap f := by
  rw [List.filterMap_filter]
  congr 1
  funext a
  cases hp : p a with
  | true => rfl
  | false => exact (h a hp).symm

theorem latest_unique [LinearOrder τ] {times : Set τ} {a b : Option τ} (ha : Latest times a) (hb : Latest times b) :
    a = b := by
  cases a with
  | none =>
    cases b with
    | none => rfl
    | some b => exact absurd (ha ▸ hb.1) (Set.notMem_empty b)
  | some a =>
    cases b with
    | none => exact absurd (hb ▸ ha.1) (Set.notMem_empty a)
    | some b => exact congrArg some (ha.unique hb)

/-- The rows of a device are those of its samples and its statuses. -/
theorem rows_unique [LinearOrder τ] {to_real : Rat → Rat} {msgs msgs' : List (Message τ)} {db db' : Db τ}
    (h : Summary v to_real msgs db) (h' : Summary v to_real msgs' db')
    (hsamples : samplesOf v device msgs = samplesOf v device msgs')
    (hstatuses : statusesOf v device msgs = statusesOf v device msgs') :
    (∀ ts, db.sample.lookup (device, ts) = db'.sample.lookup (device, ts)) ∧
      db.device_status.lookup device = db'.device_status.lookup device := by
  have honline : db.online device = db'.online device := by
    rw [h.online, h'.online, hstatuses]
  have hstatus_ts : db.status_ts device = db'.status_ts device := by
    rw [h.status_ts, h'.status_ts, hstatuses]
  have hlast : db.last_sample_ts device = db'.last_sample_ts device := by
    have hlatest := h.last_sample device
    rw [hsamples] at hlatest
    exact latest_unique hlatest (h'.last_sample device)
  have hknown : device ∈ db.device_status ↔ device ∈ db'.device_status := by
    rw [h.known, h'.known, hsamples, hstatuses]
  refine ⟨fun ts => by rw [h.sample, h'.sample, hsamples], ?_⟩
  unfold Db.online Db.status_ts Db.last_sample_ts at *
  cases hrow : db.device_status.lookup device with
  | none =>
    cases hrow' : db'.device_status.lookup device with
    | none => rfl
    | some row' => exact absurd (hknown.mpr (Finmap.mem_of_lookup_eq_some hrow')) (Finmap.lookup_eq_none.mp hrow)
  | some row =>
    cases hrow' : db'.device_status.lookup device with
    | none => exact absurd (hknown.mp (Finmap.mem_of_lookup_eq_some hrow)) (Finmap.lookup_eq_none.mp hrow')
    | some row' =>
      rw [hrow, hrow'] at honline hstatus_ts hlast
      obtain ⟨online, status_ts, last_sample_ts⟩ := row
      cases honline
      cases hstatus_ts
      cases hlast
      rfl

/-- What the tables have of a device depends on nothing but its own messages. -/
theorem devices_do_not_interfere [LinearOrder τ] (hs : v.Sound) (to_real : Rat → Rat) {msgs msgs' : List (Message τ)}
    (hok : ∀ m ∈ msgs, ParseAccepts v m) (hok' : ∀ m ∈ msgs', ParseAccepts v m)
    (hsame : msgs.filter (Concerns v device) = msgs'.filter (Concerns v device)) :
    ∃ s s', ingest v to_real msgs = .ok s ∧ ingest v to_real msgs' = .ok s' ∧
      (∀ ts, s.db.sample.lookup (device, ts) = s'.db.sample.lookup (device, ts)) ∧
      s.db.device_status.lookup device = s'.db.device_status.lookup device := by
  have hsamples (l : List (Message τ)) : samplesOf v device (l.filter (Concerns v device)) = samplesOf v device l :=
    filterMap_kept (fun _ hno => (concerns_not hno).1) l
  have hstatuses (l : List (Message τ)) : statusesOf v device (l.filter (Concerns v device)) = statusesOf v device l :=
    filterMap_kept (fun _ hno => (concerns_not hno).2) l
  obtain ⟨s, hingest, hsum⟩ := Ingest.ingest_ok hs to_real msgs hok
  obtain ⟨s', hingest', hsum'⟩ := Ingest.ingest_ok hs to_real msgs' hok'
  refine ⟨s, s', hingest, hingest', rows_unique hsum hsum' ?_ ?_⟩
  · rw [← hsamples msgs, hsame, hsamples]
  · rw [← hstatuses msgs, hsame, hstatuses]

def secondDevice : Message Int := ⟨stateTopic "0123456789ab", Ingest.warmState, false, 100, 100⟩

theorem second_device_apart :
    ∃ s s', ingest Api.plainValidate id Ingest.clockSetBack = .ok s ∧
      ingest Api.plainValidate id (secondDevice :: Ingest.clockSetBack) = .ok s' ∧
      s.db.device_status.lookup "98cdac4e7554" = s'.db.device_status.lookup "98cdac4e7554" := by
  have hok : ∀ m ∈ Ingest.clockSetBack, ParseAccepts Api.plainValidate m := by
    intro m hm
    simp only [Ingest.clockSetBack, List.mem_cons, List.not_mem_nil, or_false] at hm
    rcases hm with rfl | rfl | rfl | rfl <;> exact ⟨_, rfl⟩
  have hsecond : ParseAccepts Api.plainValidate secondDevice := ⟨_, rfl⟩
  have hother : Concerns Api.plainValidate "98cdac4e7554" secondDevice = false := rfl
  obtain ⟨s, s', hingest, hingest', -, hrow⟩ := devices_do_not_interfere Ingest.plainValidate_sound id hok
    (List.forall_mem_cons.mpr ⟨hsecond, hok⟩) (List.filter_cons_of_neg (Bool.eq_false_iff.mp hother)).symm
  exact ⟨s, s', hingest, hingest', hrow⟩

end Others

end FloorHeating.Pipeline
