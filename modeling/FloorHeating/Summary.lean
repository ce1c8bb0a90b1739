import FloorHeating.Api
import FloorHeating.Spec.Summary

/-! # The tables are a summary of the messages -/

open FloorHeating.Lib

namespace FloorHeating.Ingest

/-! ## What `parse` lets through -/

section Parse

theorem ok_bind {ε α β : Type} (a : α) (f : α → Except ε β) : Except.ok a >>= f = f a := rfl

theorem error_bind {ε α β : Type} (e : ε) (f : α → Except ε β) : Except.error e >>= f = .error e := rfl

theorem throw_eq {ε α : Type} (e : ε) : (throw e : Except ε α) = .error e := rfl

theorem bind_ok {ε α β : Type} {x : Except ε α} {f : α → Except ε β} {b : β} :
    x >>= f = .ok b ↔ ∃ a, x = .ok a ∧ f a = .ok b := by
  cases x with
  | error e => simp [error_bind]
  | ok a => simp [ok_bind]

variable {v : Validate}

/-- A state that the columns of `sample` can hold. -/
structure Storable (f : StateFields) : Prop where
  device : device_check f.device = true
  temp_age_s : fits_integer f.temp_age_s = true
  runtime_today_s : fits_integer f.runtime_today_s = true
  starts_today : fits_integer f.starts_today = true

theorem integer_fits (hv : v.Sound) {d : Dict} {key : String} {lo : Option Int} {hi : Int} {required : Option Bool}
    {n : Option Int} (h : v.integer d key lo (some hi) required = .ok n) (hlo : -2147483648 ≤ lo.getD 0)
    (hhi : hi ≤ 2147483647) : fits_integer n = true := by
  cases n with
  | none => rfl
  | some n =>
    obtain ⟨hlow, hhigh⟩ := hv.integer d key lo hi required n h
    unfold fits_integer
    simp only [Option.all_some, decide_eq_true_eq]
    omega

theorem parse_state_ok (hv : v.Sound) {device : String} {data : Dict} {p : Parsed}
    (h : parse_state v device data = .ok p) (hd : isMac device = true) :
    ∃ f, p = .state f ∧ Storable f := by
  simp only [parse_state, bind_ok] at h
  obtain ⟨pump, -, temp, -, settings, -, today, -, age, hage, temp_c, -, h⟩ := h
  cases age with
  | none =>
    simp only [throw_eq, error_bind] at h
    cases h
  | some age =>
    simp only [pure_bind, bind_ok] at h
    obtain ⟨pump_on, -, reason, -, manual, -, maintenance, -, overheat, -, sensor_failed, -, start_c, -, stop_c, -,
      critical_c, -, runtime, hruntime, starts, hstarts, hp⟩ := h
    refine ⟨_, (Except.ok.inj hp).symm, hd, ?_, integer_fits hv hruntime (by decide) (by decide),
      integer_fits hv hstarts (by decide) (by decide)⟩
    dsimp only
    split
    · rfl
    · exact integer_fits hv hage (by decide) (by decide)

theorem parse_ok (hv : v.Sound) {topic : String} {payload : Payload} {p : Parsed}
    (h : parse v topic payload = .ok p) : ∀ f, p = .state f → Storable f := by
  rintro f rfl
  unfold parse at h
  split at h
  · rename_i top device kind _
    by_cases htop : top = "floorheating"
    · simp only [htop, ne_eq, not_true_eq_false, if_false] at h
      obtain ⟨⟨⟩, hdevice, h⟩ := bind_ok.mp h
      split at h
      · split at h
        · cases h
        · cases h
      · split at h
        · cases h
        · split at h
          · cases h
          · obtain ⟨f', hf, hs⟩ := parse_state_ok hv h (hv.device_id device hdevice)
            rw [Parsed.state.inj hf]
            exact hs
          · cases h
    · rw [if_pos htop] at h
      cases h
  · cases h

end Parse

/-! ## One more message -/

section Snoc

variable {τ : Type} {v : Validate} {msgs : List (Message τ)} {m : Message τ}

theorem filterMap_snoc {α β : Type} (f : α → Option β) (l : List α) (a : α) :
    (l ++ [a]).filterMap f = l.filterMap f ++ (f a).toList := by
  rw [List.filterMap_append]
  cases h : f a <;> simp [h]

theorem samplesOf_snoc (device : String) :
    samplesOf v device (msgs ++ [m]) = samplesOf v device msgs ++ (sampleOf v device m).toList :=
  filterMap_snoc ..

theorem statusesOf_snoc (device : String) :
    statusesOf v device (msgs ++ [m]) = statusesOf v device msgs ++ (statusOf v device m).toList :=
  filterMap_snoc ..

theorem of_status {d : String} {online : Bool} (hp : parse v m.topic m.payload = .ok (.status d online))
    (device : String) :
    sampleOf v device m = none ∧ statusOf v device m = if d = device then some (online, m.db_now) else none := by
  unfold sampleOf statusOf
  rw [hp]
  exact ⟨rfl, rfl⟩

theorem of_state {f : StateFields} (hp : parse v m.topic m.payload = .ok (.state f)) (device : String) :
    sampleOf v device m = (if f.device = device ∧ m.retain = false then some (m.time, f) else none) ∧
      statusOf v device m = none := by
  unfold sampleOf statusOf
  rw [hp]
  exact ⟨rfl, rfl⟩

theorem samplesOf_own {f : StateFields} (hp : parse v m.topic m.payload = .ok (.state f)) (hlive : m.retain = false) :
    samplesOf v f.device (msgs ++ [m]) = samplesOf v f.device msgs ++ [(m.time, f)] := by
  rw [samplesOf_snoc, (of_state hp f.device).1, hlive]
  simp

theorem samplesOf_other {f : StateFields} (hp : parse v m.topic m.payload = .ok (.state f)) {device : String}
    (hd : device ≠ f.device) : samplesOf v device (msgs ++ [m]) = samplesOf v device msgs := by
  rw [samplesOf_snoc, (of_state hp device).1]
  simp [Ne.symm hd]

end Snoc

/-! ## The tables after it -/

section Store

variable {τ : Type} [LinearOrder τ] {v : Validate} {to_real : Rat → Rat}

/-- What `store_message` makes of the tables, where every column can hold its value. -/
def stored (to_real : Rat → Rat) (db : Db τ) (p : Parsed) (m : Message τ) : Db τ :=
  match p with
  | .status device online =>
    { db with
      device_status := db.device_status.upsert device ⟨some online, some m.db_now, none⟩ fun row =>
        { row with online := some online, status_ts := some m.db_now } }
  | .state f =>
    if m.retain then db
    else
      { sample := db.sample.insertOrIgnore (f.device, m.time) (sample_row to_real f)
        device_status := db.device_status.upsert f.device ⟨none, none, some m.time⟩ fun row =>
          { row with last_sample_ts := greatest row.last_sample_ts (some m.time) } }

theorem insert_sample_ok {f : StateFields} (hs : Storable f) (db : Db τ) (ts : τ) :
    insert_sample to_real db f ts =
      .ok { db with sample := db.sample.insertOrIgnore (f.device, ts) (sample_row to_real f) } := by
  unfold insert_sample
  simp [hs.device, hs.temp_age_s, hs.runtime_today_s, hs.starts_today]

theorem on_message_ok (hv : v.Sound) (s : FhIngest τ) {m : Message τ} {p : Parsed}
    (hp : parse v m.topic m.payload = .ok p) :
    s.on_message v to_real m = .ok ⟨m.retain, stored to_real s.db p m⟩ := by
  have hstore : store_message to_real s.db p none m.retain m.time m.db_now = .ok (stored to_real s.db p m) := by
    cases p with
    | status device online => rfl
    | state f =>
      unfold store_message stored
      cases m.retain with
      | true => rfl
      | false =>
        simp only [Bool.false_eq_true, if_false, Option.getD_none, insert_sample_ok (parse_ok hv hp f rfl), ok_bind]
        rfl
  unfold FhIngest.on_message FhIngest.handle
  rw [hp]
  simp only [Except.mapError, ok_bind, hstore]
  rfl

section Columns

variable (db : Db τ) (m : Message τ)

theorem stored_status (d : String) (online : Bool) (device : String) :
    (stored to_real db (.status d online) m).online device = (if device = d then some online else db.online device) ∧
      (stored to_real db (.status d online) m).status_ts device =
        (if device = d then some m.db_now else db.status_ts device) ∧
      (stored to_real db (.status d online) m).last_sample_ts device = db.last_sample_ts device := by
  refine ⟨?_, ?_, ?_⟩
  · apply column_upsert DeviceStatus.online (fun _ => some online)
    · rfl
    · exact fun _ => rfl
  · apply column_upsert DeviceStatus.status_ts (fun _ => some m.db_now)
    · rfl
    · exact fun _ => rfl
  · apply column_kept DeviceStatus.last_sample_ts
    · rfl
    · exact fun _ => rfl

theorem stored_live (f : StateFields) (hlive : m.retain = false) :
    stored to_real db (.state f) m =
      { sample := db.sample.insertOrIgnore (f.device, m.time) (sample_row to_real f)
        device_status := db.device_status.upsert f.device ⟨none, none, some m.time⟩ fun row =>
          { row with last_sample_ts := greatest row.last_sample_ts (some m.time) } } := by
  unfold stored
  rw [hlive]
  rfl

theorem stored_state (f : StateFields) (hlive : m.retain = false) (device : String) :
    (stored to_real db (.state f) m).online device = db.online device ∧
      (stored to_real db (.state f) m).status_ts device = db.status_ts device ∧
      (stored to_real db (.state f) m).last_sample_ts device =
        (if device = f.device then greatest (db.last_sample_ts f.device) (some m.time)
          else db.last_sample_ts device) := by
  rw [stored_live db m f hlive]
  refine ⟨?_, ?_, ?_⟩
  · apply column_kept DeviceStatus.online
    · rfl
    · exact fun _ => rfl
  · apply column_kept DeviceStatus.status_ts
    · rfl
    · exact fun _ => rfl
  · apply column_upsert DeviceStatus.last_sample_ts (greatest · (some m.time))
    · rfl
    · exact fun _ => rfl

theorem stored_retained (f : StateFields) (hold : m.retain = true) : stored to_real db (.state f) m = db := if_pos hold

end Columns

/-! ## The summary goes along -/

section Step

variable {msgs : List (Message τ)} {m : Message τ} {db : Db τ}

theorem summary_retained {f : StateFields} (hs : Summary v to_real msgs db)
    (hp : parse v m.topic m.payload = .ok (.state f)) (hold : m.retain = true) :
    Summary v to_real (msgs ++ [m]) db := by
  have hsamples (device : String) : samplesOf v device (msgs ++ [m]) = samplesOf v device msgs := by
    rw [samplesOf_snoc, (of_state hp device).1, hold]
    simp
  have hstatuses (device : String) : statusesOf v device (msgs ++ [m]) = statusesOf v device msgs := by
    rw [statusesOf_snoc, (of_state hp device).2]
    simp
  constructor
  all_goals simp only [hsamples, hstatuses]
  · exact hs.sample
  · exact hs.last_sample
  · exact hs.online
  · exact hs.status_ts
  · exact hs.known

theorem summary_status {d : String} {online : Bool} (hs : Summary v to_real msgs db)
    (hp : parse v m.topic m.payload = .ok (.status d online)) :
    Summary v to_real (msgs ++ [m]) (stored to_real db (.status d online) m) := by
  have hsamples (device : String) : samplesOf v device (msgs ++ [m]) = samplesOf v device msgs := by
    rw [samplesOf_snoc, (of_status hp device).1]
    simp
  have hstatuses (device : String) : statusesOf v device (msgs ++ [m]) =
      statusesOf v device msgs ++ (if d = device then some (online, m.db_now) else none).toList := by
    rw [statusesOf_snoc, (of_status hp device).2]
  constructor
  · intro device ts
    rw [hsamples]
    exact hs.sample device ts
  · intro device
    rw [hsamples, (stored_status db m d online device).2.2]
    exact hs.last_sample device
  · intro device
    rw [hstatuses, (stored_status db m d online device).1, hs.online]
    by_cases hd : device = d
    · simp [hd]
    · simp [hd, Ne.symm hd]
  · intro device
    rw [hstatuses, (stored_status db m d online device).2.1, hs.status_ts]
    by_cases hd : device = d
    · simp [hd]
    · simp [hd, Ne.symm hd]
  · intro device
    rw [hsamples, hstatuses]
    refine Finmap.mem_insert.trans ?_
    rw [hs.known]
    by_cases hd : device = d
    · simp [hd]
    · simp [hd, Ne.symm hd]

section Live

variable {f : StateFields} (hs : Summary v to_real msgs db) (hp : parse v m.topic m.payload = .ok (.state f))
  (hlive : m.retain = false)

include hs hp hlive

theorem live_sample (device : String) (ts : τ) :
    (stored to_real db (.state f) m).sample.lookup (device, ts) =
      ((samplesOf v device (msgs ++ [m])).find? fun s => s.1 = ts).map fun s => sample_row to_real s.2 := by
  rw [stored_live db m f hlive]
  dsimp only
  rw [lookup_insertOrIgnore]
  by_cases hd : device = f.device
  · subst hd
    rw [samplesOf_own hp hlive, List.find?_append, hs.sample, hs.sample]
    by_cases hts : ts = m.time
    · subst hts
      cases (samplesOf v f.device msgs).find? fun s => s.1 = m.time <;> simp
    · simp [hts, Ne.symm hts]
  · rw [samplesOf_other hp hd, if_neg (by simp [hd])]
    exact hs.sample device ts

theorem live_last_sample (device : String) :
    Latest {ts | ∃ g, (ts, g) ∈ samplesOf v device (msgs ++ [m])}
      ((stored to_real db (.state f) m).last_sample_ts device) := by
  rw [(stored_state db m f hlive device).2.2]
  by_cases hd : device = f.device
  · subst hd
    have htimes : {ts | ∃ g, (ts, g) ∈ samplesOf v f.device (msgs ++ [m])} =
        insert m.time {ts | ∃ g, (ts, g) ∈ samplesOf v f.device msgs} := by
      ext ts
      rw [samplesOf_own hp hlive]
      simp only [List.mem_append, List.mem_singleton, Prod.mk.injEq, Set.mem_ofPred_eq, Set.mem_insert_iff,
        exists_or, exists_eq_right]
      exact or_comm
    rw [if_pos rfl, htimes]
    exact latest_insert (hs.last_sample f.device) m.time
  · rw [if_neg hd, samplesOf_other hp hd]
    exact hs.last_sample device

theorem summary_live : Summary v to_real (msgs ++ [m]) (stored to_real db (.state f) m) := by
  have hstatuses (device : String) : statusesOf v device (msgs ++ [m]) = statusesOf v device msgs := by
    rw [statusesOf_snoc, (of_state hp device).2]
    simp
  refine ⟨live_sample hs hp hlive, live_last_sample hs hp hlive, ?_, ?_, ?_⟩
  · intro device
    rw [hstatuses, (stored_state db m f hlive device).1]
    exact hs.online device
  · intro device
    rw [hstatuses, (stored_state db m f hlive device).2.1]
    exact hs.status_ts device
  · intro device
    rw [hstatuses, stored_live db m f hlive]
    refine Finmap.mem_insert.trans ?_
    rw [hs.known]
    by_cases hd : device = f.device
    · subst hd
      simp [samplesOf_own hp hlive]
    · simp [hd, samplesOf_other hp hd]

end Live

theorem stored_again {f f₀ : StateFields} (hs : Summary v to_real msgs db)
    (hsample : (m.time, f₀) ∈ samplesOf v f.device msgs) (hlive : m.retain = false) :
    stored to_real db (.state f) m = db := by
  obtain ⟨old, hold⟩ : ∃ old, db.sample.lookup (f.device, m.time) = some old := by
    rw [hs.sample, ← Option.isSome_iff_exists, Option.isSome_map, List.find?_isSome]
    exact ⟨_, hsample, by simp⟩
  have hmem : f.device ∈ db.device_status := (hs.known f.device).mpr (Or.inl (List.ne_nil_of_mem hsample))
  obtain ⟨row, hrow⟩ := Finmap.mem_iff.mp hmem
  have hlast : db.last_sample_ts f.device = row.last_sample_ts := by
    unfold Db.last_sample_ts
    rw [hrow]
    rfl
  have hgreatest : greatest row.last_sample_ts (some m.time) = row.last_sample_ts := by
    have hlatest := hs.last_sample f.device
    rw [hlast] at hlatest
    exact greatest_old hlatest ⟨f₀, hsample⟩
  rw [stored_live db m f hlive, insertOrIgnore_known _ hold, upsert_unchanged _ hrow]
  rw [hgreatest]

theorem summary_step (hs : Summary v to_real msgs db) {p : Parsed} (hp : parse v m.topic m.payload = .ok p) :
    Summary v to_real (msgs ++ [m]) (stored to_real db p m) := by
  cases p with
  | status d online => exact summary_status hs hp
  | state f =>
    cases hr : m.retain with
    | false => exact summary_live hs hp hr
    | true =>
      rw [stored_retained db m f hr]
      exact summary_retained hs hp hr

theorem leaves_step (hs : Summary v to_real msgs db) {p : Parsed} (hp : parse v m.topic m.payload = .ok p) :
    Leaves v msgs m db (stored to_real db p m) := by
  constructor
  · intro f hf device
    obtain rfl := Except.ok.inj (hp.symm.trans hf)
    cases hr : m.retain with
    | false => exact (stored_state db m f hr device).1
    | true => rw [stored_retained db m f hr]
  · intro d online hf
    obtain rfl := Except.ok.inj (hp.symm.trans hf)
    exact ⟨rfl, fun device => (stored_status db m d online device).2.2⟩
  · intro f hf hr
    obtain rfl := Except.ok.inj (hp.symm.trans hf)
    exact stored_retained db m f hr
  · intro f hf hseen
    obtain rfl := Except.ok.inj (hp.symm.trans hf)
    cases hr : m.retain with
    | true => exact stored_retained db m f hr
    | false =>
      obtain ⟨f₀, hsample⟩ : ∃ f₀, (m.time, f₀) ∈ samplesOf v f.device msgs := by
        rcases hseen with hmem | hsample
        · refine ⟨f, List.mem_filterMap.mpr ⟨m, hmem, ?_⟩⟩
          rw [(of_state hp f.device).1, if_pos ⟨rfl, hr⟩]
        · exact hsample
      exact stored_again hs hsample hr

theorem summary_empty : Summary v to_real [] (⟨∅, ∅⟩ : Db τ) where
  sample _ _ := rfl
  last_sample device := by
    have hnone : {ts | ∃ f, (ts, f) ∈ samplesOf v device ([] : List (Message τ))} = ∅ := by
      simp [samplesOf]
    rw [hnone]
    exact latest_empty
  online _ := rfl
  status_ts _ := rfl
  known device := by simp [samplesOf, statusesOf, Finmap.notMem_empty]

end Step

theorem ingest_snoc (v : Validate) (to_real : Rat → Rat) (msgs : List (Message τ)) (m : Message τ) :
    ingest v to_real (msgs ++ [m]) = ingest v to_real msgs >>= (FhIngest.on_message v to_real · m) := by
  unfold ingest
  rw [List.foldlM_append]
  simp

theorem ingest_ok (hv : v.Sound) (to_real : Rat → Rat) (msgs : List (Message τ))
    (hp : ∀ m ∈ msgs, ParseAccepts v m) :
    ∃ s, ingest v to_real msgs = .ok s ∧ Summary v to_real msgs s.db := by
  induction msgs using List.reverseRecOn with
  | nil => exact ⟨_, rfl, summary_empty⟩
  | append_singleton msgs m ih =>
    obtain ⟨s, hs, hsum⟩ := ih fun m' hm' => hp m' (by simp [hm'])
    obtain ⟨p, hparse⟩ := hp m (by simp)
    rw [ingest_snoc, hs, ok_bind]
    exact ⟨_, on_message_ok hv s hparse, summary_step hsum hparse⟩

end Store

/-- Accepted messages in any order, at any times, from any number of devices: every one is stored,
and the tables say which samples came, when the last one did and what the last status was. -/
theorem tables_summarise {τ : Type} [LinearOrder τ] (v : Validate) (hv : v.Sound) (to_real : Rat → Rat)
    (msgs : List (Message τ)) (hp : ∀ m ∈ msgs, ParseAccepts v m) :
    ∃ s, ingest v to_real msgs = .ok s ∧ Summary v to_real msgs s.db ∧
      ∀ m, ParseAccepts v m → ∃ s', s.on_message v to_real m = .ok s' ∧ Leaves v msgs m s.db s'.db := by
  obtain ⟨s, hs, hsum⟩ := ingest_ok hv to_real msgs hp
  refine ⟨s, hs, hsum, fun m hm => ?_⟩
  obtain ⟨p, hparse⟩ := hm
  exact ⟨_, on_message_ok hv s hparse, leaves_step hsum hparse⟩

theorem plainValidate_sound : Api.plainValidate.Sound where
  device_id device h := by
    by_contra hno
    simp [Api.plainValidate, hno] at h
  integer d key lo hi required n h := by
    unfold Api.plainValidate at h
    simp only at h
    split at h
    · split at h
      · rename_i hin
        obtain rfl := Option.some.inj (Except.ok.inj h)
        exact ⟨hin.2.1, hin.2.2 hi rfl⟩
      · cases h
    · split at h
      · cases h
      · cases h
    · split at h
      · cases h
      · cases h
    · cases h

def warmState : Payload where
  text := ""
  json := some (.obj [
    ("pump", .obj [("on", .bool true), ("reason", .str "auto_warm"), ("manual", .str "none"),
      ("maintenance", .bool false)]),
    ("temp", .obj [("c", .num 31), ("age_s", .num 3), ("overheat", .bool false), ("sensor_failed", .bool false)]),
    ("settings", .obj [("start_c", .num 30), ("stop_c", .num 25), ("critical_c", .num 45)]),
    ("today", .obj [("runtime_s", .num 60), ("starts", .num 1)])])

def clockSetBack : List (Message Int) :=
  [⟨"floorheating/98cdac4e7554/state", warmState, false, 100, 100⟩,
    ⟨"floorheating/98cdac4e7554/state", warmState, true, 160, 160⟩,
    ⟨"floorheating/98cdac4e7554/status", ⟨"online", none⟩, true, 170, 170⟩,
    ⟨"floorheating/98cdac4e7554/state", warmState, false, 40, 40⟩]

theorem clock_set_back :
    ∃ s, ingest Api.plainValidate id clockSetBack = .ok s ∧ s.db.online "98cdac4e7554" = some true ∧
      s.db.last_sample_ts "98cdac4e7554" = some 100 ∧ s.db.sample.lookup ("98cdac4e7554", 160) = none := by
  obtain ⟨s, hs, hsum, -⟩ := tables_summarise Api.plainValidate plainValidate_sound id clockSetBack (by
    intro m hm
    simp only [clockSetBack, List.mem_cons, List.not_mem_nil, or_false] at hm
    rcases hm with rfl | rfl | rfl | rfl <;> exact ⟨_, rfl⟩)
  have hsamples : (samplesOf Api.plainValidate "98cdac4e7554" clockSetBack).map Prod.fst = [100, 40] := rfl
  refine ⟨s, hs, hsum.online "98cdac4e7554", ?_, hsum.sample "98cdac4e7554" 160⟩
  have hlatest := hsum.last_sample "98cdac4e7554"
  have htimes : {ts | ∃ f, (ts, f) ∈ samplesOf Api.plainValidate "98cdac4e7554" clockSetBack} = {100, 40} := by
    ext ts
    have hmem : (∃ f, (ts, f) ∈ samplesOf Api.plainValidate "98cdac4e7554" clockSetBack) ↔ ts ∈ [100, 40] := by
      rw [← hsamples]
      simp
    rw [Set.mem_ofPred_eq, hmem]
    simp
  rw [htimes] at hlatest
  cases hlast : s.db.last_sample_ts "98cdac4e7554" with
  | none =>
    rw [hlast] at hlatest
    exact absurd hlatest (Set.insert_nonempty _ _).ne_empty
  | some t =>
    rw [hlast] at hlatest
    have hup : (100 : Int) ≤ t := hlatest.2 (by simp)
    have hin : t = 100 ∨ t = 40 := hlatest.1
    exact congrArg some (by omega)

end FloorHeating.Ingest
