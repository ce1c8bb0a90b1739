import FloorHeating.Account
import FloorHeating.Maintenance
import FloorHeating.Spec.Api
import FloorHeating.Thresholds

/-!
# The server reads what the device writes

Every field of the document is bounded over all runs, and compared with the
limits that `parse` passes on. One limit is too low.
-/

open FloorHeating.Lib FloorHeating.Control FloorHeating.Account

namespace FloorHeating.Api

/-! ## The last reading -/

theorem exec_temp (c : Control) (sec : Section) :
    (if (sec.exec c).s_state.have_temp then some ((sec.exec c).s_state.temp_x10, (sec.exec c).s_state.temp_s)
      else none) =
      match Section.valid sec with
      | some r => some r
      | none => if c.s_state.have_temp then some (c.s_state.temp_x10, c.s_state.temp_s) else none := by
  cases hs : sec.seen c with
  | none =>
    rw [exec_refused hs]
    obtain ⟨st, date, now, m, d, who, rfl, -⟩ := seen_none hs
    rfl
  | some s =>
    rw [exec_s_state hs]
    simp only [decisionOf, ctl_decide_have_temp, ctl_decide_temp_x10, ctl_decide_temp_s]
    cases sec with
    | task fs st date now read =>
      rcases read with - | - | t
      · cases hs; rfl
      · cases hs
        simp [ctl_sensor_failed, Section.valid]
      · cases hs
        simp [ctl_sensor_valid, Section.valid]
    | command st date now m d who =>
      obtain ⟨-, rfl⟩ := ctl_manual_accepted hs
      rfl

theorem lastRead_snoc (h : List Section) (sec : Section) :
    lastRead (h ++ [sec]) = match sec.valid with
      | some r => some r
      | none => lastRead h := by
  unfold lastRead
  cases hv : sec.valid <;> simp [hv]

theorem controlAfter_snoc (boot : Int) (h : List Section) (sec : Section) :
    controlAfter boot (h ++ [sec]) = sec.exec (controlAfter boot h) := run_snoc ..

theorem lastRead_eq (boot : Int) (h : List Section) :
    lastRead h = if (controlAfter boot h).s_state.have_temp then
      some ((controlAfter boot h).s_state.temp_x10, (controlAfter boot h).s_state.temp_s) else none := by
  induction h using List.reverseRecOn with
  | nil => rfl
  | append_singleton h sec ih => rw [controlAfter_snoc, exec_temp, lastRead_snoc, ih]

theorem lastRead_mem {h : List Section} {r : Int × Int} (hr : lastRead h = some r) :
    ∃ sec ∈ h, sec.valid = some r ∧ sec.now_s = r.2 := by
  obtain ⟨sec, hsec, hv⟩ := List.mem_filterMap.mp (List.mem_of_getLast? hr)
  refine ⟨sec, hsec, hv, ?_⟩
  cases sec with
  | task fs st date now read =>
    rcases read with - | - | t
    · cases hv
    · cases hv
    · cases hv; rfl
  | command st date now m d who => cases hv

theorem reading_bounds {boot now : Int} {h : List Section} (h0 : 0 ≤ boot) (ht : Serial boot h now)
    (hup : now < 10 ^ 9) (hr : ∀ sec ∈ h, sec.InRange) {r : Int × Int} (hl : lastRead h = some r) :
    (-550 ≤ r.1 ∧ r.1 ≤ 1250) ∧ 0 ≤ now - r.2 ∧ now - r.2 ≤ 10 ^ 9 := by
  obtain ⟨sec, hsec, hv, hnow⟩ := lastRead_mem hl
  obtain ⟨hboot, hrest⟩ := List.pairwise_cons.mp ht
  have hmem : sec.now_s ∈ h.map Section.now_s := List.mem_map_of_mem hsec
  have hge := hboot sec.now_s (List.mem_append_left _ hmem)
  have hle := (List.pairwise_append.mp hrest).2.2 sec.now_s hmem now (List.mem_singleton.mpr rfl)
  rw [hnow] at hge hle
  exact ⟨hr sec hsec r hv, by omega, by omega⟩

/-! ## The starts -/

theorem pumpStarts_exec {c : Control} {sec : Section} {s : CtlState} (hs : sec.seen c = some s) :
    pumpStarts (sec.exec c) = pumpStarts c + (logOf .EV_PUMP (sec.events c)).count true := by
  unfold pumpStarts
  rw [published_eq hs, logOf_append, List.count_append]

theorem starts_le (boot : Int) (h : List Section) :
    (controlAfter boot h).s_starts_today.toNat ≤ pumpStarts (controlAfter boot h) := by
  induction h using List.reverseRecOn with
  | nil => exact le_refl _
  | append_singleton h sec ih =>
    rw [controlAfter_snoc]
    cases hs : sec.seen (controlAfter boot h) with
    | none =>
      rw [exec_refused hs]
      exact ih
    | some s =>
      have hkept : (if newDay (controlAfter boot h) (dateOf sec) then 0
          else (controlAfter boot h).s_starts_today).toNat ≤ pumpStarts (controlAfter boot h) := by
        split
        · exact Nat.zero_le _
        · exact ih
      rw [(exec_start_counters hs).2, started_eq hs, pumpStarts_exec hs, UInt32.toNat_add, UInt32.toNat_ofNat']
      have hmod := Nat.mod_le ((logOf .EV_PUMP (sec.events (controlAfter boot h))).count true) (2 ^ 32)
      exact (Nat.mod_le _ _).trans (Nat.add_le_add hkept hmod)

/-! ## The parser -/

theorem mac_no_slash {device : String} (hd : isMac device = true) : ∀ c ∈ device.toList, (c == '/') = false := by
  intro c hc
  rw [isMac, Bool.and_eq_true, List.all_eq_true] at hd
  have hin := hd.2 c hc
  by_contra hs
  rw [Bool.not_eq_false, beq_iff_eq] at hs
  rw [hs] at hin
  exact absurd hin (by decide)

theorem topic_parts {device : String} (hd : isMac device = true) :
    ((stateTopic device).toList.splitOn '/').map String.ofList =
      ["floorheating", device, "state"] := by
  have htop : ∀ c ∈ "floorheating".toList, (c == '/') = false := by simp
  have hkind : ∀ c ∈ "state".toList, (c == '/') = false := by simp
  have hlist : (stateTopic device).toList =
      "floorheating".toList ++ '/' :: (device.toList ++ '/' :: "state".toList) := by
    simp [stateTopic]
  rw [hlist, List.splitOn_eq_splitOnP, List.splitOnP_append_cons_of_forall_mem htop '/' rfl,
    List.splitOnP_append_cons_of_forall_mem (mac_no_slash hd) '/' rfl, List.splitOnP_eq_singleton hkind]
  simp

theorem parse_topic {v : Validate} (hv : v.Lawful) {device : String} (hd : isMac device = true) {payload : Payload}
    {data : Dict} (hp : payload.json = some (.obj data)) :
    parse v (stateTopic device) payload = parse_state v device data := by
  unfold parse
  rw [topic_parts hd]
  simp [hv.device_id device hd, hp, bind, Except.bind]

/-! ## The fields -/

section Fields

variable {c : ControlStatus} {s : Settings} {unix : Int → Int} {system : Dict} {data : Dict}

theorem document_fields (hd : api_status_json c s unix system = .obj data) :
    ∃ pump temp settings today, object data "pump" = .ok pump ∧ object data "temp" = .ok temp ∧
      object data "settings" = .ok settings ∧ object data "today" = .ok today ∧
      (pump.get "on" = some (.bool c.state.on) ∧ pump.get "reason" = some (.str (ctl_reason_name c.state.reason)) ∧
        pump.get "manual" = some (.str (manual_name c.state.manual)) ∧
        pump.get "maintenance" = some (.bool c.state.maintenance)) ∧
      (temp.get "c" = some (if c.state.have_temp then .num (celsius c.state.temp_x10) else .null) ∧
        temp.get "age_s" = some (.num (if c.state.have_temp then c.now_mono_s - c.state.temp_s else -1 : Int)) ∧
        temp.get "overheat" = some (.bool c.state.overheat) ∧
        temp.get "sensor_failed" = some (.bool c.state.sensor_failed)) ∧
      (settings.get "start_c" = some (.num (celsius s.start_x10)) ∧
        settings.get "stop_c" = some (.num (celsius s.stop_x10)) ∧
        settings.get "critical_c" = some (.num (celsius s.critical_x10))) ∧
      today.get "runtime_s" = some (.num (c.runtime_today_s.toNat : Int)) ∧
      today.get "starts" = some (.num (c.starts_today.toNat : Int)) := by
  obtain rfl := Json.obj.inj hd
  exact ⟨_, _, _, _, rfl, rfl, rfl, rfl, ⟨rfl, rfl, rfl, rfl⟩, ⟨rfl, rfl, rfl, rfl⟩, ⟨rfl, rfl, rfl⟩, rfl, rfl⟩

theorem reason_word (r : CtlReason) : isWord (ctl_reason_name r) = true := by
  cases r <;> decide

theorem manual_word (m : CtlManual) : isWord (manual_name m) = true := by
  cases m <;> decide

theorem celsius_between {t lo hi : Int} (hlo : lo * 10 ≤ t) (hhi : t ≤ hi * 10) :
    (lo : Rat) ≤ celsius t ∧ celsius t ≤ (hi : Rat) := by
  unfold celsius
  constructor
  · rw [le_div_iff₀ (by norm_num)]
    exact_mod_cast hlo
  · rw [div_le_iff₀ (by norm_num)]
    exact_mod_cast hhi

def statusFields (device : String) (c : ControlStatus) (s : Settings) : StateFields where
  device := device
  temp_c := if c.state.have_temp then some (celsius c.state.temp_x10) else none
  temp_age_s := if c.state.have_temp then some (c.now_mono_s - c.state.temp_s) else none
  pump_on := c.state.on
  reason := ctl_reason_name c.state.reason
  manual := manual_name c.state.manual
  maintenance := c.state.maintenance
  overheat := c.state.overheat
  sensor_failed := c.state.sensor_failed
  start_c := some (celsius s.start_x10)
  stop_c := some (celsius s.stop_x10)
  critical_c := some (celsius s.critical_x10)
  runtime_today_s := some c.runtime_today_s.toNat
  starts_today := some c.starts_today.toNat

structure ReadingFits (c : ControlStatus) : Prop where
  temp : c.state.have_temp = true → -550 ≤ c.state.temp_x10 ∧ c.state.temp_x10 ≤ 1250
  age : c.state.have_temp = true → 0 ≤ c.now_mono_s - c.state.temp_s ∧ c.now_mono_s - c.state.temp_s ≤ 10 ^ 9

theorem age_accepted {v : Validate} (hv : v.Lawful) (hr : ReadingFits c) {temp : Dict}
    (hage : temp.get "age_s" = some (.num (if c.state.have_temp then c.now_mono_s - c.state.temp_s else -1 : Int))) :
    v.integer temp "age_s" (some (-1)) (some (10 ^ 9)) none =
      .ok (some (if c.state.have_temp then c.now_mono_s - c.state.temp_s else -1)) := by
  apply hv.integer_accepts _ _ _ _ _ _ hage
  · split
    · rename_i hh
      have := hr.age hh
      rw [Option.getD_some]
      omega
    · exact le_refl _
  · split
    · rename_i hh
      exact (hr.age hh).2
    · decide

theorem temp_accepted {v : Validate} (hv : v.Lawful) (hr : ReadingFits c) {temp : Dict}
    (hc : temp.get "c" = some (if c.state.have_temp then .num (celsius c.state.temp_x10) else .null)) :
    v.number temp "c" (-55) 125 = .ok (if c.state.have_temp then some (celsius c.state.temp_x10) else none) := by
  split at hc
  · rename_i hh
    obtain ⟨hlo, hhi⟩ := hr.temp hh
    have hb := @celsius_between c.state.temp_x10 (-55) 125 (by omega) (by omega)
    rw [if_pos hh, hv.number_accepts _ _ _ _ _ hc hb.1 hb.2]
  · rename_i hh
    rw [if_neg hh, hv.number_null _ _ _ _ hc]

/-- Up to the counters of the day, `parse` takes everything. -/
theorem parse_state_eq {v : Validate} (hv : v.Lawful) (device : String) (hr : ReadingFits c) (hs : s.Sane)
    (hd : api_status_json c s unix system = .obj data) :
    ∃ today : Dict, today.get "runtime_s" = some (.num (c.runtime_today_s.toNat : Int)) ∧
      today.get "starts" = some (.num (c.starts_today.toNat : Int)) ∧
      parse_state v device data = (do
        let runtime_today_s ← v.integer today "runtime_s" none (some (86400 * 2)) (some false)
        let starts_today ← v.integer today "starts" none (some 100000) (some false)
        return .state { statusFields device c s with
          runtime_today_s := runtime_today_s, starts_today := starts_today }) := by
  obtain ⟨pump, temp, settings, today, hpump, htemp, hsettings, htoday, ⟨hon, hreason, hmanual, hmaint⟩,
    ⟨hc, hage, hoh, hsf⟩, ⟨hstart, hstop, hcrit⟩, hrun, hstarts⟩ := document_fields hd
  refine ⟨today, hrun, hstarts, ?_⟩
  obtain ⟨h1, h2, h3, h4, h5, h6⟩ := hs
  have hstart' := @celsius_between s.start_x10 0 100 (by omega) (by omega)
  have hstop' := @celsius_between s.stop_x10 0 100 (by omega) (by omega)
  have hcrit' := @celsius_between s.critical_x10 0 100 (by omega) (by omega)
  have hage' := age_accepted hv hr hage
  have hc' := temp_accepted hv hr hc
  unfold parse_state
  rw [hpump, htemp, hsettings, htoday]
  simp only [bind, Except.bind, pure, Except.pure]
  rw [hage', hc', hv.boolean _ _ _ hon, hv.string _ _ _ _ hreason (reason_word _),
    hv.string _ _ _ _ hmanual (manual_word _), hv.boolean _ _ _ hmaint, hv.boolean _ _ _ hoh, hv.boolean _ _ _ hsf,
    hv.number_accepts _ _ _ _ _ hstart hstart'.1 hstart'.2, hv.number_accepts _ _ _ _ _ hstop hstop'.1 hstop'.2,
    hv.number_accepts _ _ _ _ _ hcrit hcrit'.1 hcrit'.2]
  have hage_s : (if (if c.state.have_temp then c.now_mono_s - c.state.temp_s else -1) < 0 then none
      else some (if c.state.have_temp then c.now_mono_s - c.state.temp_s else -1)) =
      (statusFields device c s).temp_age_s := by
    unfold statusFields
    cases hh : c.state.have_temp with
    | true =>
      have := hr.age hh
      rw [if_pos rfl, if_neg (by omega)]
      rfl
    | false => rfl
  simp only [hage_s]
  rfl

theorem parse_state_iff {v : Validate} (hv : v.Lawful) (device : String) (hr : ReadingFits c) (hs : s.Sane)
    (hd : api_status_json c s unix system = .obj data) (hstarts : c.starts_today.toNat ≤ 100000) :
    parse_state v device data = .ok (.state (statusFields device c s)) ↔ c.runtime_today_s.toNat ≤ 172800 := by
  obtain ⟨today, hrun, hst, he⟩ := parse_state_eq hv device hr hs hd
  rw [he]
  constructor
  · intro hok
    by_contra hmany
    obtain ⟨text, hreject⟩ := hv.integer_rejects today "runtime_s" none (86400 * 2) (some false) _ hrun (by omega)
    rw [hreject] at hok
    cases hok
  · intro hfew
    rw [hv.integer_accepts today "runtime_s" none (86400 * 2) (some false) _ hrun (Int.natCast_nonneg _) (by omega),
      hv.integer_accepts today "starts" none 100000 (some false) _ hst (Int.natCast_nonneg _) (by omega)]
    rfl

theorem parse_state_rejects {v : Validate} (hv : v.Lawful) (device : String) (hr : ReadingFits c) (hs : s.Sane)
    (hd : api_status_json c s unix system = .obj data) (hmany : 172800 < c.runtime_today_s.toNat) :
    ∃ text, parse_state v device data = .error (.ValueError text) := by
  obtain ⟨today, hrun, -, he⟩ := parse_state_eq hv device hr hs hd
  obtain ⟨text, hreject⟩ := hv.integer_rejects today "runtime_s" none (86400 * 2) (some false) _ hrun (by omega)
  exact ⟨text, by rw [he, hreject]; rfl⟩

end Fields

/-! ## Over every run -/

section Runs

variable {boot now : Int} {h : List Section}

theorem reading_fits (h0 : 0 ≤ boot) (ht : Serial boot h now) (hup : now < 10 ^ 9)
    (hr : ∀ sec ∈ h, sec.InRange) : ReadingFits (control_status (controlAfter boot h) now) := by
  have hl : (controlAfter boot h).s_state.have_temp = true →
      lastRead h = some ((controlAfter boot h).s_state.temp_x10, (controlAfter boot h).s_state.temp_s) := by
    intro hh
    rw [lastRead_eq boot, if_pos hh]
  exact ⟨fun hh => (reading_bounds h0 ht hup hr (hl hh)).1, fun hh => (reading_bounds h0 ht hup hr (hl hh)).2⟩

theorem statusFields_eq (device : String) (s : Settings) :
    statusFields device (control_status (controlAfter boot h) now) s =
      deviceFields device h (control_status (controlAfter boot h) now) s := by
  unfold statusFields deviceFields control_status
  rw [lastRead_eq boot]
  cases (controlAfter boot h).s_state.have_temp <;> rfl

/-- Over every serial run, whatever the settings, the dates and the rest of the document: the
server takes the status with the device's own values exactly while the runtime of the day is at
most two days. -/
theorem status_accepted_iff {v : Validate} (hv : v.Lawful) (h0 : 0 ≤ boot) (ht : Serial boot h now)
    (hup : now < 10 ^ 9) (hr : ∀ sec ∈ h, sec.InRange) (hstarts : pumpStarts (controlAfter boot h) < 100000)
    (nvs : Nvs) (sets : List StoreCall) (unix : Int → Int) (system : Dict) {device : String}
    (hd : isMac device = true) {payload : Payload}
    (hp : payload.json = some (api_status_json (control_status (controlAfter boot h) now)
      (settings_get (storeAfter nvs sets)) unix system)) :
    parse v (stateTopic device) payload =
        .ok (.state (deviceFields device h (control_status (controlAfter boot h) now)
          (settings_get (storeAfter nvs sets)))) ↔
      (controlAfter boot h).s_runtime_today_s ≤ 172800 := by
  have hfew : (controlAfter boot h).s_starts_today.toNat ≤ 100000 := (starts_le boot h).trans hstarts.le
  rw [parse_topic hv hd hp, ← statusFields_eq,
    parse_state_iff hv device (reading_fits h0 ht hup hr) (Thresholds.get_sane nvs sets) rfl hfew]
  rw [UInt32.le_iff_toNat_le]
  rfl

end Runs

/-! ## A validator that does as documented -/

def plainValidate : Validate where
  device_id device :=
    if isMac device then .ok () else .error (.ValueError "bad device id")
  integer d key lo hi required :=
    match d.get key with
    | some (.num x) =>
      if x.den = 1 ∧ lo.getD 0 ≤ x.num ∧ ∀ m ∈ hi, x.num ≤ m then .ok (some x.num)
      else .error (.ValueError s!"{key} out of range")
    | some .null | none => if required = some false then .ok none else .error (.ValueError s!"{key} missing")
    | some _ => .error (.ValueError s!"{key} not an integer")
  number d key lo hi :=
    match d.get key with
    | some (.num x) => if lo ≤ x ∧ x ≤ hi then .ok (some x) else .error (.ValueError s!"{key} out of range")
    | some .null | none => .ok none
    | some _ => .error (.ValueError s!"{key} not a number")
  boolean d key :=
    match d.get key with
    | some (.bool b) => .ok b
    | _ => .error (.ValueError s!"{key} not a boolean")
  string d key _ _ :=
    match d.get key with
    | some (.str s) => if isWord s then .ok s else .error (.ValueError s!"{key} malformed")
    | _ => .error (.ValueError s!"{key} not a string")

theorem plainValidate_lawful : plainValidate.Lawful where
  device_id device hd := if_pos hd
  integer_accepts d key lo hi required n hn hlo hhi := by
    simp [plainValidate, hn, hlo, hhi]
  integer_rejects d key lo hi required n hn hhi := by
    have hno : ¬ n ≤ hi := by omega
    exact ⟨s!"{key} out of range", by simp [plainValidate, hn, hno]⟩
  number_accepts d key lo hi x hx hlo hhi := by
    simp [plainValidate, hx, hlo, hhi]
  number_null d key lo hi hx := by
    simp [plainValidate, hx]
  boolean d key b hb := by
    simp [plainValidate, hb]
  string d key s required hs hw := by
    simp [plainValidate, hs, hw]

/-! ## Two days of hot water and no NTP -/

/-- The task decides every second and reads 35.0 °C every fifth. -/
def hotIteration (k : Nat) : Section :=
  .task default_settings default_settings ⟨false, 0⟩ (k + 1) (if k % 5 = 0 then some (some 350) else none)

def hotRun (n : Nat) : List Section := (List.range n).map hotIteration

theorem hotRun_succ (n : Nat) : hotRun (n + 1) = hotRun n ++ [hotIteration n] := by
  simp [hotRun, List.range_succ]

theorem hot_inRange (n : Nat) : ∀ sec ∈ hotRun n, sec.InRange := by
  intro sec hsec r hr
  obtain ⟨k, -, rfl⟩ := List.mem_map.mp hsec
  unfold hotIteration at hr
  split at hr
  · cases hr
    omega
  · cases hr

theorem hot_serial (n : Nat) : Serial 0 (hotRun n) n := by
  have htimes : (hotRun n).map Section.now_s = (List.range n).map fun k : Nat => ((k : Int) + 1) := by
    rw [hotRun, List.map_map]
    rfl
  unfold Serial
  rw [htimes, List.pairwise_cons, List.pairwise_append]
  refine ⟨fun t ht => ?_, ?_, List.pairwise_singleton _ _, fun t ht t' ht' => ?_⟩
  · rcases List.mem_append.mp ht with ht | ht
    · obtain ⟨k, -, rfl⟩ := List.mem_map.mp ht
      omega
    · obtain rfl := List.mem_singleton.mp ht
      omega
  · rw [List.pairwise_map]
    exact List.pairwise_lt_range.imp fun h => by omega
  · obtain ⟨k, hk, rfl⟩ := List.mem_map.mp ht
    obtain rfl := List.mem_singleton.mp ht'
    have := List.mem_range.mp hk
    omega

structure Running (c : Control) (n : Nat) : Prop where
  on : c.s_state.on = true
  hot : c.s_state.hot = true
  manual : c.s_state.manual = .None
  last_tick : c.s_last_tick_s = n + 1
  runtime : c.s_runtime_today_s = UInt32.ofNat n
  starts : pumpStarts c = 1

theorem hot_seen {c : Control} (hhot : c.s_state.hot = true) (hm : c.s_state.manual = .None) (k : Nat) :
    ∃ s, (hotIteration k).seen c = some s ∧ s.hot = true ∧ s.manual = .None := by
  unfold hotIteration
  split
  · refine ⟨(ctl_sensor c.s_state (config_from_settings default_settings) (k + 1) true 350 {}).1, rfl, ?_⟩
    have hup := (hotAfter_iff c.s_state.hot (config_from_settings default_settings) 350).mpr (Or.inl (by decide))
    rw [ctl_sensor_valid]
    exact ⟨hup, hm⟩
  · exact ⟨c.s_state, rfl, hhot, hm⟩

theorem running_step {c : Control} {n : Nat} (hc : Running c n) :
    Running ((hotIteration (n + 1)).exec c) (n + 1) := by
  obtain ⟨s, hs, hhot, hm⟩ := hot_seen hc.hot hc.manual (n + 1)
  obtain ⟨htick, -, htoday⟩ := exec_counters hs
  have hon : ((hotIteration (n + 1)).exec c).s_state.on = true := by
    rw [exec_s_state hs, decisionOf, auto_on hm]
    exact Or.inr (Or.inr (Or.inl hhot))
  constructor
  · exact hon
  · rw [exec_s_state hs, decisionOf, ctl_decide_hot, hhot]
  · rw [exec_s_state hs, decisionOf, ctl_decide_manual, manualAfter, hm]
    exact ite_self _
  · exact htick
  · have hlast : 0 < c.s_last_tick_s := by
      rw [hc.last_tick]
      omega
    have hone : (hotIteration (n + 1)).now_s - c.s_last_tick_s = 1 := by
      rw [hc.last_tick]
      simp only [hotIteration, Section.now_s]
      omega
    have hday : newDay c (dateOf (hotIteration (n + 1))) = false := by simp [newDay, dateOf, hotIteration]
    rw [htoday, hday, if_neg Bool.false_ne_true, ticked, if_pos ⟨hc.on, hlast⟩, hone, hc.runtime]
    simp [UInt32.ofNat_add]
  · rw [pumpStarts_exec hs, log_pump hs, hc.on, hon, hc.starts]
    rfl

theorem hot_running (n : Nat) : Running (controlAfter 0 (hotRun (n + 1))) n := by
  induction n with
  | zero => constructor <;> decide
  | succ n ih =>
    rw [hotRun_succ, controlAfter_snoc]
    exact running_step ih

def hotStatus (n : Nat) : Json :=
  api_status_json (control_status (controlAfter 0 (hotRun n)) n) (settings_get (storeAfter .missing []))
    (fun _ => 0) []

theorem hot_rejected (n : Nat) (hn : 172800 < n) (hfit : n < 2 ^ 32) (hup : (n : Int) + 1 < 10 ^ 9) :
    ∃ text, parse plainValidate (stateTopic "98cdac4e7554") ⟨"", some (hotStatus (n + 1))⟩ =
      .error (.ValueError text) := by
  have hmany : (controlAfter 0 (hotRun (n + 1))).s_runtime_today_s.toNat = n := by
    rw [(hot_running n).runtime, UInt32.toNat_ofNat', Nat.mod_eq_of_lt hfit]
  obtain ⟨data, hdata⟩ : ∃ data, hotStatus (n + 1) = .obj data := ⟨_, rfl⟩
  rw [hdata, parse_topic plainValidate_lawful (by decide) rfl]
  refine parse_state_rejects plainValidate_lawful _
    (reading_fits (le_refl _) (hot_serial (n + 1)) hup (hot_inRange (n + 1))) (Thresholds.get_sane .missing [])
    hdata ?_
  simp only [control_status]
  omega

/-- Two days and two seconds after boot, without NTP, the server drops the status. -/
theorem hot_floor_rejected :
    Serial 0 (hotRun 172802) 172802 ∧ (∀ sec ∈ hotRun 172802, sec.InRange) ∧
      pumpStarts (controlAfter 0 (hotRun 172802)) < 100000 ∧
      ∃ text, parse plainValidate (stateTopic "98cdac4e7554") ⟨"", some (hotStatus 172802)⟩ =
        .error (.ValueError text) := by
  refine ⟨hot_serial 172802, hot_inRange 172802, ?_, hot_rejected 172801 (by decide) (by decide) (by decide)⟩
  rw [(hot_running 172801).starts]
  decide

theorem hot_floor_accepted :
    parse plainValidate (stateTopic "98cdac4e7554") ⟨"", some (hotStatus 1)⟩ =
      .ok (.state (deviceFields "98cdac4e7554" (hotRun 1) (control_status (controlAfter 0 (hotRun 1)) 1)
        (settings_get (storeAfter .missing [])))) :=
  (status_accepted_iff plainValidate_lawful (le_refl _) (hot_serial 1) (by decide) (hot_inRange 1) (by decide)
    .missing [] (fun _ => 0) [] (by decide) rfl).mpr (by decide)

end FloorHeating.Api
