import FloorHeating.Account
import FloorHeating.Commands
import FloorHeating.Events
import FloorHeating.Sensor
import FloorHeating.SettingsPatch
import FloorHeating.Spec.Machine
import FloorHeating.Thresholds

/-!
# The interleaved firmware runs turns

Whatever comes between two steps of the control task, the statics are those of a
run of whole turns, each with thresholds that the store had.
-/

open FloorHeating.Lib FloorHeating.Http FloorHeating.Events

namespace FloorHeating.MachineRun

/-! ## What a move can do -/

inductive Moved (m : Machine) : Move → Machine → Prop where
  | still (a : Move) (ha : a.isReboot = false) : Moved m a m
  | tick (d : Nat) : Moved m (.tick d) { m with clock := m.clock + d }
  | samples (hpc : m.pc = .top) (hdue : m.task.next_read_s ≤ m.clock) : Moved m .sample { m with
      task := { m.task with next_read_s := m.clock + CONTROL_READ_PERIOD_S }, pc := .sensing m.clock }
  | rests (hpc : m.pc = .top) (hnot : ¬ m.task.next_read_s ≤ m.clock) :
      Moved m .sample { m with pc := .waiting m.clock m.clock none }
  | senses (top_s : Int) (bus : Bus) (hpc : m.pc = .sensing top_s) : Moved m (.sensor bus) { m with
      sensor := (temp_sensor_read m.sensor bus).1
      pc := .waiting top_s m.clock (some (temp_sensor_read m.sensor bus).2) }
  | locks (top_s now_s : Int) (read : Option (Option Int16)) (hpc : m.pc = .waiting top_s now_s read) :
      Moved m .lock { m with pc := .locked top_s now_s read (settings_get m.store) }
  | decides (top_s now_s : Int) (read : Option (Option Int16)) (for_sensor : Settings) (date : LocalDate)
      (hpc : m.pc = .locked top_s now_s read for_sensor) :
      Moved m (.decision date) (m.decision now_s read for_sensor date)
  | publishes (now_s : Int) (read : Option (Option Int16)) (e : Event) (pending : List Event)
      (hpc : m.pc = .publishing now_s read (e :: pending)) :
      Moved m .publish { m with ring := m.ring.events_publish e, pc := .publishing now_s read pending }
  | unlocks (now_s : Int) (read : Option (Option Int16)) (hpc : m.pc = .publishing now_s read []) :
      Moved m .unlock { m with pc := .unlocked now_s read m.task.control.s_state.on }
  | stores (now_s : Int) (read : Option (Option Int16)) (on : Bool) (hpc : m.pc = .unlocked now_s read on) :
      Moved m .history { m with task := m.sampled now_s read on, pc := .top }
  | serves (method : HttpMethod) (uri : String) (env : HttpEnv) (req : Request) (hfree : m.blocks uri = false) :
      Moved m (.request method uri env req)
        { m with toFirmware := (serve method uri { env with now_s := m.clock } m.toFirmware req).1 }
  | copies (hfree : m.s_lock = false) : Moved m .copy { m with copies := m.copies ++ [m.task.control] }
  | stamps (i : Nat) (c : Control) (hc : m.copies[i]? = some c) :
      Moved m (.stamp i) { m with taken := m.taken ++ [control_status c m.clock] }
  | sends (i : Nat) (events_unix_time : Int → Int) (system : List (String × Json)) (c : ControlStatus)
      (hc : m.taken[i]? = some c) : Moved m (.send i events_unix_time system) { m with
        documents := m.documents ++ [api_status_json c (settings_get m.store) events_unix_time system] }
  | reboots (boot : Int) :
      Moved m (.reboot boot) (Machine.power_on boot (settings_init m.store.nvs) m.ring m.documents)

theorem step_moved (m : Machine) (a : Move) : Moved m a (m.step a) := by
  unfold Machine.step
  cases a with
  | tick d => exact .tick d
  | sample =>
    dsimp only
    split
    · rename_i hpc
      split
      · rename_i hdue
        exact .samples hpc hdue
      · rename_i hnot
        exact .rests hpc hnot
    · exact .still _ rfl
  | sensor bus =>
    dsimp only
    split
    · rename_i top_s hpc
      exact .senses top_s bus hpc
    · exact .still _ rfl
  | lock =>
    dsimp only
    split
    · rename_i top_s now_s read hpc
      exact .locks top_s now_s read hpc
    · exact .still _ rfl
  | decision date =>
    dsimp only
    split
    · rename_i top_s now_s read for_sensor hpc
      exact .decides top_s now_s read for_sensor date hpc
    · exact .still _ rfl
  | publish =>
    dsimp only
    split
    · rename_i now_s read e pending hpc
      exact .publishes now_s read e pending hpc
    · exact .still _ rfl
  | unlock =>
    dsimp only
    split
    · rename_i now_s read hpc
      exact .unlocks now_s read hpc
    · exact .still _ rfl
  | history =>
    dsimp only
    split
    · rename_i now_s read on hpc
      exact .stores now_s read on hpc
    · exact .still _ rfl
  | request method uri env req =>
    dsimp only
    split
    · exact .still _ rfl
    · rename_i hfree
      exact .serves method uri env req (Bool.not_eq_true _ ▸ hfree)
  | copy =>
    dsimp only
    split
    · exact .still _ rfl
    · rename_i hfree
      exact .copies (Bool.not_eq_true _ ▸ hfree)
  | stamp i =>
    dsimp only
    split
    · rename_i c hc
      exact .stamps i c hc
    · exact .still _ rfl
  | send i events_unix_time system =>
    dsimp only
    split
    · rename_i c hc
      exact .sends i events_unix_time system c hc
    · exact .still _ rfl
  | reboot boot => exact .reboots boot

/-! ## What a request does to the statics -/

/-- Nothing, or one lock section of `control_manual`, or one `settings_set`. -/
def Effect (uri : String) (handler : Handler) : Prop := ∀ env f req,
  (handler env f req).1 = f ∨
    (uri ∈ commands ∧ ∃ m d who, (handler env f req).1 =
      f.locked (control_manual f.task.control (settings_get f.store) env.date env.now_s m d who).1) ∨
    ∃ in_out, (handler env f req).1 = { f with store := (settings_set f.store in_out env.io).1 }

theorem effect_guarded {uri : String} {handler : Handler} (h : Effect uri handler) (kind : HiGuard) :
    Effect uri (guarded kind handler) := by
  intro env f req
  unfold guarded
  split
  · exact Or.inl rfl
  · exact h env f req

theorem effect_admin_ok {uri : String} {handler : Handler} (h : Effect uri handler) :
    Effect uri (admin_ok handler) := by
  intro env f req
  unfold admin_ok
  split
  · exact h env f req
  · exact Or.inl rfl

theorem effect_admin_read_ok {uri : String} {handler : Handler} (h : Effect uri handler) :
    Effect uri (admin_read_ok handler) := by
  intro env f req
  unfold admin_read_ok
  split
  · exact h env f req
  · exact Or.inl rfl

theorem locked_same (f : Firmware) : f.locked f.task.control = f := by
  unfold Firmware.locked
  simp

theorem answer_control (r : Control × ControlResult) : (Commands.answer r).1 = r.1 := by
  unfold Commands.answer
  split <;> rfl

/-- `pump_command` refuses the body, or passes on what `control_manual` says. -/
theorem pump_command_cases (to_uint32 : Rat → UInt32) (c : Control) (st : Settings) (date : LocalDate) (now : Int)
    (body : Json) (who : String) :
    (∃ status text, FloorHeating.pump_command to_uint32 c st date now body who = (c, .error status text)) ∨
      ∃ m d, FloorHeating.pump_command to_uint32 c st date now body who =
        Commands.answer (control_manual c st date now m d who) := by
  by_cases hminutes : BadMinutes body
  · exact Or.inl ⟨_, _, Commands.pump_bad_minutes to_uint32 c st date now body who hminutes⟩
  · have hordered {word : String} {m : CtlManual} (hm : Commands.Order word m)
        (hw : word = "start" ∨ word = "stop") (hasks : Asks body word) :
        ∃ m d, FloorHeating.pump_command to_uint32 c st date now body who =
          Commands.answer (control_manual c st date now m d who) := by
      obtain ⟨v, hv, hpos⟩ := Commands.good_minutes hw hasks hminutes
      exact ⟨_, _, Commands.pump_ordered to_uint32 c st date now body who hm hasks hv hpos⟩
    rcases Commands.word_cases body with hbad | hstart | hstop | hauto
    · exact Or.inl ⟨_, _, Commands.pump_bad_state to_uint32 c st date now body who hbad⟩
    · exact Or.inr (hordered (Or.inl ⟨rfl, rfl⟩) (Or.inl rfl) hstart)
    · exact Or.inr (hordered (Or.inr ⟨rfl, rfl⟩) (Or.inr rfl) hstop)
    · exact Or.inr ⟨_, _, Commands.pump_auto to_uint32 c st date now body who hauto⟩

theorem effect_pump {uri : String} (huri : uri ∈ commands) (who : Request → String) :
    Effect uri (Http.pump_command who) := by
  intro env f req
  unfold Http.pump_command
  split
  · exact Or.inl rfl
  · rename_i body hbody
    rcases pump_command_cases env.to_uint32 f.task.control (settings_get f.store) env.date env.now_s body
      (who req) with ⟨status, text, hc⟩ | ⟨m, d, hc⟩
    · left
      simp only [hc]
      exact locked_same f
    · right; left
      refine ⟨huri, m, d, who req, ?_⟩
      simp only [hc, answer_control]

theorem effect_settings (uri : String) : Effect uri Http.apply_settings := by
  intro env f req
  unfold Http.apply_settings
  split
  · exact Or.inl rfl
  · rename_i body hbody
    right; right
    refine ⟨SettingsPatch.asked env.to_int16 f.store.s_settings body, ?_⟩
    simp only [SettingsPatch.apply_settings_eq]

theorem effect_silent (uri : String) {handler : Handler} (h : ∀ env f req, (handler env f req).1 = f) :
    Effect uri handler := fun env f req => Or.inl (h env f req)

theorem route_effect : ∀ route ∈ routes, Effect route.uri route.handler := by
  intro route hroute
  have hstatus (uri : String) : Effect uri send_status := effect_silent uri fun _ _ _ => rfl
  have hhistory (uri : String) : Effect uri Http.send_history := effect_silent uri fun _ _ _ => rfl
  simp only [routes, List.mem_cons, List.not_mem_nil, or_false] at hroute
  rcases hroute with rfl | rfl | rfl | rfl | rfl | rfl | rfl | rfl | rfl
  · exact effect_guarded (hstatus _) _
  · exact effect_guarded (effect_silent _ fun _ _ _ => rfl) _
  · exact effect_guarded (hhistory _) _
  · exact effect_guarded (effect_pump (by simp [commands]) _) _
  · exact effect_guarded (effect_settings _) _
  · exact effect_admin_ok (effect_pump (by simp [commands]) _)
  · exact effect_admin_ok (effect_settings _)
  · exact effect_admin_read_ok (hstatus _)
  · exact effect_admin_read_ok (hhistory _)

theorem route_found {method : HttpMethod} {uri : String} {route : HttpdUri}
    (hfound : (routes.find? fun route => route.uri = uri ∧ route.method = method) = some route) :
    route ∈ routes ∧ route.uri = uri ∧ route.method = method := by
  have hsome := List.find?_some hfound
  simp only [decide_eq_true_eq] at hsome
  exact ⟨List.mem_of_find?_eq_some hfound, hsome⟩

theorem serve_effect (method : HttpMethod) (uri : String) : Effect uri (serve method uri) := by
  intro env f req
  unfold serve
  split
  · rename_i route hfound
    obtain ⟨hmem, rfl, -⟩ := route_found hfound
    exact route_effect route hmem env f req
  · exact Or.inl rfl

/-! ## What the store had -/

section Store

variable {nvs : Nvs} {ring : EventRing} {boot : Int} {h : List Move} {a : Move}

theorem machineAfter_snoc (nvs : Nvs) (ring : EventRing) (boot : Int) (h : List Move) (a : Move) :
    machineAfter nvs ring boot (h ++ [a]) = (machineAfter nvs ring boot h).step a := run_snoc ..

theorem moved_store {m m' : Machine} (hm : Moved m a m') :
    m'.store = m.store ∨ (∃ in_out io, m'.store = (settings_set m.store in_out io).1) ∨
      m'.store = settings_init m.store.nvs := by
  cases hm with
  | serves method uri env req hfree =>
    rcases serve_effect method uri { env with now_s := m.clock } m.toFirmware req with
      hsame | ⟨-, manual, d, who, hpump⟩ | ⟨in_out, hset⟩
    · left
      dsimp only
      rw [hsame]
    · left
      dsimp only
      rw [hpump]
      rfl
    · right; left
      refine ⟨in_out, env.io, ?_⟩
      dsimp only
      rw [hset]
  | reboots boot => exact Or.inr (Or.inr rfl)
  | _ => exact Or.inl rfl

theorem store_calls (nvs : Nvs) (ring : EventRing) (boot : Int) (h : List Move) :
    ∃ calls, (machineAfter nvs ring boot h).store = storeAfter nvs calls := by
  induction h using List.reverseRecOn with
  | nil => exact ⟨[], rfl⟩
  | append_singleton h a ih =>
    obtain ⟨calls, hcalls⟩ := ih
    rw [machineAfter_snoc]
    rcases moved_store (step_moved (machineAfter nvs ring boot h) a) with hsame | ⟨in_out, io, hset⟩ | hinit
    · exact ⟨calls, hsame.trans hcalls⟩
    · refine ⟨calls ++ [.set in_out io], ?_⟩
      rw [hset, hcalls, Thresholds.storeAfter_snoc]
      rfl
    · refine ⟨calls ++ [.reboot], ?_⟩
      rw [hinit, hcalls, Thresholds.storeAfter_snoc]
      rfl

theorem store_sane (nvs : Nvs) (ring : EventRing) (boot : Int) (h : List Move) :
    (settings_get (machineAfter nvs ring boot h).store).Sane := by
  obtain ⟨calls, hcalls⟩ := store_calls nvs ring boot h
  rw [hcalls]
  exact Thresholds.get_sane nvs calls

theorem held_now (ha : a.isReboot = false) :
    Held nvs ring boot (h ++ [a]) (settings_get (machineAfter nvs ring boot h).store) :=
  ⟨h, [a], rfl, by simpa using ha, rfl⟩

theorem held_later {s : Settings} (ha : a.isReboot = false) (hs : Held nvs ring boot h s) :
    Held nvs ring boot (h ++ [a]) s := by
  obtain ⟨pre, post, rfl, hup, hs⟩ := hs
  refine ⟨pre, post ++ [a], List.append_assoc .., fun b hb => ?_, hs⟩
  rcases List.mem_append.mp hb with hb | hb
  · exact hup b hb
  · rw [List.mem_singleton.mp hb]
    exact ha

theorem held_sane {s : Settings} (hs : Held nvs ring boot h s) : s.Sane := by
  obtain ⟨pre, -, -, -, rfl⟩ := hs
  exact store_sane nvs ring boot pre

theorem bootOf_snoc (boot : Int) (h : List Move) (ha : a.isReboot = false) :
    bootOf boot (h ++ [a]) = bootOf boot h := by
  induction h generalizing boot with
  | nil =>
    cases a with
    | reboot boot => cases ha
    | _ => rfl
  | cons b h ih =>
    cases b with
    | reboot boot' => exact ih boot'
    | _ => exact ih boot

theorem bootOf_reboot (boot boot' : Int) (h : List Move) : bootOf boot (h ++ [.reboot boot']) = boot' := by
  induction h generalizing boot with
  | nil => rfl
  | cons b h ih =>
    cases b with
    | reboot boot'' => exact ih boot''
    | _ => exact ih boot

end Store

theorem fetched_later {held held' : Settings → Prop} (hheld : ∀ s, held s → held' s) {x : DeviceTurn}
    (h : x.Fetched held) : x.Fetched held' := by
  cases x with
  | pass p bus => exact ⟨hheld _ h.1, hheld _ h.2⟩
  | command settings date now m d who => exact hheld _ h

/-! ## The machine in the middle of a turn -/

section Midway

variable {m : Machine} {d d' : Device}

theorem unstamped_ext (hcontrol : d.task.control = d'.task.control)
    (hread : d.task.next_read_s = d'.task.next_read_s) (hsample : d.task.next_history_s = d'.task.next_history_s)
    (hhistory : d.task.history.unstamped = d'.task.history.unstamped) (hsensor : d.sensor = d'.sensor) :
    d.unstamped = d'.unstamped := by
  unfold Device.unstamped
  dsimp only
  rw [hcontrol, hread, hsample, hhistory, hsensor]

theorem add_unstamped {h h' : History} (hsame : h.unstamped = h'.unstamped) (now now' : Int) (valid : Bool)
    (temp_x10 : Int16) (on : Bool) :
    (h.history_add now valid temp_x10 on).unstamped = (h'.history_add now' valid temp_x10 on).unstamped := by
  change (h.unstamped.history_add 0 valid temp_x10 on).unstamped =
    (h'.unstamped.history_add 0 valid temp_x10 on).unstamped
  rw [hsame]

theorem exec_unstamped (d : Device) (x : DeviceTurn) : (x.exec d.unstamped).unstamped = (x.exec d).unstamped := by
  cases x with
  | command settings date now m duration_s who => rfl
  | pass p bus =>
    generalize hp : ({ p with reading := (temp_sensor_read d.sensor bus).2 } : Pass) = p'
    have hturn : (DeviceTurn.pass p bus).turn d = .pass p' := by rw [← hp]; rfl
    have hturn' : (DeviceTurn.pass p bus).turn d.unstamped = .pass p' := hturn
    have hsamples : d.unstamped.task.samples p' ↔ d.task.samples p' := Iff.rfl
    have hpass : TaskRun.passSample d.unstamped.task p' = TaskRun.passSample d.task p' := rfl
    unfold DeviceTurn.exec
    rw [hturn, hturn']
    simp only [Turn.exec, TaskRun.control_task_eq]
    apply unstamped_ext
    · rfl
    · rfl
    · rfl
    · dsimp only
      by_cases h : d.task.samples p'
      · rw [if_pos h, if_pos (hsamples.mpr h), hpass]
        rfl
      · rw [if_neg h, if_neg (mt hsamples.mp h)]
        rfl
    · rfl

theorem deviceAfter_snoc (boot : Int) (turns : List DeviceTurn) (x : DeviceTurn) :
    deviceAfter boot (turns ++ [x]) = x.exec (deviceAfter boot turns) := run_snoc ..

theorem unstamped_snoc (boot : Int) (turns : List DeviceTurn) (x : DeviceTurn) :
    (deviceAfter boot (turns ++ [x])).unstamped = (x.exec (deviceAfter boot turns).unstamped).unstamped := by
  rw [deviceAfter_snoc, exec_unstamped]

def underLock (d : Device) (next : Control) : Device := { d with task := { d.task with control := next } }

theorem started_control {top now : Int} {read : Option (Option Int16)} (h : Started d top now read d') :
    d'.task.control = d.task.control := by
  cases read with
  | none =>
    obtain ⟨-, -, rfl⟩ := h
    rfl
  | some reading =>
    obtain ⟨-, bus, -, rfl⟩ := h
    rfl

theorem sampled_control (m : Machine) (now : Int) (read : Option (Option Int16)) (on : Bool) :
    (m.sampled now read on).control = m.task.control := by
  unfold Machine.sampled
  cases read with
  | none => rfl
  | some reading =>
    dsimp only
    split <;> rfl

/-- What is under the lock is that of the turns. -/
theorem midway_control (h : Midway m d) : m.task.control = d.task.control := by
  unfold Midway at h
  dsimp only at h
  split at h
  · exact congrArg (fun d => d.task.control) h
  · exact congrArg (fun d => d.task.control) h.2
  · exact started_control h
  · exact started_control h
  · rw [← h]
    exact (sampled_control ..).symm
  · rw [← h]
    exact (sampled_control ..).symm

theorem started_command {top now : Int} {read : Option (Option Int16)} (h : Started d top now read d')
    (next : Control) : Started (underLock d next) top now read (underLock d' next) := by
  cases read with
  | none =>
    obtain ⟨hnow, hnot, rfl⟩ := h
    exact ⟨hnow, hnot, rfl⟩
  | some reading =>
    obtain ⟨hdue, bus, hr, rfl⟩ := h
    exact ⟨hdue, bus, hr, rfl⟩

theorem sampled_command (m : Machine) (next : Control) (now : Int) (read : Option (Option Int16)) (on : Bool) :
    Machine.sampled { m with toFirmware := m.toFirmware.locked next } now read on =
      { m.sampled now read on with control := next } := by
  unfold Machine.sampled
  cases read with
  | none => rfl
  | some reading =>
    have hsame : (m.toFirmware.locked next).task.next_history_s = m.task.next_history_s := rfl
    dsimp only
    rw [hsame]
    split <;> rfl

/-- A command comes while the lock is free, and leaves the task where it is. -/
theorem midway_command (hfree : m.s_lock = false) (h : Midway m d) (next : Control) :
    Midway { m with toFirmware := m.toFirmware.locked next } (underLock d next) := by
  have hdevice : (m.toFirmware.locked next).device.unstamped = underLock m.device.unstamped next := rfl
  unfold Machine.s_lock at hfree
  unfold Midway at h ⊢
  dsimp only at h ⊢
  rw [hdevice]
  split at h <;> rename_i hpc
  · rw [h]
  · rw [h.2]
    exact ⟨h.1, rfl⟩
  · exact started_command h next
  · rw [hpc] at hfree
    cases hfree
  · rw [hpc] at hfree
    cases hfree
  · rw [← h, sampled_command]
    rfl

theorem midway_still {m' : Machine} (htask : m'.task = m.task) (hsensor : m'.sensor = m.sensor) (hpc : m'.pc = m.pc)
    (h : Midway m d) : Midway m' d := by
  have hdevice : m'.device = m.device := by
    unfold Firmware.device
    rw [htask, hsensor]
  have hsampled (now : Int) (read : Option (Option Int16)) (on : Bool) :
      (⟨m'.sampled now read on, m'.sensor⟩ : Device).unstamped =
        (⟨m.sampled now read on, m.sensor⟩ : Device).unstamped := by
    unfold Machine.sampled
    rw [htask, hsensor]
    cases read with
    | none => rfl
    | some reading =>
      dsimp only
      split <;> rfl
  unfold Midway at h ⊢
  dsimp only at h ⊢
  rw [hpc, hdevice, htask]
  split at h
  · exact h
  · exact h
  · exact h
  · exact h
  · rw [hsampled]
    exact h
  · rw [hsampled]
    exact h

/-- The decision makes the iteration a pass of the coarse run. -/
theorem decision_turn {top now : Int} {read : Option (Option Int16)} (h : Started d top now read m.device.unstamped)
    (for_sensor : Settings) (date : LocalDate) :
    ∃ p bus, p.for_sensor = for_sensor ∧ p.settings = settings_get m.store ∧
      Midway (m.decision now read for_sensor date) ((DeviceTurn.pass p bus).exec d).unstamped := by
  have hcontrol : m.task.control = d.task.control := started_control h
  cases read with
  | none =>
    obtain ⟨rfl, hnot, hd⟩ := h
    refine ⟨⟨now, now, none, for_sensor, settings_get m.store, date⟩, ⟨⟨.ESP_FAIL, none, 0⟩, fun _ => ⟨.ESP_FAIL, 0⟩⟩,
      rfl, rfl, ?_⟩
    have hreads (reading : Option Int16) :
        ¬ d.task.reads ⟨now, now, reading, for_sensor, settings_get m.store, date⟩ := hnot
    rw [← hd] at hreads ⊢
    simp only [Midway, Machine.decision, DeviceTurn.exec, DeviceTurn.turn, Turn.exec, Device.asks,
      TaskRun.control_task_eq, TaskRun.passSection, Task.samples, hreads, if_false, false_and, Machine.sampled]
    rfl
  | some reading =>
    obtain ⟨hdue, bus, rfl, hd⟩ := h
    refine ⟨⟨top, now, none, for_sensor, settings_get m.store, date⟩, bus, rfl, rfl, ?_⟩
    have htask : ({ m.task with history := m.task.history.unstamped } : Task) =
        { d.task with next_read_s := top + CONTROL_READ_PERIOD_S } := congrArg Device.task hd
    have hsensor : m.sensor = (temp_sensor_read d.sensor bus).1 := congrArg Device.sensor hd
    have hreadAt : m.task.next_read_s = top + 5 := congrArg Task.next_read_s htask
    have hsampleAt : m.task.next_history_s = d.task.next_history_s := by simpa using congrArg Task.next_history_s htask
    have hkept : m.task.history.unstamped = d.task.history := congrArg Task.history htask
    have hhistory : m.task.history.unstamped = d.task.history.unstamped := by
      rw [← hkept]
      rfl
    have hreads (reading : Option Int16) :
        d.task.reads ⟨top, now, reading, for_sensor, settings_get m.store, date⟩ := hdue
    simp only [Midway, Machine.decision, DeviceTurn.exec, DeviceTurn.turn, Turn.exec, Device.asks,
      TaskRun.control_task_eq, TaskRun.passSection, TaskRun.passSample, HistoryAdd.exec, Task.samples, hreads, if_true,
      true_and, Machine.sampled, hsampleAt]
    apply unstamped_ext
    · dsimp only
      split <;> rw [hcontrol] <;> rfl
    · dsimp only
      split <;> exact hreadAt
    · dsimp only
      split
      · rfl
      · rfl
    · dsimp only
      split
      · rw [hcontrol]
        exact add_unstamped hhistory ..
      · exact hhistory
    · exact hsensor

end Midway

/-! ## What is published -/

theorem events_refused {c : Control} {sec : Section} (h : sec.seen c = none) : sec.events c = [] := by
  unfold Section.events
  rw [Control.exec_refused h, List.drop_length]

theorem published_exec (c : Control) (sec : Section) : (sec.exec c).published = c.published ++ sec.events c := by
  cases hs : sec.seen c with
  | some s => exact Account.published_eq hs
  | none => rw [events_refused hs, Control.exec_refused hs, List.append_nil]

def eventsFrom (c : Control) : List Section → List Event
  | [] => []
  | sec :: l => sec.events c ++ eventsFrom (sec.exec c) l

theorem published_run (c : Control) (l : List Section) :
    (run Section.exec c l).published = c.published ++ eventsFrom c l := by
  induction l generalizing c with
  | nil => exact (List.append_nil _).symm
  | cons sec l ih =>
    change (run Section.exec (sec.exec c) l).published = _
    rw [ih, published_exec, List.append_assoc]
    rfl

theorem published_append (boot : Int) (h k : List Section) : (controlAfter boot (h ++ k)).published =
    (controlAfter boot h).published ++ eventsFrom (controlAfter boot h) k := by
  rw [← published_run]
  exact congrArg Control.published (run_append ..)

/-! ## Every run is a run of turns -/

/-- The statics of `m` are those of a run of turns since the boot. -/
structure Refines (held : Settings → Prop) (m : Machine) (boot : Int) (turns : List DeviceTurn) : Prop where
  midway : Midway m (deviceAfter boot turns).unstamped
  fetched : ∀ x ∈ turns, x.Fetched held
  /-- The thresholds of the pass that has begun. -/
  fetching : ∀ top_s now_s read for_sensor, m.pc = .locked top_s now_s read for_sensor → held for_sensor
  /-- No reader sees half a turn. -/
  copies : ∀ c ∈ m.copies, ∃ before, before <+: turns ∧ c = (deviceAfter boot before).task.control
  ring : ∃ r, m.ring = ringAfter r m.log
  log : m.log ++ m.pending = m.task.control.published

theorem refines_mono {held held' : Settings → Prop} (hheld : ∀ s, held s → held' s) {m : Machine} {boot : Int}
    {turns : List DeviceTurn} (h : Refines held m boot turns) : Refines held' m boot turns :=
  ⟨h.midway, fun x hx => fetched_later hheld (h.fetched x hx),
    fun top_s now_s read s hpc => hheld s (h.fetching top_s now_s read s hpc), h.copies, h.ring, h.log⟩

theorem ring_locked {f : Firmware} {r : EventRing} (hr : f.ring = ringAfter r f.task.control.published)
    (sec : Section) :
    (f.locked (sec.exec f.task.control)).ring = ringAfter r (sec.exec f.task.control).published := by
  unfold Firmware.locked
  dsimp only
  rw [published_exec, List.drop_left, hr]
  exact (run_append ..).symm

theorem log_idle {m : Machine} (h : m.pending = []) : m.log = m.task.control.published := by
  unfold Machine.log
  rw [h, List.length_nil, Nat.sub_zero, List.take_length]

theorem log_of_split {m : Machine} {l : List Event} (h : l ++ m.pending = m.task.control.published) : m.log = l := by
  unfold Machine.log
  rw [← h, List.length_append, Nat.add_sub_cancel, List.take_left]

theorem pending_free {m : Machine} (h : m.s_lock = false) : m.pending = [] := by
  unfold Machine.s_lock at h
  unfold Machine.pending
  split
  · rename_i hpc
    rw [hpc] at h
    cases h
  · rfl

theorem decision_control (m : Machine) (now : Int) (read : Option (Option Int16)) (for_sensor : Settings)
    (date : LocalDate) : (m.decision now read for_sensor date).task.control =
      (Section.task for_sensor (settings_get m.store) date now (read.map (·.map Int16.toInt))).exec m.task.control :=
  rfl

theorem decision_published (m : Machine) (now : Int) (read : Option (Option Int16)) (for_sensor : Settings)
    (date : LocalDate) : (m.decision now read for_sensor date).task.control.published =
      m.task.control.published ++ (m.decision now read for_sensor date).pending := by
  have hpending : (m.decision now read for_sensor date).pending =
      (Section.task for_sensor (settings_get m.store) date now (read.map (·.map Int16.toInt))).events m.task.control :=
    rfl
  rw [decision_control, hpending]
  exact published_exec ..

theorem log_decision {m : Machine} {top now : Int} {read : Option (Option Int16)} {for_sensor : Settings}
    (date : LocalDate) (hpc : m.pc = .locked top now read for_sensor) :
    (m.decision now read for_sensor date).log = m.log := by
  have hidle : m.pending = [] := by rw [Machine.pending, hpc]
  rw [log_idle hidle]
  exact log_of_split (decision_published m now read for_sensor date).symm

theorem log_publish {m : Machine} (h : m.log ++ m.pending = m.task.control.published) {now : Int}
    {read : Option (Option Int16)} {e : Event} {pending : List Event}
    (hpc : m.pc = .publishing now read (e :: pending)) :
    Machine.log { m with ring := m.ring.events_publish e, pc := .publishing now read pending } = m.log ++ [e] := by
  have hpending : m.pending = e :: pending := by rw [Machine.pending, hpc]
  rw [hpending] at h
  apply log_of_split
  rw [List.append_assoc]
  exact h

section Step

variable {held : Settings → Prop} {m : Machine} {boot : Int} {turns : List DeviceTurn} (h : Refines held m boot turns)

include h

theorem refines_control : m.task.control = (deviceAfter boot turns).task.control :=
  midway_control (d := (deviceAfter boot turns).unstamped) h.midway

/-- The task moves on, with the lock free before and after. -/
theorem refines_task {m' : Machine} (hcontrol : m'.task.control = m.task.control) (hring : m'.ring = m.ring)
    (hcopies : m'.copies = m.copies) (hbefore : m.pending = []) (hafter : m'.pending = [])
    (hfetching : ∀ top_s now_s read s, m'.pc = .locked top_s now_s read s → held s)
    (hmid : Midway m' (deviceAfter boot turns).unstamped) : Refines held m' boot turns where
  midway := hmid
  fetched := h.fetched
  fetching := hfetching
  copies := hcopies ▸ h.copies
  ring := by
    obtain ⟨r, hr⟩ := h.ring
    exact ⟨r, by rw [hring, hr, log_idle hbefore, log_idle hafter, hcontrol]⟩
  log := by rw [hafter, log_idle hafter, List.append_nil]

theorem refines_decision {top now : Int} {read : Option (Option Int16)} {for_sensor : Settings} (date : LocalDate)
    (hpc : m.pc = .locked top now read for_sensor) (hheld : held (settings_get m.store)) :
    ∃ x, Refines held (m.decision now read for_sensor date) boot (turns ++ [x]) := by
  have hmid := h.midway
  unfold Midway at hmid
  rw [hpc] at hmid
  obtain ⟨p, bus, hfor, hsettings, hturn⟩ := decision_turn hmid for_sensor date
  have hidle : m.pending = [] := by rw [Machine.pending, hpc]
  have hpublished := decision_published m now read for_sensor date
  have hring : (m.decision now read for_sensor date).ring = m.ring := rfl
  have hcopies : (m.decision now read for_sensor date).copies = m.copies := rfl
  have hat : (m.decision now read for_sensor date).pc = .publishing now read _ := rfl
  have hlog : (m.decision now read for_sensor date).log = m.log := log_decision date hpc
  refine ⟨.pass p bus, ?_⟩
  generalize m.decision now read for_sensor date = m' at *
  constructor
  · rw [unstamped_snoc]
    exact hturn
  · intro x hx
    rw [List.mem_append, List.mem_singleton] at hx
    rcases hx with hx | rfl
    · exact h.fetched x hx
    · exact ⟨hfor ▸ h.fetching _ _ _ _ hpc, hsettings ▸ hheld⟩
  · simp [hat]
  · intro c hc
    rw [hcopies] at hc
    obtain ⟨before, hbefore, hc⟩ := h.copies c hc
    exact ⟨before, hbefore.trans (List.prefix_append _ _), hc⟩
  · obtain ⟨r, hr⟩ := h.ring
    exact ⟨r, by rw [hring, hlog, hr]⟩
  · rw [hlog, hpublished, log_idle hidle]

theorem refines_publish {now : Int} {read : Option (Option Int16)} {e : Event} {pending : List Event}
    (hpc : m.pc = .publishing now read (e :: pending)) :
    Refines held { m with ring := m.ring.events_publish e, pc := .publishing now read pending } boot turns := by
  have hmid := h.midway
  unfold Midway at hmid
  rw [hpc] at hmid
  have hpending : m.pending = e :: pending := by rw [Machine.pending, hpc]
  have hlog := h.log
  rw [hpending] at hlog
  have hnext := log_publish h.log hpc
  constructor
  · exact hmid
  · exact h.fetched
  · simp
  · exact h.copies
  · obtain ⟨r, hr⟩ := h.ring
    refine ⟨r, ?_⟩
    rw [hnext]
    dsimp only
    rw [hr]
    exact (run_snoc ..).symm
  · rw [hnext, List.append_assoc]
    exact hlog

theorem refines_pump (hfree : m.s_lock = false) (env : HttpEnv) (manual : CtlManual) (d : UInt32) (who : String)
    {c : Control}
    (hc : c = (control_manual m.task.control (settings_get m.store) env.date env.now_s manual d who).1)
    (hheld : held (settings_get m.store)) :
    ∃ x, Refines held { m with toFirmware := m.toFirmware.locked c } boot (turns ++ [x]) := by
  have hidle := pending_free hfree
  have hidle' : Machine.pending { m with toFirmware := m.toFirmware.locked c } = [] := hidle
  refine ⟨.command (settings_get m.store) env.date env.now_s manual d who, ?_⟩
  constructor
  · have hmid := midway_command hfree h.midway c
    rw [midway_control h.midway] at hc
    rw [unstamped_snoc]
    rw [hc] at hmid ⊢
    exact hmid
  · intro x hx
    rw [List.mem_append, List.mem_singleton] at hx
    rcases hx with hx | rfl
    · exact h.fetched x hx
    · exact hheld
  · intro top_s now_s read s hpc
    exact h.fetching top_s now_s read s hpc
  · intro c hc
    obtain ⟨before, hbefore, hc⟩ := h.copies c hc
    exact ⟨before, hbefore.trans (List.prefix_append _ _), hc⟩
  · obtain ⟨r, hr⟩ := h.ring
    rw [log_idle hidle] at hr
    refine ⟨r, ?_⟩
    rw [log_idle hidle', hc]
    exact ring_locked hr (.command (settings_get m.store) env.date env.now_s manual d who)
  · rw [hidle', log_idle hidle', List.append_nil]

theorem refines_still {m' : Machine} (htask : m'.task = m.task) (hsensor : m'.sensor = m.sensor)
    (hring : m'.ring = m.ring) (hpc : m'.pc = m.pc)
    (hcopies : ∀ c ∈ m'.copies, c ∈ m.copies ∨ c = m.task.control) : Refines held m' boot turns := by
  have hpending : m'.pending = m.pending := by
    unfold Machine.pending
    rw [hpc]
  have hlog : m'.log = m.log := by
    unfold Machine.log
    rw [htask, hpending]
  constructor
  · exact midway_still htask hsensor hpc h.midway
  · exact h.fetched
  · rw [hpc]
    exact h.fetching
  · intro c hc
    rcases hcopies c hc with hc | rfl
    · exact h.copies c hc
    · exact ⟨turns, List.prefix_refl _, refines_control h⟩
  · rw [hring, hlog]
    exact h.ring
  · rw [hlog, hpending, htask]
    exact h.log

theorem refines_request (method : HttpMethod) (uri : String) (env : HttpEnv) (req : Request)
    (hfree : m.blocks uri = false) (hheld : held (settings_get m.store)) :
    ∃ turns', Refines held { m with toFirmware := (serve method uri env m.toFirmware req).1 } boot turns' := by
  rcases serve_effect method uri env m.toFirmware req with hsame | ⟨huri, manual, d, who, hpump⟩ | ⟨in_out, hset⟩
  · rw [hsame]
    exact ⟨turns, h⟩
  · have hlock : m.s_lock = false := by simpa [Machine.blocks, huri] using hfree
    obtain ⟨x, hx⟩ := refines_pump h hlock env manual d who rfl hheld
    rw [hpump]
    exact ⟨turns ++ [x], hx⟩
  · rw [hset]
    exact ⟨turns, refines_still h rfl rfl rfl rfl fun c hc => Or.inl hc⟩

theorem refines_step {a : Move} {m' : Machine} (hm : Moved m a m') (ha : a.isReboot = false)
    (hheld : held (settings_get m.store)) : ∃ turns', Refines held m' boot turns' := by
  have hmid := h.midway
  unfold Midway at hmid
  cases hm with
  | still a ha => exact ⟨turns, h⟩
  | tick d | stamps i c hc | sends i events_unix_time system c hc =>
    exact ⟨turns, refines_still h rfl rfl rfl rfl fun c hc => Or.inl hc⟩
  | copies hfree =>
    refine ⟨turns, refines_still h rfl rfl rfl rfl fun c hc => ?_⟩
    simpa using hc
  | samples hpc hdue =>
    rw [hpc] at hmid
    rw [show m.task.next_read_s = (deviceAfter boot turns).unstamped.task.next_read_s by rw [← hmid]; rfl] at hdue
    refine ⟨turns, refines_task h rfl rfl rfl (by rw [Machine.pending, hpc]) rfl (by simp) ⟨hdue, ?_⟩⟩
    rw [← hmid]
    rfl
  | rests hpc hnot =>
    rw [hpc] at hmid
    rw [show m.task.next_read_s = (deviceAfter boot turns).unstamped.task.next_read_s by rw [← hmid]; rfl] at hnot
    exact ⟨turns, refines_task h rfl rfl rfl (by rw [Machine.pending, hpc]) rfl (by simp) ⟨rfl, hnot, hmid⟩⟩
  | senses top_s bus hpc =>
    rw [hpc] at hmid
    have hsensor : m.sensor = (deviceAfter boot turns).sensor := congrArg Device.sensor hmid.2
    refine ⟨turns, refines_task h rfl rfl rfl (by rw [Machine.pending, hpc]) rfl (by simp)
      ⟨hmid.1, bus, by rw [hsensor]; rfl, ?_⟩⟩
    change _ = (⟨_, (temp_sensor_read (deviceAfter boot turns).sensor bus).1⟩ : Device)
    rw [← hsensor]
    exact congrArg (fun d : Device => (⟨d.task, (temp_sensor_read m.sensor bus).1⟩ : Device)) hmid.2
  | locks top_s now_s read hpc =>
    rw [hpc] at hmid
    refine ⟨turns, refines_task h rfl rfl rfl (by rw [Machine.pending, hpc]) rfl ?_ hmid⟩
    intro top_s' now_s' read' s hat
    cases hat
    exact hheld
  | decides top_s now_s read for_sensor date hpc =>
    obtain ⟨x, hx⟩ := refines_decision h date hpc hheld
    exact ⟨_, hx⟩
  | publishes now_s read e pending hpc => exact ⟨turns, refines_publish h hpc⟩
  | unlocks now_s read hpc =>
    rw [hpc] at hmid
    exact ⟨turns, refines_task h rfl rfl rfl (by rw [Machine.pending, hpc]) rfl (by simp) hmid⟩
  | stores now_s read on hpc =>
    rw [hpc] at hmid
    exact ⟨turns, refines_task h (sampled_control ..) rfl rfl (by rw [Machine.pending, hpc]) rfl (by simp) hmid⟩
  | serves method uri env req hfree => exact refines_request h method uri { env with now_s := m.clock } req hfree hheld
  | reboots boot' => cases ha

end Step

theorem refines_boot (held : Settings → Prop) (boot : Int) (st : Store) (ring : EventRing) (documents : List Json) :
    Refines held (Machine.power_on boot st ring documents) boot [] :=
  ⟨rfl, by simp, by simp [Machine.power_on], by simp [Machine.power_on], ⟨ring, rfl⟩, rfl⟩

theorem refines_run (nvs : Nvs) (ring : EventRing) (boot : Int) (h : List Move) :
    ∃ turns, Refines (Held nvs ring boot h) (machineAfter nvs ring boot h) (bootOf boot h) turns := by
  induction h using List.reverseRecOn with
  | nil => exact ⟨[], refines_boot _ boot _ ring []⟩
  | append_singleton h a ih =>
    obtain ⟨turns, hr⟩ := ih
    have hm := step_moved (machineAfter nvs ring boot h) a
    rw [machineAfter_snoc]
    cases ha : a.isReboot with
    | false =>
      rw [bootOf_snoc boot h ha]
      exact refines_step (refines_mono (fun s hs => held_later ha hs) hr) hm ha (held_now ha)
    | true =>
      cases a with
      | reboot boot' =>
        rw [bootOf_reboot]
        exact ⟨[], refines_boot _ boot' _ _ _⟩
      | _ => cases ha

/-! ## Who may do what -/

section Respects

variable {handler : Handler} {env : HttpEnv} {f : Firmware} {req : Request}

theorem guarded_closed {kind : HiGuard} (h : ¬ req.hi_httpd_guard kind = true) :
    guarded kind handler env f req = (f, .answered) := if_pos h

theorem admin_closed (h : ¬ req.admin_header_valid = true) :
    admin_ok handler env f req = (f, .empty "401 Unauthorized") := if_neg h

theorem admin_read_closed (h : ¬ req.readonly_header_valid = true) :
    admin_read_ok handler env f req = (f, .empty "401 Unauthorized") := if_neg h

theorem guarded_silent (kind : HiGuard) (h : (handler env f req).1 = f) : (guarded kind handler env f req).1 = f := by
  unfold guarded
  split
  · rfl
  · exact h

theorem admin_read_silent (h : (handler env f req).1 = f) : (admin_read_ok handler env f req).1 = f := by
  unfold admin_read_ok
  split
  · exact h
  · rfl

end Respects

/-- Without leave to change anything, the route changes nothing; without any leave, it answers every
firmware the same, and not with a status. -/
structure Respects (route : HttpdUri) : Prop where
  change : ∀ env f req, ¬ MayChange route.method route.uri req → (route.handler env f req).1 = f
  learn : ∀ env req, ¬ MayChange route.method route.uri req → ¬ MayRead route.method route.uri req →
    ∃ response, response ≠ .reply .status ∧ ∀ f, route.handler env f req = (f, response)

theorem respects_session {uri : String} (huri : uri ∈ ["/api/status", "/api/events", "/api/history"])
    {handler : Handler} (hsilent : ∀ env f req, (handler env f req).1 = f) :
    Respects ⟨uri, .HTTP_GET, guarded .HI_GUARD_SESSION handler⟩ where
  change env f req _ := guarded_silent _ (hsilent env f req)
  learn env req _ hread := by
    refine ⟨.answered, by simp, fun f => guarded_closed fun hguard => hread ?_⟩
    exact ⟨rfl, Or.inl ⟨huri, hguard⟩⟩

theorem respects_readonly {uri : String} (huri : uri ∈ ["/admin/status", "/admin/history"]) {handler : Handler}
    (hsilent : ∀ env f req, (handler env f req).1 = f) : Respects ⟨uri, .HTTP_GET, admin_read_ok handler⟩ where
  change env f req _ := admin_read_silent (hsilent env f req)
  learn env req _ hread := by
    refine ⟨.empty "401 Unauthorized", by simp, fun f => admin_read_closed fun hvalid => hread ?_⟩
    exact ⟨rfl, Or.inr ⟨huri, hvalid⟩⟩

theorem respects_closed {uri : String} {handler : Handler} {response : Response} (hplain : response ≠ .reply .status)
    (hclosed : ∀ env f req, ¬ MayChange .HTTP_POST uri req → handler env f req = (f, response)) :
    Respects ⟨uri, .HTTP_POST, handler⟩ where
  change env f req hchange := congrArg Prod.fst (hclosed env f req hchange)
  learn env req hchange _ := ⟨response, hplain, fun f => hclosed env f req hchange⟩

theorem respects_mutation {uri : String} (huri : uri ∈ ["/api/pump", "/api/settings"]) (handler : Handler) :
    Respects ⟨uri, .HTTP_POST, guarded .HI_GUARD_MUTATION handler⟩ :=
  respects_closed (by simp) fun _ _ _ hchange => guarded_closed fun hguard => hchange ⟨rfl, Or.inl ⟨huri, hguard⟩⟩

theorem respects_admin {uri : String} (huri : uri ∈ ["/admin/pump", "/admin/settings"]) (handler : Handler) :
    Respects ⟨uri, .HTTP_POST, admin_ok handler⟩ :=
  respects_closed (by simp) fun _ _ _ hchange => admin_closed fun hvalid => hchange ⟨rfl, Or.inr ⟨huri, hvalid⟩⟩

theorem routes_respect : ∀ route ∈ routes, Respects route := by
  intro route hroute
  have hstatus : ∀ env f req, (send_status env f req).1 = f := fun _ _ _ => rfl
  have hhistory : ∀ env f req, (Http.send_history env f req).1 = f := fun _ _ _ => rfl
  simp only [routes, List.mem_cons, List.not_mem_nil, or_false] at hroute
  rcases hroute with rfl | rfl | rfl | rfl | rfl | rfl | rfl | rfl | rfl
  · exact respects_session (by simp) hstatus
  · exact respects_session (by simp) fun _ _ _ => rfl
  · exact respects_session (by simp) hhistory
  · exact respects_mutation (by simp) _
  · exact respects_mutation (by simp) _
  · exact respects_admin (by simp) _
  · exact respects_admin (by simp) _
  · exact respects_readonly (by simp) hstatus
  · exact respects_readonly (by simp) hhistory

theorem serve_unpermitted {method : HttpMethod} {uri : String} {req : Request} (hchange : ¬ MayChange method uri req)
    (env : HttpEnv) :
    (∀ f, (serve method uri env f req).1 = f) ∧
      (¬ MayRead method uri req →
        ∃ response, response ≠ .reply .status ∧ ∀ f, serve method uri env f req = (f, response)) := by
  unfold serve
  split
  · rename_i route hfound
    obtain ⟨hmem, rfl, rfl⟩ := route_found hfound
    have hroute := routes_respect route hmem
    exact ⟨fun f => hroute.change env f req hchange, hroute.learn env req hchange⟩
  · exact ⟨fun _ => rfl, fun _ => ⟨.not_found, by simp, fun _ => rfl⟩⟩

theorem step_idle {a : Move} (ha : ¬ a.Counts) (m : Machine) : m.step a = m := by
  cases a with
  | request method uri env req =>
    have hserve := (serve_unpermitted ha { env with now_s := m.clock }).1 m.toFirmware
    unfold Machine.step
    dsimp only
    split
    · rfl
    · rw [hserve]
  | _ => exact absurd trivial ha

theorem machineAfter_counts (nvs : Nvs) (ring : EventRing) (boot : Int) (h : List Move) :
    machineAfter nvs ring boot (h.filter fun a => a.Counts) = machineAfter nvs ring boot h := by
  induction h using List.reverseRecOn with
  | nil => rfl
  | append_singleton h a ih =>
    unfold machineAfter at ih ⊢
    rw [List.filter_append, run_append, ih, run_append]
    by_cases ha : a.Counts
    · simp [ha]
    · simp [ha, run, step_idle ha]

/-! ## What an error reply means -/

/-- `save_failed` is the only error that comes after a change. -/
def ErrorsIdle (handler : Handler) : Prop := ∀ env f req status text,
  (handler env f req).2 = .reply (.error status text) → text ≠ "save_failed" → (handler env f req).1 = f

theorem errorsIdle_guarded {handler : Handler} (h : ErrorsIdle handler) (kind : HiGuard) :
    ErrorsIdle (guarded kind handler) := by
  intro env f req status text
  unfold guarded
  split
  · exact fun _ _ => rfl
  · exact h env f req status text

theorem errorsIdle_admin {handler : Handler} (h : ErrorsIdle handler) : ErrorsIdle (admin_ok handler) := by
  intro env f req status text
  unfold admin_ok
  split
  · exact h env f req status text
  · exact fun _ _ => rfl

theorem errorsIdle_silent {handler : Handler} (h : ∀ env f req, (handler env f req).1 = f) : ErrorsIdle handler :=
  fun env f req _ _ _ _ => h env f req

theorem answer_error {c : Control} {st : Settings} {date : LocalDate} {now : Int} {m : CtlManual} {d : UInt32}
    {who status text : String} (h : (Commands.answer (control_manual c st date now m d who)).2 = .error status text) :
    (control_manual c st date now m d who).1 = c := by
  by_cases hrefused : m = .Stop ∧ c.s_state.overheat = true
  · rw [Commands.control_manual_refused hrefused]
  · have hok : (control_manual c st date now m d who).2 = .CONTROL_OK := Commands.control_manual_ok hrefused
    unfold Commands.answer at h
    rw [hok] at h
    cases h

theorem pump_command_error {to_uint32 : Rat → UInt32} {c : Control} {st : Settings} {date : LocalDate} {now : Int}
    {body : Json} {who status text : String}
    (h : (FloorHeating.pump_command to_uint32 c st date now body who).2 = .error status text) :
    (FloorHeating.pump_command to_uint32 c st date now body who).1 = c := by
  rcases pump_command_cases to_uint32 c st date now body who with ⟨status', text', hc⟩ | ⟨m, d, hc⟩
  · rw [hc]
  · rw [hc] at h ⊢
    rw [answer_control]
    exact answer_error h

theorem errorsIdle_pump (who : Request → String) : ErrorsIdle (Http.pump_command who) := by
  intro env f req status text
  unfold Http.pump_command
  split
  · exact fun _ _ => rfl
  · intro herror _
    simp only [Response.reply.injEq] at herror
    simp only [pump_command_error herror]
    exact locked_same f

theorem errorsIdle_settings : ErrorsIdle Http.apply_settings := by
  intro env f req status text
  unfold Http.apply_settings
  split
  · exact fun _ _ => rfl
  · intro herror htext
    simp only [SettingsPatch.apply_settings_eq, Response.reply.injEq] at herror
    split at herror
    · simp only [Reply.error.injEq] at herror
      exact absurd herror.2.symm htext
    · cases herror

theorem serve_error (method : HttpMethod) (uri : String) : ErrorsIdle (serve method uri) := by
  intro env f req status text
  unfold serve
  split
  · rename_i route hfound
    obtain ⟨hmem, -, -⟩ := route_found hfound
    simp only [routes, List.mem_cons, List.not_mem_nil, or_false] at hmem
    rcases hmem with rfl | rfl | rfl | rfl | rfl | rfl | rfl | rfl | rfl
    · exact errorsIdle_guarded (errorsIdle_silent fun _ _ _ => rfl) _ env f req status text
    · exact errorsIdle_guarded (errorsIdle_silent fun _ _ _ => rfl) _ env f req status text
    · exact errorsIdle_guarded (errorsIdle_silent fun _ _ _ => rfl) _ env f req status text
    · exact errorsIdle_guarded (errorsIdle_pump _) _ env f req status text
    · exact errorsIdle_guarded errorsIdle_settings _ env f req status text
    · exact errorsIdle_admin (errorsIdle_pump _) env f req status text
    · exact errorsIdle_admin errorsIdle_settings env f req status text
    · exact fun _ _ => admin_read_silent rfl
    · exact fun _ _ => admin_read_silent rfl
  · exact fun _ _ => rfl

/-! ## The two laws -/

/-- Whatever the interleaving, with new thresholds between the two fetches of an iteration, failed saves and
reboots: the statics are those of a run of whole turns since the last boot, but for the time of the newest sample.
Each fetched what the store gave at some point of it, and no reader sees half of one. -/
theorem interleaving_refines_turns (nvs : Nvs) (ring : EventRing) (boot : Int) (h : List Move) :
    ∃ turns, Refines (Held nvs ring boot h) (machineAfter nvs ring boot h) (bootOf boot h) turns ∧
      (machineAfter nvs ring boot h).task.control = (deviceAfter (bootOf boot h) turns).task.control := by
  obtain ⟨turns, hr⟩ := refines_run nvs ring boot h
  exact ⟨turns, hr, refines_control hr⟩

/-- A client with neither a session nor a secret changes nothing and learns nothing, one with the
read-only secret changes nothing, and no error but `save_failed` comes after a change. -/
theorem only_permitted_requests_count (nvs : Nvs) (ring : EventRing) (boot : Int) (h : List Move) :
    machineAfter nvs ring boot (h.filter fun a => a.Counts) = machineAfter nvs ring boot h ∧
      (∀ method uri env req, ¬ MayChange method uri req → ¬ MayRead method uri req →
        ∃ response, response ≠ .reply .status ∧ ∀ f, serve method uri env f req = (f, response)) ∧
      ∀ method uri env f req status text, (serve method uri env f req).2 = .reply (.error status text) →
        text ≠ "save_failed" → (serve method uri env f req).1 = f :=
  ⟨machineAfter_counts nvs ring boot h,
    fun _ _ env _ hchange hread => (serve_unpermitted hchange env).2 hread,
    fun method uri => serve_error method uri⟩

end FloorHeating.MachineRun
