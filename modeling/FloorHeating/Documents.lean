import FloorHeating.Api
import FloorHeating.Machine
import FloorHeating.Spec.Consistent

/-!
# Every status document is consistent

What holds of the control statics after any run of turns, then of the copies
that the readers took of it, then of what they sent.
-/

open FloorHeating.Lib FloorHeating.Control FloorHeating.Http FloorHeating.MachineRun FloorHeating.Priority

namespace FloorHeating.Documents

/-! ## The sections of a run of turns -/

def sectionsOf (d : Device) : List DeviceTurn → List Section
  | [] => []
  | x :: l => TaskRun.turnSection d.task (x.turn d) :: sectionsOf (x.exec d) l

theorem sectionsOf_control (d : Device) (l : List DeviceTurn) :
    (run DeviceTurn.exec d l).task.control = run Section.exec d.task.control (sectionsOf d l) := by
  induction l generalizing d with
  | nil => rfl
  | cons x l ih =>
    have hstep : (x.exec d).task.control = (TaskRun.turnSection d.task (x.turn d)).exec d.task.control :=
      TaskRun.turn_control d.task (x.turn d)
    change (run DeviceTurn.exec (x.exec d) l).task.control = _
    rw [ih, hstep]
    rfl

theorem turn_sane {x : DeviceTurn} (hx : x.Fetched Settings.Sane) (d : Device) :
    (TaskRun.turnSection d.task (x.turn d)).Sane := by
  cases x with
  | pass p bus =>
    obtain ⟨hfor, hsettings⟩ := hx
    unfold TaskRun.turnSection DeviceTurn.turn TaskRun.passSection
    dsimp only
    split <;> exact ⟨hfor, hsettings⟩
  | command settings date now m d who => exact hx

theorem sectionsOf_ok (d : Device) (l : List DeviceTurn) (hl : ∀ x ∈ l, x.Fetched Settings.Sane) :
    ∀ sec ∈ sectionsOf d l, sec.Sane ∧ sec.InRange := by
  induction l generalizing d with
  | nil => simp [sectionsOf]
  | cons x l ih =>
    intro sec hsec
    rw [sectionsOf, List.mem_cons] at hsec
    rcases hsec with rfl | hsec
    · exact ⟨turn_sane (hl x (by simp)) d, Sensor.turn_inRange d x⟩
    · exact ih (x.exec d) (fun y hy => hl y (by simp [hy])) sec hsec

/-- The statics between two lock sections of some run. -/
def Reached (c : Control) : Prop :=
  ∃ boot secs, (∀ sec ∈ secs, sec.Sane ∧ sec.InRange) ∧ c = controlAfter boot secs

theorem refines_reached {m : Machine} {boot : Int} {turns : List DeviceTurn} (h : Refines Settings.Sane m boot turns) :
    Reached m.task.control := by
  refine ⟨boot, sectionsOf (device_start boot) turns, sectionsOf_ok _ turns h.fetched, ?_⟩
  rw [refines_control h]
  exact sectionsOf_control (device_start boot) turns

/-- All that matters below of the thresholds is that they are sane. -/
theorem refines_sane (nvs : Nvs) (ring : EventRing) (boot : Int) (h : List Move) :
    ∃ turns, Refines Settings.Sane (machineAfter nvs ring boot h) (bootOf boot h) turns := by
  obtain ⟨turns, hr⟩ := refines_run nvs ring boot h
  exact ⟨turns, refines_mono (fun _ hs => held_sane hs) hr⟩

theorem reached_run (nvs : Nvs) (ring : EventRing) (boot : Int) (h : List Move) :
    Reached (machineAfter nvs ring boot h).task.control := by
  obtain ⟨turns, hr⟩ := refines_sane nvs ring boot h
  exact refines_reached hr

/-! ## What is reached -/

section Reached

variable {c : Control} (h : Reached c)

include h

theorem reached_settled : choose c.s_state = (c.s_state.on, c.s_state.reason) := by
  obtain ⟨boot, secs, -, rfl⟩ := h
  exact settled_eq boot secs

theorem reached_faithful : Account.Faithful c := by
  obtain ⟨boot, secs, -, rfl⟩ := h
  exact Account.faithful_run boot secs

theorem reached_temp (ht : c.s_state.have_temp = true) : -550 ≤ c.s_state.temp_x10 ∧ c.s_state.temp_x10 ≤ 1250 := by
  obtain ⟨boot, secs, hs, rfl⟩ := h
  have hread := Api.lastRead_eq boot secs
  rw [if_pos ht] at hread
  obtain ⟨sec, hsec, hvalid, -⟩ := Api.lastRead_mem hread
  exact (hs sec hsec).2 _ hvalid

theorem reached_failed : c.s_state.sensor_failed = decide (3 ≤ c.s_state.failures.toNat) := by
  obtain ⟨boot, secs, -, rfl⟩ := h
  exact failed_eq boot secs

end Reached

/-! ## No time stamp is ahead of the clock -/

/-- The state at `t`, or earlier. -/
structure Stamped (s : CtlState) (t : Int) : Prop where
  changed : s.changed_s ≤ t
  last_on : s.last_on_s ≤ t
  temp : s.have_temp = true → s.temp_s ≤ t
  manual : s.manual ≠ .None → s.manual_until_s ≤ t + 43200

theorem stamped_init (boot : Int) : Stamped (ctl_init boot) boot := by
  constructor <;> simp [ctl_init]

theorem stamped_later {s : CtlState} {t t' : Int} (h : Stamped s t) (hle : t ≤ t') : Stamped s t' where
  changed := h.changed.trans hle
  last_on := h.last_on.trans hle
  temp ht := (h.temp ht).trans hle
  manual hm := by
    have := h.manual hm
    omega

def Bounded : Call → Prop
  | .manual _ d _ => d.toNat ≤ 43200
  | _ => True

theorem stamped_apply {s : CtlState} {a : Call} {t : Int} (h : Stamped s t) (hnow : a.now_s ≤ t) (hd : Bounded a) :
    Stamped (a.apply s) t := by
  cases a with
  | sensor cfg now valid temp =>
    cases valid with
    | false =>
      change Stamped (ctl_sensor s cfg now false temp {}).1 t
      rw [ctl_sensor_failed]
      exact ⟨h.changed, h.last_on, h.temp, h.manual⟩
    | true =>
      change Stamped (ctl_sensor s cfg now true temp {}).1 t
      rw [ctl_sensor_valid]
      exact ⟨h.changed, h.last_on, fun _ => hnow, h.manual⟩
  | manual m d now =>
    rw [apply_manual]
    refine ⟨h.changed, h.last_on, h.temp, ?_⟩
    have hbound : d.toNat ≤ 43200 := hd
    have hle : now ≤ t := hnow
    dsimp only
    split
    · exact h.manual
    · intro hm
      rw [deadline, if_neg hm]
      omega
  | decide cfg now =>
    have hle : now ≤ t := hnow
    change Stamped (ctl_decide s cfg now {}).1 t
    constructor
    · rw [ctl_decide_eq]
      dsimp only
      split
      · exact h.changed
      · exact hle
    · rw [ctl_decide_last_on]
      split
      · exact hle
      · exact h.last_on
    · rw [ctl_decide_have_temp, ctl_decide_temp_s]
      exact h.temp
    · rw [ctl_decide_manual, ctl_decide_manual_until]
      intro hm
      apply h.manual
      intro hnone
      apply hm
      unfold manualAfter
      rw [hnone]
      exact ite_self _

theorem stamped_exec {c : Control} {sec : Section} {t : Int} (h : Stamped c.s_state t) (hnow : sec.now_s ≤ t) :
    Stamped (sec.exec c).s_state t := by
  rw [exec_step]
  have hcalls : ∀ a ∈ sec.step.calls c.s_state, a.now_s ≤ t ∧ Bounded a := by
    rcases sec with ⟨fs, st, date, now, - | read⟩ | ⟨st, date, now, m, d, who⟩
    · simpa [Section.step, Step.calls, Call.now_s, Bounded, Section.now_s] using hnow
    · simpa [Section.step, Step.calls, Call.now_s, Bounded, Section.now_s] using hnow
    · have hclamp := clamp_duration_toNat d
      have hmax : (clamp_duration d).toNat ≤ 43200 := by omega
      intro a ha
      simp only [Section.step, Step.calls, List.mem_cons] at ha
      rcases ha with rfl | ha
      · exact ⟨hnow, hmax⟩
      · split at ha
        · rw [List.mem_singleton] at ha
          subst ha
          exact ⟨hnow, trivial⟩
        · simp at ha
  generalize sec.step.calls c.s_state = calls at hcalls
  induction calls using List.reverseRecOn with
  | nil => exact h
  | append_singleton calls a ih =>
    rw [run_snoc]
    have ha := hcalls a (by simp)
    exact stamped_apply (ih fun b hb => hcalls b (by simp [hb])) ha.1 ha.2

/-! ## What the readers have -/

def pcTime : TaskAt → Option Int
  | .waiting _ now _ | .locked _ now _ _ => some now
  | _ => none

/-- `now` is after everything that `c` tells of. -/
def Snapshot (c : Control) (now : Int) : Prop := Reached c ∧ Stamped c.s_state now

/-- A document of a snapshot and of thresholds that the store had. -/
def Honest (doc : Json) : Prop := ∃ c now s events_unix_time system, Snapshot c now ∧ s.Sane ∧
  doc = api_status_json (control_status c now) s events_unix_time system

structure Sound (m : Machine) : Prop where
  stamped : Stamped m.task.control.s_state m.clock
  pc : ∀ now ∈ pcTime m.pc, now ≤ m.clock
  copies : ∀ c ∈ m.copies, Snapshot c m.clock
  taken : ∀ c ∈ m.taken, ∃ c' now, Snapshot c' now ∧ c = control_status c' now
  documents : ∀ doc ∈ m.documents, Honest doc

section Step

variable {m : Machine} (hr : Reached m.task.control) (hstore : (settings_get m.store).Sane) (h : Sound m)

include h

theorem sound_moved {m' : Machine} (hclock : m'.clock = m.clock) (hcopies : m'.copies = m.copies)
    (htaken : m'.taken = m.taken) (hdocuments : m'.documents = m.documents)
    (hstamped : Stamped m'.task.control.s_state m.clock) (hpc : ∀ now ∈ pcTime m'.pc, now ≤ m.clock) : Sound m' where
  stamped := by rw [hclock]; exact hstamped
  pc := by rw [hclock]; exact hpc
  copies := by rw [hclock, hcopies]; exact h.copies
  taken := by rw [htaken]; exact h.taken
  documents := by rw [hdocuments]; exact h.documents

theorem sound_tick (d : Nat) : Sound { m with clock := m.clock + d } := by
  have hle : m.clock ≤ m.clock + d := by omega
  constructor
  · exact stamped_later h.stamped hle
  · exact fun now hnow => (h.pc now hnow).trans hle
  · exact fun c hc => ⟨(h.copies c hc).1, stamped_later (h.copies c hc).2 hle⟩
  · exact h.taken
  · exact h.documents

theorem sound_decision {top now : Int} {read : Option (Option Int16)} {for_sensor : Settings} (date : LocalDate)
    (hpc : m.pc = .locked top now read for_sensor) : Sound (m.decision now read for_sensor date) := by
  have hnow : now ≤ m.clock := h.pc now (by rw [hpc]; rfl)
  have hexec : Stamped ((Section.task for_sensor (settings_get m.store) date now
      (read.map (·.map Int16.toInt))).exec m.task.control).s_state m.clock := stamped_exec h.stamped hnow
  exact sound_moved h rfl rfl rfl rfl hexec (by simp [Machine.decision, pcTime])

theorem sound_request (method : HttpMethod) (uri : String) (env : HttpEnv) (req : Request)
    (hnow : env.now_s = m.clock) :
    Sound { m with toFirmware := (serve method uri env m.toFirmware req).1 } := by
  refine sound_moved h rfl rfl rfl rfl ?_ h.pc
  rcases serve_effect method uri env m.toFirmware req with hsame | ⟨-, manual, d, who, hpump⟩ | ⟨in_out, hset⟩
  · rw [hsame]
    exact h.stamped
  · rw [hpump]
    have hexec : Stamped ((Section.command (settings_get m.store) env.date env.now_s manual d who).exec
        m.task.control).s_state m.clock := stamped_exec h.stamped hnow.le
    exact hexec
  · rw [hset]
    exact h.stamped

include hr hstore

theorem sound_step {a : Move} {m' : Machine} (hm : Moved m a m') : Sound m' := by
  cases hm with
  | still a ha => exact h
  | tick d => exact sound_tick h d
  | samples hpc hdue | rests hpc hnot | senses top_s bus hpc | publishes now_s read e pending hpc
  | unlocks now_s read hpc => exact sound_moved h rfl rfl rfl rfl h.stamped (by simp [pcTime])
  | stores now_s read on hpc =>
    refine sound_moved h rfl rfl rfl rfl ?_ (by simp [pcTime])
    rw [sampled_control]
    exact h.stamped
  | locks top_s now_s read hpc =>
    have hnow : now_s ≤ m.clock := h.pc now_s (by rw [hpc]; rfl)
    exact sound_moved h rfl rfl rfl rfl h.stamped (by simpa [pcTime] using hnow)
  | decides top_s now_s read for_sensor date hpc => exact sound_decision h date hpc
  | serves method uri env req hfree => exact sound_request h method uri { env with now_s := m.clock } req rfl
  | copies hfree =>
    refine ⟨h.stamped, h.pc, ?_, h.taken, h.documents⟩
    intro c hc
    rw [List.mem_append, List.mem_singleton] at hc
    rcases hc with hc | rfl
    · exact h.copies c hc
    · exact ⟨hr, h.stamped⟩
  | stamps i c hfound =>
    refine ⟨h.stamped, h.pc, h.copies, ?_, h.documents⟩
    intro c' hc'
    rw [List.mem_append, List.mem_singleton] at hc'
    rcases hc' with hc' | rfl
    · exact h.taken c' hc'
    · exact ⟨c, m.clock, h.copies c (List.mem_of_getElem? hfound), rfl⟩
  | sends i unix system c hfound =>
    refine ⟨h.stamped, h.pc, h.copies, h.taken, ?_⟩
    intro doc hdoc
    rw [List.mem_append, List.mem_singleton] at hdoc
    rcases hdoc with hdoc | rfl
    · exact h.documents doc hdoc
    · obtain ⟨c', now, hsnap, rfl⟩ := h.taken c (List.mem_of_getElem? hfound)
      exact ⟨c', now, settings_get m.store, unix, system, hsnap, hstore, rfl⟩
  | reboots boot' =>
    exact ⟨stamped_init boot', by simp [Machine.power_on, pcTime], by simp [Machine.power_on],
      by simp [Machine.power_on], h.documents⟩

end Step

theorem sound_run (nvs : Nvs) (ring : EventRing) (boot : Int) (h : List Move) :
    Sound (machineAfter nvs ring boot h) := by
  induction h using List.reverseRecOn with
  | nil =>
    exact ⟨stamped_init boot, by simp [machineAfter, run, Machine.power_on, pcTime],
      by simp [machineAfter, run, Machine.power_on], by simp [machineAfter, run, Machine.power_on],
      by simp [machineAfter, run, Machine.power_on]⟩
  | append_singleton h a ih =>
    have hstep := sound_step (reached_run nvs ring boot h) (store_sane nvs ring boot h) ih (step_moved _ a)
    unfold machineAfter at hstep ⊢
    rw [run_snoc]
    exact hstep

/-! ## What a document says -/

theorem choose_reason (s : CtlState) :
    (choose s).1 = decide (ctl_reason_name (choose s).2 ∉ ["auto_cold", "manual_off"]) := by
  unfold choose
  split_ifs <;> decide

theorem reason_overheat_iff (r : CtlReason) : ctl_reason_name r = "overheat" ↔ r = .Overheat := by
  cases r <;> decide

theorem reason_stopped_iff (r : CtlReason) : ctl_reason_name r = "manual_off" ↔ r = .ManualOff := by
  cases r <;> decide

theorem manual_stop_iff (m : CtlManual) : manual_name m = "stop" ↔ m = .Stop := by
  cases m <;> decide

theorem manual_none_iff (m : CtlManual) : manual_name m = "none" ↔ m = .None := by
  cases m <;> decide

theorem choose_stopped {s : CtlState} (h : (choose s).2 = .ManualOff) : s.manual = .Stop := by
  unfold choose at h
  split_ifs at h with _ _ hstop
  exact hstop

section Document

variable {c : Control} {now : Int} (h : Snapshot c now)

include h

theorem stopped_iff : c.s_state.manual = .Stop ↔ c.s_state.reason = .ManualOff := by
  constructor
  · exact fun hm => ((reached_faithful h.1).stop hm).2.1
  · intro hreason
    apply choose_stopped
    rw [reached_settled h.1]
    exact hreason

theorem overheat_iff_reason : c.s_state.overheat = true ↔ c.s_state.reason = .Overheat := by
  have hsettled := reached_settled h.1
  constructor
  · intro ho
    rw [choose_overheat ho] at hsettled
    exact (congrArg Prod.snd hsettled).symm
  · intro hreason
    apply choose_reason_overheat
    rw [hsettled]
    exact hreason

theorem failed_on (hf : c.s_state.sensor_failed = true) : c.s_state.on = true ∨ c.s_state.manual = .Stop := by
  by_contra hno
  simp only [not_or, Bool.not_eq_true] at hno
  have hoff : (choose c.s_state).1 = false := by
    rw [reached_settled h.1]
    exact hno.1
  obtain ⟨-, -, hstop | ⟨hfine, -⟩⟩ := choose_off.mp hoff
  · exact hno.2 hstop
  · rw [hf] at hfine
    cases hfine

theorem honest_consistent {s : Settings} (hs : s.Sane) (events_unix_time : Int → Int) (system : List (String × Json)) :
    Consistent (api_status_json (control_status c now) s events_unix_time system) where
  pump := by
    refine ⟨ctl_reason_name c.s_state.reason, rfl, ?_⟩
    have hreason := choose_reason c.s_state
    rw [reached_settled h.1] at hreason
    exact congrArg (fun on => some (Json.bool on)) hreason
  overheat := by
    change some (Json.bool c.s_state.overheat) = _ ↔ some (Json.str (ctl_reason_name c.s_state.reason)) = _
    simp only [Option.some.injEq, Json.bool.injEq, Json.str.injEq, reason_overheat_iff]
    exact overheat_iff_reason h
  stopped := by
    change some (Json.str (manual_name c.s_state.manual)) = _ ↔ some (Json.str (ctl_reason_name c.s_state.reason)) = _
    simp only [Option.some.injEq, Json.str.injEq, reason_stopped_iff, manual_stop_iff]
    exact stopped_iff h
  failures := ⟨c.s_state.failures.toNat, rfl, congrArg (fun b => some (Json.bool b)) (reached_failed h.1)⟩
  fail_safe := by
    change some (Json.bool c.s_state.sensor_failed) = _ →
      some (Json.bool c.s_state.on) = _ ∨ some (Json.str (manual_name c.s_state.manual)) = _
    simp only [Option.some.injEq, Json.bool.injEq, Json.str.injEq, manual_stop_iff]
    exact failed_on h
  manual_left := by
    refine ⟨if c.s_state.manual = .None then 0 else c.s_state.manual_until_s - now, ?_, ?_, ?_⟩
    · change some (Json.num (if c.s_state.manual = .None then 0 else (c.s_state.manual_until_s - now : Int))) = _
      split <;> simp
    · split
      · omega
      · rename_i hm
        have := h.2.manual hm
        omega
    · change some (Json.str (manual_name c.s_state.manual)) = _ → _
      simp only [Option.some.injEq, Json.str.injEq, manual_none_iff]
      exact fun hm => if_pos hm
  times := by
    refine ⟨now - c.s_state.changed_s, if c.s_state.on then 0 else now - c.s_state.last_on_s, rfl, ?_, ?_, ?_⟩
    · change some (Json.num (if c.s_state.on then 0 else (now - c.s_state.last_on_s : Int))) = _
      split <;> simp
    · have := h.2.changed
      omega
    · have := h.2.last_on
      split <;> omega
  temp := by
    change (some (if c.s_state.have_temp then Json.num (celsius c.s_state.temp_x10) else .null) = _ ∧
      some (Json.num (if c.s_state.have_temp then now - c.s_state.temp_s else -1 : Int)) = _) ∨
        ∃ (x : Rat) (age : Int),
          some (if c.s_state.have_temp then Json.num (celsius c.s_state.temp_x10) else .null) = _ ∧
          some (Json.num (if c.s_state.have_temp then now - c.s_state.temp_s else -1 : Int)) = _ ∧ _
    cases ht : c.s_state.have_temp with
    | false => exact Or.inl ⟨rfl, rfl⟩
    | true =>
      obtain ⟨hlow, hhigh⟩ := reached_temp h.1 ht
      have hage := h.2.temp ht
      have hbounds : ((-55 : Int) : Rat) ≤ celsius c.s_state.temp_x10 ∧
          celsius c.s_state.temp_x10 ≤ ((125 : Int) : Rat) :=
        Api.celsius_between (by omega) (by omega)
      refine Or.inr ⟨celsius c.s_state.temp_x10, now - c.s_state.temp_s, rfl, rfl, ?_, ?_, by omega⟩
      · exact_mod_cast hbounds.1
      · exact_mod_cast hbounds.2
  thresholds := by
    refine ⟨celsius s.start_x10, celsius s.stop_x10, celsius s.critical_x10, rfl, rfl, rfl, ?_⟩
    have hmin : (200 : Rat) ≤ s.start_x10 := by exact_mod_cast hs.start_min
    have hmax : (s.start_x10 : Rat) ≤ 600 := by exact_mod_cast hs.start_max
    have hstop : (100 : Rat) ≤ s.stop_x10 := by exact_mod_cast hs.stop_min
    have hhyst : (s.stop_x10 : Rat) ≤ s.start_x10 - 20 := by exact_mod_cast hs.hysteresis
    have hmargin : (s.start_x10 : Rat) + 50 ≤ s.critical_x10 := by exact_mod_cast hs.margin
    have hcritical : (s.critical_x10 : Rat) ≤ 800 := by exact_mod_cast hs.critical_max
    unfold celsius
    refine ⟨?_, ?_, ?_, ?_, ?_, ?_⟩ <;> linarith

end Document

/-- Whatever the interleaving, every status document that any reader ever builds is consistent. -/
theorem documents_consistent (nvs : Nvs) (ring : EventRing) (boot : Int) (h : List Move) :
    ∀ doc ∈ (machineAfter nvs ring boot h).documents, Consistent doc := by
  intro doc hdoc
  obtain ⟨c, now, s, unix, system, hsnap, hs, rfl⟩ := (sound_run nvs ring boot h).documents doc hdoc
  exact honest_consistent hsnap hs unix system

theorem first_slot : (0 : UInt32) < EVENTS_RING_SIZE := by decide

def zeroedRing : EventRing where
  s_ring := Vector.replicate _
    { type := .EV_PUMP, mono_s := 0, on := false, reason := .AutoCold, has_temp := false, temp_x10 := 0 }
  s_head := 0
  s_count := 0
  head_lt := first_slot

/-- A reader copies, a whole pass comes in between, and the reader goes on. -/
def overtakenReader : List Move :=
  [.tick 6, .copy, .sample, .sensor ⟨⟨.ESP_OK, some 7, 1⟩, fun _ => ⟨.ESP_OK, 310⟩⟩, .lock, .decision ⟨false, 0⟩,
    .publish, .unlock, .history, .stamp 0, .send 0 (fun t => t) []]

theorem overtaken_reader_consistent :
    ∃ doc, (machineAfter .missing zeroedRing 0 overtakenReader).documents = [doc] ∧ Consistent doc ∧
      doc.field "pump" "on" = some (.bool false) ∧
      (machineAfter .missing zeroedRing 0 overtakenReader).task.control.relay = true := by
  have hsent : ∃ doc, (machineAfter .missing zeroedRing 0 overtakenReader).documents = [doc] := ⟨_, rfl⟩
  obtain ⟨doc, hdoc⟩ := hsent
  refine ⟨doc, hdoc, documents_consistent .missing zeroedRing 0 overtakenReader doc (by simp [hdoc]), ?_, rfl⟩
  obtain rfl : _ = doc := List.singleton_inj.mp hdoc
  rfl

end FloorHeating.Documents
