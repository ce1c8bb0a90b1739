import FloorHeating.Commands
import FloorHeating.Spec.Thresholds
import FloorHeating.Spec.Timing
import FloorHeating.TimeAxis

/-!
# The pump is never off for long without a reading

A pass ends before the next read is due, and waits at most two seconds. So the
age of the last reading is known from the number of failures since.
-/

open FloorHeating.Lib FloorHeating.Control FloorHeating.TaskRun

namespace FloorHeating.Timing

/-! ## One section -/

theorem decide_sensor (s : CtlState) (cfg : CtlConfig) (now : Int) (res : CtlResult) :
    (ctl_decide s cfg now res).1.failures = s.failures ∧ (ctl_decide s cfg now res).1.have_temp = s.have_temp ∧
      (ctl_decide s cfg now res).1.temp_s = s.temp_s := by
  simp

theorem command_frame (c : Control) (settings : Settings) (date : LocalDate) (now : Int) (m : CtlManual)
    (d : UInt32) (who : String) :
    let c' := (control_manual c settings date now m d who).1
    c'.s_state.failures = c.s_state.failures ∧ c'.s_state.have_temp = c.s_state.have_temp ∧
      c'.s_state.temp_s = c.s_state.temp_s ∧ c'.s_heartbeat_s = c.s_heartbeat_s := by
  unfold control_manual
  dsimp only
  split
  · exact ⟨rfl, rfl, rfl, rfl⟩
  · rename_i s hs
    obtain ⟨-, rfl⟩ := ctl_manual_accepted hs
    rw [decide_locked_eq]
    simp [decision]

theorem task_heartbeat (c : Control) (fs st : Settings) (date : LocalDate) (now : Int) (read : Option (Option Int)) :
    ((Section.task fs st date now read).exec c).s_heartbeat_s = now := rfl

theorem task_idle (c : Control) (fs st : Settings) (date : LocalDate) (now : Int) :
    let c' := task_locked c fs st date now none
    c'.s_state.failures = c.s_state.failures ∧ c'.s_state.have_temp = c.s_state.have_temp ∧
      c'.s_state.temp_s = c.s_state.temp_s := by
  have hs := exec_step c (.task fs st date now none)
  change (task_locked c fs st date now none).s_state =
    (ctl_decide c.s_state (config_from_settings st) now {}).1 at hs
  dsimp only
  rw [hs]
  exact decide_sensor ..

theorem task_failed (c : Control) (fs st : Settings) (date : LocalDate) (now : Int) :
    let c' := task_locked c fs st date now (some none)
    c'.s_state.failures = failuresAfter c.s_state.failures ∧ c'.s_state.have_temp = c.s_state.have_temp ∧
      c'.s_state.temp_s = c.s_state.temp_s := by
  have hs := exec_step c (.task fs st date now (some none))
  change (task_locked c fs st date now (some none)).s_state =
    (ctl_decide (ctl_sensor c.s_state (config_from_settings fs) now false 0 {}).1 (config_from_settings st) now
      {}).1 at hs
  dsimp only
  rw [hs, ctl_sensor_failed]
  exact decide_sensor ..

theorem task_valid (c : Control) (fs st : Settings) (date : LocalDate) (now temp_x10 : Int) :
    let c' := task_locked c fs st date now (some (some temp_x10))
    c'.s_state.failures = 0 ∧ c'.s_state.have_temp = true ∧ c'.s_state.temp_s = now := by
  have hs := exec_step c (.task fs st date now (some (some temp_x10)))
  change (task_locked c fs st date now (some (some temp_x10))).s_state =
    (ctl_decide (ctl_sensor c.s_state (config_from_settings fs) now true temp_x10 {}).1 (config_from_settings st)
      now {}).1 at hs
  dsimp only
  rw [hs, ctl_sensor_valid]
  exact decide_sensor ..

/-! ## One turn -/

section Turn

variable {t : Task} {p : Pass} {first b : Int}

theorem pass_section (t : Task) (p : Pass) :
    (Turn.exec t (.pass p)).control = (passSection t p).exec t.control :=
  congrArg Task.control (control_task_eq t p)

theorem pass_heartbeat (hidle : ¬ t.reads p → p.read_s = p.top_s) :
    (Turn.exec t (.pass p)).control.s_heartbeat_s = p.read_s := by
  rw [pass_section, passSection]
  by_cases hr : t.reads p
  · rw [if_pos hr, task_heartbeat]
  · rw [if_neg hr, task_heartbeat, hidle hr]

/-- One read more: a failure is counted, and a valid reading starts the count again. -/
theorem read_seen (first : Int) (hr : t.reads p) :
    let t' := Turn.exec t (.pass p)
    (p.reading = none ∧ t'.control.s_state.failures = failuresAfter t.control.s_state.failures ∧
      t'.lastSeen first = t.lastSeen first) ∨
    (t'.control.s_state.failures = 0 ∧ t'.lastSeen first = p.read_s) := by
  dsimp only
  unfold Task.lastSeen
  rw [pass_section, passSection, if_pos hr]
  cases hreading : p.reading with
  | none =>
    obtain ⟨hfail, htemp, hseen⟩ := task_failed t.control p.for_sensor p.settings p.date p.read_s
    refine Or.inl ⟨rfl, hfail, ?_⟩
    change (if (task_locked t.control p.for_sensor p.settings p.date p.read_s (some none)).s_state.have_temp then _
      else _) = _
    rw [htemp]
    exact congrArg (ite _ · _) hseen
  | some temp_x10 =>
    obtain ⟨hfail, htemp, hseen⟩ := task_valid t.control p.for_sensor p.settings p.date p.read_s temp_x10.toInt
    refine Or.inr ⟨hfail, ?_⟩
    change (if (task_locked t.control p.for_sensor p.settings p.date p.read_s
      (some (some temp_x10.toInt))).s_state.have_temp then _ else _) = _
    rw [if_pos htemp]
    exact hseen

theorem idle_seen (first : Int) (hr : ¬ t.reads p) :
    let t' := Turn.exec t (.pass p)
    t'.control.s_state.failures = t.control.s_state.failures ∧ t'.lastSeen first = t.lastSeen first := by
  dsimp only
  unfold Task.lastSeen
  rw [pass_section, passSection, if_neg hr]
  obtain ⟨hfail, htemp, hseen⟩ := task_idle t.control p.for_sensor p.settings p.date p.top_s
  refine ⟨hfail, ?_⟩
  change (if (task_locked t.control p.for_sensor p.settings p.date p.top_s none).s_state.have_temp then _
    else _) = _
  rw [htemp]
  exact congrArg (ite _ · _) hseen

theorem onTime_pass (h : OnTime t first b) (hwait : b ≤ p.top_s ∧ p.top_s ≤ b + 2)
    (hread : p.top_s ≤ p.read_s ∧ p.read_s ≤ p.top_s + 1) (hidle : ¬ t.reads p → p.read_s = p.top_s) :
    OnTime (Turn.exec t (.pass p)) first p.read_s := by
  have hdue := h.due
  have hbeat := pass_heartbeat hidle
  by_cases hr : t.reads p
  · refine ⟨?_, ?_, hbeat⟩
    · rw [pass_next_read, if_pos hr]
      omega
    · rw [pass_next_read, if_pos hr]
      rcases read_seen first hr with ⟨-, hfail, hseen⟩ | ⟨hfail, hseen⟩
      · rw [hfail, hseen, failuresAfter_toNat]
        intro hmax
        have hnext := h.next (by omega)
        omega
      · rw [hfail, hseen]
        intro _
        have h0 : (0 : UInt8).toNat = 0 := rfl
        omega
  · obtain ⟨hfail, hseen⟩ := idle_seen first hr
    have hidle := hidle hr
    refine ⟨?_, ?_, hbeat⟩
    · rw [pass_next_read, if_neg hr]
      unfold Task.reads at hr
      omega
    · rw [pass_next_read, if_neg hr, hfail, hseen]
      exact h.next

theorem onTime_command (h : OnTime t first b) (settings : Settings) (date : LocalDate) (now : Int) (m : CtlManual)
    (d : UInt32) (who : String) : OnTime (Turn.exec t (.command settings date now m d who)) first b := by
  obtain ⟨hfail, htemp, hseen, hbeat⟩ := command_frame t.control settings date now m d who
  refine ⟨h.due, ?_, hbeat.trans h.heartbeat⟩
  have hnext := h.next
  unfold Task.lastSeen Turn.exec at *
  dsimp only
  rw [hfail, htemp, hseen]
  exact hnext

end Turn

/-! ## Runs -/

theorem onTime_run {t : Task} {first b : Int} {l : List Turn} (h : OnTime t first b) (hc : ClockedFrom t (some b) l) :
    ∀ b' ∈ lastEnd (some b) l, OnTime (run Turn.exec t l) first b' := by
  induction l generalizing t b with
  | nil =>
    rintro b' hb
    obtain rfl : b = b' := Option.some.inj hb
    exact h
  | cons x l ih =>
    cases x with
    | command settings date now m d who => exact ih (onTime_command h settings date now m d who) hc
    | pass p =>
      obtain ⟨hwait, hlow, hhigh, hidle, hc⟩ := hc
      exact ih (onTime_pass h (hwait b rfl) ⟨hlow, hhigh⟩ hidle) hc

structure Waiting (t : Task) : Prop where
  next : t.next_read_s = 0
  failures : t.control.s_state.failures = 0
  temp : t.control.s_state.have_temp = false

theorem waiting_start (boot : Int) : Waiting (task_start boot) := ⟨rfl, rfl, rfl⟩

theorem onTime_first {t : Task} {p : Pass} (h : Waiting t) (h0 : 0 ≤ p.top_s)
    (hread : p.top_s ≤ p.read_s ∧ p.read_s ≤ p.top_s + 1) : OnTime (Turn.exec t (.pass p)) p.top_s p.read_s := by
  have hr : t.reads p := by
    unfold Task.reads
    rw [h.next]
    exact h0
  have hlast : t.lastSeen p.top_s = p.top_s - 6 := by
    unfold Task.lastSeen
    rw [h.temp]
    rfl
  refine ⟨?_, ?_, pass_heartbeat fun hn => absurd hr hn⟩
  · rw [pass_next_read, if_pos hr]
    omega
  · rw [pass_next_read, if_pos hr]
    have h0 : (0 : UInt8).toNat = 0 := rfl
    rcases read_seen p.top_s hr with ⟨-, hfail, hseen⟩ | ⟨hfail, hseen⟩
    · rw [hfail, hseen, hlast, failuresAfter_toNat, h.failures]
      omega
    · rw [hfail, hseen]
      omega

theorem onTime_start {t : Task} {first : Int} {l : List Turn} (h : Waiting t) (hc : ClockedFrom t none l)
    (hfirst : first ∈ firstTop l) (h0 : 0 ≤ first) : ∀ b ∈ lastEnd none l, OnTime (run Turn.exec t l) first b := by
  induction l generalizing t with
  | nil => cases hfirst
  | cons x l ih =>
    cases x with
    | command settings date now m d who =>
      obtain ⟨hfail, htemp, -, -⟩ := command_frame t.control settings date now m d who
      exact ih (t := Turn.exec t (.command settings date now m d who))
        ⟨h.next, hfail.trans h.failures, htemp.trans h.temp⟩ hc hfirst
    | pass p =>
      obtain rfl : p.top_s = first := Option.some.inj hfirst
      obtain ⟨-, hlow, hhigh, -, hc⟩ := hc
      exact onTime_run (onTime_first h h0 ⟨hlow, hhigh⟩) hc

/-- Less than three failures leave no room for an old reading. -/
theorem onTime_age {t : Task} {first b : Int} (h : OnTime t first b) (hfail : t.control.s_state.failures.toNat < 3) :
    b ≤ t.lastSeen first + 6 * t.control.s_state.failures.toNat + 4 := by
  have hdue := h.due
  have hnext := h.next (by omega)
  omega

/-- At the end of every pass, and until the next one: the heartbeat is the last pass, a reading without
a failure after it is at most 4 s old, and the pump is off only with a reading of the last 16 s, by an
accepted stop, or in the first seconds of the task. -/
theorem never_off_blind {boot first b : Int} {l : List Turn} (hc : Clocked boot l) (hfirst : first ∈ firstTop l)
    (h0 : 0 ≤ first) (hb : b ∈ lastEnd none l) :
    let c := (taskAfter boot l).control
    (∀ T, control_alive (control_status c T) = true ↔ T ≤ b + 15) ∧
      (c.s_state.have_temp = true → c.s_state.failures = 0 → b ≤ c.s_state.temp_s + 4) ∧
      (c.s_state.on = false →
        (c.s_state.manual = .Stop ∧ Since (SetsOverride boot .Stop c.s_state.manual_until_s) (AcceptedCommand boot)
            (sectionsFrom (task_start boot) l)) ∨
          (c.s_state.have_temp = true ∧ b ≤ c.s_state.temp_s + 16) ∨
          (c.s_state.have_temp = false ∧ b ≤ first + 10)) := by
  have hon : OnTime (taskAfter boot l) first b := onTime_start (waiting_start boot) hc hfirst h0 b hb
  have hage := onTime_age hon
  unfold Task.lastSeen at hage
  have hsettled := settled_eq boot (sectionsFrom (task_start boot) l)
  have hfailed := failed_eq boot (sectionsFrom (task_start boot) l)
  have hset := Commands.override_set boot (sectionsFrom (task_start boot) l)
  rw [← taskAfter_control] at hsettled hfailed hset
  dsimp only
  refine ⟨fun T => ?_, fun htemp hfail => ?_, fun hoff => ?_⟩
  · have hbeat := hon.heartbeat
    simp only [control_alive, control_status, CONTROL_READ_PERIOD_S, hbeat, decide_eq_true_eq]
    omega
  · have hzero : (taskAfter boot l).control.s_state.failures.toNat = 0 := by rw [hfail]; rfl
    rw [if_pos htemp, hzero] at hage
    have := hage (by decide)
    omega
  · have hchoose : (choose (taskAfter boot l).control.s_state).1 = false := (congrArg Prod.fst hsettled).trans hoff
    obtain ⟨-, -, hstop | ⟨hworks, -⟩⟩ := choose_off.mp hchoose
    · rw [hstop] at hset
      exact Or.inl ⟨hstop, hset (by decide)⟩
    · rw [hworks, eq_comm, decide_eq_false_iff_not] at hfailed
      have hage := hage (by omega)
      cases htemp : (taskAfter boot l).control.s_state.have_temp with
      | true =>
        rw [if_pos htemp] at hage
        exact Or.inr (Or.inl ⟨rfl, by omega⟩)
      | false =>
        rw [htemp, if_neg Bool.false_ne_true] at hage
        exact Or.inr (Or.inr ⟨rfl, by omega⟩)

def blindPasses : List Pass :=
  [0, 2, 4, 6, 8, 10, 12, 14, 16].map fun (now : Int) =>
    { top_s := now, read_s := now, reading := if now = 0 then some 215 else none, for_sensor := default_settings
      settings := default_settings, date := ⟨false, 0⟩ }

theorem never_off_blind_at_sixteen :
    let c := (taskAfter 0 (blindPasses.map .pass)).control
    c.s_state.on = false ∧ c.s_state.temp_s = 0 ∧
      (c.s_state.manual = .Stop ∨ (c.s_state.have_temp = true ∧ 16 ≤ c.s_state.temp_s + 16) ∨
        (c.s_state.have_temp = false ∧ (16 : Int) ≤ 0 + 10)) := by
  have hc : Clocked 0 (blindPasses.map .pass) := TimeAxis.clockedFrom_of (task_start 0) none blindPasses (by decide)
  have hfirst : (0 : Int) ∈ firstTop (blindPasses.map .pass) := rfl
  have hend : (16 : Int) ∈ lastEnd none (blindPasses.map .pass) := rfl
  obtain ⟨-, -, hoff⟩ := never_off_blind hc hfirst (by decide) hend
  exact ⟨rfl, rfl, (hoff rfl).imp_left And.left⟩

/-! ## How fast it reacts -/

section React

variable {Q : Task → Prop} {R : Pass → Prop} {T : Int}

/-- What every read since `T` brings about and no other turn undoes, holds at the end of every pass four
seconds later. -/
theorem since_read (hread : ∀ t p, t.reads p → R p → Q (Turn.exec t (.pass p)))
    (hkeep : ∀ t x, (∀ p, x = .pass p → ¬ t.reads p) → Q t → Q (Turn.exec t x)) {t : Task} {last : Option Int}
    {l : List Turn} (hdue : ∀ b ∈ last, b < t.next_read_s) (hbefore : T + 5 ≤ t.next_read_s → Q t)
    (hc : ClockedFrom t last l) (hl : ∀ p, .pass p ∈ l → T ≤ p.top_s → R p) :
    ∀ b ∈ lastEnd last l, T + 4 ≤ b → Q (run Turn.exec t l) := by
  induction l generalizing t last with
  | nil =>
    intro b hb hlate
    have := hdue b hb
    exact hbefore (by omega)
  | cons x l ih =>
    have hrest : ∀ p, .pass p ∈ l → T ≤ p.top_s → R p := fun p hp => hl p (List.mem_cons_of_mem x hp)
    cases x with
    | command settings date now m d who =>
      have hquiet : ∀ p, Turn.command settings date now m d who = .pass p → ¬ t.reads p := fun p hp => by cases hp
      exact ih (t := Turn.exec t (.command settings date now m d who)) hdue
        (fun h => hkeep t _ hquiet (hbefore h)) hc hrest
    | pass p =>
      obtain ⟨hwait, hlow, hhigh, hidle, hc⟩ := hc
      refine ih ?_ ?_ hc hrest
      · intro b hb
        obtain rfl : p.read_s = b := Option.some.inj hb
        rw [pass_next_read]
        split
        · omega
        · rename_i hr
          have hsame := hidle hr
          unfold Task.reads at hr
          omega
      · rw [pass_next_read]
        split
        · rename_i hr
          exact fun h => hread t p hr (hl p List.mem_cons_self (by omega))
        · rename_i hr
          refine fun h => hkeep t _ (fun p' hp => ?_) (hbefore h)
          cases hp
          exact hr

end React

section Flags

variable {t : Task} {p : Pass}

theorem read_flags (hr : t.reads p) {x : Int16} (hx : p.reading = some x) :
    let s := (Turn.exec t (.pass p)).control.s_state
    s.hot = hotAfter t.control.s_state.hot (config_from_settings p.for_sensor) x.toInt ∧
      s.overheat = heatAfter t.control.s_state.overheat (config_from_settings p.for_sensor) x.toInt ∧
      s.sensor_failed = false := by
  have hs := exec_step t.control (.task p.for_sensor p.settings p.date p.read_s (some (some x.toInt)))
  change (task_locked t.control p.for_sensor p.settings p.date p.read_s (some (some x.toInt))).s_state =
    (ctl_decide (ctl_sensor t.control.s_state (config_from_settings p.for_sensor) p.read_s true x.toInt {}).1
      (config_from_settings p.settings) p.read_s {}).1 at hs
  dsimp only
  rw [pass_section, passSection, if_pos hr, hx, Option.map_some]
  change (task_locked t.control p.for_sensor p.settings p.date p.read_s (some (some x.toInt))).s_state.hot = _ ∧
    (task_locked t.control p.for_sensor p.settings p.date p.read_s (some (some x.toInt))).s_state.overheat = _ ∧
    (task_locked t.control p.for_sensor p.settings p.date p.read_s (some (some x.toInt))).s_state.sensor_failed = false
  rw [hs, ctl_sensor_valid]
  simp

theorem quiet_flags {x : Turn} (hquiet : ∀ p, x = .pass p → ¬ t.reads p) :
    let s := (Turn.exec t x).control.s_state
    s.hot = t.control.s_state.hot ∧ s.overheat = t.control.s_state.overheat ∧
      s.sensor_failed = t.control.s_state.sensor_failed := by
  dsimp only
  rw [turn_control]
  cases hs : (turnSection t x).seen t.control with
  | none =>
    rw [exec_refused hs]
    exact ⟨rfl, rfl, rfl⟩
  | some s =>
    rw [exec_s_state hs]
    simp only [decisionOf, ctl_decide_hot, ctl_decide_overheat, ctl_decide_sensor_failed]
    cases x with
    | pass p =>
      rw [turnSection, passSection, if_neg (hquiet p rfl)] at hs
      cases hs
      exact ⟨rfl, rfl, rfl⟩
    | command settings date now m d who =>
      obtain ⟨-, rfl⟩ := ctl_manual_accepted hs
      exact ⟨rfl, rfl, rfl⟩

end Flags

section Since

variable {boot T b : Int} {l : List Turn} (hc : Clocked boot l) (hT : 0 ≤ T) (hb : b ∈ lastEnd none l)
  (hlate : T + 4 ≤ b)

include hc hT hb hlate

theorem heat_since (hheat : ∀ p, .pass p ∈ l → T ≤ p.top_s → ∃ x ∈ p.reading, p.for_sensor.critical_x10 ≤ x.toInt) :
    (taskAfter boot l).control.s_state.overheat = true := by
  have hzero : (task_start boot).next_read_s = 0 := rfl
  refine since_read (Q := fun t => t.control.s_state.overheat = true)
    (R := fun p => ∃ x ∈ p.reading, p.for_sensor.critical_x10 ≤ x.toInt) ?_ ?_ (by simp) (by omega) hc hheat b hb hlate
  · rintro t p hr ⟨x, hx, hle⟩
    rw [(read_flags hr hx).2.1, heatAfter_iff]
    exact Or.inl hle
  · intro t x hquiet hover
    rw [(quiet_flags hquiet).2.1]
    exact hover

theorem cold_since
    (hcold : ∀ p, .pass p ∈ l → T ≤ p.top_s → p.for_sensor.Sane ∧ ∃ x ∈ p.reading, x.toInt < p.for_sensor.stop_x10) :
    let s := (taskAfter boot l).control.s_state
    s.hot = false ∧ s.overheat = false ∧ s.sensor_failed = false := by
  have hzero : (task_start boot).next_read_s = 0 := rfl
  refine since_read (Q := fun t => t.control.s_state.hot = false ∧ t.control.s_state.overheat = false ∧
      t.control.s_state.sensor_failed = false)
    (R := fun p => p.for_sensor.Sane ∧ ∃ x ∈ p.reading, x.toInt < p.for_sensor.stop_x10) ?_ ?_ (by simp) (by omega)
    hc hcold b hb hlate
  · rintro t p hr ⟨hsane, x, hx, hlt⟩
    obtain ⟨hhot, hover, hworks⟩ := read_flags hr hx
    have hhyst := hsane.hysteresis
    have hmargin := hsane.margin
    refine ⟨hhot.trans ?_, hover.trans ?_, hworks⟩
    · rw [← Bool.not_eq_true, hotAfter_iff]
      change ¬ (p.for_sensor.start_x10 < x.toInt ∨ (¬ x.toInt < p.for_sensor.stop_x10 ∧ _))
      omega
    · rw [← Bool.not_eq_true, heatAfter_iff]
      change ¬ (p.for_sensor.critical_x10 ≤ x.toInt ∨ (¬ x.toInt < p.for_sensor.critical_x10 - 20 ∧ _))
      omega
  · rintro t x hquiet ⟨hhot, hover, hworks⟩
    obtain ⟨hhot', hover', hworks'⟩ := quiet_flags hquiet
    exact ⟨hhot'.trans hhot, hover'.trans hover, hworks'.trans hworks⟩

end Since

/-- Four seconds after the water got hot, or cold, the pump does what that calls for: at too much heat it
runs whatever anybody orders, and below the stop threshold it rests unless it is started by hand or has its
maintenance run. -/
theorem reacts_in_four_seconds {boot T b : Int} {l : List Turn} (hc : Clocked boot l) (hT : 0 ≤ T)
    (hb : b ∈ lastEnd none l) (hlate : T + 4 ≤ b) :
    let c := (taskAfter boot l).control
    ((∀ p, .pass p ∈ l → T ≤ p.top_s → ∃ x ∈ p.reading, p.for_sensor.critical_x10 ≤ x.toInt) →
        c.s_state.on = true ∧ c.s_state.reason = .Overheat ∧ c.relay = true ∧ c.s_state.manual ≠ .Stop) ∧
      ((∀ p, .pass p ∈ l → T ≤ p.top_s → p.for_sensor.Sane ∧ ∃ x ∈ p.reading, x.toInt < p.for_sensor.stop_x10) →
        c.s_state.on = decide (c.s_state.manual = .Start ∨
          (c.s_state.manual = .None ∧ c.s_state.maintenance = true))) := by
  have hsettled := settled_eq boot (sectionsFrom (task_start boot) l)
  have hfaithful := Account.faithful_run boot (sectionsFrom (task_start boot) l)
  rw [← taskAfter_control] at hsettled hfaithful
  dsimp only
  constructor
  · intro hheat
    have hover := heat_since hc hT hb hlate hheat
    rw [choose_overheat hover] at hsettled
    obtain ⟨hon, hreason⟩ := Prod.mk.inj hsettled
    refine ⟨hon.symm, hreason.symm, hfaithful.relay.trans hon.symm, fun hstop => ?_⟩
    rw [(hfaithful.stop hstop).2.2] at hover
    cases hover
  · intro hcold
    obtain ⟨hhot, hover, hworks⟩ := cold_since hc hT hb hlate hcold
    have hon : (choose (taskAfter boot l).control.s_state).1 = (taskAfter boot l).control.s_state.on :=
      congrArg Prod.fst hsettled
    refine hon.symm.trans ?_
    unfold choose
    rw [hhot, hover, hworks]
    cases (taskAfter boot l).control.s_state.manual <;> cases (taskAfter boot l).control.s_state.maintenance <;> rfl

def boilingPasses : List Pass :=
  [0, 2, 4].map fun (now : Int) =>
    { top_s := now, read_s := now, reading := some 900, for_sensor := default_settings, settings := default_settings
      date := ⟨false, 0⟩ }

theorem boiling_at_four : (taskAfter 0 (boilingPasses.map .pass)).control.relay = true := by
  have hc : Clocked 0 (boilingPasses.map .pass) := TimeAxis.clockedFrom_of (task_start 0) none boilingPasses (by decide)
  have hend : (4 : Int) ∈ lastEnd none (boilingPasses.map .pass) := rfl
  refine ((reacts_in_four_seconds hc (le_refl 0) hend (le_refl 4)).1 fun p hp _ => ?_).2.2.1
  simp only [boilingPasses, List.map_cons, List.map_nil, List.mem_cons, List.not_mem_nil, or_false,
    Turn.pass.injEq] at hp
  rcases hp with rfl | rfl | rfl <;> exact ⟨900, rfl, by decide⟩

end FloorHeating.Timing
