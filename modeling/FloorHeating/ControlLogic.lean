import FloorHeating.Code.ControlLogic
import Mathlib.Tactic.Common

/-!
# What the control logic does, field by field

One group of lemmas per function of `control_logic.c`. The other modules use
these and do not unfold the functions again.
-/

namespace FloorHeating

/-! ## `ctl_sensor` -/

def heatAfter (overheat : Bool) (cfg : CtlConfig) (t : Int) : Bool :=
  decide (cfg.critical_x10 ≤ t) || (overheat && !decide (t < cfg.critical_x10 - OVERHEAT_CLEAR_X10))

def hotAfter (hot : Bool) (cfg : CtlConfig) (t : Int) : Bool :=
  decide (cfg.start_x10 < t) || (hot && !decide (t < cfg.stop_x10))

theorem heatAfter_iff (overheat : Bool) (cfg : CtlConfig) (t : Int) :
    heatAfter overheat cfg t = true ↔
      cfg.critical_x10 ≤ t ∨ (¬ t < cfg.critical_x10 - 20 ∧ overheat = true) := by
  have hc : OVERHEAT_CLEAR_X10 = 20 := rfl
  simp [heatAfter, and_comm, ← hc]

theorem hotAfter_iff (hot : Bool) (cfg : CtlConfig) (t : Int) :
    hotAfter hot cfg t = true ↔ cfg.start_x10 < t ∨ (¬ t < cfg.stop_x10 ∧ hot = true) := by
  simp [hotAfter, and_comm]

def failuresAfter (n : UInt8) : UInt8 := if n < UINT8_MAX then n + 1 else n

theorem failuresAfter_toNat (n : UInt8) : (failuresAfter n).toNat = min 255 (n.toNat + 1) := by
  have hn := n.toNat_lt
  have hmax : UINT8_MAX.toNat = 255 := rfl
  unfold failuresAfter
  split
  · rename_i h
    rw [UInt8.lt_iff_toNat_lt, hmax] at h
    rw [UInt8.toNat_add]
    simp only [UInt8.reduceToNat]
    omega
  · rename_i h
    rw [UInt8.lt_iff_toNat_lt, hmax] at h
    omega

theorem ctl_sensor_failed (s : CtlState) (cfg : CtlConfig) (now t : Int) (res : CtlResult) :
    ctl_sensor s cfg now false t res =
      ({ s with
          failures := failuresAfter s.failures
          sensor_failed := s.sensor_failed || decide (cfg.sensor_fail_reads ≤ failuresAfter s.failures) },
        { res with
          sensor_failed := res.sensor_failed ||
            (!s.sensor_failed && decide (cfg.sensor_fail_reads ≤ failuresAfter s.failures)) }) := by
  obtain ⟨_, _, _, _, _, _, n, failed, _, _, _, _, _, _, _⟩ := s
  obtain ⟨_, _, _, _, _, _, _, _, _⟩ := res
  have hn : ∀ n : UInt8, (if n < UINT8_MAX then n + 1 else n) = failuresAfter n := fun _ => rfl
  unfold ctl_sensor read_failed
  simp only [if_true, hn]
  by_cases hr : cfg.sensor_fail_reads ≤ failuresAfter n <;> cases failed <;> simp [hr]

theorem update_overheat_eq (s : CtlState) (cfg : CtlConfig) (t : Int) (res : CtlResult) :
    update_overheat s cfg t res =
      ({ s with overheat := heatAfter s.overheat cfg t },
        { res with
          overheat_started := res.overheat_started || (!s.overheat && heatAfter s.overheat cfg t)
          overheat_ended := res.overheat_ended || (s.overheat && !heatAfter s.overheat cfg t) }) := by
  obtain ⟨_, _, _, _, _, _, _, _, overheat, _, _, _, _, _, _⟩ := s
  obtain ⟨_, _, _, _, _, _, _, _, _⟩ := res
  have hc : OVERHEAT_CLEAR_X10 = 20 := rfl
  unfold update_overheat heatAfter
  cases overheat <;> by_cases h1 : cfg.critical_x10 ≤ t
  · simp [h1]
  · simp [h1]
  · -- A reading at the critical threshold is not below the clear one.
    have h2 : ¬ t < cfg.critical_x10 - OVERHEAT_CLEAR_X10 := by omega
    simp [h1, h2]
  · by_cases h2 : t < cfg.critical_x10 - OVERHEAT_CLEAR_X10 <;> simp [h1, h2]

theorem update_hot_eq (s : CtlState) (cfg : CtlConfig) (t : Int) :
    update_hot s cfg t = { s with hot := hotAfter s.hot cfg t } := by
  unfold update_hot hotAfter
  by_cases h1 : cfg.start_x10 < t <;> by_cases h2 : t < cfg.stop_x10 <;> simp [h1, h2]

theorem ctl_sensor_valid (s : CtlState) (cfg : CtlConfig) (now t : Int) (res : CtlResult) :
    ctl_sensor s cfg now true t res =
      ({ s with
          sensor_failed := false
          failures := 0
          have_temp := true
          temp_x10 := t
          temp_s := now
          overheat := heatAfter s.overheat cfg t
          hot := hotAfter s.hot cfg t },
        { res with
          sensor_recovered := res.sensor_recovered || s.sensor_failed
          overheat_started := res.overheat_started || (!s.overheat && heatAfter s.overheat cfg t)
          overheat_ended := res.overheat_ended || (s.overheat && !heatAfter s.overheat cfg t) }) := by
  unfold ctl_sensor
  simp only [Bool.true_eq_false, if_false, update_overheat_eq, update_hot_eq]
  by_cases hf : s.sensor_failed = true <;> simp [hf]

section Sensor

variable (s : CtlState) (cfg : CtlConfig) (now : Int) (valid : Bool) (t : Int) (res : CtlResult)

/-- No read touches the pump, the override, the idle clock or the maintenance run. -/
theorem ctl_sensor_frame :
    ∃ failures failed have_temp temp temp_s overheat hot,
      (ctl_sensor s cfg now valid t res).1 =
        { s with
          failures := failures
          sensor_failed := failed
          have_temp := have_temp
          temp_x10 := temp
          temp_s := temp_s
          overheat := overheat
          hot := hot } := by
  cases valid with
  | false =>
    rw [ctl_sensor_failed]
    exact ⟨_, _, _, _, _, _, _, rfl⟩
  | true =>
    rw [ctl_sensor_valid]
    exact ⟨_, _, _, _, _, _, _, rfl⟩

@[simp] theorem ctl_sensor_on : (ctl_sensor s cfg now valid t res).1.on = s.on := by
  obtain ⟨_, _, _, _, _, _, _, h⟩ := ctl_sensor_frame s cfg now valid t res
  rw [h]

@[simp] theorem ctl_sensor_reason : (ctl_sensor s cfg now valid t res).1.reason = s.reason := by
  obtain ⟨_, _, _, _, _, _, _, h⟩ := ctl_sensor_frame s cfg now valid t res
  rw [h]

@[simp] theorem ctl_sensor_manual : (ctl_sensor s cfg now valid t res).1.manual = s.manual := by
  obtain ⟨_, _, _, _, _, _, _, h⟩ := ctl_sensor_frame s cfg now valid t res
  rw [h]

@[simp] theorem ctl_sensor_manual_until :
    (ctl_sensor s cfg now valid t res).1.manual_until_s = s.manual_until_s := by
  obtain ⟨_, _, _, _, _, _, _, h⟩ := ctl_sensor_frame s cfg now valid t res
  rw [h]

@[simp] theorem ctl_sensor_maintenance :
    (ctl_sensor s cfg now valid t res).1.maintenance = s.maintenance := by
  obtain ⟨_, _, _, _, _, _, _, h⟩ := ctl_sensor_frame s cfg now valid t res
  rw [h]

@[simp] theorem ctl_sensor_maintenance_until :
    (ctl_sensor s cfg now valid t res).1.maintenance_until_s = s.maintenance_until_s := by
  obtain ⟨_, _, _, _, _, _, _, h⟩ := ctl_sensor_frame s cfg now valid t res
  rw [h]

@[simp] theorem ctl_sensor_last_on : (ctl_sensor s cfg now valid t res).1.last_on_s = s.last_on_s := by
  obtain ⟨_, _, _, _, _, _, _, h⟩ := ctl_sensor_frame s cfg now valid t res
  rw [h]

end Sensor

/-! ## `ctl_manual` -/

def deadline (m : CtlManual) (d : UInt32) (now : Int) : Int :=
  if m = .None then 0 else now + d.toNat

theorem ctl_manual_accepted {s s' : CtlState} {m : CtlManual} {d : UInt32} {now : Int}
    (h : ctl_manual s m d now = some s') :
    ¬ (m = .Stop ∧ s.overheat = true) ∧
      s' = { s with manual := m, manual_until_s := deadline m d now } := by
  unfold ctl_manual at h
  split at h
  · cases h
  · rename_i hn
    exact ⟨hn, (Option.some.inj h).symm⟩

/-! ## `ctl_decide` -/

def manualAfter (s : CtlState) (now : Int) : CtlManual :=
  if s.manual_until_s ≤ now ∨ (s.manual = .Stop ∧ s.overheat = true) then .None else s.manual

theorem manualAfter_iff (s : CtlState) (now : Int) {m : CtlManual} (hm : m ≠ .None) :
    manualAfter s now = m ↔
      ¬ (s.manual_until_s ≤ now ∨ (m = .Stop ∧ s.overheat = true)) ∧ s.manual = m := by
  unfold manualAfter
  split <;> rename_i h
  · constructor
    · intro h0; exact absurd h0.symm hm
    · rintro ⟨hn, rfl⟩; exact absurd h hn
  · constructor
    · rintro rfl; exact ⟨h, rfl⟩
    · exact fun h => h.2

def stillRuns (s : CtlState) (now : Int) : Bool :=
  s.maintenance && decide (now < s.maintenance_until_s)

theorem stillRuns_iff (s : CtlState) (now : Int) :
    stillRuns s now = true ↔ s.maintenance = true ∧ now < s.maintenance_until_s := by
  rw [stillRuns, Bool.and_eq_true, decide_eq_true_eq]

def runDue (s : CtlState) (cfg : CtlConfig) (now : Int) : Bool :=
  decide (stillRuns s now = false ∧ s.on = false ∧ s.manual = .None ∧ s.sensor_failed = false ∧
    s.have_temp = true ∧ s.temp_x10 < cfg.stop_x10 ∧
    (cfg.maintenance_interval_s.toNat : Int) ≤ now - s.last_on_s)

def startsRun (s : CtlState) (cfg : CtlConfig) (now : Int) : Bool :=
  runDue { s with manual := manualAfter s now } cfg now

theorem expire_manual_eq (s : CtlState) (now : Int) (res : CtlResult) :
    expire_manual s now res =
      ({ s with manual := manualAfter s now },
        { res with
          manual_expired := res.manual_expired || decide (s.manual ≠ .None ∧ s.manual_until_s ≤ now)
          manual_cancelled := res.manual_cancelled ||
            decide (s.manual = .Stop ∧ s.overheat = true ∧ now < s.manual_until_s) }) := by
  obtain ⟨_, _, _, _, _, _, _, _, overheat, _, manual, til, _, _, _⟩ := s
  obtain ⟨_, _, _, _, _, _, _, _, _⟩ := res
  unfold expire_manual manualAfter
  by_cases ht : til ≤ now
  · have hn : ¬ now < til := by omega
    cases manual <;> cases overheat <;> simp [ht, hn]
  · have hn : now < til := by omega
    cases manual <;> cases overheat <;> simp [ht, hn]

theorem update_maintenance_eq (s : CtlState) (cfg : CtlConfig) (now : Int) (res : CtlResult) :
    update_maintenance s cfg now res =
      ({ s with
          last_on_s := if s.on then now else s.last_on_s
          maintenance := stillRuns s now || runDue s cfg now
          maintenance_until_s :=
            if runDue s cfg now then now + cfg.maintenance_run_s.toNat else s.maintenance_until_s },
        { res with maintenance_started := res.maintenance_started || runDue s cfg now }) := by
  obtain ⟨on, _, _, have_temp, temp, _, _, failed, _, _, manual, _, maintenance, til, last_on⟩ := s
  obtain ⟨_, _, _, _, _, _, _, _, _⟩ := res
  unfold update_maintenance runDue stillRuns
  by_cases hd : manual = .None ∧ failed = false ∧ have_temp = true ∧ temp < cfg.stop_x10 ∧
      (cfg.maintenance_interval_s.toNat : Int) ≤ now - last_on <;>
    by_cases ht : til ≤ now
  · have hn : ¬ now < til := by omega
    cases on <;> cases maintenance <;> simp [ht, hn, hd]
  · have hn : now < til := by omega
    cases on <;> cases maintenance <;> simp [ht, hn, hd]
  · have hn : ¬ now < til := by omega
    cases on <;> cases maintenance <;> simp [ht, hn, hd]
  · have hn : now < til := by omega
    cases on <;> cases maintenance <;> simp [ht, hn, hd]

theorem apply_choice_eq (s : CtlState) (now : Int) (on : Bool) (reason : CtlReason) (res : CtlResult) :
    apply_choice s now on reason res =
      ({ s with
          on := on
          reason := reason
          changed_s := if on = s.on then s.changed_s else now
          last_on_s := if on then now else s.last_on_s },
        { res with
          changed := res.changed || decide (on ≠ s.on)
          prev_reason := s.reason }) := by
  obtain ⟨was, _, _, _, _, _, _, _, _, _, _, _, _, _, _⟩ := s
  obtain ⟨_, _, _, _, _, _, _, _, _⟩ := res
  unfold apply_choice
  cases on <;> cases was <;> simp

/-! ### The whole decision -/

section Decide

variable (s : CtlState) (cfg : CtlConfig) (now : Int) (res : CtlResult)

/-- The state that the `if`/`else if` chain of `ctl_decide` looks at. -/
def beforeChoice : CtlState :=
  { s with
    manual := manualAfter s now
    last_on_s := if s.on then now else s.last_on_s
    maintenance := stillRuns s now || startsRun s cfg now
    maintenance_until_s :=
      if startsRun s cfg now then now + cfg.maintenance_run_s.toNat else s.maintenance_until_s }

theorem ctl_decide_eq :
    ctl_decide s cfg now res =
      let on := (choose (beforeChoice s cfg now)).1
      ({ beforeChoice s cfg now with
          on := on
          reason := (choose (beforeChoice s cfg now)).2
          changed_s := if on = s.on then s.changed_s else now
          last_on_s := if s.on || on then now else s.last_on_s },
        { res with
          changed := res.changed || decide (on ≠ s.on)
          prev_reason := s.reason
          manual_expired := res.manual_expired || decide (s.manual ≠ .None ∧ s.manual_until_s ≤ now)
          manual_cancelled := res.manual_cancelled ||
            decide (s.manual = .Stop ∧ s.overheat = true ∧ now < s.manual_until_s)
          maintenance_started := res.maintenance_started || startsRun s cfg now }) := by
  have hd : ctl_decide s cfg now res =
      apply_choice (beforeChoice s cfg now) now (choose (beforeChoice s cfg now)).1
        (choose (beforeChoice s cfg now)).2
        { res with
          manual_expired := res.manual_expired || decide (s.manual ≠ .None ∧ s.manual_until_s ≤ now)
          manual_cancelled := res.manual_cancelled ||
            decide (s.manual = .Stop ∧ s.overheat = true ∧ now < s.manual_until_s)
          maintenance_started := res.maintenance_started || startsRun s cfg now } := by
    unfold ctl_decide
    rw [expire_manual_eq]
    simp only [update_maintenance_eq]
    rfl
  rw [hd, apply_choice_eq]
  cases hon : s.on <;> cases hc : (choose (beforeChoice s cfg now)).1 <;> simp [beforeChoice, hon]

@[simp] theorem ctl_decide_manual : (ctl_decide s cfg now res).1.manual = manualAfter s now := by
  rw [ctl_decide_eq]; rfl

@[simp] theorem ctl_decide_manual_until :
    (ctl_decide s cfg now res).1.manual_until_s = s.manual_until_s := by
  rw [ctl_decide_eq]; rfl

@[simp] theorem ctl_decide_maintenance :
    (ctl_decide s cfg now res).1.maintenance = (stillRuns s now || startsRun s cfg now) := by
  rw [ctl_decide_eq]; rfl

@[simp] theorem ctl_decide_maintenance_until :
    (ctl_decide s cfg now res).1.maintenance_until_s =
      if startsRun s cfg now then now + cfg.maintenance_run_s.toNat else s.maintenance_until_s := by
  rw [ctl_decide_eq]; rfl

@[simp] theorem ctl_decide_overheat : (ctl_decide s cfg now res).1.overheat = s.overheat := by
  rw [ctl_decide_eq]; rfl

@[simp] theorem ctl_decide_hot : (ctl_decide s cfg now res).1.hot = s.hot := by
  rw [ctl_decide_eq]; rfl

@[simp] theorem ctl_decide_sensor_failed :
    (ctl_decide s cfg now res).1.sensor_failed = s.sensor_failed := by
  rw [ctl_decide_eq]; rfl

@[simp] theorem ctl_decide_failures : (ctl_decide s cfg now res).1.failures = s.failures := by
  rw [ctl_decide_eq]; rfl

@[simp] theorem ctl_decide_have_temp : (ctl_decide s cfg now res).1.have_temp = s.have_temp := by
  rw [ctl_decide_eq]; rfl

@[simp] theorem ctl_decide_temp_x10 : (ctl_decide s cfg now res).1.temp_x10 = s.temp_x10 := by
  rw [ctl_decide_eq]; rfl

@[simp] theorem ctl_decide_temp_s : (ctl_decide s cfg now res).1.temp_s = s.temp_s := by
  rw [ctl_decide_eq]; rfl

/-- After a decision the pump is what the rules pick for the state it left. -/
theorem ctl_decide_choice :
    choose (ctl_decide s cfg now res).1 =
      ((ctl_decide s cfg now res).1.on, (ctl_decide s cfg now res).1.reason) := by
  rw [ctl_decide_eq]; rfl

theorem ctl_decide_on : (choose (ctl_decide s cfg now res).1).1 = (ctl_decide s cfg now res).1.on := by
  rw [ctl_decide_choice]

theorem ctl_decide_reason :
    (choose (ctl_decide s cfg now res).1).2 = (ctl_decide s cfg now res).1.reason := by
  rw [ctl_decide_choice]

theorem ctl_decide_state : (ctl_decide s cfg now res).1 = (ctl_decide s cfg now {}).1 := by
  rw [ctl_decide_eq, ctl_decide_eq]

theorem ctl_decide_last_on :
    (ctl_decide s cfg now res).1.last_on_s =
      if s.on || (ctl_decide s cfg now res).1.on then now else s.last_on_s := by
  rw [ctl_decide_eq]

theorem ctl_decide_result :
    (ctl_decide s cfg now res).2 =
      { res with
        changed := res.changed || decide ((ctl_decide s cfg now res).1.on ≠ s.on)
        prev_reason := s.reason
        manual_expired := res.manual_expired || decide (s.manual ≠ .None ∧ s.manual_until_s ≤ now)
        manual_cancelled := res.manual_cancelled ||
          decide (s.manual = .Stop ∧ s.overheat = true ∧ now < s.manual_until_s)
        maintenance_started := res.maintenance_started || startsRun s cfg now } := by
  rw [ctl_decide_eq]

/-- A stop that is still there after a decision has its way. -/
theorem ctl_decide_stop (h : (ctl_decide s cfg now res).1.manual = .Stop) :
    (ctl_decide s cfg now res).1.on = false ∧ (ctl_decide s cfg now res).1.reason = .ManualOff ∧
      (ctl_decide s cfg now res).1.overheat = false := by
  have hc := ctl_decide_choice s cfg now res
  have ho : s.overheat = false := by
    rw [ctl_decide_manual, manualAfter_iff _ _ (by decide)] at h
    simpa using fun ho => h.1 (Or.inr ⟨rfl, ho⟩)
  rw [ctl_decide_overheat]
  simp only [choose, h, ctl_decide_overheat, ho] at hc
  simp only [Bool.false_eq_true, if_false, reduceCtorEq, if_true, Prod.mk.injEq] at hc
  exact ⟨hc.1.symm, hc.2.symm, ho⟩

end Decide

/-! ### The order of the rules -/

theorem choose_overheat {s : CtlState} (h : s.overheat = true) : choose s = (true, .Overheat) := by
  simp [choose, h]

theorem choose_off {s : CtlState} :
    (choose s).1 = false ↔
      s.overheat = false ∧ s.manual ≠ .Start ∧
        (s.manual = .Stop ∨ (s.sensor_failed = false ∧ s.hot = false ∧ s.maintenance = false)) := by
  obtain ⟨_, _, _, _, _, _, _, failed, overheat, hot, manual, _, maintenance, _, _⟩ := s
  unfold choose
  cases overheat <;> cases manual <;> cases failed <;> cases hot <;> cases maintenance <;> simp

/-! ### Maintenance -/

theorem startsRun_iff (s : CtlState) (cfg : CtlConfig) (now : Int) :
    startsRun s cfg now = true ↔
      stillRuns s now = false ∧ s.on = false ∧ manualAfter s now = .None ∧ s.sensor_failed = false ∧
        s.have_temp = true ∧ s.temp_x10 < cfg.stop_x10 ∧
        (cfg.maintenance_interval_s.toNat : Int) ≤ now - s.last_on_s := by
  simp only [startsRun, runDue, decide_eq_true_eq]
  rfl

theorem start_switches_on (s : CtlState) (cfg : CtlConfig) (now : Int) (res : CtlResult)
    (hs : startsRun s cfg now = true) : (ctl_decide s cfg now res).1.on = true := by
  obtain ⟨-, -, hm, -⟩ := (startsRun_iff s cfg now).mp hs
  by_contra hoff
  rw [Bool.not_eq_true] at hoff
  obtain ⟨-, -, hstop⟩ := choose_off.mp ((ctl_decide_on s cfg now res).trans hoff)
  simp [hm, hs] at hstop

theorem off_no_start {s : CtlState} {cfg : CtlConfig} {now : Int} {res : CtlResult}
    (hoff : (ctl_decide s cfg now res).1.on = false) : startsRun s cfg now = false := by
  rw [Bool.eq_false_iff]
  intro hs
  rw [start_switches_on s cfg now res hs] at hoff
  cases hoff

/-- A run that a decision leaves has its end ahead, whether it was just started or goes on. -/
theorem maintenance_ahead {s : CtlState} {cfg : CtlConfig} {now : Int} {res : CtlResult}
    (hR : 0 < cfg.maintenance_run_s) (hm : (ctl_decide s cfg now res).1.maintenance = true) :
    now < (ctl_decide s cfg now res).1.maintenance_until_s := by
  rw [UInt32.lt_iff_toNat_lt, UInt32.toNat_zero] at hR
  rw [ctl_decide_maintenance_until]
  split
  · omega
  · rename_i hs
    rw [Bool.not_eq_true] at hs
    rw [ctl_decide_maintenance, hs, Bool.or_false, stillRuns_iff] at hm
    exact hm.2

theorem choose_reason_overheat {s : CtlState} (h : (choose s).2 = .Overheat) : s.overheat = true := by
  by_contra ho
  simp only [choose, ho, if_false] at h
  repeat' split at h
  all_goals cases h

theorem choose_maintenance {s : CtlState} (h : (choose s).2 = .Maintenance) : s.maintenance = true := by
  by_contra hm
  simp only [choose, hm, if_false] at h
  repeat' split at h
  all_goals cases h

/-! ### Automatic control -/

theorem choose_auto {s : CtlState} (hm : s.manual = .None) :
    (choose s).1 = true ↔
      s.overheat = true ∨ s.sensor_failed = true ∨ s.hot = true ∨ s.maintenance = true := by
  have hoff := @choose_off s
  simp only [hm, ne_eq, reduceCtorEq, not_false_eq_true, true_and, false_or] at hoff
  rw [← Bool.not_eq_false, hoff]
  simp only [not_and_or, Bool.not_eq_false]

theorem auto_on {s : CtlState} {cfg : CtlConfig} {now : Int} {res : CtlResult} (hm : s.manual = .None) :
    (ctl_decide s cfg now res).1.on = true ↔
      s.overheat = true ∨ s.sensor_failed = true ∨ s.hot = true ∨
        (ctl_decide s cfg now res).1.maintenance = true := by
  have hm' : (ctl_decide s cfg now res).1.manual = .None := by
    rw [ctl_decide_manual, manualAfter, hm]
    exact ite_self _
  rw [← ctl_decide_on, choose_auto hm', ctl_decide_overheat, ctl_decide_sensor_failed, ctl_decide_hot]

end FloorHeating
