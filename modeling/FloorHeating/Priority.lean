import FloorHeating.ControlLogic
import FloorHeating.Spec.History

/-! # The latches and timers say what the history says -/

open FloorHeating.Lib

namespace FloorHeating.Priority

variable (boot : Int)

@[simp] theorem after_nil : after boot [] = ctl_init boot := rfl

@[simp] theorem after_snoc (h : List Call) (a : Call) : after boot (h ++ [a]) = a.apply (after boot h) :=
  run_snoc ..

theorem apply_manual (s : CtlState) (m : CtlManual) (d : UInt32) (now : Int) :
    Call.apply s (.manual m d now) =
      { s with
        manual := if m = .Stop ∧ s.overheat = true then s.manual else m
        manual_until_s := if m = .Stop ∧ s.overheat = true then s.manual_until_s else deadline m d now } := by
  simp only [Call.apply, ctl_manual]
  split <;> rfl

/-! ## Overheat and hysteresis -/

theorem overheat_iff (h : List Call) : (after boot h).overheat = true ↔ Overheated h := by
  apply latch_iff_since (fun h => (after boot h).overheat = true)
  · simp [ctl_init]
  · intro h a
    rw [after_snoc]
    cases a with
    | sensor cfg now valid t =>
      cases valid with
      | false => simp [Call.apply, ctl_sensor_failed, Call.AtCritical, Call.BelowClear]
      | true =>
        simp only [Call.apply, ctl_sensor_valid, heatAfter_iff, Call.AtCritical, Call.BelowClear]
    | manual m d now =>
      simp [apply_manual, Call.AtCritical, Call.BelowClear]
    | decide cfg now => simp [Call.apply, Call.AtCritical, Call.BelowClear]

theorem hot_iff (h : List Call) : (after boot h).hot = true ↔ Hot h := by
  apply latch_iff_since (fun h => (after boot h).hot = true)
  · simp [ctl_init]
  · intro h a
    rw [after_snoc]
    cases a with
    | sensor cfg now valid t =>
      cases valid with
      | false => simp [Call.apply, ctl_sensor_failed, Call.AboveStart, Call.BelowStop]
      | true =>
        simp only [Call.apply, ctl_sensor_valid, hotAfter_iff, Call.AboveStart, Call.BelowStop]
    | manual m d now =>
      simp [apply_manual, Call.AboveStart, Call.BelowStop]
    | decide cfg now => simp [Call.apply, Call.AboveStart, Call.BelowStop]

/-! ## The command -/

theorem accepted_iff (h : List Call) (m : CtlManual) (d : UInt32) (now : Int) :
    Accepted h (.manual m d now) ↔ ¬ (m = .Stop ∧ (after boot h).overheat = true) := by
  rw [overheat_iff]; rfl

theorem command_iff (m : CtlManual) (hm : m ≠ .None) (til : Int) (h : List Call) :
    ((after boot h).manual = m ∧ (after boot h).manual_until_s = til) ↔
      Since (Commands m til) (EndsCommand m til) h := by
  apply latch_iff_since (fun h => (after boot h).manual = m ∧ (after boot h).manual_until_s = til)
  · simp [ctl_init, hm.symm]
  · intro h a
    rw [after_snoc]
    cases a with
    | sensor cfg now valid t =>
      simp [Call.apply, Commands, EndsCommand, Accepted]
    | manual m' d now =>
      rw [apply_manual]
      have hno : ¬ EndsCommand m til h (.manual m' d now) ↔ ¬ Accepted h (.manual m' d now) := by
        simp [EndsCommand]
      rw [hno, Commands, accepted_iff boot]
      split <;> rename_i hr
      · simp [hr]
      · simp only [hr, not_false_eq_true, true_and, not_true_eq_false, false_and, or_false]
        constructor
        · rintro ⟨rfl, rfl⟩
          exact ⟨d, now, rfl, by simp [deadline, hm]⟩
        · rintro ⟨_, _, ha, rfl⟩
          cases ha
          exact ⟨rfl, by simp [deadline, hm]⟩
    | decide cfg now =>
      have hs : ¬ Commands m til h (.decide cfg now) := by simp [Commands, Accepted]
      have he : EndsCommand m til h (.decide cfg now) ↔
          til ≤ now ∨ (m = .Stop ∧ (after boot h).overheat = true) := by
        simp [EndsCommand, Accepted, overheat_iff]
      simp only [Call.apply, ctl_decide_manual, ctl_decide_manual_until, manualAfter_iff _ _ hm, hs, he,
        false_or]
      constructor
      · rintro ⟨⟨hn, hm⟩, rfl⟩
        exact ⟨hn, hm, rfl⟩
      · rintro ⟨hn, hm, rfl⟩
        exact ⟨⟨hn, hm⟩, rfl⟩

theorem override_iff (m : CtlManual) (hm : m ≠ .None) (h : List Call) :
    (after boot h).manual = m ↔ Override m h := by
  simp only [Override, ← command_iff boot m hm]
  exact ⟨fun h => ⟨_, h, rfl⟩, fun ⟨_, h, _⟩ => h⟩

/-! ## The sensor -/

theorem failedReads_snoc (h : List Call) (a : Call) :
    failedReads (h ++ [a]) =
      match a.outcome with
      | some true => 0
      | some false => failedReads h + 1
      | none => failedReads h := by
  unfold failedReads
  cases ha : a.outcome with
  | none => simp [ha]
  | some valid => cases valid <;> simp [ha]

theorem failures_eq (h : List Call) : (after boot h).failures.toNat = min 255 (failedReads h) := by
  induction h using List.reverseRecOn with
  | nil => rfl
  | append_singleton h a ih =>
    rw [after_snoc, failedReads_snoc]
    cases a with
    | sensor cfg now valid t =>
      cases valid with
      | false =>
        simp only [Call.apply, ctl_sensor_failed, failuresAfter_toNat, ih, Call.outcome]
        omega
      | true => simp [Call.apply, ctl_sensor_valid, Call.outcome]
    | manual m d now =>
      simpa [apply_manual, Call.outcome] using ih
    | decide cfg now => simpa [Call.apply, Call.outcome] using ih

def FailReads (failReads : UInt8) (_ : List Call) : Call → Prop
  | .sensor cfg _ _ _ => cfg.sensor_fail_reads = failReads
  | _ => True

theorem sensor_failed_iff (n : UInt8) (h : List Call) (hn : Along (FailReads n) h) :
    (after boot h).sensor_failed = true ↔ SensorFailed n h := by
  unfold SensorFailed
  induction h using List.reverseRecOn with
  | nil => simp [ctl_init, failedReads]
  | append_singleton h a ih =>
    obtain ⟨hn, ha⟩ := (along_snoc _ h a).mp hn
    have ih := ih hn
    rw [after_snoc, failedReads_snoc]
    cases a with
    | sensor cfg now valid t =>
      cases valid with
      | false =>
        have hlt := n.toNat_lt
        obtain rfl : cfg.sensor_fail_reads = n := ha
        simp only [Call.apply, ctl_sensor_failed, Call.outcome, Bool.or_eq_true, decide_eq_true_eq, ih,
          UInt8.le_iff_toNat_le, failuresAfter_toNat, failures_eq]
        omega
      | true => simp [Call.apply, ctl_sensor_valid, Call.outcome]
    | manual m d now =>
      simpa [apply_manual, Call.outcome] using ih
    | decide cfg now => simpa [Call.apply, Call.outcome] using ih

/-! ## Maintenance -/

theorem startsRun_reported (s : CtlState) (cfg : CtlConfig) (now : Int) :
    (ctl_decide s cfg now {}).2.maintenance_started = startsRun s cfg now := by
  rw [ctl_decide_result]
  simp

/-- The maintenance run and its end. The deadline tells apart the runs that a history can hold. -/
theorem run_iff (til : Int) (h : List Call) :
    ((after boot h).maintenance = true ∧ (after boot h).maintenance_until_s = til) ↔
      Since (StartsRun boot til) (EndsRun til) h := by
  apply latch_iff_since (fun h => (after boot h).maintenance = true ∧ (after boot h).maintenance_until_s = til)
  · simp [ctl_init]
  · intro h a
    rw [after_snoc]
    cases a with
    | sensor cfg now valid t =>
      simp [Call.apply, StartsRun, EndsRun]
    | manual m d now =>
      simp [apply_manual, StartsRun, EndsRun]
    | decide cfg now =>
      have hs : StartsRun boot til h (.decide cfg now) ↔
          til = now + cfg.maintenance_run_s.toNat ∧ startsRun (after boot h) cfg now = true := by
        simp [StartsRun, startsRun_reported]
      have he : EndsRun til h (.decide cfg now) ↔ til ≤ now := by simp [EndsRun]
      rw [hs, he]
      simp only [Call.apply, ctl_decide_maintenance, ctl_decide_maintenance_until]
      -- A run can only start where none goes on.
      have hx : startsRun (after boot h) cfg now = true → stillRuns (after boot h) now = false := by
        simp only [startsRun, runDue, decide_eq_true_eq]
        exact fun hd => hd.1
      cases hst : startsRun (after boot h) cfg now with
      | true =>
        have hr := hx hst
        rw [Bool.eq_false_iff, ne_eq, stillRuns_iff] at hr
        simp only [Bool.or_true, true_and, if_true, and_true]
        constructor
        · rintro rfl; exact Or.inl rfl
        · rintro (rfl | ⟨hn, hm, rfl⟩)
          · rfl
          · exact absurd ⟨hm, by omega⟩ hr
      | false =>
        simp only [Bool.or_false, stillRuns_iff, Bool.false_eq_true, if_false, and_false, false_or]
        constructor
        · rintro ⟨⟨hm, hn⟩, rfl⟩
          exact ⟨by omega, hm, rfl⟩
        · rintro ⟨hn, hm, rfl⟩
          exact ⟨⟨hm, by omega⟩, rfl⟩

theorem maintenance_iff (h : List Call) : (after boot h).maintenance = true ↔ Maintaining boot h := by
  simp only [Maintaining, ← run_iff]
  exact ⟨fun h => ⟨_, h, rfl⟩, fun ⟨_, h, _⟩ => h⟩

/-! ## The table -/

/-- The chain of `ctl_decide` and the table ask the same questions in the same order. -/
theorem choose_eq_priority (n : UInt8) (h : List Call) (hn : Along (FailReads n) h) :
    choose (after boot h) = priority n boot h := by
  simp only [choose, priority, ← overheat_iff boot, ← override_iff boot .Start (by decide),
    ← override_iff boot .Stop (by decide), ← sensor_failed_iff boot n h hn, ← hot_iff boot,
    ← maintenance_iff boot]

/-- A call list that ends like a step: the pump is what the rules pick. -/
def Settled (h : List Call) : Prop := choose (after boot h) = ((after boot h).on, (after boot h).reason)

theorem after_refused {h : List Call} {m : CtlManual} {d : UInt32} {now : Int}
    (hr : ¬ (ctl_manual (after boot h) m d now).isSome = true) :
    after boot (h ++ [.manual m d now]) = after boot h := by
  rw [Option.not_isSome_iff_eq_none] at hr
  rw [after_snoc, Call.apply, hr]
  rfl

theorem settled_decide (h : List Call) (cfg : CtlConfig) (now : Int) :
    Settled boot (h ++ [.decide cfg now]) := by
  unfold Settled
  rw [after_snoc]
  exact ctl_decide_choice ..

theorem settled_step (h : List Call) (st : Step) (hs : Settled boot h) :
    Settled boot (h ++ st.calls (after boot h)) := by
  cases st with
  | read cfg now valid t cfg' =>
    have := settled_decide boot (h ++ [.sensor cfg now valid t]) cfg' now
    simpa [Step.calls] using this
  | decide cfg now => exact settled_decide boot h cfg now
  | command cfg now m d =>
    simp only [Step.calls]
    split
    · have := settled_decide boot (h ++ [.manual m d now]) cfg now
      simpa using this
    · -- A refused command leaves the state as the last step did.
      rename_i hr
      unfold Settled at *
      rwa [after_refused boot hr]

theorem history_snoc (steps : List Step) (st : Step) :
    history boot (steps ++ [st]) =
      history boot steps ++ st.calls (after boot (history boot steps)) := by
  simp [history]

theorem history_settled (steps : List Step) : Settled boot (history boot steps) := by
  induction steps using List.reverseRecOn with
  | nil => rfl
  | append_singleton steps st ih =>
    rw [history_snoc]
    exact settled_step boot _ st ih

def Step.SensorLimit (n : UInt8) : Step → Prop
  | .read cfg .. => cfg.sensor_fail_reads = n
  | _ => True

theorem history_failReads (n : UInt8) (steps : List Step) (hn : ∀ st ∈ steps, Step.SensorLimit n st) :
    Along (FailReads n) (history boot steps) := by
  induction steps using List.reverseRecOn with
  | nil => exact along_nil _
  | append_singleton steps st ih =>
    have hst := hn st (by simp)
    have ih := ih fun st hm => hn st (List.mem_append_left _ hm)
    rw [history_snoc]
    cases st with
    | read cfg now valid t cfg' =>
      rw [Step.calls, List.append_cons, along_snoc, along_snoc]
      exact ⟨⟨ih, hst⟩, trivial⟩
    | decide cfg now =>
      rw [Step.calls, along_snoc]
      exact ⟨ih, trivial⟩
    | command cfg now m d =>
      simp only [Step.calls]
      split
      · rw [List.append_cons, along_snoc, along_snoc]
        exact ⟨⟨ih, trivial⟩, trivial⟩
      · rw [along_snoc]
        exact ⟨ih, trivial⟩

/-- After every step the pump and its reason are what the table says of the whole history. -/
theorem priority_table (n : UInt8) (boot : Int) (steps : List Step)
    (hn : ∀ st ∈ steps, Step.SensorLimit n st) :
    ((after boot (history boot steps)).on, (after boot (history boot steps)).reason) =
      priority n boot (history boot steps) := by
  rw [← choose_eq_priority boot n _ (history_failReads boot n steps hn)]
  exact (history_settled boot steps).symm

def defaultConfig : CtlConfig := ⟨300, 250, 450, 7 * 24 * 3600, 60, 3⟩

def lostSensor : List Step :=
  .read defaultConfig 5 true 280 defaultConfig ::
    [10, 15, 20].map fun now => .read defaultConfig now false 0 defaultConfig

theorem priority_table_lost_sensor : priority 3 0 (history 0 lostSensor) = (true, .SensorFail) := by
  rw [← priority_table 3 0 lostSensor (by simp [lostSensor, Step.SensorLimit, defaultConfig])]
  decide

end FloorHeating.Priority
