import FloorHeating.Control
import FloorHeating.Spec.Locks

/-!
# Nothing delays the pump control

The skeletons keep the discipline, so no thread waits long for a lock. What the
model's functions lock and call is a run of their skeletons.
-/

open FloorHeating.Lib

namespace FloorHeating.Locks

/-! ## Words -/

theorem mem_call (c : Outside) : [.call c] ∈ (call c).matches' := rfl

theorem mem_maybe_nil (body : Skeleton) : [] ∈ (maybe body).matches' := Or.inl rfl

theorem mem_maybe {body : Skeleton} {w : List Op} (hw : w ∈ body.matches') : w ∈ (maybe body).matches' := Or.inr hw

theorem mem_left {r s : Skeleton} {w : List Op} (hw : w ∈ r.matches') : w ∈ (r + s).matches' := Or.inl hw

theorem mem_right {r s : Skeleton} {w : List Op} (hw : w ∈ s.matches') : w ∈ (r + s).matches' := Or.inr hw

theorem mem_comp {r s : Skeleton} {v w : List Op} (hv : v ∈ r.matches') (hw : w ∈ s.matches') :
    v ++ w ∈ (r * s).matches' := Language.append_mem_mul hv hw

theorem mem_locked {l : Lock} {body : Skeleton} {w : List Op} (hw : w ∈ body.matches') :
    lockedOps l w ∈ (locked l body).matches' :=
  mem_comp (mem_comp (v := [.acquire l]) rfl hw) rfl

theorem mem_section (l : Lock) : lockedOps l [] ∈ (locked l 1).matches' := mem_locked rfl

theorem mem_star_cons {r : Skeleton} {v w : List Op} (hv : v ∈ r.matches')
    (hw : w ∈ (RegularExpression.star r).matches') : v ++ w ∈ (RegularExpression.star r).matches' := by
  obtain ⟨words, rfl, hwords⟩ := Language.mem_kstar.mp hw
  exact Language.mem_kstar.mpr ⟨v :: words, rfl, List.forall_mem_cons.mpr ⟨hv, hwords⟩⟩

/-! ## The functions of the model -/

variable (snprintf : Nat → String → String)

theorem settings_word : settingsOps ∈ settings_get.matches' := mem_section _

theorem date_word (date : LocalDate) : dateOps date ∈ count_runtime_locked.matches' := by
  refine mem_comp (v := [.call .hi_ntp_synced]) rfl ?_
  cases date.synced with
  | false => exact mem_maybe_nil _
  | true => exact mem_maybe (mem_comp (mem_call .time) (mem_call .localtime_r))

theorem notice_word (notice : Option Notice) : noticeOps notice ∈ notify.matches' := by
  cases notice with
  | none => exact mem_left (mem_maybe_nil _)
  | some notice =>
    cases notice with
    | hi_notify_event_ex _ _ _ _ => exact mem_left (mem_maybe (mem_call _))
    | hi_notify_error _ => exact mem_right (mem_right (mem_comp (mem_call .esp_log) (mem_call .hi_notify_error)))
    | esp_loge _ => exact mem_right (mem_left (mem_call .esp_log))

theorem event_word (e : Event) : eventOps snprintf e ∈ events_publish.matches' := by
  unfold eventOps
  exact mem_comp (mem_comp (mem_section _) (notice_word _)) (mem_call _)

theorem events_word {l : List Event} (hl : l.length ≤ 1) :
    l.flatMap (eventOps snprintf) ∈ (maybe events_publish).matches' := by
  cases l with
  | nil => exact mem_maybe_nil _
  | cons e rest =>
    obtain rfl : rest = [] := by simpa using hl
    rw [List.flatMap_singleton]
    exact mem_maybe (event_word snprintf e)

theorem section_events_short (c : Control) (now : Int) (r : CtlResult) (detail : Option String) :
    (Control.sensorEvents c now r).length ≤ 1 ∧ (Control.overheatEvents c now r).length ≤ 1 ∧
      (Control.pumpEvents c now r detail).length ≤ 1 := by
  refine ⟨?_, ?_, ?_⟩
  · unfold Control.sensorEvents
    split <;> simp
  · unfold Control.overheatEvents
    split <;> simp
  · unfold Control.pumpEvents
    split
    · simp
    · split <;> simp

theorem decide_word (c : Control) (settings : Settings) (date : LocalDate) (now : Int) (r : CtlResult)
    (detail : Option String) : decideOps snprintf c settings date now r detail ∈ decide_locked.matches' := by
  unfold decideOps
  rw [Control.decide_locked_eq]
  dsimp only
  rw [List.drop_left, Control.sectionEvents, List.flatMap_append, List.flatMap_append]
  simp only [← List.append_assoc]
  obtain ⟨hsensor, hoverheat, hpump⟩ := section_events_short
    { c with s_state := (Control.decision c settings now r).1 } now (Control.decision c settings now r).2 detail
  refine mem_comp (mem_comp (mem_comp (mem_comp (mem_comp settings_word (date_word date)) ?_)
    (events_word snprintf hsensor)) (events_word snprintf hoverheat)) (events_word snprintf hpump)
  split
  · exact mem_maybe (mem_comp (mem_call .gpio_set_level) (mem_call .esp_log))
  · exact mem_maybe_nil _

theorem task_word (c : Control) (settings : Settings) (date : LocalDate) (now : Int) (r : CtlResult) :
    taskOps snprintf c settings date now r ∈ task_decision.matches' := by
  unfold taskOps
  rw [List.append_cons]
  refine mem_comp (mem_comp (decide_word snprintf c settings date now r none) (mem_call _)) ?_
  split
  · exact mem_maybe (mem_call _)
  · exact mem_maybe_nil _

theorem manual_word (c : Control) (settings : Settings) (date : LocalDate) (now : Int) (m : CtlManual) (d : UInt32)
    (who : String) : manualOps snprintf c settings date now m d who ∈ control_manual.matches' := by
  unfold manualOps
  split
  · exact mem_left (mem_locked (mem_call _))
  · refine mem_right ?_
    exact mem_comp (mem_comp (mem_locked (mem_comp (mem_call _) (decide_word snprintf _ settings date now {} _)))
      (mem_call _)) (mem_call _)

theorem sensor_word (s : TempSensor) (bus : Bus) : sensorOps s bus ∈ temp_sensor_read.matches' := by
  have hscan : [.call .ds18x20_scan_devices, .call .esp_log] ∈
      (call .ds18x20_scan_devices * call .esp_log).matches' := mem_comp (mem_call _) (mem_call _)
  unfold sensorOps
  cases hknown : (scan_devices s bus).2 with
  | false =>
    have hfound : s.s_found = false := by
      by_contra hfound
      rw [scan_devices, if_pos (Bool.not_eq_false _ ▸ hfound)] at hknown
      cases hknown
    rw [hfound]
    exact mem_left hscan
  | true =>
    rw [if_pos rfl, List.append_cons]
    refine mem_right (mem_comp (mem_comp ?_ (mem_call _)) ?_)
    · split
      · exact mem_maybe_nil _
      · exact mem_maybe hscan
    · split
      · exact mem_maybe (mem_call _)
      · exact mem_maybe_nil _

theorem pass_word (d : Device) (p : Pass) (bus : Bus) : passOps snprintf d p bus ∈ control_task_pass.matches' := by
  unfold passOps
  refine mem_comp (mem_comp (mem_comp (mem_call _) ?_) (mem_call _)) (mem_call _)
  split
  · refine mem_left (mem_comp (mem_comp (mem_comp (sensor_word _ _) (mem_call _)) ?_) ?_)
    · exact mem_locked (mem_comp settings_word (task_word snprintf _ _ _ _ _))
    · split
      · exact mem_maybe (mem_comp (mem_call _) (mem_section _))
      · exact mem_maybe_nil _
  · exact mem_right (mem_locked (task_word snprintf _ _ _ _ _))

theorem run_word (d : Device) (l : List DeviceTurn) :
    opsFrom snprintf d l ∈ (RegularExpression.star control_task_pass).matches' := by
  induction l generalizing d with
  | nil => exact Language.nil_mem_kstar _
  | cons x l ih =>
    cases x with
    | pass p bus => exact mem_star_cons (pass_word snprintf d p bus) (ih _)
    | command _ _ _ _ _ _ => exact ih _

theorem task_run_word (d : Device) (l : List DeviceTurn) :
    .call .esp_task_wdt :: opsFrom snprintf d l ∈ Role.control_task.skeleton.matches' :=
  mem_comp (mem_call .esp_task_wdt) (run_word snprintf d l)

/-! ## The discipline -/

theorem skeleton_kept (role : Role) : discipline.after role.skeleton [] = some [] := by
  cases role <;> decide

theorem above_spinlock {l l' : Lock} (h : discipline.rank l < discipline.rank l') :
    DELAY l' = 1 ∧ l ∈ [.s_lock, .s_write_lock] := by
  revert h
  cases l <;> cases l' <;> decide

theorem delay_enough : discipline.Delay DELAY where
  steps l := by
    cases l with
    | s_lock => exact ⟨1, fun _ h => (above_spinlock h).1.le, by decide⟩
    | s_write_lock => exact ⟨1, fun _ h => (above_spinlock h).1.le, by decide⟩
    | settings_mux => exact ⟨0, fun _ h => absurd (above_spinlock h).2 (by decide), by decide⟩
    | events_mux => exact ⟨0, fun _ h => absurd (above_spinlock h).2 (by decide), by decide⟩
    | history_mux => exact ⟨0, fun _ h => absurd (above_spinlock h).2 (by decide), by decide⟩
  stricter l l' c hrank hallowed := by
    cases l' with
    | s_lock => cases hrank
    | s_write_lock => cases hrank
    | settings_mux => cases hallowed
    | events_mux => cases hallowed
    | history_mux => cases hallowed

theorem control_leaves_write_lock : .acquire .s_write_lock ∉ opsOf Role.control_task.skeleton := by
  decide

theorem quick_all {slow : Outside → Bool} (h : Quick slow) : ∀ c ∈ QUICK, slow c = false := by
  intro c hc
  simp only [QUICK, List.mem_cons, List.not_mem_nil, or_false] at hc
  rcases hc with rfl | rfl | rfl | rfl | rfl | rfl | rfl | rfl | rfl | rfl
  · exact h.clocks _ (by simp)
  · exact h.clocks _ (by simp)
  · exact h.clocks _ (by simp)
  · exact h.clocks _ (by simp)
  · exact h.pins _ (by simp)
  · exact h.pins _ (by simp)
  · exact h.log
  · exact h.notifications _ (by simp)
  · exact h.notifications _ (by simp)
  · exact h.publish_now

theorem may_call {slow : Outside → Bool} (hquick : Quick slow) {l : Lock} {c : Outside}
    (h : discipline.allowed l c = true) : MayCall slow l c := by
  intro hslow
  have hnot : c ∉ QUICK := fun hc => by simp [quick_all hquick c hc] at hslow
  cases l with
  | s_lock => exact absurd (of_decide_eq_true h) hnot
  | s_write_lock =>
    rcases Bool.or_eq_true_iff.mp h with h | h
    · exact absurd (of_decide_eq_true h) hnot
    · exact ⟨rfl, h⟩
  | settings_mux => cases h
  | events_mux => cases h
  | history_mux => cases h

/-- Any number of threads of each kind, in any interleaving: who holds a lock is about to give it back, and a few steps
of others give it to a thread that waits for it. None of them is slow, but for the lock of the flash, and the control
task never waits for that one. -/
theorem nothing_delays_control {slow : Outside → Bool} (hquick : Quick slow) {ι : Type} [DecidableEq ι]
    {role : ι → Role} {prog : ι → List Op} (hprog : ∀ i, prog i ∈ (role i).skeleton.matches') (schedule : List ι) :
    (∀ i l, (threadsAfter prog schedule).holder l = some i →
      ∃ before after, (threadsAfter prog schedule).todo i = before ++ .release l :: after ∧
        before.length < discipline.limit l ∧ ∀ c, .call c ∈ before → MayCall slow l c) ∧
    ∀ i l rest, (threadsAfter prog schedule).todo i = .acquire l :: rest →
      (role i = .control_task → l ≠ .s_write_lock) ∧
        ∃ others, i ∉ others ∧ others.length ≤ DELAY l ∧
          (threadsAfter prog schedule).CallsOnly (MayCall slow l) others ∧
          (threadsAfter prog (schedule ++ others)).holder l = none := by
  have hkeeps (j : ι) : discipline.Keeps [] (prog j) := keeps_of_after (skeleton_kept (role j)) (hprog j)
  refine ⟨?_, ?_⟩
  · intro i l hl
    obtain ⟨before, after, htodo, hlen, hcalls⟩ := holder_gives_back hkeeps schedule hl
    exact ⟨before, after, htodo, hlen, fun c hc => may_call hquick (hcalls c hc)⟩
  · intro i l rest hwait
    obtain ⟨others, hi, hlen, hcalls, hfree⟩ := no_long_wait delay_enough hkeeps schedule hwait
    refine ⟨?_, others, hi, hlen, callsOnly_mono (fun _ => may_call hquick) hcalls, hfree⟩
    rintro hrole rfl
    have hmem : .acquire .s_write_lock ∈ prog i :=
      (todo_suffix prog schedule i).subset (by rw [hwait]; exact List.mem_cons_self)
    have hword := hprog i
    rw [hrole] at hword
    exact control_leaves_write_lock (mem_opsOf hword hmem)

/-- The first pass of the control task finds no sensor, while the MQTT task builds a document. -/
def firstPass : DeviceTurn :=
  .pass ⟨5, 6, none, default_settings, default_settings, ⟨false, 0⟩⟩ ⟨⟨.ESP_FAIL, none, 0⟩, fun _ => ⟨.ESP_FAIL, 0⟩⟩

def documentOps : List Op :=
  lockedOps .s_lock [] ++ [.call .esp_timer_get_time] ++ settingsOps ++ [.call .hi_ntp_synced] ++
    [.call .hi_httpd_add_system_status]

def waitingProgram : Bool → List Op
  | true => .call .esp_task_wdt :: opsFrom (fun _ text => text) (device_start 0) [firstPass]
  | false => documentOps

theorem document_word : documentOps ∈ Role.hi_mqtt.skeleton.matches' := by
  have hdocument : documentOps ∈ api_status_json.matches' :=
    mem_comp (mem_comp (mem_comp (mem_comp (mem_section _) (mem_call _)) settings_word)
      (mem_comp (mem_call .hi_ntp_synced) (mem_maybe_nil _))) (mem_call _)
  have hloop := mem_star_cons hdocument (Language.nil_mem_kstar _)
  rwa [List.append_nil] at hloop

/-- The bus, the flash, the network, and the task's own wait. -/
def waits (c : Outside) : Bool :=
  flash c || decide (c ∈ [.ds18x20_scan_devices, .ds18x20_measure_and_read, .ulTaskNotifyTake, .hi_httpd_guard,
    .hi_httpd_read_json, .hi_httpd_send_json, .hi_httpd_send_error, .hi_httpd_add_system_status, .httpd_resp_send,
    .httpd_resp_send_chunk, .hi_wifi])

theorem waits_quick : Quick waits := ⟨by decide, by decide, by decide, by decide, by decide⟩

theorem first_pass_not_delayed :
    ∃ others, true ∉ others ∧ others.length ≤ 54 ∧
      (threadsAfter waitingProgram ([false, true, true, true, true, true] ++ others)).holder .s_lock = none := by
  have hprog : ∀ i : Bool, waitingProgram i ∈ (if i then Role.control_task else Role.hi_mqtt).skeleton.matches' := by
    intro i
    cases i with
    | true => exact task_run_word _ _ _
    | false => exact document_word
  have hwait : ∃ rest, (threadsAfter waitingProgram [false, true, true, true, true, true]).todo true =
      .acquire .s_lock :: rest := ⟨_, rfl⟩
  obtain ⟨rest, hwait⟩ := hwait
  obtain ⟨-, others, hothers, hlen, -, hfree⟩ := (nothing_delays_control waits_quick hprog _).2 _ _ _ hwait
  exact ⟨others, hothers, hlen, hfree⟩

end FloorHeating.Locks
