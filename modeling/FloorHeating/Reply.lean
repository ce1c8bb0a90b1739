import FloorHeating.Commands
import FloorHeating.Spec.Reply

/-!
# The reply to a command tells what became of it

An override lasts until a decision ends it, and then it is gone for good. So
the passes between the command and its status are in one of two phases.
-/

open FloorHeating.Lib FloorHeating.Control FloorHeating.Account FloorHeating.Commands

namespace FloorHeating.CommandReply

/-! ## One pass -/

section Pass

variable {c : Control} {sec : Section} {s : CtlState} {m : CtlManual} {til : Int}

theorem task_seen (htask : sec.isTask) (c : Control) : ∃ s, sec.seen c = some s := by
  cases sec with
  | task fs st date now read => cases read <;> exact ⟨_, rfl⟩
  | command => exact htask.elim

theorem task_keeps (htask : sec.isTask) (hs : sec.seen c = some s) :
    s.manual = c.s_state.manual ∧ s.manual_until_s = c.s_state.manual_until_s := by
  cases sec with
  | task fs st date now read => exact read_keeps hs
  | command => exact htask.elim

theorem task_overheat (htask : sec.isTask) (hs : sec.seen c = some s) (hcool : c.s_state.overheat = false) :
    s.overheat = true ↔ sec.AtCritical := by
  cases sec with
  | command => exact htask.elim
  | task fs st date now read =>
    rcases read with - | - | t
    · cases hs
      simp [Section.AtCritical, hcool]
    · cases hs
      simp [Section.AtCritical, hcool, ctl_sensor_failed]
    · cases hs
      rw [Option.isSome_some, Option.getD_some, ctl_sensor_valid]
      simp [Section.AtCritical, hcool, heatAfter_iff, config_from_settings]

theorem pass_manual (hs : sec.seen c = some s) :
    (sec.exec c).s_state.manual = manualAfter s sec.now_s ∧
      (sec.exec c).s_state.manual_until_s = s.manual_until_s := by
  rw [exec_s_state hs, decisionOf, ctl_decide_manual, ctl_decide_manual_until]
  exact ⟨rfl, rfl⟩

theorem none_stays (htask : sec.isTask) (hc : c.s_state.manual = .None) : (sec.exec c).s_state.manual = .None := by
  obtain ⟨s, hs⟩ := task_seen htask c
  rw [(pass_manual hs).1, manualAfter, (task_keeps htask hs).1, hc]
  exact ite_self _

/-- The two ways in which a decision ends an override. -/
theorem ends_iff (hf : Faithful c) (hc : c.s_state.manual = m) (htil : c.s_state.manual_until_s = til)
    (htask : sec.isTask) (hs : sec.seen c = some s) :
    (s.manual_until_s ≤ sec.now_s ∨ (m = .Stop ∧ s.overheat = true)) ↔ sec.Ends m til := by
  rw [(task_keeps htask hs).2, htil]
  apply or_congr_right
  apply and_congr_right
  rintro rfl
  exact task_overheat htask hs (hf.stop hc).2.2

end Pass

theorem override_on {s : CtlState} {cfg : CtlConfig} {now : Int} {res : CtlResult} {m : CtlManual} (hm : m ≠ .None)
    (hkept : (ctl_decide s cfg now res).1.manual = m) : (ctl_decide s cfg now res).1.on = decide (m = .Start) := by
  cases m with
  | None => exact absurd rfl hm
  | Start =>
    by_contra hoff
    rw [decide_eq_true rfl, Bool.not_eq_true, ← ctl_decide_on, choose_off] at hoff
    exact hoff.2.1 hkept
  | Stop => exact (ctl_decide_stop _ _ _ _ hkept).1

/-! ## The phase in which the override is in force -/

structure InForce (m : CtlManual) (til : Int) (told : List Event) (c : Control) : Prop where
  faithful : Faithful c
  holds : Holds c.s_state m til (decide (m = .Start))
  told : c.published.filter pumpOrEnd = told

section Phase

variable {m : CtlManual} {til : Int} {told : List Event} {c : Control} {sec : Section}

theorem pass_keeps (hm : m ≠ .None) (hi : InForce m til told c) (htask : sec.isTask) (hend : ¬ sec.Ends m til) :
    InForce m til told (sec.exec c) := by
  obtain ⟨s, hs⟩ := task_seen htask c
  obtain ⟨hmanual, huntil⟩ := task_keeps htask hs
  rw [← ends_iff hi.faithful hi.holds.manual hi.holds.deadline htask hs] at hend
  have hsame : manualAfter s sec.now_s = m := (manualAfter_iff s _ hm).mpr ⟨hend, hmanual.trans hi.holds.manual⟩
  have hkept : (decisionOf c sec s).1.manual = m := by
    rw [decisionOf, ctl_decide_manual, hsame]
  have hon : (decisionOf c sec s).1.on = decide (m = .Start) := override_on hm hkept
  refine ⟨faithful_exec c sec hi.faithful, ⟨?_, ?_, ?_⟩, ?_⟩
  · rw [(pass_manual hs).1, hsame]
  · rw [(pass_manual hs).2, huntil, hi.holds.deadline]
  · rw [exec_s_state hs, hon]
  · have hquiet : (sec.events c).filter pumpOrEnd = [] := by
      rw [not_or, not_le] at hend
      have hexpired : ¬ s.manual_until_s ≤ sec.now_s := not_le.mpr hend.1
      have hcancelled : ¬ (s.manual = .Stop ∧ s.overheat = true ∧ sec.now_s < s.manual_until_s) := by
        rintro ⟨hstop, hhot, -⟩
        exact hend.2 ⟨hi.holds.manual.symm.trans (hmanual.symm.trans hstop), hhot⟩
      rw [pumpOrEnd_eq hs, decision_result, hon, (seen_frame hs).1, hi.holds.pump]
      unfold pumpEvents
      simp [hexpired, hcancelled]
    rw [published_eq hs, List.filter_append, hquiet, List.append_nil, hi.told]

theorem pass_ends (hi : InForce m til told c) (htask : sec.isTask) (hend : sec.Ends m til) :
    (sec.exec c).s_state.manual = .None := by
  obtain ⟨s, hs⟩ := task_seen htask c
  obtain ⟨hmanual, -⟩ := task_keeps htask hs
  rw [← ends_iff hi.faithful hi.holds.manual hi.holds.deadline htask hs] at hend
  rw [(pass_manual hs).1, manualAfter, hmanual, hi.holds.manual]
  exact if_pos hend

/-- The decision that ends it says so, in one event. -/
theorem end_told (hm : m ≠ .None) (hi : InForce m til told c) (htask : sec.isTask) (hend : sec.Ends m til) :
    ∃ e, (sec.events c).filter pumpOrEnd = [e] ∧ TellsEnd m e := by
  obtain ⟨s, hs⟩ := task_seen htask c
  have hmanual : s.manual = m := (task_keeps htask hs).1.trans hi.holds.manual
  have hon : s.on = decide (m = .Start) := (seen_frame hs).1.trans hi.holds.pump
  rw [← ends_iff hi.faithful hi.holds.manual hi.holds.deadline htask hs] at hend
  rcases hend with hexpired | ⟨rfl, hhot⟩
  · have hset : s.manual ≠ .None := hmanual ▸ hm
    have hlate : ¬ (s.manual = .Stop ∧ s.overheat = true ∧ sec.now_s < s.manual_until_s) := fun h => by omega
    rw [pumpOrEnd_eq hs, decision_result, decide_eq_true (show _ ∧ _ from ⟨hset, hexpired⟩), decide_eq_false hlate]
    unfold pumpEvents
    by_cases hsame : (decisionOf c sec s).1.on = s.on
    · rw [if_neg (by simpa using hsame), if_pos (Or.inl rfl)]
      have hword : snprintf DETAIL_SIZE "expired" = "expired" := by decide
      exact ⟨_, rfl, Or.inr ⟨rfl, hsame.trans hon, hword⟩⟩
    · rw [if_pos (by simpa using hsame)]
      refine ⟨_, rfl, Or.inl ⟨rfl, ?_⟩⟩
      change (decisionOf c sec s).1.on = decide (m ≠ .Start)
      rw [hon] at hsame
      rw [decide_not]
      exact Bool.eq_not.mpr hsame
  · obtain ⟨e, he, htype, heon, -⟩ := dropped_event hs hi.faithful hmanual hhot
    exact ⟨e, he, Or.inl ⟨htype, heon⟩⟩

end Phase

/-! ## The reply -/

theorem sent_override (c : Control) (st : Settings) (env : StatusEnv) :
    ∃ doc, Reply.status.sent c st env = .json "200 OK" doc ∧
      doc.field "pump" "on" = some (.bool c.s_state.on) ∧
      ShowsOverride doc (manual_name c.s_state.manual)
        (if c.s_state.manual = .None then 0 else c.s_state.manual_until_s - env.now_mono_s) := by
  refine ⟨_, rfl, rfl, rfl, ?_⟩
  change some (Json.num (if c.s_state.manual = .None then 0 else (c.s_state.manual_until_s - env.now_mono_s : Int))) = _
  split <;> rfl

theorem order_name {word : String} {m : CtlManual} (hm : Order word m) : m ≠ .None ∧ manual_name m = word := by
  rcases hm with ⟨rfl, rfl⟩ | ⟨rfl, rfl⟩ <;> exact ⟨by decide, rfl⟩

/-- The status in the reply shows the override with the seconds it has left, or that there is none. There
is none exactly if a pass in between ended it, and then one event says so. -/
theorem reply_tells_the_order (boot : Int) (h : List Section) {to_uint32 : Rat → UInt32}
    (hcast : ∀ x : Rat, 0 ≤ x → x ≤ 43200 → ((to_uint32 x).toNat : Int) = ⌊x⌋) (st : Settings) (date : LocalDate)
    (now : Int) {body : Json} (who : String) {word : String} {m : CtlManual} (hm : Order word m)
    (hword : Asks body word) {v : Rat} (hv : Minutes body v) (hpos : 0 < double v)
    (hok : ¬ (m = .Stop ∧ (controlAfter boot h).s_state.overheat = true)) {mid : List Section}
    (htask : ∀ sec ∈ mid, sec.isTask) (later : Settings) (env : StatusEnv) :
    let r := pump_command to_uint32 (controlAfter boot h) st date now body who
    let til := r.1.s_state.manual_until_s
    let c := run Section.exec r.1 mid
    til = now + heldFor v ∧ ∃ doc, r.2.sent c later env = .json "200 OK" doc ∧
      ((Lasts m til mid ∧ ShowsOverride doc word (til - env.now_mono_s) ∧
          doc.field "pump" "on" = some (.bool (decide (m = .Start))) ∧
          c.published.filter pumpOrEnd = r.1.published.filter pumpOrEnd) ∨
        (ShowsOverride doc "none" 0 ∧ ∃ pre sec post e, mid = pre ++ sec :: post ∧ Lasts m til pre ∧
          sec.Ends m til ∧ (sec.events (run Section.exec r.1 pre)).filter pumpOrEnd = [e] ∧ TellsEnd m e)) := by
  obtain ⟨hset, hname⟩ := order_name hm
  dsimp only
  rw [pump_ordered to_uint32 _ st date now body who hm hword hv hpos]
  obtain ⟨hstate, hreply, -⟩ := answer_ok boot h st date now (asked to_uint32 v) who hok
  generalize answer (control_manual (controlAfter boot h) st date now m (asked to_uint32 v) who) = a at *
  obtain ⟨c, reply⟩ := a
  dsimp only at hstate hreply ⊢
  have hholds : Holds c.s_state m (now + heldFor v) (decide (m = .Start)) := by
    rw [hstate, ← asked_held hcast hpos]
    exact order_holds hset hok
  have hfaithful : Faithful c := by
    rw [hstate]
    exact faithful_exec _ (.command st date now m (asked to_uint32 v) who) (faithful_run boot h)
  rw [hreply, hholds.deadline]
  obtain ⟨doc, hdoc, hon, hshow⟩ := sent_override (run Section.exec c mid) later env
  refine ⟨rfl, doc, hdoc, ?_⟩
  rcases run_until (C := Section.isTask) (E := Section.Ends m (now + heldFor v))
    (D := fun c => c.s_state.manual = .None) (fun _ _ hi => pass_keeps hset hi) (fun _ _ hi => pass_ends hi)
    (fun _ _ hd ht => none_stays ht hd) htask (s := c) ⟨hfaithful, hholds, rfl⟩ with
    ⟨hlasts, hi⟩ | ⟨hnone, pre, sec, post, rfl, hlasts, hend, hi⟩
  · rw [hi.holds.manual, hi.holds.deadline, hname, if_neg hset] at hshow
    rw [hi.holds.pump] at hon
    exact Or.inl ⟨hlasts, hshow, hon, hi.told⟩
  · rw [hnone, if_pos rfl] at hshow
    obtain ⟨e, he, htell⟩ := end_told hset hi (htask sec (by simp)) hend
    exact Or.inr ⟨hshow, pre, sec, post, e, rfl, hlasts, hend, he, htell⟩

theorem expired_before_the_status :
    let body : Json := .obj [("state", .str "start"), ("minutes", .num 1)]
    let mid : List Section := [.task default_settings default_settings ⟨false, 0⟩ 160 none]
    let r := pump_command truncated (controlAfter 0 []) default_settings ⟨false, 0⟩ 100 body "admin"
    r.1.s_state.manual_until_s = 160 ∧
      ∃ doc, r.2.sent (run Section.exec r.1 mid) default_settings ⟨160, fun t => t, []⟩ = .json "200 OK" doc ∧
        ShowsOverride doc "none" 0 := by
  intro body mid r
  have hone : double 1 = 1 := by
    have := double_intCast (n := 1) (by norm_num)
    exact_mod_cast this
  have hheld : heldFor 1 = 60 := by
    have := heldFor_whole (n := 1) (by norm_num) (by norm_num)
    rw [Int.cast_one] at this
    rw [this]
    norm_num [clampSeconds]
  obtain ⟨htil, doc, hdoc, ⟨hlasts, -⟩ | ⟨hshow, -⟩⟩ := reply_tells_the_order 0 [] truncated_cast default_settings
    ⟨false, 0⟩ 100 "admin" (Or.inl ⟨rfl, rfl⟩) (show Asks body "start" from rfl) (show Minutes body 1 from rfl)
    (by rw [hone]; norm_num) (by decide) (show ∀ sec ∈ mid, sec.isTask by simp [mid, Section.isTask])
    default_settings ⟨160, fun t => t, []⟩
  · exact absurd (Or.inl (by rw [htil, hheld]; decide)) (hlasts _ (List.mem_singleton_self _))
  · exact ⟨by rw [htil, hheld]; rfl, doc, hdoc, hshow⟩

end FloorHeating.CommandReply
