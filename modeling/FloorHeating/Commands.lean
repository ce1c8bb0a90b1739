import FloorHeating.Account
import FloorHeating.Spec.Commands

/-!
# A pump command, from the body to the relay

First what a command does under the lock, then what the handler makes of the
body, then both in one statement.
-/

open FloorHeating.Lib FloorHeating.Control

namespace FloorHeating.Commands

/-! ## Under the lock -/

section Lock

variable {c : Control} {st : Settings} {date : LocalDate} {now : Int} {m : CtlManual} {d : UInt32} {who : String}

theorem control_manual_exec :
    (control_manual c st date now m d who).1 = (Section.command st date now m d who).exec c := rfl

theorem ctl_manual_none_iff : ctl_manual c.s_state m d now = none ↔ m = .Stop ∧ c.s_state.overheat = true := by
  unfold ctl_manual
  split <;> simp [*]

theorem control_manual_refused (h : m = .Stop ∧ c.s_state.overheat = true) :
    control_manual c st date now m d who = (c, .CONTROL_REFUSED_OVERHEAT) := by
  unfold control_manual
  simp only [ctl_manual_none_iff.mpr h]

theorem control_manual_ok (h : ¬ (m = .Stop ∧ c.s_state.overheat = true)) :
    (control_manual c st date now m d who).2 = .CONTROL_OK := by
  unfold control_manual ctl_manual
  simp only [if_neg h]

theorem command_state (h : ¬ (m = .Stop ∧ c.s_state.overheat = true)) :
    (control_manual c st date now m d who).1.s_state =
      (ctl_decide { c.s_state with manual := m, manual_until_s := deadline m (clamp_duration d) now }
        (config_from_settings st) now {}).1 := by
  have hseen : (Section.command st date now m d who).seen c =
      some { c.s_state with manual := m, manual_until_s := deadline m (clamp_duration d) now } := by
    unfold Section.seen ctl_manual
    exact if_neg h
  rw [control_manual_exec, exec_s_state hseen]
  rfl

/-- The deadline is ahead, so the decision keeps the override. -/
theorem command_kept (hm : m ≠ .None) (h : ¬ (m = .Stop ∧ c.s_state.overheat = true)) :
    (control_manual c st date now m d who).1.s_state.manual = m ∧
      (control_manual c st date now m d who).1.s_state.manual_until_s = now + (clamp_duration d).toNat := by
  have hahead : ¬ deadline m (clamp_duration d) now ≤ now := by
    have hclamp := clamp_duration_toNat d
    rw [deadline, if_neg hm]
    omega
  rw [command_state h, ctl_decide_manual, ctl_decide_manual_until]
  constructor
  · rw [manualAfter_iff _ _ hm]
    exact ⟨fun he => he.elim hahead h, rfl⟩
  · rw [deadline, if_neg hm]

/-- The decision in the same section already applies the override. -/
theorem order_holds (hm : m ≠ .None) (h : ¬ (m = .Stop ∧ c.s_state.overheat = true)) :
    Holds (control_manual c st date now m d who).1.s_state m (now + (clamp_duration d).toNat)
      (decide (m = .Start)) := by
  obtain ⟨hkept, htil⟩ := command_kept hm h
  refine ⟨hkept, htil, ?_⟩
  rw [command_state h] at hkept ⊢
  cases m with
  | None => exact absurd rfl hm
  | Start =>
    by_contra hoff
    rw [decide_eq_true rfl, Bool.not_eq_true, ← ctl_decide_on, choose_off] at hoff
    exact hoff.2.1 hkept
  | Stop => exact (ctl_decide_stop _ _ _ _ hkept).1

theorem auto_none : (control_manual c st date now .None d who).1.s_state.manual = .None := by
  rw [command_state (by simp), ctl_decide_manual, manualAfter]
  exact ite_self _

end Lock

/-! ## The body -/

theorem command_of_bad {body : Json} (h : BadState body) : command_of (body.item "state") = (.None, false) := by
  unfold BadState Asks at h
  unfold command_of
  split
  · rename_i s hs
    have hne : s ≠ "start" ∧ s ≠ "stop" ∧ s ≠ "auto" := by
      simpa [hs] using h
    simp [hne]
  · rfl

theorem positive_iff (body : Json) :
    positive_number (body.item "minutes") = true ↔ ∃ v, Minutes body v ∧ 0 < double v := by
  unfold positive_number Minutes
  split
  · rename_i v hv
    simp [hv, valuedouble]
  · rename_i hno
    simp only [Bool.false_eq_true, false_iff, not_exists, not_and]
    intro v hv
    exact absurd hv (hno v)

theorem positive_of_bad {body : Json} (h : ∀ v, Minutes body v → double v ≤ 0) :
    positive_number (body.item "minutes") = false := by
  rw [← Bool.not_eq_true, positive_iff]
  rintro ⟨v, hv, hpos⟩
  exact absurd hpos (not_lt.mpr (h v hv))

def Order (word : String) (m : CtlManual) : Prop := (word = "start" ∧ m = .Start) ∨ (word = "stop" ∧ m = .Stop)

def asked (to_uint32 : Rat → UInt32) (v : Rat) : UInt32 :=
  if MANUAL_MAX_S.toNat < double (double v * 60) then MANUAL_MAX_S else to_uint32 (double (double v * 60))

section Handler

variable (to_uint32 : Rat → UInt32) (c : Control) (st : Settings) (date : LocalDate) (now : Int) (body : Json)
  (who : String)

def answer (r : Control × ControlResult) : Control × Reply :=
  if r.2 = .CONTROL_REFUSED_OVERHEAT then (r.1, .error "409 Conflict" "overheat") else (r.1, .status)

theorem pump_bad_state (h : BadState body) :
    pump_command to_uint32 c st date now body who = (c, .error "400 Bad Request" "state") := by
  unfold pump_command
  simp [command_of_bad h]

theorem pump_bad_minutes (h : BadMinutes body) :
    pump_command to_uint32 c st date now body who = (c, .error "400 Bad Request" "minutes") := by
  obtain ⟨hword, hv⟩ := h
  have hminutes := positive_of_bad hv
  unfold pump_command
  rcases hword with hword | hword
  · unfold Asks at hword
    simp [hword, command_of, hminutes]
  · unfold Asks at hword
    simp [hword, command_of, hminutes]

theorem pump_auto (h : Asks body "auto") :
    pump_command to_uint32 c st date now body who =
      answer (control_manual c st date now .None 0 who) := by
  unfold Asks at h
  unfold pump_command answer
  simp [h, command_of]

theorem pump_ordered {word : String} {m : CtlManual} (hm : Order word m)
    {v : Rat} (hword : Asks body word) (hv : Minutes body v) (hpos : 0 < double v) :
    pump_command to_uint32 c st date now body who =
      answer (control_manual c st date now m (asked to_uint32 v) who) := by
  unfold Asks at hword
  have hminutes := (positive_iff body).mpr ⟨v, hv, hpos⟩
  unfold Minutes at hv
  rw [hv] at hminutes
  unfold pump_command answer asked
  rcases hm with ⟨rfl, rfl⟩ | ⟨rfl, rfl⟩
  · simp [hword, command_of, hminutes, hv, valuedouble]
  · simp [hword, command_of, hminutes, hv, valuedouble]

end Handler

/-! ## The deadline -/

theorem asked_held {to_uint32 : Rat → UInt32}
    (hcast : ∀ x : Rat, 0 ≤ x → x ≤ 43200 → ((to_uint32 x).toNat : Int) = ⌊x⌋) {v : Rat} (hpos : 0 < double v) :
    ((clamp_duration (asked to_uint32 v)).toNat : Int) = heldFor v := by
  have hmax : MANUAL_MAX_S.toNat = 43200 := rfl
  have hclamp := clamp_duration_toNat (asked to_uint32 v)
  have hnonneg : 0 ≤ double (double v * 60) := double_nonneg (by positivity)
  unfold heldFor clampSeconds
  unfold asked at hclamp ⊢
  rw [hmax] at hclamp ⊢
  generalize double (double v * 60) = seconds at *
  by_cases hbig : ((43200 : Nat) : Rat) < seconds
  · have hfloor : (43200 : Int) ≤ ⌊seconds⌋ := Int.le_floor.mpr (by exact_mod_cast hbig.le)
    rw [if_pos hbig, hmax] at hclamp
    rw [if_pos hbig]
    omega
  · rw [if_neg hbig] at hclamp ⊢
    have hle : seconds ≤ 43200 := by exact_mod_cast not_lt.mp hbig
    have hfloor := hcast seconds hnonneg hle
    omega

/-- A decision that leaves an override leaves the one it found. -/
theorem decision_keeps {c : Control} {sec : Section} {s : CtlState} (hs : sec.seen c = some s)
    (hm : (sec.exec c).s_state.manual ≠ .None) :
    (sec.exec c).s_state.manual = s.manual ∧ (sec.exec c).s_state.manual_until_s = s.manual_until_s := by
  rw [exec_s_state hs] at hm ⊢
  unfold decisionOf at hm ⊢
  rw [ctl_decide_manual] at hm ⊢
  rw [ctl_decide_manual_until]
  refine ⟨?_, rfl⟩
  unfold manualAfter at hm ⊢
  split at hm
  · exact absurd rfl hm
  · rename_i hnot
    exact if_neg hnot

theorem read_keeps {c : Control} {fs st : Settings} {date : LocalDate} {now : Int} {read : Option (Option Int)}
    {s : CtlState} (hs : (Section.task fs st date now read).seen c = some s) :
    s.manual = c.s_state.manual ∧ s.manual_until_s = c.s_state.manual_until_s := by
  cases read with
  | none =>
    cases hs
    exact ⟨rfl, rfl⟩
  | some reading =>
    cases hs
    exact ⟨ctl_sensor_manual .., ctl_sensor_manual_until ..⟩

theorem override_set (boot : Int) (h : List Section) (hm : (controlAfter boot h).s_state.manual ≠ .None) :
    Since (SetsOverride boot (controlAfter boot h).s_state.manual (controlAfter boot h).s_state.manual_until_s)
      (AcceptedCommand boot) h := by
  induction h using List.reverseRecOn with
  | nil => exact absurd rfl hm
  | append_singleton h sec ih =>
    have hstep : controlAfter boot (h ++ [sec]) = sec.exec (controlAfter boot h) := run_snoc ..
    rw [hstep] at hm ⊢
    rw [since_snoc]
    cases hs : sec.seen (controlAfter boot h) with
    | none =>
      obtain ⟨st, date, now, m, d, who, rfl, hrefused⟩ := seen_none hs
      rw [exec_refused hs] at hm ⊢
      refine Or.inr ⟨?_, ih hm⟩
      simp [AcceptedCommand, hrefused]
    | some s =>
      obtain ⟨hmanual, huntil⟩ := decision_keeps hs hm
      rw [hmanual] at hm
      rw [hmanual, huntil]
      cases sec with
      | task fs st date now read =>
        obtain ⟨hsame, hsame'⟩ := read_keeps hs
        rw [hsame] at hm
        rw [hsame, hsame']
        exact Or.inr ⟨fun hc => hc, ih hm⟩
      | command st date now m d who =>
        have hclamp := clamp_duration_toNat d
        simp only [Section.seen] at hs
        obtain ⟨-, rfl⟩ := ctl_manual_accepted hs
        refine Or.inl ⟨?_, ⟨st, date, d, who, rfl⟩, ?_⟩
        · simp [AcceptedCommand, hs]
        · simp only [deadline, if_neg hm, Section.now_s]
          omega

/-! ## The command, end to end -/

theorem word_cases (body : Json) :
    BadState body ∨ Asks body "start" ∨ Asks body "stop" ∨ Asks body "auto" := by
  by_cases h : BadState body
  · exact Or.inl h
  · unfold BadState at h
    push Not at h
    obtain ⟨word, hw, hasks⟩ := h
    simp only [List.mem_cons, List.not_mem_nil, or_false] at hw
    rcases hw with rfl | rfl | rfl
    · exact Or.inr (Or.inl hasks)
    · exact Or.inr (Or.inr (Or.inl hasks))
    · exact Or.inr (Or.inr (Or.inr hasks))

theorem asks_unique {body : Json} {w w' : String} (h : Asks body w) (h' : Asks body w') : w = w' := by
  unfold Asks at h h'
  rw [h] at h'
  simpa using h'

theorem good_minutes {body : Json} {word : String} (hw : word = "start" ∨ word = "stop") (hasks : Asks body word)
    (hgood : ¬ BadMinutes body) : ∃ v, Minutes body v ∧ 0 < double v := by
  by_contra hno
  push Not at hno
  apply hgood
  refine ⟨?_, hno⟩
  rcases hw with rfl | rfl
  · exact Or.inl hasks
  · exact Or.inr hasks

/-- The cast is only asked for values from 0 to `MANUAL_MAX_S`. -/
theorem pump_command_congr {to_uint32 to_uint32' : Rat → UInt32}
    (hsame : ∀ x : Rat, 0 ≤ x → x ≤ 43200 → to_uint32' x = to_uint32 x) (c : Control) (st : Settings)
    (date : LocalDate) (now : Int) (body : Json) (who : String) :
    pump_command to_uint32' c st date now body who = pump_command to_uint32 c st date now body who := by
  have hasked : ∀ v : Rat, 0 < double v → asked to_uint32' v = asked to_uint32 v := by
    intro v hpos
    have hmax : MANUAL_MAX_S.toNat = 43200 := rfl
    have hnonneg : 0 ≤ double (double v * 60) := double_nonneg (by positivity)
    unfold asked
    rw [hmax]
    split
    · rfl
    · rename_i hbig
      exact hsame _ hnonneg (by exact_mod_cast not_lt.mp hbig)
  by_cases hbad : BadMinutes body
  · rw [pump_bad_minutes _ _ _ _ _ _ _ hbad, pump_bad_minutes _ _ _ _ _ _ _ hbad]
  · rcases word_cases body with hstate | hstart | hstop | hauto
    · rw [pump_bad_state _ _ _ _ _ _ _ hstate, pump_bad_state _ _ _ _ _ _ _ hstate]
    · obtain ⟨v, hv, hpos⟩ := good_minutes (Or.inl rfl) hstart hbad
      rw [pump_ordered _ _ _ _ _ _ _ (Or.inl ⟨rfl, rfl⟩) hstart hv hpos,
        pump_ordered _ _ _ _ _ _ _ (Or.inl ⟨rfl, rfl⟩) hstart hv hpos, hasked v hpos]
    · obtain ⟨v, hv, hpos⟩ := good_minutes (Or.inr rfl) hstop hbad
      rw [pump_ordered _ _ _ _ _ _ _ (Or.inr ⟨rfl, rfl⟩) hstop hv hpos,
        pump_ordered _ _ _ _ _ _ _ (Or.inr ⟨rfl, rfl⟩) hstop hv hpos, hasked v hpos]
    · rw [pump_auto _ _ _ _ _ _ _ hauto, pump_auto _ _ _ _ _ _ _ hauto]

theorem minutes_unique {body : Json} {v v' : Rat} (h : Minutes body v) (h' : Minutes body v') : v = v' := by
  unfold Minutes at h h'
  rw [h] at h'
  simpa using h'

/-- The reply to a command that control.c accepted, and the relay. -/
theorem answer_ok (boot : Int) (h : List Section) (st : Settings) (date : LocalDate) (now : Int) {m : CtlManual}
    (d : UInt32) (who : String) (hok : ¬ (m = .Stop ∧ (controlAfter boot h).s_state.overheat = true)) :
    let r := answer (control_manual (controlAfter boot h) st date now m d who)
    r.1 = (control_manual (controlAfter boot h) st date now m d who).1 ∧ r.2 = .status ∧
      r.1.relay = r.1.s_state.on := by
  have hres : (control_manual (controlAfter boot h) st date now m d who).2 ≠ .CONTROL_REFUSED_OVERHEAT := by
    rw [control_manual_ok hok]
    decide
  have hrelay := (Account.faithful_run boot (h ++ [.command st date now m d who])).relay
  unfold controlAfter at hrelay
  rw [run_snoc] at hrelay
  unfold answer
  rw [if_neg hres]
  exact ⟨rfl, rfl, hrelay⟩

theorem performed_order {body : Json} {word : String} {m : CtlManual} {now : Int} {c : Control} {v : Rat}
    (hm : Order word m) (hword : Asks body word) (hv : Minutes body v)
    (hc : Holds c.s_state m (now + heldFor v) (decide (m = .Start))) : Performed body now c := by
  have hsame {v' : Rat} (hv' : Minutes body v') : v' = v := minutes_unique hv' hv
  rcases hm with ⟨rfl, rfl⟩ | ⟨rfl, rfl⟩
  · constructor
    · intro _ v' hv'
      rw [hsame hv']
      exact hc
    · exact fun hstop => absurd (asks_unique hword hstop) (by decide)
    · exact fun hauto => absurd (asks_unique hword hauto) (by decide)
  · constructor
    · exact fun hstart => absurd (asks_unique hword hstart) (by decide)
    · intro _ v' hv'
      rw [hsame hv']
      exact hc
    · exact fun hauto => absurd (asks_unique hword hauto) (by decide)

section Outcome

variable (boot : Int) (h : List Section) {to_uint32 : Rat → UInt32}
  (hcast : ∀ x : Rat, 0 ≤ x → x ≤ 43200 → ((to_uint32 x).toNat : Int) = ⌊x⌋) (st : Settings) (date : LocalDate)
  (now : Int) {body : Json} (who : String)

include hcast in
theorem order_answer {word : String} {m : CtlManual} (hm : Order word m) (hword : Asks body word)
    (hgood : ¬ BadMinutes body) (hok : ¬ (m = .Stop ∧ (controlAfter boot h).s_state.overheat = true)) :
    let r := pump_command to_uint32 (controlAfter boot h) st date now body who
    r.2 = .status ∧ r.1.relay = r.1.s_state.on ∧ Performed body now r.1 := by
  have hw : word = "start" ∨ word = "stop" := hm.imp And.left And.left
  have hset : m ≠ .None := by rcases hm with ⟨-, rfl⟩ | ⟨-, rfl⟩ <;> decide
  obtain ⟨v, hv, hpos⟩ := good_minutes hw hword hgood
  obtain ⟨hstate, hreply, hrelay⟩ := answer_ok boot h st date now (asked to_uint32 v) who hok
  rw [pump_ordered to_uint32 _ st date now body who hm hword hv hpos]
  refine ⟨hreply, hrelay, performed_order hm hword hv ?_⟩
  rw [hstate, ← asked_held hcast hpos]
  exact order_holds hset hok

theorem auto_answer (to_uint32 : Rat → UInt32) (hauto : Asks body "auto") :
    let r := pump_command to_uint32 (controlAfter boot h) st date now body who
    r.2 = .status ∧ r.1.relay = r.1.s_state.on ∧ Performed body now r.1 := by
  obtain ⟨hstate, hreply, hrelay⟩ := answer_ok boot h st date now 0 who
    (show ¬ (CtlManual.None = .Stop ∧ (controlAfter boot h).s_state.overheat = true) by simp)
  rw [pump_auto to_uint32 _ st date now body who hauto]
  refine ⟨hreply, hrelay, ?_, ?_, ?_⟩
  · exact fun hstart => absurd (asks_unique hauto hstart) (by decide)
  · exact fun hstop => absurd (asks_unique hauto hstop) (by decide)
  · intro _
    rw [hstate]
    exact auto_none

end Outcome

/-! ## How far the doubles are from the decimals -/

theorem heldFor_whole {n : Int} (h0 : 0 ≤ n) (h : n ≤ 2 ^ 40) : heldFor n = clampSeconds (60 * n) := by
  have hminutes : double (n : Rat) = n := double_intCast (by rw [abs_of_nonneg h0]; omega)
  have hseconds : double ((n : Rat) * 60) = n * 60 := by
    have := double_intCast (n := n * 60) (by rw [abs_of_nonneg (by omega)]; omega)
    push_cast at this
    exact this
  unfold heldFor
  rw [hminutes, hseconds, mul_comm]

theorem clampSeconds_near {x y : Rat} (h : |x - y| ≤ 1) : |clampSeconds x - clampSeconds y| ≤ 1 := by
  rw [abs_le] at h
  have hxy : ⌊x⌋ ≤ ⌊y + 1⌋ := Int.floor_le_floor (by linarith)
  have hyx : ⌊y⌋ ≤ ⌊x + 1⌋ := Int.floor_le_floor (by linarith)
  rw [Int.floor_add_one] at hxy hyx
  unfold clampSeconds
  rw [abs_le]
  omega

theorem clampSeconds_full {x : Rat} (h : 43200 ≤ x) : clampSeconds x = 43200 := by
  have hfloor : (43200 : Int) ≤ ⌊x⌋ := Int.le_floor.mpr (by exact_mod_cast h)
  unfold clampSeconds
  omega

/-- The command is never more than a second longer or shorter than the decimals say. -/
theorem heldFor_near (v : Rat) (hpos : 0 ≤ v) : |heldFor v - clampSeconds (60 * v)| ≤ 1 := by
  rcases le_or_gt 720 v with hlong | hshort
  · -- Twelve hours and more are cut off on both sides.
    have hminutes : (720 : Rat) ≤ double v := le_double (n := 720) (by decide) hlong
    have hseconds : (43200 : Rat) ≤ double (double v * 60) :=
      le_double (n := 43200) (by decide) (by push_cast; linarith)
    rw [heldFor, clampSeconds_full hseconds, clampSeconds_full (by linarith), sub_self, abs_zero]
    exact zero_le_one
  · have hminutes := abs_le.mp (double_near (x := v) (by rw [abs_of_nonneg hpos]; linarith))
    have hseconds := abs_le.mp (double_near (x := double v * 60) (by rw [abs_lt]; constructor <;> linarith))
    exact clampSeconds_near (abs_le.mpr (by constructor <;> linarith))

/-! ## The law -/

/-- Every body has one of four outcomes, whatever the cast makes of values above `MANUAL_MAX_S`. The seconds are
those of doubles, at most one off. -/
theorem pump_command_law (boot : Int) (h : List Section) (to_uint32 : Rat → UInt32)
    (hcast : ∀ x : Rat, 0 ≤ x → x ≤ 43200 → ((to_uint32 x).toNat : Int) = ⌊x⌋) (st : Settings)
    (date : LocalDate) (now : Int) (body : Json) (who : String) :
    let c := controlAfter boot h
    let r := pump_command to_uint32 c st date now body who
    let valid := ¬ (BadState body ∨ BadMinutes body)
    let refused := Asks body "stop" ∧ c.s_state.overheat = true
    (BadState body → r = (c, .error "400 Bad Request" "state")) ∧
      (BadMinutes body → r = (c, .error "400 Bad Request" "minutes")) ∧
      (valid → refused → r = (c, .error "409 Conflict" "overheat")) ∧
      (valid → ¬ refused → r.2 = .status ∧ r.1.relay = r.1.s_state.on ∧ Performed body now r.1) ∧
      (∀ v : Rat, 0 ≤ v → |heldFor v - clampSeconds (60 * v)| ≤ 1) ∧
      (∀ n : Int, 0 ≤ n → n ≤ 2 ^ 40 → heldFor n = clampSeconds (60 * n)) ∧
      (∀ to_uint32' : Rat → UInt32, (∀ x : Rat, 0 ≤ x → x ≤ 43200 → to_uint32' x = to_uint32 x) →
        pump_command to_uint32' c st date now body who = r) ∧
      (c.s_state.manual ≠ .None →
        Since (SetsOverride boot c.s_state.manual c.s_state.manual_until_s) (AcceptedCommand boot) h) := by
  intro c r valid refused
  refine ⟨fun hb => pump_bad_state to_uint32 c st date now body who hb,
    fun hb => pump_bad_minutes to_uint32 c st date now body who hb, ?_, ?_, heldFor_near,
    fun _ h0 h => heldFor_whole h0 h,
    fun to_uint32' hsame => pump_command_congr hsame c st date now body who, override_set boot h⟩
  · rintro hvalid ⟨hstop, hhot⟩
    obtain ⟨v, hv, hpos⟩ := good_minutes (Or.inr rfl) hstop (fun hb => hvalid (Or.inr hb))
    have hr : r = _ := pump_ordered to_uint32 c st date now body who (Or.inr ⟨rfl, rfl⟩) hstop hv hpos
    rw [hr, control_manual_refused ⟨rfl, hhot⟩]
    rfl
  · intro hvalid hok
    have hminutes : ¬ BadMinutes body := fun hb => hvalid (Or.inr hb)
    rcases word_cases body with hbad | hstart | hstop | hauto
    · exact absurd (Or.inl hbad) hvalid
    · have hnot : ¬ (CtlManual.Start = .Stop ∧ c.s_state.overheat = true) := by simp
      exact order_answer boot h hcast st date now who (Or.inl ⟨rfl, rfl⟩) hstart hminutes hnot
    · exact order_answer boot h hcast st date now who (Or.inr ⟨rfl, rfl⟩) hstop hminutes
        fun hhot => hok ⟨hstop, hhot.2⟩
    · exact auto_answer boot h st date now who to_uint32 hauto

def truncated (x : Rat) : UInt32 := UInt32.ofNat ⌊x⌋.toNat

theorem truncated_cast (x : Rat) (h0 : 0 ≤ x) (h : x ≤ 43200) : ((truncated x).toNat : Int) = ⌊x⌋ := by
  have hlow : 0 ≤ ⌊x⌋ := Int.floor_nonneg.mpr h0
  have hhigh : ⌊x⌋ ≤ 43200 := by
    have := Int.floor_le_floor h
    simpa using this
  unfold truncated
  rw [UInt32.toNat_ofNat']
  omega

def started (minutes : Rat) : Json := .obj [("state", .str "start"), ("minutes", .num minutes)]

theorem seconds_four_point_one : heldFor (41 / 10) = 245 := by
  have hminutes : double (41 / 10) = 4616189618054758 * 2 ^ (-50 : Int) :=
    Format.round_eq (by decide) (by norm_num [binary64]) (by norm_num [binary64])
      (nearestEven_eq (by norm_num [abs_lt]))
  have hseconds : double (4616189618054758 * 2 ^ (-50 : Int) * 60) = 8655355533852671 * 2 ^ (-45 : Int) :=
    Format.round_eq (by decide) (by norm_num [binary64]) (by norm_num [binary64])
      (nearestEven_eq (by norm_num [abs_lt]))
  have hfloor : ⌊(8655355533852671 : Rat) * 2 ^ (-45 : Int)⌋ = 245 := by
    rw [Int.floor_eq_iff]
    norm_num
  rw [heldFor, hminutes, hseconds, clampSeconds, hfloor]
  decide

/-- 4.1 minutes are 246 s, and the doubles make 245 of them; what is too small for a double is no time at all. -/
theorem a_second_short :
    let c := controlAfter 0 []
    let r (minutes : Rat) := pump_command truncated c default_settings ⟨false, 0⟩ 100 (started minutes) "admin"
    ((r (41 / 10)).1.s_state.manual_until_s = 100 + 245 ∧ clampSeconds (60 * (41 / 10)) = 246) ∧
      0 < (2 ^ (-1100 : Int) : Rat) ∧ r (2 ^ (-1100 : Int)) = (c, .error "400 Bad Request" "minutes") := by
  have hminutes (v : Rat) : Minutes (started v) v := rfl
  have hstart (v : Rat) : Asks (started v) "start" := rfl
  refine ⟨⟨?_, by norm_num [clampSeconds]⟩, by positivity, ?_⟩
  · have hpos : 0 < double (41 / 10) := lt_of_lt_of_le (by norm_num) (le_double (n := 4) (by decide) (by norm_num))
    have hok : ¬ (CtlManual.Start = .Stop ∧ (controlAfter 0 []).s_state.overheat = true) := by simp
    obtain ⟨hstate, -, -⟩ := answer_ok 0 [] default_settings ⟨false, 0⟩ 100 (asked truncated (41 / 10)) "admin" hok
    dsimp only
    rw [pump_ordered truncated _ _ _ _ _ _ (Or.inl ⟨rfl, rfl⟩) (hstart _) (hminutes _) hpos, hstate,
      (command_kept (by decide) hok).2, asked_held truncated_cast hpos, seconds_four_point_one]
  · have htiny : double (2 ^ (-1100 : Int)) = 0 := by
      refine Format.round_tiny ?_
      rw [abs_of_pos (by positivity)]
      exact zpow_lt_zpow_right₀ one_lt_two (by decide)
    refine pump_bad_minutes _ _ _ _ _ _ _ ⟨Or.inl (hstart _), fun v hv => ?_⟩
    rw [minutes_unique hv (hminutes _), htiny]

theorem four_minutes_and_five_seconds :
    Holds (pump_command truncated (controlAfter 0 []) default_settings ⟨false, 0⟩ 100 (started (41 / 10))
      "admin").1.s_state .Start (100 + 245) true := by
  have hstart : Asks (started (41 / 10)) "start" := rfl
  have hminutes : Minutes (started (41 / 10)) (41 / 10) := rfl
  obtain ⟨-, -, -, hperformed, -⟩ := pump_command_law 0 [] truncated truncated_cast default_settings ⟨false, 0⟩ 100
    (started (41 / 10)) "admin"
  have hgood : ¬ (BadState (started (41 / 10)) ∨ BadMinutes (started (41 / 10))) := by
    rintro (hb | ⟨-, hb⟩)
    · exact hb "start" (by simp) hstart
    · have hlow : ((4 : Int) : Rat) ≤ double (41 / 10) := le_double (by decide) (by norm_num)
      exact absurd (hlow.trans (hb _ hminutes)) (by decide)
  have hnot : ¬ (Asks (started (41 / 10)) "stop" ∧ (controlAfter 0 []).s_state.overheat = true) :=
    fun hstop => absurd (asks_unique hstart hstop.1) (by decide)
  rw [← seconds_four_point_one]
  exact (hperformed hgood hnot).2.2.start hstart _ hminutes

end FloorHeating.Commands
