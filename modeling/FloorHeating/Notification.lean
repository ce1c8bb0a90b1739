import FloorHeating.Account
import FloorHeating.Code.Events
import FloorHeating.Task
import Mathlib.Tactic.Linarith
import Mathlib.Tactic.NormNum

/-!
# The temperature in a notification

`temp_text` divides and takes the remainder separately, so the sign is in the
integer part alone: between -0.9 and -0.1 there it is lost.
-/

open FloorHeating.Lib FloorHeating.Control FloorHeating.TaskRun

namespace FloorHeating.Notification

/-! ## Reading the text -/

theorem tdiv_neg_iff (x : Int) : x.tdiv 10 < 0 ↔ x ≤ -10 := by
  rcases Int.le_total 0 x with hx | hx
  · rw [Int.tdiv_eq_ediv_of_nonneg hx]
    omega
  · have hneg : x.tdiv 10 = - ((-x) / 10) := by
      rw [← Int.tdiv_eq_ediv_of_nonneg (by omega), Int.neg_tdiv, Int.neg_neg]
    rw [hneg]
    omega

/-- The sign is written only with an integer part below zero. -/
theorem temp_format_toList (x : Int) :
    (temp_format x).toList = (if x ≤ -10 then ['-'] else []) ++ (Nat.toDigits 10 (x.natAbs / 10) ++
      '.' :: (Nat.toDigits 10 (x.natAbs % 10) ++ " °C".toList)) := by
  have hquot : (x.tdiv 10).natAbs = x.natAbs / 10 := Int.natAbs_tdiv x 10
  have hrem : (x.tmod 10).natAbs = x.natAbs % 10 := Int.natAbs_tmod x 10
  have htext : (temp_format x).toList =
      (toString (x.tdiv 10)).toList ++ ".".toList ++ (toString (x.tmod 10).natAbs).toList ++ " °C".toList := by
    unfold temp_format
    simp only [String.toList_append]
    rfl
  have hdigit : (toString (x.natAbs % 10)).toList = Nat.toDigits 10 (x.natAbs % 10) := Nat.toList_repr
  rw [htext, toList_toString, hquot, hrem, hdigit]
  simp only [tdiv_neg_iff]
  simp

theorem stops_unit : Stops " °C".toList := by
  intro c hc
  obtain rfl : c = ' ' := (Option.some.inj hc).symm
  decide

theorem read_temp (x : Int) :
    number (temp_format x).toList =
      some (if x ≤ -10 then -(x.natAbs / 10 : Rat) else x.natAbs / 10, " °C".toList) := by
  have hsign := number_signed (decide (x ≤ -10)) (x.natAbs / 10)
    ('.' :: (Nat.toDigits 10 (x.natAbs % 10) ++ " °C".toList))
  have hvalue : ((x.natAbs / 10 : Nat) : Rat) + (x.natAbs % 10 : Nat) / 10 = x.natAbs / 10 := by
    have hsplit : ((10 * (x.natAbs / 10) + x.natAbs % 10 : Nat) : Rat) = x.natAbs := by
      rw [Nat.div_add_mod]
    push_cast at hsplit ⊢
    linarith
  simp only [decide_eq_true_eq] at hsign
  rw [temp_format_toList, hsign, unsigned_tenths _ (Nat.mod_lt _ (by decide)) stops_unit, hvalue]
  rfl

theorem read_temp_iff (x : Int) :
    number (temp_format x).toList = some (celsius x, " °C".toList) ↔ 0 ≤ x ∨ x ≤ -10 := by
  rw [read_temp]
  unfold celsius
  simp only [Option.some.injEq, Prod.mk.injEq, and_true]
  rcases Int.le_total 0 x with hx | hx
  · have habs : (x.natAbs : Rat) = x := by rw [← Int.cast_natCast, Int.natAbs_of_nonneg hx]
    rw [habs, if_neg (by omega)]
    exact iff_of_true rfl (Or.inl hx)
  · have habs : (x.natAbs : Rat) = -x := by
      rw [← Int.cast_natCast, Int.ofNat_natAbs_of_nonpos hx, Int.cast_neg]
    rw [habs]
    by_cases hsigned : x ≤ -10
    · rw [if_pos hsigned]
      exact iff_of_true (by ring) (Or.inr hsigned)
    · rw [if_neg hsigned]
      constructor
      · intro he
        have hzero : (x : Rat) = 0 := by linarith
        left
        exact (Int.cast_eq_zero.mp hzero).ge
      · intro hx'
        have hzero : x = 0 := by omega
        rw [hzero]
        norm_num

/-! ## Nothing is cut -/

theorem snprintf_fits {size : Nat} {text : String} (h : bytes text.toList < size) : snprintf size text = text := by
  unfold snprintf
  rw [fitting_of_fits (by omega), String.ofList_toList]

theorem bytes_snprintf_le {size : Nat} (hsize : 0 < size) (text : String) :
    bytes (snprintf size text).toList < size := by
  have := fitting_bytes_le (size - 1) text.toList
  unfold snprintf
  rw [String.toList_ofList]
  omega

theorem bytes_digits_le {n k : Nat} (hk : 0 < k) (hn : n < 10 ^ k) : bytes (Nat.toDigits 10 n) ≤ k := by
  rw [bytes_ascii fun c hc => isDigit_utf8Size (toDigits_isDigit n c hc)]
  exact (Nat.length_toDigits_le_iff (by decide) hk).mpr hn

/-- `-3276.8 °C` has eleven bytes. -/
theorem bytes_temp_le {x : Int} (hlow : -32768 ≤ x) (hhigh : x ≤ 32767) : bytes (temp_format x).toList ≤ 11 := by
  have hsign : bytes (if x ≤ -10 then ['-'] else []) ≤ 1 := by
    split
    · decide
    · exact Nat.zero_le 1
  have hquot := bytes_digits_le (n := x.natAbs / 10) (k := 4) (by decide) (by omega)
  have hrem := bytes_digits_le (n := x.natAbs % 10) (k := 1) (by decide) (by omega)
  have hunit : bytes " °C".toList = 4 := by decide
  have hdot : '.'.utf8Size = 1 := by decide
  rw [temp_format_toList, bytes_append, bytes_append, bytes_cons, bytes_append]
  omega

structure Fits (e : Event) : Prop where
  temp : -32768 ≤ e.temp_x10 ∧ e.temp_x10 ≤ 32767
  detail : bytes e.detail.toList < DETAIL_SIZE

def uncut (_ : Nat) (text : String) : String := text

section Uncut

variable {e : Event} (h : Fits e)

include h

theorem temp_uncut :
    temp_text snprintf e TEMP_SIZE = temp_text uncut e TEMP_SIZE ∧
      bytes (temp_text uncut e TEMP_SIZE).toList ≤ 11 := by
  unfold temp_text uncut
  split
  · have hlen := bytes_temp_le h.temp.1 h.temp.2
    exact ⟨snprintf_fits (Nat.lt_of_le_of_lt hlen (by decide)), hlen⟩
  · exact ⟨snprintf_fits (by decide), by decide⟩

theorem water_fits (front back : String) (hlen : bytes front.toList + bytes back.toList < 149) :
    snprintf MSG_SIZE (front ++ temp_text uncut e TEMP_SIZE ++ back) =
      front ++ temp_text uncut e TEMP_SIZE ++ back := by
  have htemp := (temp_uncut h).2
  apply snprintf_fits
  simp only [String.toList_append, bytes_append]
  unfold MSG_SIZE
  omega

theorem water_last_fits (front : String) (hlen : bytes front.toList < 149) :
    snprintf MSG_SIZE (front ++ temp_text uncut e TEMP_SIZE) = front ++ temp_text uncut e TEMP_SIZE := by
  have hfits := water_fits h front "" (by simpa using hlen)
  rwa [String.append_empty] at hfits

theorem pump_uncut :
    notify_pump snprintf e (temp_text uncut e TEMP_SIZE) = notify_pump uncut e (temp_text uncut e TEMP_SIZE) := by
  have hwater := water_last_fits h "Water " (by decide)
  have hplain := water_fits h "Water " "" (by decide)
  have hended := water_fits h "Water " ", manual run ended" (by decide)
  have hwho := water_fits h "Water " (", " ++ e.detail) (by
    have := h.detail
    have hfixed : bytes "Water ".toList = 6 ∧ bytes ", ".toList = 2 := by decide
    rw [String.toList_append, bytes_append]
    unfold DETAIL_SIZE at this
    omega)
  rw [← String.append_assoc] at hwho
  have hrun := water_last_fits h
    s!"Anti-seize run for {MAINTENANCE_RUN_S} s after {MAINTENANCE_INTERVAL_S / 86400} days idle, water "
    (by decide)
  have hself : ∀ s : String, toString s = s := fun _ => rfl
  unfold notify_pump
  cases e.reason with
  | SensorFail => rfl
  | Overheat => rfl
  | AutoHot => exact congrArg (fun msg => some (Notice.hi_notify_event_ex _ msg _ _)) hwater
  | AutoCold =>
    by_cases hmaint : e.prev_reason = .Maintenance
    · simp only [hmaint, if_true]
    · simp only [hmaint, if_false]
      by_cases hmanual : e.prev_reason = .ManualOn
      · simp only [hmanual, if_true]
        exact congrArg (fun msg => some (Notice.hi_notify_event_ex _ msg _ _)) hended
      · simp only [hmanual, if_false]
        exact congrArg (fun msg => some (Notice.hi_notify_event_ex _ msg _ _)) hplain
  | ManualOn =>
    simp only [hself, hwho]
    rfl
  | ManualOff =>
    simp only [hself, hwho]
    rfl
  | Maintenance => exact congrArg (fun msg => some (Notice.hi_notify_event_ex _ msg _ _)) hrun

theorem notify_uncut : notify snprintf e = notify uncut e := by
  have hdetail := h.detail
  unfold notify
  simp only [(temp_uncut h).1]
  cases e.type with
  | EV_MANUAL_END => rfl
  | EV_OVERHEAT =>
    have hmsg := water_last_fits h "Overheat over: water " (by decide)
    cases e.on with
    | true => simp only [if_true]
    | false => exact congrArg (fun msg => some (Notice.hi_notify_error msg)) hmsg
  | EV_SENSOR =>
    have hmsg := water_last_fits h "Temperature sensor recovered: water " (by decide)
    cases e.on with
    | true => simp only [if_true]
    | false => exact congrArg (fun msg => some (Notice.hi_notify_error msg)) hmsg
  | EV_PUMP => exact pump_uncut h

end Uncut

/-! ## What is published -/

structure Kept (c : Control) : Prop where
  temp : -32768 ≤ c.s_state.temp_x10 ∧ c.s_state.temp_x10 ≤ 32767
  events : ∀ e ∈ c.published, Fits e

theorem kept_start (boot : Int) : Kept (control_start boot) where
  temp := by
    change -32768 ≤ (0 : Int) ∧ (0 : Int) ≤ 32767
    decide
  events := by simp [control_start]

theorem seen_temp {c : Control} {sec : Section} {s : CtlState} (hs : sec.seen c = some s) (hread : Int16Read sec)
    (hc : Kept c) : -32768 ≤ s.temp_x10 ∧ s.temp_x10 ≤ 32767 := by
  cases sec with
  | task fs st date now read =>
    rcases read with - | - | t
    · cases hs
      exact hc.temp
    · cases hs
      simpa [ctl_sensor_failed] using hc.temp
    · cases hs
      simpa [ctl_sensor_valid, Int16Read] using hread
  | command st date now m d who =>
    obtain ⟨-, rfl⟩ := ctl_manual_accepted hs
    exact hc.temp

theorem sectionEvents_fit {c : Control} (htemp : -32768 ≤ c.s_state.temp_x10 ∧ c.s_state.temp_x10 ≤ 32767)
    (now : Int) (r : CtlResult) (detail : Option String) : ∀ e ∈ sectionEvents c now r detail, Fits e := by
  have hcut : ∀ text, bytes (snprintf DETAIL_SIZE text).toList < DETAIL_SIZE := bytes_snprintf_le (by decide)
  have hempty : bytes "".toList < DETAIL_SIZE := by decide
  intro e he
  unfold sectionEvents at he
  rw [List.mem_append, List.mem_append] at he
  rcases he with (he | he) | he
  · unfold sensorEvents at he
    split at he
    · rw [List.mem_singleton.mp he]
      exact ⟨htemp, hempty⟩
    · cases he
  · unfold overheatEvents at he
    split at he
    · rw [List.mem_singleton.mp he]
      exact ⟨htemp, hempty⟩
    · cases he
  · unfold pumpEvents at he
    split at he
    · rw [List.mem_singleton.mp he]
      refine ⟨htemp, ?_⟩
      cases detail with
      | none => exact hempty
      | some text => exact hcut text
    · split at he
      · rw [List.mem_singleton.mp he]
        exact ⟨htemp, hcut _⟩
      · cases he

theorem kept_exec {c : Control} {sec : Section} (hread : Int16Read sec) (hc : Kept c) : Kept (sec.exec c) := by
  cases hs : sec.seen c with
  | none =>
    rw [exec_refused hs]
    exact hc
  | some s =>
    have htemp : -32768 ≤ (decisionOf c sec s).1.temp_x10 ∧ (decisionOf c sec s).1.temp_x10 ≤ 32767 := by
      unfold decisionOf
      rw [ctl_decide_temp_x10]
      exact seen_temp hs hread hc
    constructor
    · rw [exec_s_state hs]
      exact htemp
    · intro e he
      rw [Account.published_eq hs, Account.events_eq hs, List.mem_append] at he
      rcases he with he | he
      · exact hc.events e he
      · exact sectionEvents_fit htemp _ _ _ e he

theorem published_fit (boot : Int) (l : List Turn) : ∀ e ∈ (taskAfter boot l).control.published, Fits e := by
  have hrun : ∀ (h : List Section) (c : Control), Kept c → (∀ sec ∈ h, Int16Read sec) →
      Kept (run Section.exec c h) := by
    intro h
    induction h with
    | nil => exact fun c hc _ => hc
    | cons sec h ih =>
      intro c hc hread
      exact ih (sec.exec c) (kept_exec (hread sec List.mem_cons_self) hc)
        fun s hs => hread s (List.mem_cons_of_mem sec hs)
  rw [taskAfter_control]
  exact (hrun _ _ (kept_start boot) (sections_int16 _ l)).events

/-- The text and the JSON event agree exactly where the sign of the text is right, and nothing that a
run publishes is cut. -/
theorem texts_agree_iff (events_unix_time : Int → Int) :
    (∀ (e : Event) (len : Nat), e.has_temp = true → bytes (temp_format e.temp_x10).toList < len →
      ∃ temp_c, (event_json events_unix_time e).item "temp_c" = some (.num temp_c) ∧
        temp_c = (e.temp_x10 : Rat) / 10 ∧
        (number (temp_text snprintf e len).toList = some (temp_c, " °C".toList) ↔
          0 ≤ e.temp_x10 ∨ e.temp_x10 ≤ -10)) ∧
      (∀ e : Event, Fits e →
        temp_text snprintf e TEMP_SIZE = temp_text uncut e TEMP_SIZE ∧ notify snprintf e = notify uncut e) ∧
      ∀ (boot : Int) (l : List Turn), ∀ e ∈ (taskAfter boot l).control.published, Fits e := by
  refine ⟨?_, fun e he => ⟨(temp_uncut he).1, notify_uncut he⟩, published_fit⟩
  intro e len htemp hlen
  refine ⟨celsius e.temp_x10, ?_, rfl, ?_⟩
  · simp [event_json, Json.item, htemp]
  · unfold temp_text
    rw [if_pos htemp, snprintf_fits hlen]
    exact read_temp_iff e.temp_x10

theorem one_degree_of_frost :
    let e : Event := { type := .EV_OVERHEAT, mono_s := 7, on := false, reason := .AutoCold, has_temp := true
                       temp_x10 := -10 }
    (∃ temp_c, (event_json (fun t => t) e).item "temp_c" = some (.num temp_c) ∧ temp_c = -10 / 10 ∧
      number (temp_text snprintf e TEMP_SIZE).toList = some (temp_c, " °C".toList)) ∧
      notify snprintf e = some (.hi_notify_error "Overheat over: water -1.0 °C") := by
  intro e
  obtain ⟨hread, hcut, -⟩ := texts_agree_iff fun t => t
  obtain ⟨temp_c, hjson, hvalue, hiff⟩ := hread e TEMP_SIZE rfl (by decide)
  refine ⟨⟨temp_c, hjson, by simpa [e] using hvalue, hiff.mpr (Or.inr (by decide))⟩, ?_⟩
  rw [(hcut e ⟨by decide, by decide⟩).2]
  decide

def frost : List Turn := [
  .pass { top_s := 0, read_s := 1, reading := some (-5), for_sensor := default_settings
          settings := default_settings, date := ⟨false, 0⟩ },
  .command default_settings ⟨false, 0⟩ 7 .Start 3600 "admin"]

def frostEvent : Event where
  type := .EV_PUMP
  mono_s := 7
  on := true
  reason := .ManualOn
  has_temp := true
  temp_x10 := -5
  detail := "60 min, admin"

theorem frost_reads_as_warmth :
    (taskAfter 0 frost).control.published = [frostEvent] ∧ temp_text snprintf frostEvent TEMP_SIZE = "0.5 °C" ∧
      (event_json (fun t => t) frostEvent).item "temp_c" = some (.num (-1 / 2)) ∧
      number (temp_text snprintf frostEvent TEMP_SIZE).toList = some (1 / 2, " °C".toList) ∧
      ¬ number (temp_text snprintf frostEvent TEMP_SIZE).toList = some (-1 / 2, " °C".toList) := by
  have htext : temp_text snprintf frostEvent TEMP_SIZE = "0.5 °C" := by decide
  have hnum : number (temp_text snprintf frostEvent TEMP_SIZE).toList = some (1 / 2, " °C".toList) := by
    decide +kernel
  refine ⟨by decide +kernel, htext, ?_, hnum, ?_⟩
  · simp [event_json, Json.item, frostEvent, celsius]
    norm_num
  · rw [hnum]
    simp only [Option.some.injEq, Prod.mk.injEq, and_true]
    norm_num

end FloorHeating.Notification
