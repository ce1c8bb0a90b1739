import FloorHeating.Account
import FloorHeating.Lib.Streak
import FloorHeating.Spec.Api
import FloorHeating.Spec.Sensor
import FloorHeating.Task

/-! # A new sensor is picked up -/

open FloorHeating.Lib

namespace FloorHeating.Sensor

/-! ## One read -/

section Read

variable {s : TempSensor} {bus : Bus}

def afterMeasure (s : TempSensor) (m : Measurement) : TempSensor × Option Int16 :=
  if m.Valid then ({ s with s_failures := 0 }, some (Int16.ofInt m.value))
  else
    (if SENSOR_FAIL_READS ≤ s.s_failures + 1 then { s with s_found := false, s_failures := 0 }
      else { s with s_failures := s.s_failures + 1 }, none)

theorem temp_sensor_read_eq (s : TempSensor) (bus : Bus) :
    temp_sensor_read s bus =
      if (scan_devices s bus).2 then
        afterMeasure (scan_devices s bus).1 (bus.measure (scan_devices s bus).1.s_addr)
      else ((scan_devices s bus).1, none) := by
  unfold temp_sensor_read
  obtain ⟨s', known⟩ := scan_devices s bus
  cases known with
  | false => rfl
  | true =>
    generalize hm : bus.measure s'.s_addr = m
    simp only [not_true_eq_false, if_false, if_true, hm]
    unfold afterMeasure
    by_cases hv : m.Valid
    · obtain ⟨hok, h850, hlow, hhigh⟩ := hv
      have hgood : ¬ (m.err ≠ .ESP_OK ∨ m.value = SENSOR_POWER_ON_VALUE_X10 ∨ m.value < -550 ∨ 1250 < m.value) := by
        rintro (hbad | hbad | hbad | hbad)
        · exact hbad hok
        · exact h850 hbad
        · omega
        · omega
      rw [if_pos hok, if_neg hgood, if_pos ⟨hok, h850, hlow, hhigh⟩]
    · rw [if_neg hv, if_pos]
      by_cases hok : m.err = .ESP_OK
      · rw [if_pos hok]
        by_contra hgood
        simp only [not_or] at hgood
        obtain ⟨-, h850, hlow, hhigh⟩ := hgood
        exact hv ⟨hok, h850, by omega, by omega⟩
      · exact Or.inl hok

theorem scan_known (hs : s.s_found = true) : scan_devices s bus = (s, true) := by
  unfold scan_devices
  rw [if_pos hs]

theorem scan_failures (s : TempSensor) (bus : Bus) :
    (scan_devices s bus).1.s_failures = s.s_failures ∧ (scan_devices s bus).1.s_found = (scan_devices s bus).2 := by
  unfold scan_devices
  split
  · rename_i hs
    exact ⟨rfl, hs⟩
  · rename_i hs
    dsimp only
    split
    · exact ⟨rfl, by simpa using hs⟩
    · exact ⟨rfl, rfl⟩

theorem scan_working {b : UInt64} (hw : Working bus b) (hs : s.s_found = false) :
    scan_devices s bus = ({ s with s_addr := b, s_found := true }, true) := by
  unfold scan_devices
  rw [hw.scan, hs]
  rfl

/-- The counter is reset at the third failure. -/
def Counting (s : TempSensor) : Prop := s.s_failures.toNat ≤ 2

theorem failures_succ (hs : Counting s) : (s.s_failures + 1).toNat = s.s_failures.toNat + 1 := by
  unfold Counting at hs
  rw [UInt8.toNat_add]
  simp only [UInt8.reduceToNat]
  omega

theorem fails_three (hs : Counting s) : SENSOR_FAIL_READS ≤ s.s_failures + 1 ↔ 2 ≤ s.s_failures.toNat := by
  rw [UInt8.le_iff_toNat_le, failures_succ hs, show SENSOR_FAIL_READS.toNat = 3 from rfl]
  omega

theorem afterMeasure_counting (hs : Counting s) (m : Measurement) : Counting (afterMeasure s m).1 := by
  unfold afterMeasure
  split
  · exact Nat.zero_le 2
  · dsimp only
    split
    · exact Nat.zero_le 2
    · rename_i hfew
      rw [fails_three hs] at hfew
      unfold Counting
      rw [failures_succ hs]
      omega

theorem read_counting (hs : Counting s) (bus : Bus) : Counting (temp_sensor_read s bus).1 := by
  have hscan : Counting (scan_devices s bus).1 := by
    unfold Counting
    rw [(scan_failures s bus).1]
    exact hs
  rw [temp_sensor_read_eq]
  split
  · exact afterMeasure_counting hscan _
  · exact hscan

theorem read_range {t : Int16} (ht : (temp_sensor_read s bus).2 = some t) : -550 ≤ t.toInt ∧ t.toInt ≤ 1250 := by
  rw [temp_sensor_read_eq] at ht
  split at ht
  · unfold afterMeasure at ht
    split at ht
    · rename_i hv
      obtain ⟨-, -, hlow, hhigh⟩ := hv
      rw [← Option.some.inj ht, Int16.toInt_ofInt_of_le (by omega) (by omega)]
      exact ⟨hlow, hhigh⟩
    · cases ht
  · cases ht

end Read

/-! ## The working sensor -/

section Working

variable {s : TempSensor} {bus : Bus} {b : UInt64}

/-- The reads that may still fail: those that the old address has left. -/
def failsLeft (s : TempSensor) (b : UInt64) : Nat :=
  if s.s_found = true ∧ s.s_addr ≠ b then 3 - s.s_failures.toNat else 0

theorem failsLeft_le (s : TempSensor) (b : UInt64) : failsLeft s b ≤ 3 := by
  unfold failsLeft
  split
  · exact Nat.sub_le ..
  · exact Nat.zero_le 3

theorem read_ready (hw : Working bus b) (hs : failsLeft s b = 0) (hc : Counting s) :
    (temp_sensor_read s bus).2 = some (Int16.ofInt (bus.measure b).value) ∧
      failsLeft (temp_sensor_read s bus).1 b = 0 := by
  have hscan : scan_devices s bus = ({ s with s_addr := b, s_found := true }, true) := by
    by_cases hf : s.s_found = true
    · have haddr : s.s_addr = b := by
        by_contra hne
        unfold failsLeft at hs
        unfold Counting at hc
        rw [if_pos ⟨hf, hne⟩] at hs
        omega
      rw [scan_known hf, ← haddr, ← hf]
    · exact scan_working hw (by simpa using hf)
  rw [temp_sensor_read_eq, hscan]
  simp only [if_true, afterMeasure, if_pos hw.measure, failsLeft]
  simp

theorem read_old (hw : Working bus b) (hc : Counting s) {n : Nat} (hs : failsLeft s b = n + 1) :
    (temp_sensor_read s bus).2 = none ∧ failsLeft (temp_sensor_read s bus).1 b = n := by
  unfold failsLeft at hs
  split at hs
  · rename_i hold
    obtain ⟨hf, hne⟩ := hold
    rw [temp_sensor_read_eq, scan_known hf]
    simp only [if_true, afterMeasure, if_neg (hw.other _ hne), true_and]
    split
    · rename_i hmany
      rw [fails_three hc] at hmany
      unfold failsLeft
      rw [if_neg (by simp)]
      unfold Counting at hc
      omega
    · unfold failsLeft
      rw [if_pos ⟨hf, hne⟩, failures_succ hc]
      omega
  · cases hs

theorem read_value {t : Int16} (hw : Working bus b) (hc : Counting s) (ht : (temp_sensor_read s bus).2 = some t) :
    t.toInt = (bus.measure b).value := by
  cases hleft : failsLeft s b with
  | zero =>
    rw [(read_ready hw hleft hc).1] at ht
    obtain ⟨-, -, hlow, hhigh⟩ := hw.measure
    rw [← Option.some.inj ht]
    exact Int16.toInt_ofInt_of_le (by omega) (by omega)
  | succ n =>
    rw [(read_old hw hc hleft).1] at ht
    cases ht

end Working

/-! ## Runs -/

section Runs

variable {d : Device}

theorem asks_pass {x : DeviceTurn} {bus : Bus} (h : d.asks x = some bus) :
    ∃ p, x = .pass p bus ∧ d.task.reads p := by
  cases x with
  | pass p bus' =>
    simp only [Device.asks] at h
    split at h
    · rename_i hr
      rw [Option.some.inj h]
      exact ⟨p, rfl, hr⟩
    · cases h
  | command settings date now m dur who => cases h

theorem sensor_asked {x : DeviceTurn} {bus : Bus} (h : d.asks x = some bus) :
    (x.exec d).sensor = (temp_sensor_read d.sensor bus).1 := by
  unfold DeviceTurn.exec
  rw [h]

theorem sensor_kept {x : DeviceTurn} (h : d.asks x = none) : (x.exec d).sensor = d.sensor := by
  unfold DeviceTurn.exec
  rw [h]

theorem exec_counting (hc : Counting d.sensor) (x : DeviceTurn) : Counting (x.exec d).sensor := by
  cases hasks : d.asks x with
  | none =>
    rw [sensor_kept hasks]
    exact hc
  | some bus =>
    rw [sensor_asked hasks]
    exact read_counting hc bus

theorem counting_after (boot : Int) (l : List DeviceTurn) : Counting (deviceAfter boot l).sensor := by
  induction l using List.reverseRecOn with
  | nil => exact Nat.zero_le 2
  | append_singleton l x ih =>
    unfold deviceAfter at *
    rw [run_snoc]
    exact exec_counting ih x

theorem turn_inRange (d : Device) (x : DeviceTurn) : (TaskRun.turnSection d.task (x.turn d)).InRange := by
  cases x with
  | command settings date now m dur who =>
    intro r hr
    cases hr
  | pass p bus =>
    simp only [DeviceTurn.turn, TaskRun.turnSection, TaskRun.passSection]
    split
    · intro r hr
      cases ht : (temp_sensor_read d.sensor bus).2 with
      | none =>
        rw [ht] at hr
        cases hr
      | some t =>
        rw [ht] at hr
        cases hr
        exact read_range ht
    · intro r hr
      cases hr

/-- Once the old address has no reads left that may fail, none fails. -/
theorem readings_split {b : UInt64} (l : List DeviceTurn) (hc : Counting d.sensor)
    (hwork : ∀ p bus, .pass p bus ∈ l → Working bus b) :
    ∃ failed worked, readingsFrom d l = failed ++ worked ∧ failed.length ≤ failsLeft d.sensor b ∧
      (∀ r ∈ failed, r = none) ∧ ∀ r ∈ worked, r.isSome = true := by
  induction l generalizing d with
  | nil => exact ⟨[], [], rfl, Nat.zero_le _, by simp, by simp⟩
  | cons x l ih =>
    obtain ⟨failed, worked, heq, hlen, hfailed, hworked⟩ :=
      ih (exec_counting hc x) fun p bus hp => hwork p bus (List.mem_cons_of_mem x hp)
    rw [readingsFrom]
    cases hasks : d.asks x with
    | none =>
      rw [sensor_kept hasks] at hlen
      exact ⟨failed, worked, heq, hlen, hfailed, hworked⟩
    | some bus =>
      obtain ⟨p, rfl, -⟩ := asks_pass hasks
      have hw : Working bus b := hwork p bus (by simp)
      rw [sensor_asked hasks] at hlen
      cases hleft : failsLeft d.sensor b with
      | zero =>
        obtain ⟨hread, hnone⟩ := read_ready hw hleft hc
        rw [hnone, Nat.le_zero, List.length_eq_zero_iff] at hlen
        subst hlen
        refine ⟨[], some (Int16.ofInt (bus.measure b).value) :: worked, ?_, Nat.zero_le _, by simp, ?_⟩
        · rw [Option.map_some, hread, heq]
          rfl
        · simpa using hworked
      | succ n =>
        obtain ⟨hread, hless⟩ := read_old hw hc hleft
        rw [hless] at hlen
        refine ⟨none :: failed, worked, ?_, by simpa using hlen, by simpa using hfailed, hworked⟩
        rw [Option.map_some, hread, heq]
        rfl

theorem success_releases {p : Pass} {bus : Bus} {t : Int16} (hr : d.task.reads p)
    (ht : (temp_sensor_read d.sensor bus).2 = some t) :
    Released d.task.control (sensorCall d.task.control p (some t))
      ((DeviceTurn.pass p bus).exec d).task.control := by
  have hcall : sensorCall d.task.control p (some t) =
      ctl_sensor d.task.control.s_state (config_from_settings p.for_sensor) p.read_s true t.toInt {} := rfl
  have hexec : ((DeviceTurn.pass p bus).exec d).task.control =
      (Section.task p.for_sensor p.settings p.date p.read_s (some (some t.toInt))).exec d.task.control := by
    have hpass := congrArg Task.control (TaskRun.control_task_eq d.task { p with reading := some t })
    unfold TaskRun.passSection at hpass
    rw [if_pos (show d.task.reads { p with reading := some t } from hr)] at hpass
    simp only [DeviceTurn.exec, DeviceTurn.turn, ht]
    exact hpass
  have hseen : (Section.task p.for_sensor p.settings p.date p.read_s (some (some t.toInt))).seen d.task.control =
      some (sensorCall d.task.control p (some t)).1 := rfl
  have hcleared : (sensorCall d.task.control p (some t)).1.sensor_failed = false ∧
      (sensorCall d.task.control p (some t)).1.failures = 0 := by
    rw [hcall, ctl_sensor_valid]
    exact ⟨rfl, rfl⟩
  have hkept : ((DeviceTurn.pass p bus).exec d).task.control.s_state.sensor_failed = false ∧
      ((DeviceTurn.pass p bus).exec d).task.control.s_state.failures = 0 := by
    rw [hexec, Control.exec_s_state hseen, Control.decisionOf, ctl_decide_sensor_failed, ctl_decide_failures]
    exact hcleared
  refine ⟨hcleared, ?_, hkept, ?_⟩
  · rw [hcall, ctl_sensor_valid]
    simp
  · have hlog := Account.log_sensor hseen
    rw [← hexec, hkept.1] at hlog
    unfold Section.events at hlog
    rw [← hexec] at hlog
    rw [hlog, change]
    cases d.task.control.s_state.sensor_failed <;> rfl

end Runs

/-! ## The log of the bus -/

section Log

def failedMeasurement : BusCall → Bool
  | .scan => false
  | .measure _ failed => failed

variable {s : TempSensor} {log : List BusCall}

/-- The streak at the end is counted while a sensor is known. -/
def Counted (s : TempSensor) (log : List BusCall) : Prop :=
  StreaksUpTo failedMeasurement 3 log ∧ (s.s_found = true → streak failedMeasurement log ≤ s.s_failures.toNat)

theorem counted_measure (hc : Counting s) (hlog : Counted s log) (hs : s.s_found = true) (m : Measurement)
    (addr : UInt64) :
    Counted (afterMeasure s m).1 (log ++ [.measure addr (afterMeasure s m).2.isNone]) := by
  obtain ⟨hupto, hstreak⟩ := hlog
  have hle := hstreak hs
  unfold Counting at hc
  unfold Counted
  rw [streaksUpTo_snoc, streak_snoc]
  unfold afterMeasure
  split
  · simpa [failedMeasurement] using hupto
  · simp only [Option.isNone_none, failedMeasurement, if_true]
    refine ⟨⟨hupto, by omega⟩, ?_⟩
    split
    · simp
    · rw [failures_succ hc]
      omega

theorem counted_read (hc : Counting s) (hlog : Counted s log) (bus : Bus) :
    Counted (temp_sensor_read s bus).1 (log ++ busCalls s bus) := by
  unfold busCalls
  by_cases hs : s.s_found = true
  · rw [temp_sensor_read_eq, scan_known hs]
    simp only [hs, if_true, List.nil_append]
    exact counted_measure hc hlog hs _ _
  · obtain ⟨hfailures, hfound⟩ := scan_failures s bus
    have hscanned : Counted (scan_devices s bus).1 (log ++ [.scan]) := by
      unfold Counted
      rw [streaksUpTo_snoc, streak_snoc]
      exact ⟨⟨hlog.1, Nat.zero_le 3⟩, fun _ => Nat.zero_le _⟩
    rw [temp_sensor_read_eq]
    simp only [hs, Bool.false_eq_true, if_false]
    generalize scan_devices s bus = r at *
    obtain ⟨s', known⟩ := r
    cases known with
    | false => simpa using hscanned
    | true =>
      simp only [if_true, ← List.append_assoc]
      refine counted_measure ?_ hscanned hfound _ _
      unfold Counting at *
      rwa [hfailures]

theorem counted_run {d : Device} (l : List DeviceTurn) (hc : Counting d.sensor) (hlog : Counted d.sensor log) :
    StreaksUpTo failedMeasurement 3 (log ++ busLog d l) := by
  induction l generalizing d log with
  | nil => simpa [busLog] using hlog.1
  | cons x l ih =>
    rw [busLog, ← List.append_assoc]
    apply ih (exec_counting hc x)
    cases hasks : d.asks x with
    | none => simpa [sensor_kept hasks] using hlog
    | some bus =>
      rw [sensor_asked hasks]
      exact counted_read hc hlog bus

end Log

/-- However the bus and the sensor behaved before `post`: with a working sensor at most three more
reads fail, all at the front; the first that succeeds ends the fail-safe; and no address is measured
in vain more than three times in a row without a scan. -/
theorem sensor_picked_up (boot : Int) (pre post : List DeviceTurn) (b : UInt64)
    (hwork : ∀ p bus, .pass p bus ∈ post → Working bus b) :
    (∃ failed worked, readingsFrom (deviceAfter boot pre) post = failed ++ worked ∧ failed.length ≤ 3 ∧
      (∀ r ∈ failed, r = none) ∧ ∀ r ∈ worked, r.isSome = true) ∧
    (∀ mid p bus rest t, post = mid ++ .pass p bus :: rest →
      let d := run DeviceTurn.exec (deviceAfter boot pre) mid
      d.task.reads p → (temp_sensor_read d.sensor bus).2 = some t →
        t.toInt = (bus.measure b).value ∧ Released d.task.control (sensorCall d.task.control p (some t))
          ((DeviceTurn.pass p bus).exec d).task.control) ∧
    (∀ seg a, seg <:+: busLog (device_start boot) pre → (∀ c ∈ seg, c = .measure a true) → seg.length ≤ 3) := by
  refine ⟨?_, ?_, fun seg a hseg hall => ?_⟩
  · obtain ⟨failed, worked, heq, hlen, hfailed, hworked⟩ := readings_split post (counting_after boot pre) hwork
    exact ⟨failed, worked, heq, hlen.trans (failsLeft_le _ b), hfailed, hworked⟩
  · intro mid p bus rest t hpost d hr ht
    have hw : Working bus b := hwork p bus (by rw [hpost]; simp)
    have hc : Counting d.sensor := by
      have hd : d = deviceAfter boot (pre ++ mid) := (run_append ..).symm
      rw [hd]
      exact counting_after boot (pre ++ mid)
    exact ⟨read_value hw hc ht, success_releases hr ht⟩
  · have hstart : Counted (device_start boot).sensor [] :=
      ⟨streaksUpTo_nil failedMeasurement 3, fun _ => Nat.zero_le _⟩
    have hlog := counted_run pre (counting_after boot []) hstart
    apply hlog.segment hseg
    intro c hc
    rw [hall c hc]
    rfl

def oneSensor (b : UInt64) : Bus where
  scan := ⟨.ESP_OK, some b, 1⟩
  measure a := if a = b then ⟨.ESP_OK, 215⟩ else ⟨.ESP_FAIL, 0⟩

theorem oneSensor_working (b : UInt64) : Working (oneSensor b) b where
  scan := rfl
  measure := by
    simp only [oneSensor, if_true]
    decide
  other a ha := by
    simp only [oneSensor, if_neg ha]
    decide

def readPass (t : Int) (b : UInt64) : DeviceTurn :=
  .pass ⟨t, t, none, default_settings, default_settings, ⟨false, 0⟩⟩ (oneSensor b)

theorem sensor_swapped :
    ∃ failed worked, readingsFrom (deviceAfter 0 [readPass 0 7])
        [readPass 5 9, readPass 10 9, readPass 15 9, readPass 20 9] = failed ++ worked ∧ failed.length ≤ 3 ∧
      (∀ r ∈ failed, r = none) ∧ ∀ r ∈ worked, r.isSome = true := by
  refine (sensor_picked_up 0 [readPass 0 7] [readPass 5 9, readPass 10 9, readPass 15 9, readPass 20 9] 9 ?_).1
  intro p bus hp
  have hbus : bus = oneSensor 9 := by
    unfold readPass at hp
    simp only [List.mem_cons, List.not_mem_nil, or_false, DeviceTurn.pass.injEq] at hp
    rcases hp with ⟨-, h⟩ | ⟨-, h⟩ | ⟨-, h⟩ | ⟨-, h⟩ <;> exact h
  rw [hbus]
  exact oneSensor_working 9

/-- The old sensor's address fails three times, and the fourth read finds the new one. -/
example :
    readingsFrom (deviceAfter 0 [readPass 0 7]) [readPass 5 9, readPass 10 9, readPass 15 9, readPass 20 9] =
      [none, none, none, some 215] := by
  decide

end FloorHeating.Sensor
