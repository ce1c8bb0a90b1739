import FloorHeating.Priority
import FloorHeating.Spec.Maintenance
import Mathlib.Order.Interval.Set.Basic
import Mathlib.Data.Int.Order.Basic

/-! # The maintenance run -/

open FloorHeating.Lib FloorHeating.Priority

namespace FloorHeating.Maintenance

variable (boot : Int)

/-! ## Times -/

theorem timely_snoc (h : List Call) (a : Call) :
    Timely boot (h ++ [a]) ↔ Timely boot h ∧ ∀ t ∈ boot :: h.map Call.now_s, t ≤ a.now_s := by
  unfold Timely
  rw [List.map_append, ← List.cons_append, List.pairwise_append]
  simp

theorem past_le {P : List Call → Call → Prop} {t : Int} {h : List Call} {now : Int}
    (hP : ∀ pre a, P pre a → a.now_s = t) (hle : ∀ t ∈ boot :: h.map Call.now_s, t ≤ now)
    (hp : Past P h) : t ≤ now := by
  obtain ⟨pre, a, ⟨post, rfl⟩, ha⟩ := hp
  rw [← hP pre a ha]
  exact hle _ (List.mem_cons_of_mem _ (by simp))

theorem runs_now (t : Int) (pre : List Call) (a : Call) (h : Runs boot t pre a) : a.now_s = t := by
  obtain ⟨cfg, rfl, -⟩ := h
  rfl

/-! ## The idle clock -/

theorem apply_last_on (s : CtlState) (a : Call) (ha : ∀ cfg now, a ≠ .decide cfg now) :
    (a.apply s).last_on_s = s.last_on_s := by
  cases a with
  | sensor cfg now valid t => exact ctl_sensor_last_on ..
  | manual m d now => rw [apply_manual]
  | decide cfg now => exact absurd rfl (ha cfg now)

/-- `last_on_s` is the last running time: the two places that write it leave no gap. -/
theorem last_on_eq (h : List Call) (ht : Timely boot h) :
    LastRunning boot h (after boot h).last_on_s := by
  induction h using List.reverseRecOn with
  | nil =>
    refine ⟨Set.mem_insert _ _, ?_⟩
    rintro t (rfl | ht)
    · exact le_refl _
    · exact absurd ht (not_past_nil _)
  | append_singleton h a ih =>
    obtain ⟨ht, hle⟩ := (timely_snoc boot h a).mp ht
    obtain ⟨hmem, hmax⟩ := ih ht
    by_cases hr : Runs boot a.now_s h a
    · -- A running pump: the clock is wound to this decision, and nothing is later.
      obtain ⟨cfg, ha, hon⟩ := id hr
      have hlast : (after boot (h ++ [a])).last_on_s = a.now_s := by
        rw [after_snoc] at hon ⊢
        rw [ha] at hon ⊢
        rw [Call.apply, ctl_decide_last_on, if_pos (by simpa [Call.apply] using hon)]
        rfl
      rw [hlast]
      refine ⟨Or.inr ((past_snoc _ h a).mpr (Or.inr hr)), ?_⟩
      rintro t (rfl | ht)
      · exact hle _ List.mem_cons_self
      · rcases (past_snoc _ h a).mp ht with hp | hp
        · exact past_le boot (runs_now boot t) hle hp
        · exact (runs_now boot t h a hp).ge
    · -- Nothing ran: neither the clock nor the set of running times moves.
      have hlast : (after boot (h ++ [a])).last_on_s = (after boot h).last_on_s := by
        rw [after_snoc]
        cases a with
        | decide cfg now =>
          have hon : ¬ ((after boot h).on = true ∨ (ctl_decide (after boot h) cfg now {}).1.on = true) := by
            intro hon
            refine hr ⟨cfg, rfl, ?_⟩
            rwa [after_snoc]
          rw [Call.apply, ctl_decide_last_on, if_neg (by simpa using hon)]
        | sensor => exact apply_last_on _ _ (by simp)
        | manual => exact apply_last_on _ _ (by simp)
      have hset : ∀ t, Past (Runs boot t) (h ++ [a]) ↔ Past (Runs boot t) h := by
        intro t
        rw [past_snoc, or_iff_left_iff_imp]
        intro hp
        rw [← runs_now boot t h a hp] at hp
        exact absurd hp hr
      rw [hlast]
      unfold LastRunning
      simp only [hset]
      exact ⟨hmem, hmax⟩

/-! ## The start -/

theorem starts_iff (t : Int) (h : List Call) (cfg : CtlConfig) (now : Int) :
    Starts boot t h (.decide cfg now) ↔ now = t ∧ startsRun (after boot h) cfg now = true := by
  unfold Starts
  constructor
  · rintro ⟨cfg', ha, hs⟩
    cases ha
    rw [startsRun_reported] at hs
    exact ⟨rfl, hs⟩
  · rintro ⟨rfl, hs⟩
    exact ⟨cfg, rfl, by rwa [startsRun_reported]⟩

theorem starts_runs (t : Int) (h : List Call) (a : Call) (hs : Starts boot t h a) : Runs boot t h a := by
  obtain ⟨cfg, rfl, hst⟩ := hs
  rw [startsRun_reported] at hst
  refine ⟨cfg, rfl, Or.inr ?_⟩
  rw [after_snoc]
  exact start_switches_on _ _ _ _ hst

/-! ## The last reading -/

theorem lastReading_snoc (h : List Call) (a : Call) :
    lastReading (h ++ [a]) = match a.reading with
      | some t => some t
      | none => lastReading h := by
  unfold lastReading
  cases ha : a.reading <;> simp [ha]

theorem lastReading_eq (h : List Call) :
    lastReading h = if (after boot h).have_temp then some (after boot h).temp_x10 else none := by
  induction h using List.reverseRecOn with
  | nil => rfl
  | append_singleton h a ih =>
    rw [lastReading_snoc, ih, after_snoc]
    cases a with
    | sensor cfg now valid t =>
      cases valid <;> simp [Call.apply, ctl_sensor_failed, ctl_sensor_valid, Call.reading]
    | manual m d now => rw [apply_manual]; rfl
    | decide cfg now => simp [Call.apply, Call.reading]

/-! ## The run on the clock -/

theorem flag_counts (run_s : UInt32) (h : List Call)
    (hu : ∀ a ∈ h, ∃ interval, Call.Uses interval run_s a)
    (hm : (after boot h).maintenance = true) :
    ∃ start, LastStart boot h start ∧ (after boot h).maintenance_until_s = start + run_s.toNat := by
  induction h using List.reverseRecOn with
  | nil => simp [ctl_init] at hm
  | append_singleton h a ih =>
    have ih := ih fun a ha => hu a (List.mem_append_left _ ha)
    -- Only a decision moves the flag, the deadline and the last start.
    have hkeep : (∀ cfg now, a ≠ .decide cfg now) →
        ((after boot (h ++ [a])).maintenance = (after boot h).maintenance ∧
          (after boot (h ++ [a])).maintenance_until_s = (after boot h).maintenance_until_s) ∧
        ∀ start, LastStart boot h start → LastStart boot (h ++ [a]) start := by
      intro hd
      refine ⟨?_, fun start hs => (since_snoc _ _ h a).mpr (Or.inr ⟨?_, hs⟩)⟩
      · rw [after_snoc]
        cases a with
        | sensor cfg now valid t => simp [Call.apply]
        | manual m d now => rw [apply_manual]; exact ⟨rfl, rfl⟩
        | decide cfg now => exact absurd rfl (hd cfg now)
      · rintro ⟨t, cfg, hx, -⟩
        exact hd _ _ hx
    cases a with
    | sensor cfg now valid t =>
      obtain ⟨⟨hf, htil⟩, hl⟩ := hkeep (by simp)
      obtain ⟨start, hs, he⟩ := ih (hf ▸ hm)
      exact ⟨start, hl start hs, htil.trans he⟩
    | manual m d now =>
      obtain ⟨⟨hf, htil⟩, hl⟩ := hkeep (by simp)
      obtain ⟨start, hs, he⟩ := ih (hf ▸ hm)
      exact ⟨start, hl start hs, htil.trans he⟩
    | decide cfg now =>
      obtain ⟨_, -, hrun⟩ := hu (.decide cfg now) (by simp)
      simp only [after_snoc, Call.apply, ctl_decide_maintenance, ctl_decide_maintenance_until] at hm ⊢
      by_cases hst : startsRun (after boot h) cfg now = true
      · refine ⟨now, (since_snoc _ _ h _).mpr (Or.inl ((starts_iff ..).mpr ⟨rfl, hst⟩)), ?_⟩
        rw [if_pos hst, hrun]
      · rw [Bool.not_eq_true] at hst
        rw [hst, Bool.or_false, stillRuns_iff] at hm
        obtain ⟨start, hs, he⟩ := ih hm.1
        refine ⟨start, (since_snoc _ _ h _).mpr (Or.inr ⟨?_, hs⟩), by simpa [hst] using he⟩
        rintro ⟨t, hx⟩
        have := ((starts_iff ..).mp hx).2
        rw [hst] at this
        cases this

/-! ## The law -/

section Law

variable {boot : Int} {interval run_s : UInt32} {h : List Call} {cfg : CtlConfig} {now : Int}

theorem right_start (ht : Timely boot (h ++ [.decide cfg now]))
    (hi : cfg.maintenance_interval_s = interval) (hs : Starts boot now h (.decide cfg now)) :
    RightStart interval boot h cfg now := by
  obtain ⟨ht, hle⟩ := (timely_snoc boot h _).mp ht
  obtain ⟨-, hmax⟩ := last_on_eq boot h ht
  have hst := ((starts_iff ..).mp hs).2
  obtain ⟨-, hoff, hm, hf, hv, hcold, hidle⟩ := (startsRun_iff ..).mp hst
  rw [hi] at hidle
  have hon : (after boot (h ++ [.decide cfg now])).on = true := by
    rw [after_snoc]
    exact start_switches_on _ _ _ _ hst
  have hlate : ∀ t, Past (Runs boot t) h → t + interval.toNat ≤ now := by
    intro t hp
    have := hmax (Set.mem_insert_of_mem _ hp)
    omega
  constructor
  · have := hmax (Set.mem_insert _ _)
    omega
  · intro t htl hp
    have := hlate t hp
    omega
  · refine ⟨(after boot h).temp_x10, ?_, hcold⟩
    rw [lastReading_eq, if_pos hv]
  · exact hf
  · rw [after_snoc]
    simpa [Call.apply] using hm
  · exact hoff
  · exact hon
  · rw [after_snoc] at hon
    rw [ctl_decide_result]
    simpa [Call.apply, hoff] using hon
  · rintro t ⟨pre, a, hp, hx⟩
    exact hlate t ⟨pre, a, hp, starts_runs boot t pre a hx⟩

/-- A cold idle pump with nothing to hold it off has run within the interval. -/
theorem off_was_running (hI : 0 < interval) (ht : Timely boot (h ++ [.decide cfg now]))
    (hi : cfg.maintenance_interval_s = interval)
    (hoff : (after boot (h ++ [.decide cfg now])).on = false)
    (hm : (after boot (h ++ [.decide cfg now])).manual = .None) {t : Int} (hr : lastReading h = some t)
    (hcold : t < cfg.stop_x10) :
    ∃ last, LastRunning boot (h ++ [.decide cfg now]) last ∧ now - last < interval.toNat := by
  refine ⟨_, last_on_eq boot _ ht, ?_⟩
  rw [lastReading_eq boot] at hr
  rw [after_snoc, Call.apply] at hoff hm ⊢
  rw [ctl_decide_last_on, hoff, Bool.or_false]
  rw [UInt32.lt_iff_toNat_lt, UInt32.toNat_zero] at hI
  split
  · omega
  · rename_i hson
    -- The pump was off before as well, so each guard but the idle time held.
    have hst : startsRun (after boot h) cfg now = false := off_no_start hoff
    obtain ⟨-, -, hno⟩ := choose_off.mp ((ctl_decide_on (after boot h) cfg now {}).trans hoff)
    simp only [hm, reduceCtorEq, false_or, ctl_decide_sensor_failed, ctl_decide_maintenance, hst,
      Bool.or_false] at hno
    obtain ⟨hf, -, hrun⟩ := hno
    rw [ctl_decide_manual] at hm
    split at hr
    · rename_i hv
      obtain rfl := Option.some.inj hr
      have := mt (startsRun_iff (after boot h) cfg now).mpr (by simp [hst])
      simp only [hrun, hm, hf, hv, hcold, hi, true_and, not_and, not_le] at this
      exact this (by simpa using hson)
    · cases hr

theorem maintaining_was_started (hR : 0 < run_s) (ht : Timely boot (h ++ [.decide cfg now]))
    (hu : ∀ a ∈ h ++ [.decide cfg now], ∃ interval, Call.Uses interval run_s a)
    (hr : (after boot (h ++ [.decide cfg now])).reason = .Maintenance) :
    ∃ start, LastStart boot (h ++ [.decide cfg now]) start ∧ start ≤ now ∧ now < start + run_s.toNat := by
  obtain ⟨-, hle⟩ := (timely_snoc boot h _).mp ht
  have hm : (after boot (h ++ [.decide cfg now])).maintenance = true := by
    apply choose_maintenance
    rw [after_snoc] at hr ⊢
    exact (ctl_decide_reason ..).trans hr
  obtain ⟨start, hs, htil⟩ := flag_counts boot run_s _ hu hm
  have hlate : now < (after boot (h ++ [.decide cfg now])).maintenance_until_s := by
    obtain ⟨_, -, hrun⟩ := hu (.decide cfg now) (by simp)
    rw [after_snoc] at hm ⊢
    exact maintenance_ahead (hrun ▸ hR) hm
  refine ⟨start, hs, ?_, htil ▸ hlate⟩
  rcases (past_snoc _ h _).mp (past_of_since hs) with ⟨pre, a, hp, hx⟩ | hx
  · exact past_le boot (fun pre a h => runs_now boot start pre a (starts_runs boot start pre a h)) hle
      ⟨pre, a, hp, hx⟩
  · exact ((starts_iff ..).mp hx).1.ge

/-- Over every timely run: a run of the idle pump starts only after the interval, always after it,
and is over after its length. -/
theorem maintenance_law (hI : 0 < interval) (hR : 0 < run_s)
    (ht : Timely boot (h ++ [.decide cfg now]))
    (hu : ∀ a ∈ h ++ [.decide cfg now], Call.Uses interval run_s a) :
    (Starts boot now h (.decide cfg now) → RightStart interval boot h cfg now) ∧
    ((after boot (h ++ [.decide cfg now])).on = false →
      (after boot (h ++ [.decide cfg now])).manual = .None →
      ∀ t, lastReading h = some t → t < cfg.stop_x10 →
        ∃ last, LastRunning boot (h ++ [.decide cfg now]) last ∧ now - last < interval.toNat) ∧
    ((after boot (h ++ [.decide cfg now])).reason = .Maintenance →
      ∃ start, LastStart boot (h ++ [.decide cfg now]) start ∧ start ≤ now ∧
        now < start + run_s.toNat) := by
  obtain ⟨hi, -⟩ := hu (.decide cfg now) (by simp)
  refine ⟨right_start ht hi, ?_, maintaining_was_started hR ht fun a ha => ⟨interval, hu a ha⟩⟩
  intro hoff hm t hr hcold
  exact off_was_running hI ht hi hoff hm hr hcold

end Law

theorem first_run_after_a_week :
    RightStart (7 * 24 * 3600) 0 [.sensor defaultConfig 5 true 200] defaultConfig 604800 := by
  have hlaw := @maintenance_law 0 (7 * 24 * 3600) 60 [.sensor defaultConfig 5 true 200] defaultConfig 604800
    (by decide) (by decide) (by simp [Timely, Call.now_s]) (by simp [Call.Uses, defaultConfig])
  exact hlaw.1 ⟨defaultConfig, rfl, by decide⟩

end FloorHeating.Maintenance
