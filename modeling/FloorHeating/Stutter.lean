import FloorHeating.ControlLogic
import FloorHeating.Lib.Runs

/-!
# Extra decisions are harmless

Every command and every change of the settings wakes the task early, so it
decides far more often than it reads.
-/

open FloorHeating.Lib

namespace FloorHeating.Stutter

def decides (cfg : CtlConfig) (s : CtlState) (times : List Int) : CtlState :=
  run (fun s now => (ctl_decide s cfg now {}).1) s times

/-- `now` is before each deadline that `s` has pending after a decision at `t`. -/
structure BeforeDeadlines (cfg : CtlConfig) (s : CtlState) (t now : Int) : Prop where
  override : s.manual ≠ .None → now < s.manual_until_s
  maintenance : s.maintenance = true → now < s.maintenance_until_s
  idle : s.on = false → t < s.last_on_s + cfg.maintenance_interval_s.toNat →
    now < s.last_on_s + cfg.maintenance_interval_s.toNat

def Silent (r : CtlResult) : Prop :=
  r.changed = false ∧ r.manual_expired = false ∧ r.manual_cancelled = false ∧
    r.maintenance_started = false

/-- What holds after a decision at `t`, and leaves the next one nothing to do but wait. -/
structure Rested (cfg : CtlConfig) (t : Int) (s : CtlState) : Prop where
  chosen : choose s = (s.on, s.reason)
  no_clash : ¬ (s.manual = .Stop ∧ s.overheat = true)
  deadlines : BeforeDeadlines cfg s t t
  no_start : s.on = false → s.last_on_s + cfg.maintenance_interval_s.toNat ≤ t →
    ∀ now, (s.maintenance = true → now < s.maintenance_until_s) → runDue s cfg now = false

theorem decide_rested (s : CtlState) (cfg : CtlConfig) (t : Int) (res : CtlResult)
    (hI : 0 < cfg.maintenance_interval_s) (hR : 0 < cfg.maintenance_run_s) :
    Rested cfg t (ctl_decide s cfg t res).1 := by
  rw [UInt32.lt_iff_toNat_lt, UInt32.toNat_zero] at hI
  constructor
  · exact ctl_decide_choice s cfg t res
  · rintro ⟨hm, ho⟩
    rw [(ctl_decide_stop s cfg t res hm).2.2] at ho
    cases ho
  · constructor
    · intro hm
      rw [ctl_decide_manual] at hm
      rw [ctl_decide_manual_until]
      have := ((manualAfter_iff s t hm).mp rfl).1
      omega
    · exact maintenance_ahead hR
    · exact fun _ ht => ht
  · intro hoff hidle now hrun
    rw [ctl_decide_last_on, hoff, Bool.or_false] at hidle
    split at hidle
    · omega
    · rename_i hson
      have hst : ¬ startsRun s cfg t = true := Bool.eq_false_iff.mp (off_no_start hoff)
      -- The idle time is over, so another guard failed, and it still does.
      have hi : (cfg.maintenance_interval_s.toNat : Int) ≤ t - s.last_on_s := by omega
      rw [startsRun_iff] at hst
      simp only [Bool.not_eq_true] at hson
      rw [Bool.eq_false_iff, ne_eq, runDue, decide_eq_true_eq]
      rintro ⟨hr, -, hm, hf, hv, hcold, -⟩
      simp only [ctl_decide_manual, ctl_decide_sensor_failed, ctl_decide_have_temp,
        ctl_decide_temp_x10] at hm hf hv hcold
      refine hst ⟨?_, hson, hm, hf, hv, hcold, hi⟩
      rw [Bool.eq_false_iff]
      intro hs
      have hflag : (ctl_decide s cfg t res).1.maintenance = true := by
        rw [ctl_decide_maintenance, hs, Bool.true_or]
      rw [stillRuns, hflag, Bool.true_and, decide_eq_false_iff_not] at hr
      exact hr (hrun hflag)

/-- Before the deadlines a decision only winds the idle clock of a running pump. -/
theorem decide_quiet (s : CtlState) (cfg : CtlConfig) (t now : Int) (hs : Rested cfg t s)
    (hn : BeforeDeadlines cfg s t now) :
    ctl_decide s cfg now {} =
      ({ s with last_on_s := if s.on then now else s.last_on_s }, { prev_reason := s.reason }) := by
  have hm : manualAfter s now = s.manual := by
    unfold manualAfter
    split
    · rename_i h
      by_contra hne
      rcases h with h | h
      · have := hn.override fun he => hne he.symm
        omega
      · exact hs.no_clash h
    · rfl
  have hrun : stillRuns s now = s.maintenance := by
    rw [stillRuns]
    cases hf : s.maintenance with
    | false => rfl
    | true => simpa using hn.maintenance hf
  have hst : startsRun s cfg now = false := by
    have hsame : startsRun s cfg now = runDue s cfg now := by rw [startsRun, hm]
    rw [hsame, Bool.eq_false_iff]
    intro hdue
    obtain ⟨-, hon, -, -, -, -, hidle⟩ := of_decide_eq_true hdue
    by_cases hi : s.last_on_s + cfg.maintenance_interval_s.toNat ≤ t
    · rw [hs.no_start hon hi now hn.maintenance] at hdue
      cases hdue
    · have := hn.idle hon (by omega)
      omega
  have hb : beforeChoice s cfg now = { s with last_on_s := if s.on then now else s.last_on_s } := by
    rw [beforeChoice, hm, hrun, hst]
    simp
  have hc : choose (beforeChoice s cfg now) = (s.on, s.reason) := by
    rw [hb, ← hs.chosen]
    rfl
  have hexp : ¬ (s.manual ≠ .None ∧ s.manual_until_s ≤ now) := by
    rintro ⟨hne, hle⟩
    have := hn.override hne
    omega
  have hcan : ¬ (s.manual = .Stop ∧ s.overheat = true ∧ now < s.manual_until_s) :=
    fun h => hs.no_clash ⟨h.1, h.2.1⟩
  rw [ctl_decide_eq, hc, hb, hst]
  simp [hexp, hcan]

/-! ## Many decisions -/

variable {cfg : CtlConfig} {t : Int} {s : CtlState}

theorem rested_wound (hs : Rested cfg t s) {last : Int} (hl : s.on = false → last = s.last_on_s) :
    Rested cfg t { s with last_on_s := last } where
  chosen := hs.chosen
  no_clash := hs.no_clash
  deadlines := ⟨hs.deadlines.override, hs.deadlines.maintenance, fun _ h => h⟩
  no_start := by
    intro hoff hidle now hrun
    obtain rfl := hl hoff
    exact hs.no_start hoff hidle now hrun

theorem before_wound {now : Int} (hn : BeforeDeadlines cfg s t now) {last : Int}
    (hl : s.on = false → last = s.last_on_s) :
    BeforeDeadlines cfg { s with last_on_s := last } t now where
  override := hn.override
  maintenance := hn.maintenance
  idle := by
    intro hoff
    obtain rfl := hl hoff
    exact hn.idle hoff

theorem decides_wind (hs : Rested cfg t s) (times : List Int)
    (hn : ∀ now ∈ times, BeforeDeadlines cfg s t now) :
    ∃ last, (s.on = false → last = s.last_on_s) ∧
      decides cfg s times = { s with last_on_s := last } := by
  induction times using List.reverseRecOn with
  | nil => exact ⟨s.last_on_s, fun _ => rfl, rfl⟩
  | append_singleton times now ih =>
    obtain ⟨last, hl, he⟩ := ih fun now hm => hn now (List.mem_append_left _ hm)
    refine ⟨if s.on then now else last, ?_, ?_⟩
    · intro hoff
      rw [hoff]
      exact hl hoff
    · rw [decides, run_snoc, ← decides, he]
      rw [decide_quiet _ cfg t now (rested_wound hs hl) (before_wound (hn now (by simp)) hl)]

theorem decides_silent (hs : Rested cfg t s) (times : List Int)
    (hn : ∀ now ∈ times, BeforeDeadlines cfg s t now) (pre : List Int) (now : Int)
    (hp : pre ++ [now] <+: times) : Silent (ctl_decide (decides cfg s pre) cfg now {}).2 := by
  have hmem : ∀ x ∈ pre ++ [now], x ∈ times := fun x hx => hp.subset hx
  obtain ⟨last, hl, he⟩ := decides_wind hs pre fun x hx => hn x (hmem x (List.mem_append_left _ hx))
  rw [he, decide_quiet _ cfg t now (rested_wound hs hl) (before_wound (hn now (hmem now (by simp))) hl)]
  exact ⟨rfl, rfl, rfl, rfl⟩

theorem decide_again (s : CtlState) (cfg : CtlConfig) (t : Int) (res : CtlResult)
    (hI : 0 < cfg.maintenance_interval_s) (hR : 0 < cfg.maintenance_run_s) :
    (ctl_decide (ctl_decide s cfg t res).1 cfg t {}).1 = (ctl_decide s cfg t res).1 := by
  have hs := decide_rested s cfg t res hI hR
  have hwound : (if (ctl_decide s cfg t res).1.on then t else (ctl_decide s cfg t res).1.last_on_s) =
      (ctl_decide s cfg t res).1.last_on_s := by
    split
    · rename_i hon
      rw [ctl_decide_last_on, hon, Bool.or_true, if_pos rfl]
    · rfl
  rw [decide_quiet _ cfg t t hs hs.deadlines, hwound]

/-- From any state at all: decisions before the next deadline report nothing and move nothing but
the idle clock, and at one and the same instant not even that. -/
theorem extra_decisions_harmless (s : CtlState) (cfg : CtlConfig) (t : Int)
    (hI : 0 < cfg.maintenance_interval_s) (hR : 0 < cfg.maintenance_run_s) :
    (∀ times, (∀ now ∈ times, BeforeDeadlines cfg (ctl_decide s cfg t {}).1 t now) →
      (∀ pre now, pre ++ [now] <+: times →
        Silent (ctl_decide (decides cfg (ctl_decide s cfg t {}).1 pre) cfg now {}).2) ∧
      ∃ last, decides cfg (ctl_decide s cfg t {}).1 times =
        { (ctl_decide s cfg t {}).1 with last_on_s := last }) ∧
    (ctl_decide (ctl_decide s cfg t {}).1 cfg t {}).1 = (ctl_decide s cfg t {}).1 ∧
    Silent (ctl_decide (ctl_decide s cfg t {}).1 cfg t {}).2 := by
  have hs := decide_rested s cfg t {} hI hR
  refine ⟨fun times hn => ⟨decides_silent hs times hn, ?_⟩, decide_again s cfg t {} hI hR, ?_⟩
  · obtain ⟨last, -, he⟩ := decides_wind hs times hn
    exact ⟨last, he⟩
  · rw [decide_quiet _ cfg t t hs hs.deadlines]
    exact ⟨rfl, rfl, rfl, rfl⟩

/-- The pump was started by hand for a minute; a decision every 20 s changes nothing until then. -/
theorem manual_start_undisturbed :
    ∃ last, decides ⟨300, 250, 450, 7 * 24 * 3600, 60, 3⟩
        (ctl_decide { ctl_init 0 with manual := .Start, manual_until_s := 65 }
          ⟨300, 250, 450, 7 * 24 * 3600, 60, 3⟩ 5 {}).1 [20, 40, 60] =
      { (ctl_decide { ctl_init 0 with manual := .Start, manual_until_s := 65 }
          ⟨300, 250, 450, 7 * 24 * 3600, 60, 3⟩ 5 {}).1 with last_on_s := last } := by
  have hall := extra_decisions_harmless { ctl_init 0 with manual := .Start, manual_until_s := 65 }
    ⟨300, 250, 450, 7 * 24 * 3600, 60, 3⟩ 5 (by decide) (by decide)
  refine (hall.1 [20, 40, 60] fun now hnow => ⟨fun _ => ?_, fun hm => ?_, fun hoff => ?_⟩).2
  · have hlate : ∀ x ∈ [20, 40, 60], x < (65 : Int) := by decide
    exact hlate now hnow
  · exact absurd hm (by decide)
  · exact absurd hoff (by decide)

end FloorHeating.Stutter
