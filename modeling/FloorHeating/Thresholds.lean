import FloorHeating.Spec.Store
import Mathlib.Tactic.Common
import Mathlib.Data.Int.Order.Basic

/-! # The threshold store -/

open FloorHeating.Lib

namespace FloorHeating.Thresholds

/-! ## `sanitize` -/

/-- The cast is to 16 bits, and every window is far inside them. -/
theorem clamp_eq (v lo hi : Int) (hlo : 0 ≤ lo) (hle : lo ≤ hi) (hhi : hi ≤ 800) :
    clamp v lo hi = max lo (min v hi) := by
  have hin : int16 (max lo (min v hi)) = max lo (min v hi) := by
    unfold int16
    apply Int.bmod_eq_of_le
    · omega
    · omega
  rw [← hin, clamp]
  congr 1
  split
  · omega
  · split <;> omega

theorem sanitize_eq (s : Settings) : sanitize s = nearestSane s := by
  have hstart := clamp_eq s.start_x10 START_MIN_X10 START_MAX_X10 (by decide) (by decide) (by decide)
  simp only [START_MIN_X10, START_MAX_X10] at hstart
  simp only [sanitize, nearestSane, START_MIN_X10, START_MAX_X10, STOP_MIN_X10, HYSTERESIS_MIN_X10,
    CRITICAL_MARGIN_MIN_X10, CRITICAL_MAX_X10, hstart]
  rw [clamp_eq, clamp_eq] <;> omega

theorem nearestSane_sane (s : Settings) : (nearestSane s).Sane := by
  constructor <;> simp only [nearestSane] <;> omega

theorem sanitize_sane (s : Settings) : (sanitize s).Sane := by
  rw [sanitize_eq]
  exact nearestSane_sane s

theorem nearestSane_of_sane {s : Settings} (hs : s.Sane) : nearestSane s = s := by
  obtain ⟨start, stop, critical⟩ := s
  obtain ⟨h1, h2, h3, h4, h5, h6⟩ := hs
  simp only [nearestSane, Settings.mk.injEq] at *
  omega

theorem sanitize_idem (s : Settings) : sanitize (sanitize s) = sanitize s := by
  rw [sanitize_eq (sanitize s)]
  exact nearestSane_of_sane (sanitize_sane s)

theorem settings_init_ram (nvs : Nvs) : (settings_init nvs).s_settings = nvs.initial := by
  cases nvs with
  | blob stored => exact sanitize_eq stored
  | missing => decide
  | wrong_length => decide

theorem initial_sane (nvs : Nvs) : nvs.initial.Sane := by
  rw [← settings_init_ram]
  exact sanitize_sane _

theorem default_sane : default_settings.Sane := initial_sane .missing

/-! ## One call -/

/-- A save succeeds when all three NVS calls do; RAM takes the new values in any case. -/
theorem settings_set_eq (st : Store) (in_out : Settings) (io : NvsCalls) :
    settings_set st in_out io =
      let err := if io.nvs_open = .ESP_OK then
        (if io.nvs_set_blob = .ESP_OK then io.nvs_commit else io.nvs_set_blob) else io.nvs_open
      ({ s_settings := sanitize in_out,
         nvs := if err = .ESP_OK then .blob (sanitize in_out) else st.nvs }, sanitize in_out, err) := by
  obtain ⟨opened, blob, commit⟩ := io
  unfold settings_set
  cases opened <;> cases blob <;> cases commit <;> rfl

variable (nvs : Nvs)

theorem storeAfter_snoc (h : List StoreCall) (a : StoreCall) :
    storeAfter nvs (h ++ [a]) = a.exec (storeAfter nvs h) := run_snoc ..

theorem set_gives_back {t : Settings} {err : EspErr} {h : List StoreCall} {a : StoreCall}
    (hr : Returns nvs t err h a) :
    settings_get (storeAfter nvs (h ++ [a])) = t ∧ t.Sane ∧
      (storeAfter nvs (h ++ [a])).nvs = if err = .ESP_OK then .blob t else (storeAfter nvs h).nvs := by
  obtain ⟨in_out, io, rfl, he⟩ := hr
  rw [storeAfter_snoc, StoreCall.exec]
  rw [settings_set_eq] at he ⊢
  obtain ⟨rfl, rfl⟩ := Prod.mk.inj he
  exact ⟨rfl, sanitize_sane in_out, rfl⟩

theorem set_returns (h : List StoreCall) (in_out : Settings) (io : NvsCalls) :
    ∃ t err, Returns nvs t err h (.set in_out io) := ⟨_, _, in_out, io, rfl, rfl⟩

/-! ## Runs -/

theorem get_sane (h : List StoreCall) : (settings_get (storeAfter nvs h)).Sane := by
  induction h using List.reverseRecOn with
  | nil => exact sanitize_sane _
  | append_singleton h a ih =>
    cases a with
    | set in_out io =>
      obtain ⟨t, err, hr⟩ := set_returns nvs h in_out io
      obtain ⟨hg, ht, -⟩ := set_gives_back nvs hr
      rw [hg]
      exact ht
    | reboot =>
      rw [storeAfter_snoc]
      exact sanitize_sane _

theorem flash_kept {h : List StoreCall} {a : StoreCall} (hs : ∀ t, ¬ Returns nvs t .ESP_OK h a) :
    (storeAfter nvs (h ++ [a])).nvs = (storeAfter nvs h).nvs := by
  cases a with
  | set in_out io =>
    obtain ⟨t, err, hr⟩ := set_returns nvs h in_out io
    obtain ⟨-, -, hf⟩ := set_gives_back nvs hr
    rw [hf, if_neg]
    rintro rfl
    exact hs t hr
  | reboot => rw [storeAfter_snoc]; rfl

theorem flash_saved (t : Settings) (h : List StoreCall) (hl : LastSaved nvs t h) :
    (storeAfter nvs h).nvs = .blob t ∧ t.Sane := by
  induction h using List.reverseRecOn with
  | nil => exact absurd hl (not_since_nil _ _)
  | append_singleton h a ih =>
    rcases (since_snoc _ _ h a).mp hl with hr | ⟨hs, hl⟩
    · obtain ⟨-, ht, hf⟩ := set_gives_back nvs hr
      exact ⟨by simpa using hf, ht⟩
    · rw [flash_kept nvs fun t hr => hs ⟨t, hr⟩]
      exact ih hl

theorem flash_untouched (h : List StoreCall) (hno : ∀ t, ¬ Past (Returns nvs t .ESP_OK) h) :
    (storeAfter nvs h).nvs = nvs := by
  induction h using List.reverseRecOn with
  | nil => rfl
  | append_singleton h a ih =>
    rw [flash_kept nvs fun t hr => hno t ((past_snoc _ h a).mpr (Or.inr hr))]
    exact ih fun t hp => hno t ((past_snoc _ h a).mpr (Or.inl hp))

theorem reboot_reads (h : List StoreCall) :
    settings_get (storeAfter nvs (h ++ [.reboot])) = (storeAfter nvs h).nvs.initial := by
  rw [storeAfter_snoc]
  exact settings_init_ram _

/-- Whatever NVS held, and whichever saves failed: the thresholds are sane, the last ones set are
in force, and a reboot brings back the last ones saved. -/
theorem threshold_store (h : List StoreCall) :
    (settings_get (storeAfter nvs h)).Sane ∧
    (∀ in_out io, settings_get (settings_set (storeAfter nvs h) in_out io).1 =
        (settings_set (storeAfter nvs h) in_out io).2.1 ∧
      (settings_set (storeAfter nvs h) in_out io).2.1 = nearestSane in_out) ∧
    (∀ t, LastSaved nvs t h → settings_get (storeAfter nvs (h ++ [.reboot])) = t) ∧
    ((∀ t, ¬ Past (Returns nvs t .ESP_OK) h) →
      settings_get (storeAfter nvs (h ++ [.reboot])) = nvs.initial) := by
  refine ⟨get_sane nvs h, fun in_out io => ?_, fun t hl => ?_, fun hno => ?_⟩
  · rw [settings_set_eq]
    exact ⟨rfl, sanitize_eq in_out⟩
  · obtain ⟨hf, ht⟩ := flash_saved nvs t h hl
    rw [reboot_reads, hf]
    exact nearestSane_of_sane ht
  · rw [reboot_reads, flash_untouched nvs h hno]

theorem reboot_after_failed_save :
    settings_get (storeAfter .missing
      [.set ⟨320, 260, 500⟩ ⟨.ESP_OK, .ESP_OK, .ESP_OK⟩, .set ⟨310, 250, 450⟩ ⟨.ESP_OK, .ESP_OK, .ESP_FAIL⟩,
        .reboot]) = ⟨320, 260, 500⟩ := by
  have hstore := threshold_store .missing [.set ⟨320, 260, 500⟩ ⟨.ESP_OK, .ESP_OK, .ESP_OK⟩,
    .set ⟨310, 250, 450⟩ ⟨.ESP_OK, .ESP_OK, .ESP_FAIL⟩]
  apply hstore.2.2.1 ⟨320, 260, 500⟩
  refine (since_snoc _ _ [_] _).mpr (Or.inr ⟨?_, (since_snoc _ _ [] _).mpr (Or.inl ?_)⟩)
  · rintro ⟨t, in_out, io, ha, he⟩
    cases ha
    have herr : EspErr.ESP_FAIL = .ESP_OK := congrArg Prod.snd he
    cases herr
  · exact ⟨_, _, rfl, by decide⟩

end FloorHeating.Thresholds
