import FloorHeating.App
import FloorHeating.SettingsPatch

/-!
# The buttons of the thresholds

The page adds half a degree and rounds, the firmware rounds again and puts the
value into its window. Neither rounding loses anything.
-/

open FloorHeating.Lib FloorHeating.SettingsPatch

namespace FloorHeating.Buttons

theorem mathRound_near {x : Rat} {n : Int} (h : |x - n| < 1 / 2) : App.mathRound x = n := by
  rw [abs_lt] at h
  unfold App.mathRound
  rw [Int.floor_eq_iff]
  constructor <;> linarith

def tenths (b : App.Button) : Int := if 0 < b.step then 5 else -5

theorem step_tenths {b : App.Button} (hb : b ∈ App.BUTTONS) : b.step * 10 = tenths b := by
  simp only [App.BUTTONS, List.mem_cons, List.not_mem_nil, or_false] at hb
  unfold tenths
  rcases hb with rfl | rfl | rfl | rfl | rfl | rfl <;> norm_num

theorem step_le {b : App.Button} (hb : b ∈ App.BUTTONS) : |b.step| ≤ 1 := by
  simp only [App.BUTTONS, List.mem_cons, List.not_mem_nil, or_false] at hb
  rcases hb with rfl | rfl | rfl | rfl | rfl | rfl <;> norm_num [abs_le]

/-- What the doubles lose does not reach the tenths. -/
theorem doubles_near {c step : Rat} (hc : |c| ≤ 1000) (hstep : |step| ≤ 1) :
    |double (double (double c + step) * 10) - (c + step) * 10| < 1 / 2 := by
  rw [abs_le] at hc hstep
  have h1 := abs_le.mp (double_near (x := c) (by rw [abs_lt]; constructor <;> linarith))
  have h2 := abs_le.mp (double_near (x := double c + step) (by rw [abs_lt]; constructor <;> linarith))
  have h3 := abs_le.mp (double_near (x := double (double c + step) * 10) (by rw [abs_lt]; constructor <;> linarith))
  rw [abs_lt]
  constructor <;> linarith

/-- The body names one threshold, with the new tenths. -/
theorem pressed_body {s : App.Status} {b : App.Button} {x10 : Int} (hb : b ∈ App.BUTTONS) (hlow : 0 ≤ x10)
    (hhigh : x10 ≤ 1000) (hx : App.setting s b.set = celsius x10) :
    App.pressed s b = .obj [(b.set, .num (celsius (x10 + tenths b)))] := by
  have hlow' : (0 : Rat) ≤ x10 := by exact_mod_cast hlow
  have hhigh' : (x10 : Rat) ≤ 1000 := by exact_mod_cast hhigh
  have hc : |celsius x10| ≤ 1000 := by
    unfold celsius
    rw [abs_of_nonneg (by positivity)]
    linarith
  have hsum : (celsius x10 + b.step) * 10 = ((x10 + tenths b : Int) : Rat) := by
    rw [add_mul, step_tenths hb]
    unfold celsius
    push_cast
    ring
  have hround := doubles_near hc (step_le hb)
  rw [hsum] at hround
  unfold App.pressed
  rw [hx, mathRound_near hround]
  rfl

section Press

variable {to_int16 : Rat → Int} (hcast : ∀ x : Rat, -32769 < x → x < 32768 → to_int16 x = towardZero x)

include hcast

theorem named_field {key : String} {x10 : Int} (field : Int) (hlow : -990 ≤ x10) (hhigh : x10 ≤ 1990) :
    json_celsius to_int16 (.obj [(key, .num (celsius x10))]) key field = x10 :=
  wanted_celsius (by simp [Json.item]) hlow hhigh (json_celsius_wanted hcast field)

omit hcast in
theorem other_field {key other : String} {c : Rat} (field : Int) (hne : key ≠ other) :
    json_celsius to_int16 (.obj [(key, .num c)]) other field = field := by
  apply json_celsius_absent
  rintro c' ⟨hitem, -⟩
  simp [Json.item, hne] at hitem

theorem asked_pressed (c : Control) {old : Settings} (hs : old.Sane) {b : App.Button} (hb : b ∈ App.BUTTONS) :
    asked to_int16 old (App.pressed (AppPage.statusOf c old) b) =
      if b.set = "start_c" then { old with start_x10 := old.start_x10 + tenths b }
      else if b.set = "stop_c" then { old with stop_x10 := old.stop_x10 + tenths b }
      else { old with critical_x10 := old.critical_x10 + tenths b } := by
  have hmove : tenths b = 5 ∨ tenths b = -5 := by
    unfold tenths
    split <;> simp
  have hset : b.set = "start_c" ∨ b.set = "stop_c" ∨ b.set = "critical_c" := by
    simp only [App.BUTTONS, List.mem_cons, List.not_mem_nil, or_false] at hb
    rcases hb with rfl | rfl | rfl | rfl | rfl | rfl <;> simp
  obtain ⟨h1, h2, h3, h4, h5, h6⟩ := hs
  unfold asked
  rcases hset with hset | hset | hset
  · have hx : App.setting (AppPage.statusOf c old) b.set = celsius old.start_x10 := by rw [hset]; rfl
    rw [pressed_body hb (by omega) (by omega) hx, hset, named_field hcast _ (by omega) (by omega),
      other_field _ (by decide), other_field _ (by decide)]
    rfl
  · have hx : App.setting (AppPage.statusOf c old) b.set = celsius old.stop_x10 := by rw [hset]; rfl
    rw [pressed_body hb (by omega) (by omega) hx, hset, named_field hcast _ (by omega) (by omega),
      other_field _ (by decide), other_field _ (by decide)]
    rfl
  · have hx : App.setting (AppPage.statusOf c old) b.set = celsius old.critical_x10 := by rw [hset]; rfl
    rw [pressed_body hb (by omega) (by omega) hx, hset, named_field hcast _ (by omega) (by omega),
      other_field _ (by decide), other_field _ (by decide)]
    rfl

omit hcast in
theorem nearestSane_pressed {old : Settings} (hs : old.Sane) (b : App.Button) :
    nearestSane (if b.set = "start_c" then { old with start_x10 := old.start_x10 + tenths b }
      else if b.set = "stop_c" then { old with stop_x10 := old.stop_x10 + tenths b }
      else { old with critical_x10 := old.critical_x10 + tenths b }) = old.pressed b := by
  obtain ⟨h1, h2, h3, h4, h5, h6⟩ := hs
  have htenths : (if 0 < b.step then (5 : Int) else -5) = tenths b := rfl
  unfold Settings.pressed nearestSane
  simp only [htenths]
  split
  · simp only [Settings.mk.injEq, true_and]
    omega
  · split
    · simp only [Settings.mk.injEq]
      omega
    · simp only [Settings.mk.injEq]
      omega

theorem press_settings {st : Store} (hs : st.s_settings.Sane) (io : NvsCalls) {c : Control} {s : App.Status}
    (hshown : Describes s c (settings_get st)) {b : App.Button} (hb : b ∈ App.BUTTONS) :
    settings_get (apply_settings to_int16 st io (App.pressed s b)).1 = (settings_get st).pressed b := by
  obtain rfl := AppPage.describes_eq hshown
  rw [stored_settings, settings_get, asked_pressed hcast c hs hb, nearestSane_pressed hs b]

theorem presses_run {st st' : Store} {l : List App.Button} (hs : st.s_settings.Sane) (h : Presses to_int16 st l st') :
    settings_get st' = l.foldl Settings.pressed (settings_get st) ∧ st'.s_settings.Sane := by
  induction h with
  | none => exact ⟨rfl, hs⟩
  | more io before known shown ih =>
    obtain ⟨heq, hsane⟩ := ih
    rw [List.foldl_append, ← heq]
    refine ⟨press_settings hcast hsane io shown known, ?_⟩
    rw [← settings_get, stored_settings]
    exact Thresholds.nearestSane_sane _

end Press

theorem pressed_halves {s : Settings} (h : s.HalfDegrees) (b : App.Button) : (s.pressed b).HalfDegrees := by
  obtain ⟨hstart, hstop, hcritical⟩ := h
  have hd : (5 : Int) ∣ if 0 < b.step then 5 else -5 := by split <;> decide
  unfold Settings.pressed
  generalize (if 0 < b.step then (5 : Int) else -5) = d at hd
  dsimp only
  split
  · constructor <;> dsimp only <;> omega
  · split
    · exact ⟨hstart, by dsimp only; omega, hcritical⟩
    · exact ⟨hstart, hstop, by dsimp only; omega⟩

theorem foldl_halves {s : Settings} (h : s.HalfDegrees) (l : List App.Button) :
    (l.foldl Settings.pressed s).HalfDegrees := by
  induction l generalizing s with
  | nil => exact h
  | cons b l ih => exact ih (pressed_halves h b)

/-- From any store and in any order, each press moves its threshold by exactly half a degree or to its bound, and
another one only where its margin needs it; half degrees stay half degrees. -/
theorem buttons_move_half_degrees {to_int16 : Rat → Int}
    (hcast : ∀ x : Rat, -32769 < x → x < 32768 → to_int16 x = towardZero x) (nvs : Nvs) (calls : List StoreCall)
    {l : List App.Button} {st : Store} (h : Presses to_int16 (storeAfter nvs calls) l st) :
    settings_get st = l.foldl Settings.pressed (settings_get (storeAfter nvs calls)) ∧
      ((settings_get (storeAfter nvs calls)).HalfDegrees → (settings_get st).HalfDegrees) := by
  obtain ⟨hrun, -⟩ := presses_run hcast (Thresholds.get_sane nvs calls) h
  refine ⟨hrun, fun hhalf => ?_⟩
  rw [hrun]
  exact foldl_halves hhalf l

theorem warmer_twice :
    ∃ st, settings_get st = ⟨310, 250, 450⟩ ∧ (settings_get st).HalfDegrees := by
  have hup : (⟨"start_c", 1 / 2⟩ : App.Button) ∈ App.BUTTONS := by simp [App.BUTTONS]
  have hshown (st : Store) : Describes (AppPage.statusOf (control_start 0) (settings_get st)) (control_start 0)
      (settings_get st) := ⟨0, fun t => t, [], AppPage.status_read _ _ _ _ _⟩
  have hnone : Presses towardZero (storeAfter .missing []) [] (storeAfter .missing []) := .none _
  have honce : Presses towardZero (storeAfter .missing []) ([] ++ [⟨"start_c", 1 / 2⟩])
      (apply_settings towardZero _ ⟨.ESP_OK, .ESP_OK, .ESP_OK⟩ (App.pressed _ ⟨"start_c", 1 / 2⟩)).1 :=
    hnone.more _ hup (hshown _)
  have htwice : Presses towardZero (storeAfter .missing []) ([] ++ [⟨"start_c", 1 / 2⟩] ++ [⟨"start_c", 1 / 2⟩])
      (apply_settings towardZero _ ⟨.ESP_FAIL, .ESP_OK, .ESP_OK⟩ (App.pressed _ ⟨"start_c", 1 / 2⟩)).1 :=
    honce.more _ hup (hshown _)
  obtain ⟨hrun, hhalf⟩ := buttons_move_half_degrees (fun _ _ _ => rfl) .missing [] htwice
  have hset : settings_get (storeAfter .missing []) = ⟨300, 250, 450⟩ := by decide
  rw [hset] at hrun hhalf
  exact ⟨_, hrun.trans (by norm_num [Settings.pressed]), hhalf ⟨by decide, by decide, by decide⟩⟩

end FloorHeating.Buttons
