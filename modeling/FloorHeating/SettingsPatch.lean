import FloorHeating.Spec.SettingsPatch
import FloorHeating.Thresholds
import Mathlib.Tactic.NormNum

/-! # `apply_settings` -/

open FloorHeating.Lib

namespace FloorHeating.SettingsPatch

/-! ## One field -/

section Field

variable {to_int16 : Rat → Int} {body : Json} {key : String}

/-- The cast gets less than the type holds. -/
theorem tenths_range {c : Rat} (hc : Gives body key c) {v x : Rat} (hv : v = double (double c * 10))
    (hx : x = if v < 0 then double (v - 1 / 2) else double (v + 1 / 2)) : -32769 < x ∧ x < 32768 := by
  obtain ⟨-, hlow, hhigh⟩ := hc
  have hvlow : ((-1000 : Int) : Rat) ≤ v := hv ▸ le_double (by decide) (by push_cast; linarith)
  have hvhigh : v ≤ ((2000 : Int) : Rat) := hv ▸ double_le (by decide) (by push_cast; linarith)
  push_cast at hvlow hvhigh
  have hxlow : ((-1001 : Int) : Rat) ≤ x := by
    rw [hx]
    split <;> exact le_double (by decide) (by push_cast; linarith)
  have hxhigh : x ≤ ((2001 : Int) : Rat) := by
    rw [hx]
    split <;> exact double_le (by decide) (by push_cast; linarith)
  push_cast at hxlow hxhigh
  constructor <;> linarith

theorem json_celsius_given {c : Rat} (hc : Gives body key c) (field : Int) :
    json_celsius to_int16 body key field =
      let v := double (double c * 10)
      to_int16 (if v < 0 then double (v - 1 / 2) else double (v + 1 / 2)) := by
  obtain ⟨hitem, hrange⟩ := hc
  unfold json_celsius
  rw [hitem]
  exact if_pos hrange

theorem json_celsius_absent (hno : Absent body key) (field : Int) :
    json_celsius to_int16 body key field = field := by
  unfold json_celsius
  dsimp only
  split
  · rename_i c hitem
    rw [hitem]
    exact if_neg fun hrange => hno c ⟨hitem, hrange⟩
  · rfl

theorem json_celsius_wanted (hcast : ∀ x : Rat, -32769 < x → x < 32768 → to_int16 x = towardZero x) (field : Int) :
    Wanted body key field (json_celsius to_int16 body key field) := by
  by_cases hgiven : ∃ c, Gives body key c
  · obtain ⟨c, hc⟩ := hgiven
    obtain ⟨hlow, hhigh⟩ := tenths_range hc rfl rfl
    refine Or.inl ⟨c, hc, ?_⟩
    rw [json_celsius_given hc]
    exact hcast _ hlow hhigh
  · have hno : Absent body key := fun c hc => hgiven ⟨c, hc⟩
    exact Or.inr ⟨hno, json_celsius_absent hno field⟩

theorem json_celsius_congr {to_int16' : Rat → Int}
    (hsame : ∀ x : Rat, -32769 < x → x < 32768 → to_int16' x = to_int16 x) (field : Int) :
    json_celsius to_int16' body key field = json_celsius to_int16 body key field := by
  by_cases hgiven : ∃ c, Gives body key c
  · obtain ⟨c, hc⟩ := hgiven
    obtain ⟨hlow, hhigh⟩ := tenths_range hc rfl rfl
    rw [json_celsius_given hc, json_celsius_given hc]
    exact hsame _ hlow hhigh
  · have hno : Absent body key := fun c hc => hgiven ⟨c, hc⟩
    rw [json_celsius_absent hno, json_celsius_absent hno]

end Field

/-! ## The tenths -/

theorem towardZero_near {v x ε : Rat} (hx : |x - if v < 0 then v - 1 / 2 else v + 1 / 2| ≤ ε) (hε : ε < 1 / 2) :
    |towardZero x - v| ≤ 1 / 2 + ε := by
  rw [abs_le] at hx ⊢
  unfold towardZero
  split at hx
  · rw [if_pos (by linarith)]
    have hle := Int.le_ceil x
    have hlt := Int.ceil_lt_add_one x
    constructor <;> linarith
  · rw [if_neg (by linarith)]
    have hle := Int.floor_le x
    have hlt := Int.lt_floor_add_one x
    constructor <;> linarith

/-- The rounding is to the nearest tenth, but for what the doubles lose. -/
theorem tenthsOf_near {c : Rat} (hlow : -1000 ≤ c) (hhigh : c ≤ 1000) :
    |tenthsOf c - c * 10| ≤ 1 / 2 + 1 / 2 ^ 30 := by
  have hc := abs_le.mp (double_near (x := c) (by rw [abs_lt]; constructor <;> linarith))
  have hv := abs_le.mp (double_near (x := double c * 10) (by rw [abs_lt]; constructor <;> linarith))
  have hx : |(if double (double c * 10) < 0 then double (double (double c * 10) - 1 / 2)
      else double (double (double c * 10) + 1 / 2)) -
        if double (double c * 10) < 0 then double (double c * 10) - 1 / 2 else double (double c * 10) + 1 / 2| ≤
      1 / 274877906944 := by
    split <;> exact double_near (by rw [abs_lt]; constructor <;> linarith)
  have hnear := abs_le.mp (towardZero_near hx (by norm_num))
  rw [abs_le]
  change _ ≤ (tenthsOf c : Rat) - double (double c * 10) ∧ (tenthsOf c : Rat) - double (double c * 10) ≤ _ at hnear
  constructor <;> linarith

theorem gives_near {body : Json} {key : String} {c : Rat} (hc : Gives body key c) :
    |tenthsOf c - c * 10| ≤ 1 / 2 + 1 / 2 ^ 30 := by
  obtain ⟨-, hlow, hhigh⟩ := hc
  apply tenthsOf_near
  · by_contra hlt
    have hle : double c ≤ ((-1000 : Int) : Rat) := double_le (by decide) (by push_cast; linarith)
    push_cast at hle
    linarith
  · by_contra hgt
    have hle : ((1000 : Int) : Rat) ≤ double c := le_double (by decide) (by push_cast; linarith)
    push_cast at hle
    linarith

/-- Away from the halves, the nearest tenth is the one that the doubles give. -/
theorem gives_rounded {body : Json} {key : String} {c : Rat} (hc : Gives body key c) {r : Int}
    (hr : HalfAway (c * 10) r) (hhalves : ∀ n : Int, 1 / 2 ^ 30 < |c * 10 - (n + 1 / 2)|) : tenthsOf c = r := by
  have htenths := abs_le.mp (gives_near hc)
  have hround := abs_le.mp ((hr.nearest (round (c * 10))).trans (abs_sub_round (c * 10)))
  have habove := hhalves r
  have hbelow := hhalves (r - 1)
  rw [lt_abs] at habove hbelow
  push_cast at hbelow
  by_contra hne
  rcases lt_or_gt_of_ne hne with hlt | hgt
  · have hle : (tenthsOf c : Rat) ≤ r - 1 := by exact_mod_cast Int.le_sub_one_of_lt hlt
    rcases hbelow with h | h <;> linarith
  · have hle : (r : Rat) + 1 ≤ tenthsOf c := by exact_mod_cast hgt
    rcases habove with h | h <;> linarith

theorem wanted_unique {body : Json} {key : String} {current v v' : Int} (h : Wanted body key current v)
    (h' : Wanted body key current v') : v = v' := by
  rcases h with ⟨c, hc, rfl⟩ | ⟨hno, rfl⟩
  · rcases h' with ⟨c', hc', rfl⟩ | ⟨hno, -⟩
    · have heq : c = c' := by simpa using hc.1.symm.trans hc'.1
      rw [heq]
    · exact absurd hc (hno c)
  · rcases h' with ⟨c', hc', -⟩ | ⟨-, rfl⟩
    · exact absurd hc' (hno c')
    · rfl

theorem wanted_absent {body : Json} {key : String} {current v : Int} (hno : Absent body key)
    (h : Wanted body key current v) : v = current := wanted_unique h (Or.inr ⟨hno, rfl⟩)

theorem wanted_celsius {body : Json} {key : String} {current v x10 : Int}
    (hitem : body.item key = some (.num (celsius x10))) (hlow : -990 ≤ x10) (hhigh : x10 ≤ 1990)
    (h : Wanted body key current v) : v = x10 := by
  have htenths : celsius x10 * 10 = x10 := by
    unfold celsius
    ring
  have hlow' : (-990 : Rat) ≤ x10 := by exact_mod_cast hlow
  have hhigh' : (x10 : Rat) ≤ 1990 := by exact_mod_cast hhigh
  have hgives : Gives body key (celsius x10) := by
    have hdlow : ((-99 : Int) : Rat) ≤ double (celsius x10) := le_double (by decide) (by push_cast; linarith)
    have hdhigh : double (celsius x10) ≤ ((199 : Int) : Rat) := double_le (by decide) (by push_cast; linarith)
    push_cast at hdlow hdhigh
    exact ⟨hitem, by linarith, by linarith⟩
  have hnear := tenthsOf_near (c := celsius x10) (by linarith) (by linarith)
  rw [wanted_unique h (Or.inl ⟨_, hgives, rfl⟩)]
  rw [htenths, abs_le] at hnear
  have h1 : (tenthsOf (celsius x10) : Rat) < x10 + 1 := by linarith
  have h2 : (x10 : Rat) < tenthsOf (celsius x10) + 1 := by linarith
  have h1' : tenthsOf (celsius x10) < x10 + 1 := by exact_mod_cast h1
  have h2' : x10 < tenthsOf (celsius x10) + 1 := by exact_mod_cast h2
  omega

/-! ## The triple -/

theorem nearestSane_nearest (s : Settings) :
    NearestIn 200 600 s.start_x10 (nearestSane s).start_x10 ∧
      NearestIn 100 ((nearestSane s).start_x10 - 20) s.stop_x10 (nearestSane s).stop_x10 ∧
      NearestIn ((nearestSane s).start_x10 + 50) 800 s.critical_x10 (nearestSane s).critical_x10 := by
  have hsane := Thresholds.nearestSane_sane s
  refine ⟨nearestIn_clamp (by decide) _, nearestIn_clamp ?_ _, nearestIn_clamp ?_ _⟩
  · exact hsane.stop_min.trans hsane.hysteresis
  · exact hsane.margin.trans hsane.critical_max

section Call

variable {to_int16 : Rat → Int} (st : Store) (io : NvsCalls) (body : Json)

def asked (to_int16 : Rat → Int) (old : Settings) (body : Json) : Settings where
  start_x10 := json_celsius to_int16 body "start_c" old.start_x10
  stop_x10 := json_celsius to_int16 body "stop_c" old.stop_x10
  critical_x10 := json_celsius to_int16 body "critical_c" old.critical_x10

theorem apply_settings_eq :
    apply_settings to_int16 st io body =
      let r := settings_set st (asked to_int16 st.s_settings body) io
      (r.1, if r.2.2 ≠ .ESP_OK then .error "500 Internal Server Error" "save_failed" else .status) := by
  dsimp only
  by_cases herr : (settings_set st (asked to_int16 st.s_settings body) io).2.2 ≠ .ESP_OK
  · rw [if_pos herr]
    exact if_pos herr
  · rw [if_neg herr]
    exact if_neg herr

theorem stored_settings :
    settings_get (apply_settings to_int16 st io body).1 =
      nearestSane (asked to_int16 st.s_settings body) := by
  rw [apply_settings_eq, Thresholds.settings_set_eq, ← Thresholds.sanitize_eq]
  rfl

theorem apply_settings_congr {to_int16' : Rat → Int}
    (hsame : ∀ x : Rat, -32769 < x → x < 32768 → to_int16' x = to_int16 x) :
    apply_settings to_int16' st io body = apply_settings to_int16 st io body := by
  have hasked : asked to_int16' st.s_settings body = asked to_int16 st.s_settings body := by
    unfold asked
    rw [json_celsius_congr hsame, json_celsius_congr hsame, json_celsius_congr hsame]
  rw [apply_settings_eq, apply_settings_eq, hasked]

end Call

section Frame

variable {body : Json} {key : String} {old new : Settings} {current lo hi r : Int}

/-- A threshold that the patch does not name stays, if the window lets it. -/
theorem absent_kept (h : ∃ v, Wanted body key current v ∧ NearestIn lo hi v r) (hno : Absent body key)
    (hlo : lo ≤ current) (hhi : current ≤ hi) : r = current := by
  obtain ⟨v, hv, hnear⟩ := h
  rw [wanted_absent hno hv] at hnear
  exact hnear.unique (nearestIn_self hlo hhi)

theorem posted_kept {x10 : Int} (h : ∃ v, Wanted body key current v ∧ NearestIn lo hi v r)
    (hitem : body.item key = some (.num (celsius x10))) (hlow : -990 ≤ x10) (hhigh : x10 ≤ 1990) (hlo : lo ≤ x10)
    (hhi : x10 ≤ hi) : r = x10 := by
  obtain ⟨v, hv, hnear⟩ := h
  rw [wanted_celsius hitem hlow hhigh hv] at hnear
  exact hnear.unique (nearestIn_self hlo hhi)

theorem posted_back (hs : old.Sane) (hp : Patched body old new) (hback : PostsBack body old) : new = old := by
  obtain ⟨status, events_unix_time, system, part, hpart, hitems⟩ := hback
  obtain rfl : _ = part := Option.some.inj hpart
  obtain ⟨h1, h2, h3, h4, h5, h6⟩ := hs
  have hstart : new.start_x10 = old.start_x10 :=
    posted_kept hp.start (hitems "start_c" (by simp)) (by omega) (by omega) h1 h2
  have hstop : new.stop_x10 = old.stop_x10 :=
    posted_kept hp.stop (hitems "stop_c" (by simp)) (by omega) (by omega) h3 (by omega)
  have hcritical : new.critical_x10 = old.critical_x10 :=
    posted_kept hp.critical (hitems "critical_c" (by simp)) (by omega) (by omega) (by omega) h6
  obtain ⟨start, stop, critical⟩ := new
  simp only at hstart hstop hcritical
  rw [hstart, hstop, hcritical]

end Frame

/-- Each threshold goes as near to what the patch wants as its window lets it, and the ones that
the patch does not name move only where the new start threshold pushes them. What it wants is the nearest tenth, but
for what the doubles lose. -/
theorem settings_patch (to_int16 : Rat → Int)
    (hcast : ∀ x : Rat, -32769 < x → x < 32768 → to_int16 x = towardZero x) (st : Store) (hs : st.s_settings.Sane)
    (io : NvsCalls) (body : Json) :
    let old := st.s_settings
    let new := settings_get (apply_settings to_int16 st io body).1
    Patched body old new ∧
      (∀ key c, Gives body key c → |tenthsOf c - c * 10| ≤ 1 / 2 + 1 / 2 ^ 30 ∧
        ∀ r, HalfAway (c * 10) r → (∀ n : Int, 1 / 2 ^ 30 < |c * 10 - (n + 1 / 2)|) → tenthsOf c = r) ∧
      (Absent body "start_c" → new.start_x10 = old.start_x10 ∧
        (Absent body "stop_c" → new.stop_x10 = old.stop_x10) ∧
        (Absent body "critical_c" → new.critical_x10 = old.critical_x10)) ∧
      (Absent body "stop_c" → old.stop_x10 ≤ new.start_x10 - 20 → new.stop_x10 = old.stop_x10) ∧
      (Absent body "critical_c" → new.start_x10 + 50 ≤ old.critical_x10 → new.critical_x10 = old.critical_x10) ∧
      (PostsBack body old → new = old) ∧
      (∀ to_int16' : Rat → Int, (∀ x : Rat, -32769 < x → x < 32768 → to_int16' x = to_int16 x) →
        apply_settings to_int16' st io body = apply_settings to_int16 st io body) := by
  intro old new
  have hnew : new = nearestSane (asked to_int16 old body) := stored_settings st io body
  have hp : Patched body old new := by
    obtain ⟨hstart, hstop, hcritical⟩ := nearestSane_nearest (asked to_int16 old body)
    rw [← hnew] at hstart hstop hcritical
    exact ⟨⟨_, json_celsius_wanted hcast _, hstart⟩, ⟨_, json_celsius_wanted hcast _, hstop⟩,
      ⟨_, json_celsius_wanted hcast _, hcritical⟩⟩
  have hstop (hno : Absent body "stop_c") (hmargin : old.stop_x10 ≤ new.start_x10 - 20) :=
    absent_kept hp.stop hno hs.stop_min hmargin
  have hcritical (hno : Absent body "critical_c") (hmargin : new.start_x10 + 50 ≤ old.critical_x10) :=
    absent_kept hp.critical hno hmargin hs.critical_max
  refine ⟨hp, fun key c hc => ⟨gives_near hc, fun r => gives_rounded hc⟩, fun hno => ?_, hstop, hcritical,
    fun hback => posted_back hs hp hback, fun _ hsame => apply_settings_congr st io body hsame⟩
  have hstart : new.start_x10 = old.start_x10 := absent_kept hp.start hno hs.start_min hs.start_max
  rw [hstart] at hstop hcritical
  exact ⟨hstart, fun hno => hstop hno hs.hysteresis, fun hno => hcritical hno hs.margin⟩

/-! ## Where doubles differ from decimals -/

def startOnly (c : Rat) : Json := .obj [("start_c", .num c)]

def newStart (c : Rat) : Settings :=
  settings_get (apply_settings towardZero ⟨default_settings, .missing⟩ ⟨.ESP_OK, .ESP_OK, .ESP_OK⟩ (startOnly c)).1

theorem newStart_start (c : Rat) :
    (newStart c).start_x10 = max 200 (min (json_celsius towardZero (startOnly c) "start_c" 300) 600) := by
  unfold newStart
  rw [stored_settings]
  rfl

theorem double_just_below : double (251499999999999999 / 10 ^ 16) = 7079095664272998 * 2 ^ (-48 : Int) :=
  Format.round_eq (by decide) (by norm_num [binary64]) (by norm_num [binary64])
    (nearestEven_eq (by norm_num [abs_lt]))

theorem tenths_just_below : tenthsOf (251499999999999999 / 10 ^ 16) = 252 := by
  have htenths : double (7079095664272998 * 2 ^ (-48 : Int) * 10) = 8848869580341248 * 2 ^ (-45 : Int) :=
    -- The product is half way between two doubles.
    Format.round_eq (by decide) (by norm_num [binary64]) (by norm_num [binary64])
      (nearestEven_even (by decide) (by norm_num [abs_le]))
  have hsum : double ((252 : Int) : Rat) = (252 : Int) := double_intCast (by decide)
  have hhalf : (8848869580341248 : Rat) * 2 ^ (-45 : Int) + 1 / 2 = (252 : Int) := by norm_num
  unfold tenthsOf
  rw [double_just_below, htenths]
  dsimp only
  rw [if_neg (by norm_num), hhalf, hsum, towardZero, if_neg (by norm_num), Int.floor_intCast]

theorem just_below_given :
    Gives (startOnly (251499999999999999 / 10 ^ 16)) "start_c" (251499999999999999 / 10 ^ 16) := by
  refine ⟨rfl, ?_, ?_⟩ <;> rw [double_just_below] <;> norm_num

/-- 251.499999999999999 tenths become 252, and a temperature below 200 does not count. -/
theorem half_a_tenth_too_much :
    ((newStart (251499999999999999 / 10 ^ 16)).start_x10 = 252 ∧
        ∀ r, HalfAway ((251499999999999999 : Rat) / 10 ^ 16 * 10) r → r = 251) ∧
      (newStart (19999999999999999999 / 10 ^ 17)).start_x10 = 300 ∧ (19999999999999999999 : Rat) / 10 ^ 17 < 200 := by
  refine ⟨⟨?_, ?_⟩, ?_, by norm_num⟩
  · have hwanted : json_celsius towardZero (startOnly (251499999999999999 / 10 ^ 16)) "start_c" 300 = 252 :=
      wanted_unique (json_celsius_wanted (fun _ _ _ => rfl) 300)
        (Or.inl ⟨_, just_below_given, tenths_just_below.symm⟩)
    rw [newStart_start, hwanted]
    decide
  · intro r hr
    rw [hr.unique (halfAway_spec _)]
    norm_num [halfAway, round_eq]
  · have hround : double (19999999999999999999 / 10 ^ 17) = 7036874417766400 * 2 ^ (-45 : Int) :=
      Format.round_eq (by decide) (by norm_num [binary64]) (by norm_num [binary64])
        (nearestEven_eq (by norm_num [abs_lt]))
    have habsent : Absent (startOnly (19999999999999999999 / 10 ^ 17)) "start_c" := by
      rintro c ⟨hitem, -, hhigh⟩
      have hc : 19999999999999999999 / 10 ^ 17 = c := by simpa [startOnly, Json.item] using hitem
      rw [← hc, hround] at hhigh
      norm_num at hhigh
    rw [newStart_start, json_celsius_absent habsent]
    decide

/-- 25.1499999999999999 degrees; the stop threshold was not posted, and has to give way. -/
theorem just_below_a_half : newStart (251499999999999999 / 10 ^ 16) = ⟨252, 232, 450⟩ := by
  obtain ⟨hp, -, -, -, hcritical, -⟩ := settings_patch towardZero (fun _ _ _ => rfl)
    ⟨default_settings, .missing⟩ Thresholds.default_sane ⟨.ESP_OK, .ESP_OK, .ESP_OK⟩
    (startOnly (251499999999999999 / 10 ^ 16))
  unfold newStart
  generalize settings_get _ = new at *
  obtain ⟨v, hv, hnear⟩ := hp.start
  have hstart : new.start_x10 = 252 := by
    rw [wanted_unique hv (Or.inl ⟨_, just_below_given, tenths_just_below.symm⟩)] at hnear
    exact hnear.unique (nearestIn_self (by decide) (by decide))
  have habsent {key : String} (hkey : key ≠ "start_c") : Absent (startOnly (251499999999999999 / 10 ^ 16)) key := by
    rintro c ⟨hitem, -⟩
    have hfind : (startOnly (251499999999999999 / 10 ^ 16)).item key = none := by simp [startOnly, Json.item, hkey.symm]
    rw [hfind] at hitem
    cases hitem
  obtain ⟨w, hw, hnear'⟩ := hp.stop
  have hstop : new.stop_x10 = 232 := by
    rw [wanted_absent (habsent (by decide)) hw, hstart] at hnear'
    exact hnear'.unique (nearestIn_clamp (by decide) (default_settings.stop_x10))
  rw [hstart] at hcritical
  have hlast := hcritical (habsent (by decide)) (by decide)
  obtain ⟨start, stop, critical⟩ := new
  simp only at hstart hstop hlast
  rw [hstart, hstop, hlast]
  rfl

end FloorHeating.SettingsPatch
