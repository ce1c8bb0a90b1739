import FloorHeating.App
import FloorHeating.Spec.Chart
import FloorHeating.TimeAxis

/-!
# The chart shows the history

The line and the columns, index by index, then the place of each on the chart,
then all of it for the response of the device after any run.
-/

open FloorHeating.Lib FloorHeating.Http FloorHeating.MachineRun FloorHeating.Documents

namespace FloorHeating.ChartPage

/-! ## The line -/

section Line

variable (h : App.History) (s : App.Scale)

theorem path_from (rest : List (Option Rat)) (pen : Bool) (i : Nat) (hrest : h.t.drop i = rest)
    (hpen : pen = decide (0 < i ∧ (h.drawn (i - 1)).isSome = true)) :
    h.path s pen i rest = (List.range' i rest.length).filterMap (h.pointAt s) := by
  induction rest generalizing pen i with
  | nil => rfl
  | cons v rest ih =>
    have hget : h.t[i]? = some v := by
      have := congrArg (·[0]?) hrest
      simpa using this
    have htail : h.t.drop (i + 1) = rest := by
      rw [← List.tail_drop, hrest]
      rfl
    rw [List.length_cons, List.range'_succ, List.filterMap_cons]
    unfold App.History.path
    have hskip (hnone : h.drawn i = none) :
        h.path s false (i + 1) rest = (List.range' (i + 1) rest.length).filterMap (h.pointAt s) :=
      ih false (i + 1) htail (by simp [hnone])
    cases v with
    | none =>
      have hnone : h.drawn i = none := by
        unfold App.History.drawn
        rw [hget]
        exact ite_self _
      rw [App.History.pointAt, hnone]
      exact hskip hnone
    | some v =>
      dsimp only
      split
      · rename_i hold
        have hnone : h.drawn i = none := if_neg (not_le.mpr hold)
        rw [App.History.pointAt, hnone]
        exact hskip hnone
      · rename_i hnew
        have hdrawn : h.drawn i = some v := by
          unfold App.History.drawn
          rw [if_pos (not_lt.mp hnew), hget]
          rfl
        rw [App.History.pointAt, hdrawn, hpen, ih true (i + 1) htail (by simp [hdrawn])]
        rfl

theorem path_eq : h.path s false 0 h.t = (List.range h.t.length).filterMap (h.pointAt s) := by
  rw [List.range_eq_range']
  exact path_from h s h.t false 0 rfl (by simp)

end Line

/-! ## The scales -/

theorem x_between {age : Rat} (h0 : 0 ≤ age) (h1 : age ≤ App.span) : App.L ≤ App.x age ∧ App.x age ≤ App.W - App.R := by
  unfold App.x App.span App.L App.W App.R at *
  constructor <;> linarith

theorem x_le {age : Rat} (h0 : 0 ≤ age) : App.x age ≤ App.W - App.R := by
  unfold App.x App.span App.L App.W App.R at *
  linarith

theorem y_between {s : App.Scale} {c : Rat} (hlow : s.lo ≤ c) (hhigh : c ≤ s.hi_) (hlt : (s.lo : Rat) < s.hi_) :
    App.T ≤ s.y c ∧ s.y c ≤ App.H - App.B := by
  have hpos : (0 : Rat) < s.hi_ - s.lo := by linarith
  have h0 : 0 ≤ (c - s.lo) / (s.hi_ - s.lo) := div_nonneg (by linarith) hpos.le
  have h1 : (c - s.lo) / (s.hi_ - s.lo) ≤ 1 := (div_le_one hpos).mpr (by linarith)
  unfold App.Scale.y App.T App.H App.B
  constructor <;> linarith

theorem foldl_min_le (vals : List Rat) (c : Rat) : vals.foldl min c ≤ c ∧ ∀ v ∈ vals, vals.foldl min c ≤ v := by
  induction vals generalizing c with
  | nil => simp
  | cons v vals ih =>
    obtain ⟨hle, hall⟩ := ih (min c v)
    refine ⟨hle.trans (min_le_left c v), fun w hw => ?_⟩
    rcases List.mem_cons.mp hw with rfl | hw
    · exact hle.trans (min_le_right c w)
    · exact hall w hw

theorem le_foldl_max (vals : List Rat) (c : Rat) : c ≤ vals.foldl max c ∧ ∀ v ∈ vals, v ≤ vals.foldl max c := by
  induction vals generalizing c with
  | nil => simp
  | cons v vals ih =>
    obtain ⟨hle, hall⟩ := ih (max c v)
    refine ⟨(le_max_left c v).trans hle, fun w hw => ?_⟩
    rcases List.mem_cons.mp hw with rfl | hw
    · exact (le_max_right c w).trans hle
    · exact hall w hw

theorem on_scale (vals : List Rat) {st : App.Status} (hlow : st.stop_c ≤ st.start_c)
    (hhigh : st.start_c ≤ st.critical_c) :
    let s := App.scale vals st
    (s.lo : Rat) < s.hi_ ∧ ∀ c, c ∈ vals ∨ c ∈ [st.start_c, st.stop_c, st.critical_c] → s.lo ≤ c ∧ c ≤ s.hi_ := by
  obtain ⟨hmin, hmins⟩ := foldl_min_le vals st.stop_c
  obtain ⟨hmax, hmaxs⟩ := le_foldl_max vals st.critical_c
  have hlo := Int.floor_le (vals.foldl min st.stop_c - 2)
  have hhi := Int.le_ceil (vals.foldl max st.critical_c + 1)
  dsimp only [App.scale]
  refine ⟨by linarith, fun c hc => ?_⟩
  rcases hc with hc | hc
  · have h1 := hmins c hc
    have h2 := hmaxs c hc
    constructor <;> linarith
  · simp only [List.mem_cons, List.not_mem_nil, or_false] at hc
    rcases hc with rfl | rfl | rfl <;> constructor <;> linarith

theorem x_lt {age age' : Rat} (h : age' < age) : App.x age < App.x age' := by
  unfold App.x App.span App.L App.W App.R
  linarith

/-! ## One response -/

section Response

variable {h : App.History} {samples : List (Int16 × Bool)} (hg : Gets h samples)

include hg

theorem gets_length : h.t.length = samples.length := by
  rw [hg.t, List.length_map]

theorem pumped_eq : h.pumped = fun k => (samples[k]?).any Prod.snd := by
  funext k
  unfold App.History.pumped
  rw [hg.p, List.getElem?_map]
  cases samples[k]? with
  | none => rfl
  | some s =>
    obtain ⟨t, on⟩ := s
    cases on <;> rfl

theorem age_between {i j : Nat} (hij : i < j) : h.ageOf j + 60 ≤ h.ageOf i := by
  have hle : (i : Rat) + 1 ≤ j := by exact_mod_cast hij
  unfold App.History.ageOf
  rw [hg.period]
  linarith

variable (hage : 0 ≤ h.newest_age_s)

include hage

theorem age_nonneg {i : Nat} (hi : i < samples.length) : 0 ≤ h.ageOf i := by
  have hle : (i : Rat) + 1 ≤ samples.length := by exact_mod_cast hi
  unfold App.History.ageOf
  rw [hg.period, gets_length hg]
  linarith

theorem column_inside {s : Nat × Nat} {rect : App.Rect} (hlast : s.2 < samples.length) (hle : s.1 ≤ s.2)
    (hrect : h.column s.1 s.2 = some rect) :
    App.L ≤ rect.x ∧ 0 < rect.width ∧ rect.x + rect.width ≤ App.W := by
  unfold App.History.column at hrect
  dsimp only at hrect
  split at hrect
  · cases hrect
    have hfirst : 0 ≤ h.ageOf s.1 + h.period_s / 2 := by
      have hnonneg := age_nonneg hg hage (lt_of_le_of_lt hle hlast)
      rw [hg.period]
      linarith
    have hx1 := x_le hfirst
    have hx2 := x_le (le_max_left 0 (h.ageOf s.2 - h.period_s / 2))
    have hmargin : App.W - App.R + 3 / 2 ≤ App.W ∧ App.L ≤ App.W - App.R ∧ App.W - App.R ≤ App.W := by
      unfold App.W App.R App.L
      norm_num
    have hleft : max App.L (App.x (h.ageOf s.1 + h.period_s / 2)) ≤ App.W - App.R := max_le hmargin.2.1 hx1
    refine ⟨le_max_left _ _, lt_of_lt_of_le (by norm_num) (le_max_left _ _), ?_⟩
    rw [← max_add_add_left]
    apply max_le
    · linarith
    · linarith
  · cases hrect

theorem columns_apart {s s' : Nat × Nat} {rect rect' : App.Rect} (hapart : s.2 + 1 < s'.1) (hle : s.1 ≤ s.2)
    (hlast : s'.1 < samples.length) (hrect : h.column s.1 s.2 = some rect) (hrect' : h.column s'.1 s'.2 = some rect') :
    rect.x < rect'.x := by
  have hnext := age_between hg (Nat.lt_succ_self s.2)
  have hgap := age_between hg hapart
  have hpos := age_nonneg hg hage hlast
  have hfirst : h.ageOf s.2 ≤ h.ageOf s.1 := by
    rcases Nat.eq_or_lt_of_le hle with heq | hlt
    · rw [heq]
    · have := age_between hg hlt
      linarith
  unfold App.History.column at hrect hrect'
  dsimp only at hrect hrect'
  rw [hg.period] at hrect hrect'
  split at hrect
  · rename_i hdrawn
    split at hrect'
    · cases hrect
      cases hrect'
      have hend : App.x (max 0 (h.ageOf s.2 - 60 / 2)) < App.x (h.ageOf s'.1 + 60 / 2) := by
        apply x_lt
        apply lt_max_of_lt_right
        linarith
      have hstart : App.x (h.ageOf s.1 + 60 / 2) < App.x (h.ageOf s'.1 + 60 / 2) := by
        apply x_lt
        linarith
      exact lt_max_of_lt_right (max_lt (hdrawn.trans hend) hstart)
    · cases hrect'
  · cases hrect

theorem columns_sorted : h.columns.Pairwise fun rect rect' => rect.x < rect'.x := by
  have hsorted : (spans h.pumped h.t.length).Pairwise fun s s' => s.2 + 1 < s'.1 := spans_sorted
  have hruns : ∀ s ∈ spans h.pumped h.t.length, MaximalRun h.pumped h.t.length s := fun s hs => (mem_spans s).mp hs
  unfold App.History.columns
  rw [List.pairwise_filterMap]
  refine hsorted.imp_of_mem fun {s s'} hs hs' hapart rect hrect rect' hrect' => ?_
  have hrun := hruns s hs
  have hrun' := hruns s' hs'
  have hlast : s'.1 < samples.length := by
    rw [← gets_length hg]
    exact lt_of_le_of_lt hrun'.le hrun'.lt
  exact columns_apart hg hage hapart hrun.le hlast hrect hrect'

omit hage in
theorem path_sorted (s : App.Scale) : (h.path s false 0 h.t).Pairwise fun point point' => point.x < point'.x := by
  rw [path_eq, List.pairwise_filterMap]
  refine List.pairwise_lt_range.imp fun {i j} hij point hpoint point' hpoint' => ?_
  obtain ⟨v, -, rfl⟩ := Option.map_eq_some_iff.mp hpoint
  obtain ⟨w, -, rfl⟩ := Option.map_eq_some_iff.mp hpoint'
  have hage := age_between hg hij
  exact x_lt (by linarith)

theorem point_inside {st : App.Status} (hlow : st.stop_c ≤ st.start_c) (hhigh : st.start_c ≤ st.critical_c) {i : Nat}
    {point : App.Point} (hi : i < samples.length) (hpoint : h.pointAt (App.scale h.vals st) i = some point) :
    InPlot point.x point.y := by
  obtain ⟨v, hv, rfl⟩ := Option.map_eq_some_iff.mp hpoint
  unfold App.History.drawn at hv
  split at hv
  · rename_i hday
    have hx := x_between (age_nonneg hg hage hi) hday
    have hval : v / 10 ∈ h.vals := by
      unfold App.History.vals
      rw [Option.join_eq_some_iff] at hv
      exact List.mem_map_of_mem (List.mem_filterMap.mpr ⟨some v, List.mem_of_getElem? hv, rfl⟩)
    obtain ⟨hlt, hall⟩ := on_scale h.vals hlow hhigh
    obtain ⟨hlo, hhi⟩ := hall (v / 10) (.inl hval)
    have hy := y_between hlo hhi hlt
    exact ⟨hx.1, hx.2, hy.1, hy.2⟩
  · cases hv

theorem chart_right {st : App.Status} (hlow : st.stop_c ≤ st.start_c) (hhigh : st.start_c ≤ st.critical_c)
    {chart : App.Chart} (hchart : App.loadHistory st h = some chart) : ChartRight st h samples chart := by
  unfold App.loadHistory at hchart
  split at hchart
  · cases hchart
  cases hchart
  have hlength := gets_length hg
  have hcolumns (rect : App.Rect) : rect ∈ h.columns ↔ ∃ i j,
      MaximalRun (fun k => (samples[k]?).any Prod.snd) samples.length (i, j) ∧ h.column i j = some rect := by
    unfold App.History.columns
    rw [List.mem_filterMap, ← pumped_eq hg, ← hlength]
    simp only [mem_spans, Prod.exists]
  have hpath : h.path (App.scale h.vals st) false 0 h.t =
      (List.range samples.length).filterMap (h.pointAt (App.scale h.vals st)) := by
    rw [← hlength]
    exact path_eq h _
  constructor
  · exact hcolumns
  · exact hpath
  · intro point hpoint
    dsimp only at hpoint
    rw [hpath] at hpoint
    obtain ⟨i, hi, hpoint⟩ := List.mem_filterMap.mp hpoint
    exact point_inside hg hage hlow hhigh (List.mem_range.mp hi) hpoint
  · intro y hy
    obtain ⟨hlt, hall⟩ := on_scale h.vals hlow hhigh
    obtain ⟨c, hc, rfl⟩ := List.mem_map.mp hy
    obtain ⟨hlo, hhi⟩ := hall c (.inr hc)
    exact y_between hlo hhi hlt
  · intro rect hrect
    obtain ⟨i, j, hrun, hrect⟩ := (hcolumns rect).mp hrect
    exact column_inside hg hage (s := (i, j)) hrun.lt hrun.le hrect
  · exact columns_sorted hg hage
  · exact path_sorted hg _

end Response

/-! ## What the page gets -/

theorem readings_read (samples : List (Int16 × Bool)) :
    (samples.map fun s => if s.1 = -32768 then Json.null else .num s.1.toInt).mapM App.asOptional =
      some (samples.map fun s => if s.1 = -32768 then none else some (s.1.toInt : Rat)) := by
  induction samples with
  | nil => rfl
  | cons s samples ih =>
    rw [List.map_cons, List.mapM_cons, ih, List.map_cons]
    by_cases hs : s.1 = -32768
    · rw [if_pos hs, if_pos hs]
      rfl
    · rw [if_neg hs, if_neg hs]
      rfl

theorem history_read (samples : List (Int16 × Bool)) (newest newest_age_s : Int64) :
    ∃ h, App.History.read (history_json samples newest newest_age_s) = some h ∧ Gets h samples ∧
      h.newest_age_s = newest_age_s.toInt := by
  refine ⟨⟨newest_age_s.toInt, 60, samples.map fun s => if s.1 = -32768 then none else some (s.1.toInt : Rat),
    samples.map fun s => if s.2 then '1' else '0'⟩, ?_, ⟨rfl, rfl, rfl⟩, rfl⟩
  change (((samples.map fun s => if s.1 = -32768 then Json.null else .num s.1.toInt).mapM App.asOptional).bind fun t =>
    some (⟨newest_age_s.toInt, 60, t,
      (String.ofList (samples.map fun s => if s.2 then '1' else '0')).toList⟩ : App.History)) = _
  rw [readings_read, String.toList_ofList]
  rfl

theorem vals_empty {h : App.History} {samples : List (Int16 × Bool)} (hg : Gets h samples) :
    h.vals = [] ↔ ∀ s ∈ samples, s.1 = -32768 := by
  unfold App.History.vals
  rw [List.map_eq_nil_iff, List.filterMap_eq_nil_iff, hg.t]
  constructor
  · intro h s hs
    have hnone := h _ (List.mem_map_of_mem hs)
    by_contra hne
    rw [if_neg hne] at hnone
    cases hnone
  · intro h v hv
    obtain ⟨s, hs, rfl⟩ := List.mem_map.mp hv
    rw [if_pos (h s hs)]
    rfl

/-! ## The newest sample is in the past -/

def InPast (m : Machine) : Prop := m.task.history = .init ∨ m.task.history.s_newest_mono_s ≤ m.clock

section Step

variable {m : Machine} (h : InPast m)

include h

theorem inPast_moved {m' : Machine} (hclock : m'.clock = m.clock) (hhistory : m'.task.history = m.task.history) :
    InPast m' := by
  unfold InPast
  rw [hclock, hhistory]
  exact h

theorem inPast_request (method : HttpMethod) (uri : String) (env : HttpEnv) (req : Request) :
    InPast { m with toFirmware := (serve method uri env m.toFirmware req).1 } := by
  refine inPast_moved h rfl ?_
  dsimp only
  rcases serve_effect method uri env m.toFirmware req with hsame | ⟨-, manual, d, who, hpump⟩ | ⟨in_out, hset⟩
  · rw [hsame]
  · rw [hpump]
    rfl
  · rw [hset]

theorem inPast_sampled (now_s : Int) (read : Option (Option Int16)) (on : Bool) :
    InPast { m with task := m.sampled now_s read on, pc := .top } := by
  cases read with
  | none => exact inPast_moved h rfl rfl
  | some reading =>
    unfold InPast Machine.sampled
    dsimp only
    split
    · exact Or.inr le_rfl
    · exact h

theorem inPast_step {a : Move} {m' : Machine} (hm : Moved m a m') : InPast m' := by
  cases hm with
  | still a ha => exact h
  | tick d =>
    rcases h with hinit | hle
    · exact Or.inl hinit
    · right
      change m.task.history.s_newest_mono_s ≤ m.clock + d
      omega
  | stores now_s read on hpc => exact inPast_sampled h now_s read on
  | serves method uri env req hfree => exact inPast_request h method uri { env with now_s := m.clock } req
  | reboots boot => exact Or.inl rfl
  | _ => exact inPast_moved h rfl rfl

end Step

theorem inPast_run (nvs : Nvs) (ring : EventRing) (boot : Int) (h : List Move) :
    InPast (machineAfter nvs ring boot h) := by
  induction h using List.reverseRecOn with
  | nil => exact Or.inl rfl
  | append_singleton h a ih =>
    rw [machineAfter_snoc]
    exact inPast_step ih (step_moved _ a)

/-! ## The chart -/

theorem status_thresholds {doc : Json} {s : App.Status} (h : Honest doc) (hs : App.Status.read doc = some s) :
    s.stop_c ≤ s.start_c ∧ s.start_c ≤ s.critical_c := by
  obtain ⟨c, now, st, events_unix_time, system, -, hsane, rfl⟩ := h
  rw [AppPage.status_read] at hs
  cases hs
  have hlow : (st.stop_x10 : Rat) ≤ st.start_x10 - 20 := by exact_mod_cast hsane.hysteresis
  have hhigh : (st.start_x10 : Rat) + 50 ≤ st.critical_x10 := by exact_mod_cast hsane.margin
  unfold AppPage.statusOf celsius
  constructor <;> linarith

/-- Unless it is 2^63 s old, the age of the newest sample is sent as it is. -/
theorem age_sent {m : Machine} (h : InPast m) {newest_age_s : Int64}
    (hage : newest_age_s = Int64.ofInt (m.clock - (m.task.history.history_copy HISTORY_SAMPLES).2))
    (hne : (m.task.history.history_copy HISTORY_SAMPLES).1 ≠ [])
    (hlong : m.clock < (m.task.history.history_copy HISTORY_SAMPLES).2 + 2 ^ 63) :
    newest_age_s.toInt = m.clock - (m.task.history.history_copy HISTORY_SAMPLES).2 ∧ 0 ≤ newest_age_s.toInt := by
  have hle : (m.task.history.history_copy HISTORY_SAMPLES).2 ≤ m.clock := by
    rcases h with hinit | hle
    · rw [hinit] at hne
      exact absurd rfl hne
    · exact hle
  rw [hage, Int64.toInt_ofInt_of_le (by omega) (by omega)]
  exact ⟨rfl, by omega⟩

/-- A page with any status document that was ever sent draws the history of the firmware as it is, whenever it
asks for it. -/
theorem chart_shows_the_samples (nvs : Nvs) (ring : EventRing) (boot : Int) (h : List Move) (env : HttpEnv)
    (req : Request) {doc : Json} {s : App.Status} (hdoc : doc ∈ (machineAfter nvs ring boot h).documents)
    (hs : App.Status.read doc = some s) (hguard : req.hi_httpd_guard .HI_GUARD_SESSION = true)
    (hlong : (machineAfter nvs ring boot h).clock <
      ((machineAfter nvs ring boot h).task.history.history_copy HISTORY_SAMPLES).2 + 2 ^ 63) :
    let m := machineAfter nvs ring boot h
    let samples := (m.task.history.history_copy HISTORY_SAMPLES).1
    ∃ body page, serve .HTTP_GET "/api/history" { env with now_s := m.clock, httpd := fun _ => .ESP_OK } m.toFirmware
        req = (m.toFirmware, .chunks (.ok (body ++ [[]]))) ∧
      (Json.parse (String.ofList body.flatten)).bind App.History.read = some page ∧ Gets page samples ∧
      (samples ≠ [] → page.newest_age_s = (m.clock - (m.task.history.history_copy HISTORY_SAMPLES).2 : Int)) ∧
      (App.loadHistory s page = none ↔ ∀ x ∈ samples, x.1 = -32768) ∧
      ∀ chart ∈ App.loadHistory s page, ChartRight s page samples chart := by
  have hpast := inPast_run nvs ring boot h
  have hhonest := (sound_run nvs ring boot h).documents doc hdoc
  obtain ⟨hlow, hhigh⟩ := status_thresholds hhonest hs
  clear hhonest hdoc
  generalize machineAfter nvs ring boot h = m at *
  dsimp only
  obtain ⟨newest, newest_age_s, hsend, hclock⟩ := Streaming.send_history_eq (fun _ => .ESP_OK) m.task.history
    (fun mono_s => Int64.ofInt (events_unix_time env.date.synced env.time m.clock mono_s)) m.clock
  obtain ⟨body, hbody, htext, -⟩ := Streaming.sent_document (m.task.history.history_copy HISTORY_SAMPLES).1 newest
    newest_age_s
  obtain ⟨page, hread, hgets, hage⟩ := history_read (m.task.history.history_copy HISTORY_SAMPLES).1 newest newest_age_s
  have hright {chart : App.Chart} (hchart : App.loadHistory s page = some chart) :
      ChartRight s page (m.task.history.history_copy HISTORY_SAMPLES).1 chart := by
    have hne : (m.task.history.history_copy HISTORY_SAMPLES).1 ≠ [] := by
      intro hnil
      have hvals : page.vals = [] := (vals_empty hgets).mpr (by simp [hnil])
      unfold App.loadHistory at hchart
      rw [if_pos hvals] at hchart
      cases hchart
    have hpos := (age_sent hpast (hclock hne).2 hne hlong).2
    have hnonneg : 0 ≤ page.newest_age_s := by
      rw [hage]
      exact_mod_cast hpos
    exact chart_right hgets hnonneg hlow hhigh hchart
  refine ⟨body, page, ?_, ?_, hgets, fun hne => ?_, ?_, fun chart hchart => hright hchart⟩
  · change guarded .HI_GUARD_SESSION Http.send_history _ _ _ = _
    unfold guarded
    rw [if_neg (not_not.mpr hguard)]
    exact congrArg (fun sent => (m.toFirmware, Response.chunks sent)) (hsend.trans hbody)
  · rw [htext, Streaming.parse_document]
    exact hread
  · rw [hage, (age_sent hpast (hclock hne).2 hne hlong).1]
  · rw [← vals_empty hgets]
    unfold App.loadHistory
    split <;> simp [*]

theorem overtaken_reader_chart :
    ∃ doc s page chart, (machineAfter .missing zeroedRing 0 overtakenReader).documents = [doc] ∧
      App.Status.read doc = some s ∧ Gets page [(310, true)] ∧ App.loadHistory s page = some chart ∧
      ChartRight s page [(310, true)] chart := by
  have hsent : ∃ doc, (machineAfter .missing zeroedRing 0 overtakenReader).documents = [doc] := ⟨_, rfl⟩
  obtain ⟨doc, hdoc⟩ := hsent
  have hmem : doc ∈ (machineAfter .missing zeroedRing 0 overtakenReader).documents := by simp [hdoc]
  obtain ⟨c, now, st, events_unix_time, system, -, -, heq⟩ :=
    (sound_run .missing zeroedRing 0 overtakenReader).documents doc hmem
  have hread : App.Status.read doc = some (AppPage.statusOf c st) := by
    rw [heq]
    exact AppPage.status_read c st now events_unix_time system
  have hcopy : (machineAfter .missing zeroedRing 0 overtakenReader).task.history.history_copy HISTORY_SAMPLES =
      ([(310, true)], 6) := by
    decide +kernel
  have hclock : (machineAfter .missing zeroedRing 0 overtakenReader).clock = 6 := rfl
  obtain ⟨body, page, -, -, hgets, -, hnone, hright⟩ := chart_shows_the_samples .missing zeroedRing 0 overtakenReader
    AppPage.phoneEnv AppPage.phone hmem hread rfl (by rw [hcopy, hclock]; norm_num)
  rw [hcopy] at hgets hnone hright
  cases hchart : App.loadHistory (AppPage.statusOf c st) page with
  | none => exact absurd (hnone.mp hchart (310, true) List.mem_cons_self) (by decide)
  | some chart => exact ⟨doc, _, page, chart, hdoc, hread, hgets, hchart, hright chart hchart⟩

end FloorHeating.ChartPage
