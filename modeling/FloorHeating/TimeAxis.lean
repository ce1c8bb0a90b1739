import FloorHeating.History
import FloorHeating.Stream
import FloorHeating.Task
import Mathlib.Data.List.Chain
import Mathlib.Algebra.Order.Group.Int

/-!
# The app's time axis

Each deadline is 60 s after the sample before it was taken, not after the
deadline before it. So every late sample moves all the older ones back on the
app's axis, and the errors add up.
-/

open FloorHeating.Lib FloorHeating.TaskRun

namespace FloorHeating.TimeAxis

/-! ## The samples of a run -/

theorem history_eq (t : Task) (l : List Turn) :
    (run Turn.exec t l).history = run HistoryAdd.exec t.history ((takenFrom t l).map Taken.add) := by
  induction l generalizing t with
  | nil => rfl
  | cons x l ih =>
    change (run Turn.exec (x.exec t) l).history = _
    rw [ih, takenFrom, List.map_append, run_append]
    congr 1
    cases x with
    | command settings date now m d who => rfl
    | pass p =>
      rw [takenBy_pass, pass_history]
      split <;> rfl

def Rearmed (x y : Taken) : Prop := y.deadline = x.add.now + 60

theorem taken_first (t : Task) (l : List Turn) :
    ∀ x ∈ (takenFrom t l).head?, x.deadline = t.next_history_s := by
  induction l generalizing t with
  | nil => simp [takenFrom]
  | cons y l ih =>
    have ih := ih (y.exec t)
    unfold takenFrom
    cases y with
    | command settings date now m d who => exact ih
    | pass p =>
      rw [takenBy_pass]
      by_cases hs : t.samples p
      · simp [hs]
      · rw [pass_next_history, if_neg hs] at ih
        rw [if_neg hs]
        exact ih

theorem taken_chain (t : Task) (l : List Turn) : (takenFrom t l).IsChain Rearmed := by
  induction l generalizing t with
  | nil => exact List.isChain_nil
  | cons y l ih =>
    have ih := ih (y.exec t)
    unfold takenFrom
    cases y with
    | command settings date now m d who => exact ih
    | pass p =>
      rw [takenBy_pass]
      by_cases hs : t.samples p
      · rw [if_pos hs, List.singleton_append, List.isChain_cons]
        refine ⟨fun x hx => ?_, ih⟩
        rw [Rearmed, taken_first _ l x hx, pass_next_history, if_pos hs]
        rfl
      · rw [if_neg hs]
        exact ih

theorem taken_not_early (t : Task) (l : List Turn) : ∀ x ∈ takenFrom t l, 0 ≤ x.lateness := by
  induction l generalizing t with
  | nil => simp [takenFrom]
  | cons y l ih =>
    intro x hx
    rw [takenFrom, List.mem_append] at hx
    rcases hx with hx | hx
    · cases y with
      | command settings date now m d who => cases hx
      | pass p =>
        rw [takenBy_pass] at hx
        split at hx
        · rename_i hs
          rw [List.mem_singleton.mp hx]
          have := hs.2
          simp only [Taken.lateness, passSample]
          omega
        · cases hx
    · exact ih _ x hx

/-! ## Errors add up -/

theorem totalLateness_nonneg {l : List Taken} (h : ∀ x ∈ l, 0 ≤ x.lateness) : 0 ≤ totalLateness l := by
  induction l with
  | nil => exact Int.le_refl 0
  | cons x l ih =>
    have hx := h x List.mem_cons_self
    have hl := ih fun y hy => h y (List.mem_cons_of_mem x hy)
    unfold totalLateness
    omega

/-- From a sample to the newest: a period for each sample between, and all their lateness. -/
theorem newest_time {x : Taken} {l : List Taken} (hc : (x :: l).IsChain Rearmed) :
    ((x :: l).getLast (List.cons_ne_nil x l)).add.now = x.add.now + l.length * 60 + totalLateness l := by
  induction l generalizing x with
  | nil => simp [totalLateness]
  | cons y l ih =>
    rw [List.isChain_cons] at hc
    have hy : y.deadline = x.add.now + 60 := hc.1 y rfl
    rw [List.getLast_cons (List.cons_ne_nil y l), ih hc.2]
    simp only [totalLateness, Taken.lateness, List.length_cons]
    push_cast
    omega

theorem later_le_all {l : List Taken} (h : ∀ x ∈ l, 0 ≤ x.lateness) (k : Nat) :
    totalLateness (l.drop k) ≤ totalLateness l := by
  induction l generalizing k with
  | nil => simp
  | cons x l ih =>
    cases k with
    | zero => exact Int.le_refl _
    | succ k =>
      have hx := h x List.mem_cons_self
      have hl := ih (fun y hy => h y (List.mem_cons_of_mem x hy)) k
      rw [List.drop_succ_cons, totalLateness]
      omega

/-! ## The axis -/

section Axis

variable (boot : Int) (l : List Turn)

theorem ring_chain : (inRing boot l).IsChain Rearmed := (taken_chain (task_start boot) l).drop _

theorem ring_not_early : ∀ x ∈ inRing boot l, 0 ≤ x.lateness :=
  fun x hx => taken_not_early (task_start boot) l x (List.mem_of_mem_drop hx)

theorem history_of_run :
    (taskAfter boot l).history = historyAfter ((takenFrom (task_start boot) l).map Taken.add) :=
  history_eq (task_start boot) l

theorem copy_samples :
    ((taskAfter boot l).history.history_copy HISTORY_SAMPLES).1 = (inRing boot l).map fun x => x.add.sample := by
  have hsize : HISTORY_SAMPLES.toNat = 1440 := rfl
  have hstart : ∀ n : Nat, n - min (min n 1440) 1440 = n - 1440 := by omega
  rw [history_of_run, HistoryRing.copied, List.length_map, List.map_map, hsize, hstart]
  exact List.map_drop.symm

theorem copy_newest :
    ((taskAfter boot l).history.history_copy HISTORY_SAMPLES).2 =
      ((inRing boot l).getLast?.map fun x => x.add.now).getD 0 := by
  have hnewest := HistoryRing.newest ((takenFrom (task_start boot) l).map Taken.add)
  rw [← history_of_run, List.getLast?_map, Option.map_map] at hnewest
  unfold inRing
  simp only
  rw [List.getLast?_drop]
  split
  · rename_i hle
    have hnil : takenFrom (task_start boot) l = [] := List.eq_nil_of_length_eq_zero (by omega)
    rw [hnil] at hnewest
    exact hnewest
  · exact hnewest

/-- The response of `/api/history`, after any run: it reads as the samples of the ring. -/
theorem history_response (events_unix_time : Int → Int64) (T : Int) :
    ∃ body newest newest_age_s,
      send_history (fun _ => .ESP_OK) (taskAfter boot l).history events_unix_time T = .ok (body ++ [[]]) ∧
        Json.parse (String.ofList body.flatten) =
          some (history_json ((inRing boot l).map fun x => x.add.sample) newest newest_age_s) ∧
        ∀ x ∈ (inRing boot l).getLast?,
          newest = events_unix_time x.add.now ∧ newest_age_s = Int64.ofInt (T - x.add.now) := by
  obtain ⟨newest, newest_age_s, hresponse, hclock⟩ := Streaming.send_history_eq (fun _ => .ESP_OK)
    (taskAfter boot l).history events_unix_time T
  rw [copy_samples, copy_newest] at hclock
  rw [copy_samples] at hresponse
  obtain ⟨body, hsend, htext, -⟩ :=
    Streaming.sent_document ((inRing boot l).map fun x => x.add.sample) newest newest_age_s
  refine ⟨body, newest, newest_age_s, hresponse.trans hsend, ?_, fun x hx => ?_⟩
  · rw [htext]
    exact Streaming.parse_document _ _ _
  · have hne : (inRing boot l).map (fun x => x.add.sample) ≠ [] := by
      intro hnil
      rw [List.map_eq_nil_iff.mp hnil] at hx
      cases hx
    have h := hclock hne
    rwa [hx] at h

/-- The app puts sample `k` too far to the right by what the later samples were late together. -/
theorem axis_error {k : Nat} {x : Taken} (hx : (inRing boot l)[k]? = some x) (T : Int) :
    let copy := (taskAfter boot l).history.history_copy HISTORY_SAMPLES
    ageOf (T - copy.2) copy.1.length k - (T - x.add.now) = - totalLateness ((inRing boot l).drop (k + 1)) := by
  obtain ⟨hk, hget⟩ := List.getElem?_eq_some_iff.mp hx
  have hdrop : (inRing boot l).drop k = x :: (inRing boot l).drop (k + 1) := by
    rw [List.drop_eq_getElem_cons hk, hget]
  have hchain := (ring_chain boot l).drop k
  rw [hdrop] at hchain
  have hlast := newest_time hchain
  have hnewest : ((taskAfter boot l).history.history_copy HISTORY_SAMPLES).2 =
      ((x :: (inRing boot l).drop (k + 1)).getLast (List.cons_ne_nil x _)).add.now := by
    have hend : (inRing boot l).getLast? = ((inRing boot l).drop k).getLast? := by
      rw [List.getLast?_drop, if_neg (by omega)]
    rw [copy_newest, hend, hdrop, List.getLast?_eq_some_getLast (List.cons_ne_nil x _)]
    rfl
  have hlen : ((inRing boot l).drop (k + 1)).length = (inRing boot l).length - (k + 1) := List.length_drop
  simp only [copy_samples, List.length_map, hnewest, hlast, hlen, ageOf, HISTORY_PERIOD_S]
  omega

end Axis

/-- The app's axis is right exactly as long as the samples after the oldest were less than one period
late together. -/
theorem time_axis_iff (boot : Int) (l : List Turn) (T : Int) :
    let copy := (taskAfter boot l).history.history_copy HISTORY_SAMPLES
    copy.1 = (inRing boot l).map (fun x => x.add.sample) ∧
      ((∀ k x, (inRing boot l)[k]? = some x →
          ((ageOf (T - copy.2) copy.1.length k - (T - x.add.now)).natAbs : Int) < HISTORY_PERIOD_S) ↔
        totalLateness (inRing boot l).tail < HISTORY_PERIOD_S) := by
  refine ⟨copy_samples boot l, ?_, ?_⟩
  · intro h
    cases hring : inRing boot l with
    | nil => exact (by decide : (0 : Int) < 60)
    | cons x rest =>
      have hx : (inRing boot l)[0]? = some x := by rw [hring]; rfl
      have herr := axis_error boot l hx T
      have h0 := h 0 x hx
      simp only at herr h0
      rw [herr, hring] at h0
      simp only [Nat.zero_add, List.drop_one, List.tail_cons] at h0 ⊢
      omega
  · intro h k x hx
    have herr := axis_error boot l hx T
    have hlate := later_le_all (l := (inRing boot l).tail)
      (fun y hy => ring_not_early boot l y (List.mem_of_mem_tail hy)) k
    have hpos := totalLateness_nonneg (l := (inRing boot l).drop (k + 1))
      fun y hy => ring_not_early boot l y (List.mem_of_mem_drop hy)
    rw [List.drop_tail] at hlate
    simp only at herr
    rw [herr]
    omega

/-! ## How late a sample can be -/

/-- The next deadline is after the last read. -/
def Paced (t : Task) : Prop := t.next_read_s - 4 ≤ t.next_history_s

theorem paced_pass {t : Task} {p : Pass} (h : Paced t) (hb : p.top_s ≤ p.read_s ∧ p.read_s ≤ p.top_s + 1)
    (hidle : ¬ t.reads p → p.read_s = p.top_s) :
    Paced (Turn.exec t (.pass p)) ∧ p.read_s < (Turn.exec t (.pass p)).next_read_s := by
  unfold Paced at h ⊢
  rw [pass_next_read, pass_next_history]
  unfold Task.samples Task.reads at *
  by_cases hr : t.next_read_s ≤ p.top_s
  · by_cases hh : t.next_history_s ≤ p.read_s
    · simp only [hr, hh, and_self, if_true]
      omega
    · simp only [hr, hh, and_false, if_true, if_false]
      omega
  · have := hidle hr
    simp only [hr, false_and, if_false]
    omega

/-- After the first pass: a read is at most one second after it is due, takes one, and the read
before it was at least one second ahead of the deadline. -/
theorem late_le_six {t : Task} {b : Int} {l : List Turn} (h : Paced t) (hdue : b < t.next_read_s)
    (hc : ClockedFrom t (some b) l) : ∀ x ∈ takenFrom t l, x.lateness ≤ 6 := by
  induction l generalizing t b with
  | nil => simp [takenFrom]
  | cons y l ih =>
    intro x hx
    rw [takenFrom, List.mem_append] at hx
    cases y with
    | command settings date now m d who =>
      rcases hx with hx | hx
      · cases hx
      · exact ih (t := Turn.exec t (.command settings date now m d who)) h hdue hc x hx
    | pass p =>
      obtain ⟨hwait, hlow, hhigh, hidle, hc⟩ := hc
      obtain ⟨hpaced, hdue'⟩ := paced_pass h ⟨hlow, hhigh⟩ hidle
      rcases hx with hx | hx
      · rw [takenBy_pass] at hx
        split at hx
        · rw [List.mem_singleton.mp hx]
          have hwait := hwait b rfl
          unfold Paced at h
          simp only [Taken.lateness, passSample]
          omega
        · cases hx
      · exact ih hpaced hdue' hc x hx

theorem late_after_first {t : Task} {l : List Turn} (h : Paced t) (hc : ClockedFrom t none l) :
    ∀ x ∈ (takenFrom t l).tail, x.lateness ≤ 6 := by
  induction l generalizing t with
  | nil => simp [takenFrom]
  | cons y l ih =>
    intro x hx
    rw [takenFrom] at hx
    cases y with
    | command settings date now m d who =>
      exact ih (t := Turn.exec t (.command settings date now m d who)) h hc x hx
    | pass p =>
      obtain ⟨-, hlow, hhigh, hidle, hc⟩ := hc
      obtain ⟨hpaced, hdue⟩ := paced_pass h ⟨hlow, hhigh⟩ hidle
      rw [takenBy_pass] at hx
      split at hx
      · exact late_le_six hpaced hdue hc x hx
      · exact late_le_six hpaced hdue hc x (List.mem_of_mem_tail hx)

theorem totalLateness_le {l : List Taken} (h : ∀ x ∈ l, x.lateness ≤ 6) : totalLateness l ≤ 6 * l.length := by
  induction l with
  | nil => exact Int.le_refl 0
  | cons x l ih =>
    have hx := h x List.mem_cons_self
    have hl := ih fun y hy => h y (List.mem_cons_of_mem x hy)
    rw [totalLateness, List.length_cons]
    push_cast
    omega

/-- With up to ten samples the axis is always right. -/
theorem ten_samples_right {boot : Int} {l : List Turn} (hc : Clocked boot l)
    (hfew : (inRing boot l).length ≤ 10) : totalLateness (inRing boot l).tail < HISTORY_PERIOD_S := by
  have hpaced : Paced (task_start boot) := by
    change (0 : Int) - 4 ≤ 0
    decide
  have hlate : ∀ x ∈ (inRing boot l).tail, x.lateness ≤ 6 := by
    intro x hx
    unfold inRing at hx
    simp only at hx
    rw [List.tail_drop, ← List.drop_tail] at hx
    exact late_after_first hpaced hc x (List.mem_of_mem_drop hx)
  have hsum := totalLateness_le hlate
  have hlen := List.length_tail (l := inRing boot l)
  unfold HISTORY_PERIOD_S
  omega

/-! ## A run that drifts -/

def schedule (next_read next_history : Int) : List Pass → List (Int × Int)
  | [] => []
  | p :: l =>
    if next_read ≤ p.top_s then
      if next_history ≤ p.read_s then (next_history, p.read_s) :: schedule (p.top_s + 5) (p.read_s + 60) l
      else schedule (p.top_s + 5) next_history l
    else schedule next_read next_history l

theorem schedule_eq (t : Task) (l : List Pass) :
    (takenFrom t (l.map .pass)).map (fun x => (x.deadline, x.add.now)) =
      schedule t.next_read_s t.next_history_s l := by
  induction l generalizing t with
  | nil => rfl
  | cons p l ih =>
    rw [List.map_cons, takenFrom, List.map_append, ih, takenBy_pass, pass_next_read, pass_next_history, schedule]
    unfold Task.samples Task.reads
    by_cases hr : t.next_read_s ≤ p.top_s
    · by_cases hh : t.next_history_s ≤ p.read_s
      · simp only [hr, hh, and_self, if_true]
        rfl
      · simp [hr, hh]
    · simp [hr]

def clocked (next_read : Int) (last : Option Int) : List Pass → Bool
  | [] => true
  | p :: l =>
    (last.all fun b => decide (b ≤ p.top_s ∧ p.top_s ≤ b + 2)) && decide (p.top_s ≤ p.read_s) &&
      decide (p.read_s ≤ p.top_s + 1) && (decide (next_read ≤ p.top_s) || decide (p.read_s = p.top_s)) &&
      clocked (if next_read ≤ p.top_s then p.top_s + 5 else next_read) (some p.read_s) l

theorem clockedFrom_of (t : Task) (last : Option Int) (l : List Pass) (h : clocked t.next_read_s last l = true) :
    ClockedFrom t last (l.map .pass) := by
  induction l generalizing t last with
  | nil => trivial
  | cons p l ih =>
    simp only [clocked, Bool.and_eq_true, Bool.or_eq_true, decide_eq_true_eq] at h
    obtain ⟨⟨⟨⟨hwait, hlow⟩, hhigh⟩, hidle⟩, hrest⟩ := h
    refine ⟨?_, hlow, hhigh, fun hn => hidle.resolve_left hn, ?_⟩
    · rintro b rfl
      simpa using hwait
    · apply ih
      rw [pass_next_read]
      exact hrest

/-- A read every 6 s, and a second for every eleventh. -/
def driftingPasses : List Pass :=
  (List.range 331).map fun i =>
    { top_s := 2 * i, read_s := if i % 33 = 0 then 2 * i + 1 else 2 * i, reading := some 215
      for_sensor := default_settings, settings := default_settings, date := ⟨false, 0⟩ }

def drifting : List Turn := driftingPasses.map .pass

theorem drifting_schedule : schedule 0 0 driftingPasses =
    (0, 1) :: (List.range 10).map fun (k : Nat) => (66 * (k : Int) + 61, 66 * (k : Int) + 67) := by
  decide +kernel

theorem drifting_clocked : clocked 0 none driftingPasses = true := by
  decide +kernel

theorem drifting_ring : (inRing 0 drifting).map (fun x => (x.deadline, x.add.now)) =
    (0, 1) :: (List.range 10).map fun (k : Nat) => (66 * (k : Int) + 61, 66 * (k : Int) + 67) := by
  have hall := schedule_eq (task_start 0) driftingPasses
  have hsched : schedule (task_start 0).next_read_s (task_start 0).next_history_s driftingPasses = _ :=
    drifting_schedule
  rw [hsched] at hall
  have hlen := congrArg List.length hall
  rw [List.length_map] at hlen
  unfold inRing drifting
  simp only
  rw [hlen]
  exact hall

theorem totalLateness_eq (l : List Taken) :
    totalLateness l =
      (l.map fun x => (x.deadline, x.add.now)).foldr (fun (e : Int × Int) total => e.2 - e.1 + total) 0 := by
  induction l with
  | nil => rfl
  | cons x l ih => rw [totalLateness, ih]; rfl

/-- The clock keeps its bounds, and after eleven minutes the oldest of eleven samples is drawn a whole
minute too far to the right. -/
theorem drifting_axis_wrong :
    Clocked 0 drifting ∧ ∃ x, (inRing 0 drifting)[0]? = some x ∧
      let copy := (taskAfter 0 drifting).history.history_copy HISTORY_SAMPLES
      ¬ ((ageOf (661 - copy.2) copy.1.length 0 - (661 - x.add.now)).natAbs : Int) < HISTORY_PERIOD_S := by
  refine ⟨clockedFrom_of (task_start 0) none driftingPasses drifting_clocked, ?_⟩
  have hring := drifting_ring
  cases hl : inRing 0 drifting with
  | nil =>
    rw [hl] at hring
    cases hring
  | cons x rest =>
    have hx : (inRing 0 drifting)[0]? = some x := by rw [hl]; rfl
    have herr := axis_error 0 drifting hx 661
    have hlate : totalLateness rest = 60 := by
      rw [hl, List.map_cons] at hring
      rw [totalLateness_eq, (List.cons.inj hring).2]
      decide
    refine ⟨x, rfl, ?_⟩
    simp only at herr ⊢
    rw [herr, hl, Nat.zero_add, List.drop_one, List.tail_cons, hlate]
    decide

end FloorHeating.TimeAxis
