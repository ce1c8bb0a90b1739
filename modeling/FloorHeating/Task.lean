import FloorHeating.Spec.Task

/-!
# The control task runs lock sections

One equation for a pass. What is shown of runs of sections holds of the task.
-/

open FloorHeating.Lib

namespace FloorHeating.TaskRun

/-! ## A pass -/

section Pass

variable (t : Task) (p : Pass)

def passSection : Section :=
  if t.reads p then .task p.for_sensor p.settings p.date p.read_s (some (p.reading.map Int16.toInt))
  else .task p.for_sensor p.settings p.date p.top_s none

def passSample : HistoryAdd where
  now := p.read_s
  valid := p.reading.isSome
  temp_x10 := p.reading.getD 0
  pump_on := ((passSection t p).exec t.control).s_state.on

theorem control_task_eq :
    control_task t p = {
      control := (passSection t p).exec t.control
      next_read_s := if t.reads p then p.top_s + 5 else t.next_read_s
      next_history_s := if t.samples p then p.read_s + 60 else t.next_history_s
      history := if t.samples p then (passSample t p).exec t.history else t.history } := by
  by_cases hr : t.next_read_s ≤ p.top_s
  · by_cases hh : t.next_history_s ≤ p.read_s
    all_goals simp [control_task, passSample, passSection, Task.reads, Task.samples, Section.exec,
      HistoryAdd.exec, CONTROL_READ_PERIOD_S, HISTORY_PERIOD_S, hr, hh]
  · simp [control_task, passSection, Task.reads, Task.samples, Section.exec, hr]

theorem takenBy_pass :
    takenBy t (.pass p) = if t.samples p then [⟨t.next_history_s, passSample t p⟩] else [] := by
  simp only [takenBy, control_task_eq, passSample]

theorem pass_next_read :
    (Turn.exec t (.pass p)).next_read_s = if t.reads p then p.top_s + 5 else t.next_read_s :=
  congrArg Task.next_read_s (control_task_eq t p)

theorem pass_next_history :
    (Turn.exec t (.pass p)).next_history_s = if t.samples p then p.read_s + 60 else t.next_history_s :=
  congrArg Task.next_history_s (control_task_eq t p)

theorem pass_history :
    (Turn.exec t (.pass p)).history = if t.samples p then (passSample t p).exec t.history else t.history :=
  congrArg Task.history (control_task_eq t p)

end Pass

/-! ## The sections of a run -/

def turnSection (t : Task) : Turn → Section
  | .pass p => passSection t p
  | .command settings date now m d who => .command settings date now m d who

def sectionsFrom (t : Task) : List Turn → List Section
  | [] => []
  | x :: l => turnSection t x :: sectionsFrom (x.exec t) l

theorem turn_control (t : Task) (x : Turn) : (x.exec t).control = (turnSection t x).exec t.control := by
  cases x with
  | pass p => exact congrArg Task.control (control_task_eq t p)
  | command settings date now m d who => rfl

theorem control_eq (t : Task) (l : List Turn) :
    (run Turn.exec t l).control = run Section.exec t.control (sectionsFrom t l) := by
  induction l generalizing t with
  | nil => rfl
  | cons x l ih =>
    change (run Turn.exec (x.exec t) l).control = _
    rw [ih, turn_control]
    rfl

theorem taskAfter_control (boot : Int) (l : List Turn) :
    (taskAfter boot l).control = controlAfter boot (sectionsFrom (task_start boot) l) :=
  control_eq (task_start boot) l

def Int16Read : Section → Prop
  | .task _ _ _ _ (some (some temp_x10)) => -32768 ≤ temp_x10 ∧ temp_x10 ≤ 32767
  | _ => True

theorem passSection_int16 (t : Task) (p : Pass) : Int16Read (passSection t p) := by
  unfold passSection
  split
  · cases p.reading with
    | none => trivial
    | some r => exact ⟨r.le_toInt, Int.le_of_lt_add_one r.toInt_lt⟩
  · trivial

theorem sections_int16 (t : Task) (l : List Turn) : ∀ sec ∈ sectionsFrom t l, Int16Read sec := by
  induction l generalizing t with
  | nil => simp [sectionsFrom]
  | cons x l ih =>
    intro sec hsec
    rw [sectionsFrom, List.mem_cons] at hsec
    rcases hsec with rfl | hsec
    · cases x with
      | pass p => exact passSection_int16 t p
      | command settings date now m d who => trivial
    · exact ih _ sec hsec

end FloorHeating.TaskRun
