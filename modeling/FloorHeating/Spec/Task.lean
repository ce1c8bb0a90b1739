import FloorHeating.Code.Task
import FloorHeating.Spec.Samples
import FloorHeating.Spec.Sections

/-!
# Runs of the control task

Between two passes the HTTP server may have taken the lock for a command. A run
also tells which passes took a sample, and how late each of these was.
-/

open FloorHeating.Lib

namespace FloorHeating

inductive Turn where
  | pass (p : Pass)
  | command (settings : Settings) (date : LocalDate) (now_s : Int) (manual : CtlManual)
      (duration_s : UInt32) (who : String)

def Turn.exec (t : Task) : Turn → Task
  | .pass p => control_task t p
  | .command settings date now m d who =>
    { t with control := (control_manual t.control settings date now m d who).1 }

def taskAfter (boot : Int) (l : List Turn) : Task := run Turn.exec (task_start boot) l

def Task.reads (t : Task) (p : Pass) : Prop := t.next_read_s ≤ p.top_s

def Task.samples (t : Task) (p : Pass) : Prop := t.reads p ∧ t.next_history_s ≤ p.read_s

instance (t : Task) (p : Pass) : Decidable (t.reads p) := inferInstanceAs (Decidable (_ ≤ _))

instance (t : Task) (p : Pass) : Decidable (t.samples p) := inferInstanceAs (Decidable (_ ∧ _))

structure Taken where
  deadline : Int
  add : HistoryAdd

def Taken.lateness (x : Taken) : Int := x.add.now - x.deadline

def totalLateness : List Taken → Int
  | [] => 0
  | x :: l => x.lateness + totalLateness l

def takenBy (t : Task) : Turn → List Taken
  | .pass p =>
    if t.samples p then
      [⟨t.next_history_s, p.read_s, p.reading.isSome, p.reading.getD 0, (control_task t p).control.s_state.on⟩]
    else []
  | .command .. => []

def takenFrom (t : Task) : List Turn → List Taken
  | [] => []
  | x :: l => takenBy t x ++ takenFrom (x.exec t) l

def inRing (boot : Int) (l : List Turn) : List Taken :=
  let taken := takenFrom (task_start boot) l
  taken.drop (taken.length - 1440)

/-- The clock in a run whose last pass ended at `last`: asking the sensor takes at most a second, and
the wait for the next pass at most two. -/
def ClockedFrom (t : Task) (last : Option Int) : List Turn → Prop
  | [] => True
  | .pass p :: l =>
    (∀ b ∈ last, b ≤ p.top_s ∧ p.top_s ≤ b + 2) ∧ p.top_s ≤ p.read_s ∧ p.read_s ≤ p.top_s + 1 ∧
      (¬ t.reads p → p.read_s = p.top_s) ∧ ClockedFrom (Turn.exec t (.pass p)) (some p.read_s) l
  | x :: l => ClockedFrom (x.exec t) last l

def Clocked (boot : Int) (l : List Turn) : Prop := ClockedFrom (task_start boot) none l

end FloorHeating
