import FloorHeating.Spec.Sections
import Mathlib.Algebra.Group.Int.Defs

/-!
# The task, the commands and the readers, interleaved

`control_task` reads the clock before it takes `s_lock`, `control_manual` after,
and `control_status` when it has given the lock back. Each of these is an
action of its own here. What happens under the lock is one action.
-/

open FloorHeating.Lib

namespace FloorHeating

/-- Where `control_task` is in its loop. `read` is as in `task_locked`. -/
inductive TaskPc where
  | top
  | reading
  | ready (now_s : Int) (read : Option (Option Int))

structure World where
  control : Control
  clock : Int
  task : TaskPc
  next_read_s : Int
  copies : List Control
  /-- The calls that have read the clock, by their index in `copies`. -/
  taken : List (Nat × ControlStatus)

inductive Act where
  | tick (d : Nat)
  | sample
  | sensor (result : Option Int)
  | task (for_sensor settings : Settings) (date : LocalDate)
  | manual (settings : Settings) (date : LocalDate) (manual : CtlManual) (duration_s : UInt32) (who : String)
  | copy
  | stamp (i : Nat)

def World.runs (w : World) : Act → Option Section
  | .task for_sensor settings date =>
    match w.task with
    | .ready now read => some (.task for_sensor settings date now read)
    | _ => none
  | .manual settings date m d who => some (.command settings date w.clock m d who)
  | _ => none

def World.step (w : World) (a : Act) : World :=
  match a with
  | .tick d => { w with clock := w.clock + d }
  | .sample =>
    match w.task with
    | .top =>
      if w.next_read_s ≤ w.clock then
        { w with task := .reading, next_read_s := w.clock + CONTROL_READ_PERIOD_S }
      else { w with task := .ready w.clock none }
    | _ => w
  | .sensor result =>
    match w.task with
    | .reading => { w with task := .ready w.clock (some result) }
    | _ => w
  | .task .. =>
    match w.runs a with
    | some sec => { w with control := sec.exec w.control, task := .top }
    | none => w
  | .manual .. =>
    match w.runs a with
    | some sec => { w with control := sec.exec w.control }
    | none => w
  | .copy => { w with copies := w.copies ++ [w.control] }
  | .stamp i =>
    match w.copies[i]? with
    | some c => { w with taken := w.taken ++ [(i, control_status c w.clock)] }
    | none => w

def World.start (boot : Nat) : World where
  control := control_start boot
  clock := boot
  task := .top
  next_read_s := 0
  copies := []
  taken := []

def worldAfter (boot : Nat) (h : List Act) : World := run World.step (World.start boot) h

/-! ## Counters that survive -/

/-- The subtraction of `count_runtime_locked` does not wrap. -/
def Exact (c : Control) (now : Int) : Prop :=
  c.s_state.on = true → 0 < c.s_last_tick_s →
    ((UInt32.ofInt (now - c.s_last_tick_s)).toNat : Int) = now - c.s_last_tick_s

structure SoundSnapshots (w : World) : Prop where
  boot_le : ∀ e ∈ w.taken, (e.2.runtime_boot_s.toNat : Int) ≤ e.2.now_mono_s
  today_le : ∀ e ∈ w.taken, (e.2.runtime_today_s.toNat : Int) ≤ e.2.now_mono_s
  monotone : ∀ e ∈ w.taken, ∀ e' ∈ w.taken, e.1 ≤ e'.1 → e.2.runtime_boot_s ≤ e'.2.runtime_boot_s

def Room (c : Control) (now : Int) : Prop :=
  c.s_state.on = true → 0 < c.s_last_tick_s → c.s_runtime_boot_s.toNat + (now - c.s_last_tick_s) < 2 ^ 32

/-- No command has taken the lock at a later second than the one that the task brings along. -/
def Act.InOrder (w : World) : Act → Prop
  | .task .. => ∀ now read, w.task = .ready now read → w.control.s_last_tick_s ≤ now ∧ Room w.control now
  | .manual .. => Room w.control w.clock
  | _ => True

end FloorHeating
