import FloorHeating.Code.Control
import FloorHeating.Lib.Counter

/-!
# What the counters count

Any sequence of `decide_locked` calls. Before each, something that is not this
function may change the state, as `ctl_sensor` and `ctl_manual` do; it leaves
the pump where it is, and its result says nothing of a change.
-/

open FloorHeating.Lib

namespace FloorHeating

structure DecideCall where
  settings : Settings
  date : LocalDate
  now_s : Int
  r : CtlResult
  detail : Option String
  before : CtlState → CtlState
  keeps_pump : ∀ s, (before s).on = s.on
  fresh : r.changed = false

def DecideCall.exec (c : Control) (a : DecideCall) : Control :=
  decide_locked { c with s_state := a.before c.s_state } a.settings a.date a.now_s a.r a.detail

def callsAfter (boot : Int) (calls : Nat → DecideCall) : Nat → Control
  | 0 => control_start boot
  | n + 1 => (calls n).exec (callsAfter boot calls n)

section Count

variable (boot : Int) (calls : Nat → DecideCall)

/-- The seconds from the call before, if the pump ran. The guard `0 <` is the code's. -/
def onTime : Nat → Int
  | 0 => 0
  | i + 1 =>
    if 0 < (calls i).now_s ∧ (callsAfter boot calls (i + 1)).s_state.on = true then
      (calls (i + 1)).now_s - (calls i).now_s
    else 0

def SwitchesOn (i : Nat) : Prop :=
  (callsAfter boot calls i).s_state.on = false ∧ (callsAfter boot calls (i + 1)).s_state.on = true

instance : DecidablePred (SwitchesOn boot calls) := fun _ => inferInstanceAs (Decidable (_ ∧ _))

def switches (i : Nat) : Int := if SwitchesOn boot calls i then 1 else 0

def DayChange (k : Nat) : Prop :=
  (calls k).date.synced = true ∧
    ∃ j < k, (calls j).date.synced = true ∧ (∀ i, j < i → i < k → (calls i).date.synced = false) ∧
      (calls j).date.tm_yday ≠ (calls k).date.tm_yday

end Count

open Classical in
/-- The runtimes after the calls `0` to `n` are the sums that they stand for. A sum since the last
`DayChange` starts with the first call if there is none. -/
structure ExactRuntime (boot : Int) (calls : Nat → DecideCall) (n : Nat) : Prop where
  since_boot : ((callsAfter boot calls (n + 1)).s_runtime_boot_s.toNat : Int) =
    ∑ k ∈ Finset.range (n + 1), onTime boot calls k
  today : ((callsAfter boot calls (n + 1)).s_runtime_today_s.toNat : Int) =
    sinceLast (DayChange calls) (onTime boot calls) n
  today_le : (callsAfter boot calls (n + 1)).s_runtime_today_s ≤ (callsAfter boot calls (n + 1)).s_runtime_boot_s
  unsynced : (calls n).date.synced = false →
    (callsAfter boot calls n).s_runtime_today_s ≤ (callsAfter boot calls (n + 1)).s_runtime_today_s

open Classical in
structure ExactStarts (boot : Int) (calls : Nat → DecideCall) (n : Nat) : Prop where
  since_boot : ((callsAfter boot calls (n + 1)).s_starts_boot.toNat : Int) =
    ∑ k ∈ Finset.range (n + 1), switches boot calls k
  today : ((callsAfter boot calls (n + 1)).s_starts_today.toNat : Int) =
    sinceLast (DayChange calls) (switches boot calls) n
  today_le : (callsAfter boot calls (n + 1)).s_starts_today ≤ (callsAfter boot calls (n + 1)).s_starts_boot
  unsynced : (calls n).date.synced = false →
    (callsAfter boot calls n).s_starts_today ≤ (callsAfter boot calls (n + 1)).s_starts_today

end FloorHeating
