import FloorHeating.Control
import FloorHeating.Lib.Counter
import FloorHeating.Spec.Interleaving
import Mathlib.Data.Int.Order.Basic

/-!
# Counters under every interleaving

A command that takes the lock between the task's look at the clock and its own
turn can be a second ahead of the task. Without that, nothing wraps.
-/

open FloorHeating.Lib FloorHeating.Control

namespace FloorHeating.Interleaving

/-! ## One section -/

structure Counted (c : Control) (now : Int) : Prop where
  boot_le : (c.s_runtime_boot_s.toNat : Int) ≤ now
  today_le : c.s_runtime_today_s ≤ c.s_runtime_boot_s

theorem ticked_exact {c : Control} {now : Int} (hle : c.s_last_tick_s ≤ now) (hr : Room c now) :
    Exact c now ∧ c.s_runtime_boot_s.toNat + ((ticked c now).toNat : Int) < 2 ^ 32 ∧
      (ticked c now).toNat ≤ now - c.s_last_tick_s := by
  have hx : Exact c now := by
    intro hon hlast
    have := hr hon hlast
    exact uint32_ofInt_exact (by omega) (by omega)
  refine ⟨hx, ?_⟩
  have hlt := c.s_runtime_boot_s.toNat_lt
  unfold ticked
  split
  · rename_i h
    have := hr h.1 h.2
    rw [hx h.1 h.2]
    omega
  · rw [UInt32.toNat_zero]
    omega

theorem exec_counted {c : Control} {sec : Section} (hc : Counted c c.s_last_tick_s)
    (hle : c.s_last_tick_s ≤ sec.now_s) (hr : Room c sec.now_s) :
    Counted (sec.exec c) (sec.exec c).s_last_tick_s ∧ (sec.exec c).s_last_tick_s ≤ sec.now_s ∧
      c.s_runtime_boot_s ≤ (sec.exec c).s_runtime_boot_s := by
  cases hs : sec.seen c with
  | none =>
    rw [exec_refused hs]
    exact ⟨hc, hle, UInt32.le_refl _⟩
  | some s =>
    obtain ⟨htick, hboot, htoday⟩ := exec_counters hs
    obtain ⟨-, hsum, hdt⟩ := ticked_exact hle hr
    have hb := hc.boot_le
    have ht := hc.today_le
    have hnat : (sec.exec c).s_runtime_boot_s.toNat =
        c.s_runtime_boot_s.toNat + (ticked c sec.now_s).toNat := by
      rw [hboot, uint32_add_exact (by omega)]
    rw [UInt32.le_iff_toNat_le] at ht
    refine ⟨⟨?_, ?_⟩, htick.le, ?_⟩
    · rw [hnat, htick]
      omega
    · rw [UInt32.le_iff_toNat_le, hnat, htoday]
      split
      · rw [UInt32.zero_add]
        omega
      · rw [uint32_add_exact (by omega)]
        omega
    · rw [UInt32.le_iff_toNat_le, hnat]
      omega

/-! ## Every interleaving -/

structure Sound (w : World) : Prop where
  counted : Counted w.control w.control.s_last_tick_s
  tick_le : w.control.s_last_tick_s ≤ w.clock
  ready_le : ∀ now read, w.task = .ready now read → now ≤ w.clock
  copied : ∀ c ∈ w.copies, Counted c w.clock ∧ c.s_runtime_boot_s ≤ w.control.s_runtime_boot_s
  sorted : w.copies.Pairwise fun c c' => c.s_runtime_boot_s ≤ c'.s_runtime_boot_s
  stamped : ∀ e ∈ w.taken, ∃ c, w.copies[e.1]? = some c ∧ Counted c e.2.now_mono_s ∧
    e.2 = control_status c e.2.now_mono_s

theorem counted_later {c : Control} {now now' : Int} (hc : Counted c now) (hle : now ≤ now') :
    Counted c now' := ⟨hc.boot_le.trans hle, hc.today_le⟩

theorem sound_start (boot : Nat) : Sound (World.start boot) where
  counted := ⟨le_refl _, UInt32.le_refl _⟩
  tick_le := Int.natCast_nonneg boot
  ready_le := by simp [World.start]
  copied := by simp [World.start]
  sorted := List.Pairwise.nil
  stamped := by simp [World.start]

variable {w : World}

theorem sound_exec (hs : Sound w) (sec : Section) (hle : w.control.s_last_tick_s ≤ sec.now_s)
    (hnow : sec.now_s ≤ w.clock) (hr : Room w.control sec.now_s) {task : TaskPc}
    (ht : ∀ now read, task = .ready now read → now ≤ w.clock) :
    Sound { w with control := sec.exec w.control, task := task } := by
  obtain ⟨hc, htick, hmono⟩ := exec_counted hs.counted hle hr
  refine ⟨hc, htick.trans hnow, ht, fun c hm => ?_, hs.sorted, hs.stamped⟩
  obtain ⟨hcount, hboot⟩ := hs.copied c hm
  exact ⟨hcount, UInt32.le_trans hboot hmono⟩

theorem sound_step (hs : Sound w) (a : Act) (ha : a.InOrder w) : Sound (w.step a) := by
  cases a with
  | tick d =>
    have hle : w.clock ≤ w.clock + d := by omega
    refine ⟨hs.counted, hs.tick_le.trans hle, fun now read hn => (hs.ready_le now read hn).trans hle,
      fun c hm => ?_, hs.sorted, hs.stamped⟩
    exact ⟨counted_later (hs.copied c hm).1 hle, (hs.copied c hm).2⟩
  | sample =>
    simp only [World.step]
    split
    · split
      · exact ⟨hs.counted, hs.tick_le, by simp, hs.copied, hs.sorted, hs.stamped⟩
      · refine ⟨hs.counted, hs.tick_le, fun now read hn => ?_, hs.copied, hs.sorted, hs.stamped⟩
        cases hn
        exact le_refl _
    · exact hs
  | sensor result =>
    simp only [World.step]
    split
    · refine ⟨hs.counted, hs.tick_le, fun now read hn => ?_, hs.copied, hs.sorted, hs.stamped⟩
      cases hn
      exact le_refl _
    · exact hs
  | task for_sensor settings date =>
    cases ht : w.task with
    | ready now read =>
      obtain ⟨hle, hr⟩ := ha now read ht
      simp only [World.step, World.runs, ht]
      exact sound_exec hs (.task for_sensor settings date now read) hle (hs.ready_le now read ht) hr (by simp)
    | top => simpa only [World.step, World.runs, ht] using hs
    | reading => simpa only [World.step, World.runs, ht] using hs
  | manual settings date m d who =>
    exact sound_exec hs (.command settings date w.clock m d who) hs.tick_le (le_refl _) ha hs.ready_le
  | copy =>
    refine ⟨hs.counted, hs.tick_le, hs.ready_le, fun c hm => ?_, ?_, fun e hm => ?_⟩
    · rcases List.mem_append.mp hm with hm | hm
      · exact hs.copied c hm
      · obtain rfl := List.mem_singleton.mp hm
        exact ⟨counted_later hs.counted hs.tick_le, UInt32.le_refl _⟩
    · refine List.pairwise_append.mpr ⟨hs.sorted, List.pairwise_singleton _ _, fun c hm c' hm' => ?_⟩
      obtain rfl := List.mem_singleton.mp hm'
      exact (hs.copied c hm).2
    · obtain ⟨c, hc, hrest⟩ := hs.stamped e hm
      refine ⟨c, ?_, hrest⟩
      exact List.getElem?_append_left (List.getElem?_eq_some_iff.mp hc).1 ▸ hc
  | stamp i =>
    simp only [World.step]
    split
    · rename_i c hc
      refine ⟨hs.counted, hs.tick_le, hs.ready_le, hs.copied, hs.sorted, fun e hm => ?_⟩
      rcases List.mem_append.mp hm with hm | hm
      · exact hs.stamped e hm
      · obtain rfl := List.mem_singleton.mp hm
        exact ⟨c, hc, (hs.copied c (List.mem_of_getElem? hc)).1, rfl⟩
    · exact hs

theorem sound_snapshots (hs : Sound w) : SoundSnapshots w := by
  refine ⟨fun e hm => ?_, fun e hm => ?_, fun e hm e' hm' hle => ?_⟩
  · obtain ⟨c, -, hc, he⟩ := hs.stamped e hm
    rw [he]
    exact hc.boot_le
  · obtain ⟨c, -, hc, he⟩ := hs.stamped e hm
    have ht := UInt32.le_iff_toNat_le.mp hc.today_le
    have hb := hc.boot_le
    rw [he]
    simp only [control_status]
    omega
  · obtain ⟨c, hc, -, he⟩ := hs.stamped e hm
    obtain ⟨c', hc', -, he'⟩ := hs.stamped e' hm'
    rw [he, he']
    simp only [control_status]
    rcases Nat.lt_or_eq_of_le hle with hlt | heq
    · obtain ⟨hi, rfl⟩ := List.getElem?_eq_some_iff.mp hc
      obtain ⟨hi', rfl⟩ := List.getElem?_eq_some_iff.mp hc'
      exact List.pairwise_iff_getElem.mp hs.sorted e.1 e'.1 hi hi' hlt
    · rw [heq, hc'] at hc
      cases hc
      exact UInt32.le_refl _

theorem runs_exact (hs : Sound w) (a : Act) (ha : a.InOrder w) (sec : Section) (hr : w.runs a = some sec) :
    Exact w.control sec.now_s := by
  cases a with
  | task for_sensor settings date =>
    cases ht : w.task with
    | ready now read =>
      simp only [World.runs, ht, Option.some.injEq] at hr
      obtain ⟨hle, hroom⟩ := ha now read ht
      subst hr
      exact (ticked_exact hle hroom).1
    | top => simp [World.runs, ht] at hr
    | reading => simp [World.runs, ht] at hr
  | manual settings date m d who =>
    obtain rfl := Option.some.inj hr
    exact (ticked_exact hs.tick_le ha).1
  | _ => cases hr

theorem step_control (w : World) (a : Act) :
    (w.step a).control = (w.runs a).elim w.control fun sec => sec.exec w.control := by
  cases a with
  | task for_sensor settings date =>
    simp only [World.step]
    split
    · rename_i hr
      rw [hr, Option.elim_some]
    · rename_i hr
      rw [hr, Option.elim_none]
  | sample =>
    simp only [World.step]
    split
    · split <;> rfl
    · rfl
  | sensor result => simp only [World.step]; split <;> rfl
  | stamp i => simp only [World.step]; split <;> rfl
  | _ => rfl

/-- The lock serialises: whatever the interleaving, the statics are those of a run of sections. -/
theorem interleaving_serial (boot : Nat) (h : List Act) :
    ∃ secs, (worldAfter boot h).control = controlAfter boot secs := by
  induction h using List.reverseRecOn with
  | nil => exact ⟨[], rfl⟩
  | append_singleton h a ih =>
    obtain ⟨secs, he⟩ := ih
    rw [worldAfter, run_snoc, ← worldAfter, step_control]
    cases (worldAfter boot h).runs a with
    | none => exact ⟨secs, he⟩
    | some sec =>
      refine ⟨secs ++ [sec], ?_⟩
      rw [controlAfter, run_snoc, ← controlAfter, ← he, Option.elim_some]

/-- In every interleaving where no command overtakes the task by a second, no subtraction wraps and
the snapshots are sound. -/
theorem counters_survive (boot : Nat) (h : List Act)
    (ho : Along (fun pre a => a.InOrder (worldAfter boot pre)) h) :
    SoundSnapshots (worldAfter boot h) ∧
      ∀ pre a sec, pre ++ [a] <+: h → (worldAfter boot pre).runs a = some sec →
        Exact (worldAfter boot pre).control sec.now_s := by
  have hsound : ∀ k, Along (fun pre a => a.InOrder (worldAfter boot pre)) k → Sound (worldAfter boot k) :=
    run_invariant (sound_start boot) fun k a hs ha => sound_step hs a ha
  refine ⟨sound_snapshots (hsound h ho), fun pre a sec hp hr => ?_⟩
  exact runs_exact (hsound pre (along_initial ho ((List.prefix_append _ _).trans hp))) a (ho pre a hp) sec hr

/-- A reader copies the statics of a pump that a command has started, and another one those of a minute later. -/
def byHand : List Act :=
  [.tick 6] ++ [.manual default_settings ⟨false, 0⟩ .Start 3600 "admin"] ++
    [.copy, .tick 60, .sample, .sensor (some 200)] ++ [.task default_settings default_settings ⟨false, 0⟩] ++
    [.copy, .tick 3, .stamp 1, .stamp 0]

theorem undisturbed_task_counts :
    SoundSnapshots (worldAfter 0 byHand) ∧
      (worldAfter 0 byHand).taken.map (fun e => (e.1, e.2.now_mono_s, e.2.runtime_boot_s, e.2.state.on)) =
        [(1, 69, 60, true), (0, 69, 0, true)] := by
  refine ⟨(counters_survive 0 byHand ?_).1, by decide⟩
  refine (along_append _ _ _).mpr ⟨(along_snoc _ _ _).mpr ⟨(along_append _ _ _).mpr ⟨(along_snoc _ _ _).mpr
    ⟨along_of_forall ?_, ?_⟩, along_of_forall ?_⟩, ?_⟩, along_of_forall ?_⟩
  · simp [Act.InOrder]
  · exact fun hon => absurd hon (by decide)
  · simp [Act.InOrder]
  · intro now read ht
    have hready : (worldAfter 0 ([.tick 6] ++ [.manual default_settings ⟨false, 0⟩ .Start 3600 "admin"] ++
        [.copy, .tick 60, .sample, .sensor (some 200)])).task = .ready 66 (some (some 200)) := rfl
    rw [hready] at ht
    cases ht
    exact ⟨by decide, fun _ _ => by decide⟩
  · simp [Act.InOrder]

/-- The task reads the clock, a second begins, a manual start takes the lock, then the task does. -/
def overtaken : List Act :=
  [.tick 6, .sample, .sensor (some 200), .tick 1,
    .manual default_settings ⟨false, 0⟩ .Start 3600 "admin",
    .task default_settings default_settings ⟨false, 0⟩, .copy, .stamp 0]

theorem overtaken_task_wraps :
    (worldAfter 0 overtaken).taken.map (fun e => (e.2.now_mono_s, e.2.runtime_boot_s)) =
      [(7, 4294967295)] ∧ ¬ SoundSnapshots (worldAfter 0 overtaken) := by
  have htaken : (worldAfter 0 overtaken).taken.map (fun e => (e.2.now_mono_s, e.2.runtime_boot_s)) =
      [(7, 4294967295)] := by decide
  refine ⟨htaken, fun hs => ?_⟩
  have hmem : ((7 : Int), (4294967295 : UInt32)) ∈
      (worldAfter 0 overtaken).taken.map (fun e => (e.2.now_mono_s, e.2.runtime_boot_s)) := by simp [htaken]
  obtain ⟨e, he, hx⟩ := List.mem_map.mp hmem
  have hle := hs.boot_le e he
  obtain ⟨hnow, hboot⟩ := Prod.mk.inj hx
  rw [hnow, hboot] at hle
  exact absurd hle (by decide)

end FloorHeating.Interleaving
