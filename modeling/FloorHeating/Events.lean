import FloorHeating.Code.Events
import FloorHeating.Lib.Ring
import FloorHeating.Lib.Runs

/-! # The event ring is the end of the list of all events -/

open FloorHeating.Lib

namespace FloorHeating.Events

def ringAfter (r : EventRing) (l : List Event) : EventRing := run EventRing.events_publish r.events_init l

def toRing (r : EventRing) : Ring 50 (Option Event) where
  slot := fun j => r.s_ring[j]?
  head := r.s_head.toNat
  count := r.s_count.toNat

theorem toRing_publish (r : EventRing) (e : Event) :
    toRing (r.events_publish e) = (toRing r).push (some e) := by
  have hslot : (toRing (r.events_publish e)).slot = ((toRing r).push (some e)).slot := by
    funext j
    simp only [toRing, Ring.push, EventRing.events_publish, Vector.getElem?_set]
    by_cases hj : j = r.s_head.toNat
    · simp [hj]
    · simp [hj, Ne.symm hj]
  have hhead : (r.events_publish e).s_head.toNat = (r.s_head.toNat + 1) % 50 := Ring.toNat_next r.head_lt
  have hcount : (r.events_publish e).s_count.toNat =
      if r.s_count.toNat < 50 then r.s_count.toNat + 1 else r.s_count.toNat := Ring.toNat_counted ..
  simp only [toRing] at hslot ⊢
  rw [hhead, hcount]
  simp only [Ring.push, Ring.mk.injEq] at hslot ⊢
  exact ⟨hslot, trivial, trivial⟩

theorem holds (r : EventRing) (l : List Event) : (toRing (ringAfter r l)).Holds (l.map some) :=
  Ring.holds_foldl toRing some (Ring.holds_nil _) toRing_publish l

/-! ## `events_recent` -/

def recent (r : EventRing) (i : Nat) : Event :=
  r.s_ring.get ⟨(r.recent_index i).toNat, EventRing.index_lt (EventRing.mod_lt _)⟩

theorem recent_from_eq (r : EventRing) (max : UInt32) (left : Nat) (out : List Event) :
    r.recent_from max left out =
      out ++ (List.range' out.length (min left (max.toNat - out.length))).map (recent r) := by
  induction left generalizing out with
  | zero => simp [EventRing.recent_from]
  | succ left ih =>
    unfold EventRing.recent_from
    split
    · have hmin : min (left + 1) (max.toNat - out.length) =
          min left (max.toNat - (out.length + 1)) + 1 := by omega
      rw [ih, hmin, List.range'_succ, List.length_append, List.length_singleton, List.map_cons]
      simp [recent]
    · have hmin : min (left + 1) (max.toNat - out.length) = 0 := by omega
      rw [hmin]
      simp

theorem events_recent_eq (r : EventRing) (max : UInt32) :
    r.events_recent max = (List.range (min r.s_count.toNat max.toNat)).map (recent r) := by
  unfold EventRing.events_recent
  rw [recent_from_eq, List.range_eq_range']
  rfl

/-- Walking back from the head does not leave 32 bits. -/
theorem recent_index_toNat {r : EventRing} {i : Nat} (hi : i < 50) :
    (r.recent_index i).toNat = (r.s_head.toNat + 50 - 1 - i) % 50 := by
  have hlt : r.s_head.toNat < 50 := EventRing.index_lt r.head_lt
  have hsize : EVENTS_RING_SIZE.toNat = 50 := rfl
  have h1 : (1 : UInt32).toNat = 1 := rfl
  have hlast : (r.s_head + EVENTS_RING_SIZE - 1).toNat = r.s_head.toNat + 50 - 1 :=
    Ring.toNat_back (by omega) (by omega)
  have hi' : (UInt32.ofNat i).toNat = i := by
    rw [UInt32.toNat_ofNat']
    omega
  unfold EventRing.recent_index
  rw [UInt32.toNat_mod, hsize, UInt32.toNat_sub_of_le _ _ (UInt32.le_iff_toNat_le.mpr (by omega)), hlast, hi']

theorem some_recent {r : EventRing} {i : Nat} (hi : i < 50) :
    some (recent r i) = (toRing r).slot (((toRing r).head + 50 - 1 - i) % 50) := by
  have hindex : (toRing r).slot (r.recent_index i).toNat = some (recent r i) :=
    Vector.getElem?_eq_getElem (EventRing.index_lt (EventRing.mod_lt _))
  rw [← hindex, recent_index_toNat hi]
  rfl

theorem count_after (r : EventRing) (l : List Event) : (ringAfter r l).s_count.toNat = min l.length 50 := by
  have hcount := (holds r l).count
  rwa [List.length_map] at hcount

theorem newest_events (r : EventRing) (l : List Event) (max : UInt32) :
    (ringAfter r l).events_recent max = l.reverse.take (min 50 max.toNat) := by
  have hcount := count_after r l
  have hle : min (ringAfter r l).s_count.toNat max.toNat ≤ (toRing (ringAfter r l)).count :=
    Nat.min_le_left ..
  have hnewest := Ring.read_newest (holds r l) hle
  rw [← List.map_reverse, ← List.map_take, hcount] at hnewest
  have htake : l.reverse.take (min (min l.length 50) max.toNat) = l.reverse.take (min 50 max.toNat) := by
    rw [List.take_eq_take_iff, List.length_reverse]
    omega
  apply List.map_injective_iff.mpr (Option.some_injective _)
  rw [← htake, ← hnewest, events_recent_eq, List.map_map, hcount]
  apply List.map_congr_left
  intro i hi
  rw [List.mem_range] at hi
  exact some_recent (by omega)

theorem handler_newest (events_unix_time : Int → Int) (r : EventRing) (l : List Event) :
    events_handler events_unix_time (ringAfter r l) =
      .obj [("events", .arr ((l.reverse.take 50).map (event_json events_unix_time)))] := by
  unfold events_handler
  rw [newest_events]
  rfl

/-- All that a reader of the log ever gets: the last events, newest first. -/
theorem ring_keeps_the_newest (r : EventRing) (l : List Event) (max : UInt32) :
    (ringAfter r l).events_recent max = l.reverse.take (min 50 max.toNat) ∧
      ((ringAfter r l).events_recent max).length = min (min l.length 50) max.toNat ∧
      (ringAfter r l).s_head.toNat < 50 ∧ ∀ i, ((ringAfter r l).recent_index i).toNat < 50 := by
  refine ⟨newest_events r l max, ?_, EventRing.index_lt (ringAfter r l).head_lt,
    fun i => EventRing.index_lt (EventRing.mod_lt _)⟩
  rw [events_recent_eq, List.length_map, List.length_range, count_after]

end FloorHeating.Events
