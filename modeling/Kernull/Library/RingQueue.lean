import Mathlib.Logic.Function.Basic
import Mathlib.Data.List.Range

/-!
# Ring buffers counted from their insertion index

A ring of `capacity` slots keeps the index of the next insertion and the
number of pending entries; the pending entries are the slots that end just
before that index.  Insertion appends to the list of pending entries and
discarding drops its head, so the ring is a bounded first-in first-out queue.
-/

namespace Kernull.Library.RingQueue

variable {Entry : Type}

/-- The slots, the index of the next insertion and the number pending. -/
structure Ring (Entry : Type) where
  slots : Nat → Entry
  next : Nat
  pending : Nat

/-- The counters of a ring of the given capacity. -/
structure WellFormed (capacity : Nat) (ring : Ring Entry) : Prop where
  next_lt : ring.next < capacity
  pending_le : ring.pending ≤ capacity

namespace Ring

/-- The slot of the pending entry at a position, the oldest at zero. -/
def slot (capacity : Nat) (ring : Ring Entry) (position : Nat) : Nat :=
  (ring.next + capacity - ring.pending + position) % capacity

/-- The pending entries, oldest first. -/
def contents (capacity : Nat) (ring : Ring Entry) : List Entry :=
  (List.range ring.pending).map fun position =>
    ring.slots (ring.slot capacity position)

/-- Write the next slot and count it. -/
def push (capacity : Nat) (ring : Ring Entry) (entry : Entry) :
    Ring Entry where
  slots := Function.update ring.slots ring.next entry
  next := (ring.next + 1) % capacity
  pending := ring.pending + 1

/-- Drop the oldest entry. -/
def discard (ring : Ring Entry) : Ring Entry :=
  { ring with pending := ring.pending - 1 }

@[simp]
theorem length_contents (capacity : Nat) (ring : Ring Entry) :
    (ring.contents capacity).length = ring.pending := by
  simp [contents]

end Ring

namespace WellFormed

variable {capacity : Nat} {ring : Ring Entry}

theorem push (wellFormed : WellFormed capacity ring)
    (room : ring.pending < capacity) (entry : Entry) :
    WellFormed capacity (ring.push capacity entry) where
  next_lt :=
    Nat.mod_lt _ (Nat.lt_of_le_of_lt (Nat.zero_le _) wellFormed.next_lt)
  pending_le := room

theorem discard (wellFormed : WellFormed capacity ring) :
    WellFormed capacity ring.discard where
  next_lt := wellFormed.next_lt
  pending_le := Nat.le_trans (Nat.sub_le _ _) wellFormed.pending_le

/-- The slot that an insertion writes holds no pending entry. -/
theorem slot_ne_next (wellFormed : WellFormed capacity ring)
    (room : ring.pending < capacity) {position : Nat}
    (isPending : position < ring.pending) :
    ring.slot capacity position ≠ ring.next := by
  have bound := wellFormed.next_lt
  rw [Ring.slot]
  rcases Nat.lt_or_ge
      (ring.next + capacity - ring.pending + position) capacity with
    below | wraps
  · rw [Nat.mod_eq_of_lt below]
    omega
  · rw [Nat.mod_eq_sub_mod wraps, Nat.mod_eq_of_lt (by omega)]
    omega

/-- Insertion moves no pending entry. -/
theorem slot_push (wellFormed : WellFormed capacity ring)
    (room : ring.pending < capacity) (entry : Entry) (position : Nat) :
    (ring.push capacity entry).slot capacity position =
      ring.slot capacity position := by
  have bound := wellFormed.next_lt
  simp only [Ring.slot, Ring.push]
  rcases Nat.lt_or_ge (ring.next + 1) capacity with below | wraps
  · rw [Nat.mod_eq_of_lt below]
    congr 1
    omega
  · have last : ring.next + 1 = capacity := by omega
    rw [last, Nat.mod_self]
    have turn : ring.next + capacity - ring.pending + position =
        (0 + capacity - (ring.pending + 1) + position) + capacity := by
      omega
    rw [turn, Nat.add_mod_right]

/-- The new entry is the youngest one. -/
theorem slot_push_pending (wellFormed : WellFormed capacity ring)
    (room : ring.pending < capacity) (entry : Entry) :
    (ring.push capacity entry).slot capacity ring.pending = ring.next := by
  have bound := wellFormed.next_lt
  rw [wellFormed.slot_push room]
  have turn : ring.next + capacity - ring.pending + ring.pending =
      ring.next + capacity := by
    omega
  rw [Ring.slot, turn, Nat.add_mod_right, Nat.mod_eq_of_lt bound]

/-- Insertion appends. -/
theorem contents_push (wellFormed : WellFormed capacity ring)
    (room : ring.pending < capacity) (entry : Entry) :
    (ring.push capacity entry).contents capacity =
      ring.contents capacity ++ [entry] := by
  have old : (List.range ring.pending).map (fun position =>
      (ring.push capacity entry).slots
        ((ring.push capacity entry).slot capacity position)) =
      ring.contents capacity := by
    refine List.map_congr_left fun position member => ?_
    rw [wellFormed.slot_push room]
    exact Function.update_of_ne
      (wellFormed.slot_ne_next room (List.mem_range.mp member)) _ _
  have new : (ring.push capacity entry).slots
      ((ring.push capacity entry).slot capacity ring.pending) = entry := by
    rw [wellFormed.slot_push_pending room]
    exact Function.update_self _ _ _
  have split : (ring.push capacity entry).contents capacity =
      (List.range (ring.pending + 1)).map (fun position =>
        (ring.push capacity entry).slots
          ((ring.push capacity entry).slot capacity position)) := rfl
  rw [split, List.range_succ, List.map_append, old, List.map_singleton, new]

/-- Discarding drops the oldest entry. -/
theorem contents_discard (wellFormed : WellFormed capacity ring)
    (nonempty : 0 < ring.pending) :
    ring.discard.contents capacity = (ring.contents capacity).tail := by
  have bound := wellFormed.pending_le
  obtain ⟨rest, counted⟩ := Nat.exists_eq_succ_of_ne_zero
    (Nat.pos_iff_ne_zero.mp nonempty)
  simp only [Ring.contents, Ring.discard, Ring.slot, counted,
    Nat.succ_eq_add_one, Nat.add_sub_cancel, List.range_succ_eq_map,
    List.map_cons, List.tail_cons, List.map_map]
  refine List.map_congr_left fun position _ => ?_
  have shift : ring.next + capacity - rest + position =
      ring.next + capacity - (rest + 1) + Nat.succ position := by
    omega
  rw [shift]
  rfl

end WellFormed

/-- The oldest entry. -/
theorem head?_contents {capacity : Nat} {ring : Ring Entry}
    (nonempty : 0 < ring.pending) :
    (ring.contents capacity).head? =
      some (ring.slots
        ((ring.next + capacity - ring.pending) % capacity)) := by
  obtain ⟨rest, counted⟩ := Nat.exists_eq_succ_of_ne_zero
    (Nat.pos_iff_ne_zero.mp nonempty)
  simp [Ring.contents, Ring.slot, counted, List.range_succ_eq_map]

end Kernull.Library.RingQueue
