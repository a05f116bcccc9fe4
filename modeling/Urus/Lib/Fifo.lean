/-
This file develops bounded queues. A queue holds items, the oldest first, and never more than
its capacity, which is part of its type. It takes items in behind and gives them out in front,
and what does not fit is refused, cut off, or makes the oldest items go, as the operation says.
-/

import Mathlib.Tactic

namespace Urus

/-- A queue of at most `capacity` items, the oldest first. -/
@[ext] structure Fifo (Item : Type) (capacity : ℕ) where
  items : List Item
  bounded : items.length ≤ capacity

namespace Fifo

variable {Item : Type} {capacity : ℕ}

/-- The queue without items. -/
def empty : Fifo Item capacity := ⟨[], Nat.zero_le _⟩

/-- The number of items that still fit. -/
def free (queue : Fifo Item capacity) : ℕ := capacity - queue.items.length

/-- Takes in the first items, as many as fit. -/
def accept (queue : Fifo Item capacity) (data : List Item) : Fifo Item capacity where
  items := queue.items ++ data.take queue.free
  bounded := by
    have bounded := queue.bounded
    rw [List.length_append, List.length_take, free]
    omega

/-- Takes in all items or none. -/
def push (queue : Fifo Item capacity) (data : List Item) : Fifo Item capacity :=
  if data.length ≤ queue.free then queue.accept data else queue

/-- Gives out the oldest items. -/
def drop (queue : Fifo Item capacity) (count : ℕ) : Fifo Item capacity where
  items := queue.items.drop count
  bounded := by
    have bounded := queue.bounded
    rw [List.length_drop]
    omega

/-- Gives out this many of the oldest items, or none when there are less. -/
def discard (queue : Fifo Item capacity) (count : ℕ) : Fifo Item capacity :=
  if count ≤ queue.items.length then queue.drop count else queue

/-- Replaces the oldest items, or none when there are less. -/
def overwrite (queue : Fifo Item capacity) (data : List Item) : Fifo Item capacity :=
  if enough : data.length ≤ queue.items.length then
    { items := data ++ queue.items.drop data.length
      bounded := by
        have bounded := queue.bounded
        rw [List.length_append, List.length_drop]
        omega }
  else queue

/-- Takes in all items, for which the oldest ones go as far as needed, or none when there are more
than the queue can hold. -/
def force (queue : Fifo Item capacity) (data : List Item) : Fifo Item capacity :=
  if data.length ≤ capacity then (queue.drop (data.length - queue.free)).accept data else queue

theorem accept_items_take (queue : Fifo Item capacity) (data : List Item) :
    (queue.accept data).items = queue.items ++ data.take queue.free := rfl

variable {data : List Item} {queue : Fifo Item capacity}

theorem accept_items (fits : data.length ≤ queue.free) :
    (queue.accept data).items = queue.items ++ data := by
  rw [accept_items_take, List.take_of_length_le fits]

theorem push_items (fits : data.length ≤ queue.free) :
    (queue.push data).items = queue.items ++ data := by
  rw [push, if_pos fits, accept_items fits]

theorem push_of_many (many : queue.free < data.length) : queue.push data = queue :=
  if_neg (not_le_of_gt many)

theorem discard_items {count : ℕ} (present : count ≤ queue.items.length) :
    (queue.discard count).items = queue.items.drop count := by
  rw [discard, if_pos present]
  rfl

theorem discard_of_few {count : ℕ} (few : queue.items.length < count) :
    queue.discard count = queue :=
  if_neg (not_le_of_gt few)

theorem overwrite_items (present : data.length ≤ queue.items.length) :
    (queue.overwrite data).items = data ++ queue.items.drop data.length := by
  rw [overwrite, dif_pos present]

theorem overwrite_of_few (few : queue.items.length < data.length) : queue.overwrite data = queue :=
  dif_neg (not_le_of_gt few)

theorem force_items (fits : data.length ≤ capacity) :
    (queue.force data).items = queue.items.drop (data.length - queue.free) ++ data := by
  rw [force, if_pos fits]
  refine accept_items ?_
  have bounded := queue.bounded
  rw [free, drop, List.length_drop, free]
  omega

theorem force_of_many (many : capacity < data.length) : queue.force data = queue :=
  if_neg (not_le_of_gt many)

/-- With room for all items none of the oldest ones goes. -/
theorem force_of_room (room : data.length ≤ queue.free) : queue.force data = queue.push data := by
  have fits : data.length ≤ capacity := le_trans room (Nat.sub_le _ _)
  refine Fifo.ext ?_
  rw [force_items fits, push_items room, Nat.sub_eq_zero_of_le room, List.drop_zero]

end Fifo

end Urus
