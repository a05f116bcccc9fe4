/-
This file develops ring buffers with a read and a write position. The slot at the write
position is always free, so that a ring of a given size holds one item less, and the
two positions are equal exactly when the ring is empty.

The read position may also stand at the size itself, one behind the last slot: a reader
that increments first and wraps afterwards passes through that value. The items are the
same on both sides of the wrap.
-/

import Mathlib.Tactic

namespace Urus

section Ring

variable {Item : Type}

/-- The number of items between the two positions. -/
def ringCount (size read write : Nat) : Nat :=
  if read ≤ write then write - read else write + size - read

/-- The slot of the item with the given index. -/
def ringIndex (size read index : Nat) : Nat :=
  if read + index < size then read + index else read + index - size

/-- The position behind a given one. -/
def ringNext (size position : Nat) : Nat := if position + 1 < size then position + 1 else 0

/-- The items of a ring, the oldest first. -/
def ringItems (slots : Nat → Item) (size read write : Nat) : List Item :=
  (List.range (ringCount size read write)).map fun index => slots (ringIndex size read index)

theorem ringNext_lt {size position : Nat} (inside : position < size) :
    ringNext size position < size := by
  unfold ringNext
  split
  · assumption
  · omega

theorem ringItems_empty (slots : Nat → Item) (size position : Nat) :
    ringItems slots size position position = [] := by
  rw [ringItems, ringCount, if_pos (le_refl _), Nat.sub_self]
  rfl

/-- The wrap of the read position changes nothing. -/
theorem ringItems_wrap (slots : Nat → Item) (size write : Nat) (inside : write < size) :
    ringItems slots size size write = ringItems slots size 0 write := by
  have count : ringCount size size write = ringCount size 0 write := by
    rw [ringCount, ringCount, if_neg (by omega), if_pos (Nat.zero_le _)]
    omega
  rw [ringItems, ringItems, count]
  refine List.map_congr_left fun index member => ?_
  have bound := List.mem_range.mp member
  rw [ringCount, if_pos (Nat.zero_le _)] at bound
  congr 1
  rw [ringIndex, ringIndex, if_neg (by omega), if_pos (by omega)]
  omega

theorem ringItems_update (slots : Nat → Item) (size read write : Nat) (item : Item)
    (readInside : read ≤ size) :
    ringItems (Function.update slots write item) size read write =
      ringItems slots size read write := by
  refine List.map_congr_left fun index member => ?_
  have bound := List.mem_range.mp member
  refine Function.update_of_ne ?_ _ _
  unfold ringCount at bound
  unfold ringIndex
  split <;> split at bound <;> omega

theorem ringItems_push (slots : Nat → Item) (size read write : Nat) (readInside : read ≤ size)
    (writeInside : write < size) (notFull : ringNext size write ≠ read)
    (notFullWrapped : ¬ (read = size ∧ ringNext size write = 0)) :
    ringItems slots size read (ringNext size write) =
      ringItems slots size read write ++ [slots write] := by
  have count : ringCount size read (ringNext size write) = ringCount size read write + 1 := by
    unfold ringCount
    unfold ringNext at *
    split_ifs at * <;> omega
  have last : ringIndex size read (ringCount size read write) = write := by
    unfold ringIndex ringCount
    split <;> split <;> omega
  rw [ringItems, count, List.range_succ, List.map_append, List.map_singleton, last]
  rfl

theorem ringItems_pop (slots : Nat → Item) (size read write : Nat) (readInside : read < size)
    (writeInside : write < size) (notEmpty : read ≠ write) :
    ringItems slots size read write = slots read :: ringItems slots size (read + 1) write := by
  have count : ringCount size read write = ringCount size (read + 1) write + 1 := by
    unfold ringCount
    split <;> split <;> omega
  have first : ringIndex size read 0 = read := by
    rw [ringIndex, if_pos (by omega), Nat.add_zero]
  rw [ringItems, count, List.range_succ_eq_map, List.map_cons, first, List.map_map]
  refine congrArg _ (List.map_congr_left fun index _ => ?_)
  show slots (ringIndex size read (index + 1)) = slots (ringIndex size (read + 1) index)
  congr 1
  unfold ringIndex
  split <;> split <;> omega

/-! ### Several items at once -/

@[simp] theorem ringItems_length (slots : Nat → Item) (size read write : Nat) :
    (ringItems slots size read write).length = ringCount size read write := by
  rw [ringItems, List.length_map, List.length_range]

theorem ringItems_getElem (slots : Nat → Item) (size read write index : Nat)
    (inside : index < (ringItems slots size read write).length) :
    (ringItems slots size read write)[index] = slots (ringIndex size read index) := by
  simp only [ringItems, List.getElem_map, List.getElem_range]

theorem ringCount_lt {size read write : Nat} (readInside : read < size)
    (writeInside : write < size) : ringCount size read write < size := by
  unfold ringCount
  split <;> omega

theorem ringIndex_lt {size read index : Nat} (readInside : read < size) (bound : index ≤ size) :
    ringIndex size read index < size := by
  unfold ringIndex
  split <;> omega

/-- The wrap of a position is a remainder. -/
theorem ringIndex_eq_mod {size read index : Nat} (readInside : read < size)
    (bound : index ≤ size) : (read + index) % size = ringIndex size read index := by
  unfold ringIndex
  split
  · exact Nat.mod_eq_of_lt (by assumption)
  · rw [Nat.mod_eq_sub_mod (by omega), Nat.mod_eq_of_lt (by omega)]

theorem ringNext_eq_index {size position : Nat} (inside : position < size) :
    ringNext size position = ringIndex size position 1 := by
  unfold ringNext ringIndex
  split <;> omega

variable {size read write count : Nat}

/-- The write position moves on by as many items as there are more. -/
theorem ringCount_extend (readInside : read < size) (writeInside : write < size)
    (fits : ringCount size read write + count < size) :
    ringCount size read (ringIndex size write count) = ringCount size read write + count := by
  unfold ringCount ringIndex at *
  split_ifs at * <;> omega

theorem ringIndex_behind {size read write index : Nat} (readInside : read < size)
    (writeInside : write < size) (behind : ringCount size read write ≤ index)
    (inside : index < size) :
    ringIndex size write (index - ringCount size read write) = ringIndex size read index := by
  unfold ringCount at *
  rw [ringIndex, ringIndex]
  split_ifs at * <;> omega

/-- The read position moves on past the oldest items. -/
theorem ringCount_drop (readInside : read < size) (writeInside : write < size)
    (present : count ≤ ringCount size read write) :
    ringCount size (ringIndex size read count) write = ringCount size read write - count := by
  rw [ringIndex]
  unfold ringCount at *
  split_ifs at * <;> omega

theorem ringIndex_add {size read first second : Nat} (readInside : read < size)
    (inside : first + second < size) :
    ringIndex size (ringIndex size read first) second = ringIndex size read (first + second) := by
  rw [ringIndex, ringIndex, ringIndex]
  split_ifs <;> omega

/-- Items that are stored behind the write position are in the ring when it moves on. -/
theorem ringItems_extend {slots slots' : Nat → Item} {size read write : Nat} {data : List Item}
    (readInside : read < size) (writeInside : write < size)
    (fits : ringCount size read write + data.length < size)
    (kept : ∀ index, index < ringCount size read write →
      slots' (ringIndex size read index) = slots (ringIndex size read index))
    (stored : ∀ index (inside : index < data.length),
      slots' (ringIndex size write index) = data[index]) :
    ringItems slots' size read (ringIndex size write data.length) =
      ringItems slots size read write ++ data := by
  have count := ringCount_extend readInside writeInside fits
  refine List.ext_getElem (by rw [List.length_append, ringItems_length, ringItems_length, count])
    fun index inside inside' => ?_
  rw [ringItems_getElem]
  rw [ringItems_length, count] at inside
  by_cases old : index < ringCount size read write
  · rw [List.getElem_append_left (by rwa [ringItems_length]), ringItems_getElem, kept index old]
  · rw [List.getElem_append_right (by rw [ringItems_length]; omega)]
    simp only [ringItems_length]
    rw [← stored (index - ringCount size read write) (by omega),
      ringIndex_behind readInside writeInside (not_lt.mp old) (inside.trans fits)]

theorem ringItems_drop {slots : Nat → Item} (readInside : read < size) (writeInside : write < size)
    (present : count ≤ ringCount size read write) :
    ringItems slots size (ringIndex size read count) write =
      (ringItems slots size read write).drop count := by
  have left := ringCount_drop readInside writeInside present
  have most := ringCount_lt readInside writeInside
  refine List.ext_getElem (by rw [List.length_drop, ringItems_length, ringItems_length, left])
    fun index inside inside' => ?_
  rw [ringItems_length, left] at inside
  rw [List.getElem_drop, ringItems_getElem, ringItems_getElem,
    ringIndex_add readInside (by omega)]

end Ring

end Urus
