/-
This file is about the ring of objects that is used like an array. It knows where its
first object is and how many there are, so no slot is kept free. Objects are read and
changed by their position behind the first one, and one can be taken out of the middle.

Every operation is one of lists on the objects, the first one first.
-/

import Urus.Lib.CountedRing

namespace Urus.RingBuffer

/-- `ObjectArray` with room for `size` objects. -/
structure ObjectArray (T : Type) (size : ℕ) where
  buffer : ℕ → T
  count : ℕ
  head : ℕ
  inside : count ≤ size
  headInside : head < size

namespace ObjectArray

variable {T : Type} {size : ℕ}

/-! ### The code -/

/-- The constructor, with what is in the new buffer. -/
def new (size : ℕ) (positive : 0 < size) (buffer : ℕ → T) : ObjectArray T size :=
  ⟨buffer, 0, 0, Nat.zero_le _, positive⟩

/-- `available`. -/
def available (array : ObjectArray T size) : ℕ := array.count

/-- `space`. -/
def space (array : ObjectArray T size) : ℕ := size - array.count

/-- `empty`. -/
def empty (array : ObjectArray T size) : Bool := array.count = 0

/-- `push`. -/
def push (array : ObjectArray T size) (object : T) : Bool × ObjectArray T size :=
  if full : array.space = 0 then (false, array)
  else
    (true, { array with
      buffer := Function.update array.buffer ((array.head + array.count) % size) object
      count := array.count + 1
      inside := Nat.lt_of_sub_ne_zero full })

/-- `pop`. -/
def pop (array : ObjectArray T size) : Bool × ObjectArray T size :=
  if array.empty then (false, array)
  else
    (true, { array with
      head := (array.head + 1) % size
      count := array.count - 1
      inside := le_trans (Nat.sub_le _ _) array.inside
      headInside := Nat.mod_lt _ (Nat.zero_lt_of_lt array.headInside) })

/-- `push_force`. -/
def pushForce (array : ObjectArray T size) (object : T) : Bool × ObjectArray T size :=
  let array := if array.space = 0 then array.pop.2 else array
  array.push object

/-- `remove`. -/
def remove (array : ObjectArray T size) (n : ℕ) : Bool × ObjectArray T size :=
  let shorter := le_trans (Nat.sub_le _ 1) array.inside
  if n ≥ array.count then (false, array)
  else if n = array.count - 1 then
    (true, { array with count := array.count - 1, inside := shorter })
  else if n = 0 then array.pop
  else
    (true, { array with
      buffer := moveUp size array.head (array.count - 1 - n) n array.buffer
      count := array.count - 1
      inside := shorter })

/-- The operator that reads an object by its position. -/
def get (array : ObjectArray T size) (i : ℕ) : Option T :=
  if i ≥ array.count then none else some (array.buffer ((array.head + i) % size))

/-- An assignment through the pointer that the operator returns. -/
def assign (array : ObjectArray T size) (i : ℕ) (object : T) : ObjectArray T size :=
  if i ≥ array.count then array
  else { array with
    buffer := Function.update array.buffer ((array.head + i) % size) object }

/-! ### The objects -/

/-- The objects, the first one first. -/
def items (array : ObjectArray T size) : List T :=
  countedItems array.buffer size array.head array.count

variable (array : ObjectArray T size)

@[simp] theorem items_length : array.items.length = array.count := countedItems_length

theorem items_length_le : array.items.length ≤ size :=
  le_of_eq_of_le array.items_length array.inside

@[simp] theorem new_items (positive : 0 < size) (buffer : ℕ → T) :
    (new size positive buffer).items = [] := rfl

theorem get_eq (i : ℕ) : array.get i = array.items[i]? := by
  rw [get, items, countedItems_getElem?, countedIndex]
  by_cases outside : i ≥ array.count
  · rw [if_pos outside, if_neg (not_lt.mpr outside)]
  · rw [if_neg outside, if_pos (not_le.mp outside)]

theorem empty_iff : array.empty = true ↔ array.items = [] := by
  rw [← List.length_eq_zero_iff, items_length, empty, decide_eq_true_iff]

/-- An object is added behind the last one, if there is room. -/
theorem push_items (object : T) :
    (array.push object).1 = decide (array.items.length < size) ∧
      (array.push object).2.items =
        if array.items.length < size then array.items ++ [object] else array.items := by
  rw [items_length, push]
  split
  · rename_i full
    rw [space, Nat.sub_eq_zero_iff_le] at full
    rw [if_neg (not_lt.mpr full), decide_eq_false (not_lt.mpr full)]
    exact ⟨rfl, rfl⟩
  · rename_i room
    rw [space, Nat.sub_eq_zero_iff_le, not_le] at room
    rw [if_pos room, decide_eq_true room]
    exact ⟨rfl, countedItems_push room⟩

/-- The first object goes. -/
theorem pop_items : array.pop.2.items = array.items.tail := by
  rw [pop]
  split
  · rename_i empty
    rw [array.empty_iff] at empty
    rw [empty]
    rfl
  · rename_i filled
    rw [empty, decide_eq_true_iff] at filled
    obtain ⟨count, more⟩ := Nat.exists_eq_succ_of_ne_zero filled
    have popped := @countedItems_pop _ array.buffer size array.head count
    simp only [items, more, Nat.succ_eq_add_one, Nat.add_sub_cancel]
    rw [popped, List.tail_cons, countedIndex]

/-- A full ring gives up its first object for another one. -/
theorem pushForce_items (object : T) :
    (array.pushForce object).2.items =
      (if array.items.length = size then array.items.tail else array.items) ++ [object] := by
  have positive := Nat.zero_lt_of_lt array.headInside
  have fits := array.items_length_le
  rw [pushForce]
  by_cases full : array.space = 0
  · have all : array.items.length = size := by
      rw [items_length]
      rw [space] at full
      have := array.inside
      omega
    rw [if_pos full, if_pos all, (push_items _ _).2, pop_items, if_pos]
    rw [List.length_tail]
    omega
  · have room : array.items.length < size := by
      rw [items_length]
      rw [space] at full
      omega
    rw [if_neg full, if_neg (by omega), (push_items _ _).2, if_pos room]

/-- An object is taken out, and the ones behind it move up. -/
theorem remove_items (n : ℕ) : (array.remove n).2.items = array.items.eraseIdx n := by
  have fits := array.inside
  rw [remove]
  split
  · rename_i outside
    rw [List.eraseIdx_of_length_le (by rw [items_length]; exact outside)]
  · rename_i listed
    obtain ⟨count, more⟩ : ∃ count, array.count = count + 1 :=
      Nat.exists_eq_succ_of_ne_zero (by omega)
    split
    · rename_i last
      have shortened : array.items.eraseIdx n = array.items.dropLast := by
        rw [last, ← List.eraseIdx_length_sub_one, items_length]
      rw [shortened]
      simp only [items, more, Nat.add_sub_cancel]
      exact countedItems_dropLast
    · split
      · rename_i first
        rw [first, pop_items, List.eraseIdx_zero]
      · simp only [items, more, Nat.add_sub_cancel]
        exact countedItems_eraseIdx (by omega) (by omega)

theorem assign_items (i : ℕ) (object : T) :
    (array.assign i object).items = array.items.set i object := by
  rw [assign]
  split
  · rename_i outside
    rw [List.set_eq_of_length_le (by rw [items_length]; exact outside)]
  · rename_i listed
    exact countedItems_set (not_le.mp listed) array.inside

end ObjectArray

end Urus.RingBuffer
