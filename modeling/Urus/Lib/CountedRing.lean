/-
This file develops rings that know where their oldest item is and how many items they
have. No slot is kept free, so a ring of a given size holds that many items.

The items are read off as a list, the oldest first, and what is done to the slots is
done to the list: an item is added behind the last one, the oldest item goes, one item
is exchanged, or one goes out of the middle and the ones behind it move up.
-/

import Mathlib.Tactic

namespace Urus

section CountedRing

variable {Item : Type}

/-- The slot of the item with the given index. -/
def countedIndex (size head index : ℕ) : ℕ := (head + index) % size

/-- The items of a ring, the oldest first. -/
def countedItems (slots : ℕ → Item) (size head count : ℕ) : List Item :=
  (List.range count).map fun index => slots (countedIndex size head index)

/-- The items from one index on, each moved to the slot in front of its own. -/
def moveUp (size head : ℕ) : (left index : ℕ) → (slots : ℕ → Item) → ℕ → Item
  | 0, _, slots => slots
  | left + 1, index, slots =>
    moveUp size head left (index + 1)
      (Function.update slots (countedIndex size head index)
        (slots (countedIndex size head (index + 1))))

variable {slots : ℕ → Item} {size head count index : ℕ}

theorem countedIndex_lt (positive : 0 < size) : countedIndex size head index < size :=
  Nat.mod_lt _ positive

/-- Different items have different slots. -/
theorem countedIndex_inj {other : ℕ} (inside : index < size) (otherInside : other < size) :
    countedIndex size head index = countedIndex size head other ↔ index = other := by
  refine ⟨fun same => ?_, fun same => by rw [same]⟩
  have congruent : index ≡ other [MOD size] := Nat.ModEq.add_left_cancel' head same
  rwa [Nat.ModEq, Nat.mod_eq_of_lt inside, Nat.mod_eq_of_lt otherInside] at congruent

@[simp] theorem countedItems_length : (countedItems slots size head count).length = count := by
  rw [countedItems, List.length_map, List.length_range]

theorem countedItems_getElem (inside : index < (countedItems slots size head count).length) :
    (countedItems slots size head count)[index] = slots (countedIndex size head index) := by
  simp only [countedItems, List.getElem_map, List.getElem_range]

theorem countedItems_getElem? :
    (countedItems slots size head count)[index]? =
      if index < count then some (slots (countedIndex size head index)) else none := by
  split
  · rename_i inside
    rw [List.getElem?_eq_getElem (by rwa [countedItems_length]), countedItems_getElem]
  · rename_i outside
    exact List.getElem?_eq_none (by rw [countedItems_length]; omega)

@[simp] theorem countedItems_zero : countedItems slots size head 0 = [] := rfl

theorem countedItems_update_outside (slots : ℕ → Item) (head : ℕ) (item : Item) (outside : count ≤ index) (inside : index < size) :
    countedItems (Function.update slots (countedIndex size head index) item) size head count =
      countedItems slots size head count := by
  refine List.map_congr_left fun other member => Function.update_of_ne ?_ _ _
  have bound := List.mem_range.mp member
  exact mt (countedIndex_inj (by omega) inside).mp (by omega)

/-- An item stored behind the last one is added. -/
theorem countedItems_push {item : Item} (room : count < size) :
    countedItems (Function.update slots (countedIndex size head count) item) size head (count + 1) =
      countedItems slots size head count ++ [item] := by
  have kept := countedItems_update_outside slots head item (le_refl count) room
  rw [← kept, countedItems, countedItems, List.range_succ, List.map_append, List.map_singleton,
    Function.update_self]

/-- The oldest item of a ring that is not empty. -/
theorem countedItems_pop :
    countedItems slots size head (count + 1) =
      slots (countedIndex size head 0) :: countedItems slots size (countedIndex size head 1) count := by
  rw [countedItems, countedItems, List.range_succ_eq_map, List.map_cons, List.map_map]
  refine congrArg _ (List.map_congr_left fun index _ => ?_)
  show slots (countedIndex size head (index + 1)) = slots (countedIndex size (countedIndex size head 1)
    index)
  congr 1
  rw [countedIndex, countedIndex, countedIndex, Nat.mod_add_mod]
  congr 1
  omega

theorem countedItems_dropLast :
    countedItems slots size head count = (countedItems slots size head (count + 1)).dropLast := by
  rw [countedItems, countedItems, List.range_succ, List.map_append, List.map_singleton,
    List.dropLast_concat]

/-- An item stored in the slot of another one takes its place. -/
theorem countedItems_set {item : Item} (inside : index < count) (fits : count ≤ size) :
    countedItems (Function.update slots (countedIndex size head index) item) size head count =
      (countedItems slots size head count).set index item := by
  refine List.ext_getElem (by simp) fun other otherInside _ => ?_
  rw [countedItems_length] at otherInside
  rw [countedItems_getElem, List.getElem_set, countedItems_getElem]
  split
  · rename_i same
    rw [same, Function.update_self]
  · rename_i different
    refine Function.update_of_ne (mt (countedIndex_inj (by omega) (by omega)).mp ?_) _ _
    exact Ne.symm different

/-! ### Items that move up -/

/-- Where an item is read from after the items from one index on have moved up. -/
theorem moveUp_apply (left : ℕ) (other : ℕ) (otherInside : other < size)
    (fits : index + left < size) :
    moveUp size head left index slots (countedIndex size head other) =
      slots (countedIndex size head
        (if index ≤ other ∧ other < index + left then other + 1 else other)) := by
  induction left generalizing index slots with
  | zero => rw [moveUp, if_neg (by omega)]
  | succ left inductionHypothesis =>
    rw [moveUp, inductionHypothesis (by omega)]
    by_cases first : other = index
    · rw [if_neg (by omega), if_pos (by omega), first, Function.update_self]
    · have target : (if index + 1 ≤ other ∧ other < index + 1 + left then other + 1 else other) =
          if index ≤ other ∧ other < index + (left + 1) then other + 1 else other := by
        congr 1
        exact propext (by omega)
      rw [target]
      refine Function.update_of_ne (mt (countedIndex_inj ?_ (by omega)).mp ?_) _ _
      · split <;> omega
      · split <;> omega

/-- An item goes out of the middle: the ones behind it move up, and there is one less. -/
theorem countedItems_eraseIdx (inside : index ≤ count) (fits : count < size) :
    countedItems (moveUp size head (count - index) index slots) size head count =
      (countedItems slots size head (count + 1)).eraseIdx index := by
  refine List.ext_getElem ?_ fun other otherInside _ => ?_
  · rw [List.length_eraseIdx, countedItems_length, countedItems_length, if_pos (by omega)]
    rfl
  · rw [countedItems_length] at otherInside
    rw [countedItems_getElem, List.getElem_eraseIdx, moveUp_apply _ _ (by omega) (by omega)]
    by_cases before : other < index
    · rw [dif_pos before, countedItems_getElem, if_neg (by omega)]
    · rw [dif_neg before, countedItems_getElem, if_pos (by omega)]

end CountedRing

end Urus
