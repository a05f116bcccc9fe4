/-
This file develops byte images: a memory, a storage area or a flash sector is a
total function from addresses to bytes. Three operations act on an image. `slice`
reads a run of bytes, `put` overwrites one, and `program` clears bits the way NOR
flash does: a programmed byte is the conjunction of the old byte and the new one.

The point of the file is that the three operations are told apart by ranges only.
A read outside a written range does not see the write, a read of the written range
returns what was written, and programming a blank range is the same as overwriting
it. Everything above works with these rules and never unfolds a list.
-/

import Mathlib.Tactic
import Mathlib.Data.List.GetD

namespace Urus

/-- A byte image: the content of every address. -/
abbrev Image := Nat → UInt8

namespace Image

/-- The bytes of `count` consecutive addresses. -/
def slice (image : Image) (start count : Nat) : List UInt8 :=
  (List.range count).map fun index => image (start + index)

/-- Overwrite the bytes from `start` on. -/
def put (image : Image) (start : Nat) (data : List UInt8) : Image := fun address =>
  if start ≤ address ∧ address < start + data.length then data.getD (address - start) 0
  else image address

/-- Program the bytes from `start` on: bits can be cleared and never set. -/
def program (image : Image) (start : Nat) (data : List UInt8) : Image := fun address =>
  if start ≤ address ∧ address < start + data.length then
    image address &&& data.getD (address - start) 0
  else image address

/-- Set `count` consecutive bytes to one value. -/
def fill (image : Image) (start count : Nat) (value : UInt8) : Image := fun address =>
  if start ≤ address ∧ address < start + count then value else image address

/-- Every byte from `start` up to `stop` is erased. -/
def Blank (image : Image) (start stop : Nat) : Prop :=
  ∀ address, start ≤ address → address < stop → image address = 0xFF

/-- Two images agree from `start` up to `stop`. -/
def Agree (first second : Image) (start stop : Nat) : Prop :=
  ∀ address, start ≤ address → address < stop → first address = second address

/-! ### Reading -/

@[simp] theorem slice_length (image : Image) (start count : Nat) :
    (slice image start count).length = count := by
  simp [slice]

theorem slice_four (image : Image) (start : Nat) :
    slice image start 4 =
      [image start, image (start + 1), image (start + 2), image (start + 3)] := rfl

theorem slice_getD (image : Image) (start count index : Nat) (inside : index < count) :
    (slice image start count).getD index 0 = image (start + index) := by
  simp [slice, List.getD, inside]

theorem slice_add (image : Image) (start first second : Nat) :
    slice image start (first + second) =
      slice image start first ++ slice image (start + first) second := by
  simp only [slice, List.range_add, List.map_append, List.map_map]
  refine congrArg _ (List.map_congr_left fun index _ => ?_)
  simp only [Function.comp_apply, Nat.add_assoc]

theorem slice_drop (image : Image) (start first second : Nat) :
    (slice image start (first + second)).drop first = slice image (start + first) second := by
  rw [slice_add, List.drop_left' (slice_length _ _ _)]

theorem slice_congr {first second : Image} {start count : Nat}
    (agree : Agree first second start (start + count)) :
    slice first start count = slice second start count := by
  refine List.map_congr_left fun index member => ?_
  have bound : index < count := List.mem_range.mp member
  exact agree _ (Nat.le_add_right _ _) (by omega)

/-- A slice names the bytes of its range one by one. -/
theorem slice_eq_iff (image : Image) (start : Nat) (data : List UInt8) :
    slice image start data.length = data ↔
      ∀ index, index < data.length → image (start + index) = data.getD index 0 := by
  constructor
  · intro same index inside
    rw [← slice_getD image start data.length index inside, same]
  · intro bytes
    refine List.ext_getElem (by simp) fun index _ inside => ?_
    have byte := bytes index inside
    simp only [slice, List.getElem_map, List.getElem_range, byte, List.getD]
    simp [inside]

/-! ### Writing -/

theorem put_inside (image : Image) (start : Nat) (data : List UInt8) (address : Nat)
    (low : start ≤ address) (high : address < start + data.length) :
    put image start data address = data.getD (address - start) 0 := by
  simp only [put, if_pos (And.intro low high)]

theorem put_outside (image : Image) (start : Nat) (data : List UInt8) (address : Nat)
    (outside : address < start ∨ start + data.length ≤ address) :
    put image start data address = image address := by
  have miss : ¬ (start ≤ address ∧ address < start + data.length) := by omega
  simp only [put, if_neg miss]

@[simp] theorem put_nil (image : Image) (start : Nat) : put image start [] = image := by
  funext address
  exact put_outside _ _ _ _ (by simp only [List.length_nil]; omega)

theorem program_outside (image : Image) (start : Nat) (data : List UInt8) (address : Nat)
    (outside : address < start ∨ start + data.length ≤ address) :
    program image start data address = image address := by
  have miss : ¬ (start ≤ address ∧ address < start + data.length) := by omega
  simp only [program, if_neg miss]

theorem program_inside (image : Image) (start : Nat) (data : List UInt8) (address : Nat)
    (low : start ≤ address) (high : address < start + data.length) :
    program image start data address = image address &&& data.getD (address - start) 0 := by
  simp only [program, if_pos (And.intro low high)]

theorem byte_and_blank (byte : UInt8) : 0xFF &&& byte = byte :=
  UInt8.neg_one_and

theorem program_blank (image : Image) (start : Nat) (data : List UInt8)
    (blank : Blank image start (start + data.length)) :
    program image start data = put image start data := by
  funext address
  by_cases inside : start ≤ address ∧ address < start + data.length
  · rw [program_inside _ _ _ _ inside.1 inside.2, put_inside _ _ _ _ inside.1 inside.2,
      blank address inside.1 inside.2, byte_and_blank]
  · rw [program_outside _ _ _ _ (by omega), put_outside _ _ _ _ (by omega)]

/-- Programming a run of bytes over bytes that have all its bits set stores it. -/
theorem program_clears (image : Image) (start : Nat) (data : List UInt8)
    (clears : ∀ index, index < data.length →
      image (start + index) &&& data.getD index 0 = data.getD index 0) :
    program image start data = put image start data := by
  funext address
  by_cases inside : start ≤ address ∧ address < start + data.length
  · rw [program_inside _ _ _ _ inside.1 inside.2, put_inside _ _ _ _ inside.1 inside.2]
    have byte := clears (address - start) (by omega)
    rwa [show start + (address - start) = address by omega] at byte
  · rw [program_outside _ _ _ _ (by omega), put_outside _ _ _ _ (by omega)]

/-- Reading back what was written. -/
theorem slice_put_self (image : Image) (start : Nat) (data : List UInt8) :
    slice (put image start data) start data.length = data := by
  refine (slice_eq_iff _ _ _).mpr fun index inside => ?_
  rw [put_inside _ _ _ _ (Nat.le_add_right _ _) (by omega), Nat.add_sub_cancel_left]

theorem slice_put_left (image : Image) (start : Nat) (first second : List UInt8) :
    slice (put image start (first ++ second)) start first.length = first := by
  have whole := slice_put_self image start (first ++ second)
  rw [List.length_append, slice_add] at whole
  exact (List.append_inj whole (slice_length _ _ _)).1

theorem slice_put_right (image : Image) (start : Nat) (first second : List UInt8) :
    slice (put image start (first ++ second)) (start + first.length) second.length = second := by
  have whole := slice_put_self image start (first ++ second)
  rw [List.length_append, slice_add] at whole
  exact (List.append_inj whole (slice_length _ _ _)).2

/-- Programmed data that reads back did not need a bit to be set. -/
theorem clears_of_readBack (image : Image) (start : Nat) (data : List UInt8)
    (readBack : slice (program image start data) start data.length = data) (index : Nat)
    (inside : index < data.length) :
    image (start + index) &&& data.getD index 0 = data.getD index 0 := by
  have byte := (slice_eq_iff _ _ _).mp readBack index inside
  rwa [program_inside _ _ _ _ (Nat.le_add_right _ _) (by omega), Nat.add_sub_cancel_left] at byte

/-- A write leaves every range that it does not touch as it was. -/
theorem slice_put_disjoint (image : Image) (start : Nat) (data : List UInt8) (other count : Nat)
    (apart : other + count ≤ start ∨ start + data.length ≤ other) :
    slice (put image start data) other count = slice image other count := by
  refine slice_congr fun address low high => ?_
  exact put_outside _ _ _ _ (by omega)

/-- Two adjacent writes are one write of the joined data. -/
theorem put_append (image : Image) (start : Nat) (first second : List UInt8) :
    put (put image start first) (start + first.length) second = put image start (first ++ second) := by
  funext address
  by_cases high : start + first.length ≤ address ∧ address < start + first.length + second.length
  · rw [put_inside _ _ _ _ high.1 high.2,
      put_inside _ _ _ _ (by omega) (by rw [List.length_append]; omega),
      List.getD_append_right _ _ _ _ (by omega)]
    congr 1
    omega
  · rw [put_outside _ _ _ _ (by omega)]
    by_cases low : start ≤ address ∧ address < start + first.length
    · rw [put_inside _ _ _ _ low.1 low.2,
        put_inside _ _ _ _ low.1 (by rw [List.length_append]; omega),
        List.getD_append _ _ _ _ (by omega)]
    · rw [put_outside _ _ _ _ (by omega),
        put_outside _ _ _ _ (by rw [List.length_append]; omega)]

/-- A later write of the same range hides the earlier one. -/
theorem put_put_cover (image : Image) (start : Nat) (first second rest : List UInt8)
    (same : first.length = second.length) :
    put (put image start (first ++ rest)) start second = put image start (second ++ rest) := by
  rw [← put_append image start first rest, ← put_append image start second rest]
  funext address
  simp only [put, same]
  split
  · rw [if_neg (by omega)]
  · rfl

/-- Writing a range with the bytes of another image copies that image there. -/
theorem put_slice (image source : Image) (start count : Nat) (address : Nat) :
    put image start (slice source start count) address =
      if start ≤ address ∧ address < start + count then source address else image address := by
  by_cases inside : start ≤ address ∧ address < start + count
  · rw [if_pos inside, put_inside _ _ _ _ inside.1 (by rw [slice_length]; exact inside.2),
      slice_getD _ _ _ _ (by omega)]
    congr 1
    omega
  · rw [if_neg inside, put_outside _ _ _ _ (by rw [slice_length]; omega)]

/-- Images that agree still do after the same write. -/
theorem Agree.put {first second : Image} {start stop : Nat} (loc : Nat) (data : List UInt8)
    (agree : Agree first second start stop) :
    Agree (first.put loc data) (second.put loc data) start stop := by
  intro address low high
  by_cases covered : loc ≤ address ∧ address < loc + data.length
  · rw [put_inside _ _ _ _ covered.1 covered.2, put_inside _ _ _ _ covered.1 covered.2]
  · rw [put_outside _ _ _ _ (by omega), put_outside _ _ _ _ (by omega)]
    exact agree address low high

/-- Writing the bytes that are there changes nothing. -/
theorem put_same {image : Image} {loc : Nat} {data : List UInt8}
    (same : data = slice image loc data.length) : put image loc data = image := by
  funext address
  conv_lhs => rw [same]
  rw [put_slice, ite_self]

theorem Blank.mono {image : Image} {start stop start' stop' : Nat}
    (blank : Blank image start stop) (low : start ≤ start') (high : stop' ≤ stop) :
    Blank image start' stop' :=
  fun address lower upper => blank address (le_trans low lower) (lt_of_lt_of_le upper high)

end Image

/-! ### Counters of two bytes -/

/-- A counter that is not full goes on. -/
theorem uint16_succ {number : UInt16} (room : number.toNat + 1 < 2 ^ 16) :
    (number + 1).toNat = number.toNat + 1 := by
  rw [UInt16.toNat_add]
  exact Nat.mod_eq_of_lt room

end Urus
