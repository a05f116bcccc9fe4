/-
This file develops runs of bytes in a ring of byte slots. A run begins anywhere in the ring and
goes on at the first slot behind the last one, so that it lies in one or two segments of the
memory. Reading and writing the segments is reading and writing the ring.
-/

import Urus.Lib.Bytes
import Urus.Lib.Ring

namespace Urus

open Image

/-- A run of bytes, read in two segments. -/
def ringSlice (image : Image) (size start count : ℕ) : List UInt8 :=
  slice image start (min count (size - start)) ++ slice image 0 (count - (size - start))

/-- A run of bytes, written in two segments. -/
def ringPut (image : Image) (size start : ℕ) (data : List UInt8) : Image :=
  put (put image start (data.take (size - start))) 0 (data.drop (size - start))

theorem ringSlice_straight {size start count : ℕ} (image : Image) (fits : count ≤ size - start) :
    ringSlice image size start count = slice image start count := by
  rw [ringSlice, min_eq_left fits, Nat.sub_eq_zero_of_le fits]
  exact List.append_nil _

variable {data : List UInt8} {size start : ℕ} {image : Image}

theorem ringPut_straight (image : Image) (fits : data.length ≤ size - start) :
    ringPut image size start data = put image start data := by
  rw [ringPut, List.take_of_length_le fits, List.drop_eq_nil_of_le fits, put_nil]

theorem ringSlice_length {size start count : ℕ} (image : Image) :
    (ringSlice image size start count).length = count := by
  rw [ringSlice, List.length_append, slice_length, slice_length]
  omega

/-- The oldest bytes of a ring are the run that begins at the read position. -/
theorem ringItems_take {size read write count : ℕ} (readInside : read < size)
    (writeInside : write < size) (present : count ≤ ringCount size read write) :
    (ringItems image size read write).take count = ringSlice image size read count := by
  have bound := ringCount_lt readInside writeInside
  refine List.ext_getElem ?_ fun index inside inside' => ?_
  · rw [List.length_take, ringItems_length, ringSlice_length, min_eq_left present]
  · rw [ringSlice_length] at inside'
    rw [List.getElem_take, ringItems_getElem]
    by_cases first : index < size - read
    · have near : (slice image read (min count (size - read))).length = min count (size - read) :=
        slice_length _ _ _
      simp only [ringSlice]
      rw [List.getElem_append_left (by omega), ringIndex, if_pos (by omega)]
      simp only [slice, List.getElem_map, List.getElem_range]
    · have near : (slice image read (min count (size - read))).length = size - read := by
        rw [slice_length]
        omega
      simp only [ringSlice]
      rw [List.getElem_append_right (by omega), ringIndex, if_neg (by omega)]
      simp only [slice, List.getElem_map, List.getElem_range, List.length_map, List.length_range]
      congr 1
      omega

/-- A written run holds its bytes. -/
theorem ringPut_stored (startInside : start < size) (fits : data.length ≤ size) (index : ℕ)
    (inside : index < data.length) :
    ringPut image size start data (ringIndex size start index) = data[index] := by
  rw [ringPut, ringIndex]
  split
  · rename_i near
    rw [put_outside _ _ _ _ (by rw [List.length_drop]; omega),
      put_inside _ _ _ _ (by omega) (by rw [List.length_take]; omega), Nat.add_sub_cancel_left,
      List.getD_eq_getElem _ _ (by rw [List.length_take]; omega), List.getElem_take]
  · rename_i far
    rw [put_inside _ _ _ _ (Nat.zero_le _) (by rw [List.length_drop]; omega),
      List.getD_eq_getElem _ _ (by rw [List.length_drop]; omega), List.getElem_drop]
    congr 1
    omega

/-- A written run leaves the slots that are not in it. -/
theorem ringPut_kept (startInside : start < size) {address : ℕ}
    (away : ∀ index, index < data.length → address ≠ ringIndex size start index) :
    ringPut image size start data address = image address := by
  have near : ¬ (start ≤ address ∧ address < start + (data.take (size - start)).length) := by
    rintro ⟨low, high⟩
    rw [List.length_take] at high
    refine away (address - start) (by omega) ?_
    rw [ringIndex, if_pos (by omega)]
    omega
  have far : ¬ address < (data.drop (size - start)).length := by
    intro high
    rw [List.length_drop] at high
    refine away (address + (size - start)) (by omega) ?_
    rw [ringIndex, if_neg (by omega)]
    omega
  rw [ringPut, put_outside _ _ _ _ (by omega), put_outside _ _ _ _ (by omega)]

theorem ringItems_ringPut {size read write : ℕ} (readInside : read < size)
    (writeInside : write < size) (fits : ringCount size read write + data.length < size) :
    ringItems (ringPut image size write data) size read (ringIndex size write data.length) =
      ringItems image size read write ++ data := by
  refine ringItems_extend readInside writeInside fits (fun index old => ?_) fun index inside =>
    ringPut_stored writeInside (by omega) index inside
  refine ringPut_kept writeInside fun other inside => ?_
  unfold ringCount at fits old
  unfold ringIndex
  split_ifs at * <;> omega

theorem ringItems_replace {size read write : ℕ} (readInside : read < size)
    (writeInside : write < size) (present : data.length ≤ ringCount size read write) :
    ringItems (ringPut image size read data) size read write =
      data ++ (ringItems image size read write).drop data.length := by
  have bound := ringCount_lt readInside writeInside
  refine List.ext_getElem ?_ fun index inside inside' => ?_
  · rw [List.length_append, List.length_drop, ringItems_length, ringItems_length]
    omega
  · rw [ringItems_length] at inside
    rw [ringItems_getElem]
    by_cases new : index < data.length
    · rw [List.getElem_append_left new]
      exact ringPut_stored readInside (by omega) index new
    · rw [List.getElem_append_right (by omega), List.getElem_drop, ringItems_getElem,
        show data.length + (index - data.length) = index by omega]
      refine ringPut_kept readInside fun other inside => ?_
      unfold ringIndex
      split_ifs <;> omega

end Urus
