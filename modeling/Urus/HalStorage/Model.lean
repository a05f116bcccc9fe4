/-
This file models the storage classes of the Linux and the ChibiOS boards. Both keep the
whole storage in a buffer in memory. The buffer is loaded from the medium by the first
access that needs it, `read_block` copies from the buffer, and `write_block` copies into it
and marks the lines that it touched in a mask, from which a timer writes them back.

The medium is a file on Linux and an FRAM chip or the flash on ChibiOS. It is taken to be
readable. For the flash it is what the flash driver loads.
-/

import Urus.Lib.Bytes

namespace Urus.HalStorage

open Image

/-! ### The board -/

/-- The storage of a board: its lines, the size of a line as a power of two, and the width of
`size_t`. The size fits the 16 bit addresses. -/
structure Board where
  lines : Nat
  lineShift : Nat
  sizeBits : Nat
  small : lines * 2 ^ lineShift < 2 ^ 16
  wide : 16 ≤ sizeBits

/-- `LINUX_STORAGE_SIZE`, `CH_STORAGE_SIZE`. -/
def Board.size (board : Board) : Nat := board.lines * 2 ^ board.lineShift

/-- The Linux boards: 32 lines of 512 bytes. -/
def linuxBoard : Board := ⟨32, 9, 64, by decide, by decide⟩

/-- A ChibiOS board with 16384 bytes of storage, in lines of 8 bytes. -/
def chibiBoard : Board := ⟨2048, 3, 32, by decide, by decide⟩

/-- A difference of two values of type `size_t`. -/
def Board.sizeSub (board : Board) (first second : Nat) : Nat :=
  (first + (2 ^ board.sizeBits - second)) % 2 ^ board.sizeBits

/-- The check at the top of `read_block` and `write_block`. -/
def Board.OutOfRange (board : Board) (loc n : Nat) : Prop :=
  board.sizeSub board.size (board.sizeSub n 1) ≤ loc

instance (board : Board) (loc n : Nat) : Decidable (board.OutOfRange loc n) :=
  inferInstanceAs (Decidable (_ ≤ _))

/-! ### The state -/

/-- Where the storage is kept between two boots. A file may be missing. -/
inductive Medium
  | file (content : Option (List UInt8))
  | fram (content : Image)
  | flash (content : Image)

/-- The persisted bytes. Behind the end of a file they count as zero. -/
def Medium.image : Medium → Image
  | .file content => fun address => (content.getD []).getD address 0
  | .fram content => content
  | .flash content => content

/-- The storage object and its medium. -/
structure State where
  initialised : Bool
  buffer : Image
  dirtyMask : Nat → Bool
  medium : Medium

/-- The object at boot. -/
def boot (medium : Medium) : State := ⟨false, fun _ => 0, fun _ => false, medium⟩

/-! ### The functions -/

/-- The Linux `_storage_open` from the opening of the file on. A missing file is created from the
buffer, a file of the old size is expanded, and any other file that is too short is created again
from what was read. -/
def openFile (board : Board) (state : State) (content : Option (List UInt8)) : State :=
  let created := content.getD (slice state.buffer 0 board.size)
  let buffer := put (fun _ => 0) 0 (created.take board.size)
  let ret := (created.take board.size).length
  let expand := ret = 4096 ∧ ret ≠ board.size
  let file :=
    if expand then created ++ List.replicate (board.size - created.length) 0
    else if ret ≠ board.size then slice buffer 0 board.size
    else created
  let buffer := if ¬ expand ∧ ret ≠ board.size then put buffer 0 file else buffer
  { state with
    initialised := true
    buffer := buffer
    medium := .file (some file) }

/-- `_storage_open`. -/
def storageOpen (board : Board) (state : State) : State :=
  if state.initialised then state
  else
    let state := { state with dirtyMask := fun _ => false }
    match state.medium with
    | .file content => openFile board state content
    | .fram content | .flash content =>
      { state with
        initialised := true
        buffer := put state.buffer 0 (slice content 0 board.size) }

/-- `Bitmask::set`. A bit that the mask does not have is ignored. -/
def setBit (board : Board) (mask : Nat → Bool) (bit : Nat) : Nat → Bool :=
  if board.lines ≤ bit then mask else Function.update mask bit true

/-- The lines that `_mark_dirty` goes through. -/
def markedLines (board : Board) (loc length : Nat) : List Nat :=
  let stop := (loc + length) % 2 ^ 16
  let first := loc >>> board.lineShift
  List.range' first (stop >>> board.lineShift + 1 - first)

/-- `_mark_dirty`. -/
def markDirty (board : Board) (state : State) (loc length : Nat) : State :=
  { state with
    dirtyMask := (markedLines board loc length).foldl (setBit board) state.dirtyMask }

/-- `read_block`: the object afterwards, and what was copied to the caller. -/
def readBlock (board : Board) (state : State) (loc n : Nat) : State × Option (List UInt8) :=
  if board.OutOfRange loc n then (state, none)
  else
    let state := storageOpen board state
    (state, some (slice state.buffer loc n))

/-- The part of `write_block` in front of `_mark_dirty`, and whether it comes to that. -/
def copyBlock (board : Board) (state : State) (loc : Nat) (src : List UInt8) : State × Bool :=
  if board.OutOfRange loc src.length then (state, false)
  else if src = slice state.buffer loc src.length then (state, false)
  else
    let state := storageOpen board state
    ({ state with buffer := put state.buffer loc src }, true)

/-- `write_block`. -/
def writeBlock (board : Board) (state : State) (loc : Nat) (src : List UInt8) : State :=
  let (state, copied) := copyBlock board state loc src
  if copied then markDirty board state loc src.length else state

/-! ### The range check -/

variable {board : Board}

theorem Board.size_lt (board : Board) : board.size < 2 ^ board.sizeBits :=
  lt_of_lt_of_le board.small (Nat.pow_le_pow_right (by decide) board.wide)

/-- A difference that does not wrap. -/
theorem Board.sizeSub_eq (board : Board) {first second : Nat} (ordered : second ≤ first)
    (inside : first < 2 ^ board.sizeBits) : board.sizeSub first second = first - second := by
  rw [Board.sizeSub, show first + (2 ^ board.sizeBits - second) =
    first - second + 2 ^ board.sizeBits by omega, Nat.add_mod_right, Nat.mod_eq_of_lt (by omega)]

/-- The check is right for every length that the storage has. -/
theorem Board.outOfRange_iff (board : Board) {loc n : Nat} (positive : 1 ≤ n) (fits : n ≤ board.size) :
    board.OutOfRange loc n ↔ board.size < loc + n := by
  have bound := board.size_lt
  rw [Board.OutOfRange, board.sizeSub_eq positive (by omega), board.sizeSub_eq (by omega) bound]
  omega

/-! ### Opening -/

/-- Up to the size of the storage the buffer has the bytes of the image. -/
def State.Shows (board : Board) (state : State) (image : Image) : Prop :=
  Agree state.buffer image 0 board.size

@[simp] theorem storageOpen_initialised (state : State) :
    (storageOpen board state).initialised = true := by
  unfold storageOpen
  split
  · assumption
  · dsimp only
    split <;> rfl

theorem storageOpen_opened {state : State} (opened : state.initialised = true) :
    storageOpen board state = state := by
  rw [storageOpen, if_pos opened]

/-- A short file that was read into a cleared buffer. -/
theorem put_take (content : List UInt8) (count address : Nat) (inside : address < count) :
    put (fun _ => 0) 0 (content.take count) address = content.getD address 0 := by
  by_cases present : address < content.length
  · rw [put_inside _ _ _ _ (Nat.zero_le _) (by rw [List.length_take]; omega), Nat.sub_zero,
      List.getD, List.getElem?_take, if_pos inside, List.getD]
  · rw [put_outside _ _ _ _ (Or.inr (by rw [List.length_take]; omega)),
      List.getD_eq_default _ _ (by omega)]

theorem openFile_shows (state : State) (content : Option (List UInt8))
    (blank : state.Shows board fun _ => 0) :
    (openFile board state content).Shows board (Medium.file content).image := by
  intro address _ inside
  have found : put (fun _ => 0) 0 ((content.getD (slice state.buffer 0 board.size)).take board.size)
      address = (Medium.file content).image address := by
    rw [put_take _ _ _ inside]
    cases content with
    | some bytes => rfl
    | none =>
      rw [Option.getD_none, slice_getD _ _ _ _ inside, Nat.zero_add, blank address (Nat.zero_le _) inside]
      rfl
  dsimp only [openFile]
  split
  · rename_i short
    rw [if_neg short.1, if_pos short.2, put_slice, if_pos ⟨Nat.zero_le _, by omega⟩]
    exact found
  · exact found

/-- Opening loads what is persisted. -/
theorem storageOpen_shows {state : State} (closed : state.initialised = false)
    (blank : state.Shows board fun _ => 0) :
    (storageOpen board state).Shows board state.medium.image := by
  have loaded : ∀ content : Image, Agree (put state.buffer 0 (slice content 0 board.size)) content 0
      board.size := by
    intro content address _ inside
    rw [put_slice, if_pos ⟨Nat.zero_le _, by omega⟩]
  rw [storageOpen, if_neg (by rw [closed]; decide)]
  dsimp only
  cases kind : state.medium with
  | file content => exact openFile_shows _ content blank
  | fram content => exact loaded content
  | flash content => exact loaded content

theorem storageOpen_medium {state : State} (chip : ∀ content, state.medium ≠ .file content) :
    (storageOpen board state).medium = state.medium := by
  unfold storageOpen
  split
  · rfl
  · dsimp only
    split
    · rename_i content kind
      exact absurd kind (chip content)
    · rfl
    · rfl

theorem copyBlock_cases (state : State) (loc : Nat) {src : List UInt8}
    (fits : src.length ≤ board.size) :
    copyBlock board state loc src = (state, false) ∨
      (loc + src.length ≤ board.size ∧ copyBlock board state loc src =
        ({ storageOpen board state with
          buffer := put (storageOpen board state).buffer loc src }, true)) := by
  unfold copyBlock
  split
  · exact Or.inl rfl
  · rename_i inside
    split
    · exact Or.inl rfl
    · rename_i other
      have positive : 1 ≤ src.length := List.length_pos_iff.mpr fun empty => other (by rw [empty]; rfl)
      refine Or.inr ⟨?_, rfl⟩
      rwa [board.outOfRange_iff positive fits, not_lt] at inside

end Urus.HalStorage
