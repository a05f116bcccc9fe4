/-
This file proves when the storage reads back what was written to it. The law is that of a
plain array: behind any run of reads and writes, a read returns for each byte the value of
the last write that covers it, or else the persisted byte.

`write_block` compares the data with the buffer before it loads the medium, when the buffer
is still cleared. A first write that consists of zero bytes is therefore taken for one that
changes nothing. The law holds behind every part of a run if and only if each such write
finds zero bytes in the medium.
-/

import Urus.HalStorage.Model
import Urus.Lib.Trace

namespace Urus.HalStorage

open Image

/-! ### Runs -/

/-- A call of the storage. -/
inductive Operation
  | read (loc n : Nat)
  | write (loc : Nat) (src : List UInt8)

/-- The first address of a call. -/
def Operation.loc : Operation → Nat
  | .read loc _ => loc
  | .write loc _ => loc

/-- The number of bytes of a call. -/
def Operation.length : Operation → Nat
  | .read _ n => n
  | .write _ src => src.length

/-- The call asks for at least one byte and for no more than there are. -/
def Operation.Allowed (board : Board) (operation : Operation) : Prop :=
  1 ≤ operation.length ∧ operation.length ≤ board.size

/-- The call stays inside the storage. -/
def Operation.InRange (board : Board) (operation : Operation) : Prop :=
  operation.loc + operation.length ≤ board.size

/-- The state behind a call. -/
def Operation.apply (board : Board) (state : State) : Operation → State
  | .read loc n => (readBlock board state loc n).1
  | .write loc src => writeBlock board state loc src

/-- What the call copies to its caller. -/
def Operation.answer (board : Board) (state : State) : Operation → Option (List UInt8)
  | .read loc n => (readBlock board state loc n).2
  | .write _ _ => none

/-- The state behind a run of calls from boot. -/
def afterCalls (board : Board) (medium : Medium) (operations : List Operation) : State :=
  runCalls (Operation.apply board) (boot medium) operations

/-- What a call writes to a plain array. -/
def Operation.store (board : Board) (image : Image) : Operation → Image
  | .read _ _ => image
  | .write loc src => if loc + src.length ≤ board.size then put image loc src else image

/-- For every address the byte of the last write in range that covers it, or else the persisted
byte. -/
def lastWritten (board : Board) (medium : Medium) (operations : List Operation) : Image :=
  runCalls (Operation.store board) medium.image operations

/-- The storage behaves like an array behind a run: reads in range see the last write, and calls
out of range change nothing. -/
structure Lawful (board : Board) (medium : Medium) (operations : List Operation) : Prop where
  reads : ∀ loc n, 1 ≤ n → loc + n ≤ board.size →
    (Operation.read loc n).answer board (afterCalls board medium operations) =
      some (slice (lastWritten board medium operations) loc n)
  outside : ∀ operation : Operation, operation.Allowed board → ¬ operation.InRange board →
    operation.apply board (afterCalls board medium operations) =
      afterCalls board medium operations ∧
    operation.answer board (afterCalls board medium operations) = none

/-- The call makes the storage load the medium when it is the first to do so. -/
def Operation.Loads (board : Board) (operation : Operation) : Prop :=
  operation.InRange board ∧
    match operation with
    | .read _ _ => True
    | .write _ src => ∃ byte ∈ src, byte ≠ 0

/-- A write of zero bytes in front of the first call that loads the medium finds them there. -/
def ZeroesPersisted (board : Board) (medium : Medium) (operations : List Operation) : Prop :=
  ∀ before loc src after, operations = before ++ Operation.write loc src :: after →
    (∀ operation ∈ before, ¬ operation.Loads board) → loc + src.length ≤ board.size →
    (∀ byte ∈ src, byte = 0) → slice medium.image loc src.length = src

/-! ### One call -/

variable {board : Board} {medium : Medium} {state : State} {image : Image}
  {operation : Operation}

theorem Operation.Allowed.outOfRange_iff (allowed : operation.Allowed board) :
    board.OutOfRange operation.loc operation.length ↔ ¬ operation.InRange board := by
  rw [board.outOfRange_iff allowed.1 allowed.2, Operation.InRange, not_le]

/-- A call out of range changes nothing. -/
theorem Operation.apply_outside (allowed : operation.Allowed board)
    (outside : ¬ operation.InRange board) :
    operation.apply board state = state ∧ operation.answer board state = none := by
  cases operation with
  | read loc n =>
    have check : board.OutOfRange loc n := allowed.outOfRange_iff.mpr outside
    rw [Operation.apply, Operation.answer, readBlock, if_pos check]
    exact ⟨rfl, rfl⟩
  | write loc src =>
    have check : board.OutOfRange loc src.length := allowed.outOfRange_iff.mpr outside
    refine ⟨?_, rfl⟩
    rw [Operation.apply, writeBlock, copyBlock, if_pos check]
    rfl

theorem Operation.apply_read {loc n : Nat} (allowed : (Operation.read loc n).Allowed board)
    (inside : (Operation.read loc n).InRange board) :
    (Operation.read loc n).apply board state = storageOpen board state ∧
      (Operation.read loc n).answer board state =
        some (slice (storageOpen board state).buffer loc n) := by
  have check : ¬ board.OutOfRange loc n := fun outside => allowed.outOfRange_iff.mp outside inside
  rw [Operation.apply, Operation.answer, readBlock, if_neg check]
  exact ⟨rfl, rfl⟩

variable {loc : Nat} {src : List UInt8} {operations : List Operation}

/-- A write that finds its data in the buffer changes nothing. -/
theorem Operation.apply_write_same (same : src = slice state.buffer loc src.length) :
    (Operation.write loc src).apply board state = state := by
  rw [Operation.apply, writeBlock, copyBlock]
  split_ifs <;> rfl

theorem Operation.apply_write_other (allowed : (Operation.write loc src).Allowed board)
    (inside : (Operation.write loc src).InRange board)
    (other : src ≠ slice state.buffer loc src.length) :
    (Operation.write loc src).apply board state =
      markDirty board { storageOpen board state with
        buffer := put (storageOpen board state).buffer loc src } loc src.length := by
  have check : ¬ board.OutOfRange loc src.length :=
    fun outside => allowed.outOfRange_iff.mp outside inside
  rw [Operation.apply, writeBlock, copyBlock, if_neg check, if_neg other]
  rfl

theorem Operation.store_write (inside : (Operation.write loc src).InRange board) :
    (Operation.write loc src).store board image = put image loc src := by
  have fits : loc + src.length ≤ board.size := inside
  rw [Operation.store, if_pos fits]

theorem Operation.store_outside (outside : ¬ operation.InRange board) :
    operation.store board image = image := by
  cases operation with
  | read loc n => rfl
  | write loc src =>
    have misses : ¬ loc + src.length ≤ board.size := outside
    rw [Operation.store, if_neg misses]

/-- The storage has been opened and its buffer shows the image. -/
def State.Open (board : Board) (state : State) (image : Image) : Prop :=
  state.initialised = true ∧ state.Shows board image

/-- Once the storage is open, every call acts on the buffer as on an array. -/
theorem State.Open.apply (opened : state.Open board image) (allowed : operation.Allowed board) :
    (operation.apply board state).Open board (operation.store board image) := by
  by_cases inside : operation.InRange board
  · cases operation with
    | read loc n =>
      rw [(Operation.apply_read allowed inside).1, storageOpen_opened opened.1]
      exact opened
    | write loc src =>
      rw [Operation.store_write inside]
      have written := Agree.put loc src opened.2
      by_cases same : src = slice state.buffer loc src.length
      · rw [Operation.apply_write_same same]
        rw [put_same same] at written
        exact ⟨opened.1, written⟩
      · rw [Operation.apply_write_other allowed inside same, storageOpen_opened opened.1]
        exact ⟨opened.1, written⟩
  · rw [(Operation.apply_outside allowed inside).1, Operation.store_outside inside]
    exact opened

/-! ### The first call -/

theorem boot_blank (board : Board) (medium : Medium) : (boot medium).Shows board fun _ => 0 :=
  fun _ _ _ => rfl

/-- The cleared buffer has zero bytes everywhere. -/
theorem slice_boot (medium : Medium) (loc n : Nat) :
    slice (boot medium).buffer loc n = List.replicate n 0 := by
  refine List.eq_replicate_iff.mpr ⟨slice_length _ _ _, fun byte member => ?_⟩
  obtain ⟨index, -, same⟩ := List.mem_map.mp member
  exact same.symm

/-- What is equal to the cleared buffer has no other bytes. -/
theorem eq_slice_boot_iff (medium : Medium) (loc : Nat) (src : List UInt8) :
    src = slice (boot medium).buffer loc src.length ↔ ∀ byte ∈ src, byte = 0 := by
  rw [slice_boot, List.eq_replicate_iff]
  exact and_iff_right rfl

/-- A call that does not load the medium leaves the object as it was at boot. -/
theorem boot_apply_idle (allowed : operation.Allowed board) (idle : ¬ operation.Loads board) :
    operation.apply board (boot medium) = boot medium := by
  by_cases inside : operation.InRange board
  · cases operation with
    | read loc n => exact absurd ⟨inside, trivial⟩ idle
    | write loc src =>
      refine Operation.apply_write_same ((eq_slice_boot_iff _ _ _).mpr fun byte member => ?_)
      by_contra nonzero
      exact idle ⟨inside, byte, member, nonzero⟩
  · exact (Operation.apply_outside allowed inside).1

/-- Opening finds the persisted bytes. -/
theorem boot_open (agree : Agree medium.image image 0 board.size) :
    (storageOpen board (boot medium)).Open board image := by
  refine ⟨storageOpen_initialised _, fun address low high => ?_⟩
  rw [storageOpen_shows rfl (boot_blank board medium) address low high]
  exact agree address low high

/-- The first call that loads the medium finds the persisted bytes. -/
theorem boot_apply_loads (allowed : operation.Allowed board) (loads : operation.Loads board)
    (agree : Agree medium.image image 0 board.size) :
    (operation.apply board (boot medium)).Open board (operation.store board image) := by
  have opened : (storageOpen board (boot medium)).Open board image := boot_open agree
  cases operation with
  | read loc n =>
    rw [(Operation.apply_read allowed loads.1).1]
    exact opened
  | write loc src =>
    obtain ⟨inside, byte, member, nonzero⟩ := loads
    have other : src ≠ slice (boot medium).buffer loc src.length :=
      fun same => nonzero ((eq_slice_boot_iff _ _ _).mp same byte member)
    rw [Operation.apply_write_other allowed inside other, Operation.store_write inside]
    exact ⟨opened.1, opened.2.put loc src⟩

/-! ### A run of calls -/

/-- Either nothing has been loaded, and what was written is what is persisted, or the buffer shows
what was written. -/
def Tracks (board : Board) (medium : Medium) (operations : List Operation) : Prop :=
  ((∀ operation ∈ operations, ¬ operation.Loads board) ∧
    afterCalls board medium operations = boot medium ∧
    Agree medium.image (lastWritten board medium operations) 0 board.size) ∨
  (afterCalls board medium operations).Open board (lastWritten board medium operations)

theorem afterCalls_snoc (operations : List Operation) :
    afterCalls board medium (operations ++ [operation]) =
      operation.apply board (afterCalls board medium operations) :=
  runCalls_append _ _ _

theorem lastWritten_snoc (operations : List Operation) :
    lastWritten board medium (operations ++ [operation]) =
      operation.store board (lastWritten board medium operations) :=
  runCalls_append _ _ _

theorem afterCalls_idle (operations : List Operation)
    (allowed : ∀ operation ∈ operations, operation.Allowed board)
    (idle : ∀ operation ∈ operations, ¬ operation.Loads board) :
    afterCalls board medium operations = boot medium :=
  runCalls_invariant (fun state => state = boot medium)
    (fun _ operation member same => same ▸ boot_apply_idle (allowed operation member)
      (idle operation member)) rfl

/-- A write that is taken for one that changes nothing does not change what is persisted either. -/
theorem store_idle (idle : ¬ operation.Loads board)
    (persisted : ∀ loc src, operation = .write loc src → loc + src.length ≤ board.size →
      (∀ byte ∈ src, byte = 0) → slice medium.image loc src.length = src)
    (agree : Agree medium.image image 0 board.size) :
    Agree medium.image (operation.store board image) 0 board.size := by
  by_cases inside : operation.InRange board
  · cases operation with
    | read loc n => exact agree
    | write loc src =>
      have zeroes : ∀ byte ∈ src, byte = 0 := fun byte member => by
        by_contra nonzero
        exact idle ⟨inside, byte, member, nonzero⟩
      have written := agree.put loc src
      rwa [put_same (persisted loc src rfl inside zeroes).symm,
        ← Operation.store_write inside] at written
  · rw [Operation.store_outside inside]
    exact agree

theorem ZeroesPersisted.take {operations : List Operation}
    (persisted : ZeroesPersisted board medium operations) (count : Nat) :
    ZeroesPersisted board medium (operations.take count) := by
  intro before loc src after split
  refine persisted before loc src (after ++ operations.drop count) ?_
  rw [← List.cons_append, ← List.append_assoc, ← split, List.take_append_drop]

/-- Every run whose first zero writes are persisted is tracked. -/
theorem tracks (operations : List Operation)
    (allowed : ∀ operation ∈ operations, operation.Allowed board)
    (persisted : ZeroesPersisted board medium operations) : Tracks board medium operations := by
  induction operations using List.reverseRecOn with
  | nil => exact Or.inl ⟨fun _ impossible => (nomatch impossible), rfl, fun _ _ _ => rfl⟩
  | append_singleton before operation inductionHypothesis =>
    have last : operation.Allowed board := allowed operation (by simp)
    have earlier : Tracks board medium before := by
      refine inductionHypothesis (fun other member => allowed other (List.mem_append_left _ member)) ?_
      have cut := persisted.take before.length
      rwa [List.take_left] at cut
    rw [Tracks, afterCalls_snoc, lastWritten_snoc]
    rcases earlier with ⟨idle, same, agree⟩ | opened
    · rw [same]
      by_cases loads : operation.Loads board
      · exact Or.inr (boot_apply_loads last loads agree)
      · refine Or.inl ⟨?_, boot_apply_idle last loads, store_idle loads ?_ agree⟩
        · intro other member
          rcases List.mem_append.mp member with old | new
          · exact idle other old
          · rw [List.mem_singleton.mp new]
            exact loads
        · intro loc src kind
          exact persisted before loc src [] (by rw [kind]) idle
    · exact Or.inr (opened.apply last)

/-- A tracked run is lawful: the next read sees what was written. -/
theorem Tracks.lawful (tracked : Tracks board medium operations) :
    Lawful board medium operations where
  reads := by
    intro loc n positive fits
    have allowed : (Operation.read loc n).Allowed board := ⟨positive, by
      change n ≤ board.size
      omega⟩
    have shown : (storageOpen board (afterCalls board medium operations)).Shows board
        (lastWritten board medium operations) := by
      rcases tracked with ⟨-, same, agree⟩ | opened
      · rw [same]
        exact (boot_open agree).2
      · rw [storageOpen_opened opened.1]
        exact opened.2
    rw [(Operation.apply_read allowed fits).2,
      slice_congr fun address low high => shown address (Nat.zero_le _) (by omega)]
  outside := fun operation allowed outside => Operation.apply_outside allowed outside

/-- In front of the first load a read returns the persisted bytes, whatever was written. -/
theorem answer_idle (allowed : ∀ operation ∈ operations, operation.Allowed board)
    (idle : ∀ operation ∈ operations, ¬ operation.Loads board) {loc n : Nat} (positive : 1 ≤ n)
    (fits : loc + n ≤ board.size) :
    (Operation.read loc n).answer board (afterCalls board medium operations) =
      some (slice medium.image loc n) := by
  have call : (Operation.read loc n).Allowed board := ⟨positive, by
    change n ≤ board.size
    omega⟩
  rw [afterCalls_idle operations allowed idle, (Operation.apply_read call fits).2,
    slice_congr fun address low high => (boot_open fun _ _ _ => rfl).2 address (Nat.zero_le _)
      (by omega)]

/-- The storage behaves like an array behind every part of a run if and only if every write of zero
bytes in front of the first load finds zero bytes in the medium. -/
theorem lawful_iff_zeroesPersisted (board : Board) (medium : Medium) (operations : List Operation)
    (allowed : ∀ operation ∈ operations, operation.Allowed board) :
    (∀ count, Lawful board medium (operations.take count)) ↔
      ZeroesPersisted board medium operations := by
  constructor
  · intro lawful before loc src after split idle fits zeroes
    have taken : operations.take (before.length + 1) = before ++ [.write loc src] := by
      rw [split, show before ++ Operation.write loc src :: after =
        (before ++ [.write loc src]) ++ after by simp]
      exact List.take_left' (by simp)
    have call : (Operation.write loc src).Allowed board := allowed _ (by rw [split]; simp)
    have idleToo : ∀ operation ∈ before ++ [.write loc src], ¬ operation.Loads board := by
      intro operation member
      rcases List.mem_append.mp member with old | new
      · exact idle operation old
      · rw [List.mem_singleton.mp new]
        rintro ⟨-, byte, inside, nonzero⟩
        exact nonzero (zeroes byte inside)
    have positive : 1 ≤ src.length := call.1
    have seen := (lawful (before.length + 1)).reads loc src.length positive fits
    rw [taken, answer_idle (fun operation member => allowed operation (by
        rw [← taken] at member
        exact List.mem_of_mem_take member)) idleToo positive fits, lastWritten_snoc,
      Operation.store_write fits, slice_put_self] at seen
    exact Option.some.inj seen
  · intro persisted count
    exact (tracks (operations.take count)
      (fun operation member => allowed operation (List.mem_of_mem_take member))
      (persisted.take count)).lawful

/-- A first write with other bytes than zero loads the medium. -/
theorem lawful_iff_zeroesPersisted_read :
    (∀ operation ∈ [Operation.write 4 [7, 0], .read 4 1], operation.Allowed chibiBoard) ∧
      ((∀ count, Lawful chibiBoard (.fram fun _ => 255)
        ([Operation.write 4 [7, 0], .read 4 1].take count)) ↔
      ZeroesPersisted chibiBoard (.fram fun _ => 255) [Operation.write 4 [7, 0], .read 4 1]) := by
  have allowed : ∀ operation ∈ [Operation.write 4 [7, 0], .read 4 1],
      operation.Allowed chibiBoard := by
    intro operation member
    rcases List.mem_pair.mp member with rfl | rfl <;> exact ⟨by decide, by decide⟩
  exact ⟨allowed, lawful_iff_zeroesPersisted _ _ _ allowed⟩

/-- The first call after boot writes a zero over a persisted 255, and the next read returns the
255: with an FRAM on a ChibiOS board, and with a file on a Linux board. -/
theorem not_lawful_firstZero :
    ¬ Lawful chibiBoard (.fram fun _ => 255) [.write 0 [0]] ∧
      ¬ Lawful linuxBoard (.file (some [255])) [.write 0 [0]] := by
  have lost : ∀ (board : Board) (medium : Medium), (Operation.write 0 [0]).Allowed board →
      slice medium.image 0 1 = [255] → ¬ Lawful board medium [.write 0 [0]] := by
    intro board medium call persisted lawful
    have inside : (Operation.write 0 [0]).InRange board := call.2
    have idle : ∀ operation ∈ [Operation.write 0 [0]], ¬ operation.Loads board := by
      intro operation member
      rw [List.mem_singleton.mp member]
      rintro ⟨-, byte, member, nonzero⟩
      exact nonzero (List.mem_singleton.mp member)
    have wanted := lawful.reads 0 1 (by decide) inside
    have fits : 0 + 1 ≤ board.size := inside
    have allowed : ∀ operation ∈ [Operation.write 0 [0]], operation.Allowed board :=
      fun operation member => List.mem_singleton.mp member ▸ call
    rw [answer_idle allowed idle (by decide) fits, persisted,
      ← List.nil_append [Operation.write 0 [0]], lastWritten_snoc, Operation.store_write inside,
      show (1 : Nat) = [(0 : UInt8)].length from rfl, slice_put_self] at wanted
    exact absurd (Option.some.inj wanted) (by decide)
  exact ⟨lost _ _ ⟨by decide, by decide⟩ rfl, lost _ _ ⟨by decide, by decide⟩ rfl⟩

end Urus.HalStorage
