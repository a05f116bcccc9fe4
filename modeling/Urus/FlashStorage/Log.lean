/-
This file reads a flash sector as what it is meant to be: a header and a log of
records. `Holds` says that a sector's bytes are exactly a header in a given state,
the bytes of a list of records, and erased flash from there to the sector's end.

Three facts carry everything above. Loading such a sector replays its records over
the RAM copy and finds the end of the log. Appending a record in the way `write` does
it, header, data, header, gives a sector with one more record, and at the two points
in between a sector with one more record that is skipped. Marking the header of a
sector keeps its log.
-/

import Urus.FlashStorage.Model

namespace Urus.FlashStorage

open Image

/-! ### Records -/

/-- A block record. A record whose writing was interrupted is not valid and its data is
skipped. -/
structure Record where
  valid : Bool
  blockNum : Nat
  numBlocksMinusOne : Nat
  data : List UInt8
  blockNumFits : blockNum < 2 ^ 11
  numBlocksFits : numBlocksMinusOne < 2 ^ 3
  dataLength : data.length = (numBlocksMinusOne + 1) * 8

namespace Record

def state (record : Record) : BlockState := if record.valid then .valid else .writing

/-- The bytes of a record in flash. -/
def bytes (record : Record) : List UInt8 :=
  encodeBlockHeader record.state record.blockNum record.numBlocksMinusOne ++ record.data

/-- The address of the record's data in the storage. -/
def start (record : Record) : Nat := record.blockNum * 8

/-- The record's data lies inside the storage. -/
def InRange (storageSize : Nat) (record : Record) : Prop :=
  record.start + record.data.length ≤ storageSize

/-- What loading a record does to the RAM copy. -/
def load (memory : Image) (record : Record) : Image :=
  if record.valid then put memory record.start record.data else memory

/-- The record determines the byte at an address. -/
def Covers (record : Record) (address : Nat) : Prop :=
  record.valid = true ∧ record.start ≤ address ∧ address < record.start + record.data.length

end Record

@[simp] theorem encodeBlockHeader_length (state : BlockState) (blockNum numBlocksMinusOne : Nat) :
    (encodeBlockHeader state blockNum numBlocksMinusOne).length = 2 := rfl

theorem Record.bytes_length (record : Record) : record.bytes.length = 2 + record.data.length := by
  simp [Record.bytes]

/-- A header that was written is read back. -/
theorem decode_encodeBlockHeader (state : BlockState) (blockNum numBlocksMinusOne : Nat)
    (blockNumFits : blockNum < 2 ^ 11) (numBlocksFits : numBlocksMinusOne < 2 ^ 3) :
    decodeBlockHeader (encodeBlockHeader state blockNum numBlocksMinusOne) =
      ⟨some state, blockNum, numBlocksMinusOne⟩ := by
  have small : state.value < 4 := by cases state <;> decide
  have word : (state.value + 2 ^ 2 * (blockNum % 2 ^ 11) +
      2 ^ 13 * (numBlocksMinusOne % 2 ^ 3)) / 2 ^ 8 < 2 ^ 8 := by omega
  have known : BlockState.ofValue state.value = some state := by cases state <;> rfl
  simp only [decodeBlockHeader, encodeBlockHeader, List.getD_cons_zero, List.getD_cons_succ,
    UInt8.toNat_ofNat', Nat.mod_mod, Nat.mod_eq_of_lt word, Nat.mod_add_div,
    BlockHeader.mk.injEq]
  refine ⟨?_, by omega, by omega⟩
  rw [← known]
  congr 1
  omega

/-! ### Replaying a log -/

/-- The storage after loading a list of records over an image. -/
def replay (memory : Image) (records : List Record) : Image := records.foldl Record.load memory

/-- The storage a list of records stands for. -/
def content (records : List Record) : Image := replay (fun _ => 0) records

@[simp] theorem replay_cons (memory : Image) (record : Record) (rest : List Record) :
    replay memory (record :: rest) = replay (record.load memory) rest := rfl

theorem replay_append (memory : Image) (first second : List Record) :
    replay memory (first ++ second) = replay (replay memory first) second := List.foldl_append

theorem content_append_single (records : List Record) (record : Record) :
    content (records ++ [record]) = record.load (content records) := by
  rw [content, replay_append]
  rfl

theorem Record.load_congr (record : Record) (first second : Image) (address : Nat)
    (same : first address = second address) :
    record.load first address = record.load second address := by
  unfold Record.load
  split
  · simp only [put, same]
  · exact same

/-- A replayed byte depends on the same byte of the image below only. -/
theorem replay_congr (records : List Record) (first second : Image) (address : Nat)
    (same : first address = second address) :
    replay first records address = replay second records address := by
  induction records generalizing first second with
  | nil => exact same
  | cons record rest inductionHypothesis =>
    exact inductionHypothesis _ _ (record.load_congr first second address same)

theorem Record.load_of_not_covers (record : Record) (memory : Image) (address : Nat)
    (uncovered : ¬ record.Covers address) : record.load memory address = memory address := by
  unfold Record.load
  split
  · rename_i valid
    refine put_outside _ _ _ _ ?_
    by_contra inside
    exact uncovered ⟨valid, by omega, by omega⟩
  · rfl

/-- A covered byte does not depend on the image below. -/
theorem Record.load_of_covers (record : Record) (first second : Image) (address : Nat)
    (covered : record.Covers address) :
    record.load first address = record.load second address := by
  obtain ⟨valid, low, high⟩ := covered
  simp only [Record.load, valid, if_true]
  rw [put_inside _ _ _ _ low high, put_inside _ _ _ _ low high]

/-- Dropping the records below a log changes a byte only to the erased storage's zero. -/
theorem content_suffix (below records : List Record) (address : Nat) :
    content records address = content (below ++ records) address ∨ content records address = 0 := by
  induction records using List.reverseRecOn with
  | nil => exact Or.inr rfl
  | append_singleton records record inductionHypothesis =>
    rw [← List.append_assoc, content_append_single, content_append_single]
    by_cases covered : record.Covers address
    · exact Or.inl (record.load_of_covers _ _ address covered)
    · rw [record.load_of_not_covers _ address covered, record.load_of_not_covers _ address covered]
      exact inductionHypothesis

/-! ### Logs in flash -/

/-- The bytes of a log. -/
def logBytes (records : List Record) : List UInt8 := records.flatMap Record.bytes

/-- The length of a log. -/
def logSize (records : List Record) : Nat := (logBytes records).length

@[simp] theorem logSize_nil : logSize [] = 0 := rfl

theorem logSize_append (first second : List Record) :
    logSize (first ++ second) = logSize first + logSize second := by
  simp [logSize, logBytes]

theorem logSize_cons (record : Record) (rest : List Record) :
    logSize (record :: rest) = (2 + record.data.length) + logSize rest := by
  simp [logSize, logBytes, Record.bytes_length]

theorem logSize_append_single (records : List Record) (record : Record) :
    logSize (records ++ [record]) = logSize records + (2 + record.data.length) := by
  rw [logSize_append, logSize_cons, logSize_nil, Nat.add_zero]

/-- A sector holds a header in the given state, the log, and nothing else. -/
structure Holds (geometry : Geometry) (image : Image) (state : SectorState)
    (records : List Record) : Prop where
  header : slice image 0 4 = encodeSectorHeader state
  log : slice image 4 (logSize records) = logBytes records
  blank : Blank image (4 + logSize records) geometry.flashSectorSize
  fits : 4 + logSize records ≤ geometry.flashSectorSize
  inRange : ∀ record ∈ records, record.InRange geometry.storageSize

/-! ### Loading -/

/-- The reads of a load stay inside the sector. -/
def ReadsInside (geometry : Geometry) (calls : List FlashCall) : Prop :=
  ∀ call ∈ calls, ∃ sector offset length, call = .read sector offset length ∧
    offset + length ≤ geometry.flashSectorSize

variable {geometry : Geometry} {image : Image} {records : List Record} {state : SectorState}

theorem ReadsInside.cons {calls : List FlashCall} (sector : Sector) (offset length : Nat)
    (inside : offset + length ≤ geometry.flashSectorSize) (rest : ReadsInside geometry calls) :
    ReadsInside geometry (.read sector offset length :: calls) := by
  intro call member
  rcases List.mem_cons.mp member with rfl | tail
  · exact ⟨sector, offset, length, rfl, inside⟩
  · exact rest call tail

theorem ReadsInside.append {first second : List FlashCall} (before : ReadsInside geometry first)
    (after : ReadsInside geometry second) :
    ReadsInside geometry (first ++ second) := by
  intro call member
  rcases List.mem_append.mp member with left | right
  · exact before call left
  · exact after call right

/-- Loading what is blank stops at once: two erased bytes read as a header in state available. -/
theorem loadLoop_blank (geometry : Geometry) (sector : Sector) (fuel ofs : Nat) (state : State)
    (blank : Blank (state.flash sector) ofs geometry.flashSectorSize)
    (fits : ofs ≤ geometry.flashSectorSize) :
    ∃ calls, ReadsInside geometry calls ∧
      loadLoop geometry sector fuel ofs state =
        (true, { state with writeOffset := ofs, calls := state.calls ++ calls }) := by
  cases fuel with
  | zero =>
    refine ⟨[], by simp [ReadsInside], ?_⟩
    simp only [loadLoop, List.append_nil]
  | succ fuel =>
    have two : blockHeaderSize = 2 := rfl
    by_cases more : ofs < geometry.flashSectorSize - blockHeaderSize
    · have erased : slice (state.flash sector) ofs 2 = [0xFF, 0xFF] := by
        simp only [slice, List.range_succ, List.range_zero, List.map_cons, List.map_nil,
          List.nil_append, List.cons_append]
        rw [blank _ (by omega) (by omega), blank _ (by omega) (by omega)]
      refine ⟨[.read sector ofs 2],
        ReadsInside.cons _ _ _ (by omega) (by simp [ReadsInside]), ?_⟩
      have header : decodeBlockHeader [0xFF, 0xFF] = ⟨some .available, 2047, 7⟩ := by decide
      simp only [loadLoop, if_pos more]
      simp only [flashRead, two, erased, header, State.call, FlashCall.apply]
    · refine ⟨[], by simp [ReadsInside], ?_⟩
      simp only [loadLoop, if_neg more, List.append_nil]

theorem slice_log_cons {ofs : Nat} {record : Record} {rest : List Record}
    (log : slice image ofs (logSize (record :: rest)) = logBytes (record :: rest)) :
    slice image ofs 2 =
        encodeBlockHeader record.state record.blockNum record.numBlocksMinusOne ∧
      slice image (ofs + 2) record.data.length = record.data ∧
      slice image (ofs + (2 + record.data.length)) (logSize rest) = logBytes rest := by
  rw [logSize_cons, slice_add] at log
  obtain ⟨recordBytes, restBytes⟩ : slice image ofs (2 + record.data.length) = record.bytes ∧
      slice image (ofs + (2 + record.data.length)) (logSize rest) = logBytes rest :=
    List.append_inj log (by rw [slice_length, Record.bytes_length])
  rw [slice_add] at recordBytes
  obtain ⟨headerBytes, dataBytes⟩ := List.append_inj recordBytes (by simp)
  exact ⟨headerBytes, dataBytes, restBytes⟩

/-- Loading from the middle of a log replays the remaining records and stops where the log
ends. -/
theorem loadLoop_log (geometry : Geometry) (sector : Sector) (records : List Record)
    (fuel ofs : Nat) (state : State)
    (log : slice (state.flash sector) ofs (logSize records) = logBytes records)
    (blank : Blank (state.flash sector) (ofs + logSize records) geometry.flashSectorSize)
    (fits : ofs + logSize records ≤ geometry.flashSectorSize)
    (inRange : ∀ record ∈ records, record.InRange geometry.storageSize)
    (enough : geometry.flashSectorSize ≤ ofs + fuel) :
    ∃ calls, ReadsInside geometry calls ∧
      loadLoop geometry sector fuel ofs state =
        (true, { state with
          memBuffer := replay state.memBuffer records
          writeOffset := ofs + logSize records
          calls := state.calls ++ calls }) := by
  have roomy := geometry.room
  induction records generalizing fuel ofs state with
  | nil =>
    simp only [logSize_nil, Nat.add_zero] at blank fits ⊢
    exact loadLoop_blank geometry sector fuel ofs state blank fits
  | cons record rest inductionHypothesis =>
    obtain ⟨headerBytes, dataBytes, restBytes⟩ := slice_log_cons log
    rw [logSize_cons] at blank fits
    have length := record.dataLength
    cases fuel with
    | zero => omega
    | succ fuel =>
      have two : blockHeaderSize = 2 := rfl
      have more : ofs < geometry.flashSectorSize - blockHeaderSize := by omega
      have advance : ofs + ((record.numBlocksMinusOne + 1) * 8 + 2) =
          ofs + (2 + record.data.length) := by omega
      have recordInRange := inRange record List.mem_cons_self
      have restInRange : ∀ other ∈ rest, other.InRange geometry.storageSize :=
        fun other member => inRange other (List.mem_cons_of_mem _ member)
      have tail : ∀ next : State, next.flash = state.flash →
          next.memBuffer = record.load state.memBuffer →
          ∃ calls, ReadsInside geometry calls ∧
            loadLoop geometry sector fuel (ofs + ((record.numBlocksMinusOne + 1) * 8 + 2)) next =
              (true, { next with
                memBuffer := replay state.memBuffer (record :: rest)
                writeOffset := ofs + logSize (record :: rest)
                calls := next.calls ++ calls }) := by
        intro next sameFlash loaded
        obtain ⟨calls, reads, result⟩ := inductionHypothesis fuel
          (ofs + ((record.numBlocksMinusOne + 1) * 8 + 2)) next
          (by rw [sameFlash, advance]; exact restBytes)
          (by rw [sameFlash, advance, Nat.add_assoc]; exact blank)
          (by rw [advance]; omega) restInRange (by omega)
        refine ⟨calls, reads, ?_⟩
        rw [result, loaded, replay_cons, advance, logSize_cons, Nat.add_assoc]
      simp only [loadLoop, if_pos more]
      simp only [two, blockSize, flashRead, headerBytes,
        decode_encodeBlockHeader _ _ _ record.blockNumFits record.numBlocksFits]
      by_cases valid : record.valid = true
      · have dest : record.blockNum * 8 + (record.numBlocksMinusOne + 1) * 8 ≤
            geometry.storageSize := by
          rw [← length]
          exact recordInRange
        have source : slice (state.flash sector) (ofs + 2) ((record.numBlocksMinusOne + 1) * 8) =
            record.data := by
          rw [← length]
          exact dataBytes
        obtain ⟨calls, reads, result⟩ := tail
          ({ ((state.call (.read sector ofs 2)).call
                (.read sector (ofs + 2) ((record.numBlocksMinusOne + 1) * 8))) with
              memBuffer := put state.memBuffer (record.blockNum * 8) record.data }) rfl
          (by simp only [Record.load, if_pos valid, Record.start])
        refine ⟨.read sector ofs 2 ::
          .read sector (ofs + 2) ((record.numBlocksMinusOne + 1) * 8) :: calls,
          ReadsInside.cons _ _ _ (by omega) (ReadsInside.cons _ _ _ (by omega) reads), ?_⟩
        simp only [Record.state, valid, if_true, if_neg (Nat.not_lt.mpr dest)]
        simp only [State.call, FlashCall.apply] at result ⊢
        rw [source, result]
        simp only [List.append_assoc, List.cons_append, List.nil_append]
      · obtain ⟨calls, reads, result⟩ := tail (state.call (.read sector ofs 2)) rfl
          (by simp only [Record.load, if_neg valid]; rfl)
        refine ⟨.read sector ofs 2 :: calls, ReadsInside.cons _ _ _ (by omega) reads, ?_⟩
        simp only [Record.state, valid]
        simp only [State.call, FlashCall.apply] at result ⊢
        simp only [Bool.false_eq_true, if_false]
        rw [result]
        simp only [List.append_assoc, List.cons_append, List.nil_append]

theorem loadSector_holds {state : State} {sector : Sector} {sectorState : SectorState}
    (holds : Holds geometry (state.flash sector) sectorState records) :
    ∃ calls, ReadsInside geometry calls ∧
      loadSector geometry state sector =
        (true, { state with
          memBuffer := replay state.memBuffer records
          writeOffset := 4 + logSize records
          calls := state.calls ++ calls }) :=
  loadLoop_log geometry sector records geometry.flashSectorSize 4 state holds.log holds.blank
    holds.fits holds.inRange (by omega)

/-! ### Appending a record -/

theorem Holds.append (holds : Holds geometry image state records) (record : Record)
    (room : 4 + logSize records + (2 + record.data.length) ≤ geometry.flashSectorSize)
    (inRange : record.InRange geometry.storageSize) :
    Holds geometry (put image (4 + logSize records) record.bytes) state (records ++ [record]) := by
  have length := record.bytes_length
  refine ⟨?_, ?_, ?_, ?_, ?_⟩
  · rw [slice_put_disjoint _ _ _ _ _ (Or.inl (by omega))]
    exact holds.header
  · rw [logSize_append_single, slice_add,
      slice_put_disjoint _ _ _ _ _ (Or.inl (by omega)), holds.log, ← length, slice_put_self]
    simp [logBytes]
  · intro address low high
    rw [logSize_append_single] at low
    rw [put_outside _ _ _ _ (Or.inr (by omega))]
    exact holds.blank address (by omega) high
  · rw [logSize_append_single]
    omega
  · intro other member
    rcases List.mem_append.mp member with old | new
    · exact holds.inRange other old
    · rw [List.mem_singleton.mp new]
      exact inRange

theorem encodeBlockHeader_clears (blockNum numBlocksMinusOne index : Nat) (bound : index < 2) :
    (encodeBlockHeader .writing blockNum numBlocksMinusOne).getD index 0 &&&
        (encodeBlockHeader .valid blockNum numBlocksMinusOne).getD index 0 =
      (encodeBlockHeader .valid blockNum numBlocksMinusOne).getD index 0 := by
  have lowBit : ∀ byte : Fin 64, UInt8.ofNat (1 + 4 * byte.val) &&& UInt8.ofNat (4 * byte.val) =
      UInt8.ofNat (4 * byte.val) := by decide
  simp only [encodeBlockHeader, BlockState.value]
  interval_cases index
  · simp only [List.getD_cons_zero]
    have low := lowBit ⟨blockNum % 2 ^ 6, Nat.mod_lt _ (by decide)⟩
    rw [show (1 + 2 ^ 2 * (blockNum % 2 ^ 11) + 2 ^ 13 * (numBlocksMinusOne % 2 ^ 3)) % 2 ^ 8 =
        1 + 4 * (blockNum % 2 ^ 6) by omega,
      show (0 + 2 ^ 2 * (blockNum % 2 ^ 11) + 2 ^ 13 * (numBlocksMinusOne % 2 ^ 3)) % 2 ^ 8 =
        4 * (blockNum % 2 ^ 6) by omega]
    exact low
  · simp only [List.getD_cons_succ, List.getD_cons_zero]
    rw [show (1 + 2 ^ 2 * (blockNum % 2 ^ 11) + 2 ^ 13 * (numBlocksMinusOne % 2 ^ 3)) / 2 ^ 8 =
        (0 + 2 ^ 2 * (blockNum % 2 ^ 11) + 2 ^ 13 * (numBlocksMinusOne % 2 ^ 3)) / 2 ^ 8 by omega]
    exact UInt8.and_self

theorem appendRecord_images (image : Image) (start blockNum numBlocksMinusOne : Nat)
    (data : List UInt8) (blank : Blank image start (start + (2 + data.length))) :
    let header := fun state => encodeBlockHeader state blockNum numBlocksMinusOne
    let first := program image start (header .writing)
    let second := program first (start + 2) data
    first = put image start (header .writing ++ List.replicate data.length 0xFF) ∧
      second = put image start (header .writing ++ data) ∧
      program second start (header .valid) = put image start (header .valid ++ data) := by
  intro header first second
  have firstEq : first = put image start (header .writing) :=
    program_blank _ _ _ (blank.mono (le_refl _) (by simp [header]))
  have secondEq : second = put image start (header .writing ++ data) := by
    have tail : Blank first (start + 2) (start + 2 + data.length) := by
      intro address low high
      rw [firstEq, put_outside _ _ _ _ (Or.inr (by simp only [header, encodeBlockHeader_length]; omega))]
      exact blank address (by omega) (by omega)
    rw [← put_append, ← firstEq]
    exact program_blank _ _ _ tail
  refine ⟨?_, secondEq, ?_⟩
  · rw [firstEq, ← put_append]
    funext address
    by_cases inside : start + 2 ≤ address ∧ address < start + 2 + data.length
    · rw [put_outside _ _ _ _ (Or.inr (by simp only [header, encodeBlockHeader_length]; omega)),
        put_inside _ _ _ _ (by simp only [header, encodeBlockHeader_length]; omega)
          (by simp only [header, encodeBlockHeader_length, List.length_replicate]; omega),
        blank address (by omega) (by omega), List.getD_replicate]
      simp only [header, encodeBlockHeader_length]
      omega
    · rw [put_outside (put image start (header .writing)) _ _ _
        (by simp only [header, encodeBlockHeader_length, List.length_replicate]; omega)]
  · rw [secondEq, program_clears, put_put_cover]
    · rfl
    · intro index bound
      have two : index < 2 := bound
      rw [put_inside _ _ _ _ (Nat.le_add_right _ _)
          (by rw [List.length_append]; simp only [header, encodeBlockHeader_length]; omega),
        Nat.add_sub_cancel_left, List.getD_append _ _ _ _ two]
      exact encodeBlockHeader_clears blockNum numBlocksMinusOne index two

/-! ### Marking a sector -/

/-- One sector state can be written over another without setting a bit. -/
def SectorState.Clears (old new : SectorState) : Prop := old.byte &&& new.byte = new.byte

instance (old new : SectorState) : Decidable (old.Clears new) :=
  inferInstanceAs (Decidable (_ = _))

theorem Holds.mark_clears {old new : SectorState} (holds : Holds geometry image old records)
    (clears : old.Clears new) (index : Nat) (bound : index < 4) :
    image index &&& (encodeSectorHeader new).getD index 0 = (encodeSectorHeader new).getD index 0 := by
  have header := holds.header
  rw [slice_four] at header
  simp only [encodeSectorHeader, List.cons.injEq] at header
  obtain ⟨byte0, byte1, byte2, byte3, _⟩ := header
  simp only [Nat.zero_add] at byte1 byte2 byte3
  interval_cases index
  · rw [byte0]
    exact clears
  · rw [byte1]
    exact UInt8.and_self
  · rw [byte2]
    exact UInt8.and_self
  · rw [byte3]
    exact UInt8.and_self

theorem Holds.mark {old : SectorState} (holds : Holds geometry image old records)
    (new : SectorState) (clears : old.Clears new) :
    Holds geometry (program image 0 (encodeSectorHeader new)) new records := by
  have four : (encodeSectorHeader new).length = 4 := rfl
  rw [program_clears _ _ _ (by
    intro index bound
    rw [Nat.zero_add]
    exact holds.mark_clears clears index bound)]
  refine ⟨slice_put_self _ _ _, ?_, ?_, holds.fits, holds.inRange⟩
  · rw [slice_put_disjoint _ _ _ _ _ (Or.inr (by omega))]
    exact holds.log
  · intro address low high
    rw [put_outside _ _ _ _ (Or.inr (by omega))]
    exact holds.blank address low high

theorem holds_erased (geometry : Geometry) :
    Holds geometry (program (fun _ => 0xFF) 0 (encodeSectorHeader .available)) .available [] := by
  have roomy := geometry.room
  have four : (encodeSectorHeader .available).length = 4 := rfl
  rw [program_blank _ _ _ (fun _ _ _ => rfl)]
  refine ⟨slice_put_self _ _ _, rfl, ?_, ?_, ?_⟩
  · intro address low _
    rw [put_outside _ _ _ _ (Or.inr (by rw [logSize_nil] at low; omega))]
  · rw [logSize_nil]
    omega
  · intro record member
    exact absurd member List.not_mem_nil

/-- The state a sector's header shows, if the header is good. -/
def sectorStateOf (image : Image) : Option SectorState :=
  if headerSignature (slice image 0 sectorHeaderSize) ≠ signature then none
  else headerState (slice image 0 sectorHeaderSize)

theorem Holds.signature_eq (holds : Holds geometry image state records) :
    headerSignature (slice image 0 sectorHeaderSize) = signature := by
  rw [sectorHeaderSize, holds.header]
  cases state <;> decide

theorem Holds.state_eq (holds : Holds geometry image state records) :
    headerState (slice image 0 sectorHeaderSize) = some state := by
  rw [sectorHeaderSize, holds.header]
  cases state <;> decide

theorem Holds.sectorStateOf_eq (holds : Holds geometry image state records) :
    sectorStateOf image = some state := by
  rw [sectorStateOf, if_neg (not_not.mpr holds.signature_eq), holds.state_eq]

end Urus.FlashStorage
