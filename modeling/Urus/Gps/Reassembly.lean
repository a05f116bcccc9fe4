/-
This file proves what the GPS library injects when the fragments of a series of blocks
arrive in any order, with losses and repetitions. The buffer is a gatherer of pieces: it
holds pieces of one block, and is complete when it has all of them.

A block is injected as it was sent, with one exception. When the buffer has all four
fragments and the last one to arrive is a full one, four full fragments are assumed,
although the short one may have arrived before. Then zero bytes up to the full 720 are
injected behind the block.
-/

import Urus.Gps.Model
import Urus.Lib.Gather

namespace Urus.Gps

open Image Gather

/-! ### Sets of fragments -/

/-- The fragments whose bits are set. -/
def fragments (received : BitVec 4) : Finset Nat :=
  (Finset.range 4).filter fun fragment => received.getLsbD fragment = true

theorem fragments_zero : fragments 0 = ∅ := by decide

theorem fragments_or : ∀ received : BitVec 4, ∀ fragment < 4,
    fragments (received ||| fragmentBit fragment) = insert fragment (fragments received) := by
  decide

theorem and_fragmentBit : ∀ received : BitVec 4, ∀ fragment < 4,
    received &&& fragmentBit fragment ≠ 0 ↔ fragment ∈ fragments received := by
  decide

theorem fragments_eq_range : ∀ received : BitVec 4, ∀ count ≤ 4,
    received.toNat = 1 <<< count - 1 ↔ fragments received = Finset.range count := by
  decide

theorem fragments_eq_four : ∀ received : BitVec 4,
    received = 0x0F ↔ fragments received = Finset.range 4 := by
  decide

theorem fragments_eq_empty : ∀ received : BitVec 4, received = 0 ↔ fragments received = ∅ := by
  decide

/-! ### The buffer and the pieces that it holds -/

/-- Among the pieces of the block is the one that tells their number. -/
def Block.Told (block : Block) (pieces : Finset Nat) : Prop :=
  block.bytes.length < 4 * fieldDataLen ∧ block.count - 1 ∈ pieces

instance (block : Block) (pieces : Finset Nat) : Decidable (block.Told pieces) :=
  inferInstanceAs (Decidable (_ ∧ _))

/-- The buffer has these pieces of the block and nothing else. -/
structure Filled (block : Block) (pieces : Finset Nat) (buffer : RtcmBuffer) : Prop where
  inside : pieces ⊆ Finset.range block.count
  received : fragments buffer.fragmentsReceived = pieces
  count : buffer.fragmentCount = if block.Told pieces then block.count else 0
  total : buffer.totalLength = if block.Told pieces then block.bytes.length else 0
  bytes : ∀ address < 4 * fieldDataLen, buffer.buffer address =
    if address / fieldDataLen ∈ pieces then block.bytes.getD address 0 else 0

variable {block : Block} {pieces : Finset Nat} {buffer : RtcmBuffer} {index : Nat}
  {packet : Packet}

theorem filled_zero (block : Block) : Filled block ∅ RtcmBuffer.zero where
  inside := Finset.empty_subset _
  received := fragments_zero
  count := by rw [if_neg (fun told => absurd told.2 (Finset.notMem_empty _))]; rfl
  total := by rw [if_neg (fun told => absurd told.2 (Finset.notMem_empty _))]; rfl
  bytes := fun _ _ => by rw [if_neg (Finset.notMem_empty _)]; rfl

theorem Carries.lt_four (carries : Carries block index packet) : index < 4 :=
  lt_of_lt_of_le carries.inside block.count_le

theorem Carries.copied (carries : Carries block index packet) (filled : Filled block pieces buffer)
    {address : Nat} (inside : address < 4 * fieldDataLen) :
    (buffer.addFragment packet).buffer address =
      if address / fieldDataLen ∈ insert index pieces then block.bytes.getD address 0 else 0 := by
  have place : address / fieldDataLen = index ↔
      fieldDataLen * index ≤ address ∧ address < fieldDataLen * index + fieldDataLen := by
    rw [fieldDataLen]
    omega
  have length : (block.piece index).length = packet.len.toNat := carries.len.symm
  rw [RtcmBuffer.addFragment]
  dsimp only
  rw [carries.fragment, carries.data]
  by_cases here : address / fieldDataLen = index
  · rw [here, if_pos (Finset.mem_insert_self _ _)]
    obtain ⟨low, high⟩ := place.mp here
    by_cases covered : address < fieldDataLen * index + (block.piece index).length
    · rw [put_inside _ _ _ _ low covered, Block.piece_getD (by omega)]
      congr 1
      omega
    · -- Behind a piece that is not full the block has ended.
      have short : (block.piece index).length < fieldDataLen := by omega
      have last := (Block.piece_short_iff carries.inside).mp short
      have ended := Block.length_eq last.1
      rw [put_outside _ _ _ _ (by omega), filled.bytes address inside,
        List.getD_eq_default _ _ (by omega), ite_self]
  · rw [put_outside _ _ _ _ (by
      rw [Block.piece_length]
      omega), filled.bytes address inside]
    simp only [Finset.mem_insert, here, false_or]

theorem Carries.received (carries : Carries block index packet)
    (filled : Filled block pieces buffer) :
    fragments (buffer.addFragment packet).fragmentsReceived = insert index pieces := by
  rw [RtcmBuffer.addFragment]
  dsimp only
  rw [carries.fragment, fragments_or _ _ carries.lt_four, filled.received]

theorem Block.count_four (filled : Filled block pieces buffer) (inside : index < block.count)
    (all : insert index pieces = Finset.range 4) : block.count = 4 := by
  have member : 3 ∈ insert index pieces := by
    rw [all]
    decide
  have bound : 3 < block.count := by
    rcases Finset.mem_insert.mp member with rfl | old
    · exact inside
    · exact Finset.mem_range.mp (filled.inside old)
  have upper := block.count_le
  omega

theorem Carries.counted_short (carries : Carries block index packet)
    (filled : Filled block pieces buffer) (short : packet.len.toNat < fieldDataLen) :
    Filled block (insert index pieces) ((buffer.addFragment packet).countFragments packet) := by
  have last := (Block.piece_short_iff carries.inside).mp (carries.len ▸ short)
  have told : block.Told (insert index pieces) :=
    ⟨last.2, by rw [← last.1, Nat.add_sub_cancel]; exact Finset.mem_insert_self _ _⟩
  rw [RtcmBuffer.countFragments, if_pos short]
  refine ⟨?_, carries.received filled, ?_, ?_, fun address inside => carries.copied filled inside⟩
  · exact Finset.insert_subset (Finset.mem_range.mpr carries.inside) filled.inside
  · rw [if_pos told, carries.fragment]
    exact last.1
  · rw [if_pos told, carries.fragment, carries.len]
    exact (Block.length_eq last.1).symm

theorem Carries.counted_four (carries : Carries block index packet)
    (filled : Filled block pieces buffer) (long : ¬ packet.len.toNat < fieldDataLen)
    (all : insert index pieces = Finset.range 4) :
    (buffer.addFragment packet).countFragments packet =
      { buffer.addFragment packet with
        fragmentCount := 4
        totalLength := fieldDataLen * 4 } := by
  have received : (buffer.addFragment packet).fragmentsReceived = 0x0F :=
    (fragments_eq_four _).mpr ((carries.received filled).trans all)
  rw [RtcmBuffer.countFragments, if_neg long, if_pos received]

/-- Any other full piece tells nothing about the number of the pieces. -/
theorem Carries.counted_full (carries : Carries block index packet)
    (filled : Filled block pieces buffer) (long : ¬ packet.len.toNat < fieldDataLen)
    (missing : insert index pieces ≠ Finset.range 4) :
    Filled block (insert index pieces) ((buffer.addFragment packet).countFragments packet) := by
  have notLast : ¬ (index + 1 = block.count ∧ block.bytes.length < 4 * fieldDataLen) :=
    fun last => long (carries.len ▸ (Block.piece_short_iff carries.inside).mpr last)
  have told : block.Told (insert index pieces) ↔ block.Told pieces := by
    have positive := block.count_pos
    rw [Block.Told, Block.Told, Finset.mem_insert]
    refine and_congr_right fun short => or_iff_right fun same => notLast ⟨by omega, short⟩
  have received : ¬ (buffer.addFragment packet).fragmentsReceived = 0x0F :=
    fun full => missing ((carries.received filled).symm.trans ((fragments_eq_four _).mp full))
  rw [RtcmBuffer.countFragments, if_neg long, if_neg received]
  refine ⟨?_, carries.received filled, ?_, ?_, fun address inside => carries.copied filled inside⟩
  · exact Finset.insert_subset (Finset.mem_range.mpr carries.inside) filled.inside
  · simp only [told]
    exact filled.count
  · simp only [told]
    exact filled.total

theorem Filled.complete_iff (filled : Filled block pieces buffer) :
    buffer.Complete ↔ block.Told pieces ∧ pieces = Finset.range block.count := by
  have positive := block.count_pos
  rw [RtcmBuffer.Complete, filled.count]
  by_cases told : block.Told pieces
  · rw [if_pos told, fragments_eq_range _ _ block.count_le, filled.received]
    exact and_congr_left fun _ => ⟨fun _ => told, fun _ => by omega⟩
  · rw [if_neg told]
    exact ⟨fun both => absurd rfl both.1, fun both => absurd both.1 told⟩

/-- The block as it is injected when the piece completes it: four pieces of which a full one is the
last to arrive are taken to be full. -/
def Block.delivered (block : Block) (index : Nat) : List UInt8 :=
  if block.count = 4 ∧ (block.piece index).length = fieldDataLen then block.padded else block.bytes

theorem slice_whole {image : Image} {data : List UInt8} {length : Nat}
    (same : ∀ address < length, image address = data.getD address 0) (fits : data.length ≤ length) :
    slice image 0 length = data ++ List.replicate (length - data.length) 0 := by
  refine List.ext_getElem (by simp; omega) fun address inside _ => ?_
  have bound : address < length := by simpa using inside
  have byte := same address bound
  simp only [slice, List.getElem_map, List.getElem_range, Nat.zero_add, byte,
    List.getElem_append, List.getElem_replicate, List.getD]
  split
  · rename_i present
    rw [List.getElem?_eq_getElem present, Option.getD_some]
  · rename_i absent
    rw [List.getElem?_eq_none (by omega), Option.getD_none]

theorem Block.place_mem (block : Block) {address : Nat} (inside : address < block.bytes.length) :
    address / fieldDataLen ∈ Finset.range block.count := by
  have fits := block.fits
  rw [Finset.mem_range, Block.count]
  rw [fieldDataLen] at *
  omega

theorem Filled.whole (filled : Filled block (Finset.range block.count) buffer) {address : Nat}
    (inside : address < 4 * fieldDataLen) :
    buffer.buffer address = block.bytes.getD address 0 := by
  rw [filled.bytes address inside]
  by_cases present : address < block.bytes.length
  · rw [if_pos (block.place_mem present)]
  · rw [List.getD_eq_default _ _ (by omega), ite_self]

theorem Filled.injected (filled : Filled block (Finset.range block.count) buffer)
    (told : block.Told (Finset.range block.count)) :
    buffer.Complete ∧ slice buffer.buffer 0 buffer.totalLength = block.bytes := by
  refine ⟨filled.complete_iff.mpr ⟨told, rfl⟩, ?_⟩
  have fits := block.fits
  rw [filled.total, if_pos told,
    slice_whole (fun address inside => filled.whole (by omega)) (Nat.le_refl _), Nat.sub_self]
  exact List.append_nil _

theorem Carries.counted (carries : Carries block index packet)
    (filled : Filled block pieces buffer) :
    let counted := (buffer.addFragment packet).countFragments packet
    if insert index pieces = Finset.range block.count then
      counted.Complete ∧ slice counted.buffer 0 counted.totalLength = block.delivered index
    else ¬ counted.Complete ∧ Filled block (insert index pieces) counted := by
  have positive := block.count_pos
  have upper := block.count_le
  dsimp only
  by_cases short : packet.len.toNat < fieldDataLen
  · have counted := carries.counted_short filled short
    have last := (Block.piece_short_iff carries.inside).mp (carries.len ▸ short)
    have plain : block.delivered index = block.bytes := by
      rw [Block.delivered, if_neg]
      rintro ⟨-, full⟩
      rw [carries.len, full] at short
      exact absurd short (lt_irrefl _)
    split
    · rename_i all
      rw [all] at counted
      rw [plain]
      exact counted.injected ⟨last.2, Finset.mem_range.mpr (by omega)⟩
    · rename_i missing
      exact ⟨fun complete => missing (counted.complete_iff.mp complete).2, counted⟩
  · have full : (block.piece index).length = fieldDataLen := by
      have bound := block.piece_length index
      have length := carries.len
      omega
    by_cases four : insert index pieces = Finset.range 4
    · have count := Block.count_four filled carries.inside four
      have result := carries.counted_four filled short four
      rw [if_pos (by rw [four, count]), Block.delivered, if_pos ⟨count, full⟩, result]
      refine ⟨⟨Nat.succ_ne_zero 3, ?_⟩, ?_⟩
      · exact (fragments_eq_range _ 4 (Nat.le_refl 4)).mpr ((carries.received filled).trans four)
      · refine slice_whole (fun address (inside : address < fieldDataLen * 4) => ?_)
          (by rw [Nat.mul_comm]; exact block.fits)
        have early : address < 4 * fieldDataLen := by rw [Nat.mul_comm]; exact inside
        have copied := carries.copied filled early
        rw [four] at copied
        refine copied.trans (if_pos (Finset.mem_range.mpr ?_))
        rw [fieldDataLen] at *
        omega
    · have counted := carries.counted_full filled short four
      split
      · rename_i all
        have few : block.count < 4 := by
          refine lt_of_le_of_ne upper fun same => four ?_
          rw [all, same]
        have told : block.Told (Finset.range block.count) := by
          refine ⟨?_, Finset.mem_range.mpr (by omega)⟩
          rw [Block.count] at few
          rw [fieldDataLen] at *
          omega
        rw [all] at counted
        rw [Block.delivered, if_neg fun both => absurd both.1 (by omega)]
        exact counted.injected told
      · rename_i missing
        exact ⟨fun complete => missing (counted.complete_iff.mp complete).2, counted⟩

/-! ### The buffer as a gatherer -/

section Series

variable {Index : Type} (series : Index → Block)

/-- All pieces of a block of the series. -/
def wholeOf (name : Index) : Finset Nat := Finset.range (series name).count

/-- The buffer has what the gatherer holds. -/
def Shows (held : Option (Index × Finset Nat)) (buffer : RtcmBuffer) : Prop :=
  match held with
  | none => buffer = RtcmBuffer.zero
  | some (name, pieces) => Filled (series name) pieces buffer ∧ pieces ≠ ∅ ∧
      buffer.sequence = (series name).sequence

variable {series} {held : Option (Index × Finset Nat)} {name : Index}

theorem Shows.conflicts_iff {other : Index} (shows : Shows series (some (other, pieces)) buffer)
    (carries : Carries (series name) index packet)
    (alone : (series other).sequence = (series name).sequence → other = name) :
    buffer.Conflicts packet ↔ ¬ (other = name ∧ index ∉ pieces) := by
  obtain ⟨filled, nonempty, sequence⟩ := shows
  have received : buffer.fragmentsReceived ≠ 0 := fun none =>
    nonempty (filled.received.symm.trans ((fragments_eq_empty _).mp none))
  have present : buffer.fragmentsReceived &&& fragmentBit packet.fragment ≠ 0 ↔ index ∈ pieces := by
    rw [carries.fragment, and_fragmentBit _ _ carries.lt_four, filled.received]
  have differs : buffer.sequence ≠ packet.sequence ↔ other ≠ name := by
    rw [sequence, carries.sequence]
    exact not_congr ⟨alone, fun same => by rw [same]⟩
  rw [RtcmBuffer.Conflicts, present, differs, and_iff_right received, not_and_or, not_not]

variable [DecidableEq Index]

theorem Shows.cleared (shows : Shows series held buffer)
    (carries : Carries (series name) index packet)
    (alone : ∀ other pieces, held = some (other, pieces) →
      (series other).sequence = (series name).sequence → other = name) :
    ∃ pieces, insert index pieces = joined held (name, index) ∧
      Filled (series name) pieces (if buffer.Conflicts packet then RtcmBuffer.zero else buffer) := by
  cases held with
  | none =>
    have empty : buffer = RtcmBuffer.zero := shows
    refine ⟨∅, rfl, ?_⟩
    rw [empty, ite_self]
    exact filled_zero _
  | some pair =>
    obtain ⟨other, pieces⟩ := pair
    have conflicts := shows.conflicts_iff carries (alone other pieces rfl)
    by_cases same : other = name ∧ index ∉ pieces
    · rw [joined, if_pos same, if_neg fun conflict => conflicts.mp conflict same]
      obtain ⟨rfl, fresh⟩ := same
      exact ⟨pieces, rfl, shows.1⟩
    · rw [joined, if_neg same, if_pos (conflicts.mpr same)]
      exact ⟨∅, rfl, filled_zero _⟩

/-- A piece is handled as by a gatherer, and a block that it completes is injected. -/
theorem Shows.reassemble (shows : Shows series held buffer)
    (carries : Carries (series name) index packet)
    (alone : ∀ other pieces, held = some (other, pieces) →
      (series other).sequence = (series name).sequence → other = name) :
    Shows series (gather (wholeOf series) held (name, index)) (buffer.reassemble packet).1 ∧
      (buffer.reassemble packet).2 =
        if joined held (name, index) = wholeOf series name then
          some ((series name).delivered index)
        else none := by
  obtain ⟨pieces, grown, filled⟩ := shows.cleared carries alone
  have counted := carries.counted filled
  rw [gather, ← grown, wholeOf]
  rw [RtcmBuffer.reassemble]
  dsimp only at counted ⊢
  by_cases all : insert index pieces = Finset.range (series name).count
  · rw [if_pos all] at counted
    rw [if_pos all, if_pos all, if_pos counted.1]
    exact ⟨rfl, congrArg some counted.2⟩
  · rw [if_neg all] at counted
    rw [if_neg all, if_neg all, if_neg counted.1]
    refine ⟨⟨counted.2, Finset.insert_ne_empty _ _, ?_⟩, rfl⟩
    rw [RtcmBuffer.countFragments]
    split_ifs <;> exact carries.sequence

/-- A full fragment that makes four of which the short one is there already. -/
def RtcmBuffer.Overrun (buffer : RtcmBuffer) (packet : Packet) : Prop :=
  ¬ buffer.Conflicts packet ∧ buffer.fragmentCount ≠ 0 ∧
    buffer.fragmentsReceived ||| fragmentBit packet.fragment = 0x0F ∧
    packet.len.toNat = fieldDataLen

/-- A piece overruns exactly where it completes a block of four pieces whose last one is short and
came earlier. -/
theorem Shows.overrun_iff (shows : Shows series held buffer)
    (carries : Carries (series name) index packet)
    (alone : ∀ other pieces, held = some (other, pieces) →
      (series other).sequence = (series name).sequence → other = name) :
    buffer.Overrun packet ↔ joined held (name, index) = wholeOf series name ∧
      (series name).count = 4 ∧ ((series name).piece index).length = fieldDataLen ∧
      (series name).bytes.length < 4 * fieldDataLen := by
  have length := carries.len
  cases held with
  | none =>
    have empty : buffer = RtcmBuffer.zero := shows
    refine ⟨fun overrun => absurd (by rw [empty]; rfl) overrun.2.1, ?_⟩
    rintro ⟨all, count, -, -⟩
    have singleton : ({index} : Finset Nat) = Finset.range 4 := by
      rw [← count]
      exact all
    exact absurd (congrArg Finset.card singleton) (by simp)
  | some pair =>
    obtain ⟨other, pieces⟩ := pair
    have conflicts := shows.conflicts_iff carries (alone other pieces rfl)
    obtain ⟨filled, -, -⟩ := shows
    have four : buffer.fragmentsReceived ||| fragmentBit packet.fragment = 0x0F ↔
        insert index pieces = Finset.range 4 := by
      rw [fragments_eq_four, carries.fragment, fragments_or _ _ carries.lt_four, filled.received]
    constructor
    · rintro ⟨agrees, counted, full, long⟩
      obtain ⟨rfl, fresh⟩ := not_not.mp (mt conflicts.mpr agrees)
      have told : (series other).Told pieces := by
        by_contra untold
        exact counted (filled.count.trans (if_neg untold))
      have count := Block.count_four filled carries.inside (four.mp full)
      refine ⟨?_, count, by rw [← length, long], told.1⟩
      rw [joined, if_pos ⟨rfl, fresh⟩, four.mp full, wholeOf, count]
    · rintro ⟨all, count, full, short⟩
      rw [wholeOf, count] at all
      have same : other = name ∧ index ∉ pieces := by
        by_contra different
        rw [joined, if_neg different] at all
        exact absurd (congrArg Finset.card all) (by simp)
      rw [joined, if_pos same] at all
      have agrees : ¬ buffer.Conflicts packet := fun conflict => conflicts.mp conflict same
      obtain ⟨rfl, -⟩ := same
      have told : (series other).Told pieces := by
        refine ⟨short, ?_⟩
        have last : 3 ∈ insert index pieces := by
          rw [all]
          decide
        rw [count]
        refine (Finset.mem_insert.mp last).resolve_left fun here => ?_
        have ends := (Block.piece_short_iff carries.inside).mpr ⟨by rw [count, ← here], short⟩
        omega
      refine ⟨agrees, ?_, four.mpr all, by rw [length, full]⟩
      rw [filled.count, if_pos told, count]
      decide

end Series

end Urus.Gps
