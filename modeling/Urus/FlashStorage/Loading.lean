/-
This file proves what loading a sector does on any flash. The loader goes from one record header
to the next; what it finds at a position is a function of the sector alone. Every record takes
at least ten bytes, so that the loader ends.

The loader checks that a header fits into the sector and that the bytes of a record fit into the
storage, but not that the record fits into the sector. It stays inside the sector exactly if
every record that it comes to does. Offsets are 32 bit numbers in the source; a sector is far
from 2³² bytes, so that no sum wraps.
-/

import Urus.FlashStorage.Log

namespace Urus.FlashStorage

open Image

/-! ### What the loader finds -/

/-- What the loader finds at a position: the end of the log, an unfinished record, a record with the
place of its bytes and the bytes, or something that is no record. The last number of a record is
where it ends. -/
inductive Found
  | ended
  | unfinished (next : Nat)
  | record (blockOfs : Nat) (data : List UInt8) (next : Nat)
  | invalid
  deriving DecidableEq

def found (geometry : Geometry) (image : Image) (ofs : Nat) : Found :=
  if ofs < geometry.flashSectorSize - blockHeaderSize then
    let header := decodeBlockHeader (slice image ofs blockHeaderSize)
    let blockNbytes := (header.numBlocksMinusOne + 1) * blockSize
    match header.state with
    | some .available => .ended
    | some .writing => .unfinished (ofs + (blockNbytes + blockHeaderSize))
    | some .valid =>
      if header.blockNum * blockSize + blockNbytes > geometry.storageSize then .invalid
      else
        .record (header.blockNum * blockSize) (slice image (ofs + blockHeaderSize) blockNbytes)
          (ofs + (blockNbytes + blockHeaderSize))
    | none => .invalid
  else .ended

/-- Where the record ends that was found. -/
def Found.next : Found → Option Nat
  | .unfinished next => some next
  | .record _ _ next => some next
  | _ => none

/-- The positions that the loader comes to. -/
inductive Reached (geometry : Geometry) (image : Image) : Nat → Prop
  | first : Reached geometry image sectorHeaderSize
  | next {ofs next : Nat} (reached : Reached geometry image ofs)
      (goesOn : (found geometry image ofs).next = some next) : Reached geometry image next

variable {geometry : Geometry} {sector : Sector} {image : Image}

theorem found_behind {ofs : Nat} (behind : ¬ ofs < geometry.flashSectorSize - blockHeaderSize) :
    found geometry image ofs = .ended :=
  if_neg behind

theorem found_unfinished {ofs next : Nat} (is : found geometry image ofs = .unfinished next) :
    ofs + 2 < geometry.flashSectorSize ∧ ofs + 10 ≤ next := by
  by_cases inside : ofs < geometry.flashSectorSize - blockHeaderSize
  · rw [found, if_pos inside] at is
    dsimp only at is
    simp only [blockHeaderSize] at inside
    refine ⟨by omega, ?_⟩
    split at is
    · cases is
    · have same := Found.unfinished.inj is
      simp only [blockHeaderSize, blockSize] at same
      omega
    · split at is <;> cases is
    · cases is
  · cases (found_behind inside).symm.trans is

theorem found_record {ofs next blockOfs : Nat} {data : List UInt8}
    (is : found geometry image ofs = .record blockOfs data next) :
    ofs + 2 < geometry.flashSectorSize ∧ ofs + 10 ≤ next ∧
      blockOfs + data.length ≤ geometry.storageSize ∧ next = ofs + 2 + data.length := by
  by_cases inside : ofs < geometry.flashSectorSize - blockHeaderSize
  · rw [found, if_pos inside] at is
    dsimp only at is
    simp only [blockHeaderSize] at inside
    refine ⟨by omega, ?_⟩
    split at is
    · exact nomatch is
    · exact nomatch is
    · split at is
      · exact nomatch is
      · rename_i range
        obtain ⟨ofsSame, dataSame, nextSame⟩ := Found.record.inj is
        rw [← ofsSame, ← dataSame, ← nextSame, slice_length]
        refine ⟨?_, not_lt.mp range, ?_⟩
        all_goals
          simp only [blockHeaderSize, blockSize]
          omega
    · exact nomatch is
  · exact nomatch (found_behind inside).symm.trans is

/-- The record found at a position begins in the sector and takes ten bytes or more. -/
theorem found_next {ofs next : Nat} (goesOn : (found geometry image ofs).next = some next) :
    ofs + 2 < geometry.flashSectorSize ∧ ofs + 10 ≤ next := by
  cases is : found geometry image ofs with
  | ended =>
    rw [is] at goesOn
    exact nomatch goesOn
  | invalid =>
    rw [is] at goesOn
    exact nomatch goesOn
  | unfinished stop =>
    rw [is] at goesOn
    cases goesOn
    exact found_unfinished is
  | record blockOfs data stop =>
    rw [is] at goesOn
    cases goesOn
    exact ⟨(found_record is).1, (found_record is).2.1⟩

/-! ### One round of the loader -/

/-- One round of the loader does what it finds. -/
theorem loadLoop_round (geometry : Geometry) (sector : Sector) (ofs : Nat) (state : State) :
    match found geometry (state.flash sector) ofs with
    | .ended => ∃ calls, ReadsInside geometry calls ∧ ∀ fuel,
        loadLoop geometry sector (fuel + 1) ofs state =
          (true, { state with writeOffset := ofs, calls := state.calls ++ calls })
    | .invalid => ∃ calls, ReadsInside geometry calls ∧ ∀ fuel,
        loadLoop geometry sector (fuel + 1) ofs state =
          (false, { state with calls := state.calls ++ calls })
    | .unfinished next => ∀ fuel, loadLoop geometry sector (fuel + 1) ofs state =
        loadLoop geometry sector fuel next (state.call (.read sector ofs 2))
    | .record blockOfs data next => ∀ fuel, loadLoop geometry sector (fuel + 1) ofs state =
        loadLoop geometry sector fuel next
          { (state.call (.read sector ofs 2)).call (.read sector (ofs + 2) data.length) with
            memBuffer := put state.memBuffer blockOfs data } := by
  by_cases inside : ofs < geometry.flashSectorSize - blockHeaderSize
  · have two : blockHeaderSize = 2 := rfl
    have read : ReadsInside geometry [.read sector ofs 2] :=
      ReadsInside.cons _ _ _ (by omega) (fun _ member => nomatch member)
    have round : ∀ fuel, loadLoop geometry sector (fuel + 1) ofs state = _ :=
      fun fuel => by rw [loadLoop, if_pos inside]
    rw [found, if_pos inside]
    dsimp only [flashRead] at round ⊢
    generalize decodeBlockHeader (slice (state.flash sector) ofs blockHeaderSize) = header at round ⊢
    cases kind : header.state with
    | none => exact ⟨_, read, fun fuel => (round fuel).trans (by rw [kind]; rfl)⟩
    | some blockState =>
      cases blockState with
      | available => exact ⟨_, read, fun fuel => (round fuel).trans (by rw [kind]; rfl)⟩
      | writing => exact fun fuel => (round fuel).trans (by rw [kind]; rfl)
      | valid =>
        simp only [kind] at round
        by_cases range : header.blockNum * blockSize + (header.numBlocksMinusOne + 1) * blockSize >
            geometry.storageSize
        · simp only [if_pos range] at round ⊢
          exact ⟨_, read, round⟩
        · simp only [if_neg range, slice_length] at round ⊢
          exact round
  · rw [found_behind inside]
    have none : ReadsInside geometry [] := fun _ member => nomatch member
    refine ⟨[], none, fun fuel => ?_⟩
    rw [loadLoop, if_neg inside, List.append_nil]

theorem loadLoop_stable (geometry : Geometry) (sector : Sector) (rounds fuel ofs : Nat)
    (state : State) (enough : geometry.flashSectorSize ≤ ofs + fuel) :
    loadLoop geometry sector (fuel + rounds) ofs state = loadLoop geometry sector fuel ofs state := by
  induction fuel generalizing ofs state with
  | zero =>
    cases rounds with
    | zero => rfl
    | succ rounds =>
      rw [Nat.zero_add, loadLoop, loadLoop, if_neg (by omega)]
  | succ fuel inductionHypothesis =>
    have round := loadLoop_round geometry sector ofs state
    rw [Nat.succ_add]
    cases is : found geometry (state.flash sector) ofs with
    | ended =>
      rw [is] at round
      obtain ⟨calls, -, same⟩ := round
      rw [same, same]
    | invalid =>
      rw [is] at round
      obtain ⟨calls, -, same⟩ := round
      rw [same, same]
    | unfinished next =>
      rw [is] at round
      have further := (found_unfinished is).2
      rw [round, round]
      exact inductionHypothesis _ _ (by omega)
    | record blockOfs data next =>
      rw [is] at round
      have further := (found_record is).2.1
      rw [round, round]
      exact inductionHypothesis _ _ (by omega)

/-! ### Inside the sector -/

/-- What loading a sector must do: it reads inside the sector and stores inside the RAM copy, more
rounds than the sector has bytes change nothing, and the log that it accepts ends in the sector. -/
structure LoadSafe (geometry : Geometry) (state : State) (sector : Sector) : Prop where
  reads : ∃ reads, (loadSector geometry state sector).2.calls = state.calls ++ reads ∧
    ReadsInside geometry reads
  stores : ∀ address, geometry.storageSize ≤ address →
    (loadSector geometry state sector).2.memBuffer address = state.memBuffer address
  ends : ∀ rounds, loadLoop geometry sector (geometry.flashSectorSize + rounds) sectorHeaderSize
    state = loadSector geometry state sector
  offset : (loadSector geometry state sector).1 = true →
    (loadSector geometry state sector).2.writeOffset ≤ geometry.flashSectorSize

/-- Every record that the loader comes to ends in the sector. -/
def RecordsInside (geometry : Geometry) (image : Image) : Prop :=
  ∀ ofs, Reached geometry image ofs → ofs ≤ geometry.flashSectorSize

theorem loadLoop_frame (geometry : Geometry) (sector : Sector) (fuel ofs : Nat) (state : State) :
    (∃ reads, (loadLoop geometry sector fuel ofs state).2.calls = state.calls ++ reads) ∧
      ∀ address, geometry.storageSize ≤ address →
        (loadLoop geometry sector fuel ofs state).2.memBuffer address = state.memBuffer address := by
  induction fuel generalizing ofs state with
  | zero => exact ⟨⟨[], (List.append_nil _).symm⟩, fun _ _ => rfl⟩
  | succ fuel inductionHypothesis =>
    have round := loadLoop_round geometry sector ofs state
    cases is : found geometry (state.flash sector) ofs with
    | ended =>
      rw [is] at round
      obtain ⟨calls, -, same⟩ := round
      rw [same]
      exact ⟨⟨calls, rfl⟩, fun _ _ => rfl⟩
    | invalid =>
      rw [is] at round
      obtain ⟨calls, -, same⟩ := round
      rw [same]
      exact ⟨⟨calls, rfl⟩, fun _ _ => rfl⟩
    | unfinished next =>
      rw [is] at round
      rw [round]
      obtain ⟨⟨reads, more⟩, stores⟩ := inductionHypothesis next
        (state.call (.read sector ofs 2))
      exact ⟨⟨.read sector ofs 2 :: reads, by rw [more]; exact List.append_assoc _ _ _⟩, stores⟩
    | record blockOfs data next =>
      rw [is] at round
      rw [round]
      have range := (found_record is).2.2.1
      obtain ⟨⟨reads, more⟩, stores⟩ := inductionHypothesis next
        { (state.call (.read sector ofs 2)).call (.read sector (ofs + 2) data.length) with
          memBuffer := put state.memBuffer blockOfs data }
      refine ⟨⟨.read sector ofs 2 :: .read sector (ofs + 2) data.length :: reads, ?_⟩,
        fun address outside => (stores address outside).trans ?_⟩
      · rw [more]
        simp only [State.call, List.append_assoc, List.cons_append, List.nil_append]
      · exact put_outside _ _ _ _ (Or.inr (by omega))

/-- On the way through records that end in the sector, the reads stay inside it. -/
theorem loadLoop_inside (inside : RecordsInside geometry image) (fuel ofs : Nat) (state : State)
    (same : state.flash sector = image) (reached : Reached geometry image ofs) :
    ∃ reads, (loadLoop geometry sector fuel ofs state).2.calls = state.calls ++ reads ∧
      ReadsInside geometry reads ∧
      ((loadLoop geometry sector fuel ofs state).1 = true →
        (loadLoop geometry sector fuel ofs state).2.writeOffset ≤ geometry.flashSectorSize) := by
  have none : ReadsInside geometry [] := fun _ member => nomatch member
  induction fuel generalizing ofs state with
  | zero => exact ⟨[], (List.append_nil _).symm, none, fun _ => inside ofs reached⟩
  | succ fuel inductionHypothesis =>
    have round := loadLoop_round geometry sector ofs state
    cases is : found geometry (state.flash sector) ofs with
    | ended =>
      rw [is] at round
      obtain ⟨calls, reads, result⟩ := round
      rw [result]
      exact ⟨calls, rfl, reads, fun _ => inside ofs reached⟩
    | invalid =>
      rw [is] at round
      obtain ⟨calls, reads, result⟩ := round
      rw [result]
      exact ⟨calls, rfl, reads, fun impossible => nomatch impossible⟩
    | unfinished next =>
      have goesOn : (found geometry image ofs).next = some next := by rw [← same, is]; rfl
      rw [is] at round
      rw [round]
      obtain ⟨reads, more, readsInside, offset⟩ := inductionHypothesis next
        (state.call (.read sector ofs 2)) same (.next reached goesOn)
      refine ⟨.read sector ofs 2 :: reads, by rw [more]; exact List.append_assoc _ _ _,
        ReadsInside.cons _ _ _ ?_ readsInside, offset⟩
      exact le_of_lt (found_unfinished is).1
    | record blockOfs data next =>
      have goesOn : (found geometry image ofs).next = some next := by rw [← same, is]; rfl
      rw [is] at round
      rw [round]
      obtain ⟨begins, -, -, ends⟩ := found_record is
      have stop := inside next (.next reached goesOn)
      obtain ⟨reads, more, readsInside, offset⟩ := inductionHypothesis next
        { (state.call (.read sector ofs 2)).call (.read sector (ofs + 2) data.length) with
          memBuffer := put state.memBuffer blockOfs data } same (.next reached goesOn)
      refine ⟨.read sector ofs 2 :: .read sector (ofs + 2) data.length :: reads, ?_,
        ReadsInside.cons _ _ _ (le_of_lt begins)
          (ReadsInside.cons _ _ _ (ends ▸ stop) readsInside), offset⟩
      rw [more]
      simp only [State.call, List.append_assoc, List.cons_append, List.nil_append]

/-- Behind the sector the loader stops. -/
theorem loadLoop_beyond (sector : Sector) (fuel : Nat) {ofs : Nat} (state : State)
    (beyond : geometry.flashSectorSize < ofs) :
    loadLoop geometry sector fuel ofs state = (true, { state with writeOffset := ofs }) := by
  cases fuel with
  | zero => rfl
  | succ fuel => rw [loadLoop, if_neg (by omega)]

/-- A safe load comes to a position with the reads before it and the sector unchanged, and every
record before it has ended in the sector. -/
theorem LoadSafe.reached {state : State} (safe : LoadSafe geometry state sector) {ofs : Nat}
    (reached : Reached geometry (state.flash sector) ofs) :
    ofs ≤ geometry.flashSectorSize ∧ ∃ fuel later reads,
      loadSector geometry state sector = loadLoop geometry sector fuel ofs later ∧
      geometry.flashSectorSize ≤ ofs + fuel ∧ later.flash sector = state.flash sector ∧
      later.calls = state.calls ++ reads := by
  induction reached with
  | first =>
    have roomy := geometry.room
    have header : sectorHeaderSize = 4 := rfl
    exact ⟨by omega, geometry.flashSectorSize, state, [], rfl, Nat.le_add_left _ _, rfl,
      (List.append_nil _).symm⟩
  | @next ofs next reached goesOn inductionHypothesis =>
    obtain ⟨-, fuel, later, before, result, enough, same, called⟩ := inductionHypothesis
    obtain ⟨begins, further⟩ := found_next goesOn
    have round := loadLoop_round geometry sector ofs later
    obtain ⟨fuel, rfl⟩ : ∃ fuel', fuel = fuel' + 1 := ⟨fuel - 1, by omega⟩
    rw [← same] at goesOn
    cases is : found geometry (later.flash sector) ofs with
    | ended =>
      rw [is] at goesOn
      exact nomatch goesOn
    | invalid =>
      rw [is] at goesOn
      exact nomatch goesOn
    | unfinished stop =>
      rw [is] at goesOn round
      cases goesOn
      rw [round] at result
      refine ⟨?_, fuel, later.call (.read sector ofs 2), before ++ [.read sector ofs 2], result,
        by omega, same, by simp only [State.call, called, List.append_assoc]⟩
      by_contra outside
      rw [loadLoop_beyond sector fuel _ (not_le.mp outside)] at result
      have offset := safe.offset
      rw [result] at offset
      exact outside (offset rfl)
    | record blockOfs data stop =>
      rw [is] at goesOn round
      cases goesOn
      rw [round] at result
      refine ⟨?_, fuel, _, before ++ [.read sector ofs 2, .read sector (ofs + 2) data.length], result,
        by omega, same, by simp only [State.call, called, List.append_assoc, List.cons_append,
          List.nil_append]⟩
      obtain ⟨reads, all, readsInside⟩ := safe.reads
      obtain ⟨more, after⟩ := (loadLoop_frame geometry sector fuel next
        { (later.call (.read sector ofs 2)).call (.read sector (ofs + 2) data.length) with
          memBuffer := put later.memBuffer blockOfs data }).1
      rw [← result, all] at after
      have parts : reads = before ++
          (.read sector ofs 2 :: .read sector (ofs + 2) data.length :: more) := by
        refine List.append_cancel_left (after.trans ?_)
        simp only [State.call, called, List.append_assoc, List.cons_append, List.nil_append]
      have member : FlashCall.read sector (ofs + 2) data.length ∈ reads := by
        rw [parts]
        exact List.mem_append_right _ (List.mem_cons_of_mem _ List.mem_cons_self)
      obtain ⟨sector', offset, length, shape, bound⟩ := readsInside _ member
      cases shape
      rw [(found_record is).2.2.2]
      exact bound

/-- Loading a sector is safe exactly if every record that the loader comes to ends in the sector. -/
theorem loadSafe_iff (geometry : Geometry) (state : State) (sector : Sector) :
    LoadSafe geometry state sector ↔ RecordsInside geometry (state.flash sector) := by
  constructor
  · intro safe ofs reached
    exact (safe.reached reached).1
  · intro inside
    obtain ⟨reads, called, readsInside, offset⟩ := @loadLoop_inside geometry sector
      (state.flash sector) inside geometry.flashSectorSize sectorHeaderSize state rfl .first
    exact ⟨⟨reads, called, readsInside⟩, (loadLoop_frame geometry sector _ _ _).2,
      fun rounds => loadLoop_stable geometry sector rounds _ _ _ (Nat.le_add_left _ _), offset⟩

/-- A storage of one chunk in sectors of 202 bytes. -/
def chunkGeometry : Geometry := ⟨64, 202, oneChunk_aligned, oneChunk_room⟩

/-- Behind its header a sector has only zeros: records of eight bytes, one behind the other. -/
def zeroRecords : State :=
  fresh (fun _ => put (fun _ => 0) 0 (encodeSectorHeader .inUse)) (fun _ => 0) fun _ => true

/-- The last record begins in the sector and ends behind it: its bytes are read from there, and the
log that is accepted ends behind the sector. -/
theorem not_loadSafe_zeroRecords :
    .read .s0 196 8 ∈ (loadSector chunkGeometry zeroRecords .s0).2.calls ∧
      (loadSector chunkGeometry zeroRecords .s0).1 = true ∧
      (loadSector chunkGeometry zeroRecords .s0).2.writeOffset = 204 ∧
      ¬ LoadSafe chunkGeometry zeroRecords .s0 := by
  have accepted : (loadSector chunkGeometry zeroRecords .s0).1 = true := by decide +kernel
  have offset : (loadSector chunkGeometry zeroRecords .s0).2.writeOffset = 204 := by
    decide +kernel
  refine ⟨by decide +kernel, accepted, offset, fun safe => ?_⟩
  have bound := safe.offset accepted
  rw [offset] at bound
  exact absurd bound (by decide)

end Urus.FlashStorage
