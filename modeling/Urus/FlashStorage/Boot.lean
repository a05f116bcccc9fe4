/-
This file proves what `init` makes of a flash in the normal shape: the RAM copy shows
the content of the two logs, a full sector is written out and erased, and the object
is ready for writes.

One thing is missing from the last part, and it is missing from the source. When one
sector is in use and the other is available, `init` loads the sector that is in use
but does not make it the current one. A fresh object starts with sector 0, so that
after a boot that finds sector 1 in use the object is ready only up to its current
sector. The theorems here therefore speak of the object with its current sector set to
the one that is in use.
-/

import Urus.FlashStorage.Write

namespace Urus.FlashStorage

open Image

/-! ### Reading the headers -/

/-- The start of `init`: the cleared RAM copy. -/
def cleared (geometry : Geometry) (state : State) : State :=
  { state with memBuffer := fill state.memBuffer 0 geometry.storageSize 0 }

/-- The object when both headers are read. -/
def afterHeaders (geometry : Geometry) (state : State) : State :=
  ((cleared geometry state).call (.read .s0 0 sectorHeaderSize)).call (.read .s1 0 sectorHeaderSize)

theorem init_headers (geometry : Geometry) (depth : Nat) (state : State)
    (states : Sector → SectorState)
    (good : ∀ sector, headerSignature (slice (state.flash sector) 0 sectorHeaderSize) = signature)
    (shown : ∀ sector,
      headerState (slice (state.flash sector) 0 sectorHeaderSize) = some (states sector)) :
    init geometry depth state = initSectors geometry depth (afterHeaders geometry state) states := by
  have good0 : headerSignature (flashRead (cleared geometry state) .s0 0 sectorHeaderSize).1 =
      signature := good .s0
  have good1 : headerSignature (flashRead (flashRead (cleared geometry state) .s0 0
      sectorHeaderSize).2 .s1 0 sectorHeaderSize).1 = signature := good .s1
  have shown0 : headerState (flashRead (cleared geometry state) .s0 0 sectorHeaderSize).1 =
      some (states .s0) := shown .s0
  have shown1 : headerState (flashRead (flashRead (cleared geometry state) .s0 0
      sectorHeaderSize).2 .s1 0 sectorHeaderSize).1 = some (states .s1) := shown .s1
  simp only [cleared] at good0 good1 shown0 shown1
  simp only [init, if_neg (not_not.mpr good0), shown0, if_neg (not_not.mpr good1), shown1]
  refine congrArg _ (funext fun sector => ?_)
  cases sector <;> rfl

theorem init_badHeader (geometry : Geometry) (depth : Nat) (state : State)
    (bad : headerSignature (slice (state.flash .s0) 0 sectorHeaderSize) ≠ signature) :
    init geometry depth state =
      some (eraseAll ((cleared geometry state).call (.read .s0 0 sectorHeaderSize))) := by
  have bad0 : headerSignature (flashRead (cleared geometry state) .s0 0 sectorHeaderSize).1 ≠
      signature := bad
  simp only [cleared] at bad0
  simp only [init, if_pos bad0]
  rfl

/-! ### Starting over -/

section EraseAll

variable {geometry : Geometry} {allowed : Nat → UInt8 → Prop}

/-- After `erase_all` the first sector is in use and empty. -/
theorem eraseAll_live (state : State)
    (reserve : state.reservedSpace = 0 ∨ state.reservedSpace = reserveSize geometry.storageSize)
    (memory : ∀ address, address < geometry.storageSize → allowed address (state.memBuffer address))
    (zero : ∀ address, address < geometry.storageSize → allowed address 0) :
    Live geometry allowed (eraseAll state).2 .available [] [] := by
  have roomy := geometry.room
  have erased := holds_erased geometry
  have flash0 : (eraseAll state).2.flash .s0 = program (program (fun _ => 0xFF) 0
      (encodeSectorHeader .available)) 0 (encodeSectorHeader .inUse) := rfl
  have flash1 : (eraseAll state).2.flash .s1 = program (fun _ => 0xFF) 0
      (encodeSectorHeader .available) := rfl
  refine ⟨⟨⟨?_, ?_, Or.inr ⟨rfl, rfl⟩, zero⟩, rfl, rfl, memory⟩, ?_⟩
  · show Holds geometry ((eraseAll state).2.flash .s0) .inUse []
    rw [flash0]
    exact erased.mark .inUse (by decide)
  · show Holds geometry ((eraseAll state).2.flash .s1) .available []
    rw [flash1]
    exact erased
  · rcases reserve with none | kept
    · exact Or.inl ⟨none, rfl⟩
    · refine Or.inr ⟨kept, ?_⟩
      show 4 + _ ≤ _
      omega

end EraseAll

/-! ### Loading the logs -/

theorem fill_inside (image : Image) (count : Nat) (value : UInt8) (address : Nat)
    (inside : address < count) : fill image 0 count value address = value := by
  rw [fill, if_pos ⟨Nat.zero_le _, by omega⟩]

theorem nonzeroChunks_congr {first second : Image} {count : Nat}
    (same : ∀ address, address < count * 64 → first address = second address) :
    nonzeroChunks first 0 count = nonzeroChunks second 0 count := by
  unfold nonzeroChunks
  refine congrArg _ (List.filter_congr fun chunk member => ?_)
  rw [List.mem_range'_1] at member
  rw [allZero, allZero, slice_congr fun address _ high => same address (by omega)]

section Boot

variable {geometry : Geometry} {allowed : Nat → UInt8 → Prop} {flash : Flash}
  {current : Sector} {otherState : SectorState} {below records : List Record}

/-- The states that the two headers of a normal flash show. -/
def statesOf (current : Sector) (otherState : SectorState) (sector : Sector) : SectorState :=
  if sector = current then .inUse else otherState

theorem Normal.holds (view : Normal geometry allowed flash current otherState below records)
    (sector : Sector) :
    ∃ log, Holds geometry (flash sector) (statesOf current otherState sector) log := by
  by_cases here : sector = current
  · subst here
    rw [statesOf, if_pos rfl]
    exact ⟨records, view.used⟩
  · have there : sector = current.other := by
      cases sector <;> cases current <;> first | rfl | exact absurd rfl here
    subst there
    rw [statesOf, if_neg here]
    exact ⟨below, view.other⟩

/-- The room that `write_all` needs when a full sector has to be written out. -/
def RoomToWriteOut (geometry : Geometry) (otherState : SectorState)
    (below records : List Record) : Prop :=
  otherState = .full →
    4 + logSize records +
      66 * nonzeroChunks (content (below ++ records)) 0 (geometry.storageSize / 64) ≤
        geometry.flashSectorSize

/-- The values that the logs show. -/
def Shown (below records : List Record) (address : Nat) (value : UInt8) : Prop :=
  value = content (below ++ records) address

theorem Normal.exact (view : Normal geometry allowed flash current otherState below records) :
    Normal geometry (Shown below records) flash current otherState below records :=
  ⟨view.used, view.other, view.role, fun _ _ => rfl⟩

theorem Normal.init_eq (view : Normal geometry allowed flash current otherState below records)
    (depth : Nat) (memory : Image) (eraseOk : Nat → Bool) :
    init geometry depth (fresh flash memory eraseOk) =
      initSectors geometry depth (afterHeaders geometry (fresh flash memory eraseOk))
        (statesOf current otherState) := by
  refine init_headers geometry depth _ _ (fun sector => ?_) fun sector => ?_
  · obtain ⟨log, holds⟩ := view.holds sector
    exact holds.signature_eq
  · obtain ⟨log, holds⟩ := view.holds sector
    exact holds.state_eq

theorem headers_inside (geometry : Geometry) :
    ReadsInside geometry [.read .s0 0 sectorHeaderSize, .read .s1 0 sectorHeaderSize] := by
  have roomy := geometry.room
  have four : sectorHeaderSize = 4 := rfl
  exact ReadsInside.cons _ _ _ (by omega) (ReadsInside.cons _ _ _ (by omega) (by
    intro call member
    exact absurd member List.not_mem_nil))

theorem replay_cleared (geometry : Geometry) (memory : Image) (log : List Record) (address : Nat)
    (inside : address < geometry.storageSize) :
    replay (fill memory 0 geometry.storageSize 0) log address = content log address :=
  replay_congr log _ _ address (fill_inside memory geometry.storageSize 0 address inside)

/-- `init` with a sector in use and the other one available: the log of the one in use is
loaded, and nothing is written. -/
theorem init_available (view : Normal geometry allowed flash current .available [] records)
    (depth : Nat) (memory : Image) (eraseOk : Nat → Bool) :
    ∃ state', init geometry depth (fresh flash memory eraseOk) = some (true, state') ∧
      Live geometry (Shown [] records) { state' with currentSector := current } .available []
        records ∧
      Steps geometry (Shape geometry (Shown [] records)) (fresh flash memory eraseOk) state' ∧
      ∀ address, address < geometry.storageSize →
        state'.memBuffer address = content records address := by
  have loading : Holds geometry ((afterHeaders geometry (fresh flash memory eraseOk)).flash current)
      .inUse records := view.used
  obtain ⟨calls, reads, loaded⟩ := loadSector_holds loading
  have shown : ∀ address, address < geometry.storageSize →
      replay (fill memory 0 geometry.storageSize 0) records address = content records address :=
    fun address inside => replay_cleared geometry memory records address inside
  refine ⟨{ afterHeaders geometry (fresh flash memory eraseOk) with
      memBuffer := replay (fill memory 0 geometry.storageSize 0) records
      writeOffset := 4 + logSize records
      calls := (afterHeaders geometry (fresh flash memory eraseOk)).calls ++ calls
      writeError := false
      reservedSpace := 0 }, ?_, ?_, ?_, shown⟩
  · rw [view.init_eq]
    cases current <;>
      simp only [initSectors, statesOf, firstSector, loadIfWritten, loaded, Sector.other,
        reduceCtorEq, if_true, if_false, or_false, false_and, Bool.not_true, Bool.false_eq_true] <;> rfl
  · exact ⟨⟨view.exact, rfl, rfl, shown⟩, Or.inl ⟨rfl, rfl⟩⟩
  · refine Steps.reads (.normal _ _ _ _ view.exact) _ ((headers_inside geometry).append reads) rfl ?_
    show [_] ++ [_] ++ calls = _
    rfl

/-- The object of a boot that found a full sector, when both logs are loaded. -/
def afterLoad (geometry : Geometry) (state : State) (current : Sector) (calls : List FlashCall)
    (below records : List Record) : State :=
  { afterHeaders geometry state with
    memBuffer := replay (replay (fill state.memBuffer 0 geometry.storageSize 0) below) records
    writeOffset := 4 + logSize records
    calls := (afterHeaders geometry state).calls ++ calls
    writeError := false
    reservedSpace := 0
    currentSector := current }

/-- The loading part of `init` with a full sector, and the writing out that follows it. -/
theorem init_full_eq (view : Normal geometry allowed flash current .full below records)
    (depth : Nat) (memory : Image) (eraseOk : Nat → Bool) :
    ∃ calls, ReadsInside geometry calls ∧
      init geometry depth (fresh flash memory eraseOk) =
        match writeAll geometry (write geometry depth)
          (afterLoad geometry (fresh flash memory eraseOk) current calls below records) with
        | none => none
        | some (false, state) => some (eraseAll state)
        | some (true, state) =>
          some (true, { eraseSector state current.other with reservedSpace := 0 }) := by
  have loadingFirst : Holds geometry
      ((afterHeaders geometry (fresh flash memory eraseOk)).flash current.other) .full below :=
    view.other
  obtain ⟨callsFirst, readsFirst, loadedFirst⟩ := loadSector_holds loadingFirst
  have loadingSecond : Holds geometry ({ afterHeaders geometry (fresh flash memory eraseOk) with
      memBuffer := replay (afterHeaders geometry (fresh flash memory eraseOk)).memBuffer below
      writeOffset := 4 + logSize below
      calls := (afterHeaders geometry (fresh flash memory eraseOk)).calls ++ callsFirst }.flash
        current) .inUse records := view.used
  obtain ⟨callsSecond, readsSecond, loadedSecond⟩ := loadSector_holds loadingSecond
  refine ⟨callsFirst ++ callsSecond, readsFirst.append readsSecond, ?_⟩
  rw [view.init_eq, afterLoad, ← List.append_assoc]
  cases current with
  | s0 =>
    simp only [Sector.other] at loadedFirst loadedSecond
    simp only [initSectors, statesOf, firstSector, loadIfWritten, loadedFirst, loadedSecond,
      Sector.other, reduceCtorEq, if_true, if_false, or_true, false_and, or_false,
      Bool.not_true, Bool.false_eq_true]
    rfl
  | s1 =>
    simp only [Sector.other] at loadedFirst loadedSecond
    simp only [initSectors, statesOf, firstSector, loadIfWritten, loadedFirst, loadedSecond,
      Sector.other, reduceCtorEq, if_true, if_false, or_true, false_and, or_false,
      Bool.not_true, Bool.false_eq_true]
    rfl

/-- `init` with a full sector and room to write it out. -/
theorem init_full (small : geometry.storageSize ≤ 16384)
    (view : Normal geometry allowed flash current .full below records)
    (room : RoomToWriteOut geometry .full below records)
    (depth : Nat) (memory : Image) (eraseOk : Nat → Bool) :
    ∃ state' records', init geometry depth (fresh flash memory eraseOk) = some (true, state') ∧
      Live geometry (Shown below records) state' .available [] records' ∧
      Steps geometry (Shape geometry (Shown below records)) (fresh flash memory eraseOk) state' ∧
      (∀ address, address < geometry.storageSize →
        state'.memBuffer address = content (below ++ records) address) ∧
      state'.currentSector = current := by
  obtain ⟨calls, reads, result⟩ := init_full_eq view depth memory eraseOk
  let loaded := afterLoad geometry (fresh flash memory eraseOk) current calls below records
  have shown : ∀ address, address < geometry.storageSize →
      loaded.memBuffer address = content (below ++ records) address := by
    intro address inside
    rw [← replay_cleared geometry memory (below ++ records) address inside, replay_append]
    rfl
  have store : Store geometry (Shown below records) loaded .full below records :=
    ⟨view.exact, rfl, rfl, shown⟩
  have reading : Steps geometry (Shape geometry (Shown below records))
      (fresh flash memory eraseOk) loaded :=
    Steps.reads (.normal _ _ _ _ view.exact) _ ((headers_inside geometry).append reads) rfl rfl
  have chunks : geometry.storageSize / 64 * 64 = geometry.storageSize :=
    Nat.div_mul_cancel geometry.aligned
  have enough : loaded.writeOffset +
      66 * nonzeroChunks loaded.memBuffer 0 (geometry.storageSize / 64) ≤
        geometry.flashSectorSize := by
    rw [nonzeroChunks_congr fun address inside => shown address (by omega)]
    exact room rfl
  obtain ⟨written, records', writing, stored, steps, alone, -, sector, sameMemory, unreserved⟩ :=
    writeAll_store depth small store rfl enough
  have here : written.currentSector = current := sector
  obtain ⟨erased, erasing⟩ := eraseOther_store stored alone
  rw [here] at erased erasing
  refine ⟨{ eraseSector written current.other with reservedSpace := 0 }, records', ?_,
    ⟨⟨erased.view, erased.offset, erased.noError, erased.memory⟩, Or.inl ⟨rfl, rfl⟩⟩,
    (reading.trans steps).trans erasing, fun address inside => ?_, here⟩
  · rw [result, writing]
  · show written.memBuffer address = _
    rw [sameMemory]
    exact shown address inside

/-- `init` on a normal flash with room to write out a full sector. The object it leaves is ready
for writes with the sector that is in use, and it shows the content of the logs. -/
theorem init_normal (small : geometry.storageSize ≤ 16384)
    (view : Normal geometry allowed flash current otherState below records)
    (room : RoomToWriteOut geometry otherState below records)
    (depth : Nat) (memory : Image) (eraseOk : Nat → Bool) :
    ∃ state' records', init geometry depth (fresh flash memory eraseOk) = some (true, state') ∧
      Live geometry (Shown below records) { state' with currentSector := current } .available []
        records' ∧
      Steps geometry (Shape geometry (Shown below records)) (fresh flash memory eraseOk) state' ∧
      ∀ address, address < geometry.storageSize →
        state'.memBuffer address = content (below ++ records) address := by
  rcases view.role with rfl | ⟨rfl, rfl⟩
  · obtain ⟨state', records', result, live, steps, shown, rfl⟩ :=
      init_full small view room depth memory eraseOk
    exact ⟨state', records', result, live, steps, shown⟩
  · obtain ⟨state', result, live, steps, shown⟩ := init_available view depth memory eraseOk
    exact ⟨state', records, result, live, steps, shown⟩

/-- An object that is ready for writes has kept the room that the next boot needs. -/
theorem Live.room {state : State} (live : Live geometry allowed state otherState below records) :
    RoomToWriteOut geometry otherState below records := by
  intro full
  have needed := nonzeroChunks_reserve (content (below ++ records)) geometry.storageSize
  rcases live.reserve with ⟨-, available⟩ | ⟨-, kept⟩
  · rw [full] at available
    cases available
  · rw [live.offset] at kept
    omega

end Boot

end Urus.FlashStorage
