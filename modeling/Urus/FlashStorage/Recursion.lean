/-
This file proves when `init` comes back. The only recursion is `write` calling
`switch_full_sector`, which calls `write_all`, which calls `write`. While `init` writes out a
full sector, the other sector is the full one, and `switch_sectors` cannot switch to it. A write
that finds no room therefore asks `flash_erase_ok`, and with the answer true starts to write
everything again at the same place: nothing in between makes room.

The place is the end of the log that was loaded last. `init` comes back exactly if the storage
fits behind that end, or if one of the answers is false.
-/

import Urus.FlashStorage.Boot
import Urus.FlashStorage.Loading

namespace Urus.FlashStorage

open Image

/-! ### Logs on any flash -/

/-- The bytes of some records, stored one after the other. -/
def stored (memory : Image) (records : List (Nat × List UInt8)) : Image :=
  records.foldl (fun memory record => put memory record.1 record.2) memory

/-- From a position on the loader finds these records, up to the end of the log. -/
inductive LogFrom (geometry : Geometry) (image : Image) : Nat → List (Nat × List UInt8) → Nat → Prop
  | ended {ofs : Nat} (is : found geometry image ofs = .ended) : LogFrom geometry image ofs [] ofs
  | unfinished {ofs next stop : Nat} {records : List (Nat × List UInt8)}
      (is : found geometry image ofs = .unfinished next)
      (rest : LogFrom geometry image next records stop) : LogFrom geometry image ofs records stop
  | record {ofs blockOfs next stop : Nat} {data : List UInt8} {records : List (Nat × List UInt8)}
      (is : found geometry image ofs = .record blockOfs data next)
      (rest : LogFrom geometry image next records stop) :
      LogFrom geometry image ofs ((blockOfs, data) :: records) stop

variable {geometry : Geometry} {sector : Sector} {image : Image} {state : State}

/-- Loading a log stores its records and leaves the write offset at its end. -/
theorem loadLoop_logFrom {ofs stop fuel : Nat} {records : List (Nat × List UInt8)}
    (log : LogFrom geometry image ofs records stop) (same : state.flash sector = image)
    (enough : geometry.flashSectorSize ≤ ofs + fuel) :
    ∃ calls, loadLoop geometry sector fuel ofs state =
      (true, { state with
        memBuffer := stored state.memBuffer records
        writeOffset := stop
        calls := state.calls ++ calls }) := by
  induction log generalizing state fuel with
  | @ended ofs is =>
    cases fuel with
    | zero => exact ⟨[], by rw [List.append_nil]; rfl⟩
    | succ fuel =>
      have round := loadLoop_round geometry sector ofs state
      rw [same, is] at round
      obtain ⟨calls, -, result⟩ := round
      exact ⟨calls, result fuel⟩
  | @unfinished ofs next stop records is rest inductionHypothesis =>
    obtain ⟨begins, further⟩ := found_unfinished is
    have round := loadLoop_round geometry sector ofs state
    rw [same, is] at round
    obtain ⟨fuel, rfl⟩ : ∃ fuel', fuel = fuel' + 1 := ⟨fuel - 1, by omega⟩
    obtain ⟨calls, result⟩ := @inductionHypothesis (state.call (.read sector ofs 2)) fuel same
      (by omega)
    refine ⟨.read sector ofs 2 :: calls, ?_⟩
    rw [round, result]
    simp only [State.call, FlashCall.apply, List.append_assoc, List.cons_append, List.nil_append]
  | @record ofs blockOfs next stop data records is rest inductionHypothesis =>
    obtain ⟨begins, further, -⟩ := found_record is
    have round := loadLoop_round geometry sector ofs state
    rw [same, is] at round
    obtain ⟨fuel, rfl⟩ : ∃ fuel', fuel = fuel' + 1 := ⟨fuel - 1, by omega⟩
    obtain ⟨calls, result⟩ := @inductionHypothesis
      { (state.call (.read sector ofs 2)).call (.read sector (ofs + 2) data.length) with
        memBuffer := put state.memBuffer blockOfs data } fuel same (by omega)
    refine ⟨.read sector ofs 2 :: .read sector (ofs + 2) data.length :: calls, ?_⟩
    rw [round, result]
    simp only [State.call, FlashCall.apply, List.append_assoc, List.cons_append, List.nil_append]
    rfl

theorem logFrom_of_loaded {ofs fuel : Nat} (enough : geometry.flashSectorSize ≤ ofs + fuel)
    (loaded : (loadLoop geometry sector fuel ofs state).1 = true) :
    ∃ records stop, LogFrom geometry (state.flash sector) ofs records stop := by
  induction fuel generalizing ofs state with
  | zero => exact ⟨[], ofs, .ended (found_behind (by omega))⟩
  | succ fuel inductionHypothesis =>
    have round := loadLoop_round geometry sector ofs state
    cases is : found geometry (state.flash sector) ofs with
    | ended => exact ⟨[], ofs, .ended is⟩
    | invalid =>
      rw [is] at round
      obtain ⟨calls, -, result⟩ := round
      rw [result] at loaded
      exact nomatch loaded
    | unfinished next =>
      have further := (found_unfinished is).2
      rw [is] at round
      rw [round] at loaded
      obtain ⟨records, stop, rest⟩ := inductionHypothesis (by omega) loaded
      exact ⟨records, stop, .unfinished is rest⟩
    | record blockOfs data next =>
      have further := (found_record is).2.1
      rw [is] at round
      rw [round] at loaded
      obtain ⟨records, stop, rest⟩ := inductionHypothesis (by omega) loaded
      exact ⟨(blockOfs, data) :: records, stop, .record is rest⟩

variable {records records' : List (Nat × List UInt8)} {eraseOk : Nat → Bool}
  {states : Sector → SectorState} {flash : Flash}

theorem LogFrom.unique {ofs stop stop' : Nat} (log : LogFrom geometry image ofs records stop)
    (log' : LogFrom geometry image ofs records' stop') : records' = records ∧ stop' = stop := by
  induction log generalizing records' stop' with
  | ended is =>
    cases log' with
    | ended _ => exact ⟨rfl, rfl⟩
    | unfinished is' _ => exact nomatch is.symm.trans is'
    | record is' _ => exact nomatch is.symm.trans is'
  | unfinished is _ inductionHypothesis =>
    cases log' with
    | ended is' => exact nomatch is.symm.trans is'
    | unfinished is' rest =>
      cases is.symm.trans is'
      exact inductionHypothesis rest
    | record is' _ => exact nomatch is.symm.trans is'
  | record is _ inductionHypothesis =>
    cases log' with
    | ended is' => exact nomatch is.symm.trans is'
    | unfinished is' _ => exact nomatch is.symm.trans is'
    | record is' rest =>
      cases is.symm.trans is'
      obtain ⟨same, ends⟩ := inductionHypothesis rest
      exact ⟨by rw [same], ends⟩

/-- A sector holds a log that is loaded, or none and the load fails. -/
theorem loadSector_cases (geometry : Geometry) (state : State) (sector : Sector) :
    (∃ records stop calls, LogFrom geometry (state.flash sector) sectorHeaderSize records stop ∧
      loadSector geometry state sector = (true, { state with
        memBuffer := stored state.memBuffer records
        writeOffset := stop
        calls := state.calls ++ calls })) ∨
    ((loadSector geometry state sector).1 = false ∧ ∀ records stop,
      ¬ LogFrom geometry (state.flash sector) sectorHeaderSize records stop) := by
  cases loaded : (loadSector geometry state sector).1 with
  | true =>
    obtain ⟨records, stop, log⟩ := logFrom_of_loaded (Nat.le_add_left _ _) loaded
    obtain ⟨calls, result⟩ := @loadLoop_logFrom geometry sector _ state _ _
      geometry.flashSectorSize _ log rfl (Nat.le_add_left _ _)
    exact Or.inl ⟨records, stop, calls, log, result⟩
  | false =>
    refine Or.inr ⟨rfl, fun records stop log => ?_⟩
    obtain ⟨calls, result⟩ := @loadLoop_logFrom geometry sector _ state _ _
      geometry.flashSectorSize _ log rfl (Nat.le_add_left _ _)
    rw [loadSector, result] at loaded
    exact nomatch loaded

theorem stored_congr {first second : Image} {count : Nat} (records : List (Nat × List UInt8))
    (agree : Agree first second 0 count) :
    Agree (stored first records) (stored second records) 0 count := by
  induction records generalizing first second with
  | nil => exact agree
  | cons record rest inductionHypothesis => exact inductionHypothesis (agree.put _ _)

/-! ### Writing next to a full sector -/

/-- The other sector is full, no error is noted and no space reserved. -/
structure Cornered (state : State) : Prop where
  full : sectorStateOf (state.flash state.currentSector.other) = some .full
  noError : state.writeError = false
  noReserve : state.reservedSpace = 0

/-- Besides, there is no room for a record. -/
structure Jammed (geometry : Geometry) (state : State) : Prop extends Cornered state where
  noRoom : geometry.flashSectorSize < state.writeOffset + 66

/-- What comes of a write that finds no room, at a nesting depth and with the answers still to come:
it gives up at the first answer false, or goes deeper than it may. -/
def refusal : Nat → (Nat → Bool) → Option Bool
  | 0, eraseOk => if eraseOk 0 then none else some false
  | depth + 1, eraseOk =>
    if eraseOk 0 then refusal depth fun index => eraseOk (index + 1) else some false

theorem refusal_ne_true (depth : Nat) (eraseOk : Nat → Bool) : refusal depth eraseOk ≠ some true := by
  induction depth generalizing eraseOk with
  | zero =>
    rw [refusal]
    split <;> exact fun impossible => nomatch impossible
  | succ depth inductionHypothesis =>
    rw [refusal]
    split
    · exact inductionHypothesis _
    · exact fun impossible => nomatch impossible

theorem refusal_always (always : ∀ index, eraseOk index = true) (depth : Nat) :
    refusal depth eraseOk = none := by
  induction depth generalizing eraseOk with
  | zero => rw [refusal, if_pos (always 0)]
  | succ depth inductionHypothesis =>
    rw [refusal, if_pos (always 0)]
    exact inductionHypothesis fun index => always (index + 1)

theorem refusal_once {index : Nat} (once : eraseOk index = false) :
    refusal index eraseOk = some false := by
  induction index generalizing eraseOk with
  | zero => rw [refusal, once, if_neg Bool.false_ne_true]
  | succ index inductionHypothesis =>
    rw [refusal]
    split
    · exact @inductionHypothesis (fun index => eraseOk (index + 1)) once
    · rfl

/-- The object that has tried to switch to the full sector. -/
def notSwitched (state : State) : State :=
  { state.call (.read state.currentSector.other 0 sectorHeaderSize) with writeError := true }

theorem switchSectors_full (cornered : Cornered state) :
    switchSectors geometry state = (false, notSwitched state) := by
  have full := cornered.full
  rw [sectorStateOf] at full
  split at full
  · cases full
  · rename_i good
    rw [not_not] at good
    have header : headerState (slice (state.flash state.currentSector.other) 0 sectorHeaderSize) ≠
        some .available := by
      rw [full]
      decide
    rw [switchSectors, if_neg (not_not.mpr cornered.noReserve)]
    exact (if_neg (not_not.mpr good)).trans (if_pos header)

/-- The object behind an answer of `flash_erase_ok`. -/
def answered (state : State) : State :=
  { notSwitched state with eraseOk := fun index => state.eraseOk (index + 1) }

theorem makeRoom_jammed (jammed : Jammed geometry state)
    (switchFull : State → Option (Bool × State)) :
    makeRoom geometry switchFull state =
      if state.eraseOk 0 then switchFull (answered state) else some (false, answered state) := by
  have noRoom := jammed.noRoom
  have short : state.writeOffset >
      geometry.flashSectorSize - (blockHeaderSize + maxWrite + state.reservedSpace) := by
    have sizes : blockHeaderSize + maxWrite = 66 := rfl
    have roomy := geometry.room
    omega
  rw [makeRoom, if_pos short, switchSectors_full jammed.toCornered]
  rfl

theorem writeLoop_jammed (jammed : Jammed geometry state)
    {switchFull : State → Option (Bool × State)} {outcome : Option Bool}
    (refused : (switchFull (answered state)).map Prod.fst = outcome) (notDone : outcome ≠ some true)
    (ofs : Nat) : (writeLoop geometry switchFull 64 ofs 64 state).map Prod.fst =
      if state.eraseOk 0 then outcome else some false := by
  rw [writeLoop, if_pos (by decide), makeRoom_jammed jammed]
  dsimp only
  split
  · rename_i result
    split at result
    · rw [result] at refused
      rename_i asked
      rw [if_pos asked]
      exact refused
    · cases result
  · rename_i result
    split at result
    · rw [result] at refused
      rename_i asked
      rw [if_pos asked]
      exact refused
    · rename_i asked
      rw [if_neg asked]
      rfl
  · rename_i result
    split at result
    · rw [result] at refused
      exact absurd refused.symm notDone
    · cases result

/-- If every write of a chunk is refused, so is the write of everything. -/
theorem writeAllFrom_refused {write : State → Nat → Nat → Option (Bool × State)}
    {outcome : Option Bool} (refused : ∀ ofs, (write state ofs 64).map Prod.fst = outcome)
    (notDone : outcome ≠ some true) {fuel first count : Nat} (enough : count ≤ fuel)
    (all : first + count = geometry.storageSize / 64)
    (some : 0 < nonzeroChunks state.memBuffer first count) :
    (writeAllFrom geometry write fuel (first * 64) state).map Prod.fst = outcome := by
  obtain ⟨chunks, size⟩ := geometry.aligned
  have whole : maxWrite = 64 := rfl
  induction count generalizing fuel first with
  | zero => exact absurd some (lt_irrefl 0)
  | succ count inductionHypothesis =>
    obtain ⟨fuel, rfl⟩ : ∃ fuel', fuel = fuel' + 1 := ⟨fuel - 1, by omega⟩
    rw [writeAllFrom, if_pos (by omega), whole]
    rw [nonzeroChunks_succ] at some
    cases zero : allZero state.memBuffer (first * 64) 64 with
    | true =>
      rw [zero, if_pos rfl, Nat.zero_add] at some
      rw [if_pos rfl, ← Nat.succ_mul]
      exact inductionHypothesis (by omega) (by omega) some
    | false =>
      have result := refused (first * 64)
      cases wrote : write state (first * 64) 64 with
      | none =>
        rw [wrote] at result
        exact result
      | some done =>
        rw [wrote] at result
        obtain ⟨done, after⟩ := done
        cases done with
        | false => exact result
        | true => exact absurd result.symm notDone

/-- A write that finds no room next to a full sector comes back only by a false answer. -/
theorem write_jammed (depth ofs : Nat) (jammed : Jammed geometry state)
    (some : 0 < nonzeroChunks state.memBuffer 0 (geometry.storageSize / 64)) :
    (write geometry depth state ofs 64).map Prod.fst = refusal depth state.eraseOk := by
  induction depth generalizing state ofs with
  | zero =>
    rw [write, if_neg (by rw [jammed.noError]; exact Bool.false_ne_true), refusal]
    exact @writeLoop_jammed geometry state jammed (fun _ => none) none rfl (fun impossible => by cases impossible) ofs
  | succ depth inductionHypothesis =>
    have again : Jammed geometry { answered state with writeError := false, reservedSpace := 0 } :=
      ⟨⟨jammed.full, rfl, rfl⟩, jammed.noRoom⟩
    have everything := @writeAllFrom_refused geometry
      { answered state with writeError := false, reservedSpace := 0 } (write geometry depth) _
      (fun ofs => inductionHypothesis ofs again some) (refusal_ne_true _ _)
      geometry.storageSize 0 (geometry.storageSize / 64) (Nat.div_le_self _ _) (Nat.zero_add _) some
    have full : (switchFullSector geometry (write geometry depth) (answered state)).map Prod.fst =
        refusal depth fun index => state.eraseOk (index + 1) := by
      rw [switchFullSector, writeAll]
      split <;> rename_i result <;> rw [result] at everything
      · exact everything
      · exact everything
      · exact absurd everything.symm (refusal_ne_true _ _)
    rw [write, if_neg (by rw [jammed.noError]; exact Bool.false_ne_true), refusal]
    exact writeLoop_jammed jammed full (refusal_ne_true _ _) ofs

/-! ### Writing everything next to a full sector -/

/-- A record goes to the current sector only. -/
theorem writeRecord_cornered (cornered : Cornered state) (chunk : Nat) :
    Cornered (writeRecord state (chunk * 64) 64) ∧
      (writeRecord state (chunk * 64) 64).writeOffset = state.writeOffset + 66 := by
  refine ⟨⟨?_, cornered.noError, cornered.noReserve⟩, rfl⟩
  have apart : state.currentSector.other ≠ state.currentSector := by
    cases state.currentSector <;> exact nofun
  have same : (writeRecord state (chunk * 64) 64).flash state.currentSector.other =
      state.flash state.currentSector.other := by
    simp only [writeRecord, flashWrite, State.call, FlashCall.apply,
      Function.update_of_ne apart]
  change sectorStateOf ((writeRecord state (chunk * 64) 64).flash state.currentSector.other) = _
  rw [same]
  exact cornered.full

theorem nonzeroChunks_suffix (memory : Image) (first count : Nat) :
    nonzeroChunks memory first count ≤ nonzeroChunks memory 0 (first + count) := by
  have split : List.range' 0 (first + count) = List.range' 0 first ++ List.range' first count := by
    have append := @List.range'_append 0 first count 1
    rw [Nat.zero_add, Nat.one_mul] at append
    exact append.symm
  rw [nonzeroChunks, nonzeroChunks, split, List.filter_append, List.length_append]
  exact Nat.le_add_left _ _

/-- Next to a full sector, everything is written if it fits behind the write offset; otherwise a write
is refused. -/
theorem writeAllFrom_cornered (depth : Nat) {fuel first count : Nat} (cornered : Cornered state)
    (enough : count ≤ fuel) (all : first + count = geometry.storageSize / 64) :
    (writeAllFrom geometry (write geometry depth) fuel (first * 64) state).map Prod.fst =
      if nonzeroChunks state.memBuffer first count = 0 ∨
          state.writeOffset + 66 * nonzeroChunks state.memBuffer first count ≤
            geometry.flashSectorSize then some true
      else refusal depth state.eraseOk := by
  obtain ⟨chunks, size⟩ := geometry.aligned
  have whole : maxWrite = 64 := rfl
  rw [whole] at size
  induction count generalizing fuel first state with
  | zero =>
    have none : nonzeroChunks state.memBuffer first 0 = 0 := rfl
    cases fuel with
    | zero => rfl
    | succ fuel =>
      rw [writeAllFrom, if_neg (by omega)]
      rfl
  | succ count inductionHypothesis =>
    obtain ⟨fuel, rfl⟩ : ∃ fuel', fuel = fuel' + 1 := ⟨fuel - 1, by omega⟩
    have suffix := nonzeroChunks_suffix state.memBuffer first (count + 1)
    rw [nonzeroChunks_succ] at suffix ⊢
    rw [writeAllFrom, if_pos (by omega), whole]
    cases zero : allZero state.memBuffer (first * 64) 64 with
    | true =>
      rw [if_pos rfl, if_pos rfl, Nat.zero_add, ← Nat.succ_mul]
      exact inductionHypothesis cornered (by omega) (by omega)
    | false =>
      rw [if_neg Bool.false_ne_true, if_neg Bool.false_ne_true]
      rw [zero, if_neg Bool.false_ne_true, all] at suffix
      rcases Nat.lt_or_ge geometry.flashSectorSize (state.writeOffset + 66) with short | room
      · have refused := @write_jammed geometry state depth (first * 64) ⟨cornered, short⟩ (by omega)
        rw [if_neg (by omega)]
        cases wrote : write geometry depth state (first * 64) 64 with
        | none =>
          rw [wrote] at refused
          exact refused
        | some done =>
          rw [wrote] at refused
          obtain ⟨done, after⟩ := done
          cases done with
          | false => exact refused
          | true => exact absurd refused.symm (refusal_ne_true _ _)
      · rw [write_chunk depth first cornered.noError (by rw [cornered.noReserve]; omega),
          ← Nat.succ_mul]
        obtain ⟨kept, offset⟩ := writeRecord_cornered cornered first
        have rest := @inductionHypothesis _ fuel (first + 1) kept (by omega) (by omega)
        refine rest.trans ?_
        have memory : (writeRecord state (first * 64) 64).memBuffer = state.memBuffer := rfl
        have answers : (writeRecord state (first * 64) 64).eraseOk = state.eraseOk := rfl
        rw [memory, answers]
        split <;> split <;> first | rfl | omega

/-! ### Initialisation -/

/-- The storage does not fit behind the end of a log. -/
def TooFar (geometry : Geometry) (records : List (Nat × List UInt8)) (stop : Nat) : Prop :=
  let chunks := nonzeroChunks (stored (fun _ => 0) records) 0 (geometry.storageSize / 64)
  0 < chunks ∧ geometry.flashSectorSize < stop + 66 * chunks

/-- One sector is full, the other one available or in use, their logs can be loaded, and what they hold
does not fit behind the end of the log that is loaded last. -/
def Overfull (geometry : Geometry) (flash : Flash) : Prop :=
  ∃ full records stop, sectorStateOf (flash full) = some .full ∧
    LogFrom geometry (flash full) sectorHeaderSize records stop ∧
    (sectorStateOf (flash full.other) = some .available ∧ TooFar geometry records stop ∨
      sectorStateOf (flash full.other) = some .inUse ∧ ∃ records' stop',
        LogFrom geometry (flash full.other) sectorHeaderSize records' stop' ∧
          TooFar geometry (records ++ records') stop')

/-- `init` goes by the states that the two headers show. -/
theorem init_eq (geometry : Geometry) (depth : Nat) (state : State) :
    init geometry depth state =
      match sectorStateOf (state.flash .s0) with
      | none => some (eraseAll ((cleared geometry state).call (.read .s0 0 sectorHeaderSize)))
      | some state0 =>
        match sectorStateOf (state.flash .s1) with
        | none => some (eraseAll (afterHeaders geometry state))
        | some state1 => initSectors geometry depth (afterHeaders geometry state) fun sector =>
            match sector with
            | .s0 => state0
            | .s1 => state1 := by
  rw [sectorStateOf, sectorStateOf]
  by_cases good0 : headerSignature (slice (state.flash .s0) 0 sectorHeaderSize) ≠ signature
  · rw [if_pos good0]
    exact if_pos good0
  · rw [if_neg good0]
    refine (if_neg good0).trans ?_
    cases headerState (slice (state.flash .s0) 0 sectorHeaderSize) with
    | none => rfl
    | some state0 =>
      by_cases good1 : headerSignature (slice (state.flash .s1) 0 sectorHeaderSize) ≠ signature
      · rw [if_pos good1]
        exact if_pos good1
      · rw [if_neg good1]
        refine (if_neg good1).trans ?_
        change (match headerState (slice (state.flash .s1) 0 sectorHeaderSize) with
          | none => _
          | some _ => _) = _
        cases headerState (slice (state.flash .s1) 0 sectorHeaderSize) with
        | none => rfl
        | some state1 => rfl

theorem initSectors_full {full : Sector} (isFull : states full = .full)
    (other : states full.other ≠ .full) (depth : Nat) (state : State) :
    (initSectors geometry depth state states).isSome =
      if !(loadSector geometry state full).1 then true
      else
        let loaded := loadIfWritten geometry (loadSector geometry state full).2 full.other
          (states full.other)
        if !loaded.1 then true
        else (writeAll geometry (write geometry depth)
          { loaded.2 with
            writeError := false
            reservedSpace := 0
            currentSector := full.other }).isSome := by
  have differ : ¬ (states .s0 = states .s1 ∧ states .s0 ≠ .available) := by
    rintro ⟨same, -⟩
    cases full with
    | s0 => exact other (same.symm.trans isFull)
    | s1 => exact other (same.trans isFull)
  have first : firstSector (states .s0) (states .s1) = full := by
    cases full with
    | s0 =>
      rw [firstSector, if_neg (fun same => other (same.symm.trans isFull)), if_pos isFull]
    | s1 =>
      rw [firstSector, if_neg (fun same => other (same.trans isFull)),
        if_neg (show states .s0 ≠ .full from other), if_pos isFull]
  rw [initSectors, if_neg differ, first]
  dsimp only
  rw [loadIfWritten, if_pos (Or.inr isFull)]
  cases loadSector geometry state full with
  | mk loaded after =>
    cases loaded with
    | false => rfl
    | true =>
      cases loadIfWritten geometry after full.other (states full.other) with
      | mk loaded after =>
        cases loaded with
        | false => rfl
        | true =>
          simp only [isFull, if_true, Bool.not_true, Bool.false_eq_true, if_false]
          split <;> rename_i result <;> rw [result] <;> rfl

/-- The write out of a full sector whose logs are loaded. -/
theorem writeOut_isSome (depth : Nat) {loaded : State} {full : Sector}
    {records : List (Nat × List UInt8)} {stop : Nat}
    (isFull : sectorStateOf (loaded.flash full) = some .full)
    (memory : Agree loaded.memBuffer (stored (fun _ => 0) records) 0 geometry.storageSize)
    (offset : loaded.writeOffset = stop) :
    (writeAll geometry (write geometry depth)
      { loaded with
        writeError := false
        reservedSpace := 0
        currentSector := full.other }).isSome = true ↔
      (TooFar geometry records stop → (refusal depth loaded.eraseOk).isSome = true) := by
  have cornered : Cornered { loaded with
      writeError := false
      reservedSpace := 0
      currentSector := full.other } := by
    refine ⟨?_, rfl, rfl⟩
    rw [Sector.other_other]
    exact isFull
  have outcome := @writeAllFrom_cornered geometry _ depth geometry.storageSize 0
    (geometry.storageSize / 64) cornered (Nat.div_le_self _ _) (Nat.zero_add _)
  have same : nonzeroChunks loaded.memBuffer 0 (geometry.storageSize / 64) =
      nonzeroChunks (stored (fun _ => 0) records) 0 (geometry.storageSize / 64) :=
    nonzeroChunks_congr fun address inside =>
      memory address (Nat.zero_le _) (by omega)
  rw [writeAll, ← Option.isSome_map, outcome]
  rw [same, offset]
  by_cases fits : nonzeroChunks (stored (fun _ => 0) records) 0 (geometry.storageSize / 64) = 0 ∨
      stop + 66 * nonzeroChunks (stored (fun _ => 0) records) 0 (geometry.storageSize / 64) ≤
        geometry.flashSectorSize
  · rw [if_pos fits]
    refine ⟨fun _ far => ?_, fun _ => rfl⟩
    obtain ⟨some, far⟩ := far
    omega
  · rw [if_neg fits]
    exact ⟨fun some _ => some, fun some => some ⟨by omega, by omega⟩⟩

/-- Without a full sector next to another one, `init` comes back. -/
theorem initSectors_plain (plain : ∀ full, states full = .full → states full.other = .full)
    (depth : Nat) (state : State) : (initSectors geometry depth state states).isSome = true := by
  rw [initSectors]
  split
  · rfl
  · rename_i differ
    have notFull : states (firstSector (states .s0) (states .s1)) ≠ .full := by
      have none : ∀ full, states full ≠ .full := by
        intro full isFull
        have both := plain full isFull
        cases full with
        | s0 => exact differ ⟨isFull.trans both.symm, by rw [isFull]; exact fun impossible => by cases impossible⟩
        | s1 => exact differ ⟨both.trans isFull.symm, by rw [show states .s0 = _ from both]; exact fun impossible => by cases impossible⟩
      exact none _
    dsimp only
    cases loadIfWritten geometry state (firstSector (states .s0) (states .s1))
        (states (firstSector (states .s0) (states .s1))) with
    | mk loaded after =>
      cases loaded with
      | false => rfl
      | true =>
        cases loadIfWritten geometry after (firstSector (states .s0) (states .s1)).other
            (states (firstSector (states .s0) (states .s1)).other) with
        | mk loaded after =>
          cases loaded with
          | false => rfl
          | true =>
            simp only [if_neg notFull, Bool.not_true, Bool.false_eq_true, if_false]
            rfl

theorem Overfull.sectors (overfull : Overfull geometry flash) :
    ∃ full otherState, sectorStateOf (flash full) = some .full ∧
      sectorStateOf (flash full.other) = some otherState ∧ otherState ≠ .full := by
  obtain ⟨full, records, stop, isFull, -, ⟨other, -⟩ | ⟨other, -⟩⟩ := overfull
  · exact ⟨full, .available, isFull, other, nofun⟩
  · exact ⟨full, .inUse, isFull, other, nofun⟩

/-- With one full sector it is known which sector an overfull flash is about. -/
theorem Overfull.only (overfull : Overfull geometry flash) {full : Sector}
    (other : sectorStateOf (flash full.other) ≠ some .full) :
    ∃ records stop, LogFrom geometry (flash full) sectorHeaderSize records stop ∧
      (sectorStateOf (flash full.other) = some .available ∧ TooFar geometry records stop ∨
        sectorStateOf (flash full.other) = some .inUse ∧ ∃ records' stop',
          LogFrom geometry (flash full.other) sectorHeaderSize records' stop' ∧
            TooFar geometry (records ++ records') stop') := by
  obtain ⟨full', records, stop, isFull, log, rest⟩ := overfull
  have same : full' = full := by
    by_contra apart
    have crossed : full' = full.other := by
      cases full <;> cases full' <;> first | rfl | exact absurd rfl apart
    exact other (crossed ▸ isFull)
  subst same
  exact ⟨records, stop, log, rest⟩

theorem overfull_available {full : Sector} (isFull : sectorStateOf (flash full) = some .full)
    (other : sectorStateOf (flash full.other) = some .available) {records : List (Nat × List UInt8)}
    {stop : Nat} (log : LogFrom geometry (flash full) sectorHeaderSize records stop) :
    TooFar geometry records stop ↔ Overfull geometry flash := by
  refine ⟨fun far => ⟨full, records, stop, isFull, log, Or.inl ⟨other, far⟩⟩, fun overfull => ?_⟩
  obtain ⟨records', stop', log', ⟨-, far⟩ | ⟨inUse, -⟩⟩ :=
    overfull.only (fun impossible => nomatch other.symm.trans impossible)
  · obtain ⟨rfl, rfl⟩ := log.unique log'
    exact far
  · exact nomatch other.symm.trans inUse

theorem overfull_inUse {full : Sector} (isFull : sectorStateOf (flash full) = some .full)
    (other : sectorStateOf (flash full.other) = some .inUse) {stop stop' : Nat}
    (log : LogFrom geometry (flash full) sectorHeaderSize records stop)
    (log' : LogFrom geometry (flash full.other) sectorHeaderSize records' stop') :
    TooFar geometry (records ++ records') stop' ↔ Overfull geometry flash := by
  refine ⟨fun far => ⟨full, records, stop, isFull, log, Or.inr ⟨other, records', stop', log', far⟩⟩,
    fun overfull => ?_⟩
  obtain ⟨first, firstStop, firstLog, ⟨available, -⟩ | ⟨-, second, secondStop, secondLog, far⟩⟩ :=
    overfull.only (fun impossible => nomatch other.symm.trans impossible)
  · exact nomatch other.symm.trans available
  · obtain ⟨rfl, rfl⟩ := log.unique firstLog
    obtain ⟨rfl, rfl⟩ := log'.unique secondLog
    exact far

/-- With one full sector, `init` comes back at a nesting depth exactly if what it has loaded fits behind
the end of the last log, or one of the answers it gets at that depth is false. -/
theorem initSectors_mixed {full : Sector} (isFull : states full = .full)
    (other : states full.other ≠ .full) (depth : Nat)
    (shown : ∀ sector, sectorStateOf (state.flash sector) = some (states sector))
    (clear : Agree state.memBuffer (fun _ => 0) 0 geometry.storageSize) :
    (initSectors geometry depth state states).isSome = true ↔
      (Overfull geometry state.flash → (refusal depth state.eraseOk).isSome = true) := by
  have showsFull : sectorStateOf (state.flash full) = some .full := (shown full).trans (by rw [isFull])
  have showsOther : sectorStateOf (state.flash full.other) ≠ some .full := fun impossible =>
    other (Option.some.inj ((shown _).symm.trans impossible))
  rw [initSectors_full isFull other]
  rcases loadSector_cases geometry state full with
    ⟨records, stop, calls, log, loaded⟩ | ⟨failed, none⟩
  · rw [loaded]
    simp only [Bool.not_true, Bool.false_eq_true, if_false]
    cases otherState : states full.other with
    | full => exact absurd otherState other
    | available =>
      have idle : ∀ later, loadIfWritten geometry later full.other .available = (true, later) :=
        fun _ => rfl
      rw [idle]
      exact (@writeOut_isSome geometry depth { state with
          memBuffer := stored state.memBuffer records
          writeOffset := stop
          calls := state.calls ++ calls } full records stop showsFull
          (stored_congr records clear) rfl).trans (imp_congr_left
        (overfull_available showsFull ((shown _).trans (by rw [otherState])) log))
    | inUse =>
      have busy : ∀ later, loadIfWritten geometry later full.other .inUse =
          loadSector geometry later full.other := fun _ => rfl
      rw [busy]
      have showsInUse : sectorStateOf (state.flash full.other) = some .inUse :=
        (shown _).trans (by rw [otherState])
      rcases loadSector_cases geometry { state with
          memBuffer := stored state.memBuffer records
          writeOffset := stop
          calls := state.calls ++ calls } full.other with
        ⟨records', stop', calls', log', loaded'⟩ | ⟨failed, none⟩
      · rw [loaded']
        have memory : Agree (stored (stored state.memBuffer records) records')
            (stored (fun _ => 0) (records ++ records')) 0 geometry.storageSize := by
          have joined := stored_congr (records ++ records') clear
          rwa [stored, List.foldl_append] at joined
        exact (@writeOut_isSome geometry depth { state with
            memBuffer := stored (stored state.memBuffer records) records'
            writeOffset := stop'
            calls := state.calls ++ calls ++ calls' } full (records ++ records') stop' showsFull
            memory rfl).trans (imp_congr_left (overfull_inUse showsFull showsInUse log log'))
      · rw [failed]
        refine ⟨fun _ overfull => ?_, fun _ => rfl⟩
        obtain ⟨-, -, -, ⟨available, -⟩ | ⟨-, second, secondStop, secondLog, -⟩⟩ :=
          overfull.only showsOther
        · exact nomatch showsInUse.symm.trans available
        · exact absurd secondLog (none _ _)
  · rw [failed]
    refine ⟨fun _ overfull => ?_, fun _ => rfl⟩
    obtain ⟨first, firstStop, firstLog, -⟩ := overfull.only showsOther
    exact absurd firstLog (none _ _)

/-- `init` comes back at a nesting depth exactly if it need not write out what does not fit, or one of
the answers it gets at that depth is false. -/
theorem init_isSome_iff (geometry : Geometry) (depth : Nat) (state : State) :
    (init geometry depth state).isSome = true ↔
      (Overfull geometry state.flash → (refusal depth state.eraseOk).isSome = true) := by
  rw [init_eq]
  cases shown0 : sectorStateOf (state.flash .s0) with
  | none =>
    refine ⟨fun _ overfull => ?_, fun _ => rfl⟩
    obtain ⟨full, otherState, isFull, other, -⟩ := overfull.sectors
    cases full with
    | s0 => exact nomatch shown0.symm.trans isFull
    | s1 => exact nomatch shown0.symm.trans other
  | some state0 =>
    cases shown1 : sectorStateOf (state.flash .s1) with
    | none =>
      refine ⟨fun _ overfull => ?_, fun _ => rfl⟩
      obtain ⟨full, otherState, isFull, other, -⟩ := overfull.sectors
      cases full with
      | s0 => exact nomatch shown1.symm.trans other
      | s1 => exact nomatch shown1.symm.trans isFull
    | some state1 =>
      dsimp only
      generalize named : (fun sector => match sector with
        | Sector.s0 => state0
        | Sector.s1 => state1) = states
      have shown : ∀ sector, sectorStateOf (state.flash sector) = some (states sector) := by
        rw [← named]
        intro sector
        cases sector with
        | s0 => exact shown0
        | s1 => exact shown1
      by_cases plain : ∀ full, states full = .full → states full.other = .full
      · refine ⟨fun _ overfull => ?_, fun _ => initSectors_plain plain depth _⟩
        obtain ⟨full, otherState, isFull, other, notFull⟩ := overfull.sectors
        rw [shown] at isFull other
        rw [plain full (Option.some.inj isFull)] at other
        exact absurd (Option.some.inj other).symm notFull
      · obtain ⟨full, mixed⟩ := not_forall.mp plain
        obtain ⟨isFull, other⟩ := Classical.not_imp.mp mixed
        refine initSectors_mixed isFull other depth shown fun address _ inside => ?_
        exact fill_inside _ _ _ _ inside

/-- `init` comes back exactly if it need not write out what does not fit, or one of the answers of
`flash_erase_ok` is false. -/
theorem init_returns_iff (geometry : Geometry) (state : State) :
    (∃ depth, (init geometry depth state).isSome = true) ↔
      ¬ (Overfull geometry state.flash ∧ ∀ index, state.eraseOk index = true) := by
  constructor
  · rintro ⟨depth, returned⟩ ⟨overfull, always⟩
    have answered := (init_isSome_iff geometry depth state).mp returned overfull
    rw [refusal_always always] at answered
    exact nomatch answered
  · intro either
    by_cases overfull : Overfull geometry state.flash
    · obtain ⟨index, once⟩ := not_forall.mp fun always => either ⟨overfull, always⟩
      rw [Bool.not_eq_true] at once
      refine ⟨index, (init_isSome_iff geometry index state).mpr fun _ => ?_⟩
      rw [refusal_once once]
      rfl
    · exact ⟨0, (init_isSome_iff geometry 0 state).mpr fun impossible => absurd impossible overfull⟩

/-- A full sector with three records of 64 ones, and an available one. -/
def cutSwitch : Flash := fun sector =>
  match sector with
  | .s0 =>
    let record := encodeBlockHeader .valid 0 7 ++ List.replicate 64 1
    put (fun _ => 0xFF) 0 (encodeSectorHeader .full ++ record ++ record ++ record)
  | .s1 => put (fun _ => 0xFF) 0 (encodeSectorHeader .available)

theorem overfull_cutSwitch : Overfull chunkGeometry cutSwitch :=
  ⟨.s0, [(0, List.replicate 64 1), (0, List.replicate 64 1), (0, List.replicate 64 1)], 202,
    by decide +kernel,
    .record (by decide +kernel : found _ _ _ = .record 0 (List.replicate 64 1) 70)
      (.record (by decide +kernel : found _ _ _ = .record 0 (List.replicate 64 1) 136)
        (.record (by decide +kernel : found _ _ _ = .record 0 (List.replicate 64 1) 202)
          (.ended (by decide +kernel)))),
    Or.inl ⟨by decide +kernel, by decide +kernel, by decide +kernel⟩⟩

/-- Power was lost in `switch_sectors` behind the first mark. When erasing is always allowed, `init`
goes deeper than any bound. -/
theorem not_init_returns_cutSwitch :
    ¬ ∃ depth, (init chunkGeometry depth (fresh cutSwitch (fun _ => 0) fun _ => true)).isSome =
      true := by
  rintro ⟨depth, returned⟩
  have answered := (init_isSome_iff chunkGeometry depth _).mp returned overfull_cutSwitch
  have deeper : refusal depth (fresh cutSwitch (fun _ => 0) fun _ => true).eraseOk = none :=
    refusal_always (fun _ => rfl) depth
  rw [deeper] at answered
  exact nomatch answered

end Urus.FlashStorage
