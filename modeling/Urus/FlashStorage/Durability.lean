/-
This file is about whole runs of the flash storage: any number of writes and boots, on
one flash, with the answers of `flash_erase_ok` left open.

A ghost beside the object says what is known of every byte. The step lemmas say what
one write and one boot do to an object and its ghost, and the theorems about runs
follow by induction over the events.

Two defects of the source are conditions of these theorems. A write behind a boot that
found sector 1 in use and sector 0 available goes to sector 0, where no later boot
looks for it: every write is asked to find its current sector in use. And a block
number has 11 bits, so that only the first 16384 bytes can be stored.
-/

import Urus.FlashStorage.Boot

namespace Urus.FlashStorage

open Image

/-! ### One write and one boot -/

/-- What a byte may read as while a write is under way: what it could before, or the new
value. -/
def Widened (allowed : Nat → UInt8 → Prop) (offset : Nat) (data : List UInt8) (address : Nat)
    (value : UInt8) : Prop :=
  allowed address value ∨
    (offset ≤ address ∧ address < offset + data.length) ∧ value = data.getD (address - offset) 0

/-- What a byte reads as after a successful write. -/
def Settled (allowed : Nat → UInt8 → Prop) (offset : Nat) (data : List UInt8) (address : Nat)
    (value : UInt8) : Prop :=
  if offset ≤ address ∧ address < offset + data.length then value = data.getD (address - offset) 0
  else allowed address value

/-- Change a range of the RAM copy. -/
def State.change (state : State) (offset : Nat) (data : List UInt8) : State :=
  { state with memBuffer := put state.memBuffer offset data }

theorem Widened.settled {allowed : Nat → UInt8 → Prop} {offset : Nat} {data : List UInt8}
    {address : Nat} {value : UInt8} (widened : Widened allowed offset data address value)
    (written : offset ≤ address → address < offset + data.length →
      value = data.getD (address - offset) 0) : Settled allowed offset data address value := by
  unfold Settled
  split
  · rename_i inside
    exact written inside.1 inside.2
  · rename_i outside
    rcases widened with old | ⟨inside, -⟩
    · exact old
    · exact absurd inside outside

section Events

variable {geometry : Geometry} {allowed allowed' : Nat → UInt8 → Prop} {state : State}
  {otherState : SectorState} {below records : List Record}

/-- The RAM copy with the new bytes shows the new value where it was changed. -/
theorem Live.change (live : Live geometry allowed state otherState below records) (offset : Nat)
    (data : List UInt8) :
    Live geometry (Widened allowed offset data) (state.change offset data) otherState below
      records := by
  refine ⟨⟨live.view.mono fun _ _ _ old => Or.inl old, live.offset, live.noError,
    fun address bound => ?_⟩, live.reserve⟩
  show Widened allowed offset data address (put state.memBuffer offset data address)
  by_cases inside : offset ≤ address ∧ address < offset + data.length
  · exact Or.inr ⟨inside, put_inside _ _ _ _ inside.1 inside.2⟩
  · rw [put_outside _ _ _ _ (by omega)]
    exact Or.inl (live.memory address bound)

/-- A change of the RAM copy and the write behind it. -/
theorem Live.write_change (live : Live geometry allowed state otherState below records)
    (small : geometry.storageSize ≤ 16384) (depth offset : Nat) (data : List UInt8)
    (inside : offset + data.length ≤ geometry.storageSize) :
    ∃ ok state' otherState' below' records',
      write geometry (depth + 1) (state.change offset data) offset data.length =
        some (ok, state') ∧
      Live geometry (Widened allowed offset data) state' otherState' below' records' ∧
      (ok = true → Live geometry (Settled allowed offset data) state' otherState' below' records') ∧
      (AllValid records → AllValid records') ∧
      Steps geometry (Shape geometry (Widened allowed offset data)) (state.change offset data)
        state' := by
  obtain ⟨ok, state', otherState', below', records', result, live', valid, steps, memory, shown⟩ :=
    write_live depth offset data.length small (live.change offset data) inside
  refine ⟨ok, state', otherState', below', records', result, live', fun success => ?_, valid, steps⟩
  have new : ∀ address, offset ≤ address → address < offset + data.length →
      (state.change offset data).memBuffer address = data.getD (address - offset) 0 :=
    fun address low high => put_inside _ _ _ _ low high
  refine ⟨⟨⟨live'.view.used, live'.view.other, live'.view.role, fun address bound => ?_⟩,
    live'.offset, live'.noError, fun address bound => ?_⟩, live'.reserve⟩
  · refine (live'.view.shows address bound).settled fun low high => ?_
    rw [shown success address low high, new address low high]
  · refine (live'.memory address bound).settled fun low high => ?_
    rw [memory, new address low high]

/-- The object is ready for writes, up to its current sector. -/
def Serving (geometry : Geometry) (allowed : Nat → UInt8 → Prop) (state : State) : Prop :=
  ∃ current otherState below records,
    Live geometry allowed { state with currentSector := current } otherState below records

/-- The current sector of the object is marked as in use. -/
def CurrentInUse (state : State) : Prop :=
  sectorStateOf (state.flash state.currentSector) = some .inUse

theorem Serving.mono (serving : Serving geometry allowed state)
    (weaker : ∀ address value, address < geometry.storageSize → allowed address value →
      allowed' address value) :
    Serving geometry allowed' state := by
  obtain ⟨current, otherState, below, records, live⟩ := serving
  exact ⟨current, otherState, below, records, live.toStore.mono weaker, live.reserve⟩

theorem Live.serving (live : Live geometry allowed state otherState below records) :
    Serving geometry allowed state := ⟨state.currentSector, otherState, below, records, live⟩

/-- An object whose current sector is in use is ready for writes. -/
theorem Serving.live (serving : Serving geometry allowed state) (inUse : CurrentInUse state) :
    ∃ otherState below records, Live geometry allowed state otherState below records := by
  obtain ⟨current, otherState, below, records, live⟩ := serving
  by_cases same : state.currentSector = current
  · subst same
    exact ⟨otherState, below, records, live⟩
  · have there : state.currentSector = current.other := by
      revert same
      cases state.currentSector <;> cases current <;> decide
    have shown : sectorStateOf (state.flash current.other) = some otherState :=
      live.view.other.sectorStateOf_eq
    rw [CurrentInUse, there, shown] at inUse
    rcases live.view.role with full | ⟨available, -⟩
    · rw [full] at inUse
      cases inUse
    · rw [available] at inUse
      cases inUse

theorem write_nothing (depth offset : Nat) (noError : state.writeError = false) :
    write geometry depth state offset 0 = some (true, state) := by
  cases depth <;> simp only [write, noError, Bool.false_eq_true, if_false] <;> rfl

/-- A write by an object whose current sector is in use. -/
theorem Serving.write_change (serving : Serving geometry allowed state)
    (small : geometry.storageSize ≤ 16384) (depth offset : Nat) (data : List UInt8)
    (inside : offset + data.length ≤ geometry.storageSize)
    (ready : data ≠ [] → CurrentInUse state) :
    ∃ ok state', write geometry (depth + 1) (state.change offset data) offset data.length =
        some (ok, state') ∧
      Serving geometry (Widened allowed offset data) state' ∧
      (ok = true → Serving geometry (Settled allowed offset data) state') ∧
      Steps geometry (Shape geometry (Widened allowed offset data)) (state.change offset data)
        state' := by
  by_cases nothing : data = []
  · subst nothing
    have same : state.change offset [] = state := by
      rw [State.change, put_nil]
    obtain ⟨current, otherState, below, records, live⟩ := serving
    have widen : ∀ address value, address < geometry.storageSize → allowed address value →
        Widened allowed offset [] address value := fun _ _ _ old => Or.inl old
    have settle : ∀ address value, address < geometry.storageSize → allowed address value →
        Settled allowed offset [] address value := by
      intro address value _ old
      have outside : ¬ (offset ≤ address ∧ address < offset + 0) := by omega
      rw [Settled, List.length_nil, if_neg outside]
      exact old
    rw [same]
    refine ⟨true, state, write_nothing _ _ live.noError, ?_, fun _ => ?_, Performs.refl ?_⟩
    · exact Serving.mono ⟨current, otherState, below, records, live⟩ widen
    · exact Serving.mono ⟨current, otherState, below, records, live⟩ settle
    · exact Shape.mono widen _ live.shape
  · obtain ⟨otherState, below, records, live⟩ := serving.live (ready nothing)
    obtain ⟨ok, state', otherState', below', records', result, live', settled, -, steps⟩ :=
      live.write_change small depth offset data inside
    exact ⟨ok, state', result, live'.serving, fun success => (settled success).serving, steps⟩

/-- A boot on a normal flash shows an allowed value for every byte, and that value stays. -/
theorem boot_normal {flash : Flash} {current : Sector}
    (small : geometry.storageSize ≤ 16384)
    (view : Normal geometry allowed flash current otherState below records)
    (room : RoomToWriteOut geometry otherState below records)
    (depth : Nat) (memory : Image) (eraseOk : Nat → Bool) :
    ∃ state', init geometry depth (fresh flash memory eraseOk) = some (true, state') ∧
      Serving geometry (fun address value => value = state'.memBuffer address) state' ∧
      Steps geometry (Shape geometry allowed) (fresh flash memory eraseOk) state' ∧
      ∀ address, address < geometry.storageSize → allowed address (state'.memBuffer address) := by
  obtain ⟨state', records', result, live, steps, shown⟩ :=
    init_normal small view room depth memory eraseOk
  have shows : ∀ address value, address < geometry.storageSize →
      Shown below records address value → allowed address value := by
    intro address value inside same
    rw [same]
    exact view.shows address inside
  refine ⟨state', result, Serving.mono ⟨current, _, _, _, live⟩ fun address value inside same => ?_,
    steps.mono (Shape.mono shows), fun address inside => shows address _ inside (shown address inside)⟩
  rw [shown address inside]
  exact same

/-- A boot of an object that was ready for writes. -/
theorem Serving.boot (serving : Serving geometry allowed state)
    (small : geometry.storageSize ≤ 16384) (depth : Nat) (memory : Image) (eraseOk : Nat → Bool) :
    ∃ state', init geometry depth (fresh state.flash memory eraseOk) = some (true, state') ∧
      Serving geometry (fun address value => value = state'.memBuffer address) state' ∧
      Steps geometry (Shape geometry allowed) (fresh state.flash memory eraseOk) state' ∧
      ∀ address, address < geometry.storageSize → allowed address (state'.memBuffer address) := by
  obtain ⟨current, otherState, below, records, live⟩ := serving
  exact boot_normal small live.view live.room depth memory eraseOk

theorem boot_erased (geometry : Geometry) (depth : Nat) (memory : Image) (eraseOk : Nat → Bool) :
    ∃ state', init geometry depth (fresh (fun _ _ => 0xFF) memory eraseOk) = some (true, state') ∧
      Serving geometry (fun _ value => value = 0) state' := by
  have bad : headerSignature (slice (fun _ => 0xFF) 0 sectorHeaderSize) ≠ signature := by decide
  refine ⟨_, init_badHeader geometry depth _ bad, Live.serving (eraseAll_live _ (Or.inl rfl)
    (fun address inside => ?_) fun _ _ => rfl)⟩
  exact fill_inside memory _ 0 address inside

end Events

/-! ### Writes and reboots -/

/-- A change of the RAM copy with the write behind it, or a reboot with whatever the RAM holds
and whatever `flash_erase_ok` will answer. -/
inductive Event
  | write (offset : Nat) (data : List UInt8)
  | reboot (memory : Image) (eraseOk : Nat → Bool)

/-- The object, what it returned last, and beside them the value that every byte had at its last
write, if that write returned true. -/
structure Run where
  state : State
  returned : Bool
  stored : Nat → Option UInt8

/-- The ghost after a write. -/
def storedAfter (stored : Nat → Option UInt8) (ok : Bool) (offset : Nat) (data : List UInt8)
    (address : Nat) : Option UInt8 :=
  if offset ≤ address ∧ address < offset + data.length then
    if ok then some (data.getD (address - offset) 0) else none
  else stored address

def Run.write (geometry : Geometry) (depth : Nat) (run : Run) (offset : Nat) (data : List UInt8) :
    Option Run :=
  match FlashStorage.write geometry depth (run.state.change offset data) offset data.length with
  | none => none
  | some (ok, state) => some ⟨state, ok, storedAfter run.stored ok offset data⟩

def Run.reboot (geometry : Geometry) (depth : Nat) (run : Run) (memory : Image)
    (eraseOk : Nat → Bool) : Option Run :=
  match init geometry depth (fresh run.state.flash memory eraseOk) with
  | none => none
  | some (ok, state) => some ⟨state, ok, run.stored⟩

def Run.step (geometry : Geometry) (depth : Nat) (run : Run) : Event → Option Run
  | .write offset data => run.write geometry depth offset data
  | .reboot memory eraseOk => run.reboot geometry depth memory eraseOk

/-- Erased flash before its first boot. Every byte counts as written with zero. -/
def erasedFlash (memory : Image) : Run :=
  ⟨fresh (fun _ _ => 0xFF) memory fun _ => false, true, fun _ => some 0⟩

/-- The values a byte may have. -/
def Run.allowed (stored : Nat → Option UInt8) (address : Nat) (value : UInt8) : Prop :=
  ∀ expected, stored address = some expected → value = expected

/-- A write stays inside the storage. -/
def Event.Inside (geometry : Geometry) : Event → Prop
  | .write offset data => offset + data.length ≤ geometry.storageSize
  | .reboot _ _ => True

/-- A write finds the current sector in use. -/
def Run.Ready (run : Run) : Event → Prop
  | .write _ data => data ≠ [] → CurrentInUse run.state
  | .reboot _ _ => True

instance (geometry : Geometry) : DecidablePred (Event.Inside geometry)
  | .write offset data => inferInstanceAs (Decidable (offset + data.length ≤ geometry.storageSize))
  | .reboot _ _ => isTrue trivial

instance (state : State) : Decidable (CurrentInUse state) :=
  inferInstanceAs (Decidable (sectorStateOf (state.flash state.currentSector) = some .inUse))

instance (run : Run) : DecidablePred run.Ready
  | .write _ data => inferInstanceAs (Decidable (data ≠ [] → CurrentInUse run.state))
  | .reboot _ _ => isTrue trivial

/-- After a boot, some events and another boot: the last boot returned true and every byte whose
last write returned true has the value of that write. -/
def Durable (geometry : Geometry) (depth : Nat) (memory : Image) (eraseOk : Nat → Bool)
    (events : List Event) (memory' : Image) (eraseOk' : Nat → Bool) : Prop :=
  ∃ run, runSteps (Run.step geometry depth) (erasedFlash memory)
      ([.reboot memory eraseOk] ++ events ++ [.reboot memory' eraseOk']) = some run ∧
    run.returned = true ∧
    ∀ address, address < geometry.storageSize → ∀ value, run.stored address = some value →
      run.state.memBuffer address = value

section Durability

variable {geometry : Geometry}

/-- What holds of every object between two events. -/
def Run.Invariant (geometry : Geometry) (run : Run) : Prop :=
  Serving geometry (Run.allowed run.stored) run.state

theorem storedAfter_failed (stored : Nat → Option UInt8) (offset : Nat) (data : List UInt8)
    (address : Nat) (value : UInt8)
    (widened : Widened (Run.allowed stored) offset data address value) :
    Run.allowed (storedAfter stored false offset data) address value := by
  intro expected known
  by_cases inside : offset ≤ address ∧ address < offset + data.length
  · rw [storedAfter, if_pos inside] at known
    cases known
  · rw [storedAfter, if_neg inside] at known
    rcases widened with old | ⟨within, -⟩
    · exact old expected known
    · exact absurd within inside

theorem storedAfter_succeeded (stored : Nat → Option UInt8) (offset : Nat) (data : List UInt8)
    (address : Nat) (value : UInt8)
    (settled : Settled (Run.allowed stored) offset data address value) :
    Run.allowed (storedAfter stored true offset data) address value := by
  intro expected known
  by_cases inside : offset ≤ address ∧ address < offset + data.length
  · rw [storedAfter, if_pos inside, if_pos rfl] at known
    rw [Settled, if_pos inside] at settled
    rw [settled]
    exact Option.some.inj known
  · rw [storedAfter, if_neg inside] at known
    rw [Settled, if_neg inside] at settled
    exact settled expected known

theorem Run.write_invariant (small : geometry.storageSize ≤ 16384) (depth : Nat) (run : Run)
    (invariant : run.Invariant geometry) (offset : Nat) (data : List UInt8)
    (inside : offset + data.length ≤ geometry.storageSize)
    (ready : data ≠ [] → CurrentInUse run.state) :
    ∃ next, run.write geometry (depth + 1) offset data = some next ∧ next.Invariant geometry := by
  obtain ⟨ok, state', result, widened, settled, -⟩ :=
    Serving.write_change invariant small depth offset data inside ready
  refine ⟨⟨state', ok, storedAfter run.stored ok offset data⟩, ?_, ?_⟩
  · rw [Run.write, result]
  · cases ok with
    | false =>
      exact widened.mono fun address value _ old =>
        storedAfter_failed run.stored offset data address value old
    | true =>
      exact (settled rfl).mono fun address value _ new =>
        storedAfter_succeeded run.stored offset data address value new

/-- One reboot keeps the invariant, returns true and shows the stored bytes. -/
theorem Run.reboot_invariant (small : geometry.storageSize ≤ 16384) (depth : Nat) (run : Run)
    (invariant : run.Invariant geometry) (memory : Image) (eraseOk : Nat → Bool) :
    ∃ next, run.reboot geometry depth memory eraseOk = some next ∧ next.Invariant geometry ∧
      next.returned = true ∧
      ∀ address, address < geometry.storageSize → ∀ value, next.stored address = some value →
        next.state.memBuffer address = value := by
  obtain ⟨state', result, serving, -, shown⟩ := Serving.boot invariant small depth memory eraseOk
  refine ⟨⟨state', true, run.stored⟩, ?_, ?_, rfl, shown⟩
  · rw [Run.reboot, result]
  · refine serving.mono fun address value inside same => ?_
    rw [same]
    exact shown address inside

theorem Run.step_invariant (small : geometry.storageSize ≤ 16384) (depth : Nat) (run : Run)
    (event : Event) (invariant : run.Invariant geometry)
    (good : event.Inside geometry ∧ run.Ready event) :
    ∃ next, run.step geometry (depth + 1) event = some next ∧ next.Invariant geometry := by
  cases event with
  | write offset data => exact run.write_invariant small depth invariant offset data good.1 good.2
  | reboot memory eraseOk =>
    obtain ⟨next, result, kept, -⟩ := run.reboot_invariant small (depth + 1) invariant memory eraseOk
    exact ⟨next, result, kept⟩

/-- The first boot establishes the invariant. -/
theorem erasedFlash_reboot (geometry : Geometry) (depth : Nat) (memory : Image) (eraseOk : Nat → Bool) :
    ∃ next, (erasedFlash memory).reboot geometry depth memory eraseOk = some next ∧
      next.Invariant geometry := by
  obtain ⟨state', result, serving⟩ := boot_erased geometry depth memory eraseOk
  refine ⟨⟨state', true, fun _ => some 0⟩, ?_, ?_⟩
  · have booted : init geometry depth (fresh (erasedFlash memory).state.flash memory eraseOk) =
        some (true, state') := result
    rw [Run.reboot, booted]
    rfl
  · refine serving.mono fun address value _ zero expected known => ?_
    rw [zero]
    exact Option.some.inj known

/-- Every run whose writes all find their current sector in use is durable. -/
theorem durable_of_ready (geometry : Geometry) (small : geometry.storageSize ≤ 16384)
    (depth : Nat) (memory : Image) (eraseOk : Nat → Bool) (events : List Event) (memory' : Image)
    (eraseOk' : Nat → Bool) (inside : ∀ event ∈ events, event.Inside geometry)
    (ready : ∀ booted,
      (erasedFlash memory).reboot geometry (depth + 1) memory eraseOk = some booted →
        Meets (Run.step geometry (depth + 1)) Run.Ready booted events) :
    Durable geometry (depth + 1) memory eraseOk events memory' eraseOk' := by
  obtain ⟨booted, first, start⟩ := erasedFlash_reboot geometry (depth + 1) memory eraseOk
  obtain ⟨run, reached, invariant⟩ := runSteps_invariant (Run.Invariant geometry)
    (fun run event kept good => run.step_invariant small depth event kept good) events booted start
    ((meets_of_forall events booted inside).and (ready booted first))
  obtain ⟨last, second, -, returned, shown⟩ :=
    run.reboot_invariant small (depth + 1) invariant memory' eraseOk'
  refine ⟨last, ?_, returned, shown⟩
  rw [runSteps_append, runSteps_append]
  show ((((erasedFlash memory).reboot geometry (depth + 1) memory eraseOk).bind fun next =>
    some next).bind fun next => _).bind _ = _
  rw [first]
  show ((runSteps _ booted events).bind fun next => _) = _
  rw [reached]
  show (run.reboot geometry (depth + 1) memory' eraseOk').bind _ = _
  rw [second]
  rfl

/-- A storage of one chunk in two small sectors. -/
def smallGeometry : Geometry := ⟨64, 202, oneChunk_aligned, oneChunk_room⟩

/-- Write the whole storage of one chunk with one value. -/
def writeValue (value : UInt8) : Event := .write 0 (List.replicate 64 value)

/-- Reboot with empty RAM and a `flash_erase_ok` that says no. -/
def rebootPlain : Event := .reboot (fun _ => 0) fun _ => false

/-- Two writes around a reboot. -/
theorem durable_of_ready_two :
    Durable smallGeometry 1 (fun _ => 0) (fun _ => false)
      [writeValue 1, rebootPlain, writeValue 2] (fun _ => 0) (fun _ => false) :=
  durable_of_ready smallGeometry (by decide) 0 _ _ _ _ _ (by decide) (by decide)

/-- Four writes move the storage to sector 1, the reboot behind them makes sector 0 available,
and after one more reboot the fifth write goes to sector 0. -/
def lostWrite : List Event :=
  [writeValue 1, writeValue 2, writeValue 3, writeValue 4, rebootPlain, rebootPlain, writeValue 5]

/-- The fifth write returns true, and the boot behind it shows the fourth. -/
theorem not_durable_lostWrite :
    (∀ event ∈ lostWrite, event.Inside smallGeometry) ∧
      ¬ Durable smallGeometry 1 (fun _ => 0) (fun _ => false) lostWrite (fun _ => 0)
        (fun _ => false) := by
  refine ⟨by decide, ?_⟩
  rintro ⟨run, reached, -, shown⟩
  have bytes : (runSteps (Run.step smallGeometry 1) (erasedFlash fun _ => 0)
      ([.reboot (fun _ => 0) fun _ => false] ++ lostWrite ++
        [.reboot (fun _ => 0) fun _ => false])).map
        (fun run => (run.stored 0, run.state.memBuffer 0)) = some (some 5, 4) := by
    decide +kernel
  rw [reached] at bytes
  obtain ⟨known, read⟩ := Prod.mk.inj (Option.some.inj bytes)
  have wrong := shown 0 (by decide) 5 known
  rw [read] at wrong
  exact absurd wrong (by decide)

end Durability

/-! ### The log within one boot -/

/-- The current sector is in use and its log, up to the write offset, is made of valid records
with erased flash behind it. Replaying the full sector, if there is one, and then the current
one gives the RAM copy for every byte whose last write returned true. -/
def LogInvariant (geometry : Geometry) (run : Run) : Prop :=
  ∃ otherState below records,
    Holds geometry (run.state.flash run.state.currentSector) .inUse records ∧
    AllValid records ∧ run.state.writeOffset = 4 + logSize records ∧
    Holds geometry (run.state.flash run.state.currentSector.other) otherState below ∧
    (otherState = .full ∨ otherState = .available ∧ below = []) ∧
    ∀ address, address < geometry.storageSize → ∀ value, run.stored address = some value →
      content (below ++ records) address = run.state.memBuffer address

/-- A run of writes of one boot. -/
def runWrites (geometry : Geometry) (depth : Nat) : Run → List (Nat × List UInt8) → Option Run :=
  runSteps fun run written => run.write geometry depth written.1 written.2

/-- The object that `erase_all` leaves. Nothing is known of any byte yet. -/
def afterEraseAll (state : State) : Run := ⟨(eraseAll state).2, (eraseAll state).1, fun _ => none⟩

section OneBoot

variable {geometry : Geometry}

/-- An object that is ready for writes, with a log of valid records only. -/
def Run.Logging (geometry : Geometry) (run : Run) : Prop :=
  ∃ otherState below records,
    Live geometry (Run.allowed run.stored) run.state otherState below records ∧ AllValid records

theorem Run.Logging.logInvariant {run : Run} (logging : run.Logging geometry) :
    LogInvariant geometry run := by
  obtain ⟨otherState, below, records, live, valid⟩ := logging
  refine ⟨otherState, below, records, live.view.used, valid, live.offset, live.view.other,
    live.view.role, fun address inside value known => ?_⟩
  rw [live.view.shows address inside value known, live.memory address inside value known]

/-- One write keeps a log of valid records, by fair callbacks. -/
theorem Run.write_logging (small : geometry.storageSize ≤ 16384) (depth : Nat) (run : Run)
    (logging : run.Logging geometry) (offset : Nat) (data : List UInt8)
    (inside : offset + data.length ≤ geometry.storageSize) :
    ∃ next, run.write geometry (depth + 1) offset data = some next ∧ next.Logging geometry ∧
      Steps geometry (fun _ => True) run.state next.state := by
  obtain ⟨otherState, below, records, live, valid⟩ := logging
  obtain ⟨ok, state', otherState', below', records', result, widened, settled, stays, steps⟩ :=
    live.write_change small depth offset data inside
  refine ⟨⟨state', ok, storedAfter run.stored ok offset data⟩, ?_,
    ⟨otherState', below', records', ?_, stays valid⟩, steps.mono fun _ _ => trivial⟩
  · rw [Run.write, result]
  · cases ok with
    | false =>
      exact ⟨widened.toStore.mono fun address value _ old =>
        storedAfter_failed run.stored offset data address value old, widened.reserve⟩
    | true =>
      exact ⟨(settled rfl).toStore.mono fun address value _ new =>
        storedAfter_succeeded run.stored offset data address value new, (settled rfl).reserve⟩

theorem afterEraseAll_logging (state : State)
    (reserve : state.reservedSpace = 0 ∨ state.reservedSpace = reserveSize geometry.storageSize) :
    (afterEraseAll state).Logging geometry :=
  ⟨.available, [], [], eraseAll_live state reserve
    (fun _ _ _ unknown => absurd unknown (Option.some_ne_none _).symm)
    (fun _ _ _ unknown => absurd unknown (Option.some_ne_none _).symm), allValid_nil⟩

/-- Within one boot, every run of writes keeps the log. All callbacks are fair, and one level of
nesting of `write` in itself is enough. -/
theorem runWrites_logInvariant (geometry : Geometry) (small : geometry.storageSize ≤ 16384)
    (state : State)
    (reserve : state.reservedSpace = 0 ∨ state.reservedSpace = reserveSize geometry.storageSize)
    (writes : List (Nat × List UInt8))
    (inside : ∀ written ∈ writes, written.1 + written.2.length ≤ geometry.storageSize) :
    ∃ run, runWrites geometry 1 (afterEraseAll state) writes = some run ∧
      LogInvariant geometry run ∧
      Steps geometry (fun _ => True) (afterEraseAll state).state run.state := by
  have start : Steps geometry (fun _ => True) (afterEraseAll state).state
      (afterEraseAll state).state := Performs.refl trivial
  obtain ⟨run, reached, logging, steps⟩ := runSteps_invariant
    (fun run => run.Logging geometry ∧
      Steps geometry (fun _ => True) (afterEraseAll state).state run.state)
    (fun run written kept within => by
      obtain ⟨next, result, logging, steps⟩ :=
        run.write_logging small 0 kept.1 written.1 written.2 within
      exact ⟨next, result, logging, kept.2.trans steps⟩)
    writes (afterEraseAll state) ⟨afterEraseAll_logging state reserve, start⟩
    (meets_of_forall writes _ inside)
  exact ⟨run, reached, logging.logInvariant, steps⟩

/-- A write in an empty log of the small storage. -/
theorem runWrites_logInvariant_small :
    ∃ run, runWrites smallGeometry 1 (afterEraseAll (fresh (fun _ _ => 0) (fun _ => 3)
        fun _ => true)) [(3, [1, 2, 3]), (0, List.replicate 64 0)] = some run ∧
      LogInvariant smallGeometry run ∧
      Steps smallGeometry (fun _ => True)
        (afterEraseAll (fresh (fun _ _ => 0) (fun _ => 3) fun _ => true)).state run.state :=
  runWrites_logInvariant smallGeometry (by decide) _ (Or.inl rfl) _ (by decide)

theorem Holds.content_unique {image : Image} {state state' : SectorState}
    {records records' : List Record} (first : Holds geometry image state records)
    (second : Holds geometry image state' records') : content records = content records' := by
  let loader := fresh (fun _ => image) (fun _ => 0) fun _ => false
  have holds : Holds geometry (loader.flash .s0) state records := first
  have holds' : Holds geometry (loader.flash .s0) state' records' := second
  obtain ⟨calls, -, loaded⟩ := loadSector_holds holds
  obtain ⟨calls', -, loaded'⟩ := loadSector_holds holds'
  rw [loaded] at loaded'
  exact congrArg State.memBuffer (Prod.mk.inj loaded').2

/-- A storage that is one chunk too large for the 11 bit block numbers. -/
def largeGeometry : Geometry := ⟨16448, 17096, by decide, by decide⟩

/-- An erased flash of the large storage, with the last chunk changed in RAM. -/
def lastChunkChanged : State :=
  (eraseAll (fresh (fun _ _ => 0) (fun _ => 0) fun _ => false)).2.change 16384
    (List.replicate 64 1)

theorem lastChunkChanged_live :
    Live largeGeometry (fun _ _ => True) lastChunkChanged .available [] [] := by
  have start : Live largeGeometry (fun _ _ => True)
      (eraseAll (fresh (fun _ _ => 0) (fun _ => 0) fun _ => false)).2 .available [] [] :=
    eraseAll_live _ (Or.inl rfl) (fun _ _ => trivial) fun _ _ => trivial
  exact ⟨⟨start.view, start.offset, start.noError, fun _ _ => trivial⟩, start.reserve⟩

/-- The last chunk of the large storage is recorded under block number 0. -/
theorem lastChunkChanged_record :
    (recordFor lastChunkChanged.memBuffer 16384 64).start = 0 ∧
      (recordFor lastChunkChanged.memBuffer 16384 64).data.length = 64 :=
  ⟨rfl, slice_length _ _ _⟩

/-- The write of the last chunk returns true, and its bytes are not in the log. -/
theorem not_logInvariant_largeGeometry :
    16384 + (List.replicate 64 (1 : UInt8)).length ≤ largeGeometry.storageSize ∧
      ¬ ∃ run, runWrites largeGeometry 1
          (afterEraseAll (fresh (fun _ _ => 0) (fun _ => 0) fun _ => false))
          [(16384, List.replicate 64 1)] = some run ∧ LogInvariant largeGeometry run := by
  refine ⟨by decide, ?_⟩
  rintro ⟨run, reached, otherState, below, records, used, -, -, other, role, shown⟩
  obtain ⟨start, length⟩ := lastChunkChanged_record
  have offset : lastChunkChanged.writeOffset = 4 := rfl
  have size : largeGeometry.storageSize = 16448 := rfl
  have sector : largeGeometry.flashSectorSize = 17096 := rfl
  have result : write largeGeometry 1 lastChunkChanged 16384 64 =
      some (true, writeRecord lastChunkChanged 16384 64) :=
    write_chunk 1 256 rfl (by decide)
  have stored := (writeRecord_store lastChunkChanged_live.toStore 16384 64
    (by rw [Record.InRange, start, length, size]; decide) (by rw [offset, sector]; decide)).1
  have final : run = ⟨writeRecord lastChunkChanged 16384 64, true,
      storedAfter (fun _ => none) true 16384 (List.replicate 64 1)⟩ := by
    have one : (match write largeGeometry 1 lastChunkChanged 16384 64 with
        | none => none
        | some (ok, state) => some (⟨state, ok,
          storedAfter (fun _ => none) ok 16384 (List.replicate 64 1)⟩ : Run)) = some run := by
      rw [← reached]
      exact (Option.bind_fun_some _).symm
    rw [result] at one
    exact (Option.some.inj one).symm
  subst final
  have empty : below = [] := by
    have available := other.sectorStateOf_eq.symm.trans stored.view.other.sectorStateOf_eq
    rcases role with full | ⟨-, nothing⟩
    · rw [full] at available
      cases available
    · exact nothing
  have same := used.content_unique stored.view.used
  have byte := shown 16384 (by decide) 1 rfl
  rw [empty, List.nil_append, same, List.nil_append] at byte
  rw [show content [recordFor lastChunkChanged.memBuffer 16384 64] =
      (recordFor lastChunkChanged.memBuffer 16384 64).load fun _ => 0 from rfl,
    Record.load_of_not_covers _ _ _ (by rintro ⟨-, -, high⟩; omega)] at byte
  exact absurd byte (by decide)

end OneBoot

end Urus.FlashStorage
