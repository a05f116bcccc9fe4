/-
This file is about power loss: between any two callbacks of a write or of a boot the
device may go off, and the next boot finds the flash as it was at that moment.

For every byte the device keeps a list of the values it may read as: one value after a
completed write or boot, and one more for every write that was cut short since then.
The theorem says that a boot returns true and shows one of these values for every
byte, after any number of writes, boots and losses.

Three kinds of images do not survive. A sector that is erased and has no header yet,
and a full sector beside an available one, are taken for a flash that has to be erased.
And a full sector that was being written out, by a boot or by `switch_full_sector`,
needs room for writing it out once more. `Recoverable` rules out these three images.
-/

import Urus.FlashStorage.Durability

namespace Urus.FlashStorage

open Image

/-! ### The device -/

/-- A device is running, or it is off with what is in flash. -/
inductive Power
  | on (state : State)
  | off (flash : Flash)

def Power.flash : Power → Flash
  | .on state => state.flash
  | .off flash => flash

/-- The device, and the values that every byte may read as. -/
structure Device where
  power : Power
  possible : Nat → List UInt8

/-- A loss strikes behind the given number of callbacks of the operation. -/
inductive DeviceEvent
  | write (offset : Nat) (data : List UInt8)
  | boot (memory : Image) (eraseOk : Nat → Bool)
  | lossInWrite (offset : Nat) (data : List UInt8) (count : Nat)
  | lossInBoot (memory : Image) (eraseOk : Nat → Bool) (count : Nat)

/-- The flash behind the first callbacks that lead from one state to a later one. -/
def flashAtLoss (before after : State) (count : Nat) : Flash :=
  deviceAtLoss FlashCall.apply State.flash State.calls before after count

/-- The values a byte may read as when a write did not complete. -/
def possibleDuring (possible : Nat → List UInt8) (offset : Nat) (data : List UInt8)
    (address : Nat) : List UInt8 :=
  if offset ≤ address ∧ address < offset + data.length then
    data.getD (address - offset) 0 :: possible address
  else possible address

/-- The values a byte may read as when a write did complete. -/
def possibleAfter (possible : Nat → List UInt8) (offset : Nat) (data : List UInt8)
    (address : Nat) : List UInt8 :=
  if offset ≤ address ∧ address < offset + data.length then [data.getD (address - offset) 0]
  else possible address

/-- One event. A write needs a running device, and a boot ends whatever was running. -/
def Device.step (geometry : Geometry) (depth : Nat) (device : Device) :
    DeviceEvent → Option Device
  | .write offset data =>
    match device.power with
    | .off _ => some device
    | .on state =>
      match FlashStorage.write geometry depth (state.change offset data) offset data.length with
      | none => none
      | some (ok, state) =>
        some ⟨.on state, if ok then possibleAfter device.possible offset data
          else possibleDuring device.possible offset data⟩
  | .boot memory eraseOk =>
    match init geometry depth (fresh device.power.flash memory eraseOk) with
    | none => none
    | some (ok, state) =>
      some ⟨.on state, if ok then fun address => [state.memBuffer address] else device.possible⟩
  | .lossInWrite offset data count =>
    match device.power with
    | .off _ => some device
    | .on state =>
      match FlashStorage.write geometry depth (state.change offset data) offset data.length with
      | none => none
      | some (_, after) =>
        some ⟨.off (flashAtLoss (state.change offset data) after count),
          possibleDuring device.possible offset data⟩
  | .lossInBoot memory eraseOk count =>
    match init geometry depth (fresh device.power.flash memory eraseOk) with
    | none => none
    | some (_, after) =>
      some ⟨.off (flashAtLoss (fresh device.power.flash memory eraseOk) after count),
        device.possible⟩

/-- A write stays inside the storage. -/
def DeviceEvent.Inside (geometry : Geometry) : DeviceEvent → Prop
  | .write offset data | .lossInWrite offset data _ => offset + data.length ≤ geometry.storageSize
  | .boot _ _ | .lossInBoot _ _ _ => True

/-! ### Images that survive a loss -/

/-- The object that a boot has when it has loaded a full sector and then the other one. -/
def loadedFrom (geometry : Geometry) (flash : Flash) (full : Sector) : State :=
  (loadSector geometry (loadSector geometry (fresh flash (fun _ => 0) fun _ => false) full).2
    full.other).2

/-- Both headers are good. A full sector has a sector in use beside it, and that sector has room
for every chunk of the storage that is not zero. -/
def Recoverable (geometry : Geometry) (flash : Flash) : Prop :=
  (sectorStateOf (flash .s0)).isSome ∧ (sectorStateOf (flash .s1)).isSome ∧
    ∀ sector ∈ [Sector.s0, Sector.s1], sectorStateOf (flash sector) = some .full →
      sectorStateOf (flash sector.other) = some .inUse ∧
        (loadedFrom geometry flash sector).writeOffset +
          66 * nonzeroChunks (loadedFrom geometry flash sector).memBuffer 0
            (geometry.storageSize / 64) ≤ geometry.flashSectorSize

/-- A device that went off by a loss of power was left with a recoverable image. -/
def Power.Recoverable (geometry : Geometry) : Power → Prop
  | .on _ => True
  | .off flash => FlashStorage.Recoverable geometry flash

/-- A running object writes to a sector in use. -/
def Power.CurrentInUse : Power → Prop
  | .on state => FlashStorage.CurrentInUse state
  | .off _ => True

/-- Writes go to a sector in use, and a boot behind a loss finds a recoverable image. -/
def Device.Ready (geometry : Geometry) (device : Device) : DeviceEvent → Prop
  | .write _ data | .lossInWrite _ data _ => data ≠ [] → device.power.CurrentInUse
  | .boot _ _ | .lossInBoot _ _ _ => device.power.Recoverable geometry

instance (geometry : Geometry) (flash : Flash) : Decidable (Recoverable geometry flash) :=
  inferInstanceAs (Decidable (_ ∧ _ ∧ _))

instance (geometry : Geometry) : (power : Power) → Decidable (power.Recoverable geometry)
  | .on _ => isTrue trivial
  | .off flash => inferInstanceAs (Decidable (FlashStorage.Recoverable geometry flash))

instance : (power : Power) → Decidable power.CurrentInUse
  | .on state => inferInstanceAs (Decidable (FlashStorage.CurrentInUse state))
  | .off _ => isTrue trivial

instance (geometry : Geometry) (device : Device) : DecidablePred (device.Ready geometry)
  | .write _ data => inferInstanceAs (Decidable (data ≠ [] → device.power.CurrentInUse))
  | .lossInWrite _ data _ => inferInstanceAs (Decidable (data ≠ [] → device.power.CurrentInUse))
  | .boot _ _ => inferInstanceAs (Decidable (device.power.Recoverable geometry))
  | .lossInBoot _ _ _ => inferInstanceAs (Decidable (device.power.Recoverable geometry))

instance (geometry : Geometry) : DecidablePred (DeviceEvent.Inside geometry)
  | .write offset data => inferInstanceAs (Decidable (offset + data.length ≤ geometry.storageSize))
  | .lossInWrite offset data _ =>
    inferInstanceAs (Decidable (offset + data.length ≤ geometry.storageSize))
  | .boot _ _ => isTrue trivial
  | .lossInBoot _ _ _ => isTrue trivial

/-- A boot of the device returns true and shows a possible value for every byte. -/
def Device.Boots (geometry : Geometry) (depth : Nat) (device : Device) : Prop :=
  ∀ memory eraseOk, ∃ state,
    init geometry depth (fresh device.power.flash memory eraseOk) = some (true, state) ∧
      ∀ address, address < geometry.storageSize →
        state.memBuffer address ∈ device.possible address

section PowerLoss

variable {geometry : Geometry} {allowed : Nat → UInt8 → Prop}

theorem loadedFrom_normal {flash : Flash} {current : Sector} {below records : List Record}
    (view : Normal geometry allowed flash current .full below records) :
    (loadedFrom geometry flash current.other).writeOffset = 4 + logSize records ∧
      (loadedFrom geometry flash current.other).memBuffer = content (below ++ records) := by
  have first : Holds geometry ((fresh flash (fun _ => 0) fun _ => false).flash current.other) .full
      below := view.other
  obtain ⟨calls, -, loaded⟩ := loadSector_holds first
  have second : Holds geometry ((loadSector geometry (fresh flash (fun _ => 0) fun _ => false)
      current.other).2.flash current.other.other) .inUse records := by
    rw [loaded, Sector.other_other]
    exact view.used
  obtain ⟨calls', -, loaded'⟩ := loadSector_holds second
  rw [loadedFrom, loaded', loaded]
  refine ⟨rfl, ?_⟩
  rw [content, replay_append]
  rfl

theorem sectorStateOf_blank {image : Image} (blank : ∀ address, image address = 0xFF) :
    sectorStateOf image = none := by
  have erased : image = fun _ => 0xFF := funext blank
  rw [erased]
  decide

theorem Recoverable.good {flash : Flash} (recoverable : Recoverable geometry flash)
    (sector : Sector) : (sectorStateOf (flash sector)).isSome := by
  cases sector with
  | s0 => exact recoverable.1
  | s1 => exact recoverable.2.1

theorem Recoverable.beside {flash : Flash} (recoverable : Recoverable geometry flash)
    (sector : Sector) (full : sectorStateOf (flash sector) = some .full) :
    sectorStateOf (flash sector.other) = some .inUse ∧
      (loadedFrom geometry flash sector).writeOffset +
        66 * nonzeroChunks (loadedFrom geometry flash sector).memBuffer 0
          (geometry.storageSize / 64) ≤ geometry.flashSectorSize :=
  recoverable.2.2 sector (by cases sector <;> decide) full

theorem Recoverable.normal {flash : Flash} (recoverable : Recoverable geometry flash)
    (shape : Shape geometry allowed flash) :
    ∃ current otherState below records,
      Normal geometry allowed flash current otherState below records ∧
        RoomToWriteOut geometry otherState below records := by
  cases shape with
  | normal current otherState below records view =>
    refine ⟨current, otherState, below, records, view, ?_⟩
    intro full
    subst full
    obtain ⟨end', memory⟩ := loadedFrom_normal view
    have room := (recoverable.beside current.other view.other.sectorStateOf_eq).2
    rw [end', memory] at room
    exact room
  | half sector records full available =>
    have inUse := (recoverable.beside sector full.sectorStateOf_eq).1
    rw [available.sectorStateOf_eq] at inUse
    cases inUse
  | erased sector blank =>
    have good := recoverable.good sector
    rw [sectorStateOf_blank blank] at good
    cases good

/-- What holds of every device between two events. -/
def Device.Invariant (geometry : Geometry) (device : Device) : Prop :=
  match device.power with
  | .on state => Serving geometry (fun address value => value ∈ device.possible address) state
  | .off flash => Shape geometry (fun address value => value ∈ device.possible address) flash

theorem possibleDuring_widened (possible : Nat → List UInt8) (offset : Nat) (data : List UInt8)
    (address : Nat) (value : UInt8)
    (widened : Widened (fun address value => value ∈ possible address) offset data address value) :
    value ∈ possibleDuring possible offset data address := by
  unfold possibleDuring
  split
  · rcases widened with old | ⟨-, new⟩
    · exact List.mem_cons_of_mem _ old
    · rw [new]
      exact List.mem_cons_self
  · rename_i outside
    rcases widened with old | ⟨inside, -⟩
    · exact old
    · exact absurd inside outside

theorem possibleAfter_settled (possible : Nat → List UInt8) (offset : Nat) (data : List UInt8)
    (address : Nat) (value : UInt8)
    (settled : Settled (fun address value => value ∈ possible address) offset data address value) :
    value ∈ possibleAfter possible offset data address := by
  unfold Settled at settled
  unfold possibleAfter
  split
  · rename_i inside
    rw [if_pos inside] at settled
    exact List.mem_singleton.mpr settled
  · rename_i outside
    rw [if_neg outside] at settled
    exact settled

/-- A device in good order boots, if its image is recoverable. -/
theorem Device.Invariant.boot {device : Device} (invariant : device.Invariant geometry)
    (small : geometry.storageSize ≤ 16384) (recoverable : device.power.Recoverable geometry)
    (depth : Nat) (memory : Image) (eraseOk : Nat → Bool) :
    ∃ state, init geometry depth (fresh device.power.flash memory eraseOk) = some (true, state) ∧
      Serving geometry (fun address value => value = state.memBuffer address) state ∧
      Steps geometry (Shape geometry fun address value => value ∈ device.possible address)
        (fresh device.power.flash memory eraseOk) state ∧
      ∀ address, address < geometry.storageSize →
        state.memBuffer address ∈ device.possible address := by
  obtain ⟨power, possible⟩ := device
  cases power with
  | on state => exact Serving.boot invariant small depth memory eraseOk
  | off flash =>
    obtain ⟨current, otherState, below, records, view, room⟩ := Recoverable.normal recoverable invariant
    exact boot_normal small view room depth memory eraseOk

theorem Device.step_invariant (small : geometry.storageSize ≤ 16384) (depth : Nat)
    (device : Device) (event : DeviceEvent) (invariant : device.Invariant geometry)
    (good : event.Inside geometry ∧ device.Ready geometry event) :
    ∃ next, device.step geometry (depth + 1) event = some next ∧ next.Invariant geometry := by
  obtain ⟨inside, ready⟩ := good
  cases event with
  | write offset data =>
    obtain ⟨power, possible⟩ := device
    cases power with
    | off flash => exact ⟨_, rfl, invariant⟩
    | on state =>
      obtain ⟨ok, state', result, widened, settled, -⟩ :=
        Serving.write_change invariant small depth offset data inside ready
      refine ⟨⟨.on state', if ok then possibleAfter possible offset data
        else possibleDuring possible offset data⟩, ?_, ?_⟩
      · simp only [Device.step, result]
      · cases ok with
        | false =>
          exact widened.mono fun address value _ old =>
            possibleDuring_widened possible offset data address value old
        | true =>
          exact (settled rfl).mono fun address value _ new =>
            possibleAfter_settled possible offset data address value new
  | boot memory eraseOk =>
    obtain ⟨state, result, serving, -, -⟩ := invariant.boot small ready (depth + 1) memory eraseOk
    refine ⟨⟨.on state, fun address => [state.memBuffer address]⟩, ?_, ?_⟩
    · simp only [Device.step, result, if_true]
    · exact serving.mono fun address value _ same => List.mem_singleton.mpr same
  | lossInWrite offset data count =>
    obtain ⟨power, possible⟩ := device
    cases power with
    | off flash => exact ⟨_, rfl, invariant⟩
    | on state =>
      obtain ⟨ok, state', result, -, -, steps⟩ :=
        Serving.write_change invariant small depth offset data inside ready
      refine ⟨⟨.off (flashAtLoss (state.change offset data) state' count),
        possibleDuring possible offset data⟩, ?_, ?_⟩
      · simp only [Device.step, result]
      · exact Shape.mono (fun address value _ old =>
          possibleDuring_widened possible offset data address value old) _ (steps.atLoss count)
  | lossInBoot memory eraseOk count =>
    obtain ⟨state, result, -, steps, -⟩ := invariant.boot small ready (depth + 1) memory eraseOk
    refine ⟨⟨.off (flashAtLoss (fresh device.power.flash memory eraseOk) state count),
      device.possible⟩, ?_, steps.atLoss count⟩
    simp only [Device.step, result]

/-- The device behind the first boot of an erased flash. -/
def firstBoot (state : State) : Device := ⟨.on state, fun _ => [0]⟩

/-- After any run in which writes go to a sector in use and boots find recoverable images, a
device that is running, or was left with a recoverable image, boots. -/
theorem boots_of_recoverable (geometry : Geometry) (small : geometry.storageSize ≤ 16384)
    (depth : Nat) (memory : Image) (eraseOk : Nat → Bool) (state : State)
    (first : init geometry (depth + 1) (fresh (fun _ _ => 0xFF) memory eraseOk) =
      some (true, state))
    (events : List DeviceEvent) (inside : ∀ event ∈ events, event.Inside geometry)
    (ready : Meets (Device.step geometry (depth + 1)) (Device.Ready geometry) (firstBoot state)
      events) :
    ∃ device, runSteps (Device.step geometry (depth + 1)) (firstBoot state) events = some device ∧
      (device.power.Recoverable geometry → device.Boots geometry (depth + 1)) := by
  have start : (firstBoot state).Invariant geometry := by
    obtain ⟨state', result, serving⟩ := boot_erased geometry (depth + 1) memory eraseOk
    rw [result] at first
    obtain rfl : state' = state := (Prod.mk.inj (Option.some.inj first)).2
    exact serving.mono fun address value _ zero => List.mem_singleton.mpr zero
  obtain ⟨device, reached, invariant⟩ := runSteps_invariant (Device.Invariant geometry)
    (fun device event kept good => device.step_invariant small depth event kept good) events
    (firstBoot state) start ((meets_of_forall events _ inside).and ready)
  refine ⟨device, reached, fun recoverable memory' eraseOk' => ?_⟩
  obtain ⟨state', result, -, -, shown⟩ :=
    invariant.boot small recoverable (depth + 1) memory' eraseOk'
  exact ⟨state', result, shown⟩

/-- The object behind the first boot of the small storage. -/
def smallBooted : State :=
  (eraseAll ((cleared smallGeometry (fresh (fun _ _ => 0xFF) (fun _ => 0) fun _ => false)).call
    (.read .s0 0 sectorHeaderSize))).2

/-- A write, a loss between the header and the data of the next one, and a loss in the boot
behind it. -/
theorem boots_of_recoverable_twoLosses :
    ∃ device, runSteps (Device.step smallGeometry 1) (firstBoot smallBooted)
        [.write 0 (List.replicate 64 1), .lossInWrite 0 (List.replicate 64 2) 1,
          .lossInBoot (fun _ => 0) (fun _ => false) 3] = some device ∧
      (device.power.Recoverable smallGeometry → device.Boots smallGeometry 1) :=
  boots_of_recoverable smallGeometry (by decide) 0 _ _ smallBooted
    (init_badHeader smallGeometry 1 _ (by decide)) _ (by decide) (by decide +kernel)

/-- Fill the small storage. -/
def fillWith (value : UInt8) : DeviceEvent := .write 0 (List.replicate 64 value)

/-- The fourth write switches sectors. The loss strikes when the old sector is marked as full and
the new one is not yet marked as in use, and a boot follows. -/
def lossInSwitch : List DeviceEvent :=
  [fillWith 1, fillWith 2, fillWith 3, .lossInWrite 0 (List.replicate 64 4) 2,
    .boot (fun _ => 0) fun _ => false]

/-- The boot behind the fourth write makes room in the old sector. The loss strikes when that
sector is erased and has no header yet. -/
def lossInErase : List DeviceEvent :=
  [fillWith 1, fillWith 2, fillWith 3, fillWith 4, .lossInBoot (fun _ => 0) (fun _ => false) 15]

/-- The values that byte 0 may read as after a run of the small storage, and the one that the
next boot shows. -/
def byteAfter (events : List DeviceEvent) : Option (List UInt8 × Option UInt8) :=
  (runSteps (Device.step smallGeometry 1) (firstBoot smallBooted) events).map fun device =>
    (device.possible 0, (init smallGeometry 1 (fresh device.power.flash (fun _ => 0)
      fun _ => false)).map fun result => result.2.memBuffer 0)

theorem not_boots_of_byteAfter {events : List DeviceEvent} {possible : List UInt8} {value : UInt8}
    (byte : byteAfter events = some (possible, some value)) (lost : value ∉ possible) :
    ¬ ∃ device, runSteps (Device.step smallGeometry 1) (firstBoot smallBooted) events =
      some device ∧ device.Boots smallGeometry 1 := by
  rintro ⟨device, reached, boots⟩
  obtain ⟨state, booted, shown⟩ := boots (fun _ => 0) fun _ => false
  rw [byteAfter, reached, Option.map_some, booted] at byte
  obtain ⟨same, read⟩ := Prod.mk.inj (Option.some.inj byte)
  have member := shown 0 (by decide)
  rw [same, show state.memBuffer 0 = value from Option.some.inj read] at member
  exact lost member

/-- After either loss the stored bytes are gone: the boot behind the first erases both sectors
with only the RAM copy left, and a boot behind the second shows zeros. -/
theorem not_boots_lossInSwitch_lossInErase :
    (∀ event ∈ lossInSwitch ++ lossInErase, event.Inside smallGeometry) ∧
      (¬ ∃ device, runSteps (Device.step smallGeometry 1) (firstBoot smallBooted) lossInSwitch =
        some device ∧ device.Boots smallGeometry 1) ∧
      ¬ ∃ device, runSteps (Device.step smallGeometry 1) (firstBoot smallBooted) lossInErase =
        some device ∧ device.Boots smallGeometry 1 := by
  have switched : byteAfter lossInSwitch = some ([3], some 0) := by decide +kernel
  have erased : byteAfter lossInErase = some ([4], some 0) := by decide +kernel
  exact ⟨by decide, not_boots_of_byteAfter switched (by decide),
    not_boots_of_byteAfter erased (by decide)⟩

end PowerLoss

end Urus.FlashStorage
