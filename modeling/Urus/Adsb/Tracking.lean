/-
This file proves what the list of aircraft holds in every run of the calls: one entry for an
aircraft, no more entries than there is room for, and in each entry the last report that was
accepted of the aircraft. An aircraft leaves the list for a reason, with one exception: the distance
and the index of the furthest aircraft are kept from call to call, and the entry at the index may
have become another one since.
-/

import Urus.Lib.Trace
import Urus.Adsb.Model

namespace Urus.Adsb

section Tracking

variable {Loc Dist Rest : Type} [LinearOrder Dist] [Zero Dist] (geometry : Geometry Loc Dist)

/-- The address of an aircraft. -/
def address (vehicle : Vehicle Rest) : ℕ := vehicle.info.icaoAddress

/-- A report is accepted while there is a list. -/
def Accepts (adsb : AdsbState Loc Dist Rest) (info : Info Rest) (reception : Reception) : Prop :=
  adsb.vehicleList.isSome = true ∧ ¬ Rejects geometry adsb info reception

/-- No entry has the address. -/
def Untracked (adsb : AdsbState Loc Dist Rest) (icaoAddress : ℕ) : Prop :=
  ∀ vehicle ∈ adsb.vehicles, address vehicle ≠ icaoAddress

/-- An aircraft of which there was no report for too long. -/
def TimedOut (now : ℕ) (vehicle : Vehicle Rest) : Prop :=
  sub32 now vehicle.lastUpdateMs > vehicleTimeoutMs

/-! ### Searching -/

variable {vehicle : Vehicle Rest} {vehicles : List (Vehicle Rest)}

theorem findIndex_some {index : ℕ} (found : findIndex vehicles vehicle = some index) :
    ∃ entry, vehicles[index]? = some entry ∧ address entry = address vehicle := by
  rw [findIndex, List.findIdx?_eq_some_iff_getElem] at found
  obtain ⟨inside, same, -⟩ := found
  exact ⟨vehicles[index], List.getElem?_eq_getElem inside, beq_iff_eq.mp same⟩

theorem findIndex_none (missing : findIndex vehicles vehicle = none) :
    ∀ entry ∈ vehicles, address entry ≠ address vehicle := by
  rw [findIndex, List.findIdx?_eq_none_iff] at missing
  intro entry member same
  exact Bool.false_ne_true ((missing entry member).symm.trans (beq_iff_eq.mpr same))

/-! ### Removing an aircraft -/

variable {geometry} {adsb : AdsbState Loc Dist Rest} {index : ℕ}

theorem deleteVehicle_beyond (beyond : adsb.vehicles.length ≤ index) :
    adsb.deleteVehicle index = adsb := by
  rw [AdsbState.deleteVehicle, if_neg (Nat.not_lt.mpr beyond)]

theorem vehicles_deleteVehicle (inside : index < adsb.vehicles.length) :
    (adsb.deleteVehicle index).vehicles = SwapRemove.removeAt adsb.vehicles index := by
  rw [AdsbState.deleteVehicle, if_pos inside]
  by_cases furthest : index = adsb.furthestVehicleIndex ∧ 0 < adsb.furthestVehicleDistance
  · rw [if_pos furthest]
    rfl
  · rw [if_neg furthest]
    rfl

@[simp] theorem listSize_deleteVehicle : (adsb.deleteVehicle index).listSize = adsb.listSize := by
  rw [AdsbState.deleteVehicle]
  split_ifs <;> rfl

@[simp] theorem myLoc_deleteVehicle : (adsb.deleteVehicle index).myLoc = adsb.myLoc := by
  rw [AdsbState.deleteVehicle]
  split_ifs <;> rfl

/-- The list holds one entry for an aircraft, and has room for its entries. -/
structure Kept (adsb : AdsbState Loc Dist Rest) : Prop where
  distinct : (adsb.vehicles.map address).Nodup
  room : adsb.vehicles.length ≤ adsb.listSize
  sized : 1 ≤ adsb.listSize

theorem Kept.deleteVehicle (kept : Kept adsb) : Kept (adsb.deleteVehicle index) := by
  rcases Nat.lt_or_ge index adsb.vehicles.length with inside | beyond
  · refine ⟨?_, ?_, ?_⟩
    · rw [vehicles_deleteVehicle inside]
      exact SwapRemove.nodup_removeAt inside kept.distinct
    · rw [vehicles_deleteVehicle inside, SwapRemove.length_removeAt inside,
        listSize_deleteVehicle]
      exact (Nat.sub_le _ _).trans kept.room
    · rw [listSize_deleteVehicle]
      exact kept.sized
  · rw [deleteVehicle_beyond beyond]
    exact kept

/-- The removal of an aircraft keeps the others. -/
theorem mem_deleteVehicle_iff (kept : Kept adsb) {gone vehicle : Vehicle Rest}
    (found : adsb.vehicles[index]? = some gone) :
    vehicle ∈ (adsb.deleteVehicle index).vehicles ↔
      vehicle ∈ adsb.vehicles ∧ address vehicle ≠ address gone := by
  obtain ⟨inside, -⟩ := List.getElem?_eq_some_iff.mp found
  rw [vehicles_deleteVehicle inside, SwapRemove.mem_removeAt_iff kept.distinct found]

/-! ### Timing out -/

theorem timeOutLoop_spec (now : ℕ) {rounds : ℕ} (kept : Kept adsb)
    (enough : adsb.vehicles.length ≤ index + rounds)
    (checked : ∀ vehicle ∈ adsb.vehicles.take index, ¬ TimedOut now vehicle) :
    Kept (adsb.timeOutLoop now rounds index) ∧
      ∀ vehicle, vehicle ∈ (adsb.timeOutLoop now rounds index).vehicles ↔
        vehicle ∈ adsb.vehicles ∧ ¬ TimedOut now vehicle := by
  induction rounds generalizing adsb index with
  | zero =>
    refine ⟨kept, fun vehicle => ⟨fun member => ⟨member, ?_⟩, And.left⟩⟩
    rw [Nat.add_zero] at enough
    rw [List.take_of_length_le enough] at checked
    exact checked vehicle member
  | succ rounds inductionHypothesis =>
    rw [AdsbState.timeOutLoop]
    cases found : adsb.vehicles[index]? with
    | none =>
      refine ⟨kept, fun vehicle => ⟨fun member => ⟨member, ?_⟩, And.left⟩⟩
      rw [List.take_of_length_le (List.getElem?_eq_none_iff.mp found)] at checked
      exact checked vehicle member
    | some current =>
      obtain ⟨inside, -⟩ := List.getElem?_eq_some_iff.mp found
      dsimp only
      by_cases late : sub32 now current.lastUpdateMs > vehicleTimeoutMs
      · rw [if_pos late]
        have shorter : (adsb.deleteVehicle index).vehicles.length = adsb.vehicles.length - 1 := by
          rw [vehicles_deleteVehicle inside, SwapRemove.length_removeAt inside]
        have checkedStill : ∀ vehicle ∈ (adsb.deleteVehicle index).vehicles.take index,
            ¬ TimedOut now vehicle := by
          intro vehicle member
          refine checked vehicle ?_
          rw [vehicles_deleteVehicle inside] at member
          exact SwapRemove.take_removeAt inside ▸ member
        obtain ⟨keptBehind, members⟩ := inductionHypothesis kept.deleteVehicle
          (by rw [shorter]; omega) checkedStill
        refine ⟨keptBehind, fun vehicle => ?_⟩
        rw [members, mem_deleteVehicle_iff kept found]
        constructor
        · rintro ⟨⟨member, -⟩, fresh⟩
          exact ⟨member, fresh⟩
        · rintro ⟨member, fresh⟩
          refine ⟨⟨member, fun same => fresh ?_⟩, fresh⟩
          rwa [TimedOut, SwapRemove.entry_eq kept.distinct member (List.mem_of_getElem? found) same]
      · rw [if_neg late]
        refine inductionHypothesis kept (by omega) ?_
        intro vehicle member
        rw [List.take_add_one, found, Option.toList_some, List.mem_append, List.mem_singleton]
          at member
        rcases member with before | rfl
        · exact checked vehicle before
        · exact late

/-! ### Taking in a report -/

omit [LinearOrder Dist] [Zero Dist] in
theorem vehicles_setVehicle (room : adsb.vehicles.length ≤ adsb.listSize) (vehicle : Vehicle Rest) :
    (adsb.setVehicle index vehicle).vehicles = adsb.vehicles.set index vehicle := by
  rw [AdsbState.setVehicle]
  by_cases inside : index < adsb.listSize
  · rw [if_pos inside]
    rfl
  · rw [if_neg inside, List.set_eq_of_length_le (room.trans (Nat.not_lt.mp inside))]

omit [LinearOrder Dist] [Zero Dist] in
@[simp] theorem listSize_setVehicle (vehicle : Vehicle Rest) :
    (adsb.setVehicle index vehicle).listSize = adsb.listSize := by
  rw [AdsbState.setVehicle]
  split_ifs <;> rfl

omit [LinearOrder Dist] in
@[simp] theorem vehicles_forgetFurthest : adsb.forgetFurthest.vehicles = adsb.vehicles := rfl

omit [LinearOrder Dist] in
@[simp] theorem listSize_forgetFurthest : adsb.forgetFurthest.listSize = adsb.listSize := rfl

@[simp] theorem vehicles_ensureFurthest :
    (adsb.ensureFurthest geometry).vehicles = adsb.vehicles := by
  rw [AdsbState.ensureFurthest]
  split_ifs <;> rfl

@[simp] theorem listSize_ensureFurthest :
    (adsb.ensureFurthest geometry).listSize = adsb.listSize := by
  rw [AdsbState.ensureFurthest]
  split_ifs <;> rfl

@[simp] theorem myLoc_ensureFurthest : (adsb.ensureFurthest geometry).myLoc = adsb.myLoc := by
  rw [AdsbState.ensureFurthest]
  split_ifs <;> rfl

variable (geometry) in
/-- A new aircraft comes while the list is full and the own position is known. -/
structure Competes (adsb : AdsbState Loc Dist Rest) (info : Info Rest) (reception : Reception) :
    Prop where
  accepted : Accepts geometry adsb info reception
  untracked : Untracked adsb info.icaoAddress
  full : adsb.listSize ≤ adsb.vehicles.length
  located : geometry.isZero adsb.myLoc = false

variable (geometry) in
/-- What a report does. -/
inductive Handled (adsb : AdsbState Loc Dist Rest) (info : Info Rest) (reception : Reception) :
    AdsbState Loc Dist Rest → Prop
  | ignored (ignores : adsb.vehicles = [] ∨
      Rejects geometry adsb info reception ∧ Untracked adsb info.icaoAddress) :
      Handled adsb info reception adsb
  | dropped (index : ℕ) (gone : Vehicle Rest) (rejects : Rejects geometry adsb info reception)
      (found : adsb.vehicles[index]? = some gone) (same : address gone = info.icaoAddress) :
      Handled adsb info reception (adsb.deleteVehicle index)
  | refreshed (index : ℕ) (entry : Vehicle Rest) (accepts : Accepts geometry adsb info reception)
      (found : adsb.vehicles[index]? = some entry) (same : address entry = info.icaoAddress) :
      Handled adsb info reception (adsb.setVehicle index (vehicleOf info reception))
  | added (accepts : Accepts geometry adsb info reception)
      (untracked : Untracked adsb info.icaoAddress) (room : adsb.vehicles.length < adsb.listSize) :
      Handled adsb info reception (adsb.addVehicle (vehicleOf info reception))
  | unlocated (full : adsb.listSize ≤ adsb.vehicles.length)
      (untracked : Untracked adsb info.icaoAddress) (zero : geometry.isZero adsb.myLoc = true) :
      Handled adsb info reception adsb.forgetFurthest
  | evicted (competes : Competes geometry adsb info reception)
      (closer : adsb.distanceTo geometry (vehicleOf info reception) <
        (adsb.ensureFurthest geometry).furthestVehicleDistance) :
      Handled adsb info reception ((adsb.ensureFurthest geometry).setVehicle
        (adsb.ensureFurthest geometry).furthestVehicleIndex
        (vehicleOf info reception)).forgetFurthest
  | refused (competes : Competes geometry adsb info reception)
      (far : (adsb.ensureFurthest geometry).furthestVehicleDistance ≤
        adsb.distanceTo geometry (vehicleOf info reception)) :
      Handled adsb info reception (adsb.ensureFurthest geometry)

theorem distanceTo_ensureFurthest (vehicle : Vehicle Rest) :
    (adsb.ensureFurthest geometry).distanceTo geometry vehicle =
      adsb.distanceTo geometry vehicle := by
  rw [AdsbState.distanceTo, AdsbState.distanceTo, myLoc_ensureFurthest]

variable (geometry) in
theorem handled (adsb : AdsbState Loc Dist Rest) (info : Info Rest) (reception : Reception) :
    Handled geometry adsb info reception (adsb.handleVehicle geometry info reception).1 := by
  rw [AdsbState.handleVehicle]
  by_cases missing : adsb.vehicleList.isNone = true
  · rw [if_pos missing]
    refine .ignored (Or.inl ?_)
    rw [AdsbState.vehicles, Option.isNone_iff_eq_none.mp missing]
    rfl
  rw [if_neg missing]
  have listed : adsb.vehicleList.isSome = true :=
    Option.isSome_iff_ne_none.mpr fun none => missing (Option.isNone_iff_eq_none.mpr none)
  by_cases rejects : Rejects geometry adsb info reception
  · rw [if_pos rejects]
    cases search : findIndex adsb.vehicles (vehicleOf info reception) with
    | none => exact .ignored (Or.inr ⟨rejects, findIndex_none search⟩)
    | some index =>
      obtain ⟨gone, found, same⟩ := findIndex_some search
      exact .dropped index gone rejects found same
  · rw [if_neg rejects, AdsbState.takeIn]
    have accepts : Accepts geometry adsb info reception := ⟨listed, rejects⟩
    cases search : findIndex adsb.vehicles (vehicleOf info reception) with
    | some index =>
      obtain ⟨entry, found, same⟩ := findIndex_some search
      exact .refreshed index entry accepts found same
    | none =>
      have untracked : Untracked adsb info.icaoAddress := findIndex_none search
      by_cases room : adsb.vehicles.length < adsb.listSize
      · rw [if_pos room]
        exact .added accepts untracked room
      · rw [if_neg room, AdsbState.replaceFurthest]
        have full : adsb.listSize ≤ adsb.vehicles.length := Nat.not_lt.mp room
        cases zero : geometry.isZero adsb.myLoc with
        | true =>
          exact .unlocated full untracked zero
        | false =>
          dsimp only
          rw [distanceTo_ensureFurthest]
          have competes : Competes geometry adsb info reception :=
            ⟨accepts, untracked, full, zero⟩
          by_cases closer : adsb.distanceTo geometry (vehicleOf info reception) <
              (adsb.ensureFurthest geometry).furthestVehicleDistance
          · rw [if_pos closer]
            exact .evicted competes closer
          · rw [if_neg closer]
            exact .refused competes (not_lt.mp closer)

variable {info : Info Rest} {reception : Reception} {next : AdsbState Loc Dist Rest}

omit [LinearOrder Dist] [Zero Dist] in
theorem Kept.ofReplaced (kept : Kept adsb) {new : Vehicle Rest}
    (vehicles : next.vehicles = adsb.vehicles.set index new) (size : next.listSize = adsb.listSize)
    (untracked : Untracked adsb (address new)) : Kept next := by
  refine ⟨?_, ?_, ?_⟩
  · rw [vehicles]
    exact SwapRemove.nodup_set kept.distinct untracked
  · rw [vehicles, List.length_set, size]
    exact kept.room
  · rw [size]
    exact kept.sized

omit [LinearOrder Dist] [Zero Dist] in
theorem Kept.ofSame (kept : Kept adsb) (vehicles : next.vehicles = adsb.vehicles)
    (size : next.listSize = adsb.listSize) : Kept next := by
  refine ⟨?_, ?_, ?_⟩
  · rw [vehicles]
    exact kept.distinct
  · rw [vehicles, size]
    exact kept.room
  · rw [size]
    exact kept.sized

theorem vehicles_evicted (kept : Kept adsb) (new : Vehicle Rest) :
    ((adsb.ensureFurthest geometry).setVehicle
      (adsb.ensureFurthest geometry).furthestVehicleIndex new).forgetFurthest.vehicles =
        adsb.vehicles.set (adsb.ensureFurthest geometry).furthestVehicleIndex new := by
  rw [vehicles_forgetFurthest, vehicles_setVehicle, vehicles_ensureFurthest]
  rw [vehicles_ensureFurthest, listSize_ensureFurthest]
  exact kept.room

theorem Handled.kept (kept : Kept adsb) (handled : Handled geometry adsb info reception next) :
    Kept next := by
  cases handled with
  | ignored => exact kept
  | dropped => exact kept.deleteVehicle
  | refreshed index entry _ found same =>
    refine ⟨?_, ?_, ?_⟩
    · rw [vehicles_setVehicle kept.room]
      rw [SwapRemove.map_set_same found same.symm]
      exact kept.distinct
    · rw [vehicles_setVehicle kept.room, List.length_set, listSize_setVehicle]
      exact kept.room
    · rw [listSize_setVehicle]
      exact kept.sized
  | added _ untracked room =>
    refine ⟨?_, ?_, kept.sized⟩
    · exact SwapRemove.nodup_append_singleton kept.distinct untracked
    · change (adsb.vehicles ++ [vehicleOf info reception]).length ≤ adsb.listSize
      rw [List.length_append, List.length_singleton]
      exact room
  | unlocated => exact kept.ofSame vehicles_forgetFurthest listSize_forgetFurthest
  | evicted competes =>
    refine kept.ofReplaced (vehicles_evicted kept (vehicleOf info reception)) ?_ competes.untracked
    rw [listSize_forgetFurthest, listSize_setVehicle, listSize_ensureFurthest]
  | refused => exact kept.ofSame vehicles_ensureFurthest listSize_ensureFurthest

/-- An entry behind a report is the one that the report makes, or one of another aircraft that was
there before. -/
theorem Handled.mem (kept : Kept adsb) (handled : Handled geometry adsb info reception next)
    (member : vehicle ∈ next.vehicles) :
    Accepts geometry adsb info reception ∧ vehicle = vehicleOf info reception ∨
      vehicle ∈ adsb.vehicles ∧ address vehicle ≠ info.icaoAddress := by
  cases handled with
  | ignored ignores =>
    rcases ignores with empty | ⟨-, untracked⟩
    · rw [empty] at member
      exact absurd member List.not_mem_nil
    · exact Or.inr ⟨member, untracked vehicle member⟩
  | dropped index gone _ found same =>
    obtain ⟨there, different⟩ := (mem_deleteVehicle_iff kept found).mp member
    exact Or.inr ⟨there, same ▸ different⟩
  | refreshed index entry accepts found same =>
    rw [vehicles_setVehicle kept.room] at member
    rcases (SwapRemove.mem_set_iff kept.distinct found).mp member with new | ⟨there, different⟩
    · exact Or.inl ⟨accepts, new⟩
    · exact Or.inr ⟨there, same ▸ different⟩
  | added accepts untracked =>
    rcases List.mem_append.mp member with there | new
    · exact Or.inr ⟨there, untracked vehicle there⟩
    · exact Or.inl ⟨accepts, List.mem_singleton.mp new⟩
  | unlocated full untracked => exact Or.inr ⟨member, untracked vehicle member⟩
  | evicted competes =>
    rw [vehicles_evicted kept] at member
    rcases List.mem_or_eq_of_mem_set member with there | new
    · exact Or.inr ⟨there, competes.untracked vehicle there⟩
    · exact Or.inl ⟨competes.accepted, new⟩
  | refused competes =>
    rw [vehicles_ensureFurthest] at member
    exact Or.inr ⟨member, competes.untracked vehicle member⟩

/-- An aircraft leaves on a report when the report is its own and is rejected, or when it is the one
that the new aircraft replaces. -/
theorem Handled.leaves (kept : Kept adsb) (handled : Handled geometry adsb info reception next)
    {gone : Vehicle Rest} (member : gone ∈ adsb.vehicles) (left : Untracked next (address gone)) :
    info.icaoAddress = address gone ∧ Rejects geometry adsb info reception ∨
      Competes geometry adsb info reception ∧
        adsb.vehicles[(adsb.ensureFurthest geometry).furthestVehicleIndex]? = some gone ∧
        adsb.distanceTo geometry (vehicleOf info reception) <
          (adsb.ensureFurthest geometry).furthestVehicleDistance := by
  have stays : gone ∉ next.vehicles := fun there => left gone there rfl
  cases handled with
  | ignored => exact absurd member stays
  | dropped index dropped rejects found same =>
    left
    refine ⟨?_, rejects⟩
    by_contra different
    exact stays ((mem_deleteVehicle_iff kept found).mpr
      ⟨member, fun equal => different (same.symm.trans equal.symm)⟩)
  | refreshed index entry accepts found same =>
    rw [Untracked, vehicles_setVehicle kept.room] at left
    rw [vehicles_setVehicle kept.room] at stays
    by_cases own : address gone = address entry
    · refine absurd (own.trans same).symm (left (vehicleOf info reception) ?_)
      exact (SwapRemove.mem_set_iff kept.distinct found).mpr (Or.inl rfl)
    · exact absurd ((SwapRemove.mem_set_iff kept.distinct found).mpr (Or.inr ⟨member, own⟩)) stays
  | added => exact absurd (List.mem_append_left _ member) stays
  | unlocated => exact absurd member stays
  | evicted competes closer =>
    right
    refine ⟨competes, ?_, closer⟩
    rw [vehicles_evicted kept] at stays
    obtain ⟨position, there⟩ := List.getElem?_of_mem member
    by_cases here : (adsb.ensureFurthest geometry).furthestVehicleIndex = position
    · rw [here]
      exact there
    · rw [← List.getElem?_set_ne here] at there
      exact absurd (List.mem_of_getElem? there) stays
  | refused =>
    rw [vehicles_ensureFurthest] at stays
    exact absurd member stays

/-! ### The furthest aircraft -/

/-- An entry is the furthest one, and its distance is known. -/
def IsFurthest (distance : Vehicle Rest → Dist) (vehicles : List (Vehicle Rest))
    (furthest : Dist × ℕ) : Prop :=
  ∃ entry, vehicles[furthest.2]? = some entry ∧ distance entry = furthest.1 ∧
    ∀ other ∈ vehicles, distance other ≤ furthest.1

omit [Zero Dist] in
theorem furthestLoop_spec {distance : Vehicle Rest → Dist} (before after : List (Vehicle Rest))
    {furthest : Dist × ℕ} (known : before ≠ [] → IsFurthest distance before furthest)
    (some : before ++ after ≠ []) :
    IsFurthest distance (before ++ after)
      (furthestLoop distance after before.length furthest) := by
  induction after generalizing before furthest with
  | nil =>
    rw [List.append_nil] at some ⊢
    exact known some
  | cons vehicle rest inductionHypothesis =>
    obtain ⟨maxDistance, maxIndex⟩ := furthest
    have counted : (before ++ [vehicle]).length = before.length + 1 := by
      rw [List.length_append, List.length_singleton]
    rw [furthestLoop, List.append_cons, ← counted]
    refine inductionHypothesis (before ++ [vehicle]) (fun _ => ?_) (by simp)
    by_cases further : maxDistance < distance vehicle ∨ before.length = 0
    · rw [if_pos further]
      refine ⟨vehicle, List.getElem?_concat_length, rfl, ?_⟩
      intro other member
      rcases List.mem_append.mp member with there | new
      · rcases further with further | empty
        · obtain ⟨_, -, -, largest⟩ := known (List.ne_nil_of_mem there)
          exact (largest other there).trans further.le
        · exact absurd (List.length_pos_of_mem there) (by omega)
      · rw [List.mem_singleton.mp new]
    · rw [if_neg further]
      obtain ⟨near, nonempty⟩ := not_or.mp further
      obtain ⟨entry, found, measured, largest⟩ :=
        known fun empty => nonempty (List.length_eq_zero_iff.mpr empty)
      obtain ⟨inside, -⟩ := List.getElem?_eq_some_iff.mp found
      refine ⟨entry, (List.getElem?_append_left inside).trans found, measured, ?_⟩
      intro other member
      rcases List.mem_append.mp member with there | new
      · exact largest other there
      · rw [List.mem_singleton.mp new]
        exact not_lt.mp near

variable (geometry) in
theorem determineFurthest_spec (some : adsb.vehicles ≠ []) :
    IsFurthest (adsb.distanceTo geometry) adsb.vehicles
      ((adsb.determineFurthest geometry).furthestVehicleDistance,
        (adsb.determineFurthest geometry).furthestVehicleIndex) :=
  furthestLoop_spec [] adsb.vehicles (fun impossible => absurd rfl impossible) some

/-! ### One call -/

variable (geometry)

/-- `update` empties the list. -/
def Flushes (adsb : AdsbState Loc Dist Rest) (inputs : Update Loc) : Prop :=
  inputs.enabled = false ∨ (adsb.listSize : ℤ) ≠ inputs.listSizeParam

/-- The reasons for which an aircraft leaves the list: its own report is rejected, it times out, the
list is flushed, it is the one that is deleted, or the list is full and a closer aircraft comes. -/
def LeavesRightly (adsb : AdsbState Loc Dist Rest) (gone : Vehicle Rest) : Call Loc Rest → Prop
  | .handle info reception =>
    info.icaoAddress = address gone ∧ Rejects geometry adsb info reception ∨
      adsb.vehicles.length = adsb.listSize ∧ Accepts geometry adsb info reception ∧
        adsb.distanceTo geometry (vehicleOf info reception) < adsb.distanceTo geometry gone
  | .update inputs => TimedOut inputs.now gone ∨ Flushes adsb inputs
  | .delete index => adsb.vehicles[index]? = some gone
  | .init _ _ => True
  | .deinit => True

/-- A new aircraft comes on a full list, and it is closer than the distance that is kept for the
furthest aircraft, but not closer than the aircraft that the kept index stands for now. -/
def Stale (adsb : AdsbState Loc Dist Rest) : Call Loc Rest → Prop
  | .handle info reception =>
    Competes geometry adsb info reception ∧ 0 < adsb.furthestVehicleDistance ∧
      adsb.distanceTo geometry (vehicleOf info reception) < adsb.furthestVehicleDistance ∧
      ∃ entry, adsb.vehicles[adsb.furthestVehicleIndex]? = some entry ∧
        adsb.distanceTo geometry entry ≤ adsb.distanceTo geometry (vehicleOf info reception)
  | _ => False

/-- Whatever leaves the list in a call leaves it for a reason. -/
def AllLeaveRightly (adsb : AdsbState Loc Dist Rest) (call : Call Loc Rest) : Prop :=
  ∀ gone ∈ adsb.vehicles, Untracked (step geometry adsb call) (address gone) →
    LeavesRightly geometry adsb gone call

variable {geometry}

/-- When the furthest aircraft has just been determined, its distance is right. -/
theorem distanceTo_ensured {entry : Vehicle Rest}
    (unknown : adsb.furthestVehicleDistance ≤ 0)
    (found : adsb.vehicles[(adsb.ensureFurthest geometry).furthestVehicleIndex]? = some entry) :
    adsb.distanceTo geometry entry = (adsb.ensureFurthest geometry).furthestVehicleDistance := by
  rw [AdsbState.ensureFurthest, if_pos unknown] at found ⊢
  have some : adsb.vehicles ≠ [] := List.ne_nil_of_mem (List.mem_of_getElem? found)
  obtain ⟨furthest, there, measured, -⟩ := determineFurthest_spec geometry some
  rw [Option.some.inj (found.symm.trans there)]
  exact measured

omit [LinearOrder Dist] in
theorem vehicles_init (listSizeParam : ℤ) (allocated : Bool) :
    (adsb.init listSizeParam allocated).vehicles = [] := by
  rw [AdsbState.init, vehicles_forgetFurthest]
  cases adsb.vehicleList with
  | some vehicles => rfl
  | none => cases allocated <;> rfl

omit [LinearOrder Dist] in
theorem Kept.init (kept : Kept adsb) (listSizeParam : ℤ) (allocated : Bool) :
    Kept (adsb.init listSizeParam allocated) := by
  refine ⟨?_, ?_, ?_⟩
  · rw [vehicles_init]
    exact List.nodup_nil
  · rw [vehicles_init]
    exact Nat.zero_le _
  · rw [AdsbState.init, listSize_forgetFurthest]
    cases adsb.vehicleList with
    | some vehicles => exact kept.sized
    | none =>
      dsimp only
      split_ifs with inside
      · omega
      · decide

omit [LinearOrder Dist] [Zero Dist] in
theorem Kept.deinit (kept : Kept adsb) : Kept adsb.deinit :=
  ⟨List.nodup_nil, Nat.zero_le _, kept.sized⟩

variable (geometry) in
/-- What `update` leaves in the list. -/
theorem update_spec (kept : Kept adsb) (inputs : Update Loc) :
    Kept (adsb.update geometry inputs) ∧
      ((adsb.update geometry inputs).vehicles = [] ∧
          (adsb.vehicles = [] ∨ Flushes adsb inputs) ∨
        ∀ vehicle, vehicle ∈ (adsb.update geometry inputs).vehicles ↔
          vehicle ∈ adsb.vehicles ∧ ¬ TimedOut inputs.now vehicle) := by
  have located : Kept { adsb with myLoc := inputs.position.getD geometry.zero } :=
    ⟨kept.distinct, kept.room, kept.sized⟩
  rw [AdsbState.update]
  by_cases disabled : inputs.enabled = false
  · rw [if_pos disabled]
    split_ifs with listed
    · exact ⟨located.deinit, Or.inl ⟨rfl, Or.inr (Or.inl disabled)⟩⟩
    · have empty : adsb.vehicles = [] := by
        rw [AdsbState.vehicles, Option.not_isSome_iff_eq_none.mp listed]
        rfl
      exact ⟨located, Or.inl ⟨empty, Or.inl empty⟩⟩
  rw [if_neg disabled]
  by_cases missing : adsb.vehicleList.isNone = true
  · rw [if_pos missing]
    have empty : adsb.vehicles = [] := by
      rw [AdsbState.vehicles, Option.isNone_iff_eq_none.mp missing]
      rfl
    exact ⟨located.init _ _, Or.inl ⟨vehicles_init _ _, Or.inl empty⟩⟩
  rw [if_neg missing]
  by_cases resized : (adsb.listSize : ℤ) ≠ inputs.listSizeParam
  · rw [if_pos resized]
    exact ⟨located.deinit, Or.inl ⟨rfl, Or.inr (Or.inr resized)⟩⟩
  · rw [if_neg resized]
    obtain ⟨keptBehind, members⟩ := timeOutLoop_spec inputs.now located
      (Nat.le_of_eq (Nat.zero_add _).symm) (by simp)
    exact ⟨keptBehind, Or.inr members⟩

theorem Kept.step (kept : Kept adsb) (call : Call Loc Rest) : Kept (step geometry adsb call) := by
  cases call with
  | handle info reception => exact (handled geometry adsb info reception).kept kept
  | update inputs => exact (update_spec geometry kept inputs).1
  | delete index => exact kept.deleteVehicle
  | init listSizeParam allocated => exact kept.init listSizeParam allocated
  | deinit => exact kept.deinit

/-- On a full list a new aircraft replaces the furthest one, or it is refused. -/
theorem Handled.ofCompetes (kept : Kept adsb) (handled : Handled geometry adsb info reception next)
    (competes : Competes geometry adsb info reception) :
    (adsb.distanceTo geometry (vehicleOf info reception) <
        (adsb.ensureFurthest geometry).furthestVehicleDistance ∧
      next.vehicles = adsb.vehicles.set (adsb.ensureFurthest geometry).furthestVehicleIndex
        (vehicleOf info reception)) ∨
      (adsb.ensureFurthest geometry).furthestVehicleDistance ≤
          adsb.distanceTo geometry (vehicleOf info reception) ∧
        next.vehicles = adsb.vehicles := by
  have some : adsb.vehicles ≠ [] :=
    List.length_pos_iff.mp (Nat.lt_of_lt_of_le kept.sized competes.full)
  cases handled with
  | ignored ignores =>
    rcases ignores with empty | ⟨rejects, -⟩
    · exact absurd empty some
    · exact absurd rejects competes.accepted.2
  | dropped index gone rejects => exact absurd rejects competes.accepted.2
  | refreshed index entry _ found same =>
    exact absurd same (competes.untracked entry (List.mem_of_getElem? found))
  | added _ _ room => exact absurd competes.full (Nat.not_le.mpr room)
  | unlocated _ _ zero => exact absurd (competes.located.symm.trans zero) Bool.false_ne_true
  | evicted _ closer => exact Or.inl ⟨closer, vehicles_evicted kept _⟩
  | refused _ far => exact Or.inr ⟨far, vehicles_ensureFurthest⟩

/-- While there is room, a new aircraft is added. -/
theorem handleVehicle_added (accepts : Accepts geometry adsb info reception)
    (untracked : Untracked adsb info.icaoAddress) (room : adsb.vehicles.length < adsb.listSize) :
    (adsb.handleVehicle geometry info reception).1 = adsb.addVehicle (vehicleOf info reception) := by
  have new : findIndex adsb.vehicles (vehicleOf info reception) = none :=
    List.findIdx?_eq_none_iff.mpr fun vehicle member =>
      beq_eq_false_iff_ne.mpr (untracked vehicle member)
  have listed : adsb.vehicleList.isNone = false := Option.isNone_eq_false_iff.mpr accepts.1
  rw [AdsbState.handleVehicle, listed, if_neg Bool.false_ne_true, if_neg accepts.2,
    AdsbState.takeIn, new]
  exact if_pos room

theorem ensureFurthest_known (known : 0 < adsb.furthestVehicleDistance) :
    adsb.ensureFurthest geometry = adsb := by
  rw [AdsbState.ensureFurthest, if_neg (not_le.mpr known)]

/-- In a call aircraft leave for a reason if and only if the call does not come upon a stale furthest
aircraft. -/
theorem allLeaveRightly_iff (kept : Kept adsb) (call : Call Loc Rest) :
    AllLeaveRightly geometry adsb call ↔ ¬ Stale geometry adsb call := by
  constructor
  · intro rightly stale
    cases call with
    | handle info reception =>
      obtain ⟨competes, known, closer, entry, found, farther⟩ := stale
      have member : entry ∈ adsb.vehicles := List.mem_of_getElem? found
      have replaced := (handled geometry adsb info reception).ofCompetes kept competes
      rw [ensureFurthest_known known] at replaced
      rcases replaced with ⟨-, vehicles⟩ | ⟨far, -⟩
      · have left : Untracked (step geometry adsb (.handle info reception)) (address entry) := by
          intro other there
          rw [step, vehicles, SwapRemove.mem_set_iff kept.distinct found] at there
          rcases there with rfl | ⟨-, different⟩
          · exact (competes.untracked entry member).symm
          · exact different
        rcases rightly entry member left with ⟨own, -⟩ | ⟨-, -, nearer⟩
        · exact competes.untracked entry member own.symm
        · exact absurd nearer (not_lt.mpr farther)
      · exact absurd closer (not_lt.mpr far)
    | update | delete | init | deinit => exact stale
  · intro fresh gone member left
    cases call with
    | handle info reception =>
      rcases (handled geometry adsb info reception).leaves kept member left with
        ⟨own, rejects⟩ | ⟨competes, found, closer⟩
      · exact Or.inl ⟨own, rejects⟩
      · refine Or.inr ⟨Nat.le_antisymm kept.room competes.full, competes.accepted, ?_⟩
        rcases le_or_gt adsb.furthestVehicleDistance 0 with unknown | known
        · rwa [distanceTo_ensured unknown found]
        · rw [ensureFurthest_known known] at found closer
          by_contra farther
          exact fresh ⟨competes, known, closer, gone, found, not_lt.mp farther⟩
    | update inputs =>
      rcases (update_spec geometry kept inputs).2 with ⟨-, empty | flushes⟩ | members
      · rw [empty] at member
        exact absurd member List.not_mem_nil
      · exact Or.inr flushes
      · left
        by_contra fresh
        exact left gone ((members gone).mpr ⟨member, fresh⟩) rfl
    | delete index =>
      cases found : adsb.vehicles[index]? with
      | none =>
        rw [Urus.Adsb.step, deleteVehicle_beyond (List.getElem?_eq_none_iff.mp found)] at left
        exact absurd rfl (left gone member)
      | some deleted =>
        by_contra different
        refine left gone ((mem_deleteVehicle_iff kept found).mpr ⟨member, fun same => ?_⟩) rfl
        rw [SwapRemove.entry_eq kept.distinct member (List.mem_of_getElem? found) same] at different
        exact different found
    | init | deinit => trivial

/-! ### Runs -/

variable (geometry)

/-- The state behind a list of calls from power up. -/
def stateBehind (calls : List (Call Loc Rest)) : AdsbState Loc Dist Rest :=
  runCalls (step geometry) geometry.start calls

/-- The entry is made by the last report of its aircraft, and the report was accepted. -/
def LastReport (calls : List (Call Loc Rest)) (vehicle : Vehicle Rest) : Prop :=
  ∃ before info reception after, calls = before ++ .handle info reception :: after ∧
    vehicle = vehicleOf info reception ∧
    Accepts geometry (stateBehind geometry before) info reception ∧
    ∀ info' reception', .handle info' reception' ∈ after → info'.icaoAddress ≠ info.icaoAddress

/-- What the list holds behind a list of calls. -/
structure Tracks (calls : List (Call Loc Rest)) : Prop where
  kept : Kept (stateBehind geometry calls)
  reported : ∀ vehicle ∈ (stateBehind geometry calls).vehicles, LastReport geometry calls vehicle

variable {geometry} {calls : List (Call Loc Rest)} {call : Call Loc Rest} {vehicle : Vehicle Rest}

theorem stateBehind_concat :
    stateBehind geometry (calls ++ [call]) = step geometry (stateBehind geometry calls) call :=
  runCalls_append _ _ _

theorem LastReport.concat (last : LastReport geometry calls vehicle)
    (others : ∀ info reception, call = .handle info reception →
      info.icaoAddress ≠ address vehicle) : LastReport geometry (calls ++ [call]) vehicle := by
  obtain ⟨before, info, reception, after, rfl, rfl, accepted, silent⟩ := last
  refine ⟨before, info, reception, after ++ [call], by simp, rfl, accepted, ?_⟩
  intro info' reception' member
  rcases List.mem_append.mp member with there | new
  · exact silent info' reception' there
  · exact others info' reception' (List.mem_singleton.mp new).symm

theorem LastReport.new (accepted : Accepts geometry (stateBehind geometry calls) info reception) :
    LastReport geometry (calls ++ [.handle info reception]) (vehicleOf info reception) :=
  ⟨calls, info, reception, [], rfl, rfl, accepted, fun _ _ impossible =>
    absurd impossible List.not_mem_nil⟩

/-- Behind a call that is no report every entry was there before. -/
theorem mem_step (kept : Kept adsb) (silent : ∀ info reception, call ≠ .handle info reception)
    (member : vehicle ∈ (step geometry adsb call).vehicles) : vehicle ∈ adsb.vehicles := by
  cases call with
  | handle info reception => exact absurd rfl (silent info reception)
  | update inputs =>
    rcases (update_spec geometry kept inputs).2 with ⟨empty, -⟩ | members
    · rw [Urus.Adsb.step, empty] at member
      exact absurd member List.not_mem_nil
    · exact ((members vehicle).mp member).1
  | delete index =>
    cases found : adsb.vehicles[index]? with
    | none =>
      rwa [Urus.Adsb.step, deleteVehicle_beyond (List.getElem?_eq_none_iff.mp found)] at member
    | some deleted => exact ((mem_deleteVehicle_iff kept found).mp member).1
  | init listSizeParam allocated =>
    rw [Urus.Adsb.step, vehicles_init] at member
    exact absurd member List.not_mem_nil
  | deinit => exact absurd member List.not_mem_nil

theorem Tracks.step (tracks : Tracks geometry calls) (call : Call Loc Rest) :
    Tracks geometry (calls ++ [call]) := by
  refine ⟨?_, fun vehicle member => ?_⟩
  · rw [stateBehind_concat]
    exact tracks.kept.step call
  · rw [stateBehind_concat] at member
    by_cases report : ∃ info reception, call = .handle info reception
    · obtain ⟨info, reception, rfl⟩ := report
      rcases (handled geometry _ info reception).mem tracks.kept member with
        ⟨accepted, rfl⟩ | ⟨there, different⟩
      · exact .new accepted
      · refine (tracks.reported vehicle there).concat fun info' reception' same => ?_
        cases same
        exact different.symm
    · have silent : ∀ info reception, call ≠ .handle info reception :=
        fun info reception same => report ⟨info, reception, same⟩
      refine (tracks.reported vehicle (mem_step tracks.kept silent member)).concat ?_
      exact fun info reception same => absurd same (silent info reception)

/-- In every run the list holds the last accepted report of each aircraft in it, once. -/
theorem tracks (calls : List (Call Loc Rest)) : Tracks geometry calls := by
  induction calls using List.reverseRecOn with
  | nil => exact ⟨⟨List.nodup_nil, Nat.zero_le _, Nat.le_refl _⟩, fun _ impossible =>
      absurd impossible List.not_mem_nil⟩
  | append_singleton calls call inductionHypothesis => exact inductionHypothesis.step call

/-- In every run the list holds the last accepted report of each aircraft in it, once, and its
aircraft leave for a reason if and only if no report comes upon a stale furthest aircraft. -/
theorem vehicles_tracked (geometry : Geometry Loc Dist) (calls : List (Call Loc Rest)) :
    Tracks geometry calls ∧
      ((∀ before call, before ++ [call] <+: calls →
          AllLeaveRightly geometry (stateBehind geometry before) call) ↔
        ∀ before call, before ++ [call] <+: calls →
          ¬ Stale geometry (stateBehind geometry before) call) := by
  have onCall : ∀ before (call : Call Loc Rest),
      AllLeaveRightly geometry (stateBehind geometry before) call ↔
        ¬ Stale geometry (stateBehind geometry before) call :=
    fun before call => allLeaveRightly_iff (tracks before).kept call
  refine ⟨tracks calls, ?_⟩
  constructor
  · intro rightly before call run
    exact (onCall before call).mp (rightly before call run)
  · intro fresh before call run
    exact (onCall before call).mpr (fresh before call run)

end Tracking

/-! ### A stale furthest aircraft -/

section Instances

variable {Loc Dist Rest : Type} [LinearOrder Dist] [Zero Dist] {geometry : Geometry Loc Dist}
  {adsb : AdsbState Loc Dist Rest}

instance (icaoAddress : ℕ) : Decidable (Untracked adsb icaoAddress) :=
  inferInstanceAs (Decidable (∀ vehicle ∈ adsb.vehicles, address vehicle ≠ icaoAddress))

instance (info : Info Rest) (reception : Reception) :
    Decidable (Accepts geometry adsb info reception) :=
  inferInstanceAs
    (Decidable (adsb.vehicleList.isSome = true ∧ ¬ Rejects geometry adsb info reception))

instance (now : ℕ) (vehicle : Vehicle Rest) : Decidable (TimedOut now vehicle) :=
  inferInstanceAs (Decidable (sub32 now vehicle.lastUpdateMs > vehicleTimeoutMs))

instance (inputs : Update Loc) : Decidable (Flushes adsb inputs) :=
  inferInstanceAs
    (Decidable (inputs.enabled = false ∨ (adsb.listSize : ℤ) ≠ inputs.listSizeParam))

instance [DecidableEq Rest] (gone : Vehicle Rest) :
    (call : Call Loc Rest) → Decidable (LeavesRightly geometry adsb gone call)
  | .handle info reception => inferInstanceAs (Decidable (
      info.icaoAddress = address gone ∧ Rejects geometry adsb info reception ∨
        adsb.vehicles.length = adsb.listSize ∧ Accepts geometry adsb info reception ∧
          adsb.distanceTo geometry (vehicleOf info reception) < adsb.distanceTo geometry gone))
  | .update inputs => inferInstanceAs (Decidable (TimedOut inputs.now gone ∨ Flushes adsb inputs))
  | .delete index => inferInstanceAs (Decidable (adsb.vehicles[index]? = some gone))
  | .init _ _ => isTrue trivial
  | .deinit => isTrue trivial

end Instances

/-- Positions on a line. -/
def line : Geometry ℤ ℤ where
  zero := 0
  isZero position := position == 0
  getDistance first second := |first - second|
  vehicleLoc lat _ _ := lat
  ofMetres metres := metres

/-- A report of an aircraft at a position on the line. -/
def sighting (icaoAddress : ℕ) (lat : ℤ) : Call ℤ Unit :=
  .handle ⟨icaoAddress, lat, 0, 0, 0, flagsValidCoords, ()⟩ ⟨0, 0, 0⟩

/-- The list has three entries and is full when the fourth aircraft comes, so the third one is
kept as the furthest. A report of the first one without flags removes it, and moves the third one
to the front. -/
def crowdedRun : List (Call ℤ Unit) :=
  [.update ⟨some 1, true, 3, true, 0⟩, sighting 1 11, sighting 2 21, sighting 3 31, sighting 4 41,
    .handle ⟨1, 11, 0, 0, 0, 0, ()⟩ ⟨0, 0, 0⟩, sighting 5 6]

/-- The sixth aircraft is further away than the fifth, and replaces it. -/
theorem not_allLeaveRightly_crowdedRun :
    ¬ ∀ before call, before ++ [call] <+: crowdedRun ++ [sighting 6 26] →
      AllLeaveRightly line (stateBehind line before) call := by
  intro rightly
  have left := rightly crowdedRun (sighting 6 26) (List.prefix_refl _)
    ⟨⟨5, 6, 0, 0, 0, flagsValidCoords, ()⟩, 0⟩ (by decide +kernel) (by decide +kernel)
  exact absurd left (by decide +kernel)

end Urus.Adsb
