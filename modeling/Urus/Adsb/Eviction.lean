/-
This file proves which aircraft makes place for a closer one when the list is full. The distance and
the index of the furthest aircraft are kept from call to call, and what is kept is right for as long
as no call disturbs it: no removal moves the furthest aircraft to another place, and no aircraft that
is further away is added. In a run without such a call the furthest aircraft is replaced, and every
aircraft that is closer than it is admitted.
-/

import Urus.Adsb.Tracking

namespace Urus.Adsb

section Eviction

variable {Loc Dist Rest : Type} [LinearOrder Dist] [Zero Dist] (geometry : Geometry Loc Dist)

/-! ### What is known about the furthest aircraft -/

/-- While there is a list, the distance and the index that are kept are those of the furthest
aircraft, if they are kept. -/
def KnowsFurthest (adsb : AdsbState Loc Dist Rest) : Prop :=
  adsb.vehicleList.isSome = true → 0 < adsb.furthestVehicleDistance →
    IsFurthest (adsb.distanceTo geometry) adsb.vehicles
      (adsb.furthestVehicleDistance, adsb.furthestVehicleIndex)

/-- The removal of an entry moves the furthest aircraft into its place. -/
def Moves (adsb : AdsbState Loc Dist Rest) (index : ℕ) : Prop :=
  index < adsb.furthestVehicleIndex ∧ adsb.furthestVehicleIndex + 1 = adsb.vehicles.length

/-- More aircraft time out in front of the furthest one than stay behind it, so it is moved. -/
def MovesInUpdate (adsb : AdsbState Loc Dist Rest) (now : ℕ) : Prop :=
  (adsb.vehicles.drop (adsb.furthestVehicleIndex + 1)).countP (fun vehicle => !TimedOut now vehicle) <
    (adsb.vehicles.take adsb.furthestVehicleIndex).countP (fun vehicle => TimedOut now vehicle)

/-- A call disturbs what is kept about the furthest aircraft: a removal moves it, or an aircraft is
added that is further away. -/
def Disturbs (adsb : AdsbState Loc Dist Rest) (call : Call Loc Rest) : Prop :=
  adsb.vehicleList.isSome = true ∧ 0 < adsb.furthestVehicleDistance ∧
    match call with
    | .handle info reception =>
      Rejects geometry adsb info reception ∧
          (∃ index ∈ findIndex adsb.vehicles (vehicleOf info reception), Moves adsb index) ∨
        Accepts geometry adsb info reception ∧ Untracked adsb info.icaoAddress ∧
          adsb.vehicles.length < adsb.listSize ∧
          adsb.furthestVehicleDistance < adsb.distanceTo geometry (vehicleOf info reception)
    | .update inputs => ¬ Flushes adsb inputs ∧ MovesInUpdate adsb inputs.now
    | .delete index => Moves adsb index
    | .init _ _ => False
    | .deinit => False

/-- The own position stays, and a tracked aircraft reports the position it had. -/
def KeepsPositions (own : Loc) (adsb : AdsbState Loc Dist Rest) : Call Loc Rest → Prop
  | .handle info reception => ∀ entry ∈ adsb.vehicles, address entry = info.icaoAddress →
    Accepts geometry adsb info reception →
      geometry.getLocation entry = geometry.getLocation (vehicleOf info reception)
  | .update inputs => inputs.position = some own
  | .init _ _ => adsb.myLoc = own
  | _ => True

/-- A new aircraft is admitted while there is room. When it comes on a full list, the one that it
replaces is the furthest one and is further away than the new one, and the new one is admitted if a
tracked one is further away. -/
def ReplacesFurthest (adsb : AdsbState Loc Dist Rest) : Call Loc Rest → Prop
  | .handle info reception =>
    (Accepts geometry adsb info reception → Untracked adsb info.icaoAddress →
      adsb.vehicles.length < adsb.listSize →
        vehicleOf info reception ∈ (step geometry adsb (.handle info reception)).vehicles) ∧
    (Competes geometry adsb info reception →
      (∀ gone ∈ adsb.vehicles,
        Untracked (step geometry adsb (.handle info reception)) (address gone) →
        (∀ other ∈ adsb.vehicles,
          adsb.distanceTo geometry other ≤ adsb.distanceTo geometry gone) ∧
        adsb.distanceTo geometry (vehicleOf info reception) < adsb.distanceTo geometry gone) ∧
      ((∃ other ∈ adsb.vehicles,
        adsb.distanceTo geometry (vehicleOf info reception) < adsb.distanceTo geometry other) →
        vehicleOf info reception ∈ (step geometry adsb (.handle info reception)).vehicles))
  | _ => True

/-! ### The right aircraft is replaced -/

variable {geometry} {adsb next : AdsbState Loc Dist Rest} {info : Info Rest}
  {reception : Reception} {index : ℕ}

theorem isFurthest_ensureFurthest (some : adsb.vehicles ≠ [])
    (listed : adsb.vehicleList.isSome = true) (knows : KnowsFurthest geometry adsb) :
    IsFurthest (adsb.distanceTo geometry) adsb.vehicles
      ((adsb.ensureFurthest geometry).furthestVehicleDistance,
        (adsb.ensureFurthest geometry).furthestVehicleIndex) := by
  rcases le_or_gt adsb.furthestVehicleDistance 0 with unknown | known
  · rw [AdsbState.ensureFurthest, if_pos unknown]
    exact determineFurthest_spec geometry some
  · rw [ensureFurthest_known known]
    exact knows listed known

theorem replacesFurthest (kept : Kept adsb) (knows : KnowsFurthest geometry adsb)
    (call : Call Loc Rest) : ReplacesFurthest geometry adsb call := by
  cases call with
  | handle info reception =>
    refine ⟨fun accepts untracked room => ?_, fun competes => ?_⟩
    · rw [step, handleVehicle_added accepts untracked room]
      exact List.mem_append_right _ (List.mem_singleton_self _)
    have some : adsb.vehicles ≠ [] :=
      List.length_pos_iff.mp (Nat.lt_of_lt_of_le kept.sized competes.full)
    obtain ⟨furthest, found, measured, largest⟩ :=
      isFurthest_ensureFurthest some competes.accepted.1 knows
    have outcome := handled geometry adsb info reception
    refine ⟨fun gone member left => ?_, fun shorter => ?_⟩
    · rcases outcome.leaves kept member left with ⟨own, -⟩ | ⟨-, there, closer⟩
      · exact absurd own.symm (competes.untracked gone member)
      · rw [← Option.some.inj (found.symm.trans there), measured]
        exact ⟨largest, closer⟩
    · obtain ⟨other, member, nearer⟩ := shorter
      rcases outcome.ofCompetes kept competes with ⟨-, vehicles⟩ | ⟨far, -⟩
      · rw [step, vehicles]
        exact (SwapRemove.mem_set_iff kept.distinct found).mpr (Or.inl rfl)
      · exact absurd (nearer.trans_le ((largest other member).trans far)) (lt_irrefl _)
  | update | delete | init | deinit => trivial

/-! ### What is known stays known -/

omit [Zero Dist] in
/-- The index stands for an entry of the list. -/
theorem IsFurthest.inside {distance : Vehicle Rest → Dist} {vehicles : List (Vehicle Rest)}
    {furthest : Dist × ℕ} (known : IsFurthest distance vehicles furthest) :
    furthest.2 < vehicles.length := by
  obtain ⟨entry, found, -⟩ := known
  exact (List.getElem?_eq_some_iff.mp found).1

omit [Zero Dist] in
/-- A removal that does not move the furthest aircraft leaves it where it is. -/
theorem IsFurthest.removeAt {distance : Vehicle Rest → Dist} {vehicles : List (Vehicle Rest)}
    {furthest : Dist × ℕ} (known : IsFurthest distance vehicles furthest)
    (inside : index < vehicles.length) (other : index ≠ furthest.2)
    (stays : ¬ (index < furthest.2 ∧ furthest.2 + 1 = vehicles.length)) :
    IsFurthest distance (SwapRemove.removeAt vehicles index) furthest := by
  have bound := known.inside
  obtain ⟨entry, found, measured, largest⟩ := known
  refine ⟨entry, ?_, measured, fun other member => largest other ?_⟩
  · rw [SwapRemove.getElem?_removeAt inside (by omega), if_neg other.symm]
    exact found
  · exact List.mem_of_mem_eraseIdx ((SwapRemove.removeAt_perm inside).mem_iff.mp member)

theorem furthest_deleteVehicle (other : index ≠ adsb.furthestVehicleIndex) :
    (adsb.deleteVehicle index).furthestVehicleDistance = adsb.furthestVehicleDistance ∧
      (adsb.deleteVehicle index).furthestVehicleIndex = adsb.furthestVehicleIndex := by
  rw [AdsbState.deleteVehicle]
  by_cases inside : index < adsb.vehicles.length
  · rw [if_pos inside, if_neg fun same => other same.1]
    exact ⟨rfl, rfl⟩
  · rw [if_neg inside]
    exact ⟨rfl, rfl⟩

theorem furthest_deleteVehicle_self (inside : adsb.furthestVehicleIndex < adsb.vehicles.length)
    (known : 0 < adsb.furthestVehicleDistance) :
    (adsb.deleteVehicle adsb.furthestVehicleIndex).furthestVehicleDistance = 0 := by
  rw [AdsbState.deleteVehicle, if_pos inside, if_pos ⟨rfl, known⟩]
  rfl

/-- What is not kept is not kept behind a removal either. -/
theorem unknown_deleteVehicle (unknown : ¬ 0 < adsb.furthestVehicleDistance) :
    (adsb.deleteVehicle index).furthestVehicleDistance = adsb.furthestVehicleDistance := by
  rw [AdsbState.deleteVehicle]
  by_cases inside : index < adsb.vehicles.length
  · rw [if_pos inside, if_neg fun same => unknown same.2]
  · rw [if_neg inside]

theorem distanceTo_deleteVehicle :
    (adsb.deleteVehicle index).distanceTo geometry = adsb.distanceTo geometry := by
  funext vehicle
  rw [AdsbState.distanceTo, AdsbState.distanceTo, myLoc_deleteVehicle]

theorem isSome_deleteVehicle :
    (adsb.deleteVehicle index).vehicleList.isSome = adsb.vehicleList.isSome := by
  rcases Nat.lt_or_ge index adsb.vehicles.length with inside | beyond
  · rw [AdsbState.deleteVehicle, if_pos inside]
    cases listed : adsb.vehicleList with
    | none =>
      rw [AdsbState.vehicles, listed] at inside
      exact absurd inside (Nat.not_lt_zero _)
    | some vehicles => rfl
  · rw [deleteVehicle_beyond beyond]

/-- A removal keeps what is known if and only if it does not move the furthest aircraft. -/
theorem knows_deleteVehicle_iff (knows : KnowsFurthest geometry adsb) :
    KnowsFurthest geometry (adsb.deleteVehicle index) ↔
      ¬ (adsb.vehicleList.isSome = true ∧ 0 < adsb.furthestVehicleDistance ∧ Moves adsb index) := by
  rcases Nat.lt_or_ge index adsb.vehicles.length with inside | beyond
  · constructor
    · rintro knowsBehind ⟨listed, known, before, last⟩
      obtain ⟨distance, place⟩ := furthest_deleteVehicle (Nat.ne_of_lt before)
      have bound := (knowsBehind (isSome_deleteVehicle.trans listed) (distance ▸ known)).inside
      rw [place, vehicles_deleteVehicle inside, SwapRemove.length_removeAt inside] at bound
      omega
    · intro still listed known
      rw [isSome_deleteVehicle] at listed
      by_cases here : index = adsb.furthestVehicleIndex
      · subst here
        rcases le_or_gt adsb.furthestVehicleDistance 0 with unknown | before
        · rw [unknown_deleteVehicle (not_lt.mpr unknown)] at known
          exact absurd known (not_lt.mpr unknown)
        · rw [furthest_deleteVehicle_self inside before] at known
          exact absurd known (lt_irrefl _)
      · obtain ⟨distance, place⟩ := furthest_deleteVehicle here
        rw [distance] at known
        rw [distance, place, distanceTo_deleteVehicle, vehicles_deleteVehicle inside]
        exact (knows listed known).removeAt inside here fun moves => still ⟨listed, known, moves⟩
  · rw [deleteVehicle_beyond beyond]
    refine ⟨fun _ ⟨_, _, before, last⟩ => ?_, fun _ => knows⟩
    omega

/-! ### Timing out -/

theorem timeOutLoop_keeps (keeps : AdsbState Loc Dist Rest → Prop)
    (removal : ∀ state index, index < state.vehicles.length → keeps state →
      keeps (state.deleteVehicle index)) (start : keeps adsb) (now rounds index : ℕ) :
    keeps (adsb.timeOutLoop now rounds index) := by
  induction rounds generalizing adsb index with
  | zero => exact start
  | succ rounds inductionHypothesis =>
    rw [AdsbState.timeOutLoop]
    cases found : adsb.vehicles[index]? with
    | none => exact start
    | some vehicle =>
      obtain ⟨inside, -⟩ := List.getElem?_eq_some_iff.mp found
      dsimp only
      split_ifs
      · exact inductionHypothesis (removal adsb index inside start) index
      · exact inductionHypothesis start (index + 1)

variable {now rounds : ℕ} {late : Vehicle Rest} {own : Loc}

theorem isSome_timeOutLoop :
    (adsb.timeOutLoop now rounds index).vehicleList.isSome = adsb.vehicleList.isSome :=
  timeOutLoop_keeps (fun state => state.vehicleList.isSome = adsb.vehicleList.isSome)
    (fun _ _ _ same => isSome_deleteVehicle.trans same) rfl now rounds index

theorem moved_timeOutLoop (now rounds index : ℕ) (known : 0 < adsb.furthestVehicleDistance)
    (moved : adsb.vehicles.length ≤ adsb.furthestVehicleIndex) :
    0 < (adsb.timeOutLoop now rounds index).furthestVehicleDistance ∧
      (adsb.timeOutLoop now rounds index).vehicles.length ≤
        (adsb.timeOutLoop now rounds index).furthestVehicleIndex := by
  refine timeOutLoop_keeps (fun state => 0 < state.furthestVehicleDistance ∧
    state.vehicles.length ≤ state.furthestVehicleIndex) (fun state index inside beyond => ?_)
    ⟨known, moved⟩ now rounds index
  obtain ⟨known, moved⟩ := beyond
  obtain ⟨distance, place⟩ :=
    furthest_deleteVehicle (Nat.ne_of_lt (Nat.lt_of_lt_of_le inside moved))
  constructor
  · rw [distance]
    exact known
  · rw [place, vehicles_deleteVehicle inside, SwapRemove.length_removeAt inside]
    exact (Nat.sub_le _ _).trans moved

omit [LinearOrder Dist] [Zero Dist] in
/-- Nothing moves the furthest aircraft once the entries in front of it have been checked. -/
theorem not_movesInUpdate {now : ℕ} (checked : ∀ vehicle ∈ adsb.vehicles.take index,
    ¬ TimedOut now vehicle) (within : adsb.vehicles.take adsb.furthestVehicleIndex ⊆
      adsb.vehicles.take index) : ¬ MovesInUpdate adsb now := by
  have none : (adsb.vehicles.take adsb.furthestVehicleIndex).countP
      (fun vehicle => TimedOut now vehicle) = 0 := by
    refine List.countP_eq_zero.mpr fun vehicle member late => ?_
    exact checked vehicle (within member) (of_decide_eq_true late)
  rw [MovesInUpdate, none]
  exact Nat.not_lt_zero _

/-- Removing a late aircraft that is not the furthest one leaves open whether the loop moves it. -/
theorem movesInUpdate_deleteVehicle_iff {now : ℕ} (found : adsb.vehicles[index]? = some late)
    (timedOut : TimedOut now late) (before : index < adsb.furthestVehicleIndex)
    (behind : adsb.furthestVehicleIndex + 1 < adsb.vehicles.length) :
    MovesInUpdate (adsb.deleteVehicle index) now ↔ MovesInUpdate adsb now := by
  obtain ⟨inside, -⟩ := List.getElem?_eq_some_iff.mp found
  rw [MovesInUpdate, MovesInUpdate, (furthest_deleteVehicle (Nat.ne_of_lt before)).2,
    vehicles_deleteVehicle inside]
  exact SwapRemove.balance_removeAt found (decide_eq_true timedOut) before behind

theorem not_knows_moved (listed : adsb.vehicleList.isSome = true)
    (known : 0 < adsb.furthestVehicleDistance) (moves : Moves adsb index) :
    ¬ KnowsFurthest geometry ((adsb.deleteVehicle index).timeOutLoop now rounds index) := by
  intro knows
  obtain ⟨before, last⟩ := moves
  obtain ⟨distance, place⟩ := furthest_deleteVehicle (Nat.ne_of_lt before)
  have inside : index < adsb.vehicles.length := by omega
  have knownBehind : 0 < (adsb.deleteVehicle index).furthestVehicleDistance := by
    rw [distance]
    exact known
  have beyond : (adsb.deleteVehicle index).vehicles.length ≤
      (adsb.deleteVehicle index).furthestVehicleIndex := by
    rw [place, vehicles_deleteVehicle inside, SwapRemove.length_removeAt inside]
    omega
  obtain ⟨knownStill, beyondStill⟩ := moved_timeOutLoop now rounds index knownBehind beyond
  have listedStill : ((adsb.deleteVehicle index).timeOutLoop now rounds
      index).vehicleList.isSome = true := by
    rw [isSome_timeOutLoop, isSome_deleteVehicle]
    exact listed
  exact absurd beyondStill (Nat.not_le.mpr (knows listedStill knownStill).inside)

omit [LinearOrder Dist] [Zero Dist] in
/-- A late aircraft in front of the furthest one moves it if there is nothing behind. -/
theorem Moves.inUpdate {now : ℕ} (moves : Moves adsb index)
    (found : adsb.vehicles[index]? = some late) (timedOut : TimedOut now late) :
    MovesInUpdate adsb now := by
  obtain ⟨before, last⟩ := moves
  rw [MovesInUpdate, last, List.drop_length, List.countP_nil]
  refine List.countP_pos_iff.mpr ⟨late, ?_, decide_eq_true timedOut⟩
  exact List.mem_of_getElem? ((List.getElem?_take_of_lt before).trans found)

/-- Removing a late aircraft without moving the furthest one leaves open whether the loop moves
it. -/
theorem unmoved_deleteVehicle_iff {now : ℕ} (found : adsb.vehicles[index]? = some late)
    (timedOut : TimedOut now late)
    (checked : ∀ vehicle ∈ adsb.vehicles.take index, ¬ TimedOut now vehicle)
    (knows : 0 < adsb.furthestVehicleDistance → IsFurthest (adsb.distanceTo geometry) adsb.vehicles (adsb.furthestVehicleDistance, adsb.furthestVehicleIndex))
    (stays : 0 < adsb.furthestVehicleDistance → ¬ Moves adsb index) :
    0 < (adsb.deleteVehicle index).furthestVehicleDistance ∧
        MovesInUpdate (adsb.deleteVehicle index) now ↔
      0 < adsb.furthestVehicleDistance ∧ MovesInUpdate adsb now := by
  obtain ⟨inside, -⟩ := List.getElem?_eq_some_iff.mp found
  rcases lt_trichotomy index adsb.furthestVehicleIndex with before | here | behind
  · rw [(furthest_deleteVehicle (Nat.ne_of_lt before)).1]
    refine and_congr_right fun known => ?_
    have bound := (knows known).inside
    have notLast : adsb.furthestVehicleIndex + 1 ≠ adsb.vehicles.length :=
      fun last => stays known ⟨before, last⟩
    exact movesInUpdate_deleteVehicle_iff found timedOut before (by omega)
  · have unmoved : ¬ MovesInUpdate adsb now :=
      not_movesInUpdate checked (here ▸ List.Subset.refl _)
    refine ⟨fun ⟨known, _⟩ => ?_, fun ⟨_, moved⟩ => absurd moved unmoved⟩
    rcases le_or_gt adsb.furthestVehicleDistance 0 with unknown | before
    · rw [unknown_deleteVehicle (not_lt.mpr unknown)] at known
      exact absurd known (not_lt.mpr unknown)
    · subst here
      rw [furthest_deleteVehicle_self inside before] at known
      exact absurd known (lt_irrefl _)
  · have front : (adsb.deleteVehicle index).vehicles.take index = adsb.vehicles.take index := by
      rw [vehicles_deleteVehicle inside, SwapRemove.take_removeAt inside]
    have within := List.take_subset_take_left adsb.vehicles behind.le
    have unmoved : ¬ MovesInUpdate adsb now := not_movesInUpdate checked within
    have unmovedStill : ¬ MovesInUpdate (adsb.deleteVehicle index) now := by
      refine not_movesInUpdate (front ▸ checked) ?_
      rw [(furthest_deleteVehicle (Nat.ne_of_gt behind)).2]
      exact List.take_subset_take_left _ behind.le
    exact ⟨fun ⟨_, moved⟩ => absurd moved unmovedStill, fun ⟨_, moved⟩ => absurd moved unmoved⟩

theorem knows_timeOutLoop_iff (now : ℕ) {rounds : ℕ} (knows : KnowsFurthest geometry adsb)
    (enough : adsb.vehicles.length ≤ index + rounds)
    (checked : ∀ vehicle ∈ adsb.vehicles.take index, ¬ TimedOut now vehicle) :
    KnowsFurthest geometry (adsb.timeOutLoop now rounds index) ↔
      ¬ (adsb.vehicleList.isSome = true ∧ 0 < adsb.furthestVehicleDistance ∧
        MovesInUpdate adsb now) := by
  induction rounds generalizing adsb index with
  | zero =>
    refine ⟨fun _ ⟨_, _, moves⟩ => not_movesInUpdate checked ?_ moves, fun _ => knows⟩
    rw [List.take_of_length_le (i := index) enough]
    exact List.take_subset _ _
  | succ rounds inductionHypothesis =>
    rw [AdsbState.timeOutLoop]
    cases found : adsb.vehicles[index]? with
    | none =>
      refine ⟨fun _ ⟨_, _, moves⟩ => not_movesInUpdate checked ?_ moves, fun _ => knows⟩
      rw [List.take_of_length_le (i := index) (List.getElem?_eq_none_iff.mp found)]
      exact List.take_subset _ _
    | some current =>
      obtain ⟨inside, -⟩ := List.getElem?_eq_some_iff.mp found
      dsimp only
      by_cases late : sub32 now current.lastUpdateMs > vehicleTimeoutMs
      · rw [if_pos late]
        have front : (adsb.deleteVehicle index).vehicles.take index = adsb.vehicles.take index := by
          rw [vehicles_deleteVehicle inside, SwapRemove.take_removeAt inside]
        have shorter : (adsb.deleteVehicle index).vehicles.length = adsb.vehicles.length - 1 := by
          rw [vehicles_deleteVehicle inside, SwapRemove.length_removeAt inside]
        by_cases moves : adsb.vehicleList.isSome = true ∧ 0 < adsb.furthestVehicleDistance ∧
            Moves adsb index
        · refine ⟨fun knowsBehind => ?_, fun still => ?_⟩
          · exact absurd knowsBehind (not_knows_moved moves.1 moves.2.1 moves.2.2)
          · exact absurd ⟨moves.1, moves.2.1, moves.2.2.inUpdate found late⟩ still
        · rw [inductionHypothesis ((knows_deleteVehicle_iff knows).mpr moves) (by omega)
            (front ▸ checked), isSome_deleteVehicle]
          refine not_congr (and_congr_right fun listed => ?_)
          exact unmoved_deleteVehicle_iff found late checked (knows listed)
            fun known moved => moves ⟨listed, known, moved⟩
      · rw [if_neg late]
        refine inductionHypothesis knows (by omega) ?_
        intro vehicle member
        rw [List.take_add_one, found, Option.toList_some, List.mem_append, List.mem_singleton]
          at member
        rcases member with before | rfl
        · exact checked vehicle before
        · exact late

/-! ### One call -/

omit [LinearOrder Dist] [Zero Dist] in
theorem distanceTo_eq (same : next.myLoc = adsb.myLoc) :
    next.distanceTo geometry = adsb.distanceTo geometry := by
  funext vehicle
  rw [AdsbState.distanceTo, AdsbState.distanceTo, same]

theorem knows_of_forgotten (forgotten : next.furthestVehicleDistance = 0) :
    KnowsFurthest geometry next := by
  intro _ known
  rw [forgotten] at known
  exact absurd known (lt_irrefl _)

omit [Zero Dist] in
theorem IsFurthest.set {distance : Vehicle Rest → Dist} {vehicles : List (Vehicle Rest)}
    {furthest : Dist × ℕ} (known : IsFurthest distance vehicles furthest) {entry new : Vehicle Rest}
    (found : vehicles[index]? = some entry) (same : distance new = distance entry) :
    IsFurthest distance (vehicles.set index new) furthest := by
  obtain ⟨inside, -⟩ := List.getElem?_eq_some_iff.mp found
  obtain ⟨far, there, measured, largest⟩ := known
  have bounded : ∀ other ∈ vehicles.set index new, distance other ≤ furthest.1 := by
    intro other member
    rcases List.mem_or_eq_of_mem_set member with before | rfl
    · exact largest other before
    · rw [same]
      exact largest entry (List.mem_of_getElem? found)
  by_cases here : index = furthest.2
  · refine ⟨new, ?_, ?_, bounded⟩
    · rw [← here, List.getElem?_set_self inside]
    · rw [← here, found] at there
      rw [same, Option.some.inj there, measured]
  · exact ⟨far, (List.getElem?_set_ne here).trans there, measured, bounded⟩

omit [Zero Dist] in
/-- An entry is added that is no further away. -/
theorem IsFurthest.append_iff {distance : Vehicle Rest → Dist} {vehicles : List (Vehicle Rest)}
    {furthest : Dist × ℕ} (known : IsFurthest distance vehicles furthest) {new : Vehicle Rest} :
    IsFurthest distance (vehicles ++ [new]) furthest ↔ ¬ furthest.1 < distance new := by
  have bound := known.inside
  obtain ⟨entry, found, measured, largest⟩ := known
  constructor
  · rintro ⟨-, -, -, largestStill⟩
    exact not_lt.mpr (largestStill new (List.mem_append_right _ (List.mem_singleton_self new)))
  · intro near
    refine ⟨entry, (List.getElem?_append_left bound).trans found, measured, ?_⟩
    intro other member
    rcases List.mem_append.mp member with there | same
    · exact largest other there
    · rw [List.mem_singleton.mp same]
      exact not_lt.mp near

theorem not_disturbs_full (untracked : Untracked adsb info.icaoAddress)
    (full : adsb.listSize ≤ adsb.vehicles.length) :
    ¬ Disturbs geometry adsb (.handle info reception) := by
  rintro ⟨-, -, ⟨-, index, search, -⟩ | ⟨-, -, room, -⟩⟩
  · obtain ⟨entry, found, same⟩ := findIndex_some search
    exact untracked entry (List.mem_of_getElem? found) same
  · exact absurd full (Nat.not_le.mpr room)

theorem knows_refreshed (kept : Kept adsb) (knows : KnowsFurthest geometry adsb)
    {entry new : Vehicle Rest} (listed : adsb.vehicleList.isSome = true)
    (found : adsb.vehicles[index]? = some entry)
    (stays : geometry.getLocation entry = geometry.getLocation new) :
    KnowsFurthest geometry (adsb.setVehicle index new) := by
  intro _ known
  obtain ⟨inside, -⟩ := List.getElem?_eq_some_iff.mp found
  rw [AdsbState.setVehicle, if_pos (inside.trans_le kept.room)] at known ⊢
  refine (knows listed known).set found ?_
  rw [AdsbState.distanceTo, AdsbState.distanceTo, stays]

theorem Handled.knows_iff (own : Loc) (kept : Kept adsb) (knows : KnowsFurthest geometry adsb)
    (keeps : KeepsPositions geometry own adsb (.handle info reception))
    (handled : Handled geometry adsb info reception next) :
    KnowsFurthest geometry next ↔ ¬ Disturbs geometry adsb (.handle info reception) := by
  cases handled with
  | ignored ignores =>
    refine iff_of_true knows ?_
    rintro ⟨listed, known, disturbs⟩
    rcases ignores with empty | ⟨rejects, untracked⟩
    · have inside := (knows listed known).inside
      rw [empty] at inside
      exact absurd inside (Nat.not_lt_zero _)
    · rcases disturbs with ⟨-, index, search, -⟩ | ⟨accepts, -⟩
      · obtain ⟨entry, found, same⟩ := findIndex_some search
        exact untracked entry (List.mem_of_getElem? found) same
      · exact accepts.2 rejects
  | dropped index gone rejects found same =>
    rw [knows_deleteVehicle_iff knows]
    refine not_congr (and_congr_right fun _ => and_congr_right fun _ => ⟨fun moves => ?_, ?_⟩)
    · refine Or.inl ⟨rejects, ?_⟩
      cases search : findIndex adsb.vehicles (vehicleOf info reception) with
      | none => exact absurd same (findIndex_none search gone (List.mem_of_getElem? found))
      | some index' =>
        obtain ⟨entry, found', same'⟩ := findIndex_some search
        have here := SwapRemove.position_eq kept.distinct found found' (same.trans same'.symm)
        exact ⟨index', rfl, here ▸ moves⟩
    · rintro (⟨-, index', search, moves⟩ | ⟨accepts, -⟩)
      · obtain ⟨entry, found', same'⟩ := findIndex_some search
        rwa [SwapRemove.position_eq kept.distinct found found' (same.trans same'.symm)]
      · exact absurd rejects accepts.2
  | refreshed index entry accepts found same =>
    have stays := keeps entry (List.mem_of_getElem? found) same accepts
    refine iff_of_true (knows_refreshed kept knows accepts.1 found stays) ?_
    rintro ⟨-, -, ⟨rejects, -⟩ | ⟨-, untracked, -⟩⟩
    · exact accepts.2 rejects
    · exact untracked entry (List.mem_of_getElem? found) same
  | added accepts untracked room =>
    constructor
    · rintro knowsBehind ⟨listed, known, ⟨rejects, -⟩ | ⟨-, -, -, further⟩⟩
      · exact accepts.2 rejects
      · exact (knows listed known).append_iff.mp (knowsBehind rfl known) further
    · intro calm listed known
      refine (knows accepts.1 known).append_iff.mpr fun further => ?_
      exact calm ⟨accepts.1, known, Or.inr ⟨accepts, untracked, room, further⟩⟩
  | unlocated full untracked =>
    exact iff_of_true (knows_of_forgotten rfl) (not_disturbs_full untracked full)
  | evicted competes =>
    exact iff_of_true (knows_of_forgotten rfl)
      (not_disturbs_full competes.untracked competes.full)
  | refused competes =>
    refine iff_of_true (fun _ _ => ?_) (not_disturbs_full competes.untracked competes.full)
    have some : adsb.vehicles ≠ [] :=
      List.length_pos_iff.mp (Nat.lt_of_lt_of_le kept.sized competes.full)
    rw [vehicles_ensureFurthest, distanceTo_eq myLoc_ensureFurthest]
    exact isFurthest_ensureFurthest some competes.accepted.1 knows

theorem knows_update_iff {inputs : Update Loc} (knows : KnowsFurthest geometry adsb)
    (placed : adsb.vehicleList.isSome = true → adsb.myLoc = own)
    (position : inputs.position = some own) :
    KnowsFurthest geometry (adsb.update geometry inputs) ↔
      ¬ Disturbs geometry adsb (.update inputs) := by
  have located : KnowsFurthest geometry
      { adsb with myLoc := inputs.position.getD geometry.zero } := by
    intro listed known
    have same : inputs.position.getD geometry.zero = adsb.myLoc := by
      rw [position]
      exact (placed listed).symm
    rw [distanceTo_eq same]
    exact knows listed known
  have unlisted : ∀ state : AdsbState Loc Dist Rest, state.vehicleList.isSome ≠ true →
      KnowsFurthest geometry state := fun state missing listed => absurd listed missing
  rw [AdsbState.update]
  dsimp only
  by_cases disabled : inputs.enabled = false
  · rw [if_pos disabled]
    refine iff_of_true ?_ fun disturbs => disturbs.2.2.1 (Or.inl disabled)
    split_ifs with listed
    · exact unlisted _ Bool.false_ne_true
    · exact unlisted _ listed
  rw [if_neg disabled]
  by_cases missing : adsb.vehicleList.isNone = true
  · rw [if_pos missing]
    refine iff_of_true (knows_of_forgotten rfl) fun disturbs => ?_
    rw [Option.isNone_iff_eq_none] at missing
    exact absurd disturbs.1 (by rw [missing]; exact Bool.false_ne_true)
  rw [if_neg missing]
  by_cases resized : (adsb.listSize : ℤ) ≠ inputs.listSizeParam
  · rw [if_pos resized]
    exact iff_of_true (unlisted _ Bool.false_ne_true)
      fun disturbs => disturbs.2.2.1 (Or.inr resized)
  · rw [if_neg resized, knows_timeOutLoop_iff inputs.now located
      (Nat.le_of_eq (Nat.zero_add _).symm) (by simp)]
    have staying : ¬ Flushes adsb inputs := not_or.mpr ⟨disabled, resized⟩
    refine not_congr (and_congr_right fun _ => and_congr_right fun _ => ?_)
    exact ⟨fun moves => ⟨staying, moves⟩, And.right⟩

theorem knows_step_iff (kept : Kept adsb) (knows : KnowsFurthest geometry adsb)
    (placed : adsb.vehicleList.isSome = true → adsb.myLoc = own) (call : Call Loc Rest)
    (keeps : KeepsPositions geometry own adsb call) :
    KnowsFurthest geometry (step geometry adsb call) ↔ ¬ Disturbs geometry adsb call := by
  cases call with
  | handle info reception => exact (handled geometry adsb info reception).knows_iff own kept knows keeps
  | update inputs => exact knows_update_iff knows placed keeps
  | delete index => exact knows_deleteVehicle_iff knows
  | init => exact iff_of_true (knows_of_forgotten rfl) fun disturbs => disturbs.2.2
  | deinit =>
    exact iff_of_true (fun listed => absurd listed Bool.false_ne_true)
      fun disturbs => disturbs.2.2

/-! ### Runs -/

theorem Handled.placed (handled : Handled geometry adsb info reception next)
    (placed : adsb.vehicleList.isSome = true → adsb.myLoc = own) :
    next.vehicleList.isSome = true → next.myLoc = own := by
  intro listed
  cases handled with
  | ignored => exact placed listed
  | dropped =>
    rw [isSome_deleteVehicle] at listed
    rw [myLoc_deleteVehicle]
    exact placed listed
  | refreshed _ _ accepts =>
    rw [AdsbState.setVehicle]
    split_ifs <;> exact placed accepts.1
  | added accepts => exact placed accepts.1
  | unlocated => exact placed listed
  | evicted competes =>
    change (AdsbState.setVehicle _ _ _).myLoc = own
    rw [AdsbState.setVehicle]
    split_ifs <;> exact myLoc_ensureFurthest.trans (placed competes.accepted.1)
  | refused competes => exact myLoc_ensureFurthest.trans (placed competes.accepted.1)

theorem myLoc_timeOutLoop :
    (adsb.timeOutLoop now rounds index).myLoc = adsb.myLoc :=
  timeOutLoop_keeps (fun state => state.myLoc = adsb.myLoc)
    (fun _ _ _ same => myLoc_deleteVehicle.trans same) rfl now rounds index

omit [LinearOrder Dist] in
theorem myLoc_init (listSizeParam : ℤ) (allocated : Bool) :
    (adsb.init listSizeParam allocated).myLoc = adsb.myLoc := by
  rw [AdsbState.init]
  cases adsb.vehicleList <;> rfl

theorem myLoc_update (inputs : Update Loc) :
    (adsb.update geometry inputs).myLoc = inputs.position.getD geometry.zero := by
  rw [AdsbState.update]
  dsimp only
  split_ifs
  · rfl
  · rfl
  · exact myLoc_init _ _
  · rfl
  · exact myLoc_timeOutLoop

theorem placed_step (placed : adsb.vehicleList.isSome = true → adsb.myLoc = own)
    (call : Call Loc Rest) (keeps : KeepsPositions geometry own adsb call) :
    (step geometry adsb call).vehicleList.isSome = true → (step geometry adsb call).myLoc = own := by
  cases call with
  | handle info reception => exact (handled geometry adsb info reception).placed placed
  | update inputs =>
    intro _
    rw [step, myLoc_update, show inputs.position = some own from keeps]
    rfl
  | delete index =>
    intro listed
    rw [step, isSome_deleteVehicle] at listed
    rw [step, myLoc_deleteVehicle]
    exact placed listed
  | init => exact fun _ => (myLoc_init _ _).trans keeps
  | deinit => exact fun listed => absurd listed Bool.false_ne_true

/-- In a run what is known about the furthest aircraft is right all the time if and only if no call
disturbs it. -/
theorem knows_run_iff {calls : List (Call Loc Rest)} (kept : Kept adsb)
    (knows : KnowsFurthest geometry adsb)
    (placed : adsb.vehicleList.isSome = true → adsb.myLoc = own)
    (keeps : Along (step geometry) (fun _ => True) (KeepsPositions geometry own) adsb calls) :
    (∀ count, KnowsFurthest geometry (runCalls (step geometry) adsb (calls.take count))) ↔
      Along (step geometry) (fun _ => True) (fun state call => ¬ Disturbs geometry state call) adsb
        calls := by
  induction calls generalizing adsb with
  | nil =>
    refine iff_of_true (fun count => ?_) trivial
    rw [List.take_nil]
    exact knows
  | cons call rest inductionHypothesis =>
    obtain ⟨-, keepsNow, keepsLater⟩ := keeps
    have onCall := knows_step_iff kept knows placed call keepsNow
    have placedNext := placed_step placed call keepsNow
    constructor
    · intro always
      have knowsNext := always 1
      refine ⟨trivial, onCall.mp knowsNext, ?_⟩
      exact (inductionHypothesis (kept.step call) knowsNext placedNext keepsLater).mp
        fun count => always (count + 1)
    · rintro ⟨-, calm, later⟩ count
      cases count with
      | zero => exact knows
      | succ count =>
        have knowsNext := onCall.mpr calm
        exact (inductionHypothesis (kept.step call) knowsNext placedNext keepsLater).mpr later count

/-- From any state that a run reaches, while the own position and the positions of the tracked
aircraft stay and no call disturbs what is known, the furthest aircraft is the one that is replaced,
and every aircraft that is closer than it is admitted. -/
theorem furthest_replaced (geometry : Geometry Loc Dist) (own : Loc)
    (earlier calls : List (Call Loc Rest))
    (knows : KnowsFurthest geometry (stateBehind geometry earlier))
    (placed : (stateBehind geometry earlier).vehicleList.isSome = true →
      (stateBehind geometry earlier).myLoc = own)
    (keeps : Along (step geometry) (fun _ => True) (KeepsPositions geometry own)
      (stateBehind geometry earlier) calls)
    (calm : Along (step geometry) (fun _ => True) (fun state call => ¬ Disturbs geometry state call)
      (stateBehind geometry earlier) calls) :
    ∀ before call, before ++ [call] <+: calls →
      ReplacesFurthest geometry (stateBehind geometry (earlier ++ before)) call := by
  rintro before call ⟨after, rfl⟩
  refine replacesFurthest (tracks (earlier ++ before)).kept ?_ call
  have always := (knows_run_iff (tracks earlier).kept knows placed keeps).mpr calm before.length
  rw [List.append_assoc, List.take_left, stateBehind, ← runCalls_append] at always
  exact always

end Eviction

/-! ### Runs of a few aircraft -/

section Instances

variable {Loc Dist Rest : Type} [LinearOrder Dist] [Zero Dist] {geometry : Geometry Loc Dist}
  {adsb : AdsbState Loc Dist Rest}

instance (index : ℕ) : Decidable (Moves adsb index) :=
  inferInstanceAs (Decidable (index < adsb.furthestVehicleIndex ∧
    adsb.furthestVehicleIndex + 1 = adsb.vehicles.length))

instance (now : ℕ) : Decidable (MovesInUpdate adsb now) :=
  inferInstanceAs (Decidable (_ < _))

instance (call : Call Loc Rest) : Decidable (Disturbs geometry adsb call) := by
  unfold Disturbs
  cases call <;> infer_instance

instance [DecidableEq Loc] (own : Loc) :
    (call : Call Loc Rest) → Decidable (KeepsPositions geometry own adsb call)
  | .handle info reception => inferInstanceAs (Decidable (∀ entry ∈ adsb.vehicles,
      address entry = info.icaoAddress → Accepts geometry adsb info reception →
        geometry.getLocation entry = geometry.getLocation (vehicleOf info reception)))
  | .update inputs => inferInstanceAs (Decidable (inputs.position = some own))
  | .delete _ => isTrue trivial
  | .init _ _ => inferInstanceAs (Decidable (adsb.myLoc = own))
  | .deinit => isTrue trivial

end Instances

/-- The third aircraft is the furthest of three, and the fifth, which is closer, replaces it. -/
theorem furthest_replaced_third :
    ReplacesFurthest line (stateBehind line ([] ++ crowdedRun.take 5)) (sighting 5 6) :=
  furthest_replaced line 1 [] (crowdedRun.take 5 ++ [sighting 5 6]) (knows_of_forgotten rfl)
    (fun listed => absurd listed Bool.false_ne_true) (by decide +kernel) (by decide +kernel)
    (crowdedRun.take 5) (sighting 5 6) (List.prefix_refl _)

/-- The own position and the positions of all aircraft stay, but the removal of the first aircraft
moves the third, and the sixth replaces the fifth, which is the closest. -/
theorem not_replacesFurthest_crowdedRun :
    Along (step line) (fun _ => True) (KeepsPositions line 1) line.start
        (crowdedRun ++ [sighting 6 26]) ∧
      ¬ ReplacesFurthest line (stateBehind line crowdedRun) (sighting 6 26) := by
  refine ⟨by decide +kernel, fun replaces => ?_⟩
  have competes : Competes line (stateBehind line crowdedRun)
      ⟨6, 26, 0, 0, 0, flagsValidCoords, ()⟩ ⟨0, 0, 0⟩ :=
    ⟨by decide +kernel, by decide +kernel, by decide +kernel, by decide +kernel⟩
  obtain ⟨-, closer⟩ := (replaces.2 competes).1 ⟨⟨5, 6, 0, 0, 0, flagsValidCoords, ()⟩, 0⟩
    (by decide +kernel) (by decide +kernel)
  exact absurd closer (by decide +kernel)

end Urus.Adsb
