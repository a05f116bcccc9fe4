/-
This file is about the partial update of a mission. The ground station announces the
first and the last item that it is going to send, and the receiver asks for them as in a
full upload. What a full upload keeps as the number of items is the number of the last
item here, and the end of the upload is tested as if it were the number of items: the
receiver is done when it is about to ask for the last item, unless that is the first one,
too.
-/

import Urus.Mission.Upload

namespace Urus.GcsMavlink.Partial

open ApMission

variable {board : Board}

/-! ### The code -/

/-- The unsigned number that a signed one is compared as. -/
def asUnsigned (index : Int16) : ℕ := (index.toInt % 2 ^ 32).toNat

/-- `handle_mission_write_partial_list`: whether the update is accepted, and the receiver. -/
def handleMissionWritePartialList (gcs : Gcs board) (startIndex endIndex : Int16) :
    Bool × Gcs board :=
  if asUnsigned startIndex > gcs.mission.plan.cmdTotal ∨
      asUnsigned endIndex > gcs.mission.plan.cmdTotal ∨ endIndex < startIndex then
    (false, gcs)
  else
    (true, { gcs with
      waypointReceiving := true
      waypointRequestI := startIndex.toUInt16
      waypointRequestLast := endIndex.toUInt16 })

/-- `queued_waypoint_send` on a link that is initialised: the item that is asked for. -/
def queuedWaypointSend (gcs : Gcs board) : Option UInt16 :=
  if gcs.waypointReceiving ∧ gcs.waypointRequestI ≤ gcs.waypointRequestLast then
    some gcs.waypointRequestI
  else none

/-- What happens during the update: an item arrives, or none has for too long. -/
inductive Event
  | missionItem (item : Item)
  | timeout

/-- One event. -/
def step (receiver : Receiver) (gcs : Gcs board) : Event → Gcs board
  | .missionItem item => (handleMissionItem receiver gcs item).2.2
  | .timeout => { gcs with waypointReceiving := false }

/-! ### The update -/

section Update

variable (receiver : Receiver) (gcs : Gcs board) (startIndex endIndex : Int16)

/-- The receiver when the update was announced and some events have happened. -/
def during (events : List Event) : Gcs board :=
  runCalls (step receiver) (handleMissionWritePartialList gcs startIndex endIndex).2 events

/-- At some point of the events an item with this number was asked for, arrived and was written. -/
def Written (events : List Event) (index : ℕ) : Prop :=
  ∃ before item after decoded, events = before ++ .missionItem item :: after ∧
    queuedWaypointSend (during receiver gcs startIndex endIndex before) = some item.seq ∧
    item.seq.toNat = index ∧ item.decode receiver.build = .ok decoded ∧
    (during receiver gcs startIndex endIndex (before ++ [.missionItem item])).mission.plan.slot index =
      (receiver.layout.command decoded).record

/-- Whatever happens, only the items from the first to the last one are asked for and no other
command changes, and when the receiver is done all of them have been asked for and written. -/
def Updated : Prop :=
  ∀ events, let now := during receiver gcs startIndex endIndex events
    (∀ seq, queuedWaypointSend now = some seq →
      startIndex.toInt ≤ seq.toNat ∧ seq.toNat ≤ endIndex.toInt) ∧
    (∀ index : ℕ, ¬ (startIndex.toInt ≤ index ∧ index ≤ endIndex.toInt) →
      now.mission.plan.slot index = gcs.mission.plan.slot index) ∧
    ∀ item, (handleMissionItem receiver now item).1 = true →
      (handleMissionItem receiver now item).2.1 = .ack .accepted ∧
        ∀ index : ℕ, startIndex.toInt ≤ index → index ≤ endIndex.toInt →
          Written receiver gcs startIndex endIndex (events ++ [.missionItem item]) index

variable {receiver} {gcs} {startIndex endIndex}

theorem toInt_eq_of_asUnsigned (index : Int16) (small : asUnsigned index < 2 ^ 31) :
    index.toInt = index.toUInt16.toNat := by
  have low := index.le_toInt
  have high := index.toInt_lt
  rw [asUnsigned] at small
  have positive : 0 ≤ index.toInt := by omega
  have kept := Int16.toNat_toUInt16_of_le (Int16.le_iff_toInt_le.mpr positive)
  rw [kept, Int16.toNatClampNeg, Int.toNat_of_nonneg positive]

theorem accepted_bounds
    (accepted : (handleMissionWritePartialList gcs startIndex endIndex).1 = true) :
    startIndex.toInt = startIndex.toUInt16.toNat ∧ endIndex.toInt = endIndex.toUInt16.toNat ∧
      startIndex.toUInt16.toNat ≤ endIndex.toUInt16.toNat ∧
      endIndex.toUInt16.toNat ≤ gcs.mission.plan.cmdTotal := by
  have inside := gcs.mission.plan.inside
  have fits := board.layout.sizeFits .mission
  rw [← StorageManager.size_eq] at fits
  rw [numCommandsMax, commandSize] at inside
  unfold handleMissionWritePartialList at accepted
  split at accepted
  · cases accepted
  · rename_i admitted
    rw [not_or, not_or, Int16.not_lt, Int16.le_iff_toInt_le] at admitted
    obtain ⟨startBound, endBound, ordered⟩ := admitted
    have startPlace := toInt_eq_of_asUnsigned startIndex (by omega)
    have endPlace := toInt_eq_of_asUnsigned endIndex (by omega)
    rw [asUnsigned, endPlace] at endBound
    have short := endIndex.toUInt16.toNat_lt
    refine ⟨startPlace, endPlace, by omega, by omega⟩

/-- The receiver of an update that is accepted. -/
theorem handleMissionWritePartialList_accepted
    (accepted : (handleMissionWritePartialList gcs startIndex endIndex).1 = true) :
    (handleMissionWritePartialList gcs startIndex endIndex).2 =
      ⟨gcs.mission, true, startIndex.toUInt16, endIndex.toUInt16⟩ := by
  unfold handleMissionWritePartialList at accepted ⊢
  split
  · rename_i refused
    rw [if_pos refused] at accepted
    exact nomatch accepted
  · rfl

/-! ### One item -/

section One

/-- The state of an update of one item: it is asked for or the update is over, and no other
command has changed. -/
def Single (before : Gcs board) (place : UInt16) (now : Gcs board) : Prop :=
  (now.waypointReceiving = true →
    now.waypointRequestI = place ∧ now.waypointRequestLast = place) ∧
  ∀ index : ℕ, index ≠ place.toNat →
    now.mission.plan.slot index = before.mission.plan.slot index

/-- An item that is taken is the one that is asked for, and ends the update. -/
theorem Single.handle {before now : Gcs board} {place : UInt16} (short : place.toNat < 2 ^ 15)
    (single : Single before place now) (item : Item) :
    Single before place (handleMissionItem receiver now item).2.2 := by
  obtain ⟨asked, kept⟩ := single
  obtain ⟨-, same⟩ | ⟨decoded, mission, takes, stores, outcome⟩ :=
    handleMissionItem_cases receiver now item
  · rw [same]
    exact ⟨asked, kept⟩
  · obtain ⟨request, last⟩ := asked takes.receiving
    have done : now.waypointRequestI + 1 ≥ now.waypointRequestLast := by
      rw [request, last, ge_iff_le, UInt16.le_iff_toNat_le, uint16_succ (by omega)]
      exact Nat.le_succ _
    rw [outcome, if_pos done]
    refine ⟨nofun, fun index other => ?_⟩
    rw [← request, ← takes.requested] at other
    rw [← request, ← takes.requested] at kept
    exact (stores.others index other).trans (kept index other)

theorem Single.step {before now : Gcs board} {place : UInt16} (short : place.toNat < 2 ^ 15)
    (single : Single before place now) (event : Event) :
    Single before place (step receiver now event) := by
  cases event with
  | missionItem item => exact single.handle short item
  | timeout => exact ⟨nofun, single.2⟩

variable (receiver) in
/-- During an update of one item. -/
theorem during_single
    (accepted : (handleMissionWritePartialList gcs startIndex startIndex).1 = true)
    (events : List Event) :
    Single gcs startIndex.toUInt16 (during receiver gcs startIndex startIndex events) := by
  obtain ⟨place, -, -, -⟩ := accepted_bounds accepted
  have high := startIndex.toInt_lt
  refine runCalls_invariant (Single gcs startIndex.toUInt16)
    (fun now event member single => single.step (by omega) event) ?_
  rw [handleMissionWritePartialList_accepted accepted]
  exact ⟨fun _ => ⟨rfl, rfl⟩, fun index other => rfl⟩

theorem during_snoc (events : List Event) (item : Item) :
    during receiver gcs startIndex endIndex (events ++ [.missionItem item]) =
      (handleMissionItem receiver (during receiver gcs startIndex endIndex events) item).2.2 :=
  runCalls_append ..

theorem updated_single
    (accepted : (handleMissionWritePartialList gcs startIndex startIndex).1 = true) :
    Updated receiver gcs startIndex startIndex := by
  obtain ⟨place, -, -, -⟩ := accepted_bounds accepted
  have high := startIndex.toInt_lt
  intro events now
  obtain ⟨asked, kept⟩ := during_single receiver accepted events
  refine ⟨fun seq requested => ?_, fun index outside => kept index (by omega), fun item complete => ?_⟩
  · rw [queuedWaypointSend] at requested
    split at requested
    · rename_i receiving
      obtain ⟨request, -⟩ := asked receiving.1
      obtain rfl := Option.some.inj requested
      rw [request]
      omega
    · exact nomatch requested
  · obtain ⟨unfinished, -⟩ | ⟨decoded, mission, takes, stores, outcome⟩ :=
      handleMissionItem_cases receiver now item
    · rw [unfinished] at complete
      exact nomatch complete
    · obtain ⟨request, final⟩ := asked takes.receiving
      have done : now.waypointRequestI + 1 ≥ now.waypointRequestLast := by
        by_contra more
        rw [outcome, if_neg more] at complete
        exact nomatch complete
      refine ⟨by rw [outcome, if_pos done], fun index first last => ?_⟩
      obtain rfl : index = item.seq.toNat := by
        rw [takes.requested, request]
        omega
      refine ⟨events, item, [], decoded, rfl, ?_, rfl, takes.decodes, ?_⟩
      · have requests : now.waypointRequestI ≤ now.waypointRequestLast := by
          rw [request, final]
          exact UInt16.le_refl _
        rw [queuedWaypointSend, if_pos ⟨takes.receiving, requests⟩, takes.requested]
      · rw [during_snoc, outcome, if_pos done]
        exact stores.slot

end One

/-! ### Several items -/

section Several

/-- An order to return. -/
def returnItem (place : UInt16) : Item :=
  .itemInt ⟨0, 0, 0, 0, 0, 0, 0, place, MavCmd.navReturnToLaunch.id, frameGlobal, 0, 1⟩

/-- Every receiver understands it. -/
theorem returnItem_decode (build : Build) (place : UInt16) :
    (returnItem place).decode build = .ok ⟨place, .navReturnToLaunch, 0, ()⟩ :=
  rfl

variable (receiver) in
/-- It is taken for every item of the mission that is asked for. -/
theorem handle_returnItem {now : Gcs board} (receiving : now.waypointReceiving = true)
    (listed : now.waypointRequestI.toNat < now.mission.plan.cmdTotal) :
    ∃ mission, mission.plan.cmdTotal = now.mission.plan.cmdTotal ∧
      handleMissionItem receiver now (returnItem now.waypointRequestI) =
        if now.waypointRequestI + 1 ≥ now.waypointRequestLast then
          (true, .ack .accepted, ⟨mission, false, now.waypointRequestI + 1,
            now.waypointRequestLast⟩)
        else
          (false, .request (now.waypointRequestI + 1), ⟨mission, now.waypointReceiving,
            now.waypointRequestI + 1, now.waypointRequestLast⟩) := by
  have room := lt_of_lt_of_le listed now.mission.plan.inside
  obtain ⟨replaced, total⟩ := writeCmdToStorage_accepted now.mission.plan room
    (receiver.layout.command ⟨now.waypointRequestI, .navReturnToLaunch, 0, ()⟩)
  refine ⟨(storeItem now.mission now.waypointRequestI
    (receiver.layout.command ⟨now.waypointRequestI, .navReturnToLaunch, 0, ()⟩)).2, ?_, ?_⟩
  · rw [storeItem, if_pos listed, Mission.replaceCmd, if_neg (not_le.mpr listed)]
    exact total
  · have stored : (storeItem now.mission now.waypointRequestI
        (receiver.layout.command ⟨now.waypointRequestI, .navReturnToLaunch, 0, ()⟩)).1 = true := by
      rw [storeItem, if_pos listed, Mission.replaceCmd, if_neg (not_le.mpr listed)]
      exact replaced
    have other : (receiver.layout.command
        ⟨now.waypointRequestI, .navReturnToLaunch, 0, ()⟩).id ≠ doJump := by
      change MavCmd.navReturnToLaunch.id ≠ doJump
      decide
    unfold handleMissionItem
    rw [returnItem_decode]
    simp only [returnItem, Item.current, Item.seq, receiving, other, stored, false_and, if_false,
      Bool.not_true, Bool.false_eq_true, ne_eq, not_true_eq_false]
    rfl

/-- The orders from the first one on. -/
def returnEvents (first : UInt16) (count : ℕ) : List Event :=
  (List.range count).map fun index => .missionItem (returnItem (first + UInt16.ofNat index))

theorem returnEvents_succ (first : UInt16) (count : ℕ) :
    returnEvents first (count + 1) =
      returnEvents first count ++ [.missionItem (returnItem (first + UInt16.ofNat count))] := by
  rw [returnEvents, List.range_succ, List.map_append]
  rfl

variable (receiver) in
/-- The receiver takes the orders in front of the last one, one after the other. -/
theorem during_returnEvents
    (accepted : (handleMissionWritePartialList gcs startIndex endIndex).1 = true) (count : ℕ)
    (early : startIndex.toUInt16.toNat + count < endIndex.toUInt16.toNat) :
    let now := during receiver gcs startIndex endIndex (returnEvents startIndex.toUInt16 count)
    now.waypointReceiving = true ∧
      now.waypointRequestI = startIndex.toUInt16 + UInt16.ofNat count ∧
      now.waypointRequestI.toNat = startIndex.toUInt16.toNat + count ∧
      now.waypointRequestLast = endIndex.toUInt16 ∧
      now.mission.plan.cmdTotal = gcs.mission.plan.cmdTotal := by
  obtain ⟨-, place, -, total⟩ := accepted_bounds accepted
  have high := endIndex.toInt_lt
  induction count with
  | zero =>
    intro now
    have opened : now = ⟨gcs.mission, true, startIndex.toUInt16, endIndex.toUInt16⟩ :=
      handleMissionWritePartialList_accepted accepted
    rw [opened]
    exact ⟨rfl, by simp, rfl, rfl, rfl⟩
  | succ count inductionHypothesis =>
    obtain ⟨receiving, request, reached, last, length⟩ := inductionHypothesis (by omega)
    rw [returnEvents_succ, during_snoc, ← request]
    obtain ⟨mission, kept, outcome⟩ := handle_returnItem receiver receiving
      (by omega)
    have next : ((during receiver gcs startIndex endIndex
      (returnEvents startIndex.toUInt16 count)).waypointRequestI + 1).toNat = _ :=
      uint16_succ (by omega)
    rw [if_neg] at outcome
    · rw [outcome]
      refine ⟨receiving, ?_, by dsimp only; omega, last, kept.trans length⟩
      rw [request, UInt16.ofNat_add, UInt16.add_assoc]
      rfl
    · rw [last, ge_iff_le, UInt16.le_iff_toNat_le]
      omega

theorem not_updated_several
    (accepted : (handleMissionWritePartialList gcs startIndex endIndex).1 = true)
    (several : startIndex ≠ endIndex) : ¬ Updated receiver gcs startIndex endIndex := by
  obtain ⟨firstPlace, lastPlace, ordered, total⟩ := accepted_bounds accepted
  have high := endIndex.toInt_lt
  have apart : startIndex.toUInt16.toNat ≠ endIndex.toUInt16.toNat := by
    intro same
    refine several (Int16.toInt_inj.mp ?_)
    rw [firstPlace, lastPlace, same]
  obtain ⟨count, places⟩ := Nat.exists_eq_add_of_lt (lt_of_le_of_ne ordered apart)
  obtain ⟨receiving, request, reached, last, length⟩ :=
    during_returnEvents receiver accepted count (by omega)
  intro updated
  obtain ⟨mission, -, outcome⟩ := handle_returnItem receiver receiving (by omega)
  have next : ((during receiver gcs startIndex endIndex
    (returnEvents startIndex.toUInt16 count)).waypointRequestI + 1).toNat = _ :=
    uint16_succ (by omega)
  rw [if_pos (by rw [last, ge_iff_le, UInt16.le_iff_toNat_le]; omega)] at outcome
  obtain ⟨-, written⟩ := (updated (returnEvents startIndex.toUInt16 count)).2.2 _
    (congrArg Prod.fst outcome)
  obtain ⟨before, item, after, decoded, events, -, number, -⟩ :=
    written endIndex.toUInt16.toNat (by omega) (by omega)
  -- no order is the last one of the update
  rw [request, ← returnEvents_succ] at events
  have member : Event.missionItem item ∈ returnEvents startIndex.toUInt16 (count + 1) := by
    rw [events]
    exact List.mem_append_right _ List.mem_cons_self
  obtain ⟨index, early, same⟩ := List.mem_map.mp member
  rw [List.mem_range] at early
  obtain rfl := Event.missionItem.inj same
  change (startIndex.toUInt16 + UInt16.ofNat index).toNat = _ at number
  rw [UInt16.toNat_add, UInt16.toNat_ofNat'] at number
  omega

end Several

/-- A partial update that is accepted does what was announced if and only if it is of one item:
the end of the list is tested as if the number of the last item were the number of items, so the
receiver is done one item early. -/
theorem updated_iff_single
    (accepted : (handleMissionWritePartialList gcs startIndex endIndex).1 = true) :
    Updated receiver gcs startIndex endIndex ↔ startIndex = endIndex := by
  constructor
  · intro updated
    by_contra several
    exact not_updated_several accepted several updated
  · rintro rfl
    exact updated_single accepted

end Update

/-- The second one of three commands is written again. -/
theorem updated_iff_single_second : Updated smallReceiver smallGcs 1 1 :=
  (updated_iff_single (by decide +kernel)).mpr rfl

/-- The second and the third one of three commands are announced, and the receiver is done when it
has the second one. -/
theorem not_updated_second_third :
    (handleMissionWritePartialList smallGcs 1 2).1 = true ∧
      (handleMissionItem smallReceiver (during smallReceiver smallGcs 1 2 []) (returnItem 1)).1 =
        true ∧
      ¬ Updated smallReceiver smallGcs 1 2 := by
  have accepted : (handleMissionWritePartialList smallGcs 1 2).1 = true := by decide +kernel
  refine ⟨accepted, by decide +kernel, ?_⟩
  exact not_updated_several accepted (by decide)

end Urus.GcsMavlink.Partial
