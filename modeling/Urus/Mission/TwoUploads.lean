/-
This file is about uploads of several ground stations at the same time. Every channel has
its own state of an upload, and they all write to one mission. Nothing keeps one station from
announcing a mission while another one is sending its items, so two uploads that run at the
same time may end with a mission that has items of both, and with both stations told that
theirs was accepted.

A station that is told so has its own mission stored if no message of another station has
changed the stored mission since its last announcement.
-/

import Urus.Mission.Upload

namespace Urus.GcsMavlink

open ApMission

variable {board : Board} {Channel : Type}

theorem last_announcement (channel : Channel) (events : List (Channel × Event)) :
    (∀ count, (channel, Event.missionCount count) ∉ events) ∨
      ∃ early count late, events = early ++ (channel, .missionCount count) :: late ∧
        ∀ other, (channel, Event.missionCount other) ∉ late := by
  induction events using List.reverseRecOn with
  | nil => exact Or.inl fun _ => List.not_mem_nil
  | append_singleton before event inductionHypothesis =>
    by_cases announces : ∃ count, event = (channel, .missionCount count)
    · obtain ⟨count, rfl⟩ := announces
      exact Or.inr ⟨before, count, [], rfl, fun _ => List.not_mem_nil⟩
    · rw [not_exists] at announces
      have notLast : ∀ count, (channel, Event.missionCount count) ∉ [event] :=
        fun count member => announces count (List.mem_singleton.mp member).symm
      rcases inductionHypothesis with never | ⟨early, count, late, split, none⟩
      · exact Or.inl fun count member =>
          (List.mem_append.mp member).elim (never count) (notLast count)
      · refine Or.inr ⟨early, count, late ++ [event], by rw [split]; simp, fun other member => ?_⟩
        exact (List.mem_append.mp member).elim (none other) (notLast other)

variable [DecidableEq Channel]

/-! ### Channels with one mission -/

/-- The state of the upload on one channel. -/
structure Link where
  waypointReceiving : Bool
  waypointRequestI : UInt16
  waypointRequestLast : UInt16

/-- The mission and the state of every channel. -/
structure Links (board : Board) (Channel : Type) where
  mission : Mission board
  link : Channel → Link

/-- What the receiver of one channel works on. -/
def Links.gcs (links : Links board Channel) (channel : Channel) : Gcs board :=
  ⟨links.mission, (links.link channel).waypointReceiving, (links.link channel).waypointRequestI,
    (links.link channel).waypointRequestLast⟩

/-- The mission and the channels when the receiver of one channel has worked. -/
def Links.put (links : Links board Channel) (channel : Channel) (gcs : Gcs board) :
    Links board Channel where
  mission := gcs.mission
  link := Function.update links.link channel
    ⟨gcs.waypointReceiving, gcs.waypointRequestI, gcs.waypointRequestLast⟩

/-- A message on a channel, or its timeout. -/
def Links.step (receiver : Receiver) (links : Links board Channel) (event : Channel × Event) :
    Links board Channel :=
  links.put event.1 ((links.gcs event.1).step receiver event.2)

variable {receiver : Receiver} {count : UInt16} {contents : Nat → Command} {channel : Channel}
  {links : Links board Channel}

@[simp] theorem Links.gcs_put (gcs : Gcs board) : (links.put channel gcs).gcs channel = gcs := by
  rw [Links.gcs, Links.put]
  simp only [Function.update_self]

theorem Links.gcs_step_other {event : Channel × Event} (other : event.1 ≠ channel)
    (unchanged : (links.step receiver event).mission = links.mission) :
    (links.step receiver event).gcs channel = links.gcs channel := by
  have same : (links.step receiver event).link channel = links.link channel :=
    Function.update_of_ne (Ne.symm other) _ _
  rw [Links.gcs, Links.gcs, unchanged, same]

theorem Links.step_mission_refused {item : Item}
    (refused : item.seq ≠ (links.gcs channel).waypointRequestI) :
    (links.step receiver (channel, .missionItem item)).mission = links.mission := by
  obtain ⟨-, same⟩ | ⟨decoded, mission, takes, stores, outcome⟩ :=
    handleMissionItem_cases receiver (links.gcs channel) item
  · exact congrArg Gcs.mission same
  · exact absurd takes.requested refused

/-! ### Several uploads -/

/-- Since the last announcement on the channel, no message of another channel has changed the
stored mission. -/
def LeftAlone (receiver : Receiver) (channel : Channel) (start : Links board Channel)
    (events : List (Channel × Event)) : Prop :=
  ∀ early count late, events = early ++ (channel, .missionCount count) :: late →
    (∀ other, (channel, Event.missionCount other) ∉ late) →
    ∀ first event rest, late = first ++ event :: rest → event.1 ≠ channel →
      let links := runCalls (Links.step receiver) start
        (early ++ (channel, .missionCount count) :: first)
      (links.step receiver event).mission = links.mission

/-- The events of one channel are those of one session. -/
def SessionOf (receiver : Receiver) (count : UInt16) (contents : Nat → Command) (channel : Channel)
    (events : List (Channel × Event)) : Prop :=
  ∀ event ∈ events, event.1 = channel → Belongs receiver count contents event.2

/-- A channel keeps the state of its upload while it is left alone. -/
theorem Links.run_uploading (positive : 1 ≤ count.toNat)
    (accepted : count.toNat ≤ numCommandsMax board) (late : List (Channel × Event))
    (session : SessionOf receiver count contents channel late)
    (alone : ∀ first event rest, late = first ++ event :: rest → event.1 ≠ channel →
      let now := runCalls (Links.step receiver) links first
      (now.step receiver event).mission = now.mission)
    (state : Uploading receiver count contents (links.gcs channel)) :
    Uploading receiver count contents
      ((runCalls (Links.step receiver) links late).gcs channel) := by
  induction late generalizing links with
  | nil => exact state
  | cons event rest inductionHypothesis =>
    rw [runCalls_cons]
    refine inductionHypothesis (fun other member => session other (List.mem_cons_of_mem _ member))
      (fun first other later split => alone (event :: first) other later (by rw [split]; rfl)) ?_
    by_cases own : event.1 = channel
    · rw [Links.step, own, Links.gcs_put]
      exact Gcs.step_uploading positive accepted _ _ (session event List.mem_cons_self own) state
    · have unchanged : (links.step receiver event).mission = links.mission :=
        alone [] event rest rfl own
      rw [Links.gcs_step_other own unchanged]
      exact state

/-- Without an announcement a channel that does not wait for items does not begin to. -/
theorem Links.run_idle (events : List (Channel × Event))
    (never : ∀ count, (channel, Event.missionCount count) ∉ events)
    (idle : (links.link channel).waypointReceiving = false) :
    ((runCalls (Links.step receiver) links events).link channel).waypointReceiving = false := by
  refine runCalls_invariant
    (fun links : Links board Channel => (links.link channel).waypointReceiving = false)
    (fun links event member idle => ?_) idle
  by_cases own : event.1 = channel
  · have now : (links.step receiver event).link channel = _ :=
      congrFun (congrArg (Function.update links.link · _) own) channel |>.trans
        (Function.update_self _ _ _)
    rw [now]
    have waits : (links.gcs event.1).waypointReceiving = false := by rw [own]; exact idle
    obtain ⟨other, kind⟩ := event
    cases kind with
    | missionCount count => exact absurd (own ▸ member) (never count)
    | timeout => rfl
    | missionItem item =>
      obtain ⟨-, same⟩ | ⟨decoded, mission, takes, stores, outcome⟩ :=
        handleMissionItem_cases receiver (links.gcs other) item
      · exact (congrArg Gcs.waypointReceiving same).trans waits
      · exact absurd (waits.symm.trans takes.receiving) (by decide)
  · have same : (links.step receiver event).link channel = links.link channel :=
      Function.update_of_ne (Ne.symm own) _ _
    rw [same]
    exact idle

/-- When a station is told that its mission is complete, the stored mission is the one that it
announced, if no message of another station has changed the mission since its last announcement. -/
theorem upload_stores_mission_leftAlone (positive : 1 ≤ count.toNat)
    (accepted : count.toNat ≤ numCommandsMax board) (start : Links board Channel)
    (idle : (start.link channel).waypointReceiving = false) (before : List (Channel × Event))
    (item : Item)
    (session : SessionOf receiver count contents channel (before ++ [(channel, .missionItem item)]))
    (alone : LeftAlone receiver channel start before) :
    let gcs := (runCalls (Links.step receiver) start before).gcs channel
    (handleMissionItem receiver gcs item).1 = true →
      (handleMissionItem receiver gcs item).2.1 = .ack .accepted ∧
        Received receiver count contents
          (handleMissionItem receiver gcs item).2.2.mission.plan := by
  intro gcs complete
  have belongs : Belongs receiver count contents (.missionItem item) :=
    session (channel, .missionItem item) (by simp) rfl
  refine handleMissionItem_complete belongs ?_ complete
  rcases last_announcement channel before with never | ⟨early, announced, late, split, last⟩
  · intro receiving
    have waits : ((runCalls (Links.step receiver) start before).link channel).waypointReceiving =
        false :=
      Links.run_idle before never idle
    exact absurd (receiving.symm.trans waits) (by decide)
  · have sameCount : announced = count :=
      session (channel, .missionCount announced) (by rw [split]; simp) rfl
    have opened : Uploading receiver count contents
        ((runCalls (Links.step receiver) start (early ++ [(channel, .missionCount announced)])).gcs
          channel) := by
      rw [runCalls_append, runCalls_cons, runCalls_nil, Links.step, Links.gcs_put, sameCount]
      exact fun _ => handleMissionCount_receiving positive accepted
    have run : gcs = (runCalls (Links.step receiver) (runCalls (Links.step receiver) start
        (early ++ [(channel, .missionCount announced)])) late).gcs channel := by
      rw [← runCalls_append, List.append_assoc]
      exact congrArg (fun events => (runCalls (Links.step receiver) start events).gcs channel) split
    rw [run]
    refine Links.run_uploading positive accepted late (fun event member own => ?_) ?_ opened
    · exact session event (by rw [split]; simp [member]) own
    · intro first event rest inside other
      have unchanged := alone early announced late split last first event rest inside other
      rw [List.append_cons, runCalls_append] at unchanged
      exact unchanged

/-! ### Two uploads at the same time -/

/-- The waypoint of another station, at another place. -/
def otherItem (seq : UInt16) : Item :=
  .itemInt ⟨5, 0, 0, 0, 473977420, 85455940, 10, seq, MavCmd.navWaypoint.id,
    frameGlobalRelativeAlt, 0, 1⟩

/-- Two stations: `false` uploads the small mission, and `true` announces its own one and sends its
first items before the last item of the small mission arrives. -/
def mixedEvents : List (Bool × Event) :=
  [(false, .missionCount 3), (false, .missionItem (smallItem 0)),
    (false, .missionItem (smallItem 1)), (true, .missionCount 3),
    (true, .missionItem (otherItem 0)), (true, .missionItem (otherItem 1))]

def smallLinks : Links smallBoard Bool := ⟨smallGcs.mission, fun _ => ⟨false, 0, 0⟩⟩

def otherContents (index : Nat) : Command :=
  ⟨UInt16.ofNat index, .navWaypoint, 5,
    ⟨true, false, false, false, false, 1000, 473977420, 85455940⟩⟩

/-- Both stations send one mission each. The first one is told that its mission is complete, and the
stored mission is neither of the two. -/
theorem not_upload_stores_mission_mixed :
    let gcs := (runCalls (Links.step smallReceiver) smallLinks mixedEvents).gcs false
    let last := handleMissionItem smallReceiver gcs (smallItem 2)
    SessionOf smallReceiver 3 smallContents false
        (mixedEvents ++ [(false, .missionItem (smallItem 2))]) ∧
      SessionOf smallReceiver 3 otherContents true
        (mixedEvents ++ [(false, .missionItem (smallItem 2))]) ∧
      last.1 = true ∧ last.2.1 = .ack .accepted ∧
      ¬ Received smallReceiver 3 smallContents last.2.2.mission.plan ∧
      ¬ Received smallReceiver 3 otherContents last.2.2.mission.plan := by
  intro gcs last
  refine ⟨?_, ?_, by decide +kernel, by decide +kernel, fun received => ?_, fun received => ?_⟩
  · have announced : Belongs smallReceiver 3 smallContents (.missionCount 3) := rfl
    have first := @smallItem_belongs 0 (by decide)
    have second := @smallItem_belongs 1 (by decide)
    have third := @smallItem_belongs 2 (by decide)
    simp [SessionOf, mixedEvents, announced, first, second, third]
  · have announced : Belongs smallReceiver 3 otherContents (.missionCount 3) := rfl
    have first : Belongs smallReceiver 3 otherContents (.missionItem (otherItem 0)) :=
      fun cmd accepted => Except.ok.inj (accepted.symm.trans (by decide +kernel))
    have second : Belongs smallReceiver 3 otherContents (.missionItem (otherItem 1)) :=
      fun cmd accepted => Except.ok.inj (accepted.symm.trans (by decide +kernel))
    simp [SessionOf, mixedEvents, announced, first, second]
  · obtain ⟨read, isRead, -, -, -, bytes⟩ := received.commands 1 (by decide) (by decide)
      zeroedCommand
    have found : (readCmdFromStorage last.2.2.mission.plan 1 zeroedCommand).map
        (·.content.bytes.take 12) = some (smallLayout.bytes .location (smallContents 1).content) := by
      rw [isRead]
      exact congrArg some bytes
    exact absurd found (by decide +kernel)
  · obtain ⟨read, isRead, -, id, -⟩ := received.commands 2 (by decide) (by decide) zeroedCommand
    have found : (readCmdFromStorage last.2.2.mission.plan 2 zeroedCommand).map (·.id) =
        some navWaypoint := by
      rw [isRead]
      exact congrArg some id
    exact absurd found (by decide +kernel)

/-- The other station begins an upload before the announcement, and repeats an item after it. -/
def takeoverEvents : List (Bool × Event) :=
  [(true, .missionCount 3), (true, .missionItem (otherItem 0)), (false, .missionCount 3),
    (false, .missionItem (smallItem 0)), (true, .missionItem (otherItem 0)),
    (false, .missionItem (smallItem 1))]

theorem upload_stores_mission_leftAlone_takeover :
    let gcs := (runCalls (Links.step smallReceiver) smallLinks takeoverEvents).gcs false
    let last := handleMissionItem smallReceiver gcs (smallItem 2)
    last.1 = true ∧ Received smallReceiver 3 smallContents last.2.2.mission.plan := by
  intro gcs last
  have session : SessionOf smallReceiver 3 smallContents false
      (takeoverEvents ++ [(false, .missionItem (smallItem 2))]) := by
    have announced : Belongs smallReceiver 3 smallContents (.missionCount 3) := rfl
    have first := @smallItem_belongs 0 (by decide)
    have second := @smallItem_belongs 1 (by decide)
    have third := @smallItem_belongs 2 (by decide)
    simp [SessionOf, takeoverEvents, announced, first, second, third]
  have requested : ((runCalls (Links.step smallReceiver) smallLinks
      [(true, .missionCount 3), (true, .missionItem (otherItem 0)), (false, .missionCount 3),
        (false, .missionItem (smallItem 0))]).gcs true).waypointRequestI = 1 := by
    decide +kernel
  have alone : LeftAlone smallReceiver false smallLinks takeoverEvents := by
    intro early count late split last first event rest inside other
    rw [takeoverEvents] at split
    -- the announcement is the third event, and the item of the other station is the fifth one
    rcases early with _ | ⟨one, _ | ⟨two, _ | ⟨three, early⟩⟩⟩
    · simp at split
    · simp at split
    · simp only [List.cons_append, List.nil_append, List.cons.injEq] at split
      obtain ⟨rfl, rfl, announced, rfl⟩ := split
      obtain rfl : (3 : UInt16) = count := Event.missionCount.inj (Prod.mk.inj announced).2
      rcases first with _ | ⟨four, _ | ⟨five, _ | ⟨six, first⟩⟩⟩
      · simp only [List.nil_append, List.cons.injEq] at inside
        exact absurd (congrArg Prod.fst inside.1).symm other
      · simp only [List.cons_append, List.nil_append, List.cons.injEq] at inside
        obtain ⟨rfl, rfl, -⟩ := inside
        refine Links.step_mission_refused fun asked => ?_
        simp only [List.cons_append, List.nil_append] at asked
        have wrong : (0 : UInt16) = 1 := asked.trans requested
        exact absurd wrong (by decide)
      · simp only [List.cons_append, List.nil_append, List.cons.injEq] at inside
        exact absurd (congrArg Prod.fst inside.2.2.1).symm other
      · simp at inside
    · simp only [List.cons_append, List.cons.injEq] at split
      have announced : (false, Event.missionCount count) ∈
          [(false, .missionItem (smallItem 0)), (true, .missionItem (otherItem 0)),
            (false, .missionItem (smallItem 1))] := by
        rw [split.2.2.2]
        simp
      simp at announced
  have complete : last.1 = true := by
    decide +kernel
  have fits : (3 : UInt16).toNat ≤ numCommandsMax smallBoard := by
    decide +kernel
  have stored := upload_stores_mission_leftAlone (by decide) fits smallLinks rfl
    takeoverEvents (smallItem 2) session alone complete
  exact ⟨complete, stored.2⟩

end Urus.GcsMavlink
