/-
This file compares the routing of messages with the theory of routing that its source
states. Messages are sent on as the theory says. They are processed locally as it says with
two exceptions. A message to all systems that names a component of another node is not
processed when it was sent on. A message to a component of the own system that has been
heard only on the channel on which the message came in is processed.
-/

import Urus.Routing.Table

namespace Urus.MavlinkRouting

/-! ### The theory -/

/-- The component that the message names. Zero is read like an absent field. -/
def Message.component (msg : Message) : Option UInt8 := msg.targetComponent.filter (· ≠ 0)

/-- Conditions 1a and 1b: the message is for all systems. -/
def Message.Broadcast (msg : Message) : Prop :=
  msg.targetSystem = none ∨ msg.targetSystem = some 0

/-- Conditions 1a to 1e: the message should be processed locally. -/
def ShouldProcess (own : Node) (history : List Arrival) (msg : Message) : Prop :=
  msg.Broadcast ∨
    (msg.targetSystem = some own.sysid ∧ msg.component = none) ∨
    (msg.targetSystem = some own.sysid ∧ msg.component = some own.compid) ∨
    (msg.targetSystem = some own.sysid ∧ ∃ compid, msg.component = some compid ∧
      ∀ channel, ¬ Seen own history ⟨own.sysid, compid⟩ channel)

/-- A message from the target of the message has been seen on the channel: from its system, and from
its component when the system is our own and a component is given. -/
def TargetSeen (own : Node) (history : List Arrival) (msg : Message) (channel : Channel) : Prop :=
  ∃ node, Seen own history node channel ∧ msg.targetSystem = some node.sysid ∧
    (node.sysid = own.sysid → ∀ compid, msg.component = some compid → node.compid = compid)

/-- The message is sent on as the theory says: not back, not twice, and on another channel with a
route if it is for all systems or its target has been seen there. -/
structure Forwards (own : Node) (history : List Arrival) (state : State) (arrival : Arrival)
    (outcome : Outcome) : Prop where
  notBack : arrival.channel ∉ outcome.sent
  once : outcome.sent.Nodup
  targets : ∀ channel, channel ≠ arrival.channel → state.Carries channel →
    (channel ∈ outcome.sent ↔
      arrival.msg.Broadcast ∨ TargetSeen own history arrival.msg channel)

/-- The outcome of a message in a state is what the theory says. The history ends with the message
itself. -/
def FollowsTheory (own : Node) (history : List Arrival) (state : State) (arrival : Arrival)
    (outcome : Outcome) : Prop :=
  (outcome.processLocally = true ↔ ShouldProcess own history arrival.msg) ∧
    Forwards own history state arrival outcome

/-- The message names a component that is not the vehicle itself. -/
def Message.NamesOther (own : Node) (msg : Message) (compid : UInt8) : Prop :=
  msg.component = some compid ∧ compid ≠ own.compid

/-- Neither of the two exceptions: no message for all systems that names another component while
another channel carries a route, and none for a component of the own system that has been seen on
the incoming channel and on no other. -/
def NoException (own : Node) (history : List Arrival) (state : State) (arrival : Arrival) : Prop :=
  (∀ compid, arrival.msg.Broadcast → arrival.msg.NamesOther own compid →
    ∀ channel, channel ≠ arrival.channel → ¬ state.Carries channel) ∧
  ∀ compid, ¬ arrival.msg.Broadcast → arrival.msg.targetSystem = some own.sysid →
    arrival.msg.NamesOther own compid →
    Seen own history ⟨own.sysid, compid⟩ arrival.channel →
    ∃ channel, channel ≠ arrival.channel ∧ Seen own history ⟨own.sysid, compid⟩ channel

variable {own : Node} {history : List Arrival} {arrival : Arrival} {routes : List Route}
  {msg : Message}

/-! ### The targets -/

theorem targetValue_eq (field : Option UInt8) (value : UInt8) :
    targetValue field = value.toNat ↔ field = some value := by
  cases field with
  | none =>
    refine ⟨fun impossible => ?_, fun impossible => nomatch impossible⟩
    rw [targetValue] at impossible
    omega
  | some target => rw [targetValue, Int.natCast_inj, UInt8.toNat_inj, Option.some_inj]

theorem targetValue_broadcast (field : Option UInt8) :
    (targetValue field == 0 || targetValue field == -1) = true ↔ field.filter (· ≠ 0) = none := by
  cases field with
  | none => exact ⟨fun _ => rfl, fun _ => rfl⟩
  | some target =>
    have zero : targetValue (some target) = 0 ↔ target = 0 :=
      (targetValue_eq (some target) 0).trans Option.some_inj
    have present : targetValue (some target) ≠ -1 := by
      rw [targetValue]
      omega
    rw [Bool.or_eq_true, beq_iff_eq, beq_iff_eq, or_iff_left present, zero, Option.filter_eq_none_iff]
    simp

theorem Message.broadcast_iff (msg : Message) :
    msg.Broadcast ↔ msg.targetSystem.filter (· ≠ 0) = none := by
  rw [Message.Broadcast]
  cases msg.targetSystem with
  | none => simp
  | some target => simp

/-- The tests at the top of the routing, in the words of the theory. -/
theorem targetsOf_iff (own : Node) (msg : Message) :
    ((targetsOf own msg).broadcastSystem = true ↔ msg.Broadcast) ∧
    ((targetsOf own msg).broadcastComponent = true ↔ msg.component = none) ∧
    ((targetsOf own msg).matchSystem = true ↔
      msg.Broadcast ∨ msg.targetSystem = some own.sysid) ∧
    ((targetsOf own msg).matchComponent = true ↔
      (msg.Broadcast ∨ msg.targetSystem = some own.sysid) ∧
        (msg.component = none ∨ msg.targetComponent = some own.compid)) := by
  have system : (targetsOf own msg).broadcastSystem = true ↔ msg.Broadcast :=
    (targetValue_broadcast _).trans msg.broadcast_iff.symm
  have component : (targetsOf own msg).broadcastComponent = true ↔ msg.component = none :=
    targetValue_broadcast _
  have system' : (targetsOf own msg).matchSystem = true ↔
      msg.Broadcast ∨ msg.targetSystem = some own.sysid := by
    change ((targetsOf own msg).broadcastSystem ||
      targetValue msg.targetSystem == own.sysid.toNat) = true ↔ _
    rw [Bool.or_eq_true, system, beq_iff_eq, targetValue_eq]
  refine ⟨system, component, system', ?_⟩
  change ((targetsOf own msg).matchSystem && ((targetsOf own msg).broadcastComponent ||
    targetValue msg.targetComponent == own.compid.toNat)) = true ↔ _
  rw [Bool.and_eq_true, Bool.or_eq_true, system', component, beq_iff_eq, targetValue_eq]

variable {compid : UInt8} {msg : Message} {channel : Channel}

theorem Message.component_eq (given : msg.component = some compid) :
    msg.targetComponent = some compid := (Option.eq_some_of_filter_eq_some given)

theorem matchesRoute_iff (own : Node) (msg : Message) (route : Route) :
    (targetsOf own msg).matchesRoute route = true ↔ msg.Broadcast ∨
      (msg.targetSystem = some route.sysid ∧ (route.sysid = own.sysid →
        ∀ compid, msg.component = some compid → route.compid = compid)) := by
  obtain ⟨system, component, matchSystem, -⟩ := targetsOf_iff own msg
  have target : ((targetsOf own msg).targetSystem == route.sysid.toNat) = true ↔
      msg.targetSystem = some route.sysid := by
    rw [beq_iff_eq]
    exact targetValue_eq _ _
  have part : ((targetsOf own msg).targetComponent == route.compid.toNat) = true ↔
      msg.targetComponent = some route.compid := by
    rw [beq_iff_eq]
    exact targetValue_eq _ _
  rw [Targets.matchesRoute, Bool.or_eq_true, Bool.and_eq_true, Bool.or_eq_true, Bool.or_eq_true,
    system, component, target, part, Bool.not_eq_true', ← Bool.not_eq_true, matchSystem]
  by_cases broadcast : msg.Broadcast
  · exact ⟨fun _ => Or.inl broadcast, fun _ => Or.inl broadcast⟩
  · refine or_congr_right (and_congr_right fun toSystem => ?_)
    rw [toSystem, or_iff_right broadcast, Option.some_inj]
    constructor
    · rintro ((absent | same) | foreign) ours compid given
      · exact absurd (absent.symm.trans given) (Option.some_ne_none _).symm
      · exact Option.some.inj (same.symm.trans (Message.component_eq given))
      · exact absurd ours foreign
    · intro wanted
      by_cases ours : route.sysid = own.sysid
      · cases given : msg.component with
        | none => exact Or.inl (Or.inl rfl)
        | some compid =>
          refine Or.inl (Or.inr ?_)
          rw [wanted ours compid given]
          exact Message.component_eq given
      · exact Or.inr ours

/-! ### One message behind a history -/

theorem learnRoute_other {key : Node × Channel} (other : key.2 ≠ channel) :
    key ∈ (learnRoute own routes channel msg).map Route.key ↔ key ∈ routes.map Route.key := by
  rw [learnRoute]
  split
  · exact Iff.rfl
  · split
    · rename_i changed found
      rw [(findRoute_some found).1]
    · split
      · rw [List.map_append, List.mem_append]
        refine or_iff_left fun last => other ?_
        rw [List.mem_singleton.mp last]
        rfl
      · exact Iff.rfl

theorem Learned.other_iff (learned : Learned own history routes) {node : Node}
    (other : channel ≠ arrival.channel) :
    (node, channel) ∈ (learnRoute own routes arrival.channel arrival.msg).map Route.key ↔
      Seen own (history ++ [arrival]) node channel ∧ node.sysid ≠ 0 := by
  rw [learnRoute_other other, learned.heard, Seen, mem_sources_snoc]
  have notLast : (node, channel) ≠ arrival.source := fun same => other (congrArg Prod.snd same)
  rw [or_iff_left notLast]
  exact ⟨fun ⟨heard, named, another⟩ => ⟨⟨another, heard⟩, named⟩,
    fun ⟨⟨another, heard⟩, named⟩ => ⟨heard, named, another⟩⟩

theorem carries_iff (state : State) (channel : Channel) :
    state.Carries channel ↔ ∃ node, (node, channel) ∈ state.routes.map Route.key := by
  constructor
  · rintro ⟨route, member, rfl⟩
    exact ⟨_, List.mem_map_of_mem member⟩
  · rintro ⟨node, member⟩
    obtain ⟨route, old, same⟩ := List.mem_map.mp member
    exact ⟨route, old, congrArg Prod.snd same⟩

/-- The loop sends a message on another channel if the channel has a route and the message is for
all systems, or its target has been seen there. -/
theorem Learned.matches_iff (learned : Learned own history routes) (noRouteMask : Channel → Bool)
    (other : channel ≠ arrival.channel) :
    (∃ route ∈ learnRoute own routes arrival.channel arrival.msg,
        (targetsOf own arrival.msg).matchesRoute route = true ∧ route.channel = channel) ↔
      (State.mk routes noRouteMask).Carries channel ∧
        (arrival.msg.Broadcast ∨ TargetSeen own (history ++ [arrival]) arrival.msg channel) := by
  rw [carries_iff]
  constructor
  · rintro ⟨route, member, matched, rfl⟩
    have key : (⟨route.sysid, route.compid⟩, route.channel) ∈
        (learnRoute own routes arrival.channel arrival.msg).map Route.key :=
      List.mem_map_of_mem member
    refine ⟨⟨_, (learnRoute_other other).mp key⟩, ?_⟩
    refine ((matchesRoute_iff own arrival.msg route).mp matched).imp_right fun target => ?_
    exact ⟨_, ((learned.other_iff other).mp key).1, target⟩
  · rintro ⟨⟨node, carried⟩, wanted⟩
    by_cases broadcast : arrival.msg.Broadcast
    · obtain ⟨route, member, same⟩ := List.mem_map.mp ((learnRoute_other other).mpr carried)
      exact ⟨route, member, (matchesRoute_iff own arrival.msg route).mpr (Or.inl broadcast),
        congrArg Prod.snd same⟩
    · obtain ⟨target, seen, system, component⟩ := wanted.resolve_left broadcast
      have named : target.sysid ≠ 0 := fun zero => broadcast (Or.inr (by rw [system, zero]))
      obtain ⟨route, member, same⟩ :=
        List.mem_map.mp ((learned.other_iff other).mpr ⟨seen, named⟩)
      rw [Route.key, Prod.mk.injEq] at same
      obtain ⟨rfl, rfl⟩ := same
      exact ⟨route, member,
        (matchesRoute_iff own arrival.msg route).mpr (Or.inr ⟨system, component⟩), rfl⟩

theorem Learned.carries_target (learned : Learned own history routes) (noRouteMask : Channel → Bool)
    (other : channel ≠ arrival.channel) (addressed : ¬ arrival.msg.Broadcast)
    (target : TargetSeen own (history ++ [arrival]) arrival.msg channel) :
    (State.mk routes noRouteMask).Carries channel := by
  obtain ⟨node, seen, system, -⟩ := target
  have named : node.sysid ≠ 0 := fun zero => addressed (Or.inr (by rw [system, zero]))
  exact (carries_iff _ _).mpr
    ⟨node, (learnRoute_other other).mp ((learned.other_iff other).mpr ⟨seen, named⟩)⟩

/-- The message is for the vehicle alone. -/
def Message.ForUs (own : Node) (msg : Message) : Prop :=
  ¬ msg.Broadcast ∧ msg.targetSystem = some own.sysid ∧ msg.component = some own.compid

/-- The outcome of a message that is handled by the loop. -/
structure Handled (own : Node) (history : List Arrival) (state : State) (arrival : Arrival)
    (outcome : Outcome) : Prop where
  sent : ∀ channel, channel ∈ outcome.sent ↔ channel ≠ arrival.channel ∧ state.Carries channel ∧
    (arrival.msg.Broadcast ∨ TargetSeen own history arrival.msg channel)
  once : outcome.sent.Nodup
  decided : outcome.processLocally = true ↔
    (arrival.msg.Broadcast ∨ arrival.msg.targetSystem = some own.sysid) ∧
      (arrival.msg.component = none ∨ arrival.msg.targetComponent = some own.compid ∨
        outcome.sent = [])

/-- Nothing is sent of a message for the vehicle alone, whose target is no other node. -/
theorem Message.ForUs.unseen (forUs : msg.ForUs own) (channel : Channel) :
    ¬ TargetSeen own history msg channel := by
  rintro ⟨node, seen, system, component⟩
  have ours : node.sysid = own.sysid := Option.some.inj (system.symm.trans forUs.2.1)
  have part := component ours own.compid forUs.2.2
  refine seen.1 ?_
  obtain ⟨sysid, compid⟩ := node
  obtain ⟨ownSysid, ownCompid⟩ := own
  dsimp only at ours part
  rw [ours, part]

theorem Learned.handled (learned : Learned own history routes) (noRouteMask : Channel → Bool)
    (another : arrival.msg.sender ≠ own) (plain : ∃ id, arrival.msg.msgid = .other id)
    (space : ∀ channel, arrival.links.HasSpace arrival.msg channel) :
    Handled own (history ++ [arrival]) ⟨routes, noRouteMask⟩ arrival
      (checkAndForward own arrival.links ⟨routes, noRouteMask⟩ arrival.channel arrival.msg) := by
  obtain ⟨id, kind⟩ := plain
  obtain ⟨system, component, matchSystem, matchComponent⟩ := targetsOf_iff own arrival.msg
  rw [checkAndForward, if_neg another]
  dsimp only
  rw [kind, if_neg (by simp), if_neg (by simp), if_neg (by simp)]
  by_cases early : ((targetsOf own arrival.msg).matchSystem &&
      (targetsOf own arrival.msg).matchComponent && !(targetsOf own arrival.msg).broadcastSystem &&
      !(targetsOf own arrival.msg).broadcastComponent) = true
  · rw [if_pos early]
    rw [Bool.and_eq_true, Bool.and_eq_true, Bool.and_eq_true, Bool.not_eq_true', Bool.not_eq_true',
      ← Bool.not_eq_true, ← Bool.not_eq_true, matchSystem, matchComponent, system, component] at early
    obtain ⟨⟨⟨toUs, -, part⟩, addressed⟩, given⟩ := early
    have ours := toUs.resolve_left addressed
    have compid : arrival.msg.component = some own.compid := by
      obtain ⟨value, named⟩ := Option.ne_none_iff_exists'.mp given
      rw [named, ← Message.component_eq named]
      exact part.resolve_left given
    refine ⟨fun channel => ?_, List.nodup_nil, ?_⟩
    · refine ⟨fun impossible => (by cases impossible), fun sent => ?_⟩
      obtain ⟨_, _, wanted⟩ := sent
      exact absurd (wanted.resolve_left addressed)
        (Message.ForUs.unseen ⟨addressed, ours, compid⟩ channel)
    · exact ⟨fun _ => ⟨Or.inr ours, Or.inr (Or.inr rfl)⟩, fun _ => rfl⟩
  · rw [if_neg early]
    have looped := looped_routes space arrival.channel (targetsOf own arrival.msg)
      (learnRoute own routes arrival.channel arrival.msg)
    generalize (learnRoute own routes arrival.channel arrival.msg).foldl (forwardOn arrival.links
      arrival.channel arrival.msg (targetsOf own arrival.msg)) ⟨fun _ => false, false, []⟩ =
      forwarding at looped ⊢
    have sent : ∀ channel, channel ∈ forwarding.sent ↔ _ := fun channel =>
      (looped.sent channel).trans ((looped.sentToChan channel).trans
        (and_congr_right fun other => learned.matches_iff noRouteMask other))
    have unsent : ¬ forwarding.forwarded = true ↔ forwarding.sent = [] := by
      rw [looped.forwarded, not_exists, List.eq_nil_iff_forall_not_mem]
      exact forall_congr' fun channel => not_congr (looped.sent channel).symm
    refine ⟨sent, looped.once, ?_⟩
    dsimp only
    rw [Bool.or_eq_true, Bool.and_eq_true, Bool.and_eq_true, matchSystem, matchComponent,
      Bool.not_eq_true', ← Bool.not_eq_true, unsent, and_self_left, and_comm (a := _ = []),
      ← and_or_left, or_assoc]

/-! ### When the theory is followed -/

theorem targetSeen_own (system : msg.targetSystem = some own.sysid)
    (component : msg.component = some compid) :
    TargetSeen own history msg channel ↔ Seen own history ⟨own.sysid, compid⟩ channel := by
  constructor
  · rintro ⟨⟨sysid, part⟩, seen, target, named⟩
    have ours : sysid = own.sysid := Option.some.inj (target.symm.trans system)
    have same : part = compid := named ours compid component
    rwa [ours, same] at seen
  · intro seen
    refine ⟨_, seen, system, fun _ other given => ?_⟩
    exact Option.some.inj (component.symm.trans given)

variable {state : State} {outcome : Outcome}

section

variable (handled : Handled own history state arrival outcome)

include handled

/-- Messages are sent on as the theory says. -/
theorem Handled.forwards :
    Forwards own history state arrival outcome where
  notBack := fun back => ((handled.sent _).mp back).1 rfl
  once := handled.once
  targets := fun channel other carries =>
    ⟨fun sent => ((handled.sent channel).mp sent).2.2,
      fun wanted => (handled.sent channel).mpr ⟨other, carries, wanted⟩⟩

/-- A message to all systems is processed unless it names another component and was sent on. -/
theorem Handled.broadcast (broadcast : arrival.msg.Broadcast) :
    outcome.processLocally = true ↔ ∀ compid, arrival.msg.NamesOther own compid →
      ∀ channel, channel ≠ arrival.channel → ¬ state.Carries channel := by
  rw [handled.decided, and_iff_right (Or.inl broadcast)]
  constructor
  · rintro processed compid ⟨given, foreign⟩ channel other carries
    have member : channel ∈ outcome.sent :=
      (handled.sent channel).mpr ⟨other, carries, Or.inl broadcast⟩
    rcases processed with absent | same | silent
    · exact nomatch absent.symm.trans given
    · exact foreign (Option.some.inj ((Message.component_eq given).symm.trans same))
    · rw [silent] at member
      exact nomatch member
  · intro quiet
    cases given : arrival.msg.component with
    | none => exact Or.inl rfl
    | some compid =>
      by_cases same : compid = own.compid
      · exact Or.inr (Or.inl (by rw [Message.component_eq given, same]))
      · refine Or.inr (Or.inr (List.eq_nil_iff_forall_not_mem.mpr fun channel sent => ?_))
        obtain ⟨other, carries, -⟩ := (handled.sent channel).mp sent
        exact quiet compid ⟨given, same⟩ channel other carries

/-- A message to another component of the own system is processed unless that component was seen on
another channel. -/
theorem Handled.component
    (routed : ∀ channel, channel ≠ arrival.channel → ¬ arrival.msg.Broadcast → TargetSeen own history arrival.msg channel → state.Carries channel)
    (addressed : ¬ arrival.msg.Broadcast) (system : arrival.msg.targetSystem = some own.sysid)
    (names : arrival.msg.NamesOther own compid) :
    outcome.processLocally = true ↔
      ∀ channel, channel ≠ arrival.channel → ¬ Seen own history ⟨own.sysid, compid⟩ channel := by
  have absent : arrival.msg.component ≠ none := fun none => nomatch none.symm.trans names.1
  have foreign : arrival.msg.targetComponent ≠ some own.compid := fun same =>
    names.2 (Option.some.inj ((Message.component_eq names.1).symm.trans same))
  rw [handled.decided, and_iff_right (Or.inr system), or_iff_right absent, or_iff_right foreign,
    List.eq_nil_iff_forall_not_mem]
  refine forall_congr' fun channel => ?_
  rw [handled.sent, or_iff_right addressed, not_and]
  refine imp_congr_right fun other => ?_
  rw [targetSeen_own system names.1, not_and]
  refine ⟨fun unsent seen => unsent ?_ seen, fun unseen _ => unseen⟩
  exact routed channel other addressed ((targetSeen_own system names.1).mpr seen)

end

theorem shouldProcess_other (addressed : ¬ msg.Broadcast)
    (system : msg.targetSystem = some own.sysid) (names : msg.NamesOther own compid) :
    ShouldProcess own history msg ↔
      ∀ channel, ¬ Seen own history ⟨own.sysid, compid⟩ channel := by
  rw [ShouldProcess, or_iff_right addressed, names.1]
  constructor
  · rintro (⟨-, none⟩ | ⟨-, same⟩ | ⟨-, other, given, unseen⟩)
    · exact nomatch none
    · exact absurd (Option.some.inj same) names.2
    · rwa [Option.some.inj given]
  · exact fun unseen => Or.inr (Or.inr ⟨system, compid, rfl, unseen⟩)

theorem Handled.ours (handled : Handled own history state arrival outcome)
    (system : arrival.msg.targetSystem = some own.sysid)
    (unnamed : ∀ compid, ¬ arrival.msg.NamesOther own compid) :
    outcome.processLocally = true ∧ ShouldProcess own history arrival.msg := by
  rw [handled.decided, and_iff_right (Or.inr system), ShouldProcess]
  cases given : arrival.msg.component with
  | none => exact ⟨Or.inl rfl, Or.inr (Or.inl ⟨system, rfl⟩)⟩
  | some compid =>
    have same : compid = own.compid := by
      by_contra foreign
      exact unnamed compid ⟨given, foreign⟩
    rw [same] at given ⊢
    exact ⟨Or.inr (Or.inl (Message.component_eq given)), Or.inr (Or.inr (Or.inl ⟨system, rfl⟩))⟩

theorem Handled.follows_iff (handled : Handled own history state arrival outcome)
    (routed : ∀ channel, channel ≠ arrival.channel → ¬ arrival.msg.Broadcast →
      TargetSeen own history arrival.msg channel → state.Carries channel) :
    FollowsTheory own history state arrival outcome ↔ NoException own history state arrival := by
  rw [FollowsTheory, and_iff_left handled.forwards]
  by_cases broadcast : arrival.msg.Broadcast
  · have wanted : ShouldProcess own history arrival.msg := Or.inl broadcast
    rw [iff_true_right wanted, handled.broadcast broadcast]
    exact ⟨fun quiet => ⟨fun compid _ => quiet compid, fun _ addressed => absurd broadcast addressed⟩,
      fun quiet compid => quiet.1 compid broadcast⟩
  · by_cases system : arrival.msg.targetSystem = some own.sysid
    · by_cases named : ∃ compid, arrival.msg.NamesOther own compid
      · obtain ⟨compid, names⟩ := named
        rw [shouldProcess_other broadcast system names,
          handled.component routed broadcast system names]
        constructor
        · refine fun same => ⟨fun _ toAll => absurd toAll broadcast, fun other _ _ names' seen => ?_⟩
          cases Option.some.inj (names.1.symm.trans names'.1)
          by_contra alone
          rw [not_exists] at alone
          exact same.mp (fun channel other seen => alone channel ⟨other, seen⟩) _ seen
        · refine fun quiet => ⟨fun unseen channel seen => ?_, fun unseen channel _ => unseen channel⟩
          by_cases back : channel = arrival.channel
          · rw [back] at seen
            obtain ⟨other, away, there⟩ := quiet.2 compid broadcast system names seen
            exact unseen other away there
          · exact unseen channel back seen
      · rw [not_exists] at named
        have both := handled.ours system named
        exact ⟨fun _ => ⟨fun _ toAll => absurd toAll broadcast,
          fun compid _ _ names => absurd names (named compid)⟩, fun _ => iff_of_true both.1 both.2⟩
    · have refused : ¬ outcome.processLocally = true := fun processed =>
        (handled.decided.mp processed).1.elim broadcast system
      have foreign : ¬ ShouldProcess own history arrival.msg := by
        rintro (toAll | ⟨ours, -⟩ | ⟨ours, -⟩ | ⟨ours, -⟩)
        · exact broadcast toAll
        all_goals exact system ours
      exact ⟨fun _ => ⟨fun _ toAll => absurd toAll broadcast, fun _ _ ours => absurd ours system⟩,
        fun _ => iff_of_false refused foreign⟩

/-- Behind every history with no more sources than the table has room for, a message of another node
that has no handling of its own is processed and sent on as the theory says if and only if neither
exception applies to it. -/
theorem followsTheory_iff (own : Node) (noRouteMask : Channel → Bool) (history : List Arrival)
    (arrival : Arrival) (few : (sources history).card ≤ maxRoutes)
    (another : arrival.msg.sender ≠ own) (plain : ∃ id, arrival.msg.msgid = .other id)
    (space : ∀ channel, arrival.links.HasSpace arrival.msg channel) :
    FollowsTheory own (history ++ [arrival]) (afterHistory own noRouteMask history) arrival
        (checkAndForward own arrival.links (afterHistory own noRouteMask history) arrival.channel
          arrival.msg) ↔
      NoException own (history ++ [arrival]) (afterHistory own noRouteMask history) arrival := by
  have learned := learned_afterHistory own noRouteMask history few
  exact (learned.handled (afterHistory own noRouteMask history).noRouteMask another plain
    space).follows_iff fun channel other addressed target =>
      learned.carries_target (afterHistory own noRouteMask history).noRouteMask other addressed target

/-! ### Three messages -/

/-- Links that are all active and have space for every message. -/
def openLinks : Links := ⟨fun _ => 1000, fun _ => 25, fun _ => true⟩

/-- A message with these targets from a node on a channel. -/
def arrivalOf (sender : Node) (channel : Channel) (targetSystem targetComponent : Option UInt8) :
    Arrival :=
  ⟨openLinks, channel, ⟨sender, .other 23, 23, targetSystem, targetComponent, 0⟩⟩

/-- The vehicle, a component next to it, and a ground station. -/
def vehicle : Node := ⟨1, 1⟩

def camera : Node := ⟨1, 100⟩

def station : Node := ⟨255, 190⟩

theorem arrivalOf_space (sender : Node) (inChannel : Channel) (system component : Option UInt8)
    (channel : Channel) : (arrivalOf sender inChannel system component).links.HasSpace
      (arrivalOf sender inChannel system component).msg channel :=
  (by decide : (1000 : Nat) ≥ 23 + 25)

theorem followsTheory_iff_camera :
    FollowsTheory vehicle
      ([arrivalOf camera 1 none none] ++ [arrivalOf station 0 (some 1) (some 100)])
      (afterHistory vehicle (fun _ => false) [arrivalOf camera 1 none none])
      (arrivalOf station 0 (some 1) (some 100))
      (checkAndForward vehicle openLinks
        (afterHistory vehicle (fun _ => false) [arrivalOf camera 1 none none]) 0
        (arrivalOf station 0 (some 1) (some 100)).msg) := by
  refine (followsTheory_iff vehicle (fun _ => false) [arrivalOf camera 1 none none]
    (arrivalOf station 0 (some 1) (some 100)) (by decide) (by decide) ⟨23, rfl⟩
    (arrivalOf_space _ _ _ _)).mpr ⟨?_, ?_⟩
  · intro _ broadcast
    exact absurd broadcast (by rintro (none | zero) <;> contradiction)
  · intro compid _ _ names _
    refine ⟨1, by decide, ?_⟩
    rw [← Option.some.inj names.1]
    exact ⟨by decide, by decide⟩

/-- A message to all systems and to another component, when a second channel carries a route, is sent
on and not processed. -/
theorem not_followsTheory_broadcast :
    ¬ FollowsTheory vehicle
      ([arrivalOf camera 1 none none] ++ [arrivalOf station 0 (some 0) (some 2)])
      (afterHistory vehicle (fun _ => false) [arrivalOf camera 1 none none])
      (arrivalOf station 0 (some 0) (some 2))
      (checkAndForward vehicle openLinks
        (afterHistory vehicle (fun _ => false) [arrivalOf camera 1 none none]) 0
        (arrivalOf station 0 (some 0) (some 2)).msg) := by
  rintro ⟨decision, -⟩
  have processed := decision.mpr (Or.inl (Or.inr rfl))
  exact absurd processed (by decide)

/-- A message to a component of the own system that has been seen only on the channel on which the
message comes in is processed. -/
theorem not_followsTheory_component :
    ¬ FollowsTheory vehicle
      ([arrivalOf camera 0 none none] ++ [arrivalOf station 0 (some 1) (some 100)])
      (afterHistory vehicle (fun _ => false) [arrivalOf camera 0 none none])
      (arrivalOf station 0 (some 1) (some 100))
      (checkAndForward vehicle openLinks
        (afterHistory vehicle (fun _ => false) [arrivalOf camera 0 none none]) 0
        (arrivalOf station 0 (some 1) (some 100)).msg) := by
  rintro ⟨decision, -⟩
  have wanted := decision.mp (by decide)
  have addressed : ¬ (arrivalOf station 0 (some 1) (some 100)).msg.Broadcast := by
    rintro (none | zero) <;> contradiction
  exact (shouldProcess_other addressed rfl ⟨rfl, by decide⟩).mp wanted 0 ⟨by decide, by decide⟩

end Urus.MavlinkRouting
