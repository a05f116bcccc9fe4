/-
This file proves what the table of routes knows and what the loop over it sends. The table
has exactly the senders that were heard, on the channels on which they were heard, as long
as there are not more of them than it can hold. The loop sends a message once on each of the
other channels that have a matching route.
-/

import Urus.Routing.Model

namespace Urus.MavlinkRouting

/-! ### What has been heard -/

/-- A message that comes in on a channel, and the state of the links then. -/
structure Arrival where
  links : Links
  channel : Channel
  msg : Message

/-- The sender of a message and the channel on which it was heard. -/
def Arrival.source (arrival : Arrival) : Node × Channel := (arrival.msg.sender, arrival.channel)

/-- The routing object behind a message. -/
def State.receive (own : Node) (state : State) (arrival : Arrival) : State :=
  (checkAndForward own arrival.links state arrival.channel arrival.msg).state

/-- The routing object behind a history of messages. -/
def afterHistory (own : Node) (noRouteMask : Channel → Bool) (history : List Arrival) : State :=
  history.foldl (State.receive own) ⟨[], noRouteMask⟩

/-- The senders of the history and the channels on which they were heard. -/
def sources (history : List Arrival) : Finset (Node × Channel) :=
  (history.map Arrival.source).toFinset

/-- A message from the node, which is another one, has been seen on the channel. -/
def Seen (own : Node) (history : List Arrival) (node : Node) (channel : Channel) : Prop :=
  node ≠ own ∧ (node, channel) ∈ sources history

/-- The channel carries a learned route. -/
def State.Carries (state : State) (channel : Channel) : Prop :=
  ∃ route ∈ state.routes, route.channel = channel

/-! ### The table of routes -/

/-- The node and the channel of a route. -/
def Route.key (route : Route) : Node × Channel := (⟨route.sysid, route.compid⟩, route.channel)

theorem findRoute_some {channel : Channel} {msg : Message} {routes changed : List Route}
    (found : findRoute channel msg routes = some changed) :
    changed.map Route.key = routes.map Route.key ∧
      (msg.sender, channel) ∈ routes.map Route.key := by
  induction routes generalizing changed with
  | nil => exact nomatch found
  | cons route rest inductionHypothesis =>
    rw [findRoute] at found
    split at found
    · rename_i same
      have key : route.key = (msg.sender, channel) := by
        rw [Route.key, same.1, same.2.1, same.2.2]
      refine ⟨?_, by rw [List.map_cons, key]; exact List.mem_cons_self⟩
      split at found
      · rw [← Option.some.inj found]
        rfl
      · rw [← Option.some.inj found]
    · obtain ⟨later, foundLater, rfl⟩ := Option.map_eq_some_iff.mp found
      obtain ⟨keys, member⟩ := inductionHypothesis foundLater
      rw [List.map_cons, List.map_cons, keys]
      exact ⟨rfl, List.mem_cons_of_mem _ member⟩

theorem findRoute_none {channel : Channel} {msg : Message} {routes : List Route}
    (missing : findRoute channel msg routes = none) :
    (msg.sender, channel) ∉ routes.map Route.key := by
  induction routes with
  | nil => exact List.not_mem_nil
  | cons route rest inductionHypothesis =>
    rw [findRoute] at missing
    split at missing
    · split at missing <;> exact nomatch missing
    · rename_i different
      rw [List.map_cons, List.mem_cons, not_or]
      refine ⟨fun same => different ?_, inductionHypothesis (Option.map_eq_none_iff.mp missing)⟩
      rw [Route.key, Prod.mk.injEq] at same
      rw [same.1, same.2]
      exact ⟨rfl, rfl, rfl⟩

/-- The table has one route for each sender and channel that were heard, and no others. -/
structure Learned (own : Node) (history : List Arrival) (routes : List Route) : Prop where
  once : (routes.map Route.key).Nodup
  heard : ∀ key, key ∈ routes.map Route.key ↔
    key ∈ sources history ∧ key.1.sysid ≠ 0 ∧ key.1 ≠ own

variable {own : Node} {history : List Arrival} {arrival : Arrival} {routes : List Route}

theorem mem_sources_snoc (key : Node × Channel) :
    key ∈ sources (history ++ [arrival]) ↔ key ∈ sources history ∨ key = arrival.source := by
  rw [sources, List.map_append, List.toFinset_append, Finset.mem_union, List.map_singleton,
    List.toFinset_cons, List.toFinset_nil, Finset.mem_insert]
  exact or_congr Iff.rfl (or_iff_left (Finset.notMem_empty _))

theorem Learned.length_le (learned : Learned own history routes) :
    routes.length ≤ (sources history).card := by
  rw [← List.length_map Route.key, ← List.toFinset_card_of_nodup learned.once]
  refine Finset.card_le_card fun key member => ?_
  exact ((learned.heard key).mp (List.mem_toFinset.mp member)).1

/-- Learning from a message keeps the table right while it has room. -/
theorem Learned.learn (learned : Learned own history routes)
    (room : arrival.source ∉ sources history → routes.length < maxRoutes) :
    Learned own (history ++ [arrival])
      (learnRoute own routes arrival.channel arrival.msg) := by
  have unchanged : (arrival.source ∈ sources history ∨ arrival.msg.sender.sysid = 0 ∨
      arrival.msg.sender = own) → ∀ key, key ∈ routes.map Route.key ↔
        key ∈ sources (history ++ [arrival]) ∧ key.1.sysid ≠ 0 ∧ key.1 ≠ own := by
    intro known key
    rw [learned.heard, mem_sources_snoc]
    constructor
    · exact fun old => ⟨Or.inl old.1, old.2⟩
    · rintro ⟨old | rfl, named, other⟩
      · exact ⟨old, named, other⟩
      · exact ⟨known.resolve_right fun either => either.elim named other, named, other⟩
  rw [learnRoute]
  split
  · rename_i ignored
    exact ⟨learned.once, unchanged (Or.inr ignored)⟩
  · rename_i learnable
    rw [not_or] at learnable
    split
    · rename_i changed found
      obtain ⟨keys, member⟩ := findRoute_some found
      have old : arrival.source ∈ sources history := ((learned.heard _).mp member).1
      exact ⟨by rw [keys]; exact learned.once, by rw [keys]; exact unchanged (Or.inl old)⟩
    · rename_i missing
      have fresh := findRoute_none missing
      have unknown : arrival.source ∉ sources history :=
        fun known => fresh ((learned.heard _).mpr ⟨known, learnable⟩)
      rw [if_pos (room unknown)]
      constructor
      · rw [List.map_append]
        exact List.Nodup.append learned.once (List.nodup_singleton _)
          (List.disjoint_singleton.mpr fresh)
      · intro key
        rw [List.map_append, List.mem_append, learned.heard, mem_sources_snoc]
        have last : key ∈ [Route.mk arrival.msg.sender.sysid arrival.msg.sender.compid
            arrival.channel (if arrival.msg.msgid = .heartbeat then arrival.msg.mavType else 0)].map
              Route.key ↔ key = arrival.source := by
          simp [Route.key, Arrival.source]
        rw [last]
        constructor
        · rintro (old | rfl)
          · exact ⟨Or.inl old.1, old.2⟩
          · exact ⟨Or.inr rfl, learnable⟩
        · rintro ⟨old | new, both⟩
          · exact Or.inl ⟨old, both⟩
          · exact Or.inr new

/-- What a message does to the table. -/
theorem receive_routes (state : State) :
    (state.receive own arrival).routes = learnRoute own state.routes arrival.channel arrival.msg := by
  rw [State.receive, checkAndForward]
  split
  · rename_i loopback
    rw [learnRoute, if_pos (Or.inr loopback)]
  · dsimp only
    split_ifs <;> rfl

theorem sources_mono (first second : List Arrival) : sources first ⊆ sources (first ++ second) := by
  rw [sources, sources, List.map_append, List.toFinset_append]
  exact Finset.subset_union_left

theorem learned_afterHistory (own : Node) (noRouteMask : Channel → Bool) (history : List Arrival)
    (few : (sources history).card ≤ maxRoutes) :
    Learned own history (afterHistory own noRouteMask history).routes := by
  induction history using List.reverseRecOn with
  | nil => exact ⟨List.nodup_nil, fun key => ⟨fun member => (nomatch member), fun heard => by simp [sources] at heard⟩⟩
  | append_singleton before arrival inductionHypothesis =>
    have fewBefore := (Finset.card_le_card (sources_mono before [arrival])).trans few
    have learned := inductionHypothesis fewBefore
    rw [afterHistory, List.foldl_append, List.foldl_cons, List.foldl_nil, receive_routes]
    refine learned.learn fun unknown => lt_of_le_of_lt learned.length_le ?_
    refine lt_of_lt_of_le (Finset.card_lt_card ?_) few
    refine Finset.ssubset_iff_of_subset (sources_mono before [arrival]) |>.mpr ?_
    exact ⟨arrival.source, (mem_sources_snoc _).mpr (Or.inr rfl), unknown⟩

/-! ### The loop -/

/-- What the loop has done with the routes that it went through. -/
structure Looped (inChannel : Channel) (targets : Targets) (routes : List Route)
    (forwarding : Forwarding) : Prop where
  sentToChan : ∀ channel, forwarding.sentToChan channel = true ↔
    channel ≠ inChannel ∧ ∃ route ∈ routes, targets.matchesRoute route = true ∧
      route.channel = channel
  forwarded : forwarding.forwarded = true ↔ ∃ channel, forwarding.sentToChan channel = true
  sent : ∀ channel, channel ∈ forwarding.sent ↔ forwarding.sentToChan channel = true
  once : forwarding.sent.Nodup

variable {links : Links} {inChannel : Channel} {msg : Message} {targets : Targets}
  {forwarding : Forwarding} {route : Route}

theorem Looped.skip (looped : Looped inChannel targets routes forwarding)
    (known : targets.matchesRoute route = true → route.channel ≠ inChannel →
      forwarding.sentToChan route.channel = true) :
    Looped inChannel targets (routes ++ [route]) forwarding where
  sentToChan := by
    intro channel
    constructor
    · intro sent
      obtain ⟨other, old, member, same⟩ := (looped.sentToChan channel).mp sent
      exact ⟨other, old, List.mem_append_left _ member, same⟩
    · rintro ⟨other, candidate, member, same, rfl⟩
      rcases List.mem_append.mp member with old | new
      · exact (looped.sentToChan _).mpr ⟨other, candidate, old, same, rfl⟩
      · rw [List.mem_singleton.mp new] at same other ⊢
        exact known same other
  forwarded := looped.forwarded
  sent := looped.sent
  once := looped.once

theorem Looped.step (looped : Looped inChannel targets routes forwarding)
    (space : ∀ channel, links.HasSpace msg channel) :
    Looped inChannel targets (routes ++ [route])
      (forwardOn links inChannel msg targets forwarding route) := by
  rw [forwardOn]
  by_cases candidate : targets.matchesRoute route = true
  · rw [if_pos candidate]
    by_cases fresh : inChannel ≠ route.channel ∧ ¬ forwarding.sentToChan route.channel = true
    · rw [if_pos fresh, if_pos (space _)]
      have now : ∀ channel, Function.update forwarding.sentToChan route.channel true channel = true ↔
          forwarding.sentToChan channel = true ∨ channel = route.channel := by
        intro channel
        by_cases same : channel = route.channel
        · rw [same, Function.update_self]
          exact ⟨fun _ => Or.inr rfl, fun _ => rfl⟩
        · rw [Function.update_of_ne same]
          exact (or_iff_left same).symm
      refine ⟨fun channel => ?_, ?_, fun channel => ?_, ?_⟩
      · dsimp only
        rw [now, looped.sentToChan]
        constructor
        · rintro (⟨other, old, member, same⟩ | rfl)
          · exact ⟨other, old, List.mem_append_left _ member, same⟩
          · exact ⟨fresh.1.symm, route, by simp, candidate, rfl⟩
        · rintro ⟨other, old, member, same, rfl⟩
          rcases List.mem_append.mp member with early | late
          · exact Or.inl ⟨other, old, early, same, rfl⟩
          · exact Or.inr (by rw [List.mem_singleton.mp late])
      · exact ⟨fun _ => ⟨route.channel, (now _).mpr (Or.inr rfl)⟩, fun _ => rfl⟩
      · dsimp only
        rw [now, List.mem_append, List.mem_singleton, looped.sent]
      · exact List.Nodup.append looped.once (List.nodup_singleton _)
          (List.disjoint_singleton.mpr fun old => fresh.2 ((looped.sent _).mp old))
    · rw [if_neg fresh]
      refine looped.skip fun _ other => ?_
      by_contra unsent
      exact fresh ⟨other.symm, unsent⟩
  · rw [if_neg candidate]
    exact looped.skip fun same => absurd same candidate

theorem looped_routes (space : ∀ channel, links.HasSpace msg channel) (inChannel : Channel)
    (targets : Targets) (routes : List Route) : Looped inChannel targets routes
      (routes.foldl (forwardOn links inChannel msg targets) ⟨fun _ => false, false, []⟩) := by
  induction routes using List.reverseRecOn with
  | nil =>
    refine ⟨fun channel => ?_, ?_, fun channel => ?_, List.nodup_nil⟩
    · exact ⟨fun impossible => (nomatch impossible), fun ⟨_, _, member, _⟩ => (nomatch member)⟩
    · exact ⟨fun impossible => (nomatch impossible), fun ⟨_, impossible⟩ => (nomatch impossible)⟩
    · exact ⟨fun member => (nomatch member), fun impossible => (nomatch impossible)⟩
  | append_singleton before route inductionHypothesis =>
    rw [List.foldl_append]
    exact inductionHypothesis.step space

end Urus.MavlinkRouting
