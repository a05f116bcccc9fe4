/-
This file is about the listing of the logs. A request names the first and the last entry
that it wants. One of them is moved up to the first log and the other one down to the last
log, and then an entry goes out at each call of the link that finds space, until the entry
is equal to the last one.

When the range is empty behind this, the entries run away from the last one: they go up
through the whole of sixteen bits and come round to it from below.
-/

import Urus.LogTransfer.Model

namespace Urus.LogTransfer

/-! ### What is promised -/

/-- A call of `handle_log_send`: the link, and what it finds. -/
structure SendCall where
  channel : Nat
  listReady : Bool
  ready : List Bool

/-- The calls of all links, one after another. -/
def runSends (backend : Backend) : State → List SendCall → State × List Sent
  | state, [] => (state, [])
  | state, call :: rest =>
    let (state, sent) := handleLogSend backend state call.channel call.listReady call.ready
    let (state, later) := runSends backend state rest
    (state, sent ++ later)

/-- The first and the last entry that a request asks for. Without logs it is entry zero. -/
def firstEntry (numLogs : Nat) (packet : RequestList) : Nat :=
  if numLogs = 0 then 0 else max 1 packet.start.toNat

def lastEntry (numLogs : Nat) (packet : RequestList) : Nat :=
  if numLogs = 0 then 0 else min packet.stop.toNat numLogs

/-- The entries that a request asks for, upwards. -/
def listedEntries (numLogs : Nat) (packet : RequestList) : List Nat :=
  List.range' (firstEntry numLogs packet) (lastEntry numLogs packet + 1 - firstEntry numLogs packet)

/-- The message with an entry. -/
def entryMessage (backend : Backend) (channel numLogs lastLogNum id : Nat) : Sent :=
  let (size, timeUtc) := if id = 0 then (0, 0) else backend.getLogInfo id
  .entry ⟨channel, id, numLogs, lastLogNum, timeUtc.toNat, size.toNat⟩

/-- How many calls find the link of the listing ready for an entry. -/
def turns (channel : Nat) (schedule : List SendCall) : Nat :=
  schedule.countP fun call => call.channel = channel ∧ call.listReady = true

/-- From a request on, each turn sends the next entry that it asks for. When there is no next one the
listing is over and the channel is free. -/
def ListsRange (backend : Backend) (state : State) (channel : Nat) (packet : RequestList) : Prop :=
  ∀ listReady schedule,
    let requested := handleLogRequestList backend state channel packet listReady
    let run := runSends backend requested.1 schedule
    let numLogs := backend.getNumLogs.toNat
    let entries := listedEntries numLogs packet
    let done := (if listReady then 1 else 0) + turns channel schedule
    requested.2 ++ run.2 = (entries.take done).map
        (entryMessage backend channel numLogs (lastEntry numLogs packet)) ∧
      (entries.length ≤ done → run.1.logListing = false ∧ run.1.logSendingChan = none)

/-! ### A listing -/

/-- The listing is on, and an entry is next. -/
structure Listing (channel numLogs last next : Nat) (state : State) : Prop where
  chan : state.logSendingChan = some channel
  listing : state.logListing = true
  sending : state.logSending = false
  numLogs : state.logNumLogs = numLogs
  last : state.logLastListEntry = last
  next : state.logNextListEntry = next

/-- The listing is over. -/
structure Listed (state : State) : Prop where
  chan : state.logSendingChan = none
  listing : state.logListing = false

variable {backend : Backend} {channel numLogs last next : Nat} {state : State}

section

variable (listing : Listing channel numLogs last next state)

include listing

theorem Listing.turn_sent :
    (handleLogSendListing backend state channel true).2 =
      [entryMessage backend channel numLogs last next] := by
  rw [handleLogSendListing, if_neg (by decide), listing.next, listing.last, listing.numLogs]
  dsimp only
  split <;> rfl

theorem Listing.turn_state (ordered : next ≤ last)
    (inside : last < 2 ^ 16) :
    (next = last → Listed (handleLogSendListing backend state channel true).1) ∧
      (next ≠ last → Listing channel numLogs last (next + 1)
        (handleLogSendListing backend state channel true).1) := by
  rw [handleLogSendListing, if_neg (not_not.mpr rfl), listing.next, listing.last]
  dsimp only
  refine ⟨fun atLast => ?_, fun further => ?_⟩
  · rw [if_pos atLast]
    exact ⟨rfl, rfl⟩
  · rw [if_neg further]
    exact ⟨listing.chan, listing.listing, listing.sending, listing.numLogs, rfl,
      Nat.mod_eq_of_lt (by omega)⟩

/-- A call of a link is a turn, or it does nothing. -/
theorem Listing.handleLogSend (call : SendCall) :
    handleLogSend backend state call.channel call.listReady call.ready =
      if call.channel = channel ∧ call.listReady = true then
        handleLogSendListing backend state channel true
      else (state, []) := by
  have idle : ∀ ready, (handleLogSendListing backend state channel ready).1.logSending = false := by
    intro ready
    rw [handleLogSendListing]
    dsimp only
    split_ifs <;> exact listing.sending
  unfold LogTransfer.handleLogSend
  by_cases same : call.channel = channel
  · rw [same, if_neg (not_not.mpr listing.chan), if_pos listing.listing]
    dsimp only
    rw [if_pos (by rw [idle]; exact Bool.false_ne_true)]
    cases call.listReady with
    | false => exact (if_neg fun both => nomatch both.2).symm
    | true => exact (if_pos ⟨rfl, rfl⟩).symm
  · have other : state.logSendingChan ≠ some call.channel := fun chan =>
      same (Option.some.inj (chan.symm.trans listing.chan))
    rw [if_pos other, if_neg fun both => same both.1]

end

/-- Behind a listing the links have nothing to do. -/
theorem Listed.runSends (listed : Listed state) (schedule : List SendCall) :
    runSends backend state schedule = (state, []) := by
  induction schedule with
  | nil => rfl
  | cons call rest inductionHypothesis =>
    have nothing : handleLogSend backend state call.channel call.listReady call.ready =
        (state, []) := by
      unfold LogTransfer.handleLogSend
      exact if_pos (by rw [listed.chan]; exact nofun)
    rw [LogTransfer.runSends, nothing]
    dsimp only
    rw [inductionHypothesis, List.nil_append]

variable (backend) in
theorem Listing.runSends (listing : Listing channel numLogs last next state) (ordered : next ≤ last)
    (inside : last < 2 ^ 16) (schedule : List SendCall) :
    let run := runSends backend state schedule
    let entries := List.range' next (last + 1 - next)
    run.2 = (entries.take (turns channel schedule)).map
        (entryMessage backend channel numLogs last) ∧
      (entries.length ≤ turns channel schedule →
        run.1.logListing = false ∧ run.1.logSendingChan = none) := by
  dsimp only
  induction schedule generalizing state next with
  | nil =>
    refine ⟨rfl, fun enough => ?_⟩
    rw [List.length_range'] at enough
    exact absurd enough (by change ¬ _ ≤ 0; omega)
  | cons call rest inductionHypothesis =>
    have entries : List.range' next (last + 1 - next) =
        next :: List.range' (next + 1) (last - next) := by
      rw [show last + 1 - next = last - next + 1 by omega, List.range'_succ]
    rw [LogTransfer.runSends, listing.handleLogSend]
    by_cases mine : call.channel = channel ∧ call.listReady = true
    · have counted : turns channel (call :: rest) = turns channel rest + 1 :=
        List.countP_cons_of_pos (decide_eq_true mine)
      rw [if_pos mine, counted, entries, List.take_succ_cons, List.map_cons, List.length_cons]
      dsimp only
      rw [listing.turn_sent]
      obtain ⟨stops, goesOn⟩ := listing.turn_state ordered inside
      by_cases atLast : next = last
      · rw [(stops atLast).runSends, atLast, Nat.sub_self, List.range'_zero, List.take_nil]
        exact ⟨List.append_nil _, fun _ => ⟨(stops atLast).listing, (stops atLast).chan⟩⟩
      · obtain ⟨sent, ended⟩ := inductionHypothesis (goesOn atLast) (by omega)
        rw [Nat.add_sub_add_right] at sent ended
        rw [sent]
        exact ⟨rfl, fun enough => ended (Nat.le_of_succ_le_succ enough)⟩
    · have counted : turns channel (call :: rest) = turns channel rest :=
        List.countP_cons_of_neg (by rwa [decide_eq_true_eq])
      rw [if_neg mine, counted]
      exact inductionHypothesis listing ordered

/-! ### The main result -/

variable (channel) in
theorem handleLogRequestList_idle (idle : state.logSendingChan = none) (packet : RequestList) :
    ∃ started, Listing channel backend.getNumLogs.toNat
        (lastEntry backend.getNumLogs.toNat packet) (firstEntry backend.getNumLogs.toNat packet)
        started ∧ ∀ listReady, handleLogRequestList backend state channel packet listReady =
          handleLogSendListing backend started channel listReady := by
  let started := { state with
    logListing := true
    logSending := false
    logNumLogs := backend.getNumLogs.toNat
    logNextListEntry := firstEntry backend.getNumLogs.toNat packet
    logLastListEntry := lastEntry backend.getNumLogs.toNat packet
    logSendingChan := some channel }
  refine ⟨started, ⟨rfl, rfl, rfl, rfl, rfl, rfl⟩, fun listReady => ?_⟩
  have limits : (if backend.getNumLogs.toNat = 0 then (0, 0)
      else (if packet.start.toNat < 1 then 1 else packet.start.toNat,
        if packet.stop.toNat > backend.getNumLogs.toNat then backend.getNumLogs.toNat
        else packet.stop.toNat)) =
      (firstEntry backend.getNumLogs.toNat packet, lastEntry backend.getNumLogs.toNat packet) := by
    rw [firstEntry, lastEntry]
    split
    · rfl
    · refine Prod.ext ?_ ?_ <;> dsimp only <;> split <;> omega
  rw [handleLogRequestList, idle, if_neg (show ¬ (none : Option Nat).isSome = true from nofun)]
  dsimp only
  rw [limits]

/-- A request is listed as it asks for if and only if there are no logs, or there is an entry from its
first to its last one. -/
theorem listsRange_iff (idle : state.logSendingChan = none) (packet : RequestList) :
    ListsRange backend state channel packet ↔
      backend.getNumLogs = 0 ∨
        max 1 packet.start.toNat ≤ min packet.stop.toNat backend.getNumLogs.toNat := by
  have none_iff : backend.getNumLogs.toNat = 0 ↔ backend.getNumLogs = 0 :=
    UInt16.toNat_inj (b := 0)
  obtain ⟨started, listing, requested⟩ := handleLogRequestList_idle channel idle packet
  have ordered_iff : (backend.getNumLogs = 0 ∨
      max 1 packet.start.toNat ≤ min packet.stop.toNat backend.getNumLogs.toNat) ↔
      firstEntry backend.getNumLogs.toNat packet ≤ lastEntry backend.getNumLogs.toNat packet := by
    rw [firstEntry, lastEntry, ← none_iff]
    split <;> simp_all
  rw [ordered_iff]
  constructor
  · intro lists
    by_contra empty
    -- the first turn sends an entry, and none is asked for
    have sent := (lists true []).1
    rw [requested, listing.turn_sent, listedEntries, Nat.sub_eq_zero_of_le (by omega)] at sent
    exact nomatch sent
  · intro ordered listReady schedule
    have inside : lastEntry backend.getNumLogs.toNat packet < 2 ^ 16 := by
      have bound := packet.stop.toNat_lt
      rw [lastEntry]
      split <;> omega
    have run := listing.runSends backend ordered inside
      (⟨channel, listReady, []⟩ :: schedule)
    have counted : turns channel (⟨channel, listReady, []⟩ :: schedule) =
        (if listReady then 1 else 0) + turns channel schedule := by
      rw [turns, List.countP_cons, Nat.add_comm]
      simp [turns]
    dsimp only
    rw [requested]
    rw [runSends, listing.handleLogSend, counted] at run
    cases listReady with
    | true =>
      rw [if_pos ⟨rfl, rfl⟩] at run
      exact run
    | false =>
      rw [if_neg fun both => nomatch both.2] at run
      exact run

/-! ### Three logs -/

/-- A storage with three logs. -/
def threeLogs : Backend where
  getNumLogs := 3
  getLogInfo := fun _ => (100, 0)
  getLogBoundaries := fun _ => 0
  getLogData := fun _ _ _ _ => none

theorem listsRange_iff_threeLogs :
    State.boot.logSendingChan = none ∧ ListsRange threeLogs State.boot 0 ⟨2, 0xFFFF⟩ :=
  ⟨rfl, (listsRange_iff rfl ⟨2, 0xFFFF⟩).mpr (Or.inr (by decide))⟩

/-- A request for the logs from number 5 on is answered with entry 5 of 3. -/
theorem not_listsRange_threeLogs :
    State.boot.logSendingChan = none ∧
      (handleLogRequestList threeLogs State.boot 0 ⟨5, 0xFFFF⟩ true).2 = [.entry ⟨0, 5, 3, 3, 0, 100⟩] ∧
      ¬ ListsRange threeLogs State.boot 0 ⟨5, 0xFFFF⟩ := by
  refine ⟨rfl, by decide, fun lists => ?_⟩
  exact absurd (lists true []).1 (by decide)

end Urus.LogTransfer
