/-
This file takes the storage out of the searches. To a search, a stored mission is a
program: every index holds a navigation command, a do command, a jump, or nothing from
which the search could go on. `Plan.kind` reads that program off the storage, and `walk`
is the search over it.

`getNextCmd` finds the command at the index at which the walk ends, and leaves the table
and the record that the walk leaves. The local command that the reads go through has no
influence: a read overwrites everything that a search looks at.
-/

import Urus.Mission.Model

namespace Urus.ApMission

open Image StorageManager

variable {board : Board}

/-! ### Reading a command -/

variable {index : Nat} {first second : MissionCommand} {plan : Plan board} {search : Search}
  {cmd : MissionCommand} {increment : Bool} {table : List JumpTracking} {startIndex : Nat}

theorem Plan.slot_inside (plan : Plan board) (listed : index < plan.cmdTotal) :
    posInStorage index = 4 + index * commandSize ∧
      4 + index * commandSize + commandSize ≤ size .mission board.layout.areas := by
  have inside := plan.inside
  have fits := board.layout.sizeFits .mission
  rw [← size_eq] at fits
  rw [numCommandsMax, commandSize] at inside
  have room : 4 + index * commandSize + commandSize ≤ size .mission board.layout.areas := by
    rw [commandSize]
    omega
  refine ⟨?_, room⟩
  rw [posInStorage, Nat.mod_eq_of_lt]
  rw [commandSize] at room ⊢
  omega

theorem readBytes_flat (storage : Image) (loc count : Nat) (positive : 1 ≤ count)
    (short : count ≤ 255) (inside : loc + count ≤ size .mission board.layout.areas) :
    readBytes board storage loc count =
      slice (flat .mission storage board.layout.areas) loc count := by
  rw [size_eq] at inside
  rw [readBytes, readBlock_flat _ _ _ _ _ positive short inside]

theorem Content.overlay_getD (old : Content) (data : List UInt8) (index : Nat)
    (given : index < data.length) (bounded : index < 12) :
    (old.overlay data).bytes.getD index 0 = data.getD index 0 := by
  simp only [Content.overlay, List.getD, List.getElem?_take, if_pos bounded,
    List.getElem?_append_left given]

/-- Two commands agree on what a search looks at. -/
structure MissionCommand.Agree (first second : MissionCommand) : Prop where
  index : first.index = second.index
  id : first.id = second.id
  jumpTarget : first.content.jumpTarget = second.content.jumpTarget
  jumpNumTimes : first.content.jumpNumTimes = second.content.jumpNumTimes

theorem MissionCommand.Agree.isNavCmd (agree : first.Agree second) :
    isNavCmd first = isNavCmd second := by
  rw [ApMission.isNavCmd, ApMission.isNavCmd, agree.id]

theorem Content.overlay_agree (index : Nat) (id p1 : UInt16) (first second : Content)
    (data : List UInt8) (long : 4 ≤ data.length) :
    MissionCommand.Agree ⟨index, id, p1, first.overlay data⟩ ⟨index, id, p1, second.overlay data⟩ := by
  have byte : ∀ place < 4, (first.overlay data).bytes.getD place 0 =
      (second.overlay data).bytes.getD place 0 := by
    intro place early
    rw [overlay_getD _ _ _ (by omega) (by omega), overlay_getD _ _ _ (by omega) (by omega)]
  refine ⟨rfl, rfl, ?_, ?_⟩
  · simp only [Content.jumpTarget]
    rw [byte 0 (by decide), byte 1 (by decide)]
  · simp only [Content.jumpNumTimes]
    rw [byte 2 (by decide), byte 3 (by decide)]

/-- A read gives a command at its own index, whatever it reads into. -/
theorem readCmdFromStorage_listed (plan : Plan board) (listed : index < plan.cmdTotal)
    (first second : MissionCommand) :
    ∃ cmd other, readCmdFromStorage plan index first = some cmd ∧
      readCmdFromStorage plan index second = some other ∧ cmd.index = index ∧ cmd.Agree other := by
  obtain ⟨place, room⟩ := plan.slot_inside listed
  rw [commandSize] at room place
  have long : ∀ offset count, offset + count ≤ 15 → 1 ≤ count →
      (readBytes board plan.storage (posInStorage index + offset) count).length = count := by
    intro offset count bound positive
    rw [readBytes_flat _ _ _ positive (by omega) (by omega), slice_length]
  have early : ¬ (index ≥ plan.cmdTotal ∧ index ≠ 0) := by omega
  simp only [readCmdFromStorage, if_neg early]
  by_cases home : index = 0
  · simp only [if_pos home]
    exact ⟨_, _, rfl, rfl, home.symm, rfl, rfl, rfl, rfl⟩
  · simp only [if_neg home]
    by_cases wide : readByte board plan.storage (posInStorage index) = 0
    · simp only [if_pos wide]
      refine ⟨_, _, rfl, rfl, rfl, Content.overlay_agree _ _ _ _ _ _ ?_⟩
      rw [long 5 10 (by decide) (by decide)]
      decide
    · simp only [if_neg wide]
      refine ⟨_, _, rfl, rfl, rfl, Content.overlay_agree _ _ _ _ _ _ ?_⟩
      rw [long 3 12 (by decide) (by decide)]
      decide

theorem readCmdFromStorage_index (plan : Plan board) (index : Nat) (temp cmd : MissionCommand)
    (read : readCmdFromStorage plan index temp = some cmd) : cmd.index = index := by
  simp only [readCmdFromStorage] at read
  split at read
  · exact nomatch read
  · split at read
    · rw [← Option.some.inj read]
      exact (by assumption : index = 0).symm
    · split at read <;> rw [← Option.some.inj read]

/-! ### The program of a stored mission -/

/-- What a search finds at an index. -/
inductive Kind
  | halt
  | nav
  | act
  | jump (target : Nat) (times : Int)
  deriving DecidableEq

/-- What a command means to a search. A jump with an invalid target ends it. -/
def MissionCommand.kind (cmd : MissionCommand) (cmdTotal : Nat) : Kind :=
  if cmd.id = doJump then
    if cmd.content.jumpTarget ≥ cmdTotal ∨ cmd.content.jumpTarget = 0 then .halt
    else .jump cmd.content.jumpTarget cmd.content.jumpNumTimes
  else if isNavCmd cmd then .nav
  else .act

/-- The program that the searches run. -/
def Plan.kind (plan : Plan board) (index : Nat) : Kind :=
  if index < plan.cmdTotal then
    match readCmdFromStorage plan index board.scratch with
    | none => .halt
    | some cmd => cmd.kind plan.cmdTotal
  else .halt

theorem MissionCommand.Agree.kind (agree : first.Agree second) (cmdTotal : Nat) :
    first.kind cmdTotal = second.kind cmdTotal := by
  simp only [MissionCommand.kind, agree.id, agree.jumpTarget, agree.jumpNumTimes, agree.isNavCmd]

theorem Plan.kind_of_read (plan : Plan board) (listed : index < plan.cmdTotal)
    {temp cmd : MissionCommand} (read : readCmdFromStorage plan index temp = some cmd) :
    plan.kind index = cmd.kind plan.cmdTotal := by
  obtain ⟨first, second, readFirst, readSecond, -, agree⟩ :=
    readCmdFromStorage_listed plan listed temp board.scratch
  rw [read] at readFirst
  rw [Plan.kind, if_pos listed, readSecond, Option.some.inj readFirst]
  exact (agree.kind _).symm

theorem Plan.kind_beyond (plan : Plan board) (beyond : ¬ index < plan.cmdTotal) :
    plan.kind index = .halt := if_neg beyond

theorem Plan.listed_of_kind (plan : Plan board) (real : plan.kind index ≠ .halt) :
    index < plan.cmdTotal := by
  by_contra beyond
  exact real (plan.kind_beyond beyond)

theorem Plan.index_ne_none (plan : Plan board) (listed : index < plan.cmdTotal) :
    index ≠ indexNone := by
  have room := (plan.slot_inside listed).2
  have fits := board.layout.sizeFits .mission
  rw [← size_eq] at fits
  rw [commandSize] at room
  rw [indexNone]
  omega

theorem doJump_not_nav : (doJump ≤ navLast || doJump == navSetYawSpeed) = false := by decide

theorem MissionCommand.kind_nav_iff (cmd : MissionCommand) (cmdTotal : Nat) :
    cmd.kind cmdTotal = .nav ↔ isNavCmd cmd = true := by
  unfold MissionCommand.kind
  split
  · have notNav : isNavCmd cmd = false := by
      rw [isNavCmd, (by assumption : cmd.id = doJump)]
      exact doJump_not_nav
    rw [notNav]
    split <;> simp
  · split <;> simp_all

theorem MissionCommand.kind_plain_iff (cmd : MissionCommand) (cmdTotal : Nat) :
    (cmd.kind cmdTotal = .nav ∨ cmd.kind cmdTotal = .act) ↔ cmd.id ≠ doJump := by
  unfold MissionCommand.kind
  split
  · split <;> simp_all
  · split <;> simp_all

theorem Plan.kind_home (plan : Plan board) (listed : 0 < plan.cmdTotal) : plan.kind 0 = .nav := by
  have read : readCmdFromStorage plan 0 board.scratch = some ⟨0, navWaypoint, 0, board.home⟩ := by
    rw [readCmdFromStorage, if_neg (fun both => both.2 rfl), if_pos rfl]
  rw [plan.kind_of_read listed read]
  exact (MissionCommand.kind_nav_iff _ _).mpr rfl

/-- A program whose jumps can be counted. -/
structure Countable (program : Nat → Kind) : Prop where
  named : ∀ {index target times}, program index = .jump target times → index ≠ indexNone
  bounded : ∀ {index target times}, program index = .jump target times → times ≤ jumpTimesMax

theorem signedWord_le (value : UInt16) : signedWord value ≤ jumpTimesMax := by
  have high := Int.bmod_lt (x := (value.toNat : Int)) (m := 2 ^ 16) (Nat.two_pow_pos 16)
  unfold signedWord jumpTimesMax
  omega

theorem Plan.listed_of_jump (plan : Plan board) {index target : Nat} {times : Int}
    (jump : plan.kind index = .jump target times) : index < plan.cmdTotal := by
  refine plan.listed_of_kind ?_
  rw [jump]
  exact nofun

theorem Plan.countable (plan : Plan board) : Countable plan.kind where
  named := fun jump => plan.index_ne_none (plan.listed_of_jump jump)
  bounded := by
    intro index target times jump
    have listed := plan.listed_of_jump jump
    obtain ⟨cmd, -, read, -⟩ := readCmdFromStorage_listed plan listed board.scratch board.scratch
    rw [plan.kind_of_read listed read, MissionCommand.kind] at jump
    split at jump
    · split at jump
      · exact nomatch jump
      · cases jump
        exact signedWord_le _
    · split at jump <;> exact nomatch jump

/-! ### The walk -/

/-- The outcome of a walk: the index at which it ends, the table and the record. -/
structure Walk where
  found : Option Nat
  table : List JumpTracking
  visits : List Visit

def Walk.behind (walk : Walk) (visit : Visit) : Walk :=
  { walk with visits := visit :: walk.visits }

/-- The search for the next command over a program. -/
def walk (program : Nat → Kind) (increment : Bool) : (maxLoops index jumpIndex : Nat) →
    (table : List JumpTracking) → Walk
  | maxLoops, index, jumpIndex, table =>
    match program index with
    | .halt => ⟨none, table, []⟩
    | .nav => ⟨some index, table, [.found index]⟩
    | .act => ⟨some index, table, [.found index]⟩
    | .jump target times =>
      match maxLoops with
      | 0 => ⟨none, table, []⟩
      | maxLoops + 1 =>
        if increment = false ∧ jumpIndex = index then ⟨none, table, []⟩
        else
          let jumpIndex := if jumpIndex = indexNone then index else jumpIndex
          if times = jumpRepeatForever then
            (walk program increment maxLoops target jumpIndex table).behind (.jump index true)
          else if (findJump index table).1 < times then
            (walk program increment maxLoops target jumpIndex
              (if increment then countJump index (findJump index table).2
                else (findJump index table).2)).behind (.jump index true)
          else
            (walk program increment maxLoops (index + 1) jumpIndex
              (findJump index table).2).behind (.jump index false)

theorem walk_found (program : Nat → Kind) (increment : Bool) (maxLoops index jumpIndex : Nat)
    (table : List JumpTracking) {reached : Nat}
    (found : (walk program increment maxLoops index jumpIndex table).found = some reached) :
    program reached = .nav ∨ program reached = .act := by
  induction maxLoops generalizing index jumpIndex table with
  | zero =>
    unfold walk at found
    cases kind : program index <;> simp only [kind] at found
    · exact nomatch found
    · exact Or.inl (Option.some.inj found ▸ kind)
    · exact Or.inr (Option.some.inj found ▸ kind)
    · exact nomatch found
  | succ maxLoops inductionHypothesis =>
    unfold walk at found
    cases kind : program index <;> simp only [kind] at found
    · exact nomatch found
    · exact Or.inl (Option.some.inj found ▸ kind)
    · exact Or.inr (Option.some.inj found ▸ kind)
    · split at found
      · exact nomatch found
      · split at found
        · exact inductionHypothesis _ _ _ found
        · split at found <;> exact inductionHypothesis _ _ _ found

/-- A table in which no jump of the program has an entry and none can get one. -/
def Stale (program : Nat → Kind) (table : List JumpTracking) : Prop :=
  ∀ index target times, program index = .jump target times →
    findJump index table = (jumpTimesMax, table)

/-! ### The searches follow the walk -/

/-- A search ends where a walk ends, at a command of the kind that stands there. -/
structure Search.Follows (search : Search) (walk : Walk) (plan : Plan board) : Prop where
  table : search.table = walk.table
  visits : search.visits = walk.visits
  index : search.cmd.map MissionCommand.index = walk.found
  kind : ∀ cmd, search.cmd = some cmd → plan.kind cmd.index = cmd.kind plan.cmdTotal

theorem Search.Follows.behind {walk : Walk} (follows : search.Follows walk plan) (visit : Visit) :
    (search.behind visit).Follows (walk.behind visit) plan where
  table := follows.table
  visits := congrArg _ follows.visits
  index := follows.index
  kind := follows.kind

theorem Search.follows_none (plan : Plan board) (table : List JumpTracking) :
    Search.Follows ⟨none, table, []⟩ ⟨none, table, []⟩ plan :=
  ⟨rfl, rfl, rfl, fun _ impossible => nomatch impossible⟩

theorem getNextCmdLoop_beyond (plan : Plan board) (increment : Bool)
    (maxLoops cmdIndex jumpIndex : Nat) (temp : MissionCommand) (table : List JumpTracking)
    (beyond : ¬ cmdIndex < plan.cmdTotal) :
    (getNextCmdLoop plan increment maxLoops cmdIndex jumpIndex temp table).Follows
      (walk plan.kind increment maxLoops cmdIndex jumpIndex table) plan := by
  unfold getNextCmdLoop walk
  rw [if_neg beyond, plan.kind_beyond beyond]
  exact Search.follows_none plan table

theorem getNextCmdLoop_plain (plan : Plan board) (increment : Bool)
    (maxLoops cmdIndex jumpIndex : Nat) (temp : MissionCommand) (table : List JumpTracking)
    (listed : cmdIndex < plan.cmdTotal) (read : readCmdFromStorage plan cmdIndex temp = some cmd)
    (plain : cmd.id ≠ doJump) :
    (getNextCmdLoop plan increment maxLoops cmdIndex jumpIndex temp table).Follows
      (walk plan.kind increment maxLoops cmdIndex jumpIndex table) plan := by
  have same := readCmdFromStorage_index plan cmdIndex temp cmd read
  have kind := plan.kind_of_read listed read
  have walked : walk plan.kind increment maxLoops cmdIndex jumpIndex table =
      ⟨some cmdIndex, table, [.found cmdIndex]⟩ := by
    unfold walk
    rcases (cmd.kind_plain_iff plan.cmdTotal).mpr plain with nav | act
    · rw [kind, nav]
    · rw [kind, act]
  unfold getNextCmdLoop
  rw [if_pos listed, read, walked]
  dsimp only
  rw [if_neg plain]
  exact ⟨rfl, rfl, congrArg some same, fun other found => Option.some.inj found ▸ same.symm ▸ kind⟩

theorem getNextCmdLoop_exhausted (plan : Plan board) (increment : Bool) (cmdIndex jumpIndex : Nat)
    (temp : MissionCommand) (table : List JumpTracking) (listed : cmdIndex < plan.cmdTotal)
    (read : readCmdFromStorage plan cmdIndex temp = some cmd) (jump : cmd.id = doJump) :
    (getNextCmdLoop plan increment 0 cmdIndex jumpIndex temp table).Follows
      (walk plan.kind increment 0 cmdIndex jumpIndex table) plan := by
  have kind := plan.kind_of_read listed read
  have walked : walk plan.kind increment 0 cmdIndex jumpIndex table = ⟨none, table, []⟩ := by
    unfold walk
    rw [kind, MissionCommand.kind, if_pos jump]
    by_cases invalid : cmd.content.jumpTarget ≥ plan.cmdTotal ∨ cmd.content.jumpTarget = 0
    · rw [if_pos invalid]
    · rw [if_neg invalid]
  unfold getNextCmdLoop
  rw [if_pos listed, read, walked]
  dsimp only
  rw [if_pos jump]
  exact Search.follows_none plan table

theorem getJumpTimesRun_valid (plan : Plan board) (table : List JumpTracking)
    (cmd : MissionCommand) (jump : cmd.id = doJump)
    (valid : ¬ (cmd.content.jumpTarget ≥ plan.cmdTotal ∨ cmd.content.jumpTarget = 0)) :
    getJumpTimesRun plan table cmd = findJump cmd.index table := by
  rw [getJumpTimesRun, if_neg]
  rintro (other | invalid)
  · exact other jump
  · exact valid invalid

theorem getNextCmdLoop_follows (plan : Plan board) (increment : Bool)
    (maxLoops cmdIndex jumpIndex : Nat) (temp : MissionCommand) (table : List JumpTracking) :
    (getNextCmdLoop plan increment maxLoops cmdIndex jumpIndex temp table).Follows
      (walk plan.kind increment maxLoops cmdIndex jumpIndex table) plan := by
  induction maxLoops generalizing cmdIndex jumpIndex temp table with
  | zero =>
    by_cases listed : cmdIndex < plan.cmdTotal
    · obtain ⟨cmd, -, read, -⟩ := readCmdFromStorage_listed plan listed temp temp
      by_cases jump : cmd.id = doJump
      · exact getNextCmdLoop_exhausted plan increment _ _ _ _ listed read jump
      · exact getNextCmdLoop_plain plan increment _ _ _ _ _ listed read jump
    · exact getNextCmdLoop_beyond plan increment _ _ _ _ _ listed
  | succ maxLoops inductionHypothesis =>
    by_cases listed : cmdIndex < plan.cmdTotal
    · obtain ⟨cmd, -, read, -, same, -⟩ := readCmdFromStorage_listed plan listed temp temp
      by_cases jump : cmd.id = doJump
      · have kind := plan.kind_of_read listed read
        unfold getNextCmdLoop walk
        rw [if_pos listed, read, kind, MissionCommand.kind, if_pos jump]
        dsimp only
        rw [if_pos jump]
        by_cases invalid : cmd.content.jumpTarget ≥ plan.cmdTotal ∨ cmd.content.jumpTarget = 0
        · rw [if_pos invalid, if_pos invalid]
          exact Search.follows_none plan table
        · rw [if_neg invalid, if_neg invalid]
          dsimp only
          by_cases again : increment = false ∧ jumpIndex = cmdIndex
          · rw [if_pos again, if_pos again]
            exact Search.follows_none plan table
          · rw [if_neg again, if_neg again]
            by_cases forever : cmd.content.jumpNumTimes = jumpRepeatForever
            · rw [if_pos forever, if_pos forever]
              exact (inductionHypothesis _ _ _ _).behind _
            · rw [if_neg forever, if_neg forever, getJumpTimesRun_valid plan table cmd jump invalid,
                incrementJumpTimesRun, if_neg (not_not.mpr jump), same]
              by_cases left : (findJump cmdIndex table).1 < cmd.content.jumpNumTimes
              · rw [if_pos left, if_pos left]
                exact (inductionHypothesis _ _ _ _).behind _
              · rw [if_neg left, if_neg left]
                exact (inductionHypothesis _ _ _ _).behind _
      · exact getNextCmdLoop_plain plan increment _ _ _ _ _ listed read jump
    · exact getNextCmdLoop_beyond plan increment _ _ _ _ _ listed

theorem getNextCmd_follows (plan : Plan board) (startIndex : Nat) (increment : Bool)
    (table : List JumpTracking) :
    (getNextCmd plan startIndex increment table).Follows
      (walk plan.kind increment 64 startIndex indexNone table) plan :=
  getNextCmdLoop_follows plan increment 64 startIndex indexNone board.scratch table

/-- A command of the mission that is not a jump. -/
structure Plan.Plain (plan : Plan board) (cmd : MissionCommand) : Prop where
  listed : cmd.index < plan.cmdTotal
  kind : plan.kind cmd.index = cmd.kind plan.cmdTotal
  plain : cmd.id ≠ doJump

theorem Plan.Plain.index_ne_none (plain : plan.Plain cmd) :
    cmd.index ≠ indexNone := plan.index_ne_none plain.listed

theorem Plan.Plain.nav_iff (plain : plan.Plain cmd) :
    plan.kind cmd.index = .nav ↔ isNavCmd cmd = true := by
  rw [plain.kind, cmd.kind_nav_iff]

theorem Plan.Plain.act_iff (plain : plan.Plain cmd) :
    plan.kind cmd.index = .act ↔ isNavCmd cmd = false := by
  rw [← Bool.not_eq_true, ← plain.nav_iff]
  rcases (cmd.kind_plain_iff plan.cmdTotal).mpr plain.plain with nav | act
  · simp [plain.kind, nav]
  · simp [plain.kind, act]

theorem Search.Follows.plain {maxLoops index jumpIndex : Nat}
    (follows : search.Follows (walk plan.kind increment maxLoops index jumpIndex table) plan)
    (found : search.cmd = some cmd) : plan.Plain cmd := by
  have reached := follows.index
  rw [found] at reached
  have kinds := walk_found _ _ _ _ _ _ reached.symm
  have same := follows.kind cmd found
  refine ⟨plan.listed_of_kind ?_, same, ?_⟩
  · rcases kinds with nav | act
    · rw [nav]
      exact nofun
    · rw [act]
      exact nofun
  · rw [same] at kinds
    exact (cmd.kind_plain_iff _).mp kinds

theorem getNextCmd_plain (found : (getNextCmd plan startIndex increment table).cmd = some cmd) :
    plan.Plain cmd :=
  (getNextCmd_follows plan startIndex increment table).plain found

theorem getNextDoCmd_plain (found : (getNextDoCmd plan startIndex table).1 = some cmd) :
    plan.Plain cmd ∧ isNavCmd cmd = false := by
  unfold getNextDoCmd at found
  split at found
  · exact nomatch found
  · dsimp only at found
    split at found
    · exact nomatch found
    · rename_i other next
      split at found
      · exact nomatch found
      · rename_i act
        rw [← Option.some.inj found]
        exact ⟨getNextCmd_plain next, Bool.eq_false_iff.mpr act⟩

theorem findJump_zeroed (index count : Nat) (real : index ≠ 0) :
    findJump index (List.replicate count ⟨0, 0⟩) =
      (jumpTimesMax, List.replicate count ⟨0, 0⟩) := by
  induction count with
  | zero => rfl
  | succ count inductionHypothesis =>
    rw [List.replicate_succ, findJump, if_neg real.symm, if_neg (by decide), inductionHypothesis]

/-- The table of an object that was just constructed. -/
theorem constructed_stale (plan : Plan board) :
    Stale plan.kind (constructed plan).jumpTracking := by
  intro index target times jump
  have real : index ≠ 0 := by
    rintro rfl
    rw [plan.kind_home (plan.listed_of_jump jump)] at jump
    exact nomatch jump
  exact findJump_zeroed index maxNumDoJumpCommands real

/-! ### The search loops -/

namespace Mission

section Loop

variable {load : Mission board → MissionCommand → Mission board} (fuel : Nat) {index : Nat}
  {mission : Mission board}

attribute [local simp] searchLoop

theorem searchLoop_none
    (next : (getNextCmd mission.plan index true mission.jumpTracking).cmd = none) :
    searchLoop load (fuel + 1) index mission = (some false,
      mission.track (getNextCmd mission.plan index true mission.jumpTracking)) := by
  simp [next]

variable {cmd : MissionCommand}

theorem searchLoop_nav
    (next : (getNextCmd mission.plan index true mission.jumpTracking).cmd = some cmd)
    (nav : isNavCmd cmd = true) :
    searchLoop load (fuel + 1) index mission = (some true,
      load (mission.track (getNextCmd mission.plan index true mission.jumpTracking)) cmd) := by
  simp [next, nav]

theorem searchLoop_act
    (next : (getNextCmd mission.plan index true mission.jumpTracking).cmd = some cmd)
    (act : isNavCmd cmd = false) :
    searchLoop load (fuel + 1) index mission = searchLoop load fuel (cmd.index + 1)
      (load (mission.track (getNextCmd mission.plan index true mission.jumpTracking)) cmd) := by
  simp [next, act]

end Loop

theorem startCmd_frame (mission : Mission board) (cmd : MissionCommand) :
    (mission.startCmd cmd).plan = mission.plan ∧
      (mission.startCmd cmd).jumpTracking = mission.jumpTracking ∧
      (mission.startCmd cmd).visits = mission.visits ∧ (mission.startCmd cmd).state = mission.state := by
  unfold startCmd startDo
  split
  · exact ⟨rfl, rfl, rfl, rfl⟩
  · split <;> exact ⟨rfl, rfl, rfl, rfl⟩

theorem loadCmd_frame (mission : Mission board) (cmd : MissionCommand) :
    (mission.loadCmd cmd).plan = mission.plan ∧
      (mission.loadCmd cmd).jumpTracking = mission.jumpTracking ∧
      (mission.loadCmd cmd).visits = mission.visits ∧ (mission.loadCmd cmd).state = mission.state := by
  unfold loadCmd
  split
  · exact ⟨rfl, rfl, rfl, rfl⟩
  · split <;> exact ⟨rfl, rfl, rfl, rfl⟩

/-- What counting jumps and loading commands keep holds behind a search loop. -/
theorem searchLoop_rule {load : Mission board → MissionCommand → Mission board}
    (property : Mission board → Prop)
    (tracked : ∀ mission index, property mission →
      property (mission.track (getNextCmd mission.plan index true mission.jumpTracking)))
    (loaded : ∀ mission cmd, mission.plan.Plain cmd → property mission →
      property (load mission cmd))
    (fuel index : Nat) (mission : Mission board) (holds : property mission) :
    property (searchLoop load fuel index mission).2 := by
  induction fuel generalizing index mission with
  | zero => exact holds
  | succ fuel inductionHypothesis =>
    have next := tracked mission index holds
    cases found : (getNextCmd mission.plan index true mission.jumpTracking).cmd with
    | none =>
      rw [searchLoop_none fuel found]
      exact next
    | some cmd =>
      have plain : (mission.track (getNextCmd mission.plan index true
        mission.jumpTracking)).plan.Plain cmd := getNextCmd_plain found
      cases nav : isNavCmd cmd with
      | true =>
        rw [searchLoop_nav fuel found nav]
        exact loaded _ cmd plain next
      | false =>
        rw [searchLoop_act fuel found nav]
        exact inductionHypothesis _ _ (loaded _ cmd plain next)

/-! ### The do search -/

section DoSearch

variable {mission : Mission board}

theorem advanceCurrentDoCmd_idle (idle : mission.state ≠ .running ∨ mission.doCmdAllDone = true) :
    mission.advanceCurrentDoCmd = mission := if_pos idle

section

variable (active : ¬ (mission.state ≠ .running ∨ mission.doCmdAllDone = true))

include active

theorem advanceCurrentDoCmd_last (last : mission.nextDoIndex ≥ mission.plan.cmdTotal) :
    mission.advanceCurrentDoCmd = { mission with doCmdAllDone := true } := by
  rw [advanceCurrentDoCmd, if_neg active, if_pos last]

theorem advanceCurrentDoCmd_none (inside : ¬ mission.nextDoIndex ≥ mission.plan.cmdTotal)
    (next : (getNextDoCmd mission.plan mission.nextDoIndex mission.jumpTracking).1 = none) :
    mission.advanceCurrentDoCmd = { mission with
      jumpTracking := (getNextDoCmd mission.plan mission.nextDoIndex mission.jumpTracking).2
      doCmdAllDone := true } := by
  rw [advanceCurrentDoCmd, if_neg active, if_neg inside]
  dsimp only
  rw [next]

theorem advanceCurrentDoCmd_found (inside : ¬ mission.nextDoIndex ≥ mission.plan.cmdTotal)
    {cmd : MissionCommand}
    (next : (getNextDoCmd mission.plan mission.nextDoIndex mission.jumpTracking).1 = some cmd) :
    mission.advanceCurrentDoCmd = { mission with
      jumpTracking := (getNextDoCmd mission.plan mission.nextDoIndex mission.jumpTracking).2
      doCmd := cmd
      doCmdLoaded := true }.call (.start cmd) := by
  rw [advanceCurrentDoCmd, if_neg active, if_neg inside]
  dsimp only
  rw [next]

end

end DoSearch

/-! ### The beginning of `set_current_cmd` -/

variable {mission : Mission board}

theorem prepare_again {mission : Mission board} {index : Nat}
    (again : index = 0 ∨ mission.state = .complete) :
    mission.prepare index = { mission.stopDo with
      navCmdLoaded := false
      prevNavCmdId := 0
      prevNavCmdIndex := indexNone
      prevNavCmdWpIndex := indexNone }.resetTracking := if_pos again

theorem prepare_onward {mission : Mission board} {index : Nat}
    (onward : ¬ (index = 0 ∨ mission.state = .complete)) :
    mission.prepare index = { mission.stopDo with navCmdLoaded := false } := if_neg onward

theorem prepare_plan (mission : Mission board) (index : Nat) :
    (mission.prepare index).plan = mission.plan := by
  simp only [prepare]
  split <;> rfl

theorem prepare_state (mission : Mission board) (index : Nat) :
    (mission.prepare index).state = mission.state := by
  simp only [prepare]
  split <;> rfl

/-- The table is kept unless the mission starts again. -/
theorem prepare_jumpTracking (mission : Mission board) {index : Nat} (real : index ≠ 0)
    (incomplete : mission.state ≠ .complete) :
    (mission.prepare index).jumpTracking = mission.jumpTracking := by
  simp only [prepare]
  rw [if_neg]
  · rfl
  · rintro (zero | complete)
    · exact real zero
    · exact incomplete complete

/-- How `set_current_cmd` comes back: it refuses, or a search behind its beginning has come back, with
one way to end for each state and each outcome. -/
theorem setCurrentCmd_cases {fuel index : Nat} {result : Bool × Mission board}
    (returned : mission.setCurrentCmd fuel index = some result) :
    result = (false, mission) ∨ ∃ start after,
      searchLoop loadCmd fuel start (mission.prepare index) = (some true, after) ∧
          result = (true, { after.markAllDone with state := .stopped }) ∨
        searchLoop loadCmd fuel start (mission.prepare index) = (some false, after) ∧
          result = (false, { after with navCmd := { after.navCmd with index := indexNone } }) ∨
        searchLoop startCmd fuel start (mission.prepare index) = (some true, after) ∧
          result = (true, after.markAllDone) ∨
        searchLoop startCmd fuel start (mission.prepare index) = (some false, after) ∧
          result = (true, after.finish) := by
  unfold setCurrentCmd at returned
  dsimp only at returned
  split at returned
  · exact Or.inl (Option.some.inj returned).symm
  · refine Or.inr ⟨if index = 0 then 1 else index, ?_⟩
    split at returned
    · split at returned
      · exact nomatch returned
      · rename_i after found
        exact ⟨after, Or.inl ⟨found, (Option.some.inj returned).symm⟩⟩
      · rename_i after failed
        exact ⟨after, Or.inr (Or.inl ⟨failed, (Option.some.inj returned).symm⟩)⟩
    · split at returned
      · exact nomatch returned
      · rename_i after found
        exact ⟨after, Or.inr (Or.inr (Or.inl ⟨found, (Option.some.inj returned).symm⟩))⟩
      · rename_i after failed
        exact ⟨after, Or.inr (Or.inr (Or.inr ⟨failed, (Option.some.inj returned).symm⟩))⟩

/-! ### The queries -/

theorem startsWithTakeoffCmd_mission (mission : Mission board) (restarts : Bool) :
    ∃ index, (mission.startsWithTakeoffCmd restarts).2 = (mission.getNextNavCmd index).2 := by
  unfold startsWithTakeoffCmd
  dsimp only
  split <;> exact ⟨_, rfl⟩

theorem getNextGroundCourseCd_mission (mission : Mission board) (defaultAngle : Int) :
    ∃ index, (mission.getNextGroundCourseCd defaultAngle).2 = (mission.getNextNavCmd index).2 := by
  unfold getNextGroundCourseCd
  dsimp only
  split
  · exact ⟨_, rfl⟩
  · split
    · exact ⟨_, rfl⟩
    · split <;> exact ⟨_, rfl⟩

/-! ### The search of `advance_current_nav_cmd` -/

theorem startDo_track_loaded (loaded : mission.doCmdLoaded = true) (search : Search)
    (cmd : MissionCommand) :
    (mission.track search).startDo cmd = mission.track search := by
  rw [startDo, if_pos (show (mission.track search).doCmdLoaded = true from loaded)]

theorem advanceLoop_eq (maxLoops index : Nat) (mission : Mission board)
    (loaded : mission.doCmdLoaded = true) :
    advanceLoop maxLoops index mission =
      ((searchLoop startCmd (maxLoops + 1) index mission).1.getD false,
        (searchLoop startCmd (maxLoops + 1) index mission).2) := by
  induction maxLoops generalizing index mission with
  | zero =>
    unfold advanceLoop searchLoop
    dsimp only
    cases (getNextCmd mission.plan index true mission.jumpTracking).cmd with
    | none => rfl
    | some cmd =>
      dsimp only [startCmd]
      split
      · rfl
      · rw [startDo_track_loaded loaded]
        rfl
  | succ maxLoops inductionHypothesis =>
    rw [searchLoop]
    unfold advanceLoop
    dsimp only
    cases (getNextCmd mission.plan index true mission.jumpTracking).cmd with
    | none => rfl
    | some cmd =>
      dsimp only [startCmd]
      split
      · rfl
      · rw [startDo_track_loaded loaded]
        exact inductionHypothesis _ _ loaded

theorem advanceSearch_eq (mission : Mission board) (index : Nat)
    (unloaded : mission.doCmdLoaded = false) :
    advanceSearch mission index =
      ((searchLoop startCmd 257 index mission).1.getD false,
        (searchLoop startCmd 257 index mission).2) := by
  rw [searchLoop]
  unfold advanceSearch
  dsimp only
  cases (getNextCmd mission.plan index true mission.jumpTracking).cmd with
  | none => rfl
  | some cmd =>
    dsimp only [startCmd]
    split
    · rfl
    · rw [advanceLoop_eq]
      rw [startDo, track]
      dsimp only
      rw [if_neg (by rw [unloaded]; decide)]
      rfl

end Mission

/-! ### Small missions -/

/-- A board with 4k of storage and the copter layout. -/
def smallBoard : Board where
  layout := Table.copter.layout 4096 (by decide)
  home := zeroedCommand.content
  scratch := zeroedCommand
  bearingCd := fun _ _ => 0
  yawAngleCd := fun _ => 0

def plainCmd (id : UInt16) : MissionCommand := { zeroedCommand with id := id }

/-- A waypoint and a command that changes the speed. -/
def navCmd : MissionCommand := plainCmd navWaypoint
def actCmd : MissionCommand := plainCmd 178

def jumpCmd (target times : UInt16) : MissionCommand where
  index := 0
  id := doJump
  p1 := 0
  content := zeroedCommand.content.overlay (wordBytes target ++ wordBytes times)

/-- A mission that was uploaded to an empty board: home, and the commands. -/
def uploaded (cmds : List MissionCommand) : Plan smallBoard :=
  ((navCmd :: cmds).foldl (fun mission cmd => (mission.addCmd cmd).2.2)
    (constructed ⟨fun _ => 0, 0, Nat.zero_le _⟩)).plan

end Urus.ApMission
