/-
This file is about the calls that come back. All searches but those of `set_current_cmd`
carry a budget and are total. A search of `set_current_cmd` runs over do commands and
jumps until it meets a navigation command, and nothing but the mission can end it.

A jump with a count is taken a bounded number of times: every time it is taken its entry
in the table goes up, and the room that the table has left goes down. When no more
counted jump is taken the search follows the spent program, in which counted jumps are
passed and endless ones taken. So the search comes back for every table if the spent
program leads out of the do commands from everywhere. If it does not, the object that was
just constructed shows it: its table is full of entries of no jump, and every counted jump
is passed there.
-/

import Urus.Mission.Walk
import Urus.Lib.Trace

namespace Urus.ApMission

variable {board : Board}

/-! ### The room in the table -/

/-- How often an entry can still be counted. -/
def JumpTracking.room (entry : JumpTracking) : Nat :=
  if entry.index = indexNone then 32768 else (jumpTimesMax - entry.numTimesRun).toNat

/-- How often a jump can still be counted in a table. -/
def tableRoom (table : List JumpTracking) : Nat := (table.map JumpTracking.room).sum

@[simp] theorem tableRoom_cons (entry : JumpTracking) (rest : List JumpTracking) :
    tableRoom (entry :: rest) = entry.room + tableRoom rest := by
  rw [tableRoom, List.map_cons, List.sum_cons, tableRoom]

theorem JumpTracking.room_new (index : Nat) (count : Int) (named : index ≠ indexNone) :
    JumpTracking.room ⟨index, count⟩ = (jumpTimesMax - count).toNat := if_neg named

theorem tableRoom_findJump (index : Nat) (named : index ≠ indexNone) (table : List JumpTracking) :
    tableRoom (findJump index table).2 ≤ tableRoom table := by
  induction table with
  | nil => exact le_refl _
  | cons entry rest inductionHypothesis =>
    simp only [findJump]
    split
    · exact le_refl _
    · split
      · have free : entry.room = 32768 := if_pos (by assumption)
        rw [tableRoom_cons, tableRoom_cons, JumpTracking.room_new _ _ named, free]
        have full : (jumpTimesMax - 0).toNat = 32767 := by decide
        omega
      · simp only [tableRoom_cons]
        omega

theorem tableRoom_countJump (index : Nat) (named : index ≠ indexNone) (times : Int)
    (bounded : times ≤ jumpTimesMax) (table : List JumpTracking)
    (left : (findJump index table).1 < times) :
    tableRoom (countJump index (findJump index table).2) < tableRoom table := by
  induction table with
  | nil =>
    simp only [findJump] at left
    omega
  | cons entry rest inductionHypothesis =>
    simp only [findJump] at left ⊢
    by_cases same : entry.index = index
    · simp only [if_pos same] at left ⊢
      simp only [countJump, if_pos same, tableRoom_cons]
      have before : entry.room = (jumpTimesMax - entry.numTimesRun).toNat :=
        if_neg (same ▸ named)
      have after : JumpTracking.room ⟨entry.index, Int.bmod (entry.numTimesRun + 1) (2 ^ 16)⟩ =
          (jumpTimesMax - Int.bmod (entry.numTimesRun + 1) (2 ^ 16)).toNat := if_neg (same ▸ named)
      rw [before, after]
      rw [jumpTimesMax] at bounded ⊢
      have wrapped : Int.bmod (entry.numTimesRun + 1) (2 ^ 16) = entry.numTimesRun + 1 ∨
          entry.numTimesRun + 1 < -2 ^ 15 := by
        by_cases small : entry.numTimesRun + 1 < -2 ^ 15
        · exact Or.inr small
        · refine Or.inl (Int.bmod_eq_of_le ?_ ?_) <;> omega
      have low := Int.le_bmod (x := entry.numTimesRun + 1) (m := 2 ^ 16) (Nat.two_pow_pos 16)
      have high := Int.bmod_lt (x := entry.numTimesRun + 1) (m := 2 ^ 16) (Nat.two_pow_pos 16)
      omega
    · simp only [if_neg same] at left ⊢
      by_cases free : entry.index = indexNone
      · simp only [if_pos free, countJump, tableRoom_cons, if_true]
        have before : entry.room = 32768 := if_pos free
        have after := JumpTracking.room_new index (Int.bmod (0 + 1) (2 ^ 16)) named
        have value : (jumpTimesMax - Int.bmod (0 + 1) (2 ^ 16)).toNat = 32766 := by decide
        omega
      · simp only [if_neg free] at left ⊢
        have smaller := inductionHypothesis left
        simp only [countJump, if_neg same, if_neg free, tableRoom_cons]
        omega

/-! ### The spent program -/

/-- The walk over a program whose counted jumps are all used up. -/
def spentWalk (program : Nat → Kind) : (maxLoops index : Nat) → Option Nat
  | maxLoops, index =>
    match program index with
    | .halt => none
    | .nav => some index
    | .act => some index
    | .jump target times =>
      match maxLoops with
      | 0 => none
      | maxLoops + 1 =>
        if times = jumpRepeatForever then spentWalk program maxLoops target
        else spentWalk program maxLoops (index + 1)

/-- The spent program leads from do command to do command for a number of times. -/
def spentActs (program : Nat → Kind) : (count index : Nat) → Bool
  | 0, _ => true
  | count + 1, index =>
    match spentWalk program 64 index with
    | none => false
    | some reached => program reached == .act && spentActs program count (reached + 1)

/-- The spent program leads from do command to do command for ever. -/
def Endless (program : Nat → Kind) (index : Nat) : Prop :=
  ∀ count, spentActs program count index = true

/-- A counting walk uses up room in the table, or it is the walk over the spent program. -/
theorem walk_room {program : Nat → Kind} (countable : Countable program)
    (maxLoops index jumpIndex : Nat) (table : List JumpTracking) :
    tableRoom (walk program true maxLoops index jumpIndex table).table < tableRoom table ∨
      tableRoom (walk program true maxLoops index jumpIndex table).table ≤ tableRoom table ∧
        (walk program true maxLoops index jumpIndex table).found =
          spentWalk program maxLoops index := by
  induction maxLoops generalizing index jumpIndex table with
  | zero =>
    right
    unfold walk spentWalk
    cases program index <;> exact ⟨le_refl _, rfl⟩
  | succ maxLoops inductionHypothesis =>
    unfold walk spentWalk
    cases kind : program index with
    | halt => exact Or.inr ⟨le_refl _, rfl⟩
    | nav => exact Or.inr ⟨le_refl _, rfl⟩
    | act => exact Or.inr ⟨le_refl _, rfl⟩
    | jump target times =>
      have named := countable.named kind
      have again : ¬ (true = false ∧ jumpIndex = index) := fun both => Bool.noConfusion both.1
      dsimp only
      rw [if_neg again]
      by_cases forever : times = jumpRepeatForever
      · rw [if_pos forever, if_pos forever]
        exact inductionHypothesis _ _ _
      · rw [if_neg forever, if_neg forever]
        by_cases left : (findJump index table).1 < times
        · -- the entry of the jump goes up
          rw [if_pos left, if_pos rfl]
          have counted := tableRoom_countJump index named times (countable.bounded kind) table left
          left
          rcases inductionHypothesis target (if jumpIndex = indexNone then index else jumpIndex)
            (countJump index (findJump index table).2) with smaller | ⟨smaller, -⟩
          · exact lt_trans smaller counted
          · exact lt_of_le_of_lt smaller counted
        · rw [if_neg left]
          have found := tableRoom_findJump index named table
          rcases inductionHypothesis (index + 1)
            (if jumpIndex = indexNone then index else jumpIndex) (findJump index table).2 with
            smaller | ⟨smaller, same⟩
          · exact Or.inl (lt_of_lt_of_le smaller found)
          · exact Or.inr ⟨le_trans smaller found, same⟩

/-! ### The search of `set_current_cmd` -/

namespace Mission

/-- What a search loop does to a mission, seen from its next search: the stored mission stays. -/
def Keeps (load : Mission board → MissionCommand → Mission board) : Prop :=
  ∀ mission cmd, (load mission cmd).plan = mission.plan ∧
    (load mission cmd).jumpTracking = mission.jumpTracking

theorem startCmd_keeps : Keeps (@startCmd board) := fun mission cmd =>
  ⟨(startCmd_frame mission cmd).1, (startCmd_frame mission cmd).2.1⟩

theorem loadCmd_keeps : Keeps (@loadCmd board) := fun mission cmd =>
  ⟨(loadCmd_frame mission cmd).1, (loadCmd_frame mission cmd).2.1⟩

variable {load : Mission board → MissionCommand → Mission board}

/-- From an index from which the spent program leads out of the do commands, the search comes
back, if it does so from everywhere once there is less room in the table. -/
theorem searchLoop_returns_of_spent (keeps : Keeps load) (plan : Plan board) (room : Nat)
    (smaller : ∀ index (mission : Mission board), mission.plan = plan → tableRoom mission.jumpTracking < room → ∃ fuel found, (searchLoop load fuel index mission).1 = some found)
    (count index : Nat) (mission : Mission board) (stored : mission.plan = plan)
    (small : tableRoom mission.jumpTracking ≤ room)
    (stops : spentActs plan.kind count index = false) :
    ∃ fuel found, (searchLoop load fuel index mission).1 = some found := by
  induction count generalizing index mission with
  | zero => exact nomatch stops
  | succ count inductionHypothesis =>
    subst stored
    have follows := getNextCmd_follows mission.plan index true mission.jumpTracking
    have walked := walk_room mission.plan.countable 64 index indexNone mission.jumpTracking
    rw [← follows.table, ← follows.index] at walked
    cases next : (getNextCmd mission.plan index true mission.jumpTracking).cmd with
    | none => exact ⟨1, false, congrArg Prod.fst (searchLoop_none 0 next)⟩
    | some cmd =>
      cases nav : isNavCmd cmd with
      | true => exact ⟨1, true, congrArg Prod.fst (searchLoop_nav 0 next nav)⟩
      | false =>
        obtain ⟨storedNext, tableNext⟩ := keeps
          (mission.track (getNextCmd mission.plan index true mission.jumpTracking)) cmd
        have onward : ∃ fuel found, (searchLoop load fuel (cmd.index + 1)
            (load (mission.track (getNextCmd mission.plan index true mission.jumpTracking)) cmd)).1 =
              some found := by
          rcases walked with less | ⟨same, reached⟩
          · refine smaller _ _ storedNext ?_
            rw [tableNext]
            exact lt_of_lt_of_le less small
          · refine inductionHypothesis _ _ storedNext ?_ ?_
            · rw [tableNext]
              exact le_trans same small
            · rw [next, Option.map_some] at reached
              simp only [spentActs, ← reached] at stops
              rw [(getNextCmd_plain next).act_iff.mpr nav] at stops
              simpa using stops
        obtain ⟨fuel, found, returned⟩ := onward
        refine ⟨fuel + 1, found, ?_⟩
        rw [searchLoop_act fuel next nav]
        exact returned

/-- If the spent program leads out of the do commands from everywhere, a search comes back. -/
theorem searchLoop_returns (keeps : Keeps load) (plan : Plan board)
    (ends : ∀ index, ¬ Endless plan.kind index) (room index : Nat) (mission : Mission board)
    (stored : mission.plan = plan) (small : tableRoom mission.jumpTracking ≤ room) :
    ∃ fuel found, (searchLoop load fuel index mission).1 = some found := by
  induction room generalizing index mission with
  | zero =>
    obtain ⟨count, stops⟩ := not_forall.mp (ends index)
    exact searchLoop_returns_of_spent keeps plan 0
      (fun _ _ _ impossible => absurd impossible (Nat.not_lt_zero _)) count index mission stored
      small (Bool.not_eq_true _ ▸ stops)
  | succ room inductionHypothesis =>
    obtain ⟨count, stops⟩ := not_forall.mp (ends index)
    exact searchLoop_returns_of_spent keeps plan (room + 1)
      (fun index mission stored less => inductionHypothesis index mission stored
        (Nat.le_of_lt_succ less)) count index mission stored small (Bool.not_eq_true _ ▸ stops)

theorem walk_stale {program : Nat → Kind} (countable : Countable program)
    (maxLoops index jumpIndex : Nat) {table : List JumpTracking} (stale : Stale program table) :
    (walk program true maxLoops index jumpIndex table).table = table ∧
      (walk program true maxLoops index jumpIndex table).found =
        spentWalk program maxLoops index := by
  induction maxLoops generalizing index jumpIndex with
  | zero =>
    unfold walk spentWalk
    cases program index <;> exact ⟨rfl, rfl⟩
  | succ maxLoops inductionHypothesis =>
    unfold walk spentWalk
    cases kind : program index with
    | halt => exact ⟨rfl, rfl⟩
    | nav => exact ⟨rfl, rfl⟩
    | act => exact ⟨rfl, rfl⟩
    | jump target times =>
      have again : ¬ (true = false ∧ jumpIndex = index) := fun both => Bool.noConfusion both.1
      have used : ¬ jumpTimesMax < times := not_lt.mpr (countable.bounded kind)
      dsimp only
      rw [if_neg again, stale index target times kind]
      by_cases forever : times = jumpRepeatForever
      · rw [if_pos forever, if_pos forever]
        exact inductionHypothesis _ _
      · rw [if_neg forever, if_neg forever, if_neg used]
        exact inductionHypothesis _ _

/-- Where no jump is counted and the spent program leads from do command to do command, a search
does not come back before its fuel is used up. -/
theorem searchLoop_unfinished (keeps : Keeps load) (fuel index : Nat) (mission : Mission board)
    (stale : Stale mission.plan.kind mission.jumpTracking)
    (acts : spentActs mission.plan.kind fuel index = true) :
    (searchLoop load fuel index mission).1 = none := by
  induction fuel generalizing index mission with
  | zero => rfl
  | succ fuel inductionHypothesis =>
    have follows := getNextCmd_follows mission.plan index true mission.jumpTracking
    obtain ⟨tableSame, reached⟩ :=
      walk_stale mission.plan.countable 64 index indexNone stale
    rw [← follows.table] at tableSame
    rw [← follows.index] at reached
    simp only [spentActs, ← reached] at acts
    cases next : (getNextCmd mission.plan index true mission.jumpTracking).cmd with
    | none =>
      rw [next] at acts
      exact nomatch acts
    | some cmd =>
      rw [next] at acts
      simp only [Option.map_some, Bool.and_eq_true, beq_iff_eq] at acts
      have act := (getNextCmd_plain next).act_iff.mp acts.1
      obtain ⟨storedNext, tableNext⟩ := keeps
        (mission.track (getNextCmd mission.plan index true mission.jumpTracking)) cmd
      rw [searchLoop_act fuel next act]
      refine inductionHypothesis _ _ ?_ ?_
      · rw [storedNext, tableNext]
        show Stale mission.plan.kind (getNextCmd mission.plan index true mission.jumpTracking).table
        rw [tableSame]
        exact stale
      · rw [storedNext]
        exact acts.2

theorem setCurrentCmd_returns (mission : Mission board)
    (ends : ∀ index, ¬ Endless mission.plan.kind index) (index : Nat) :
    ∃ fuel after, mission.setCurrentCmd fuel index = some after := by
  have stored := mission.prepare_plan index
  by_cases refused : index ≥ mission.plan.cmdTotal ∨ mission.plan.cmdTotal = 1
  · exact ⟨0, _, if_pos refused⟩
  · by_cases idle : (mission.prepare index).state ≠ .running
    · obtain ⟨fuel, found, returned⟩ := searchLoop_returns loadCmd_keeps mission.plan ends _
        (if index = 0 then 1 else index) (mission.prepare index) stored (le_refl _)
      obtain ⟨after, same⟩ : ∃ after, searchLoop loadCmd fuel (if index = 0 then 1 else index)
        (mission.prepare index) = (some found, after) := ⟨_, Prod.ext returned rfl⟩
      refine ⟨fuel, ?_⟩
      rw [setCurrentCmd, if_neg refused]
      dsimp only
      rw [if_pos idle, same]
      cases found <;> exact ⟨_, rfl⟩
    · obtain ⟨fuel, found, returned⟩ := searchLoop_returns startCmd_keeps mission.plan ends _
        (if index = 0 then 1 else index) (mission.prepare index) stored (le_refl _)
      obtain ⟨after, same⟩ : ∃ after, searchLoop startCmd fuel (if index = 0 then 1 else index)
        (mission.prepare index) = (some found, after) := ⟨_, Prod.ext returned rfl⟩
      refine ⟨fuel, ?_⟩
      rw [setCurrentCmd, if_neg refused]
      dsimp only
      rw [if_neg idle, same]
      cases found <;> exact ⟨_, rfl⟩

/-- On an object that was just constructed, `set_current_cmd` does not come back from an index
from which the spent program leads through do commands for ever. -/
theorem setCurrentCmd_hangs (plan : Plan board) {index : Nat} (endless : Endless plan.kind index)
    (fuel : Nat) : (constructed plan).setCurrentCmd fuel index = none := by
  have listed : index < plan.cmdTotal := by
    by_contra beyond
    have halts := endless 1
    simp only [spentActs, spentWalk, plan.kind_beyond beyond] at halts
    exact nomatch halts
  have real : index ≠ 0 := by
    rintro rfl
    have first := endless 1
    simp only [spentActs, spentWalk, plan.kind_home listed] at first
    exact nomatch first
  have refused : ¬ (index ≥ plan.cmdTotal ∨ plan.cmdTotal = 1) := by omega
  have unfinished := searchLoop_unfinished loadCmd_keeps fuel index
    ((constructed plan).prepare index)
    (by
      rw [prepare_plan, prepare_jumpTracking _ real (by decide : MissionState.stopped ≠ .complete)]
      exact constructed_stale plan)
    (by
      rw [prepare_plan]
      exact endless fuel)
  obtain ⟨after, same⟩ : ∃ after, searchLoop loadCmd fuel index
    ((constructed plan).prepare index) = (none, after) := ⟨_, Prod.ext unfinished rfl⟩
  have idle : ((constructed plan).prepare index).state ≠ .running := by
    rw [prepare_state]
    exact nofun
  rw [setCurrentCmd, if_neg (show ¬ (index ≥ (constructed plan).plan.cmdTotal ∨
    (constructed plan).plan.cmdTotal = 1) from refused)]
  dsimp only
  rw [if_neg real, if_pos idle, same]

end Mission

/-! ### Every call comes back -/

/-- A state that the object can get into: any calls that came back, on any stored mission. -/
def Reachable (mission : Mission board) : Prop :=
  ∃ fuel plan calls, runSteps (perform fuel) (constructed plan) calls = some mission

theorem perform_setCurrentCmd (fuel : Nat) (mission : Mission board) (index : Nat) :
    perform fuel mission (.setCurrentCmd index) =
      (mission.setCurrentCmd fuel index).map Prod.snd := rfl

/-- The calls come back, in every state that the object can get into with a stored mission,
exactly if there is no command from which the mission leads, past all counted jumps and through
all endless ones, from do command to do command for ever. -/
theorem calls_return_iff (plan : Plan board) :
    (∀ mission : Mission board, Reachable mission → mission.plan = plan →
      ∀ call, ∃ fuel after, perform fuel mission call = some after) ↔
      ∀ index, ¬ Endless plan.kind index := by
  constructor
  · intro returns index endless
    obtain ⟨fuel, after, returned⟩ :=
      returns (constructed plan) ⟨0, plan, [], rfl⟩ rfl (.setCurrentCmd index)
    rw [perform_setCurrentCmd, Mission.setCurrentCmd_hangs plan endless] at returned
    exact nomatch returned
  · rintro ends mission - rfl call
    cases call with
    | setCurrentCmd index =>
      obtain ⟨fuel, after, returned⟩ := mission.setCurrentCmd_returns ends index
      exact ⟨fuel, after.2, by rw [perform_setCurrentCmd, returned]; rfl⟩
    | _ => exact ⟨0, _, rfl⟩

/-- A do command and a jump back to it that is repeated for ever. -/
def endlessPlan : Plan smallBoard := uploaded [actCmd, jumpCmd 1 0xFFFF]

theorem endlessPlan_endless : Endless endlessPlan.kind 1 := by
  have act : endlessPlan.kind 1 = .act := by decide +kernel
  have round : ∀ count, spentActs endlessPlan.kind count 2 = true := by
    intro count
    induction count with
    | zero => rfl
    | succ count inductionHypothesis =>
      have walked : spentWalk endlessPlan.kind 64 2 = some 1 := by decide +kernel
      rw [spentActs, walked]
      simp only [act, inductionHypothesis, BEq.rfl, Bool.and_self]
  intro count
  cases count with
  | zero => rfl
  | succ count =>
    have walked : spentWalk endlessPlan.kind 64 1 = some 1 := by decide +kernel
    rw [spentActs, walked]
    simp only [act, round count, BEq.rfl, Bool.and_self]

/-- Setting the current command of that mission does not come back. -/
theorem setCurrentCmd_does_not_return :
    Reachable (constructed endlessPlan) ∧
      ∀ fuel, perform fuel (constructed endlessPlan) (.setCurrentCmd 1) = none := by
  refine ⟨⟨0, endlessPlan, [], rfl⟩, fun fuel => ?_⟩
  rw [perform_setCurrentCmd, Mission.setCurrentCmd_hangs endlessPlan endlessPlan_endless]
  rfl

end Urus.ApMission
