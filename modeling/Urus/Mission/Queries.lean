/-
This file shows that the queries of the mission library are pure for everybody else. A
look ahead resolves jumps, and looking a jump up makes an entry in the jump tracking
table, so a query does change the object.

Two runs, one with queries and one without, differ in their tables only. The entries
that the queries made have a count of zero, as a jump without an entry has, and the order
of the entries does not matter as long as there is room for all jumps. So the searches of
both runs make the same decisions, load the same commands, and leave tables between which
again no search sees a difference.
-/

import Urus.Mission.Tracking
import Urus.Lib.Trace

namespace Urus.ApMission

variable {board : Board}

/-! ### Searches that see the same counts -/

/-- Two searches found the same and left tables that are alike. -/
structure Search.Same (plan : Plan board) (first second : Search) : Prop where
  cmd : first.cmd = second.cmd
  visits : first.visits = second.visits
  alike : Alike plan.kind plan.jumps first.table second.table

variable {plan : Plan board} {first second : List JumpTracking} {table : List JumpTracking}

theorem Search.Same.behind {first second : Search} (same : Search.Same plan first second)
    (visit : Visit) :
    Search.Same plan (first.behind visit) (second.behind visit) :=
  ⟨same.cmd, congrArg (List.cons visit) same.visits, same.alike⟩

theorem getNextCmdLoop_same (plan : Plan board) (increment : Bool)
    (maxLoops cmdIndex jumpIndex : Nat) (temp : MissionCommand)
    (alike : Alike plan.kind plan.jumps first second) :
    Search.Same plan (getNextCmdLoop plan increment maxLoops cmdIndex jumpIndex temp first)
      (getNextCmdLoop plan increment maxLoops cmdIndex jumpIndex temp second) := by
  have unchanged : ∀ cmd visits, Search.Same plan ⟨cmd, first, visits⟩ ⟨cmd, second, visits⟩ :=
    fun _ _ => ⟨rfl, rfl, alike⟩
  induction maxLoops generalizing cmdIndex jumpIndex temp first second with
  | zero =>
    unfold getNextCmdLoop
    split
    · split
      · exact unchanged _ _
      · split <;> exact unchanged _ _
    · exact unchanged _ _
  | succ maxLoops inductionHypothesis =>
    have onward : ∀ {first second : List JumpTracking} (cmdIndex jumpIndex : Nat)
        (temp : MissionCommand), Alike plan.kind plan.jumps first second →
        Search.Same plan (getNextCmdLoop plan increment maxLoops cmdIndex jumpIndex temp first)
          (getNextCmdLoop plan increment maxLoops cmdIndex jumpIndex temp second) :=
      fun _ _ _ alike => inductionHypothesis _ _ _ alike fun _ _ => ⟨rfl, rfl, alike⟩
    by_cases listed : cmdIndex < plan.cmdTotal
    · obtain ⟨cmd, -, read, -, same, -⟩ := readCmdFromStorage_listed plan listed temp temp
      have kind := plan.kind_of_read listed read
      unfold getNextCmdLoop
      rw [if_pos listed, if_pos listed, read]
      dsimp only
      by_cases jump : cmd.id = doJump
      · rw [if_pos jump, if_pos jump]
        by_cases invalid : cmd.content.jumpTarget ≥ plan.cmdTotal ∨ cmd.content.jumpTarget = 0
        · rw [if_pos invalid, if_pos invalid]
          exact unchanged _ _
        · rw [MissionCommand.kind, if_pos jump, if_neg invalid] at kind
          rw [if_neg invalid, if_neg invalid]
          by_cases again : increment = false ∧ jumpIndex = cmdIndex
          · rw [if_pos again, if_pos again]
            exact unchanged _ _
          · rw [if_neg again, if_neg again]
            by_cases forever : cmd.content.jumpNumTimes = jumpRepeatForever
            · rw [if_pos forever, if_pos forever]
              exact (onward _ _ _ alike).behind _
            · rw [if_neg forever, if_neg forever, getJumpTimesRun_valid plan first cmd jump invalid,
                getJumpTimesRun_valid plan second cmd jump invalid, incrementJumpTimesRun,
                incrementJumpTimesRun, if_neg (not_not.mpr jump), if_neg (not_not.mpr jump), same]
              have seen : (findJump cmdIndex first).1 = (findJump cmdIndex second).1 :=
                alike.same kind
              by_cases left : (findJump cmdIndex first).1 < cmd.content.jumpNumTimes
              · have leftSecond : (findJump cmdIndex second).1 < cmd.content.jumpNumTimes :=
                  seen ▸ left
                rw [if_pos left, if_pos leftSecond]
                cases increment with
                | true => exact (onward _ _ _ (alike.countJump plan.listed kind left)).behind _
                | false => exact (onward _ _ _ (alike.findJump plan.listed kind)).behind _
              · have usedSecond : ¬ (findJump cmdIndex second).1 < cmd.content.jumpNumTimes :=
                  seen ▸ left
                rw [if_neg left, if_neg usedSecond]
                exact (onward _ _ _ (alike.findJump plan.listed kind)).behind _
      · rw [if_neg jump, if_neg jump]
        exact unchanged _ _
    · unfold getNextCmdLoop
      rw [if_neg listed, if_neg listed]
      exact unchanged _ _

theorem getNextCmd_same (plan : Plan board) (startIndex : Nat) (increment : Bool)
    (alike : Alike plan.kind plan.jumps first second) :
    Search.Same plan (getNextCmd plan startIndex increment first)
      (getNextCmd plan startIndex increment second) :=
  getNextCmdLoop_same plan increment 64 startIndex indexNone board.scratch alike

/-- A search that does not count leaves a table in which a search sees the same. -/
theorem getNextCmd_lookup (plan : Plan board) (startIndex : Nat)
    (healthy : Healthy plan.kind plan.jumps table) :
    Alike plan.kind plan.jumps table (getNextCmd plan startIndex false table).table := by
  rw [(getNextCmd_follows plan startIndex false table).table]
  exact walk_lookup plan.listed 64 startIndex indexNone healthy

theorem nextNavCmd_lookup (plan : Plan board) (startIndex : Nat)
    (healthy : Healthy plan.kind plan.jumps table) :
    Alike plan.kind plan.jumps table (nextNavCmd plan startIndex table).2 := by
  unfold nextNavCmd
  generalize plan.cmdTotal - startIndex = left
  induction left generalizing startIndex table with
  | zero => exact Alike.refl healthy
  | succ left inductionHypothesis =>
    have looked := getNextCmd_lookup plan startIndex healthy
    unfold getNextNavCmdLoop
    dsimp only
    split
    · exact looked
    · split
      · exact looked
      · exact looked.trans (inductionHypothesis _ looked.healthySecond)

theorem getNextDoCmd_same (plan : Plan board) (startIndex : Nat)
    (alike : Alike plan.kind plan.jumps first second) :
    (getNextDoCmd plan startIndex first).1 = (getNextDoCmd plan startIndex second).1 ∧
      Alike plan.kind plan.jumps (getNextDoCmd plan startIndex first).2
        (getNextDoCmd plan startIndex second).2 := by
  have same := getNextCmd_same plan startIndex false alike
  unfold getNextDoCmd
  split
  · exact ⟨rfl, alike⟩
  · dsimp only
    rw [same.cmd]
    split
    · exact ⟨rfl, same.alike⟩
    · split <;> exact ⟨rfl, same.alike⟩

/-! ### Missions that differ in their tables -/

def Mission.withTable (mission : Mission board) (table : List JumpTracking) : Mission board :=
  { mission with jumpTracking := table }

/-- Two missions that differ in their tables only, and in them in no way that a search sees. -/
structure Related (plan : Plan board) (first second : Mission board) : Prop where
  stored : first.plan = plan
  same : second = first.withTable second.jumpTracking
  alike : Alike plan.kind plan.jumps first.jumpTracking second.jumpTracking

namespace Related

variable {plan : Plan board} {first second : Mission board}

theorem field (related : Related plan first second) {Value : Type} (read : Mission board → Value)
    (blind : ∀ mission table, read (mission.withTable table) = read mission) :
    read second = read first :=
  (congrArg read related.same).trans (blind first _)

/-- What is done to both without a look at the tables keeps them related. -/
theorem map (related : Related plan first second) (change : Mission board → Mission board)
    (stored : (change first).plan = first.plan)
    (blind : ∀ mission table, change (mission.withTable table) = (change mission).withTable table) :
    Related plan (change first) (change second) := by
  have table : ∀ mission : Mission board, (change mission).jumpTracking = mission.jumpTracking := by
    intro mission
    have same : change mission = (change mission).withTable mission.jumpTracking :=
      blind mission mission.jumpTracking
    exact (congrArg Mission.jumpTracking same).trans rfl
  refine ⟨stored.trans related.stored, ?_, ?_⟩
  · rw [table]
    exact (congrArg change related.same).trans (blind first _)
  · rw [table, table]
    exact related.alike

theorem track (related : Related plan first second) {search search' : Search}
    (same : Search.Same plan search search') :
    Related plan (first.track search) (second.track search') := by
  refine ⟨related.stored, ?_, same.alike⟩
  rw [related.same]
  simp only [Mission.track, Mission.withTable, same.visits]

end Related

/-- What a search loop does with a command does not depend on the table. -/
def Blind (load : Mission board → MissionCommand → Mission board) : Prop :=
  ∀ cmd mission table, load (mission.withTable table) cmd = (load mission cmd).withTable table

namespace Mission

theorem startCmd_blind : Blind (@startCmd board) := by
  rintro cmd ⟨_, _, _, doCmdLoaded, _⟩ table
  simp only [startCmd, startNav, startDo, call, withTable]
  cases isNavCmd cmd <;> cases doCmdLoaded <;> rfl

theorem loadCmd_blind : Blind (@loadCmd board) := by
  rintro cmd ⟨_, _, _, doCmdLoaded, _⟩ table
  simp only [loadCmd, withTable]
  cases isNavCmd cmd <;> cases doCmdLoaded <;> rfl

variable {first second : Mission board} {plan : Plan board}

theorem searchLoop_related {load : Mission board → MissionCommand → Mission board}
    (keeps : ∀ mission cmd, (load mission cmd).plan = mission.plan) (blind : Blind load)
    (fuel index : Nat) (related : Related plan first second) :
    (searchLoop load fuel index first).1 = (searchLoop load fuel index second).1 ∧
      Related plan (searchLoop load fuel index first).2 (searchLoop load fuel index second).2 := by
  induction fuel generalizing index first second with
  | zero => exact ⟨rfl, related⟩
  | succ fuel inductionHypothesis =>
    have plans : second.plan = first.plan := related.field Mission.plan fun _ _ => rfl
    have same : Search.Same plan (getNextCmd first.plan index true first.jumpTracking)
        (getNextCmd second.plan index true second.jumpTracking) := by
      rw [plans, related.stored]
      exact getNextCmd_same plan index true related.alike
    have tracked := related.track same
    cases next : (getNextCmd first.plan index true first.jumpTracking).cmd with
    | none =>
      rw [searchLoop_none fuel next, searchLoop_none fuel (same.cmd ▸ next)]
      exact ⟨rfl, tracked⟩
    | some cmd =>
      have loaded := tracked.map (fun mission => load mission cmd) (keeps _ _) (blind cmd)
      cases nav : isNavCmd cmd with
      | true =>
        rw [searchLoop_nav fuel next nav, searchLoop_nav fuel (same.cmd ▸ next) nav]
        exact ⟨rfl, loaded⟩
      | false =>
        rw [searchLoop_act fuel next nav, searchLoop_act fuel (same.cmd ▸ next) nav]
        exact inductionHypothesis _ loaded

theorem markAllDone_related (related : Related plan first second) :
    Related plan first.markAllDone second.markAllDone := by
  refine related.map markAllDone ?_ ?_
  · unfold markAllDone
    split <;> rfl
  · rintro ⟨_, _, _, doCmdLoaded, _⟩ table
    cases doCmdLoaded <;> rfl

theorem advanceCurrentNavCmd_related (related : Related plan first second) :
    first.advanceCurrentNavCmd.1 = second.advanceCurrentNavCmd.1 ∧
      Related plan first.advanceCurrentNavCmd.2 second.advanceCurrentNavCmd.2 := by
  have states : second.state = first.state := related.field Mission.state fun _ _ => rfl
  have loads : second.navCmdLoaded = first.navCmdLoaded :=
    related.field Mission.navCmdLoaded fun _ _ => rfl
  have indices : second.nextNavIndex = first.nextNavIndex :=
    related.field Mission.nextNavIndex fun _ _ => rfl
  have stopped := related.map stopDo rfl fun _ _ => rfl
  obtain ⟨found, searched⟩ := searchLoop_related (fun mission cmd => (startCmd_frame mission cmd).1)
    startCmd_blind 257 first.nextNavIndex stopped
  unfold advanceCurrentNavCmd
  rw [states, loads, indices]
  split
  · exact ⟨rfl, related⟩
  · split
    · exact ⟨rfl, related⟩
    · rw [advanceSearch_eq _ _ rfl, advanceSearch_eq _ _ rfl]
      dsimp only
      rw [← found]
      split
      · exact ⟨rfl, markAllDone_related searched⟩
      · exact ⟨rfl, searched⟩

theorem start_related (few : plan.jumps.length ≤ maxNumDoJumpCommands)
    (related : Related plan first second) :
    Related plan first.start second.start := by
  have healthy : Healthy plan.kind plan.jumps initJumpTracking :=
    Or.inr (initJumpTracking_tracked few)
  have before : Related plan { first with state := .running }.reset
      { second with state := .running }.reset := by
    refine ⟨related.stored, ?_, Alike.refl healthy⟩
    rw [related.same]
    rfl
  obtain ⟨advanced, after⟩ := advanceCurrentNavCmd_related before
  unfold start
  dsimp only
  rw [← advanced]
  split
  · exact after
  · exact after.map finish rfl fun _ _ => rfl

theorem restartNav_related (related : Related plan first second) :
    Related plan first.restartNav second.restartNav := by
  refine related.map restartNav ?_ ?_
  · unfold restartNav
    split <;> rfl
  · rintro ⟨_, _, navCmdLoaded, _⟩ table
    cases navCmdLoaded <;> rfl

theorem restartDo_related (related : Related plan first second) :
    Related plan first.restartDo second.restartDo := by
  refine related.map restartDo ?_ ?_
  · unfold restartDo
    split <;> rfl
  · intro mission table
    unfold restartDo
    by_cases busy : mission.doCmdLoaded = true ∧ mission.doCmd.index ≠ indexNone
    · rw [if_pos busy]
      exact if_pos busy
    · rw [if_neg busy]
      exact if_neg busy

theorem restart_related (few : plan.jumps.length ≤ maxNumDoJumpCommands)
    (related : Related plan first second) :
    Related plan first.restart second.restart := by
  have reads : readCmdFromStorage second.plan second.navCmd.index second.navCmd =
      readCmdFromStorage first.plan first.navCmd.index first.navCmd :=
    related.field (fun mission => readCmdFromStorage mission.plan mission.navCmd.index
      mission.navCmd) fun _ _ => rfl
  unfold restart
  rw [reads]
  split
  · exact start_related few related
  · rename_i cmd _
    exact restartDo_related (restartNav_related
      (related.map (fun mission => { mission with navCmd := cmd }) rfl fun _ _ => rfl))

theorem resume_related (few : plan.jumps.length ≤ maxNumDoJumpCommands)
    (related : Related plan first second) :
    Related plan first.resume second.resume := by
  have states : second.state = first.state := related.field Mission.state fun _ _ => rfl
  have indices : second.navCmd.index = first.navCmd.index :=
    related.field (fun mission => mission.navCmd.index) fun _ _ => rfl
  have running : Related plan { first with state := .running } { second with state := .running } :=
    related.map (fun mission => { mission with state := .running }) rfl fun _ _ => rfl
  unfold resume
  rw [states, indices]
  split
  · exact start_related few related
  · split
    · exact start_related few running
    · exact restart_related few running
  · exact restart_related few related

section

variable (related : Related plan first second)

include related

theorem advanceCurrentDoCmd_related :
    Related plan first.advanceCurrentDoCmd second.advanceCurrentDoCmd := by
  obtain ⟨rfl, same, alike⟩ := related
  generalize second.jumpTracking = table at same alike
  subst same
  obtain ⟨found, left⟩ := getNextDoCmd_same first.plan first.nextDoIndex alike
  by_cases idle : first.state ≠ .running ∨ first.doCmdAllDone = true
  · rw [advanceCurrentDoCmd_idle idle, @advanceCurrentDoCmd_idle board (first.withTable table) idle]
    exact ⟨rfl, rfl, alike⟩
  · by_cases last : first.nextDoIndex ≥ first.plan.cmdTotal
    · rw [advanceCurrentDoCmd_last idle last,
        @advanceCurrentDoCmd_last board (first.withTable table) idle last]
      exact ⟨rfl, rfl, alike⟩
    · -- both searches find the same, and the tables they leave are alike
      cases next : (getNextDoCmd first.plan first.nextDoIndex first.jumpTracking).1 with
      | none =>
        rw [advanceCurrentDoCmd_none idle last next, @advanceCurrentDoCmd_none board
          (first.withTable table) idle last (found.symm.trans next)]
        exact ⟨rfl, rfl, left⟩
      | some cmd =>
        rw [advanceCurrentDoCmd_found idle last next, @advanceCurrentDoCmd_found board
          (first.withTable table) idle last cmd (found.symm.trans next)]
        exact ⟨rfl, rfl, left⟩

theorem updateNav_related (navComplete : Bool) :
    (first.updateNav navComplete).1 = (second.updateNav navComplete).1 ∧
      Related plan (first.updateNav navComplete).2 (second.updateNav navComplete).2 := by
  have loads : second.navCmdLoaded = first.navCmdLoaded :=
    related.field Mission.navCmdLoaded fun _ _ => rfl
  have navs : second.navCmd = first.navCmd := related.field Mission.navCmd fun _ _ => rfl
  have verified := related.map (call · (.verify first.navCmd)) rfl fun _ _ => rfl
  unfold updateNav
  rw [loads, navs]
  split
  · exact advanceCurrentNavCmd_related related
  · split
    · exact advanceCurrentNavCmd_related
        (verified.map (fun mission => { mission with navCmdLoaded := false }) rfl fun _ _ => rfl)
    · exact ⟨rfl, verified⟩

theorem updateDo_related (doComplete : Bool) :
    Related plan (first.updateDo doComplete) (second.updateDo doComplete) := by
  have loads : second.doCmdLoaded = first.doCmdLoaded :=
    related.field Mission.doCmdLoaded fun _ _ => rfl
  have acts : second.doCmd = first.doCmd := related.field Mission.doCmd fun _ _ => rfl
  have verified := related.map (call · (.verify first.doCmd)) rfl fun _ _ => rfl
  unfold updateDo
  rw [loads, acts]
  split
  · exact advanceCurrentDoCmd_related related
  · split
    · exact verified.map (fun mission => { mission with doCmdLoaded := false }) rfl fun _ _ => rfl
    · exact verified

theorem update_related (navComplete doComplete : Bool) :
    Related plan (first.update navComplete doComplete) (second.update navComplete doComplete) := by
  have plans : second.plan = first.plan := related.field Mission.plan fun _ _ => rfl
  have states : second.state = first.state := related.field Mission.state fun _ _ => rfl
  obtain ⟨advanced, after⟩ := updateNav_related related navComplete
  unfold update
  rw [plans, states]
  split
  · exact related
  · dsimp only
    rw [← advanced]
    split
    · exact updateDo_related after doComplete
    · exact after.map finish rfl fun _ _ => rfl

end

theorem prepare_related (few : plan.jumps.length ≤ maxNumDoJumpCommands)
    (related : Related plan first second) (index : Nat) :
    Related plan (first.prepare index) (second.prepare index) := by
  obtain ⟨rfl, same, alike⟩ := related
  generalize second.jumpTracking = table at same alike
  subst same
  by_cases again : index = 0 ∨ first.state = .complete
  · rw [prepare_again again, @prepare_again board (first.withTable table) index again]
    exact ⟨rfl, rfl, Alike.refl (Or.inr (initJumpTracking_tracked few))⟩
  · rw [prepare_onward again, @prepare_onward board (first.withTable table) index again]
    exact ⟨rfl, rfl, alike⟩

/-- Setting the current command of both comes back with the same answer, or with none. -/
theorem setCurrentCmd_related (few : plan.jumps.length ≤ maxNumDoJumpCommands)
    (related : Related plan first second) (fuel index : Nat) :
    Option.Rel (Related plan) ((first.setCurrentCmd fuel index).map Prod.snd)
      ((second.setCurrentCmd fuel index).map Prod.snd) := by
  have plans : second.plan = first.plan := related.field Mission.plan fun _ _ => rfl
  have states : (second.prepare index).state = (first.prepare index).state := by
    rw [prepare_state, prepare_state]
    exact related.field Mission.state fun _ _ => rfl
  have prepared := prepare_related few related index
  unfold setCurrentCmd
  rw [plans]
  split
  · exact .some related
  · dsimp only
    generalize (if index = 0 then 1 else index) = start
    rw [states]
    split
    · obtain ⟨found, searched⟩ := searchLoop_related (fun mission cmd => (loadCmd_frame mission cmd).1)
        loadCmd_blind fuel start prepared
      revert found searched
      cases searchLoop loadCmd fuel start (first.prepare index) with
      | mk outcome after =>
        cases searchLoop loadCmd fuel start (second.prepare index) with
        | mk outcome' after' =>
          rintro rfl searched
          match outcome with
          | none => exact .none
          | some true =>
            exact .some ((markAllDone_related searched).map
              (fun mission => { mission with state := .stopped }) rfl fun _ _ => rfl)
          | some false =>
            exact .some (searched.map (fun mission =>
              { mission with navCmd := { mission.navCmd with index := indexNone } }) rfl
              fun _ _ => rfl)
    · obtain ⟨found, searched⟩ := searchLoop_related (fun mission cmd => (startCmd_frame mission cmd).1)
        startCmd_blind fuel start prepared
      revert found searched
      cases searchLoop startCmd fuel start (first.prepare index) with
      | mk outcome after =>
        cases searchLoop startCmd fuel start (second.prepare index) with
        | mk outcome' after' =>
          rintro rfl searched
          match outcome with
          | none => exact .none
          | some true => exact .some (markAllDone_related searched)
          | some false => exact .some (searched.map finish rfl fun _ _ => rfl)

/-- A query changes nothing but the table, and in it nothing that a search sees. -/
theorem getNextNavCmd_related (related : Related plan first second) (index : Nat) :
    Related plan (first.getNextNavCmd index).2 second := by
  have looked := nextNavCmd_lookup first.plan index (related.stored ▸ related.alike.healthyFirst)
  rw [related.stored] at looked
  refine ⟨related.stored, ?_, ?_⟩
  · rw [related.same]
    rfl
  · show Alike plan.kind plan.jumps (nextNavCmd first.plan index first.jumpTracking).2
      second.jumpTracking
    rw [related.stored]
    exact looked.symm.trans related.alike

end Mission

/-! ### Runs with and without queries -/

/-- The calls that leave the stored mission alone. -/
def Call.keepsPlan : Call → Bool
  | .start | .stop | .resume | .reset | .update _ _ | .setCurrentCmd _ | .getNextNavCmd _
  | .startsWithTakeoffCmd _ | .getNextGroundCourseCd _ => true
  | .init _ | .clear | .truncate _ | .addCmd _ | .replaceCmd _ _ => false

/-- The calls that only ask. -/
def Call.asks : Call → Bool
  | .getNextNavCmd _ | .startsWithTakeoffCmd _ | .getNextGroundCourseCd _ => true
  | _ => false

theorem perform_asks {fuel : Nat} {call : Call} (asks : call.asks = true)
    {first second : Mission board} (related : Related plan first second) :
    ∃ next, perform fuel first call = some next ∧ Related plan next second := by
  cases call with
  | getNextNavCmd index => exact ⟨_, rfl, Mission.getNextNavCmd_related related index⟩
  | startsWithTakeoffCmd restarts =>
    obtain ⟨index, same⟩ := first.startsWithTakeoffCmd_mission restarts
    refine ⟨_, rfl, ?_⟩
    rw [same]
    exact Mission.getNextNavCmd_related related index
  | getNextGroundCourseCd defaultAngle =>
    obtain ⟨index, same⟩ := first.getNextGroundCourseCd_mission defaultAngle
    refine ⟨_, rfl, ?_⟩
    rw [same]
    exact Mission.getNextNavCmd_related related index
  | _ => exact nomatch asks

theorem perform_related (few : plan.jumps.length ≤ maxNumDoJumpCommands) {fuel : Nat} {call : Call}
    (fixed : call.keepsPlan = true) (acts : call.asks = false) {first second : Mission board}
    (related : Related plan first second) :
    Option.Rel (Related plan) (perform fuel first call) (perform fuel second call) := by
  cases call with
  | start => exact .some (Mission.start_related few related)
  | stop => exact .some (related.map Mission.stop rfl fun _ _ => rfl)
  | resume => exact .some (Mission.resume_related few related)
  | reset =>
    refine .some ⟨related.stored, ?_, Alike.refl (Or.inr (initJumpTracking_tracked few))⟩
    rw [related.same]
    rfl
  | update navComplete doComplete =>
    exact .some (Mission.update_related related navComplete doComplete)
  | setCurrentCmd index => exact Mission.setCurrentCmd_related few related fuel index
  | getNextNavCmd index => exact nomatch acts
  | startsWithTakeoffCmd restarts => exact nomatch acts
  | getNextGroundCourseCd defaultAngle => exact nomatch acts
  | _ => exact nomatch fixed

/-- What the vehicle and the ground station see of a mission: everything but the jump tracking
table. -/
def Mission.seen (mission : Mission board) : Mission board := mission.withTable []

/-- Queries are pure: for a stored mission with at most 15 jumps, a run of calls that leave the
mission alone and the same run without its queries both come back or both do not, and they end
with the same calls of the vehicle's functions and the same mission but for the jump tracking
table. -/
theorem queries_are_pure (plan : Plan board) (few : plan.jumps.length ≤ maxNumDoJumpCommands)
    (fuel : Nat) (calls : List Call) (fixed : ∀ call ∈ calls, call.keepsPlan = true) :
    (runSteps (perform fuel) (constructed plan) calls).map Mission.seen =
      (runSteps (perform fuel) (constructed plan) (calls.filter fun call => !call.asks)).map
        Mission.seen := by
  have healthy : Healthy plan.kind plan.jumps (constructed plan).jumpTracking :=
    Or.inl (constructed_stale plan)
  have start : Related plan (constructed plan) (constructed plan) :=
    ⟨rfl, rfl, Alike.refl healthy⟩
  have both : Option.Rel (Related plan) (runSteps (perform fuel) (constructed plan) calls)
      (runSteps (perform fuel) (constructed plan) (calls.filter fun call => !call.asks)) :=
    runSteps_hidden (Related plan) Call.asks
      (fun call member acts _ _ related => perform_related few (fixed call member) acts related)
      (fun _ _ asks _ _ related => perform_asks asks related) start
  refine rel_map both fun first second related => ?_
  rw [related.same]
  rfl

/-- Queries in a flight over a jump that is taken once. -/
def askingRun : List Call :=
  [.startsWithTakeoffCmd true, .start, .getNextNavCmd 2, .update true false,
    .getNextGroundCourseCd 0, .update true false]

theorem queries_are_pure_on_a_loop :
    (runSteps (perform 0) (constructed (uploaded [navCmd, jumpCmd 1 1, navCmd])) askingRun).map
        Mission.seen =
      (runSteps (perform 0) (constructed (uploaded [navCmd, jumpCmd 1 1, navCmd]))
        [.start, .update true false, .update true false]).map Mission.seen :=
  queries_are_pure (uploaded [navCmd, jumpCmd 1 1, navCmd]) (by decide +kernel) 0 askingRun
    (by decide)

end Urus.ApMission
