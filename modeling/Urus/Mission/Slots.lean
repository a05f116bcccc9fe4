/-
This file is about the two command slots. A loaded navigation slot holds a navigation
command, a loaded do slot holds a command that is neither that nor a jump, no jump is ever
started, and the do search does not start over at the first command while a navigation
command is being flown.

Everything that is loaded comes out of a search, and a search finds no jumps. The one
exception is `resume`, which reads the navigation command again from a list that may
have been edited since: as long as a navigation command still stands there, or nothing does,
the slots stay as they should be.
-/

import Urus.Mission.Walk
import Urus.Lib.Trace

namespace Urus.ApMission

variable {board : Board}

/-! ### What the slots hold -/

/-- The slots as the searches leave them. -/
structure SlotsLoaded (mission : Mission board) : Prop where
  nav : mission.navCmdLoaded = true →
    mission.navCmd.index ≠ indexNone ∧ isNavCmd mission.navCmd = true
  act : mission.doCmdLoaded = true → mission.doCmd.index ≠ indexNone ∧
    isNavCmd mission.doCmd = false ∧ mission.doCmd.id ≠ doJump
  started : ∀ cmd, .start cmd ∈ mission.calls → cmd.id ≠ doJump

/-- The slots as the calls leave them: a do search that goes on knows where it is. -/
structure SlotsTyped (mission : Mission board) : Prop extends SlotsLoaded mission where
  search : mission.navCmdLoaded = true → mission.doCmdLoaded = false →
    mission.doCmdAllDone = false → mission.doCmd.index ≠ indexNone

variable {cmd : MissionCommand}

theorem id_of_nav (nav : isNavCmd cmd = true) : cmd.id ≠ doJump := by
  intro jump
  rw [isNavCmd, jump, doJump_not_nav] at nav
  cases nav

theorem Mission.mem_call {mission : Mission board} {callback other : Callback}
    (member : other ∈ (mission.call callback).calls) :
    other ∈ mission.calls ∨ other = callback := by
  rcases List.mem_append.mp member with old | new
  · exact Or.inl old
  · exact Or.inr (List.mem_singleton.mp new)

theorem Mission.started_call {mission : Mission board}
    (started : ∀ cmd, .start cmd ∈ mission.calls → cmd.id ≠ doJump) (plain : cmd.id ≠ doJump) :
    ∀ other, .start other ∈ (mission.call (.start cmd)).calls → other.id ≠ doJump := by
  intro other member
  rcases Mission.mem_call member with old | new
  · exact started other old
  · cases new
    exact plain

theorem Mission.started_other {mission : Mission board} {callback : Callback}
    (quiet : ∀ cmd, .start cmd ≠ callback)
    (started : ∀ other, .start other ∈ mission.calls → other.id ≠ doJump) :
    ∀ other, .start other ∈ (mission.call callback).calls → other.id ≠ doJump := by
  intro other member
  rcases Mission.mem_call member with old | new
  · exact started other old
  · exact absurd new (quiet other)

theorem SlotsLoaded.verify {mission : Mission board} (loaded : SlotsLoaded mission)
    (cmd : MissionCommand) : SlotsLoaded (mission.call (.verify cmd)) where
  nav := loaded.nav
  act := loaded.act
  started := Mission.started_other (fun _ => nofun) loaded.started

theorem SlotsLoaded.track {mission : Mission board} (loaded : SlotsLoaded mission)
    (search : Search) : SlotsLoaded (mission.track search) :=
  ⟨loaded.nav, loaded.act, loaded.started⟩

theorem SlotsLoaded.startCmd {mission : Mission board} (loaded : SlotsLoaded mission)
    {cmd : MissionCommand} (plain : mission.plan.Plain cmd) :
    SlotsLoaded (mission.startCmd cmd) := by
  unfold Mission.startCmd
  split
  · rename_i nav
    exact ⟨fun _ => ⟨plain.index_ne_none, nav⟩, loaded.act, Mission.started_call loaded.started plain.plain⟩
  · rename_i act
    unfold Mission.startDo
    split
    · exact loaded
    · exact ⟨loaded.nav, fun _ => ⟨plain.index_ne_none, Bool.eq_false_iff.mpr act, plain.plain⟩,
        Mission.started_call loaded.started plain.plain⟩

theorem SlotsLoaded.loadCmd {mission : Mission board} (loaded : SlotsLoaded mission)
    {cmd : MissionCommand} (plain : mission.plan.Plain cmd) :
    SlotsLoaded (mission.loadCmd cmd) := by
  unfold Mission.loadCmd
  split
  · rename_i nav
    exact ⟨fun _ => ⟨plain.index_ne_none, nav⟩, loaded.act, loaded.started⟩
  · rename_i act
    split
    · exact loaded
    · exact ⟨loaded.nav, fun _ => ⟨plain.index_ne_none, Bool.eq_false_iff.mpr act, plain.plain⟩,
        loaded.started⟩

theorem SlotsLoaded.stopDo {mission : Mission board} (loaded : SlotsLoaded mission) :
    SlotsLoaded mission.stopDo :=
  ⟨loaded.nav, (fun impossible => nomatch impossible), loaded.started⟩

/-- What is not loaded does not matter. -/
theorem SlotsLoaded.unloadNav {mission : Mission board} (loaded : SlotsLoaded mission) :
    SlotsLoaded { mission with navCmdLoaded := false } :=
  ⟨(fun impossible => nomatch impossible), loaded.act, loaded.started⟩

/-- A successful search leaves a do command or nothing to search for. -/
theorem Mission.markAllDone_done (mission : Mission board) :
    mission.markAllDone.doCmdLoaded = false → mission.markAllDone.doCmdAllDone = false → False := by
  unfold Mission.markAllDone
  split
  · rename_i busy
    intro idle
    exact nomatch busy.symm.trans idle
  · intro _ impossible
    exact nomatch impossible

theorem SlotsLoaded.markAllDone {mission : Mission board} (loaded : SlotsLoaded mission) :
    SlotsTyped mission.markAllDone := by
  refine ⟨?_, fun _ idle undone => (mission.markAllDone_done idle undone).elim⟩
  unfold Mission.markAllDone
  split
  · exact loaded
  · exact ⟨loaded.nav, loaded.act, loaded.started⟩

theorem SlotsLoaded.finish {mission : Mission board} (loaded : SlotsLoaded mission)
    (unloaded : mission.navCmdLoaded = false) : SlotsTyped mission.finish where
  nav := loaded.nav
  act := loaded.act
  started := Mission.started_other (fun _ => nofun) loaded.started
  search := fun busy => nomatch unloaded.symm.trans busy

theorem SlotsTyped.edit {mission : Mission board} (typed : SlotsTyped mission)
    (plan : Plan board) (table : List JumpTracking) :
    SlotsTyped { mission with plan := plan, jumpTracking := table } :=
  ⟨⟨typed.nav, typed.act, typed.started⟩, typed.search⟩

/-! ### The calls -/

namespace Mission

theorem searchLoop_unloaded {load : Mission board → MissionCommand → Mission board}
    (acts : ∀ mission cmd, isNavCmd cmd = false →
      (load mission cmd).navCmdLoaded = mission.navCmdLoaded) (fuel index : Nat)
    (mission : Mission board) (failed : (searchLoop load fuel index mission).1 ≠ some true) :
    (searchLoop load fuel index mission).2.navCmdLoaded = mission.navCmdLoaded := by
  induction fuel generalizing index mission with
  | zero => rfl
  | succ fuel inductionHypothesis =>
    cases next : (getNextCmd mission.plan index true mission.jumpTracking).cmd with
    | none =>
      rw [searchLoop_none fuel next]
      rfl
    | some cmd =>
      cases nav : isNavCmd cmd with
      | true =>
        rw [searchLoop_nav fuel next nav] at failed
        exact absurd rfl failed
      | false =>
        rw [searchLoop_act fuel next nav] at failed ⊢
        rw [inductionHypothesis _ _ failed, acts _ _ nav]
        rfl

variable {mission : Mission board}

theorem loadCmd_act {cmd : MissionCommand} (act : isNavCmd cmd = false) :
    (mission.loadCmd cmd).navCmdLoaded = mission.navCmdLoaded := by
  rw [loadCmd, if_neg (Bool.eq_false_iff.mp act)]
  split <;> rfl

theorem startCmd_act {cmd : MissionCommand} (act : isNavCmd cmd = false) :
    (mission.startCmd cmd).navCmdLoaded = mission.navCmdLoaded := by
  rw [startCmd, if_neg (Bool.eq_false_iff.mp act), startDo]
  split <;> rfl

theorem advanceSearch_loaded (loaded : SlotsLoaded mission) (index : Nat)
    (idle : mission.doCmdLoaded = false) (unloaded : mission.navCmdLoaded = false) :
    SlotsLoaded (advanceSearch mission index).2 ∧ ((advanceSearch mission index).1 = false →
      (advanceSearch mission index).2.navCmdLoaded = false) := by
  rw [advanceSearch_eq mission index idle]
  refine ⟨searchLoop_rule SlotsLoaded (fun _ _ loaded => loaded.track _)
    (fun _ _ plain loaded => loaded.startCmd plain) 257 index mission loaded, fun failed => ?_⟩
  refine (searchLoop_unloaded (fun _ _ => startCmd_act) 257 index mission ?_).trans unloaded
  intro found
  rw [found] at failed
  exact nomatch failed

theorem advanceCurrentNavCmd_typed (loaded : SlotsLoaded mission)
    (running : mission.state = .running) (unloaded : mission.navCmdLoaded = false) :
    (mission.advanceCurrentNavCmd.1 = true → SlotsTyped mission.advanceCurrentNavCmd.2) ∧
      (mission.advanceCurrentNavCmd.1 = false → SlotsTyped mission.advanceCurrentNavCmd.2.finish) := by
  obtain ⟨searched, without⟩ :=
    advanceSearch_loaded loaded.stopDo mission.nextNavIndex rfl unloaded
  unfold advanceCurrentNavCmd
  rw [if_neg (not_not.mpr running), if_neg (Bool.eq_false_iff.mp unloaded)]
  dsimp only
  split
  · exact ⟨fun _ => searched.markAllDone, fun impossible => nomatch impossible⟩
  · rename_i failed
    exact ⟨(fun impossible => nomatch impossible),
      fun _ => searched.finish (without (Bool.eq_false_iff.mpr failed))⟩

theorem reset_typed (started : ∀ cmd, .start cmd ∈ mission.calls → cmd.id ≠ doJump) :
    SlotsTyped mission.reset :=
  ⟨⟨(fun impossible => nomatch impossible), (fun impossible => nomatch impossible), started⟩,
    fun impossible => nomatch impossible⟩

theorem start_typed (started : ∀ cmd, .start cmd ∈ mission.calls → cmd.id ≠ doJump) :
    SlotsTyped mission.start := by
  have before : SlotsTyped { mission with state := .running }.reset := reset_typed started
  obtain ⟨advanced, failed⟩ := advanceCurrentNavCmd_typed before.toSlotsLoaded rfl rfl
  unfold start
  dsimp only
  split
  · exact advanced (by assumption)
  · exact failed (Bool.eq_false_iff.mpr (by assumption))

/-- The navigation command that `resume` reads is still one. -/
def ResumesNav (mission : Mission board) : Prop :=
  mission.state ≠ .complete → mission.navCmdLoaded = true →
    mission.navCmd.index < mission.plan.cmdTotal → mission.plan.kind mission.navCmd.index = .nav

theorem readCmdFromStorage_unlisted {plan : Plan board} {index : Nat} {temp cmd : MissionCommand}
    (beyond : ¬ index < plan.cmdTotal) (read : readCmdFromStorage plan index temp = some cmd) :
    isNavCmd cmd = true := by
  simp only [readCmdFromStorage] at read
  by_cases home : index = 0
  · rw [if_neg (fun both => both.2 home), if_pos home] at read
    rw [← Option.some.inj read]
    rfl
  · rw [if_pos ⟨not_lt.mp beyond, home⟩] at read
    cases read

theorem restart_nav (loaded : SlotsLoaded mission)
    (still : mission.navCmdLoaded = true → mission.navCmd.index < mission.plan.cmdTotal → mission.plan.kind mission.navCmd.index = .nav)
    {cmd : MissionCommand}
    (read : readCmdFromStorage mission.plan mission.navCmd.index mission.navCmd = some cmd)
    (busy : mission.navCmdLoaded = true) : cmd.index ≠ indexNone ∧ isNavCmd cmd = true := by
  have same := readCmdFromStorage_index _ _ _ _ read
  refine ⟨same ▸ (loaded.nav busy).1, ?_⟩
  by_cases listed : mission.navCmd.index < mission.plan.cmdTotal
  · rw [← cmd.kind_nav_iff mission.plan.cmdTotal, ← mission.plan.kind_of_read listed read]
    exact still busy listed
  · exact readCmdFromStorage_unlisted listed read

section

variable (typed : SlotsTyped mission)

include typed

theorem restartNav_typed :
    SlotsTyped mission.restartNav := by
  unfold restartNav
  split
  · rename_i busy
    exact ⟨⟨typed.nav, typed.act, started_call typed.started (id_of_nav (typed.nav busy).2)⟩,
      typed.search⟩
  · exact typed

theorem restartDo_typed :
    SlotsTyped mission.restartDo := by
  unfold restartDo
  split
  · rename_i busy
    exact ⟨⟨typed.nav, typed.act, started_call typed.started (typed.act busy.1).2.2⟩, typed.search⟩
  · exact typed

theorem restart_typed
    (still : mission.navCmdLoaded = true → mission.navCmd.index < mission.plan.cmdTotal → mission.plan.kind mission.navCmd.index = .nav)
    : SlotsTyped mission.restart := by
  unfold restart
  cases read : readCmdFromStorage mission.plan mission.navCmd.index mission.navCmd with
  | none => exact start_typed typed.started
  | some cmd =>
    have again : SlotsTyped { mission with navCmd := cmd } :=
      ⟨⟨restart_nav typed.toSlotsLoaded still read, typed.act, typed.started⟩, typed.search⟩
    exact restartDo_typed (restartNav_typed again)

theorem resume_typed (still : mission.ResumesNav) :
    SlotsTyped mission.resume := by
  unfold resume
  split
  · exact start_typed typed.started
  · rename_i stopped
    have incomplete : mission.state ≠ .complete := by
      rw [stopped]
      decide
    split
    · exact start_typed typed.started
    · exact restart_typed ⟨⟨typed.nav, typed.act, typed.started⟩, typed.search⟩
        (still incomplete)
  · rename_i running
    exact restart_typed typed (still (by rw [running]; decide))

/-- The first half of an update, which ends in the state in which the do command is run. -/
theorem updateNav_typed (running : mission.state = .running)
    (navComplete : Bool) :
    ((mission.updateNav navComplete).1 = true → SlotsTyped (mission.updateNav navComplete).2) ∧
      ((mission.updateNav navComplete).1 = false →
        SlotsTyped (mission.updateNav navComplete).2.finish) := by
  unfold updateNav
  split
  · rename_i idle
    have unloaded : mission.navCmdLoaded = false := by
      rw [← Bool.not_eq_true]
      intro busy
      rcases idle with other | unset
      · exact other busy
      · exact (typed.nav busy).1 unset
    exact advanceCurrentNavCmd_typed typed.toSlotsLoaded running unloaded
  · split
    · exact advanceCurrentNavCmd_typed (typed.toSlotsLoaded.verify _).unloadNav running rfl
    · have verified := typed.toSlotsLoaded.verify mission.navCmd
      exact ⟨fun _ => ⟨verified, typed.search⟩, fun impossible => nomatch impossible⟩

theorem advanceCurrentDoCmd_typed :
    SlotsTyped mission.advanceCurrentDoCmd := by
  have allDone : ∀ table, SlotsTyped
      { mission with jumpTracking := table, doCmdAllDone := true } := fun table =>
    ⟨⟨typed.nav, typed.act, typed.started⟩, fun _ _ impossible => nomatch impossible⟩
  unfold advanceCurrentDoCmd
  split
  · exact typed
  · split
    · exact allDone mission.jumpTracking
    · dsimp only
      split
      · rename_i cmd found
        obtain ⟨plain, act⟩ := getNextDoCmd_plain found
        exact ⟨⟨typed.nav, fun _ => ⟨plain.index_ne_none, act, plain.plain⟩,
          started_call typed.started plain.plain⟩, fun _ impossible => nomatch impossible⟩
      · exact allDone _

theorem updateDo_typed (doComplete : Bool) :
    SlotsTyped (mission.updateDo doComplete) := by
  unfold updateDo
  split
  · exact advanceCurrentDoCmd_typed typed
  · rename_i busy
    have verified := typed.toSlotsLoaded.verify mission.doCmd
    split
    · have named := (typed.act (by simpa using busy)).1
      exact ⟨⟨verified.nav, (fun impossible => nomatch impossible), verified.started⟩,
        fun _ _ _ => named⟩
    · exact ⟨verified, typed.search⟩

theorem update_typed (navComplete doComplete : Bool) :
    SlotsTyped (mission.update navComplete doComplete) := by
  unfold update
  split
  · exact typed
  · rename_i active
    have running : mission.state = .running := not_not.mp (not_or.mp active).1
    obtain ⟨advanced, failed⟩ := updateNav_typed typed running navComplete
    dsimp only
    split
    · exact updateDo_typed (advanced (by assumption)) doComplete
    · exact failed (Bool.eq_false_iff.mpr (by assumption))

theorem prepare_typed (index : Nat) :
    SlotsLoaded (mission.prepare index) ∧ (mission.prepare index).navCmdLoaded = false := by
  have stopped := typed.toSlotsLoaded.stopDo.unloadNav
  simp only [prepare]
  split
  · exact ⟨⟨stopped.nav, stopped.act, stopped.started⟩, rfl⟩
  · exact ⟨stopped, rfl⟩

theorem setCurrentCmd_typed {fuel index : Nat}
    {result : Bool × Mission board} (returned : mission.setCurrentCmd fuel index = some result) :
    SlotsTyped result.2 := by
  obtain ⟨loaded, unloaded⟩ := prepare_typed typed index
  rcases setCurrentCmd_cases returned with rfl | ⟨start, after, ends⟩
  · exact typed
  · have loads := searchLoop_rule SlotsLoaded (fun _ _ loaded => loaded.track _)
      (fun _ _ plain loaded => loaded.loadCmd plain) fuel start (mission.prepare index) loaded
    have starts := searchLoop_rule SlotsLoaded (fun _ _ loaded => loaded.track _)
      (fun _ _ plain loaded => loaded.startCmd plain) fuel start (mission.prepare index) loaded
    rcases ends with ⟨found, rfl⟩ | ⟨failed, rfl⟩ | ⟨found, rfl⟩ | ⟨failed, rfl⟩
    · rw [found] at loads
      have marked := SlotsLoaded.markAllDone loads
      exact ⟨⟨marked.nav, marked.act, marked.started⟩,
        fun _ idle undone => (after.markAllDone_done idle undone).elim⟩
    · have without := searchLoop_unloaded (fun _ _ => loadCmd_act) fuel start
        (mission.prepare index)
      rw [failed] at loads without
      have idle : after.navCmdLoaded = false :=
        (without (fun impossible => nomatch impossible)).trans unloaded
      exact ⟨⟨(fun busy => nomatch idle.symm.trans busy), loads.act, loads.started⟩,
        fun busy => nomatch idle.symm.trans busy⟩
    · rw [found] at starts
      exact SlotsLoaded.markAllDone starts
    · have without := searchLoop_unloaded (fun _ _ => startCmd_act) fuel start
        (mission.prepare index)
      rw [failed] at starts without
      exact SlotsLoaded.finish starts
        ((without (fun impossible => nomatch impossible)).trans unloaded)

theorem clear_typed :
    SlotsTyped mission.clear.2 := by
  unfold clear
  split
  · exact typed
  · exact ⟨⟨(fun impossible => nomatch impossible), (fun impossible => nomatch impossible),
      typed.started⟩, fun impossible => nomatch impossible⟩

theorem init_typed (clearMission : Bool) :
    SlotsTyped (mission.init clearMission) := by
  have checked : SlotsTyped mission.checkEepromVersion := by
    unfold checkEepromVersion
    split
    · exact typed
    · split
      · exact (clear_typed typed).edit _ _
      · exact clear_typed typed
  unfold init
  split
  · exact clear_typed checked
  · exact checked

theorem truncate_typed (index : Nat) :
    SlotsTyped (mission.truncate index) := by
  unfold truncate
  split
  · exact typed.edit _ _
  · exact typed

theorem addCmd_typed (cmd : MissionCommand) :
    SlotsTyped (mission.addCmd cmd).2.2 := by
  unfold addCmd
  split
  · exact typed.edit _ _
  · exact typed

theorem replaceCmd_typed (index : Nat) (cmd : MissionCommand) :
    SlotsTyped (mission.replaceCmd index cmd).2 := by
  unfold replaceCmd
  split
  · exact typed
  · exact typed.edit _ _

end

theorem perform_typed {fuel : Nat} {mission next : Mission board} {call : Call}
    (typed : SlotsTyped mission) (still : call = .resume → mission.ResumesNav)
    (returned : perform fuel mission call = some next) : SlotsTyped next := by
  cases call with
  | setCurrentCmd index =>
    obtain ⟨result, found, same⟩ := Option.map_eq_some_iff.mp returned
    exact same ▸ setCurrentCmd_typed typed found
  | init clearMission => exact Option.some.inj returned ▸ init_typed typed clearMission
  | start => exact Option.some.inj returned ▸ start_typed typed.started
  | stop =>
    rw [← Option.some.inj returned]
    exact ⟨⟨typed.nav, typed.act, typed.started⟩, typed.search⟩
  | resume => exact Option.some.inj returned ▸ resume_typed typed (still rfl)
  | reset => exact Option.some.inj returned ▸ reset_typed typed.started
  | clear => exact Option.some.inj returned ▸ clear_typed typed
  | truncate index => exact Option.some.inj returned ▸ truncate_typed typed index
  | update navComplete doComplete =>
    exact Option.some.inj returned ▸ update_typed typed navComplete doComplete
  | addCmd cmd => exact Option.some.inj returned ▸ addCmd_typed typed cmd
  | replaceCmd index cmd => exact Option.some.inj returned ▸ replaceCmd_typed typed index cmd
  | getNextNavCmd index => exact Option.some.inj returned ▸ typed.edit _ _
  | startsWithTakeoffCmd restarts =>
    obtain ⟨index, same⟩ := mission.startsWithTakeoffCmd_mission restarts
    rw [← Option.some.inj returned, same]
    exact typed.edit _ _
  | getNextGroundCourseCd defaultAngle =>
    obtain ⟨index, same⟩ := mission.getNextGroundCourseCd_mission defaultAngle
    rw [← Option.some.inj returned, same]
    exact typed.edit _ _

theorem restartNav_slot (mission : Mission board) :
    mission.restartNav.navCmd = mission.navCmd ∧
      mission.restartNav.navCmdLoaded = mission.navCmdLoaded := by
  unfold restartNav
  split <;> exact ⟨rfl, rfl⟩

theorem restartDo_slot (mission : Mission board) :
    mission.restartDo.navCmd = mission.navCmd ∧
      mission.restartDo.navCmdLoaded = mission.navCmdLoaded := by
  unfold restartDo
  split <;> exact ⟨rfl, rfl⟩

/-- A navigation slot that is typed after it was read again holds what is stored there. -/
theorem restart_needs {mission : Mission board} (busy : mission.navCmdLoaded = true)
    (listed : mission.navCmd.index < mission.plan.cmdTotal)
    (typed : SlotsTyped mission.restart) : mission.plan.kind mission.navCmd.index = .nav := by
  obtain ⟨cmd, -, read, -⟩ :=
    readCmdFromStorage_listed mission.plan listed mission.navCmd mission.navCmd
  unfold restart at typed
  rw [read] at typed
  have slot := typed.nav
  dsimp only at slot
  rw [(restartDo_slot _).1, (restartDo_slot _).2, (restartNav_slot _).1, (restartNav_slot _).2] at slot
  rw [mission.plan.kind_of_read listed read, cmd.kind_nav_iff]
  exact (slot busy).2

theorem resume_needs (typed : SlotsTyped mission.resume) :
    mission.ResumesNav := by
  intro incomplete busy listed
  unfold resume at typed
  cases current : mission.state with
  | complete => exact absurd current incomplete
  | stopped =>
    rw [current] at typed
    dsimp only at typed
    rw [if_neg (mission.plan.index_ne_none listed)] at typed
    exact @restart_needs board { mission with state := .running } busy listed typed
  | running =>
    rw [current] at typed
    exact restart_needs busy listed typed

end Mission

/-! ### Whole runs -/

theorem constructed_typed (plan : Plan board) : SlotsTyped (constructed plan) :=
  ⟨⟨(fun impossible => nomatch impossible), (fun impossible => nomatch impossible),
    fun _ member => absurd member List.not_mem_nil⟩, fun impossible => nomatch impossible⟩

/-- What the slots need of a call. -/
def ResumesNavAt (mission : Mission board) (call : Call) : Prop :=
  call = .resume → mission.ResumesNav

instance (mission : Mission board) : Decidable mission.ResumesNav :=
  inferInstanceAs (Decidable (_ → _ → _ → _))

instance (mission : Mission board) (call : Call) : Decidable (ResumesNavAt mission call) :=
  inferInstanceAs (Decidable (_ → _))

/-- Along a run that comes back the slots are typed in every state exactly if every `resume` with
a loaded navigation command finds a navigation command, or nothing, where that command stands. In
a state whose slots are typed they are also typed where an update starts its do search. -/
theorem slots_typed_iff {fuel : Nat} (plan : Plan board) (calls : List Call)
    {final : Mission board} (reached : runSteps (perform fuel) (constructed plan) calls = some final) :
    ((∀ count mission,
        runSteps (perform fuel) (constructed plan) (calls.take count) = some mission →
        SlotsTyped mission ∧ (mission.state = .running → ∀ navComplete,
          (mission.updateNav navComplete).1 = true →
            SlotsTyped (mission.updateNav navComplete).2)) ↔
      Meets (perform fuel) ResumesNavAt (constructed plan) calls) := by
  constructor
  · intro along
    refine meets_of_kept SlotsTyped ?_ reached fun count mission got => (along count mission got).1
    rintro mission call next - stepped typed rfl
    rw [← Option.some.inj stepped] at typed
    exact Mission.resume_needs typed
  · intro meets count mission got
    have typed : SlotsTyped mission := by
      refine runSteps_keeps SlotsTyped (fun _ _ _ typed still stepped =>
        Mission.perform_typed typed still stepped) (constructed_typed plan) ?_ got
      rw [← List.take_append_drop count calls] at meets
      exact meets.append_left
    exact ⟨typed, fun running navComplete => (Mission.updateNav_typed typed running navComplete).1⟩

/-- A run over two waypoints with a do command between them, stopped and resumed on the way. -/
def resumedRun : List Call := [.start, .update false false, .stop, .resume, .update true true]

theorem slots_typed_resumed :
    Meets (perform 0) ResumesNavAt (constructed (uploaded [navCmd, actCmd, navCmd])) resumedRun ∧
      ∀ count mission, runSteps (perform 0) (constructed (uploaded [navCmd, actCmd, navCmd]))
          (resumedRun.take count) = some mission →
        SlotsTyped mission ∧ (mission.state = .running → ∀ navComplete,
          (mission.updateNav navComplete).1 = true →
            SlotsTyped (mission.updateNav navComplete).2) := by
  have meets : Meets (perform 0) ResumesNavAt (constructed (uploaded [navCmd, actCmd, navCmd]))
      resumedRun := by decide +kernel
  obtain ⟨final, reached⟩ : ∃ final, runSteps (perform 0)
      (constructed (uploaded [navCmd, actCmd, navCmd])) resumedRun = some final := ⟨_, rfl⟩
  exact ⟨meets, (slots_typed_iff _ _ reached).mpr meets⟩

/-- A waypoint is replaced by a jump while it is flown, and the mission is resumed: the jump is in
the navigation slot, and it is started. -/
theorem slots_untyped_after_replace :
    ∃ mission : Mission smallBoard,
      runSteps (perform 0) (constructed (uploaded [navCmd, navCmd]))
        [.start, .replaceCmd 1 (jumpCmd 2 1), .resume] = some mission ∧
      mission.navCmdLoaded = true ∧ isNavCmd mission.navCmd = false ∧
      .start { jumpCmd 2 1 with index := 1 } ∈ mission.calls := by
  refine ⟨_, rfl, ?_, ?_, ?_⟩ <;> decide +kernel

end Urus.ApMission
