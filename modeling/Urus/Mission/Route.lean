/-
This file is about the way from one navigation command to the next. A search loop calls
for the next command again and again, behind every do command that it finds. Over the
program of a mission that is a walk behind a walk: `route`. It ends at a navigation
command, or it does not reach one.

A search loop leaves the table and the record of its route, and it says whether the route
reached a navigation command. The search of `advance_current_nav_cmd` is such a loop with
a budget, and the command that it loads is the one that the route reached.
-/

import Urus.Mission.Jumps

namespace Urus.ApMission

variable {board : Board}

/-! ### Routes over a program -/

/-- The outcome of a route: the navigation command that it reached, the table and the record. -/
structure Route where
  reached : Option Nat
  table : List JumpTracking
  visits : List Visit

/-- A route that went through some more commands before. -/
def Route.after (route : Route) (visits : List Visit) : Route :=
  { route with visits := visits ++ route.visits }

/-- The way to the next navigation command, over at most as many do commands as the budget
allows. -/
def route (program : Nat → Kind) : (budget index : Nat) → (table : List JumpTracking) → Route
  | 0, _, table => ⟨none, table, []⟩
  | budget + 1, index, table =>
    let next := walk program true 64 index indexNone table
    match next.found with
    | none => ⟨none, next.table, next.visits⟩
    | some reached =>
      if program reached = .act then
        (route program budget (reached + 1) next.table).after next.visits
      else ⟨some reached, next.table, next.visits⟩

attribute [local simp] route

section Steps

variable {program : Nat → Kind} (budget : Nat) {index : Nat} {table : List JumpTracking}

theorem route_none (next : (walk program true 64 index indexNone table).found = none) :
    route program (budget + 1) index table =
      ⟨none, (walk program true 64 index indexNone table).table,
        (walk program true 64 index indexNone table).visits⟩ := by
  simp [next]

variable {reached : Nat}

theorem route_nav (next : (walk program true 64 index indexNone table).found = some reached)
    (nav : program reached = .nav) :
    route program (budget + 1) index table =
      ⟨some reached, (walk program true 64 index indexNone table).table,
        (walk program true 64 index indexNone table).visits⟩ := by
  simp [next, nav]

theorem route_act (next : (walk program true 64 index indexNone table).found = some reached)
    (act : program reached = .act) :
    route program (budget + 1) index table =
      (route program budget (reached + 1)
        (walk program true 64 index indexNone table).table).after
          (walk program true 64 index indexNone table).visits := by
  simp [next, act]

end Steps

variable {program : Nat → Kind} {reached : Nat}

theorem SearchKeeps.route {holds : List JumpTracking → List Visit → Prop}
    (keeps : SearchKeeps program holds) (budget index : Nat) {table : List JumpTracking}
    {visits : List Visit} (kept : holds table visits) :
    holds (route program budget index table).table
      (visits ++ (route program budget index table).visits) := by
  induction budget generalizing index table visits with
  | zero =>
    rw [ApMission.route, List.append_nil]
    exact kept
  | succ budget inductionHypothesis =>
    have walked := keeps.walk 64 index indexNone kept
    cases next : (ApMission.walk program true 64 index indexNone table).found with
    | none =>
      rw [route_none budget next]
      exact walked
    | some reached =>
      rcases walk_found _ _ _ _ _ _ next with nav | act
      · rw [route_nav budget next nav]
        exact walked
      · have onward := inductionHypothesis (reached + 1) walked
        rw [route_act budget next act]
        rwa [List.append_assoc] at onward

theorem route_reached (budget index : Nat) (table : List JumpTracking)
    (ends : (route program budget index table).reached = some reached) :
    program reached = .nav := by
  induction budget generalizing index table with
  | zero => exact nomatch ends
  | succ budget inductionHypothesis =>
    cases next : (walk program true 64 index indexNone table).found with
    | none =>
      rw [route_none budget next] at ends
      exact nomatch ends
    | some found =>
      rcases walk_found _ _ _ _ _ _ next with nav | act
      · rw [route_nav budget next nav] at ends
        exact Option.some.inj ends ▸ nav
      · rw [route_act budget next act] at ends
        exact inductionHypothesis _ _ ends

/-! ### The search loops follow the route -/

/-- A way to load a command that touches neither the stored mission nor the table and the
record. -/
def Quiet (load : Mission board → MissionCommand → Mission board) : Prop :=
  ∀ mission cmd, (load mission cmd).plan = mission.plan ∧
    (load mission cmd).jumpTracking = mission.jumpTracking ∧
    (load mission cmd).visits = mission.visits ∧ (load mission cmd).state = mission.state

theorem startCmd_quiet : Quiet (@Mission.startCmd board) := Mission.startCmd_frame

/-- The end of a search loop: it has the table and the record of a route, and it says whether the
route reached a navigation command. -/
structure Mission.Follows (before after : Mission board) (found : Bool) (way : Route) : Prop where
  plan : after.plan = before.plan
  state : after.state = before.state
  table : after.jumpTracking = way.table
  visits : after.visits = before.visits ++ way.visits
  found : found = way.reached.isSome

theorem Mission.searchLoop_follows {load : Mission board → MissionCommand → Mission board}
    (quiet : Quiet load) (fuel index : Nat) (mission : Mission board) :
    mission.Follows (searchLoop load fuel index mission).2
      ((searchLoop load fuel index mission).1.getD false)
      (route mission.plan.kind fuel index mission.jumpTracking) := by
  induction fuel generalizing index mission with
  | zero =>
    refine ⟨rfl, rfl, rfl, ?_, rfl⟩
    rw [route, List.append_nil]
    rfl
  | succ fuel inductionHypothesis =>
    have follows := getNextCmd_follows mission.plan index true mission.jumpTracking
    have tracked : ∀ search : Search, (mission.track search).visits =
        mission.visits ++ search.visits := fun _ => rfl
    cases next : (getNextCmd mission.plan index true mission.jumpTracking).cmd with
    | none =>
      have ended : (walk mission.plan.kind true 64 index indexNone mission.jumpTracking).found =
          none := by rw [← follows.index, next]; rfl
      rw [searchLoop_none fuel next, route_none fuel ended, ← follows.table, ← follows.visits]
      exact ⟨rfl, rfl, rfl, rfl, rfl⟩
    | some cmd =>
      have reached : (walk mission.plan.kind true 64 index indexNone mission.jumpTracking).found =
          some cmd.index := by rw [← follows.index, next]; rfl
      obtain ⟨stored, table, visits, state⟩ := quiet
        (mission.track (getNextCmd mission.plan index true mission.jumpTracking)) cmd
      cases nav : isNavCmd cmd with
      | true =>
        rw [searchLoop_nav fuel next nav,
          route_nav fuel reached ((getNextCmd_plain next).nav_iff.mpr nav), ← follows.table,
          ← follows.visits]
        exact ⟨stored, state, table, visits, rfl⟩
      | false =>
        have onward := inductionHypothesis (cmd.index + 1)
          (load (mission.track (getNextCmd mission.plan index true mission.jumpTracking)) cmd)
        rw [stored, table] at onward
        rw [searchLoop_act fuel next nav,
          route_act fuel reached ((getNextCmd_plain next).act_iff.mpr nav), ← follows.table,
          ← follows.visits]
        refine ⟨onward.plan.trans stored, onward.state.trans state, onward.table, ?_, onward.found⟩
        rw [onward.visits, visits, tracked, List.append_assoc]
        rfl

theorem Mission.advanceSearch_follows (mission : Mission board) (index : Nat)
    (unloaded : mission.doCmdLoaded = false) :
    mission.Follows (advanceSearch mission index).2 (advanceSearch mission index).1
      (route mission.plan.kind 257 index mission.jumpTracking) := by
  rw [advanceSearch_eq mission index unloaded]
  exact searchLoop_follows startCmd_quiet 257 index mission

theorem Mission.searchLoop_navCmd (fuel index : Nat) (mission : Mission board)
    (ends : (route mission.plan.kind fuel index mission.jumpTracking).reached = some reached) :
    (searchLoop startCmd fuel index mission).2.navCmd.index = reached ∧
      (searchLoop startCmd fuel index mission).2.navCmdLoaded = true := by
  induction fuel generalizing index mission with
  | zero => exact nomatch ends
  | succ fuel inductionHypothesis =>
    have follows := getNextCmd_follows mission.plan index true mission.jumpTracking
    cases next : (getNextCmd mission.plan index true mission.jumpTracking).cmd with
    | none =>
      have ended : (walk mission.plan.kind true 64 index indexNone mission.jumpTracking).found =
          none := by rw [← follows.index, next]; rfl
      rw [route_none fuel ended] at ends
      exact nomatch ends
    | some cmd =>
      have found : (walk mission.plan.kind true 64 index indexNone mission.jumpTracking).found =
          some cmd.index := by rw [← follows.index, next]; rfl
      cases nav : isNavCmd cmd with
      | true =>
        rw [route_nav fuel found ((getNextCmd_plain next).nav_iff.mpr nav)] at ends
        rw [searchLoop_nav fuel next nav, startCmd, if_pos nav]
        exact ⟨Option.some.inj ends, rfl⟩
      | false =>
        obtain ⟨stored, table, -⟩ := startCmd_quiet
          (mission.track (getNextCmd mission.plan index true mission.jumpTracking)) cmd
        rw [searchLoop_act fuel next nav]
        refine inductionHypothesis _ _ ?_
        rw [stored, table]
        rw [route_act fuel found ((getNextCmd_plain next).act_iff.mpr nav), ← follows.table] at ends
        exact ends

/-! ### The update that completes a navigation command -/

namespace Mission

theorem markAllDone_nav (mission : Mission board) :
    mission.markAllDone.state = mission.state ∧ mission.markAllDone.navCmd = mission.navCmd ∧
      mission.markAllDone.navCmdLoaded = mission.navCmdLoaded := by
  unfold markAllDone
  split <;> exact ⟨rfl, rfl, rfl⟩

/-- The search of `advance_current_nav_cmd`, with its first do command given up. -/
def advanced (mission : Mission board) : Mission board :=
  (searchLoop startCmd 257 mission.nextNavIndex mission.stopDo).2

/-- The way that `advance_current_nav_cmd` takes. -/
def way (mission : Mission board) : Route :=
  route mission.plan.kind 257 mission.nextNavIndex mission.jumpTracking

theorem advanced_follows (mission : Mission board) :
    mission.Follows mission.advanced mission.way.reached.isSome mission.way := by
  have follows := searchLoop_follows startCmd_quiet 257 mission.nextNavIndex mission.stopDo
  exact ⟨follows.plan, follows.state, follows.table, follows.visits, rfl⟩

variable {mission : Mission board}

theorem advanceCurrentNavCmd_eq (running : mission.state = .running)
    (unloaded : mission.navCmdLoaded = false) :
    mission.advanceCurrentNavCmd = (mission.way.reached.isSome,
      if mission.way.reached.isSome then mission.advanced.markAllDone else mission.advanced) := by
  have found := (advanceSearch_follows mission.stopDo mission.nextNavIndex rfl).found
  have after : (advanceSearch mission.stopDo mission.nextNavIndex).2 = mission.advanced := by
    rw [advanceSearch_eq mission.stopDo mission.nextNavIndex rfl]
    rfl
  have same : advanceSearch mission.stopDo mission.nextNavIndex =
      (mission.way.reached.isSome, mission.advanced) := Prod.ext found after
  rw [advanceCurrentNavCmd, if_neg (not_not.mpr running), if_neg (by rw [unloaded]; decide), same]
  dsimp only
  cases mission.way.reached <;> rfl

/-- The mission whose navigation command was just found to be complete. -/
def completed (mission : Mission board) : Mission board :=
  { mission.call (.verify mission.navCmd) with navCmdLoaded := false }

section Complete

variable {mission : Mission board} (running : mission.state = .running)
  (loaded : mission.navCmdLoaded = true) (named : mission.navCmd.index ≠ indexNone)
  (filled : mission.plan.cmdTotal ≠ 0)

include running loaded named filled

theorem update_complete (doComplete : Bool) :
    mission.update true doComplete =
      if mission.completed.way.reached.isSome then
        mission.completed.advanced.markAllDone.updateDo doComplete
      else mission.completed.advanced.finish := by
  have active : ¬ (mission.state ≠ .running ∨ mission.plan.cmdTotal = 0) := by
    rintro (idle | empty)
    · exact idle running
    · exact filled empty
  have busy : ¬ (¬ mission.navCmdLoaded = true ∨ mission.navCmd.index = indexNone) := by
    rintro (unloaded | unnamed)
    · exact unloaded loaded
    · exact named unnamed
  have onward : mission.updateNav true = mission.completed.advanceCurrentNavCmd := by
    rw [updateNav, if_neg busy, if_pos rfl]
    rfl
  have advances := advanceCurrentNavCmd_eq (show mission.completed.state = .running from running) rfl
  rw [update, if_neg active, onward, advances]
  dsimp only
  cases mission.completed.way.reached <;> rfl

end Complete

theorem completed_nextNavIndex (named : mission.navCmd.index ≠ indexNone) :
    mission.completed.nextNavIndex = mission.navCmd.index + 1 := if_neg named

end Mission

end Urus.ApMission
