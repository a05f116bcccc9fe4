/-
This file compares the look ahead with what the mission does. `get_next_nav_cmd` asks for
the next command from a counter on that goes up by one behind every do command, wherever
the do command was found, and it never counts a jump. `advance_current_nav_cmd` goes on
behind the do command that it found, and it counts.

A search that does not count ends where the counts as they are lead, over any number of
jumps: `follow`. It also ends when it comes back to its first jump, but then it is in a
loop out of which the counts do not lead. The search that counts ends at the same command
as long as it takes no counted jump twice. So the two agree if the way ahead is clear:
straight ahead, over do commands and used jumps, either there is no jump to take, or the
first one leads over jumps alone, none of them counted twice, and not to a do command.
-/

import Mathlib.Dynamics.PeriodicPts.Defs
import Urus.Mission.Route
import Urus.Mission.Queries
import Urus.Mission.Slots

namespace Urus.ApMission

variable {board : Board}

/-! ### Where the counts lead -/

/-- Where a search goes on from an index when the counts stay what they are. -/
def follow (program : Nat → Kind) (table : List JumpTracking) (index : Nat) : Nat :=
  match program index with
  | .jump target times =>
    if times = jumpRepeatForever ∨ timesRun index table < times then target else index + 1
  | _ => index

attribute [local simp] follow

/-- What a search finds where it ends. -/
def endAt (program : Nat → Kind) (index : Nat) : Option Nat :=
  match program index with
  | .nav => some index
  | .act => some index
  | _ => none

section Follow

variable {program : Nat → Kind} {table : List JumpTracking} {index : Nat}

theorem follow_nav (nav : program index = .nav) : follow program table index = index := by
  simp [nav]

theorem follow_act (act : program index = .act) : follow program table index = index := by
  simp [act]

theorem follow_halt (halt : program index = .halt) : follow program table index = index := by
  simp [halt]

variable {target : Nat} {times : Int}

theorem follow_taken (jump : program index = .jump target times)
    (live : times = jumpRepeatForever ∨ timesRun index table < times) :
    follow program table index = target := by
  rw [follow, jump]
  exact if_pos live

theorem follow_passed (jump : program index = .jump target times)
    (used : ¬ (times = jumpRepeatForever ∨ timesRun index table < times)) :
    follow program table index = index + 1 := by
  rw [follow, jump]
  exact if_neg used

theorem endAt_some {reached : Nat} (found : endAt program index = some reached) :
    index = reached ∧ (program index = .nav ∨ program index = .act) := by
  unfold endAt at found
  cases kind : program index with
  | nav =>
    rw [kind] at found
    exact ⟨Option.some.inj found, Or.inl rfl⟩
  | act =>
    rw [kind] at found
    exact ⟨Option.some.inj found, Or.inr rfl⟩
  | halt =>
    rw [kind] at found
    exact nomatch found
  | jump target times =>
    rw [kind] at found
    exact nomatch found

theorem endAt_loop (jump : program index = .jump target times) {length : Nat}
    (positive : 0 < length) (back : (follow program table)^[length] index = index) (budget : Nat) :
    endAt program ((follow program table)^[budget] index) = none := by
  cases found : endAt program ((follow program table)^[budget] index) with
  | none => rfl
  | some reached =>
    exfalso
    obtain ⟨-, kind⟩ := endAt_some found
    have stays : follow program table ((follow program table)^[budget] index) =
        (follow program table)^[budget] index := by
      rcases kind with nav | act
      · exact follow_nav nav
      · exact follow_act act
    have around : (follow program table)^[length * budget] index = index := by
      rw [Function.iterate_mul]
      exact Function.iterate_fixed back budget
    obtain ⟨more, split⟩ := Nat.exists_eq_add_of_le (Nat.le_mul_of_pos_left budget positive)
    have there : (follow program table)^[budget] index = index := by
      rw [split, Nat.add_comm, Function.iterate_add_apply, Function.iterate_fixed stays] at around
      exact around
    rw [there, jump] at kind
    rcases kind with nav | act
    · exact nomatch nav
    · exact nomatch act

end Follow

variable {current : List JumpTracking} {jumps : List Nat} {program : Nat → Kind}
  {table : List JumpTracking} {taken : List Nat} {plan : Plan board}

/-- A walk that does not count ends where the counts lead, or it has come back to a jump. -/
theorem walk_false_or_back (listed : Listed program jumps) (maxLoops index jumpIndex : Nat)
    (alike : Alike program jumps table current) :
    (walk program false maxLoops index jumpIndex current).found =
        endAt program ((follow program table)^[maxLoops] index) ∨
      (walk program false maxLoops index jumpIndex current).found = none ∧
        (∃ target times, program jumpIndex = .jump target times) ∧
        ∃ length, (follow program table)^[length] index = jumpIndex := by
  induction maxLoops generalizing index jumpIndex current with
  | zero =>
    unfold walk endAt
    rw [Function.iterate_zero_apply]
    cases program index <;> exact Or.inl rfl
  | succ maxLoops inductionHypothesis =>
    unfold walk
    cases kind : program index with
    | halt =>
      rw [Function.iterate_fixed (follow_halt kind), endAt, kind]
      exact Or.inl rfl
    | nav =>
      rw [Function.iterate_fixed (follow_nav kind), endAt, kind]
      exact Or.inl rfl
    | act =>
      rw [Function.iterate_fixed (follow_act kind), endAt, kind]
      exact Or.inl rfl
    | jump target times =>
      dsimp only
      by_cases met : false = false ∧ jumpIndex = index
      · rw [if_pos met]
        exact Or.inr ⟨rfl, ⟨target, times, met.2 ▸ kind⟩, 0, met.2.symm⟩
      · rw [if_neg met]
        -- from the next index on, with this jump as the first one unless there was one before
        have onward : ∀ {current : List JumpTracking}, Alike program jumps table current →
            ∀ found, found = (walk program false maxLoops (follow program table index)
              (if jumpIndex = indexNone then index else jumpIndex) current).found →
            found = endAt program ((follow program table)^[maxLoops + 1] index) ∨
              found = none ∧ (∃ target times, program jumpIndex = .jump target times) ∧
                ∃ length, (follow program table)^[length] index = jumpIndex := by
          rintro current alike found rfl
          rw [Function.iterate_succ_apply]
          rcases inductionHypothesis (follow program table index)
            (if jumpIndex = indexNone then index else jumpIndex) alike with
            ends | ⟨none, first, length, back⟩
          · exact Or.inl ends
          · rw [← Function.iterate_succ_apply] at back
            by_cases unset : jumpIndex = indexNone
            · rw [if_pos unset] at back
              rw [← Function.iterate_succ_apply, endAt_loop kind (Nat.succ_pos length) back]
              exact Or.inl none
            · rw [if_neg unset] at first back
              exact Or.inr ⟨none, first, length + 1, back⟩
        have looked := alike.trans (Alike.lookup alike.healthySecond listed kind)
        have same := alike.same kind
        rw [timesRun, timesRun] at same
        by_cases forever : times = jumpRepeatForever
        · rw [if_pos forever]
          rw [follow_taken kind (Or.inl forever)] at onward
          exact onward alike _ rfl
        · rw [if_neg forever]
          by_cases left : (findJump index current).1 < times
          · have live : timesRun index table < times := by rwa [timesRun, same]
            rw [if_pos left]
            rw [follow_taken kind (Or.inr live)] at onward
            exact onward looked _ rfl
          · have used : ¬ (times = jumpRepeatForever ∨ timesRun index table < times) := by
              rintro (endless | live)
              · exact forever endless
              · rw [timesRun, same] at live
                exact left live
            rw [if_neg left]
            rw [follow_passed kind used] at onward
            exact onward looked _ rfl

/-- A search that does not count ends where the counts lead. -/
theorem walk_false_found (listed : Listed program jumps) {table current : List JumpTracking}
    (maxLoops index : Nat) (alike : Alike program jumps table current) :
    (walk program false maxLoops index indexNone current).found =
      endAt program ((follow program table)^[maxLoops] index) := by
  rcases walk_false_or_back listed maxLoops index indexNone alike with
    ends | ⟨-, ⟨target, times, jump⟩, -⟩
  · exact ends
  · exact absurd rfl (listed.named jump)

/-! ### A clear way -/

/-- The jumps from an index on take no counted jump twice, and no do command stands behind a jump
that is taken. `taken` are the jumps that were taken before. -/
def clearJumps (program : Nat → Kind) (table : List JumpTracking) :
    (maxLoops index : Nat) → (taken : List Nat) → Bool
  | maxLoops, index, taken =>
    match program index with
    | .halt => true
    | .nav => true
    | .act => taken.isEmpty
    | .jump target times =>
      match maxLoops with
      | 0 => true
      | maxLoops + 1 =>
        if times = jumpRepeatForever then clearJumps program table maxLoops target (index :: taken)
        else if timesRun index table < times then
          !taken.contains index && clearJumps program table maxLoops target (index :: taken)
        else clearJumps program table maxLoops (index + 1) taken

/-- The way ahead of an index is clear, over at most as many do commands as the budget allows. -/
def clearAhead (program : Nat → Kind) (table : List JumpTracking) : (budget index : Nat) → Bool
  | 0, _ => false
  | budget + 1, index =>
    clearJumps program table 64 index [] &&
      match (walk program false 64 index indexNone table).found with
      | none => true
      | some reached => program reached != .act || clearAhead program table budget (reached + 1)

/-- The table of a search that has taken some jumps: the other jumps have the counts with which
it began, and the counted jumps that it took had runs left. -/
structure TakenFrom (program : Nat → Kind) (jumps : List Nat) (table : List JumpTracking)
    (taken : List Nat) (current : List JumpTracking) : Prop where
  healthy : Healthy program jumps current
  others : ∀ {index target times}, program index = .jump target times → index ∉ taken →
    timesRun index current = timesRun index table
  live : ∀ {index target times}, program index = .jump target times → index ∈ taken →
    times = jumpRepeatForever ∨ timesRun index table < times

namespace TakenFrom

variable {program : Nat → Kind} {jumps taken : List Nat} {table current : List JumpTracking}
  {index target : Nat} {times : Int}

theorem of_alike (alike : Alike program jumps table current) :
    TakenFrom program jumps table [] current :=
  ⟨alike.healthySecond, fun jump _ => (alike.same jump).symm,
    fun _ impossible => absurd impossible List.not_mem_nil⟩

theorem alike (history : TakenFrom program jumps table [] current)
    (healthy : Healthy program jumps table) : Alike program jumps table current :=
  ⟨healthy, history.healthy, fun jump => (history.others jump List.not_mem_nil).symm⟩

section

variable (history : TakenFrom program jumps table taken current)

include history

theorem lookup (listed : Listed program jumps) (jump : program index = .jump target times) :
    TakenFrom program jumps table taken (findJump index current).2 := by
  refine ⟨history.healthy.findJump listed jump, fun jump' other => ?_, history.live⟩
  rw [history.healthy.timesRun_findJump listed jump jump']
  exact history.others jump' other

theorem endless (jump : program index = .jump target jumpRepeatForever) :
    TakenFrom program jumps table (index :: taken) current := by
  refine ⟨history.healthy, fun jump' other => history.others jump' fun member =>
    other (List.mem_cons_of_mem _ member), fun jump' member => ?_⟩
  rcases List.mem_cons.mp member with rfl | old
  · rw [jump] at jump'
    exact Or.inl (Kind.jump.inj jump').2.symm
  · exact history.live jump' old

theorem count (listed : Listed program jumps) (jump : program index = .jump target times)
    (left : timesRun index current < times) (live : timesRun index table < times) :
    TakenFrom program jumps table (index :: taken)
      (countJump index (findJump index current).2) := by
  refine ⟨history.healthy.countJump listed jump left, fun {other _ _} jump' fresh => ?_,
    fun jump' member => ?_⟩
  · rw [List.mem_cons, not_or] at fresh
    rw [history.healthy.timesRun_countJump listed jump left jump', if_neg fresh.1, add_zero]
    exact history.others jump' fresh.2
  · rcases List.mem_cons.mp member with rfl | old
    · rw [jump] at jump'
      rw [← (Kind.jump.inj jump').2]
      exact Or.inr live
    · exact history.live jump' old

end

end TakenFrom

/-- Over a clear way, a walk that counts ends where the counts led when it began. If it ends at a
do command, it has counted nothing. -/
theorem walk_true_found (listed : Listed program jumps) (healthy : Healthy program jumps table)
    (maxLoops index jumpIndex : Nat) (clear : clearJumps program table maxLoops index taken = true)
    (history : TakenFrom program jumps table taken current) :
    (walk program true maxLoops index jumpIndex current).found =
        endAt program ((follow program table)^[maxLoops] index) ∧
      (program ((follow program table)^[maxLoops] index) = .act →
        Alike program jumps table (walk program true maxLoops index jumpIndex current).table) := by
  induction maxLoops generalizing index jumpIndex taken current with
  | zero =>
    unfold clearJumps at clear
    unfold walk endAt
    rw [Function.iterate_zero_apply]
    cases kind : program index with
    | halt => exact ⟨rfl, fun impossible => by cases impossible⟩
    | nav => exact ⟨rfl, fun impossible => by cases impossible⟩
    | jump target times => exact ⟨rfl, fun impossible => by cases impossible⟩
    | act =>
      rw [kind] at clear
      obtain rfl := List.isEmpty_iff.mp clear
      exact ⟨rfl, fun _ => history.alike healthy⟩
  | succ maxLoops inductionHypothesis =>
    unfold clearJumps at clear
    unfold walk
    cases kind : program index with
    | halt =>
      rw [Function.iterate_fixed (follow_halt kind), endAt, kind]
      exact ⟨rfl, fun impossible => by cases impossible⟩
    | nav =>
      rw [Function.iterate_fixed (follow_nav kind), endAt, kind]
      exact ⟨rfl, fun impossible => by cases impossible⟩
    | act =>
      rw [kind] at clear
      obtain rfl := List.isEmpty_iff.mp clear
      rw [Function.iterate_fixed (follow_act kind), endAt, kind]
      exact ⟨rfl, fun _ => history.alike healthy⟩
    | jump target times =>
      rw [kind] at clear
      dsimp only at clear ⊢
      have counting : ¬ (true = false ∧ jumpIndex = index) := fun both => Bool.noConfusion both.1
      rw [if_neg counting, Function.iterate_succ_apply]
      by_cases forever : times = jumpRepeatForever
      · rw [if_pos forever] at clear
        rw [if_pos forever, follow_taken kind (Or.inl forever)]
        exact inductionHypothesis _ _ clear (history.endless (forever ▸ kind))
      · rw [if_neg forever] at clear
        rw [if_neg forever]
        by_cases live : timesRun index table < times
        · rw [if_pos live, Bool.and_eq_true, Bool.not_eq_true', List.contains_eq_mem,
            decide_eq_false_iff_not] at clear
          have left : timesRun index current < times := by rwa [history.others kind clear.1]
          rw [if_pos (show (findJump index current).1 < times from left),
            follow_taken kind (Or.inr live)]
          exact inductionHypothesis _ _ clear.2 (history.count listed kind left live)
        · have used : ¬ (times = jumpRepeatForever ∨ timesRun index table < times) := by
            rintro (endless | live')
            · exact forever endless
            · exact live live'
          have fresh : index ∉ taken := fun member => used (history.live kind member)
          have dead : ¬ timesRun index current < times := by rwa [history.others kind fresh]
          rw [if_neg live] at clear
          rw [if_neg (show ¬ (findJump index current).1 < times from dead),
            follow_passed kind used]
          exact inductionHypothesis _ _ clear (history.lookup listed kind)

/-- Behind a jump that is taken, a clear way does not lead to a do command. -/
theorem clearJumps_taken (maxLoops index : Nat) {first : Nat}
    (clear : clearJumps program table maxLoops index (first :: taken) = true) :
    program ((follow program table)^[maxLoops] index) ≠ .act := by
  induction maxLoops generalizing index first taken with
  | zero =>
    unfold clearJumps at clear
    rw [Function.iterate_zero_apply]
    intro act
    rw [act] at clear
    exact nomatch clear
  | succ maxLoops inductionHypothesis =>
    unfold clearJumps at clear
    cases kind : program index with
    | halt =>
      rw [Function.iterate_fixed (follow_halt kind), kind]
      exact nofun
    | nav =>
      rw [Function.iterate_fixed (follow_nav kind), kind]
      exact nofun
    | act =>
      rw [kind] at clear
      exact nomatch clear
    | jump target times =>
      rw [kind] at clear
      dsimp only at clear
      rw [Function.iterate_succ_apply]
      by_cases forever : times = jumpRepeatForever
      · rw [if_pos forever] at clear
        rw [follow_taken kind (Or.inl forever)]
        exact inductionHypothesis _ clear
      · rw [if_neg forever] at clear
        by_cases live : timesRun index table < times
        · rw [if_pos live, Bool.and_eq_true] at clear
          rw [follow_taken kind (Or.inr live)]
          exact inductionHypothesis _ clear.2
        · rw [if_neg live] at clear
          rw [follow_passed kind (not_or.mpr ⟨forever, live⟩)]
          exact inductionHypothesis _ clear

/-- A clear way to a do command leads straight ahead. -/
theorem clearJumps_straight (maxLoops index : Nat)
    (clear : clearJumps program table maxLoops index [] = true)
    (act : program ((follow program table)^[maxLoops] index) = .act) :
    ∃ distance, (follow program table)^[maxLoops] index = index + distance ∧
      ∀ step ≤ distance, (follow program table)^[step] index = index + step := by
  induction maxLoops generalizing index with
  | zero =>
    refine ⟨0, rfl, fun step none => ?_⟩
    rw [Nat.le_zero.mp none]
    rfl
  | succ maxLoops inductionHypothesis =>
    have here : follow program table index = index →
        ∃ distance, (follow program table)^[maxLoops + 1] index = index + distance ∧
          ∀ step ≤ distance, (follow program table)^[step] index = index + step := by
      intro stays
      refine ⟨0, Function.iterate_fixed stays _, fun step none => ?_⟩
      rw [Nat.le_zero.mp none]
      rfl
    unfold clearJumps at clear
    cases kind : program index with
    | halt => exact here (follow_halt kind)
    | nav => exact here (follow_nav kind)
    | act => exact here (follow_act kind)
    | jump target times =>
      rw [kind] at clear
      dsimp only at clear
      rw [Function.iterate_succ_apply] at act ⊢
      by_cases forever : times = jumpRepeatForever
      · rw [if_pos forever] at clear
        rw [follow_taken kind (Or.inl forever)] at act
        exact absurd act (clearJumps_taken _ _ clear)
      · rw [if_neg forever] at clear
        by_cases live : timesRun index table < times
        · rw [if_pos live, Bool.and_eq_true] at clear
          rw [follow_taken kind (Or.inr live)] at act
          exact absurd act (clearJumps_taken _ _ clear.2)
        · have onward : follow program table index = index + 1 :=
            follow_passed kind (not_or.mpr ⟨forever, live⟩)
          rw [if_neg live] at clear
          rw [onward] at act ⊢
          obtain ⟨distance, ends, straight⟩ := inductionHypothesis (index + 1) clear act
          refine ⟨distance + 1, ?_, fun step short => ?_⟩
          · rw [ends]
            omega
          · cases step with
            | zero => rfl
            | succ step =>
              rw [Function.iterate_succ_apply, onward, straight step (Nat.le_of_succ_le_succ short)]
              omega

/-! ### The look ahead over a program -/

/-- The look ahead: from a counter on, over the commands that are left. -/
def lookAhead (program : Nat → Kind) : (left index : Nat) → (table : List JumpTracking) →
    Option Nat
  | 0, _, _ => none
  | left + 1, index, table =>
    let next := walk program false 64 index indexNone table
    match next.found with
    | none => none
    | some reached =>
      if program reached = .nav then some reached
      else lookAhead program left (index + 1) next.table

section LookAhead

variable {program : Nat → Kind} {jumps : List Nat} (listed : Listed program jumps)
  {table : List JumpTracking}

include listed

/-- Straight ahead of a do command, the look ahead finds it again and again until its counter is
behind it. -/
theorem lookAhead_straight {index distance : Nat}
    (ends : (follow program table)^[64] index = index + distance)
    (straight : ∀ step ≤ distance, (follow program table)^[step] index = index + step)
    (act : program (index + distance) = .act) (left ahead : Nat) (near : ahead ≤ distance)
    {current : List JumpTracking} (alike : Alike program jumps table current) :
    ∃ after, Alike program jumps table after ∧
      lookAhead program (left + ahead + 1) (index + (distance - ahead)) current =
        lookAhead program left (index + distance + 1) after := by
  have found : ∀ {ahead : Nat}, ahead ≤ distance → ∀ {current : List JumpTracking},
      Alike program jumps table current →
      (walk program false 64 (index + (distance - ahead)) indexNone current).found =
        some (index + distance) := by
    intro ahead near current alike
    have onTheWay := straight (distance - ahead) (Nat.sub_le _ _)
    rw [walk_false_found listed 64 _ alike, ← onTheWay, ← Function.iterate_add_apply,
      Nat.add_comm, Function.iterate_add_apply, ends, Function.iterate_fixed (follow_act act),
      endAt, act]
  have notNav : program (index + distance) ≠ .nav := by
    rw [act]
    exact nofun
  induction ahead generalizing current with
  | zero =>
    refine ⟨_, alike.trans (walk_lookup listed 64 (index + (distance - 0)) indexNone
      alike.healthySecond), ?_⟩
    rw [lookAhead, found near alike]
    dsimp only
    rw [if_neg notNav, Nat.sub_zero]
  | succ ahead inductionHypothesis =>
    obtain ⟨after, alikeAfter, same⟩ := inductionHypothesis (Nat.le_of_succ_le near)
      (alike.trans (walk_lookup listed 64 (index + (distance - (ahead + 1))) indexNone
        alike.healthySecond))
    refine ⟨after, alikeAfter, ?_⟩
    have next : index + (distance - (ahead + 1)) + 1 = index + (distance - ahead) := by omega
    rw [show left + (ahead + 1) + 1 = (left + ahead + 1) + 1 by omega, lookAhead,
      found near alike]
    dsimp only
    rw [if_neg notNav, next]
    exact same

/-- Over a clear way, the look ahead finds the navigation command that the route reaches. -/
theorem lookAhead_route (healthy : Healthy program jumps table) {total : Nat}
    (inside : ∀ {index}, program index ≠ .halt → index < total) (budget index : Nat)
    (clear : clearAhead program table budget index = true) {first second : List JumpTracking}
    (alikeFirst : Alike program jumps table first)
    (alikeSecond : Alike program jumps table second) :
    lookAhead program (total - index) index first = (route program budget index second).reached := by
  induction budget generalizing index first second with
  | zero => exact nomatch clear
  | succ budget inductionHypothesis =>
    rw [clearAhead, Bool.and_eq_true] at clear
    obtain ⟨clear, onward⟩ := clear
    obtain ⟨counting, uncounted⟩ := walk_true_found listed healthy 64 index indexNone clear
      (TakenFrom.of_alike alikeSecond)
    have looking := walk_false_found listed 64 index alikeFirst
    rw [walk_false_found listed 64 index (Alike.refl healthy)] at onward
    cases found : endAt program ((follow program table)^[64] index) with
    | none =>
      rw [found] at counting looking
      rw [route_none budget counting]
      cases total - index with
      | zero => rfl
      | succ left => rw [lookAhead, looking]
    | some reached =>
      obtain ⟨ends, kind⟩ := endAt_some found
      have listedHere : index < total := by
        refine inside fun halt => ?_
        rw [Function.iterate_fixed (follow_halt halt), halt] at kind
        rcases kind with nav | act
        · exact nomatch nav
        · exact nomatch act
      rw [found] at counting looking onward
      rcases kind with nav | act
      · rw [ends] at nav
        rw [route_nav budget counting nav]
        obtain ⟨left, some⟩ : ∃ left, total - index = left + 1 := ⟨total - index - 1, by omega⟩
        rw [some, lookAhead, looking]
        dsimp only
        rw [if_pos nav]
      · obtain ⟨distance, far, straight⟩ := clearJumps_straight 64 index clear act
        have actThere : program (index + distance) = .act := far ▸ act
        have there : reached = index + distance := by rw [← ends, far]
        have within : index + distance < total := by
          refine inside ?_
          rw [actThere]
          exact nofun
        subst there
        simp only [actThere, bne_self_eq_false, Bool.false_or] at onward
        obtain ⟨after, alikeAfter, same⟩ := lookAhead_straight listed far straight actThere
          (total - (index + distance + 1)) distance (le_refl _) alikeFirst
        simp only [Nat.sub_self, Nat.add_zero] at same
        rw [show total - (index + distance + 1) + distance + 1 = total - index by omega] at same
        rw [same, route_act budget counting actThere]
        exact inductionHypothesis _ onward alikeAfter (uncounted act)

end LookAhead

/-! ### `get_next_nav_cmd` -/

theorem getNextNavCmdLoop_lookAhead (plan : Plan board) (left index : Nat)
    (table : List JumpTracking) :
    (getNextNavCmdLoop plan left index table).1.map MissionCommand.index =
      lookAhead plan.kind left index table := by
  induction left generalizing index table with
  | zero => rfl
  | succ left inductionHypothesis =>
    have follows := getNextCmd_follows plan index false table
    rw [lookAhead, getNextNavCmdLoop, ← follows.index, ← follows.table]
    cases next : (getNextCmd plan index false table).cmd with
    | none => rfl
    | some cmd =>
      have plain := getNextCmd_plain next
      rw [Option.map_some]
      dsimp only
      by_cases nav : isNavCmd cmd = true
      · rw [if_pos nav, if_pos (plain.nav_iff.mpr nav)]
        rfl
      · rw [if_neg nav, if_neg fun kind => nav (plain.nav_iff.mp kind)]
        exact inductionHypothesis _ _

/-! ### The current navigation command -/

/-- The navigation command that is loaded stands in the mission. -/
def NavStored (plan : Plan board) (mission : Mission board) : Prop :=
  mission.plan = plan ∧ (mission.navCmdLoaded = true → plan.kind mission.navCmd.index = .nav)

namespace NavStored

variable {plan : Plan board} {mission : Mission board}

section

variable (stored : NavStored plan mission)

include stored

theorem startCmd {cmd : MissionCommand}
    (plain : mission.plan.Plain cmd) : NavStored plan (mission.startCmd cmd) := by
  obtain ⟨rfl, nav⟩ := stored
  unfold Mission.startCmd Mission.startDo
  split
  · rename_i isNav
    exact ⟨rfl, fun _ => plain.nav_iff.mpr isNav⟩
  · split <;> exact ⟨rfl, nav⟩

theorem loadCmd {cmd : MissionCommand}
    (plain : mission.plan.Plain cmd) : NavStored plan (mission.loadCmd cmd) := by
  obtain ⟨rfl, nav⟩ := stored
  unfold Mission.loadCmd
  split
  · rename_i isNav
    exact ⟨rfl, fun _ => plain.nav_iff.mpr isNav⟩
  · split <;> exact ⟨rfl, nav⟩

theorem markAllDone : NavStored plan mission.markAllDone := by
  unfold Mission.markAllDone
  split <;> exact stored

theorem advanceCurrentNavCmd :
    NavStored plan mission.advanceCurrentNavCmd.2 := by
  unfold Mission.advanceCurrentNavCmd
  split
  · exact stored
  · split
    · exact stored
    · have searched : NavStored plan
          (Mission.advanceSearch mission.stopDo mission.nextNavIndex).2 := by
        rw [Mission.advanceSearch_eq mission.stopDo mission.nextNavIndex rfl]
        exact Mission.searchLoop_rule (NavStored plan) (fun _ _ stored => stored)
          (fun _ _ plain stored => stored.startCmd plain) 257 mission.nextNavIndex mission.stopDo
          stored
      dsimp only
      split
      · exact searched.markAllDone
      · exact searched

end

theorem start (same : mission.plan = plan) : NavStored plan mission.start := by
  have unloaded : { mission with state := .running }.reset.navCmdLoaded = false := rfl
  have advanced := advanceCurrentNavCmd (show NavStored plan
    { mission with state := .running }.reset from
      ⟨same, fun loaded => (Bool.false_ne_true (unloaded.symm.trans loaded)).elim⟩)
  unfold Mission.start
  dsimp only
  split <;> exact advanced

section

variable (stored : NavStored plan mission)

include stored

theorem restart : NavStored plan mission.restart := by
  unfold Mission.restart
  split
  · exact start stored.1
  · rename_i cmd read
    have again : NavStored plan { mission with navCmd := cmd } :=
      ⟨stored.1, fun loaded => by
        rw [readCmdFromStorage_index _ _ _ _ read]
        exact stored.2 loaded⟩
    unfold Mission.restartNav Mission.restartDo
    split <;> split <;> exact again

theorem resume : NavStored plan mission.resume := by
  unfold Mission.resume
  split
  · exact start stored.1
  · split
    · exact start stored.1
    · exact restart stored
  · exact restart stored

theorem advanceCurrentDoCmd :
    NavStored plan mission.advanceCurrentDoCmd := by
  by_cases idle : mission.state ≠ .running ∨ mission.doCmdAllDone = true
  · rw [Mission.advanceCurrentDoCmd_idle idle]
    exact stored
  · by_cases last : mission.nextDoIndex ≥ mission.plan.cmdTotal
    · rw [Mission.advanceCurrentDoCmd_last idle last]
      exact stored
    · cases next : (getNextDoCmd mission.plan mission.nextDoIndex mission.jumpTracking).1 with
      | none =>
        rw [Mission.advanceCurrentDoCmd_none idle last next]
        exact stored
      | some cmd =>
        rw [Mission.advanceCurrentDoCmd_found idle last next]
        exact stored

theorem update (navComplete doComplete : Bool) :
    NavStored plan (mission.update navComplete doComplete) := by
  have advanced : NavStored plan (mission.updateNav navComplete).2 := by
    unfold Mission.updateNav
    split
    · exact stored.advanceCurrentNavCmd
    · split
      · exact advanceCurrentNavCmd ⟨stored.1, fun impossible => nomatch impossible⟩
      · exact stored
  unfold Mission.update
  split
  · exact stored
  · dsimp only
    split
    · unfold Mission.updateDo
      split
      · exact advanced.advanceCurrentDoCmd
      · split <;> exact advanced
    · exact advanced

theorem setCurrentCmd {fuel index : Nat}
    {after : Bool × Mission board} (returned : mission.setCurrentCmd fuel index = some after) :
    NavStored plan after.2 := by
  have prepared : NavStored plan (mission.prepare index) := by
    refine ⟨(mission.prepare_plan index).trans stored.1, fun loaded => ?_⟩
    simp only [Mission.prepare] at loaded
    split at loaded <;> cases loaded
  have unloaded : (mission.prepare index).navCmdLoaded = false := by
    simp only [Mission.prepare]
    split <;> rfl
  rcases Mission.setCurrentCmd_cases returned with rfl | ⟨begin, final, ends⟩
  · exact stored
  · have loads := Mission.searchLoop_rule (NavStored plan) (fun _ _ stored => stored)
      (fun _ _ plain stored => stored.loadCmd plain) fuel begin (mission.prepare index) prepared
    have starts := Mission.searchLoop_rule (NavStored plan) (fun _ _ stored => stored)
      (fun _ _ plain stored => stored.startCmd plain) fuel begin (mission.prepare index) prepared
    rcases ends with ⟨found, rfl⟩ | ⟨failed, rfl⟩ | ⟨found, rfl⟩ | ⟨failed, rfl⟩
    · rw [found] at loads
      exact markAllDone loads
    · have without := Mission.searchLoop_unloaded (fun _ _ => Mission.loadCmd_act) fuel begin
        (mission.prepare index)
      rw [failed] at loads without
      have idle : final.navCmdLoaded = false :=
        (without (fun impossible => by cases impossible)).trans unloaded
      exact ⟨loads.1, fun loaded => Bool.noConfusion (idle.symm.trans loaded)⟩
    · rw [found] at starts
      exact markAllDone starts
    · rw [failed] at starts
      exact starts

theorem getNextNavCmd (index : Nat) :
    NavStored plan (mission.getNextNavCmd index).2 := stored

end

end NavStored

theorem perform_navStored {fuel : Nat} {mission next : Mission board} {call : Call}
    (fixed : call.keepsPlan = true) (stored : NavStored plan mission)
    (stepped : perform fuel mission call = some next) : NavStored plan next := by
  cases call with
  | start => exact Option.some.inj stepped ▸ NavStored.start stored.1
  | stop => exact Option.some.inj stepped ▸ stored
  | resume => exact Option.some.inj stepped ▸ stored.resume
  | reset =>
    rw [← Option.some.inj stepped]
    exact ⟨stored.1, fun impossible => nomatch impossible⟩
  | update navComplete doComplete =>
    exact Option.some.inj stepped ▸ stored.update navComplete doComplete
  | setCurrentCmd index =>
    obtain ⟨after, returned, rfl⟩ := Option.map_eq_some_iff.mp stepped
    exact stored.setCurrentCmd returned
  | getNextNavCmd index => exact Option.some.inj stepped ▸ stored.getNextNavCmd index
  | startsWithTakeoffCmd restarts =>
    obtain ⟨index, same⟩ := mission.startsWithTakeoffCmd_mission restarts
    rw [← Option.some.inj stepped, same]
    exact stored.getNextNavCmd index
  | getNextGroundCourseCd defaultAngle =>
    obtain ⟨index, same⟩ := mission.getNextGroundCourseCd_mission defaultAngle
    rw [← Option.some.inj stepped, same]
    exact stored.getNextNavCmd index
  | _ => exact nomatch fixed

/-! ### The look ahead and the advance -/

/-- A do search leaves the state and the navigation command alone. -/
theorem Mission.updateDo_nav (mission : Mission board) (doComplete : Bool) :
    (mission.updateDo doComplete).state = mission.state ∧
      (mission.updateDo doComplete).navCmd = mission.navCmd ∧
      (mission.updateDo doComplete).navCmdLoaded = mission.navCmdLoaded := by
  unfold updateDo
  split
  · by_cases idle : mission.state ≠ .running ∨ mission.doCmdAllDone = true
    · rw [advanceCurrentDoCmd_idle idle]
      exact ⟨rfl, rfl, rfl⟩
    · by_cases last : mission.nextDoIndex ≥ mission.plan.cmdTotal
      · rw [advanceCurrentDoCmd_last idle last]
        exact ⟨rfl, rfl, rfl⟩
      · cases next : (getNextDoCmd mission.plan mission.nextDoIndex mission.jumpTracking).1 with
        | none =>
          rw [advanceCurrentDoCmd_none idle last next]
          exact ⟨rfl, rfl, rfl⟩
        | some cmd =>
          rw [advanceCurrentDoCmd_found idle last next]
          exact ⟨rfl, rfl, rfl⟩
  · split <;> exact ⟨rfl, rfl, rfl⟩

section Advance

variable {mission : Mission board} (running : mission.state = .running)
  (loaded : mission.navCmdLoaded = true) (named : mission.navCmd.index ≠ indexNone)
  (filled : mission.plan.cmdTotal ≠ 0)

include running loaded named filled

theorem Mission.update_reached {reached : Nat}
    (ends : mission.completed.way.reached = some reached) (doComplete : Bool) :
    (mission.update true doComplete).state = .running ∧
      (mission.update true doComplete).navCmdLoaded = true ∧
      (mission.update true doComplete).navCmd.index = reached := by
  have follows := mission.completed.advanced_follows
  obtain ⟨there, loadedThere⟩ := searchLoop_navCmd 257 mission.completed.nextNavIndex
    mission.completed.stopDo ends
  obtain ⟨stateDone, navDone, loadedDone⟩ := mission.completed.advanced.markAllDone_nav
  obtain ⟨stateDo, navDo, loadedDo⟩ :=
    mission.completed.advanced.markAllDone.updateDo_nav doComplete
  rw [update_complete running loaded named filled, ends, Option.isSome_some, if_pos rfl, stateDo,
    navDo, loadedDo, stateDone, navDone, loadedDone, follows.state]
  exact ⟨running, loadedThere, there⟩

theorem Mission.update_lost (lost : mission.completed.way.reached = none) (doComplete : Bool) :
    (mission.update true doComplete).state = .complete := by
  rw [update_complete running loaded named filled, lost]
  rfl

end Advance

theorem healthy_of_reached {fuel : Nat} (few : plan.jumps.length ≤ maxNumDoJumpCommands)
    {calls : List Call} (fixed : ∀ call ∈ calls, call.keepsPlan = true) {mission : Mission board}
    (reached : runSteps (perform fuel) (constructed plan) calls = some mission) :
    Healthy plan.kind plan.jumps mission.jumpTracking := by
  have along : Meets (perform fuel) (fun _ call => call.keepsPlan = true) (constructed plan) calls :=
    meets_of_forall calls _ fixed
  have start : Related plan (constructed plan) (constructed plan) :=
    ⟨rfl, rfl, Alike.refl (Or.inl (constructed_stale plan))⟩
  have related : Related plan mission mission := by
    refine runSteps_keeps (fun mission => Related plan mission mission) ?_ start along reached
    intro mission call next related fixed stepped
    cases asks : call.asks with
    | true =>
      obtain ⟨other, performed, kept⟩ := perform_asks asks related
      rw [stepped] at performed
      obtain rfl := Option.some.inj performed
      exact ⟨kept.stored, rfl, Alike.refl kept.alike.healthyFirst⟩
    | false =>
      have both : Option.Rel (Related plan) (perform fuel mission call)
          (perform fuel mission call) := perform_related few fixed asks related
      rw [stepped] at both
      cases both with
      | some kept => exact kept
  exact related.alike.healthyFirst

/-- The look ahead agrees with the advance. In every state of a running mission with at most 15
jumps that the calls reach, with a navigation command loaded and a clear way ahead of it, the look
ahead from behind that command finds a command exactly if completing the current one makes it the
current one, and it finds nothing exactly if completing the current one completes the mission. -/
theorem look_ahead_agrees {fuel : Nat} (plan : Plan board)
    (few : plan.jumps.length ≤ maxNumDoJumpCommands) (calls : List Call)
    (fixed : ∀ call ∈ calls, call.keepsPlan = true) {mission : Mission board}
    (reached : runSteps (perform fuel) (constructed plan) calls = some mission)
    (running : mission.state = .running) (loaded : mission.navCmdLoaded = true)
    (clear : clearAhead plan.kind mission.jumpTracking 257 (mission.navCmd.index + 1) = true)
    (doComplete : Bool) :
    (∀ index, (∃ cmd, (mission.getNextNavCmd (mission.navCmd.index + 1)).1 = some cmd ∧
        cmd.index = index) ↔
      (mission.update true doComplete).state = .running ∧
        (mission.update true doComplete).navCmdLoaded = true ∧
        (mission.update true doComplete).navCmd.index = index) ∧
      ((mission.getNextNavCmd (mission.navCmd.index + 1)).1 = none ↔
        (mission.update true doComplete).state = .complete) := by
  have healthy := healthy_of_reached few fixed reached
  have along : Meets (perform fuel) (fun _ call => call.keepsPlan = true) (constructed plan) calls :=
    meets_of_forall calls _ fixed
  obtain ⟨stored, nav⟩ := runSteps_keeps (NavStored plan)
    (fun _ _ _ stored fixed stepped => perform_navStored fixed stored stepped)
    (⟨rfl, fun impossible => nomatch impossible⟩ : NavStored plan (constructed plan)) along reached
  have listed : mission.navCmd.index < plan.cmdTotal := by
    refine plan.listed_of_kind ?_
    rw [nav loaded]
    exact nofun
  have named := plan.index_ne_none listed
  subst stored
  have filled : mission.plan.cmdTotal ≠ 0 := by omega
  -- the look ahead finds what the way reaches
  have same : (mission.getNextNavCmd (mission.navCmd.index + 1)).1.map MissionCommand.index =
      mission.completed.way.reached := by
    have looked := getNextNavCmdLoop_lookAhead mission.plan
      (mission.plan.cmdTotal - (mission.navCmd.index + 1)) (mission.navCmd.index + 1)
      mission.jumpTracking
    have agree := lookAhead_route mission.plan.listed healthy mission.plan.listed_of_kind 257
      (mission.navCmd.index + 1) clear (Alike.refl healthy) (Alike.refl healthy)
    rw [Mission.way, Mission.completed_nextNavIndex named]
    exact looked.trans agree
  cases ends : mission.completed.way.reached with
  | none =>
    have complete := Mission.update_lost running loaded named filled ends doComplete
    rw [ends, Option.map_eq_none_iff] at same
    rw [complete, same]
    refine ⟨fun index => ⟨?_, ?_⟩, fun _ => rfl, fun _ => rfl⟩
    · rintro ⟨cmd, impossible, -⟩
      exact nomatch impossible
    · rintro ⟨impossible, -⟩
      exact nomatch impossible
  | some index =>
    obtain ⟨still, loadedThere, there⟩ :=
      Mission.update_reached running loaded named filled ends doComplete
    rw [ends] at same
    obtain ⟨cmd, found, here⟩ := Option.map_eq_some_iff.mp same
    rw [still, loadedThere, there, found]
    refine ⟨fun other => ⟨?_, ?_⟩, (fun impossible => nomatch impossible),
      fun impossible => nomatch impossible⟩
    · rintro ⟨cmd', equal, rfl⟩
      rw [← Option.some.inj equal]
      exact ⟨rfl, rfl, here.symm⟩
    · rintro ⟨-, -, rfl⟩
      exact ⟨cmd, rfl, here⟩

/-- A jump over a waypoint to a do command. -/
def detourPlan : Plan smallBoard := uploaded [navCmd, jumpCmd 4 5, navCmd, actCmd, navCmd]

/-- A jump over a do command to a waypoint. -/
def shortcutPlan : Plan smallBoard := uploaded [navCmd, actCmd, jumpCmd 5 5, actCmd, navCmd]

theorem look_ahead_agrees_on_a_shortcut :
    ∃ mission, runSteps (perform 0) (constructed shortcutPlan) [.start] = some mission ∧
      (∀ index, (∃ cmd, (mission.getNextNavCmd (mission.navCmd.index + 1)).1 = some cmd ∧
          cmd.index = index) ↔
        (mission.update true false).state = .running ∧
          (mission.update true false).navCmdLoaded = true ∧
          (mission.update true false).navCmd.index = index) ∧
      ((mission.getNextNavCmd (mission.navCmd.index + 1)).1 = none ↔
        (mission.update true false).state = .complete) := by
  obtain ⟨mission, reached, running, loaded, clear⟩ : ∃ mission,
      runSteps (perform 0) (constructed shortcutPlan) [.start] = some mission ∧
        mission.state = .running ∧ mission.navCmdLoaded = true ∧
        clearAhead shortcutPlan.kind mission.jumpTracking 257 (mission.navCmd.index + 1) = true := by
    refine ⟨_, rfl, ?_, ?_, ?_⟩ <;> decide +kernel
  exact ⟨mission, reached, look_ahead_agrees shortcutPlan (by decide +kernel) [.start] (by decide)
    reached running loaded clear false⟩

/-- Behind a jump to a do command, the look ahead goes on behind the jump: it finds the waypoint
that the mission jumps over. -/
theorem look_ahead_misses_detour :
    ∃ mission, runSteps (perform 0) (constructed detourPlan) [.start] = some mission ∧
      mission.state = .running ∧ mission.navCmdLoaded = true ∧
      (mission.getNextNavCmd (mission.navCmd.index + 1)).1.map MissionCommand.index = some 3 ∧
      (mission.update true false).state = .running ∧
      (mission.update true false).navCmd.index = 5 ∧ detourPlan.jumps = [2] := by
  refine ⟨_, rfl, ?_, ?_, ?_, ?_, ?_, ?_⟩ <;> decide +kernel

end Urus.ApMission
