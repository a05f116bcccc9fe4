/-
This file is about the do commands between two navigation commands. When a navigation
command completes, a search that counts follows the route to the next one and starts the
first do command on it. The other do commands are started later, each when the one before
it completes, by searches that do not count and go the same way again.

They go the same way as long as every jump decides as it did on the route. The table is
the one at the end of the route by then. A jump that was passed is still passed, and one
that was taken is taken again if it has runs left. So the do commands that are started are
the first ones on the route, in their order, unless a jump behind the first do command was
taken for the last time: it is passed when the way is gone again, and what stands behind
it is started.
-/

import Urus.Mission.Route
import Urus.Mission.Slots
import Urus.Mission.Queries

namespace Urus.ApMission

variable {board : Board}

/-! ### The do commands on a route and the jumps that are left -/

/-- The do commands that a search went through. -/
def actsOn (program : Nat → Kind) (visits : List Visit) : List Nat :=
  visits.filterMap fun visit =>
    match visit with
    | .found index => if program index = .act then some index else none
    | .jump _ _ => none

/-- The do commands that were started. -/
def startedActs (calls : List Callback) : List Nat :=
  calls.filterMap fun callback =>
    match callback with
    | .start cmd => if isNavCmd cmd then none else some cmd.index
    | _ => none

/-- After some visits, a jump behind a do command has runs left when it is taken once more. -/
def leavesRuns (program : Nat → Kind) (table : List JumpTracking) (before : List Visit) :
    Visit → Bool
  | .jump index true =>
    match program index with
    | .jump _ times =>
      (actsOn program before).isEmpty || times == jumpRepeatForever ||
        timesRun index table + timesTaken index before + 1 < times
    | _ => true
  | _ => true

/-- On a way that begins with a table, no counted jump behind the first do command is taken for
the last time. -/
def repeatsRemain (program : Nat → Kind) (table : List JumpTracking) :
    (before path : List Visit) → Bool
  | _, [] => true
  | before, visit :: rest =>
    leavesRuns program table before visit && repeatsRemain program table (before ++ [visit]) rest

theorem actsOn_append (program : Nat → Kind) (first second : List Visit) :
    actsOn program (first ++ second) = actsOn program first ++ actsOn program second :=
  List.filterMap_append

variable {program : Nat → Kind} {visits : List Visit} {index target : Nat}
  {table : List JumpTracking} {final : List JumpTracking} {jumps : List Nat} {plan : Plan board}
  {reached : Nat} {mission : Mission board}

theorem mem_actsOn {index : Nat} (member : index ∈ actsOn program visits) :
    program index = .act := by
  obtain ⟨visit, -, found⟩ := List.mem_filterMap.mp member
  cases visit with
  | jump other taken => exact nomatch found
  | found other =>
    dsimp only at found
    split at found
    · rename_i act
      exact Option.some.inj found ▸ act
    · exact nomatch found

theorem startedActs_append (first second : List Callback) :
    startedActs (first ++ second) = startedActs first ++ startedActs second :=
  List.filterMap_append

theorem left_of_repeatsRemain {before path : List Visit}
    (remain : repeatsRemain program table before path = true) (behind : actsOn program before ≠ [])
    {times : Int} (jump : program index = .jump target times) (ends : times ≠ jumpRepeatForever)
    (member : .jump index true ∈ path) :
    timesRun index table + timesTaken index (before ++ path) < times := by
  induction path generalizing before with
  | nil => exact absurd member List.not_mem_nil
  | cons visit rest inductionHypothesis =>
    rw [repeatsRemain, Bool.and_eq_true] at remain
    obtain ⟨leaves, remain⟩ := remain
    by_cases again : .jump index true ∈ rest
    · have onward := inductionHypothesis remain
        (by
          rw [actsOn_append]
          exact List.append_ne_nil_of_left_ne_nil behind _) again
      rwa [List.append_assoc] at onward
    · have same : visit = .jump index true := by
        rcases List.mem_cons.mp member with same | impossible
        · exact same.symm
        · exact absurd impossible again
      have last : timesTaken index rest = 0 := by
        rw [timesTaken, List.count_eq_zero.mpr again]
        rfl
      have total : timesTaken index (before ++ visit :: rest) = timesTaken index before + 1 := by
        have split : timesTaken index (before ++ visit :: rest) =
            timesTaken index (before ++ [visit]) + timesTaken index rest := by
          rw [timesTaken, timesTaken, timesTaken, ← Nat.cast_add, ← List.count_append,
            List.append_assoc]
          rfl
        rw [split, last, same, timesTaken_take, if_pos rfl, add_zero]
      rw [same, leavesRuns, jump] at leaves
      simp only [Bool.or_eq_true, List.isEmpty_iff, behind, false_or, beq_iff_eq, ends,
        decide_eq_true_eq] at leaves
      omega

/-! ### Going the same way again -/

/-- Every counted jump that a search went through would decide in the same way with another
table. -/
def Agrees (program : Nat → Kind) (final : List JumpTracking) (visits : List Visit) : Prop :=
  ∀ index target times taken, .jump index taken ∈ visits → program index = .jump target times →
    times ≠ jumpRepeatForever → (taken = true ↔ timesRun index final < times)

theorem Agrees.of_subset {visits more : List Visit} (agrees : Agrees program final more)
    (subset : ∀ visit ∈ visits, visit ∈ more) : Agrees program final visits :=
  fun index target times taken member => agrees index target times taken (subset _ member)

/-- A walk that does not count, with a table that decides in the same way, ends where the walk
that counted ended, if it ends at a command. -/
theorem walk_again (listed : Listed program jumps) (maxLoops index jumpIndex jumpIndex' : Nat)
    {table again : List JumpTracking}
    (agrees : Agrees program final (walk program true maxLoops index jumpIndex table).visits)
    (alike : Alike program jumps final again) :
    (walk program false maxLoops index jumpIndex' again).found = none ∨
      (walk program false maxLoops index jumpIndex' again).found =
        (walk program true maxLoops index jumpIndex table).found := by
  induction maxLoops generalizing index jumpIndex jumpIndex' table again with
  | zero =>
    unfold walk
    cases program index <;> exact Or.inr rfl
  | succ maxLoops inductionHypothesis =>
    unfold walk at agrees ⊢
    cases kind : program index with
    | halt => exact Or.inr rfl
    | nav => exact Or.inr rfl
    | act => exact Or.inr rfl
    | jump target times =>
      rw [kind] at agrees
      dsimp only at agrees ⊢
      have counting : ¬ (true = false ∧ jumpIndex = index) := fun both => Bool.noConfusion both.1
      by_cases met : false = false ∧ jumpIndex' = index
      · rw [if_pos met]
        exact Or.inl rfl
      · rw [if_neg met]
        by_cases forever : times = jumpRepeatForever
        · rw [if_pos forever] at agrees
          rw [if_pos forever, if_pos forever]
          exact inductionHypothesis _ _ _
            (agrees.of_subset fun _ member => List.mem_cons_of_mem _ member) alike
        · have looked := alike.trans (Alike.lookup alike.healthySecond listed kind)
          have same := alike.same kind
          rw [timesRun, timesRun] at same
          rw [if_neg forever] at agrees
          rw [if_neg forever, if_neg forever]
          by_cases left : (findJump index table).1 < times
          · rw [if_pos left] at agrees
            have leftAgain : (findJump index again).1 < times := same ▸
              (agrees index target times true List.mem_cons_self kind forever).mp rfl
            rw [if_pos left, if_pos leftAgain]
            exact inductionHypothesis _ _ _
              (agrees.of_subset fun _ member => List.mem_cons_of_mem _ member) looked
          · rw [if_neg left] at agrees
            have usedAgain : ¬ (findJump index again).1 < times := fun leftAgain =>
              absurd ((agrees index target times false List.mem_cons_self kind forever).mpr
                (by rw [timesRun, same]; exact leftAgain)) (by decide)
            rw [if_neg left, if_neg usedAgain]
            exact inductionHypothesis _ _ _
              (agrees.of_subset fun _ member => List.mem_cons_of_mem _ member) looked

/-! ### The table at the end of a route -/

/-- The counts went up by the runs of the jumps, and the jumps that were passed are used up. -/
structure Progress (program : Nat → Kind) (jumps : List Nat) (start table : List JumpTracking)
    (visits : List Visit) : Prop where
  healthy : Healthy program jumps table
  counts : ∀ {index target times}, program index = .jump target times →
    times ≠ jumpRepeatForever → timesRun index table = timesRun index start + timesTaken index visits
  passes : ∀ {index target times}, program index = .jump target times →
    times ≠ jumpRepeatForever → .jump index false ∈ visits →
    times ≤ timesRun index start + timesTaken index visits

/-- A jump that is not passed leaves the jumps that were passed used up. -/
theorem Progress.passes_append {start table : List JumpTracking}
    (progress : Progress program jumps start table visits) (visit : Visit)
    (other : ∀ index, visit ≠ .jump index false) {times : Int}
    (jump : program index = .jump target times) (ends : times ≠ jumpRepeatForever)
    (member : .jump index false ∈ visits ++ [visit])
    (more : timesTaken index visits ≤ timesTaken index (visits ++ [visit])) :
    times ≤ timesRun index start + timesTaken index (visits ++ [visit]) := by
  rcases List.mem_append.mp member with old | new
  · have used := progress.passes jump ends old
    omega
  · exact absurd (List.mem_singleton.mp new).symm (other index)

theorem timesTaken_append_le (index : Nat) (visits more : List Visit) :
    timesTaken index visits ≤ timesTaken index (visits ++ more) := by
  rw [timesTaken, timesTaken, List.count_append]
  omega

theorem progress_keeps (listed : Listed program jumps) (start : List JumpTracking) :
    SearchKeeps program (Progress program jumps start) where
  found := by
    intro index table visits progress
    refine ⟨progress.healthy, fun {other _ _} jump ends => ?_, fun {other _ _} jump ends member =>
      progress.passes_append (.found index) (fun _ => nofun) jump ends member (timesTaken_append_le _ _ _)⟩
    rw [timesTaken_other other (.found index) (fun _ => nofun)]
    exact progress.counts jump ends
  endless := by
    intro index target table visits endless progress
    refine ⟨progress.healthy, fun {other _ _} jump ends => ?_, fun {other _ _} jump ends member =>
      progress.passes_append (.jump index true) (fun _ => nofun) jump ends member (timesTaken_append_le _ _ _)⟩
    have apart : other ≠ index := by
      rintro rfl
      exact ends_of_times jump ends target endless
    rw [timesTaken_take, if_neg apart, add_zero]
    exact progress.counts jump ends
  taken := by
    intro index target times table visits jump ends left progress
    refine ⟨progress.healthy.countJump listed jump left, fun {other _ _} jump' ends' => ?_,
      fun {other _ _} jump' ends' member =>
        progress.passes_append (.jump index true) (fun _ => nofun) jump' ends' member (timesTaken_append_le _ _ _)⟩
    rw [progress.healthy.timesRun_countJump listed jump left jump', timesTaken_take,
      progress.counts jump' ends', add_assoc]
  passed := by
    intro index target times table visits jump ends used progress
    refine ⟨progress.healthy.findJump listed jump, fun {other _ _} jump' ends' => ?_,
      fun {other _ _} jump' ends' member => ?_⟩
    · rw [progress.healthy.timesRun_findJump listed jump jump',
        timesTaken_other other (.jump index false) (fun _ => nofun)]
      exact progress.counts jump' ends'
    · rw [timesTaken_other other (.jump index false) (fun _ => nofun)]
      rcases List.mem_append.mp member with old | new
      · exact progress.passes jump' ends' old
      · obtain ⟨rfl, -⟩ := Visit.jump.inj (List.mem_singleton.mp new)
        rw [jump] at jump'
        rw [← progress.counts jump ends, ← (Kind.jump.inj jump').2]
        exact not_lt.mp used
  lookup := by
    intro index target times table visits jump progress
    refine ⟨progress.healthy.findJump listed jump, fun jump' ends' => ?_, progress.passes⟩
    rw [progress.healthy.timesRun_findJump listed jump jump']
    exact progress.counts jump' ends'

theorem route_progress (listed : Listed program jumps) (budget index : Nat)
    (healthy : Healthy program jumps table) :
    Progress program jumps table (route program budget index table).table
      (route program budget index table).visits := by
  have start : Progress program jumps table table [] :=
    ⟨healthy, fun _ _ => (add_zero _).symm, fun _ _ member => absurd member List.not_mem_nil⟩
  exact (progress_keeps listed table).route budget index start

theorem agrees_behind {start final : List JumpTracking} {first rest : List Visit}
    (progress : Progress program jumps start final (first ++ rest))
    (behind : actsOn program first ≠ []) (remain : repeatsRemain program start first rest = true) :
    Agrees program final rest := by
  intro index target times taken member jump ends
  rw [progress.counts jump ends]
  cases taken with
  | true =>
    exact ⟨fun _ => left_of_repeatsRemain remain behind jump ends member, fun _ => rfl⟩
  | false =>
    have used := progress.passes jump ends (List.mem_append_right _ member)
    exact ⟨(fun impossible => nomatch impossible), fun left => absurd left (not_lt.mpr used)⟩

theorem repeatsRemain_append {before first rest : List Visit}
    (remain : repeatsRemain program table before (first ++ rest) = true) :
    repeatsRemain program table (before ++ first) rest = true := by
  induction first generalizing before with
  | nil =>
    rw [List.append_nil]
    exact remain
  | cons visit first inductionHypothesis =>
    rw [List.cons_append, repeatsRemain, Bool.and_eq_true] at remain
    have onward := inductionHypothesis remain.2
    rwa [List.append_assoc] at onward

/-! ### The do searches along a route -/

/-- The do commands on a walk: the command at its end, if it is one. -/
theorem actsOn_walk (program : Nat → Kind) (increment : Bool) (maxLoops index jumpIndex : Nat)
    (table : List JumpTracking) :
    actsOn program (walk program increment maxLoops index jumpIndex table).visits =
      (walk program increment maxLoops index jumpIndex table).found.toList.filter
        fun reached => program reached = .act := by
  induction maxLoops generalizing index jumpIndex table with
  | zero =>
    unfold walk
    cases kind : program index <;> simp [actsOn, kind]
  | succ maxLoops inductionHypothesis =>
    unfold walk
    cases kind : program index with
    | halt => rfl
    | nav => simp [actsOn, kind]
    | act => simp [actsOn, kind]
    | jump target times =>
      dsimp only
      split
      · rfl
      · split
        · exact inductionHypothesis _ _ _
        · split <;> exact inductionHypothesis _ _ _

theorem getNextDoCmd_found {index : Nat} {cmd : MissionCommand}
    (found : (getNextDoCmd plan index table).1 = some cmd) :
    (walk plan.kind false 64 index indexNone table).found = some cmd.index ∧
      plan.kind cmd.index = .act := by
  obtain ⟨plain, act⟩ := getNextDoCmd_plain found
  refine ⟨?_, plain.act_iff.mpr act⟩
  rw [← (getNextCmd_follows plan index false table).index]
  unfold getNextDoCmd at found
  split at found
  · exact nomatch found
  · dsimp only at found
    cases next : (getNextCmd plan index false table).cmd with
    | none =>
      rw [next] at found
      exact nomatch found
    | some other =>
      rw [next] at found
      dsimp only at found
      split at found
      · exact nomatch found
      · rw [Option.some.inj found]
        rfl

/-- A do search leaves a table in which a search sees the same. -/
theorem getNextDoCmd_lookup (plan : Plan board) (index : Nat)
    (healthy : Healthy plan.kind plan.jumps table) :
    Alike plan.kind plan.jumps table (getNextDoCmd plan index table).2 := by
  have looked := getNextCmd_lookup plan index healthy
  unfold getNextDoCmd
  split
  · exact Alike.refl healthy
  · dsimp only
    split
    · exact looked
    · split <;> exact looked

/-- Do searches from an index on find some do commands one after the other, or end early. -/
def Leads (plan : Plan board) (final : List JumpTracking) : (index : Nat) → List Nat → Prop
  | index, [] => ∀ table, Alike plan.kind plan.jumps final table →
      (getNextDoCmd plan index table).1 = none
  | index, next :: rest =>
    (∀ table cmd, Alike plan.kind plan.jumps final table →
      (getNextDoCmd plan index table).1 = some cmd → cmd.index = next) ∧
      Leads plan final (next + 1) rest

/-- The do searches find the do commands of a route whose jumps decide as they did. -/
theorem route_leads (plan : Plan board) (budget index : Nat)
    (agrees : Agrees plan.kind final (route plan.kind budget index table).visits)
    (ends : (route plan.kind budget index table).reached = some reached) :
    Leads plan final index (actsOn plan.kind (route plan.kind budget index table).visits) := by
  induction budget generalizing index table with
  | zero => exact nomatch ends
  | succ budget inductionHypothesis =>
    have acts := actsOn_walk plan.kind true 64 index indexNone table
    cases next : (walk plan.kind true 64 index indexNone table).found with
    | none =>
      rw [route_none budget next] at ends
      exact nomatch ends
    | some found =>
      -- a do search from here finds the same command, or nothing
      have same : Agrees plan.kind final
          (walk plan.kind true 64 index indexNone table).visits →
          ∀ again cmd, Alike plan.kind plan.jumps final again →
            (getNextDoCmd plan index again).1 = some cmd →
            cmd.index = found ∧ plan.kind cmd.index = .act := by
        intro agrees again cmd alike searched
        obtain ⟨walked, act⟩ := getNextDoCmd_found searched
        refine ⟨?_, act⟩
        rcases walk_again plan.listed 64 index indexNone indexNone agrees alike with ended | equal
        · rw [walked] at ended
          exact nomatch ended
        · rw [walked, next] at equal
          exact Option.some.inj equal
      rw [next] at acts
      rcases walk_found _ _ _ _ _ _ next with nav | act
      · rw [route_nav budget next nav] at agrees ⊢
        rw [acts]
        simp only [Option.toList_some, List.filter_cons, nav, reduceCtorEq, decide_false,
          Bool.false_eq_true, if_false, List.filter_nil]
        intro again alike
        rw [Option.eq_none_iff_forall_ne_some]
        intro cmd searched
        obtain ⟨there, isAct⟩ := same agrees again cmd alike searched
        rw [there, nav] at isAct
        exact nomatch isAct
      · rw [route_act budget next act] at agrees ends ⊢
        have onward := inductionHypothesis (found + 1)
          (agrees.of_subset fun _ member => List.mem_append_right _ member) ends
        rw [Route.after]
        rw [actsOn_append, acts]
        simp only [Option.toList_some, List.filter_cons, act, decide_true, if_true,
          List.filter_nil, List.singleton_append]
        exact ⟨fun again cmd alike searched =>
          (same (agrees.of_subset fun _ member => List.mem_append_left _ member) again cmd alike
            searched).1, onward⟩

/-- On a way on which repeats remain, the do searches behind the first do command find the
others. -/
theorem route_leads_behind (plan : Plan board) (budget index : Nat)
    (healthy : Healthy plan.kind plan.jumps table)
    (ends : (route plan.kind budget index table).reached = some reached)
    (remain : repeatsRemain plan.kind table [] (route plan.kind budget index table).visits = true)
    {first : Nat} {rest : List Nat}
    (acts : actsOn plan.kind (route plan.kind budget index table).visits = first :: rest) :
    Leads plan (route plan.kind budget index table).table (first + 1) rest := by
  cases budget with
  | zero => exact nomatch ends
  | succ budget =>
    have progress := route_progress plan.listed (budget + 1) index healthy
    have walked := actsOn_walk plan.kind true 64 index indexNone table
    cases next : (walk plan.kind true 64 index indexNone table).found with
    | none =>
      rw [route_none budget next] at ends
      exact nomatch ends
    | some found =>
      rw [next] at walked
      rcases walk_found _ _ _ _ _ _ next with nav | act
      · rw [route_nav budget next nav] at acts
        rw [walked] at acts
        simp [nav] at acts
      · rw [route_act budget next act] at acts ends remain progress ⊢
        rw [Route.after] at acts ends remain progress ⊢
        have single : actsOn plan.kind (walk plan.kind true 64 index indexNone table).visits =
            [found] := by
          rw [walked]
          simp [act]
        rw [actsOn_append, single] at acts
        obtain ⟨rfl, rfl⟩ := List.cons.inj acts
        have behind : actsOn plan.kind (walk plan.kind true 64 index indexNone table).visits ≠
            [] := by
          rw [single]
          exact List.cons_ne_nil _ _
        exact route_leads plan budget (found + 1)
          (agrees_behind progress behind (repeatsRemain_append remain)) ends

/-! ### What a search loop starts -/

/-- A mission after some calls of the vehicle's functions, which started some do commands. -/
def Mission.Started (before after : Mission board) (acts : List Nat) : Prop :=
  ∃ calls, after.calls = before.calls ++ calls ∧ startedActs calls = acts

theorem Mission.Started.refl (mission : Mission board) : mission.Started mission [] :=
  ⟨[], (List.append_nil _).symm, rfl⟩

theorem Mission.Started.trans {first second third : Mission board} {acts more : List Nat}
    (before : first.Started second acts) (behind : second.Started third more) :
    first.Started third (acts ++ more) := by
  obtain ⟨calls, grown, started⟩ := before
  obtain ⟨later, grownLater, startedLater⟩ := behind
  refine ⟨calls ++ later, ?_, ?_⟩
  · rw [grownLater, grown, List.append_assoc]
  · rw [startedActs_append, started, startedLater]

namespace Mission

theorem searchLoop_loaded (fuel index : Nat) (mission : Mission board)
    (loaded : mission.doCmdLoaded = true) :
    mission.Started (searchLoop startCmd fuel index mission).2 [] ∧
      (searchLoop startCmd fuel index mission).2.doCmd = mission.doCmd ∧
      (searchLoop startCmd fuel index mission).2.doCmdLoaded = true := by
  induction fuel generalizing index mission with
  | zero => exact ⟨Started.refl mission, rfl, loaded⟩
  | succ fuel inductionHypothesis =>
    cases next : (getNextCmd mission.plan index true mission.jumpTracking).cmd with
    | none =>
      rw [searchLoop_none fuel next]
      exact ⟨Started.refl mission, rfl, loaded⟩
    | some cmd =>
      cases nav : isNavCmd cmd with
      | true =>
        rw [searchLoop_nav fuel next nav, startCmd, if_pos nav]
        refine ⟨⟨[.start cmd], rfl, ?_⟩, rfl, loaded⟩
        simp [startedActs, nav]
      | false =>
        rw [searchLoop_act fuel next nav, startCmd, if_neg (by rw [nav]; decide),
          startDo_track_loaded loaded]
        exact inductionHypothesis _ _ loaded

/-- A search loop starts the first do command on its way. -/
theorem searchLoop_starts (fuel index : Nat) (mission : Mission board)
    (unloaded : mission.doCmdLoaded = false) :
    mission.Started (searchLoop startCmd fuel index mission).2
        ((actsOn mission.plan.kind
          (route mission.plan.kind fuel index mission.jumpTracking).visits).take 1) ∧
      ((searchLoop startCmd fuel index mission).2.doCmdLoaded = false ∨
        ∃ first rest, actsOn mission.plan.kind
          (route mission.plan.kind fuel index mission.jumpTracking).visits = first :: rest ∧
          (searchLoop startCmd fuel index mission).2.doCmd.index = first ∧
          (searchLoop startCmd fuel index mission).2.doCmdLoaded = true) := by
  cases fuel with
  | zero => exact ⟨Started.refl mission, Or.inl unloaded⟩
  | succ fuel =>
    have follows := getNextCmd_follows mission.plan index true mission.jumpTracking
    have acts := actsOn_walk mission.plan.kind true 64 index indexNone mission.jumpTracking
    rw [← follows.index] at acts
    cases next : (getNextCmd mission.plan index true mission.jumpTracking).cmd with
    | none =>
      have ended : (walk mission.plan.kind true 64 index indexNone mission.jumpTracking).found =
          none := by rw [← follows.index, next]; rfl
      rw [next] at acts
      rw [searchLoop_none fuel next, route_none fuel ended]
      rw [acts]
      exact ⟨Started.refl mission, Or.inl unloaded⟩
    | some cmd =>
      have found : (walk mission.plan.kind true 64 index indexNone mission.jumpTracking).found =
          some cmd.index := by rw [← follows.index, next]; rfl
      have plain := getNextCmd_plain next
      rw [next] at acts
      cases nav : isNavCmd cmd with
      | true =>
        have kind := plain.nav_iff.mpr nav
        rw [searchLoop_nav fuel next nav, startCmd, if_pos nav, route_nav fuel found kind]
        rw [acts]
        refine ⟨⟨[.start cmd], rfl, ?_⟩, Or.inl unloaded⟩
        simp [startedActs, nav, kind]
      | false =>
        have kind := plain.act_iff.mpr nav
        have loadsNow : startCmd (mission.track (getNextCmd mission.plan index true
            mission.jumpTracking)) cmd = { mission.track (getNextCmd mission.plan index true
              mission.jumpTracking) with doCmd := cmd, doCmdLoaded := true }.call (.start cmd) := by
          rw [startCmd, if_neg (by rw [nav]; decide), startDo]
          exact if_neg (by rw [show (mission.track _).doCmdLoaded = false from unloaded]; decide)
        have single : actsOn mission.plan.kind
            (walk mission.plan.kind true 64 index indexNone mission.jumpTracking).visits =
            [cmd.index] := by
          rw [acts]
          simp [kind]
        obtain ⟨started, same, loaded⟩ := searchLoop_loaded fuel (cmd.index + 1)
          (startCmd (mission.track (getNextCmd mission.plan index true mission.jumpTracking)) cmd)
          (by rw [loadsNow]; rfl)
        rw [searchLoop_act fuel next nav, route_act fuel found kind, Route.after]
        rw [actsOn_append, single]
        have first : mission.Started (startCmd (mission.track (getNextCmd mission.plan index true
            mission.jumpTracking)) cmd) [cmd.index] := by
          rw [loadsNow]
          refine ⟨[.start cmd], rfl, ?_⟩
          simp [startedActs, nav]
        refine ⟨first.trans started, Or.inr ⟨cmd.index, _, rfl, ?_, loaded⟩⟩
        rw [same, loadsNow]
        rfl

end Mission

/-! ### The way to the next navigation command -/

/-- A mission on its way from one navigation command to the next: it has started the first do
commands of a route, and as long as it runs, the do searches find the others. -/
structure Underway (plan : Plan board) (way : Route) (before mission : Mission board)
    (acts rest : List Nat) : Prop where
  stored : mission.plan = plan
  visits : mission.visits = before.visits ++ way.visits
  started : before.Started mission acts
  along : actsOn plan.kind way.visits = acts ++ rest
  reached : mission.state = .running → way.reached = some mission.navCmd.index
  loaded : mission.state = .running → mission.navCmdLoaded = true
  alike : mission.state = .running → Alike plan.kind plan.jumps way.table mission.jumpTracking
  ahead : mission.state = .running → mission.doCmdAllDone = true ∨
    mission.doCmd.index ≠ indexNone ∧ Leads plan way.table (mission.doCmd.index + 1) rest

namespace Underway

variable {plan : Plan board} {way : Route} {before mission : Mission board} {acts rest : List Nat}

section

variable (underway : Underway plan way before mission acts rest)

include underway

/-- Asking the vehicle whether a command is complete changes nothing on the way. -/
theorem verify (cmd : MissionCommand)
    (doCmdLoaded : Bool) :
    Underway plan way before { mission.call (.verify cmd) with doCmdLoaded := doCmdLoaded } acts
      rest := by
  refine ⟨underway.stored, underway.visits, ?_, underway.along, underway.reached, underway.loaded,
    underway.alike, underway.ahead⟩
  have asked : mission.Started { mission.call (.verify cmd) with doCmdLoaded := doCmdLoaded } [] :=
    ⟨[.verify cmd], rfl, rfl⟩
  have grown := underway.started.trans asked
  rwa [List.append_nil] at grown

theorem allDone {table : List JumpTracking} (running : mission.state = .running)
    (looked : Alike plan.kind plan.jumps mission.jumpTracking table) :
    Underway plan way before { mission with jumpTracking := table, doCmdAllDone := true } acts
      rest :=
  ⟨underway.stored, underway.visits, underway.started, underway.along, underway.reached,
    underway.loaded, fun _ => (underway.alike running).trans looked, fun _ => Or.inl rfl⟩

/-- A do search on the way starts the next do command, or none. -/
theorem advanceCurrentDoCmd (running : mission.state = .running) :
    ∃ acts rest, Underway plan way before mission.advanceCurrentDoCmd acts rest := by
  obtain ⟨rfl, visits, started, along, reached, loaded, alike, ahead⟩ := underway
  have underway : Underway mission.plan way before mission acts rest :=
    ⟨rfl, visits, started, along, reached, loaded, alike, ahead⟩
  have looked := getNextDoCmd_lookup mission.plan mission.nextDoIndex (alike running).healthySecond
  by_cases idle : mission.state ≠ .running ∨ mission.doCmdAllDone = true
  · rw [Mission.advanceCurrentDoCmd_idle idle]
    exact ⟨acts, rest, underway⟩
  · by_cases last : mission.nextDoIndex ≥ mission.plan.cmdTotal
    · rw [Mission.advanceCurrentDoCmd_last idle last]
      exact ⟨acts, rest, underway.allDone running (Alike.refl (alike running).healthySecond)⟩
    · cases next : (getNextDoCmd mission.plan mission.nextDoIndex mission.jumpTracking).1 with
      | none =>
        rw [Mission.advanceCurrentDoCmd_none idle last next]
        exact ⟨acts, rest, underway.allDone running looked⟩
      | some cmd =>
        rw [Mission.advanceCurrentDoCmd_found idle last next]
        obtain ⟨named, leads⟩ := (ahead running).resolve_left fun done => idle (Or.inr done)
        rw [Mission.nextDoIndex, if_neg named] at next
        obtain ⟨plain, act⟩ := getNextDoCmd_plain next
        cases rest with
        | nil =>
          rw [leads _ (alike running)] at next
          exact nomatch next
        | cons following rest =>
          have same := leads.1 _ cmd (alike running) next
          refine ⟨acts ++ [following], rest, rfl, visits, started.trans ⟨[.start cmd], rfl, ?_⟩,
            ?_, reached, loaded, fun _ => (alike running).trans looked,
            fun _ => Or.inr ⟨plain.index_ne_none, ?_⟩⟩
          · simp [startedActs, act, same]
          · rw [along, List.append_assoc]
            rfl
          · show Leads mission.plan way.table (cmd.index + 1) rest
            rw [same]
            exact leads.2

theorem updateDo (running : mission.state = .running) (doComplete : Bool) :
    ∃ acts rest, Underway plan way before (mission.updateDo doComplete) acts rest := by
  unfold Mission.updateDo
  split
  · exact underway.advanceCurrentDoCmd running
  · split
    · exact ⟨acts, rest, underway.verify mission.doCmd false⟩
    · exact ⟨acts, rest, underway.verify mission.doCmd mission.doCmdLoaded⟩

theorem update
    (ends : ∀ reached, way.reached = some reached → reached ≠ indexNone) (doComplete : Bool) :
    ∃ acts rest, Underway plan way before (mission.update false doComplete) acts rest := by
  unfold Mission.update
  split
  · exact ⟨acts, rest, underway⟩
  · rename_i active
    have running : mission.state = .running := by
      by_contra idle
      exact active (Or.inl idle)
    have busy : ¬ (¬ mission.navCmdLoaded = true ∨ mission.navCmd.index = indexNone) := by
      rintro (unloaded | unnamed)
      · exact unloaded (underway.loaded running)
      · exact ends _ (underway.reached running) unnamed
    rw [Mission.updateNav, if_neg busy, if_neg (by decide)]
    exact (underway.verify mission.navCmd mission.doCmdLoaded).updateDo running doComplete

end

end Underway

/-- A run of updates that do not complete the next navigation command. -/
theorem Underway.run {way : Route} {before : Mission board} {fuel : Nat}
    (ends : ∀ reached, way.reached = some reached → reached ≠ indexNone) (answers : List Bool)
    {acts rest : List Nat} (underway : Underway plan way before mission acts rest) :
    ∃ final acts rest,
      runSteps (perform fuel) mission (answers.map (Call.update false)) = some final ∧
        Underway plan way before final acts rest := by
  induction answers generalizing mission acts rest with
  | nil => exact ⟨mission, acts, rest, rfl, underway⟩
  | cons answer answers inductionHypothesis =>
    obtain ⟨acts', rest', next⟩ := underway.update ends answer
    exact inductionHypothesis next

section Complete

variable {plan : Plan board} {mission : Mission board}

theorem Underway.of_advanced (stored : mission.plan = plan)
    (healthy : Healthy plan.kind plan.jumps mission.jumpTracking)
    (remain : repeatsRemain plan.kind mission.jumpTracking [] mission.way.visits = true)
    {reached : Nat} (ends : mission.way.reached = some reached) :
    ∃ acts rest, Underway plan mission.way mission mission.advanced.markAllDone acts rest := by
  subst stored
  have follows := mission.advanced_follows
  have progress := route_progress mission.plan.listed 257 mission.nextNavIndex healthy
  obtain ⟨there, loaded⟩ := Mission.searchLoop_navCmd 257 mission.nextNavIndex mission.stopDo ends
  obtain ⟨started, doCmd⟩ := Mission.searchLoop_starts 257 mission.nextNavIndex mission.stopDo rfl
  have alike : Alike mission.plan.kind mission.plan.jumps mission.way.table
      mission.advanced.jumpTracking := by
    rw [follows.table]
    exact Alike.refl progress.healthy
  have reached : mission.way.reached = some mission.advanced.navCmd.index :=
    ends.trans (congrArg some there.symm)
  rcases doCmd with idle | ⟨first, rest, acts, same, busy⟩
  · rw [Mission.markAllDone, if_neg (by rw [Mission.advanced, idle]; decide)]
    exact ⟨_, _, follows.plan, follows.visits, started, (List.take_append_drop 1 _).symm,
      fun _ => reached, fun _ => loaded, fun _ => alike, fun _ => Or.inl rfl⟩
  · have act : mission.plan.kind first = .act := mem_actsOn (acts ▸ List.mem_cons_self)
    have named : first ≠ indexNone := by
      refine mission.plan.index_ne_none (mission.plan.listed_of_kind ?_)
      rw [act]
      exact nofun
    have leads := route_leads_behind mission.plan 257 mission.nextNavIndex healthy ends remain acts
    rw [acts] at started
    rw [Mission.markAllDone, if_pos (show mission.advanced.doCmdLoaded = true from busy)]
    refine ⟨[first], rest, follows.plan, follows.visits, started, acts, fun _ => reached,
      fun _ => loaded, fun _ => alike, fun _ => Or.inr ?_⟩
    rw [Mission.advanced, same]
    exact ⟨named, leads⟩

/-- Behind a search that did not reach a navigation command, the mission is complete. -/
theorem Underway.of_lost (stored : mission.plan = plan) :
    ∃ acts rest, Underway plan mission.way mission mission.advanced.finish acts rest := by
  subst stored
  have follows := mission.advanced_follows
  obtain ⟨started, -⟩ := Mission.searchLoop_starts 257 mission.nextNavIndex mission.stopDo rfl
  have completed : mission.advanced.Started mission.advanced.finish [] := ⟨[.complete], rfl, rfl⟩
  have all := started.trans completed
  rw [List.append_nil] at all
  exact ⟨_, _, follows.plan, follows.visits, all, (List.take_append_drop 1 _).symm,
    (fun impossible => nomatch impossible), (fun impossible => nomatch impossible),
    (fun impossible => nomatch impossible), (fun impossible => nomatch impossible)⟩

/-- An update that completes a navigation command puts the mission on its way to the next. -/
theorem Underway.of_update (running : mission.state = .running)
    (loaded : mission.navCmdLoaded = true) (named : mission.navCmd.index ≠ indexNone)
    (stored : mission.plan = plan) (filled : plan.cmdTotal ≠ 0)
    (healthy : Healthy plan.kind plan.jumps mission.jumpTracking)
    (remain : repeatsRemain plan.kind mission.jumpTracking [] mission.completed.way.visits = true)
    (doComplete : Bool) :
    ∃ acts rest, Underway plan mission.completed.way mission (mission.update true doComplete) acts
      rest := by
  subst stored
  have verified : mission.Started mission.completed [] := ⟨[.verify mission.navCmd], rfl, rfl⟩
  have searched : ∃ acts rest, Underway mission.plan mission.completed.way mission.completed
      (mission.update true doComplete) acts rest := by
    rw [Mission.update_complete running loaded named filled]
    cases reached : mission.completed.way.reached with
    | none => exact Underway.of_lost rfl
    | some index =>
      obtain ⟨acts, rest, underway⟩ :
          ∃ acts rest, Underway mission.plan mission.completed.way mission.completed
            mission.completed.advanced.markAllDone acts rest :=
        Underway.of_advanced rfl healthy remain reached
      refine underway.updateDo ?_ doComplete
      rw [mission.completed.advanced.markAllDone_nav.1, mission.completed.advanced_follows.state]
      exact running
  obtain ⟨acts, rest, underway⟩ := searched
  have started := verified.trans underway.started
  exact ⟨acts, rest, underway.stored, underway.visits, started, underway.along, underway.reached,
    underway.loaded, underway.alike, underway.ahead⟩

end Complete

/-! ### Runs of updates -/

def Call.updates : Call → Bool
  | .update _ _ => true
  | _ => false

theorem way_of_empty (empty : mission.plan.cmdTotal = 0) :
    mission.way.reached = none := by
  cases reached : mission.way.reached with
  | none => rfl
  | some index =>
    have nav := route_reached 257 mission.nextNavIndex mission.jumpTracking reached
    have listed : index < mission.plan.cmdTotal := by
      refine mission.plan.listed_of_kind ?_
      rw [nav]
      exact nofun
    omega

theorem Mission.start_of_empty (empty : mission.plan.cmdTotal = 0) :
    mission.start.state = .complete := by
  have lost : ({ mission with state := .running }.reset).way.reached = none := way_of_empty empty
  rw [start, advanceCurrentNavCmd_eq rfl rfl, lost]
  rfl

section Runs

variable {fuel : Nat} {plan : Plan board} {flown : List Call} {mission : Mission board}

theorem filled_of_running (updates : ∀ call ∈ flown, call.updates = true)
    (reached : runSteps (perform fuel) (constructed plan) (.start :: flown) = some mission)
    (running : mission.state = .running) : plan.cmdTotal ≠ 0 := by
  intro empty
  have along : Meets (perform fuel) (fun _ call => call.updates = true) (constructed plan).start
      flown := meets_of_forall flown _ updates
  have complete : mission.state = .complete := by
    refine runSteps_keeps (fun mission => mission.state = .complete) ?_
      ((constructed plan).start_of_empty empty) along reached
    intro mission call next complete updates stepped
    cases call with
    | update navComplete doComplete =>
      have idle : mission.state ≠ .running := by
        rw [complete]
        exact fun impossible => by cases impossible
      rw [← Option.some.inj stepped, Mission.update, if_pos (Or.inl idle)]
      exact complete
    | _ => cases updates
  rw [complete] at running
  cases running

theorem tracked_of_started (few : plan.jumps.length ≤ maxNumDoJumpCommands)
    (updates : ∀ call ∈ flown, call.updates = true)
    (reached : runSteps (perform fuel) (constructed plan) (.start :: flown) = some mission) :
    mission.Kept plan (Settled plan.kind plan.jumps) := by
  have along : Meets (perform fuel) (fun _ call => call.updates = true) (constructed plan).start
      flown := meets_of_forall flown _ updates
  have ledger := settled_ledger plan.listed few
  refine runSteps_keeps (Mission.Kept plan (Settled plan.kind plan.jumps)) ?_
    (ledger.start rfl) along reached
  intro mission call next kept updates stepped
  cases call with
  | update navComplete doComplete => exact ledger.perform rfl kept stepped
  | _ => exact nomatch updates

theorem typed_of_started (updates : ∀ call ∈ flown, call.updates = true)
    (reached : runSteps (perform fuel) (constructed plan) (.start :: flown) = some mission) :
    SlotsTyped mission := by
  have along : Meets (perform fuel) (fun _ call => call.updates = true) (constructed plan).start
      flown := meets_of_forall flown _ updates
  refine runSteps_keeps SlotsTyped ?_ (Mission.start_typed (constructed_typed plan).started) along
    reached
  intro mission call next typed updates stepped
  refine Mission.perform_typed typed ?_ stepped
  rintro rfl
  exact nomatch updates

end Runs

/-- The do commands follow the flown path. In a run of updates of a started mission with at most
15 jumps, take an update that completes a navigation command, and any updates behind it that do
not complete the next one. If no counted jump behind the first do command on the way to the next
navigation command is taken for the last time, the do commands that these updates start are the
first do commands on that way, in their order. The way is the one that the search recorded, and it
leads to the navigation command that is now current unless the mission is complete. -/
theorem do_commands_follow_path {fuel : Nat} (plan : Plan board)
    (few : plan.jumps.length ≤ maxNumDoJumpCommands) (flown : List Call)
    (updates : ∀ call ∈ flown, call.updates = true) {mission : Mission board}
    (reached : runSteps (perform fuel) (constructed plan) (.start :: flown) = some mission)
    (running : mission.state = .running) (loaded : mission.navCmdLoaded = true)
    (remain : repeatsRemain plan.kind mission.jumpTracking []
      (route plan.kind 257 (mission.navCmd.index + 1) mission.jumpTracking).visits = true)
    (doComplete : Bool) (answers : List Bool) :
    ∃ final calls path,
      runSteps (perform fuel) mission (.update true doComplete :: answers.map (.update false)) =
        some final ∧
      final.calls = mission.calls ++ calls ∧ final.visits = mission.visits ++ path ∧
      startedActs calls <+: actsOn plan.kind path ∧
      (final.state = .running →
        (route plan.kind 257 (mission.navCmd.index + 1) mission.jumpTracking).reached =
          some final.navCmd.index) := by
  obtain ⟨stored, settled⟩ := tracked_of_started few updates reached
  have named := ((typed_of_started updates reached).nav loaded).1
  have filled := filled_of_running updates reached running
  have same : mission.completed.way =
      route plan.kind 257 (mission.navCmd.index + 1) mission.jumpTracking := by
    rw [Mission.way, Mission.completed_nextNavIndex named, ← stored]
    rfl
  rw [← same] at remain ⊢
  have ends : ∀ index, mission.completed.way.reached = some index → index ≠ indexNone := by
    intro index found
    have nav := route_reached 257 mission.completed.nextNavIndex mission.jumpTracking found
    refine mission.plan.index_ne_none (mission.plan.listed_of_kind ?_)
    rw [show mission.plan.kind index = .nav from nav]
    exact nofun
  obtain ⟨acts, rest, underway⟩ := Underway.of_update running loaded named stored filled
    (Or.inr settled.tracks) remain doComplete
  obtain ⟨final, acts, rest, run, underway⟩ : ∃ final acts rest,
      runSteps (perform fuel) (mission.update true doComplete) (answers.map (.update false)) =
        some final ∧ Underway plan mission.completed.way mission final acts rest :=
    Underway.run ends answers underway
  obtain ⟨calls, grown, started⟩ := underway.started
  refine ⟨final, calls, mission.completed.way.visits, run, grown, underway.visits, ?_,
    underway.reached⟩
  rw [started, underway.along]
  exact List.prefix_append _ _

/-- A do command, a jump over a do command, and a do command between two waypoints. -/
def skippingPlan (times : UInt16) : Plan smallBoard :=
  uploaded [navCmd, actCmd, jumpCmd 5 times, actCmd, actCmd, navCmd]

theorem do_commands_follow_path_twice :
    ∃ mission, runSteps (perform 0) (constructed (skippingPlan 2)) [.start] = some mission ∧
      ∃ final calls path, runSteps (perform 0) mission [.update true true, .update false false] =
          some final ∧
        final.calls = mission.calls ++ calls ∧ final.visits = mission.visits ++ path ∧
        startedActs calls <+: actsOn (skippingPlan 2).kind path ∧
        (final.state = .running →
          (route (skippingPlan 2).kind 257 (mission.navCmd.index + 1) mission.jumpTracking).reached =
            some final.navCmd.index) := by
  obtain ⟨mission, reached, running, loaded, remain⟩ : ∃ mission,
      runSteps (perform 0) (constructed (skippingPlan 2)) [.start] = some mission ∧
        mission.state = .running ∧ mission.navCmdLoaded = true ∧
        repeatsRemain (skippingPlan 2).kind mission.jumpTracking []
          (route (skippingPlan 2).kind 257 (mission.navCmd.index + 1)
            mission.jumpTracking).visits = true := by
    refine ⟨_, rfl, ?_, ?_, ?_⟩ <;> decide +kernel
  exact ⟨mission, reached, do_commands_follow_path (skippingPlan 2) (by decide +kernel) []
    (fun _ impossible => absurd impossible List.not_mem_nil) reached running loaded remain true
    [false]⟩

/-- A jump that is taken once is passed when the way is gone again: the do command behind it is
started, which is not on the way to the next waypoint. -/
theorem do_command_started_off_path :
    ∃ mission final,
      runSteps (perform 0) (constructed (skippingPlan 1)) [.start] = some mission ∧
      runSteps (perform 0) mission [.update true true, .update false false] = some final ∧
      startedActs (final.calls.drop mission.calls.length) = [2, 4] ∧
      actsOn (skippingPlan 1).kind (final.visits.drop mission.visits.length) = [2, 5] ∧
      (skippingPlan 1).jumps = [3] := by
  refine ⟨_, _, rfl, rfl, ?_, ?_, ?_⟩ <;> decide +kernel

end Urus.ApMission
