/-
This file is about how often a mission takes its jumps. What a search does to the jump
tracking table and to the record of its visits happens one jump at a time: an endless
jump is taken, a counted jump is taken and counted, a used jump is passed. Whatever these
steps keep of the table and the record, `Ledger`, all calls keep.

Two things are kept. The table counts the jumps that were taken, and takes none beyond its
number: `Tally`. No room is needed for that, since a jump without an entry is not taken.
And a jump is passed only when it was taken as often as it says: `Held`. That needs room
for all jumps, and so it needs a table that was initialised. The constructor does not
initialise it: on an object on which neither `start` nor `resume` was called,
`set_current_cmd` passes all counted jumps.
-/

import Urus.Mission.Tracking
import Urus.Lib.Trace

namespace Urus.ApMission

variable {board : Board}

/-! ### What a search keeps -/

/-- A property of the table and the record that every step of a search keeps. -/
structure SearchKeeps (program : Nat → Kind) (holds : List JumpTracking → List Visit → Prop) :
    Prop where
  found : ∀ {index table visits}, holds table visits → holds table (visits ++ [.found index])
  endless : ∀ {index target table visits}, program index = .jump target jumpRepeatForever →
    holds table visits → holds table (visits ++ [.jump index true])
  taken : ∀ {index target times table visits}, program index = .jump target times →
    times ≠ jumpRepeatForever → timesRun index table < times → holds table visits →
    holds (countJump index (findJump index table).2) (visits ++ [.jump index true])
  passed : ∀ {index target times table visits}, program index = .jump target times →
    times ≠ jumpRepeatForever → ¬ timesRun index table < times → holds table visits →
    holds (findJump index table).2 (visits ++ [.jump index false])
  lookup : ∀ {index target times table visits}, program index = .jump target times →
    holds table visits → holds (findJump index table).2 visits

/-- A property that also holds when the table is initialised. -/
structure Ledger (program : Nat → Kind) (holds : List JumpTracking → List Visit → Prop) : Prop
    extends SearchKeeps program holds where
  fresh : holds initJumpTracking []

namespace SearchKeeps

variable {program : Nat → Kind} {holds : List JumpTracking → List Visit → Prop}

theorem walk (keeps : SearchKeeps program holds) (maxLoops index jumpIndex : Nat)
    {table : List JumpTracking} {visits : List Visit} (kept : holds table visits) :
    holds (walk program true maxLoops index jumpIndex table).table
      (visits ++ (walk program true maxLoops index jumpIndex table).visits) := by
  have unchanged : holds table (visits ++ []) := by rwa [List.append_nil]
  induction maxLoops generalizing index jumpIndex table visits with
  | zero =>
    unfold ApMission.walk
    cases program index with
    | halt => exact unchanged
    | nav => exact keeps.found kept
    | act => exact keeps.found kept
    | jump target times => exact unchanged
  | succ maxLoops inductionHypothesis =>
    have onward : ∀ {table : List JumpTracking} {visits : List Visit} (visit : Visit)
        (index jumpIndex : Nat), holds table (visits ++ [visit]) →
        holds (ApMission.walk program true maxLoops index jumpIndex table).table
          (visits ++ visit :: (ApMission.walk program true maxLoops index jumpIndex table).visits) := by
      intro table visits visit index jumpIndex next
      have after := inductionHypothesis index jumpIndex next (by rwa [List.append_nil])
      rwa [List.append_assoc] at after
    unfold ApMission.walk
    cases kind : program index with
    | halt => exact unchanged
    | nav => exact keeps.found kept
    | act => exact keeps.found kept
    | jump target times =>
      have again : ¬ (true = false ∧ jumpIndex = index) := fun both => Bool.noConfusion both.1
      dsimp only
      rw [if_neg again]
      by_cases forever : times = jumpRepeatForever
      · rw [if_pos forever]
        exact onward _ _ _ (keeps.endless (forever ▸ kind) kept)
      · rw [if_neg forever]
        by_cases left : (findJump index table).1 < times
        · rw [if_pos left]
          exact onward _ _ _ (keeps.taken kind forever left kept)
        · rw [if_neg left]
          exact onward _ _ _ (keeps.passed kind forever left kept)

/-- A walk that does not count leaves no record. -/
theorem walk_lookup (keeps : SearchKeeps program holds) (maxLoops index jumpIndex : Nat)
    {table : List JumpTracking} {visits : List Visit} (kept : holds table visits) :
    holds (ApMission.walk program false maxLoops index jumpIndex table).table visits := by
  induction maxLoops generalizing index jumpIndex table with
  | zero =>
    unfold ApMission.walk
    cases program index <;> exact kept
  | succ maxLoops inductionHypothesis =>
    unfold ApMission.walk
    cases kind : program index with
    | halt => exact kept
    | nav => exact kept
    | act => exact kept
    | jump target times =>
      dsimp only
      split
      · exact kept
      · split
        · exact inductionHypothesis _ _ kept
        · split <;> exact inductionHypothesis _ _ (keeps.lookup kind kept)

end SearchKeeps

/-! ### What the calls keep -/

/-- A mission on a stored plan whose table and record have a property. -/
def Mission.Kept (plan : Plan board) (holds : List JumpTracking → List Visit → Prop)
    (mission : Mission board) : Prop :=
  mission.plan = plan ∧ holds mission.jumpTracking mission.visits

section Calls

variable {plan : Plan board} {holds : List JumpTracking → List Visit → Prop}
  {mission : Mission board}

theorem Ledger.track (ledger : Ledger plan.kind holds) (kept : mission.Kept plan holds)
    (index : Nat) :
    (mission.track (getNextCmd mission.plan index true mission.jumpTracking)).Kept plan holds := by
  obtain ⟨rfl, kept⟩ := kept
  have follows := getNextCmd_follows mission.plan index true mission.jumpTracking
  refine ⟨rfl, ?_⟩
  show holds (getNextCmd mission.plan index true mission.jumpTracking).table
    (mission.visits ++ (getNextCmd mission.plan index true mission.jumpTracking).visits)
  rw [follows.table, follows.visits]
  exact ledger.walk 64 index indexNone kept

theorem Mission.Kept.startCmd (kept : mission.Kept plan holds) (cmd : MissionCommand) :
    (mission.startCmd cmd).Kept plan holds := by
  unfold Mission.startCmd Mission.startDo
  split
  · exact kept
  · split <;> exact kept

theorem Mission.Kept.loadCmd (kept : mission.Kept plan holds) (cmd : MissionCommand) :
    (mission.loadCmd cmd).Kept plan holds := by
  unfold Mission.loadCmd
  split
  · exact kept
  · split <;> exact kept

theorem Mission.Kept.markAllDone (kept : mission.Kept plan holds) :
    mission.markAllDone.Kept plan holds := by
  unfold Mission.markAllDone
  split <;> exact kept

section

variable (ledger : Ledger plan.kind holds)

include ledger

theorem Ledger.advanceCurrentNavCmd
    (kept : mission.Kept plan holds) : mission.advanceCurrentNavCmd.2.Kept plan holds := by
  unfold Mission.advanceCurrentNavCmd
  split
  · exact kept
  · split
    · exact kept
    · have searched : (Mission.advanceSearch mission.stopDo mission.nextNavIndex).2.Kept plan
          holds := by
        rw [Mission.advanceSearch_eq mission.stopDo mission.nextNavIndex rfl]
        exact Mission.searchLoop_rule (Mission.Kept plan holds)
          (fun _ index kept => ledger.track kept index) (fun _ cmd _ kept => kept.startCmd cmd)
          257 mission.nextNavIndex mission.stopDo kept
      dsimp only
      split
      · exact searched.markAllDone
      · exact searched

/-- A mission that starts begins with an empty table and an empty record. -/
theorem Ledger.start (stored : mission.plan = plan) :
    mission.start.Kept plan holds := by
  have advanced := ledger.advanceCurrentNavCmd
    (show ({ mission with state := .running }.reset).Kept plan holds from ⟨stored, ledger.fresh⟩)
  unfold Mission.start
  dsimp only
  split <;> exact advanced

theorem Ledger.restart (kept : mission.Kept plan holds) :
    mission.restart.Kept plan holds := by
  unfold Mission.restart
  split
  · exact ledger.start kept.1
  · unfold Mission.restartNav Mission.restartDo
    dsimp only
    split <;> split <;> exact kept

theorem Ledger.resume (kept : mission.Kept plan holds) :
    mission.resume.Kept plan holds := by
  unfold Mission.resume
  split
  · exact ledger.start kept.1
  · split
    · exact ledger.start kept.1
    · exact ledger.restart kept
  · exact ledger.restart kept

theorem Ledger.getNextCmd {table : List JumpTracking}
    {visits : List Visit} (kept : holds table visits) (index : Nat) :
    holds (getNextCmd plan index false table).table visits := by
  rw [(getNextCmd_follows plan index false table).table]
  exact ledger.walk_lookup 64 index indexNone kept

theorem Ledger.getNextDoCmd {table : List JumpTracking}
    {visits : List Visit} (kept : holds table visits) (index : Nat) :
    holds (getNextDoCmd plan index table).2 visits := by
  have looked := ledger.getNextCmd kept index
  unfold ApMission.getNextDoCmd
  split
  · exact kept
  · dsimp only
    split
    · exact looked
    · split <;> exact looked

section

variable (kept : mission.Kept plan holds)

include kept

theorem Ledger.advanceCurrentDoCmd : mission.advanceCurrentDoCmd.Kept plan holds := by
  obtain ⟨rfl, kept⟩ := kept
  have looked := ledger.getNextDoCmd kept mission.nextDoIndex
  by_cases active : mission.state ≠ .running ∨ mission.doCmdAllDone = true
  · rw [Mission.advanceCurrentDoCmd_idle active]
    exact ⟨rfl, kept⟩
  · by_cases last : mission.nextDoIndex ≥ mission.plan.cmdTotal
    · rw [Mission.advanceCurrentDoCmd_last active last]
      exact ⟨rfl, kept⟩
    · cases next : (ApMission.getNextDoCmd mission.plan mission.nextDoIndex
          mission.jumpTracking).1 with
      | none =>
        rw [Mission.advanceCurrentDoCmd_none active last next]
        exact ⟨rfl, looked⟩
      | some cmd =>
        rw [Mission.advanceCurrentDoCmd_found active last next]
        exact ⟨rfl, looked⟩

theorem Ledger.updateNav
    (navComplete : Bool) : (mission.updateNav navComplete).2.Kept plan holds := by
  unfold Mission.updateNav
  split
  · exact ledger.advanceCurrentNavCmd kept
  · split
    · exact ledger.advanceCurrentNavCmd kept
    · exact kept

theorem Ledger.updateDo (doComplete : Bool) : (mission.updateDo doComplete).Kept plan holds := by
  unfold Mission.updateDo
  split
  · exact ledger.advanceCurrentDoCmd kept
  · split <;> exact kept

theorem Ledger.update
    (navComplete doComplete : Bool) : (mission.update navComplete doComplete).Kept plan holds := by
  have advanced := ledger.updateNav kept navComplete
  unfold Mission.update
  split
  · exact kept
  · dsimp only
    split
    · exact ledger.updateDo advanced doComplete
    · exact advanced

theorem Ledger.prepare (index : Nat) : (mission.prepare index).Kept plan holds := by
  by_cases again : index = 0 ∨ mission.state = .complete
  · rw [Mission.prepare_again again]
    exact ⟨kept.1, ledger.fresh⟩
  · rw [Mission.prepare_onward again]
    exact kept

end

theorem Ledger.setCurrentCmd {fuel index : Nat}
    {after : Bool × Mission board} (kept : mission.Kept plan holds ∨ index = 0)
    (stored : mission.plan = plan) (returned : mission.setCurrentCmd fuel index = some after) :
    after.2 = mission ∨ after.2.Kept plan holds := by
  have prepared : (mission.prepare index).Kept plan holds := by
    rcases kept with kept | zero
    · exact ledger.prepare kept index
    · rw [Mission.prepare_again (Or.inl zero)]
      exact ⟨stored, ledger.fresh⟩
  have searched : ∀ {load : Mission board → MissionCommand → Mission board},
      (∀ mission cmd, mission.Kept plan holds → (load mission cmd).Kept plan holds) →
      ∀ start, (Mission.searchLoop load fuel start (mission.prepare index)).2.Kept plan holds :=
    fun loaded start => Mission.searchLoop_rule (Mission.Kept plan holds)
      (fun _ index kept => ledger.track kept index) (fun mission cmd _ kept => loaded mission cmd kept)
      fuel start (mission.prepare index) prepared
  rcases Mission.setCurrentCmd_cases returned with rfl | ⟨start, final, ends⟩
  · exact Or.inl rfl
  · right
    have loads := searched (fun _ cmd kept => kept.loadCmd cmd) start
    have starts := searched (fun _ cmd kept => kept.startCmd cmd) start
    rcases ends with ⟨found, rfl⟩ | ⟨failed, rfl⟩ | ⟨found, rfl⟩ | ⟨failed, rfl⟩
    · rw [found] at loads
      exact loads.markAllDone
    · rw [failed] at loads
      exact loads
    · rw [found] at starts
      exact starts.markAllDone
    · rw [failed] at starts
      exact starts

end

end Calls

/-! ### The table counts the jumps that were taken -/

/-- How often a jump was taken. -/
def timesTaken (index : Nat) (visits : List Visit) : Int := visits.count (.jump index true)

theorem timesTaken_take (index other : Nat) (visits : List Visit) :
    timesTaken index (visits ++ [.jump other true]) =
      timesTaken index visits + if index = other then 1 else 0 := by
  unfold timesTaken
  rw [List.count_append, List.count_singleton]
  by_cases same : index = other
  · simp [same]
  · have different : ((Visit.jump other true == Visit.jump index true) : Bool) = false := by
      rw [beq_eq_false_iff_ne]
      exact fun equal => same (Visit.jump.inj equal).1.symm
    simp [same, different]

theorem timesTaken_other (index : Nat) (visit : Visit) (other : ∀ index, visit ≠ .jump index true)
    (visits : List Visit) : timesTaken index (visits ++ [visit]) = timesTaken index visits := by
  unfold timesTaken
  rw [List.count_append, List.count_singleton, beq_eq_false_iff_ne.mpr (other index)]
  simp

variable {table : List JumpTracking} {times : Int} {index target : Nat} {program : Nat → Kind}
  {visits : List Visit} {holds : List JumpTracking → List Visit → Prop}

/-- A lookup makes an entry wherever there is room. -/
theorem HasRoom.findJump {index : Nat} (room : HasRoom index table) :
    HasRoom index (findJump index table).2 := by
  induction table with
  | nil => exact room
  | cons entry rest inductionHypothesis =>
    simp only [ApMission.findJump]
    by_cases same : entry.index = index
    · rw [if_pos same]
      exact room
    · rw [if_neg same]
      by_cases free : entry.index = indexNone
      · rw [if_pos free]
        exact ⟨⟨index, 0⟩, List.mem_cons_self, Or.inl rfl⟩
      · rw [if_neg free]
        obtain ⟨found, member, fits⟩ := inductionHypothesis (room.of_cons same free)
        exact ⟨found, List.mem_cons_of_mem _ member, fits⟩

theorem room_of_left {index : Nat} (bounded : times ≤ jumpTimesMax)
    (left : timesRun index table < times) :
    HasRoom index table := by
  by_contra full
  rw [timesRun, findJump_full full] at left
  exact absurd left (not_lt.mpr bounded)

/-- The table counts how often a jump that ends was taken. Only jumps of the program are taken or
passed, and none is taken more often than it says. -/
structure Tally (program : Nat → Kind) (table : List JumpTracking) (visits : List Visit) :
    Prop where
  packed : Packed table
  counts : ∀ {index}, index ≠ indexNone →
    (∀ target, program index ≠ .jump target jumpRepeatForever) →
    counted index table = timesTaken index visits
  bounds : ∀ {index target times}, program index = .jump target times → 0 ≤ times →
    timesTaken index visits ≤ times
  marks : ∀ {index taken}, .jump index taken ∈ visits →
    ∃ target times, program index = .jump target times

theorem timesTaken_nonneg (index : Nat) (visits : List Visit) : 0 ≤ timesTaken index visits :=
  Int.natCast_nonneg _

theorem ends_of_times (jump : program index = .jump target times) (ends : times ≠ jumpRepeatForever)
    (target' : Nat) :
    program index ≠ .jump target' jumpRepeatForever := by
  rw [jump]
  exact fun same => ends (Kind.jump.inj same).2

theorem Tally.counted_taken (countable : Countable program) (tally : Tally program table visits)
    (jump : program index = .jump target times) (ends : times ≠ jumpRepeatForever)
    (left : timesRun index table < times) :
    counted index (countJump index (findJump index table).2) = timesTaken index visits + 1 ∧
      timesTaken index visits + 1 ≤ times := by
  have bounded := countable.bounded jump
  have named := countable.named jump
  have room := room_of_left bounded left
  have counts := tally.counts named (ends_of_times jump ends)
  have least := timesTaken_nonneg index visits
  rw [timesRun, findJump_room room, counts] at left
  refine ⟨?_, left⟩
  rw [counted_countJump_self room.findJump, counted_findJump named named tally.packed, counts]
  rw [jumpTimesMax] at bounded
  exact Int.bmod_eq_of_le (by omega) (by omega)

theorem Tally.marks_append (tally : Tally program table visits) {visit : Visit}
    (mark : ∀ index taken, visit = .jump index taken → ∃ target times, program index = .jump target times)
    {index : Nat} {taken : Bool} (member : .jump index taken ∈ visits ++ [visit]) :
    ∃ target times, program index = .jump target times := by
  rcases List.mem_append.mp member with old | new
  · exact tally.marks old
  · exact mark index taken (List.mem_singleton.mp new).symm

theorem tally_ledger (countable : Countable program) :
    Ledger program (Tally program) where
  fresh := ⟨initJumpTracking_packed, fun named _ => counted_initJumpTracking named,
    fun _ natural => natural, fun member => absurd member List.not_mem_nil⟩
  found := by
    intro index table visits tally
    refine ⟨tally.packed, fun {other} named ends => ?_, fun {other _ _} jump natural => ?_,
      tally.marks_append ?_⟩
    · rw [timesTaken_other other (.found index) (fun _ => nofun)]
      exact tally.counts named ends
    · rw [timesTaken_other other (.found index) (fun _ => nofun)]
      exact tally.bounds jump natural
    · exact fun _ _ => nofun
  endless := by
    intro index target table visits endless tally
    refine ⟨tally.packed, fun {other} named ends => ?_, fun {other _ times} jump natural => ?_,
      tally.marks_append ?_⟩
    · have apart : other ≠ index := by
        rintro rfl
        exact ends target endless
      rw [timesTaken_take, if_neg apart, add_zero]
      exact tally.counts named ends
    · have apart : other ≠ index := by
        rintro rfl
        rw [endless] at jump
        rw [← (Kind.jump.inj jump).2, jumpRepeatForever] at natural
        exact absurd natural (by decide)
      rw [timesTaken_take, if_neg apart, add_zero]
      exact tally.bounds jump natural
    · rintro _ _ ⟨rfl, rfl⟩
      exact ⟨target, _, endless⟩
  taken := by
    intro index target times table visits jump ends left tally
    have named := countable.named jump
    obtain ⟨counted, within⟩ := tally.counted_taken countable jump ends left
    have looked := packed_findJump named tally.packed
    refine ⟨packed_countJump named looked, fun {other} named' ends' => ?_,
      fun {other _ _} jump' natural => ?_, tally.marks_append ?_⟩
    · rw [timesTaken_take]
      by_cases self : other = index
      · rw [if_pos self, self, counted]
      · rw [if_neg self, add_zero, counted_countJump_other self named' looked named,
          counted_findJump named named' tally.packed]
        exact tally.counts named' ends'
    · rw [timesTaken_take]
      by_cases self : other = index
      · subst self
        rw [jump] at jump'
        rw [if_pos rfl, ← (Kind.jump.inj jump').2]
        exact within
      · rw [if_neg self, add_zero]
        exact tally.bounds jump' natural
    · rintro _ _ ⟨rfl, rfl⟩
      exact ⟨target, times, jump⟩
  passed := by
    intro index target times table visits jump ends used tally
    have named := countable.named jump
    refine ⟨packed_findJump named tally.packed, fun {other} named' ends' => ?_,
      fun {other _ _} jump' natural => ?_, tally.marks_append ?_⟩
    · rw [timesTaken_other other (.jump index false) (fun _ => nofun),
        counted_findJump named named' tally.packed]
      exact tally.counts named' ends'
    · rw [timesTaken_other other (.jump index false) (fun _ => nofun)]
      exact tally.bounds jump' natural
    · rintro _ _ ⟨rfl, rfl⟩
      exact ⟨target, times, jump⟩
  lookup := by
    intro index target times table visits jump tally
    have named := countable.named jump
    refine ⟨packed_findJump named tally.packed, fun named' ends' => ?_, tally.bounds, tally.marks⟩
    rw [counted_findJump named named' tally.packed]
    exact tally.counts named' ends'

/-! ### No jump is passed too early -/

/-- Every counted jump that was passed had been taken as often as it says. -/
def Held (program : Nat → Kind) (visits : List Visit) : Prop :=
  ∀ index target times before, program index = .jump target times → 0 ≤ times →
    before ++ [.jump index false] <+: visits → times ≤ timesTaken index before

theorem Held.append (held : Held program visits) {visit : Visit}
    (other : ∀ index, visit ≠ .jump index false) :
    Held program (visits ++ [visit]) := by
  intro index target times before jump natural early
  rcases List.prefix_concat_iff.mp early with same | early
  · exact absurd (List.append_inj_right' same rfl) fun equal =>
      other index (List.singleton_inj.mp equal).symm
  · exact held _ _ _ _ jump natural early

theorem Held.pass (held : Held program visits) (jump : program index = .jump target times)
    (used : times ≤ timesTaken index visits) : Held program (visits ++ [.jump index false]) := by
  intro other target' times' before jump' natural early
  rcases List.prefix_concat_iff.mp early with same | early
  · obtain ⟨rfl, last⟩ := List.append_inj' same rfl
    obtain ⟨rfl, -⟩ := Visit.jump.inj (List.singleton_inj.mp last)
    rw [jump] at jump'
    rw [← (Kind.jump.inj jump').2]
    exact used
  · exact held _ _ _ _ jump' natural early

/-- A table with room for all jumps, a tally, and no jump passed too early. -/
structure Settled (program : Nat → Kind) (jumps : List Nat) (table : List JumpTracking)
    (visits : List Visit) : Prop where
  tracks : Tracked jumps table
  tally : Tally program table visits
  held : Held program visits

theorem settled_ledger {jumps : List Nat} (listed : Listed program jumps)
    (few : jumps.length ≤ maxNumDoJumpCommands) : Ledger program (Settled program jumps) where
  fresh := by
    refine ⟨initJumpTracking_tracked few, (tally_ledger listed.toCountable).fresh, ?_⟩
    intro index target times before jump natural early
    exact absurd (List.prefix_nil.mp early) (List.append_ne_nil_of_right_ne_nil _ (List.cons_ne_nil _ _))
  found := fun settled => ⟨settled.tracks, (tally_ledger listed.toCountable).found settled.tally,
    settled.held.append fun _ impossible => by cases impossible⟩
  endless := fun jump settled => ⟨settled.tracks,
    (tally_ledger listed.toCountable).endless jump settled.tally, settled.held.append fun _ impossible => by cases impossible⟩
  taken := by
    intro index target times table visits jump ends left settled
    have below : counted index table < jumpTimesMax := by
      have bounded := listed.bounded jump
      rw [timesRun, findJump_room (settled.tracks.room (listed.member jump))] at left
      omega
    exact ⟨settled.tracks.countJump (listed.member jump) (listed.named jump) below,
      (tally_ledger listed.toCountable).taken jump ends left settled.tally,
      settled.held.append fun _ impossible => by cases impossible⟩
  passed := by
    intro index target times table visits jump ends used settled
    refine ⟨settled.tracks.findJump (listed.member jump) (listed.named jump),
      (tally_ledger listed.toCountable).passed jump ends used settled.tally,
      settled.held.pass jump ?_⟩
    rw [timesRun, findJump_room (settled.tracks.room (listed.member jump)),
      settled.tally.counts (listed.named jump) (ends_of_times jump ends)] at used
    exact not_lt.mp used
  lookup := fun jump settled =>
    ⟨settled.tracks.findJump (listed.member jump) (listed.named jump),
      (tally_ledger listed.toCountable).lookup jump settled.tally, settled.held⟩

/-! ### Runs -/

/-- The calls that fly a mission. -/
def Call.flies : Call → Bool
  | .start | .stop | .resume | .update _ _ | .setCurrentCmd _ => true
  | _ => false

/-- A call does not search from a command of the mission before the table was initialised. -/
def initialisedFor (mission : Mission board) : Call → Bool
  | .setCurrentCmd index =>
    index == 0 || mission.jumpTracking != List.replicate maxNumDoJumpCommands ⟨0, 0⟩
  | _ => true

/-- A mission that was not started since it was constructed. -/
structure Untouched (plan : Plan board) (mission : Mission board) : Prop where
  stored : mission.plan = plan
  state : mission.state = .stopped
  navCmd : mission.navCmd.index = indexNone
  table : mission.jumpTracking = List.replicate maxNumDoJumpCommands ⟨0, 0⟩
  visits : mission.visits = []

theorem Ledger.perform {plan : Plan board} (ledger : Ledger plan.kind holds) {fuel : Nat}
    {mission next : Mission board} {call : Call} (flies : call.flies = true)
    (kept : mission.Kept plan holds) (stepped : perform fuel mission call = some next) :
    next.Kept plan holds := by
  cases call with
  | start => exact Option.some.inj stepped ▸ ledger.start kept.1
  | stop => exact Option.some.inj stepped ▸ kept
  | resume => exact Option.some.inj stepped ▸ ledger.resume kept
  | update navComplete doComplete =>
    exact Option.some.inj stepped ▸ ledger.update kept navComplete doComplete
  | setCurrentCmd index =>
    obtain ⟨after, returned, rfl⟩ := Option.map_eq_some_iff.mp stepped
    rcases ledger.setCurrentCmd (Or.inl kept) kept.1 returned with same | after
    · exact same ▸ kept
    · exact after
  | _ => exact nomatch flies

/-- A mission that was not started waits for its start, and then keeps the ledger. -/
theorem Ledger.perform_untouched {plan : Plan board} (ledger : Ledger plan.kind holds) {fuel : Nat}
    {mission next : Mission board} {call : Call} (flies : call.flies = true)
    (initialised : initialisedFor mission call = true) (untouched : Untouched plan mission)
    (stepped : ApMission.perform fuel mission call = some next) :
    Untouched plan next ∨ next.Kept plan holds := by
  cases call with
  | start => exact Or.inr (Option.some.inj stepped ▸ ledger.start untouched.stored)
  | stop =>
    rw [← Option.some.inj stepped]
    exact Or.inl ⟨untouched.stored, rfl, untouched.navCmd, untouched.table, untouched.visits⟩
  | resume =>
    rw [← Option.some.inj stepped, Mission.resume, untouched.state]
    dsimp only
    rw [if_pos untouched.navCmd]
    exact Or.inr (ledger.start untouched.stored)
  | update navComplete doComplete =>
    have idle : mission.state ≠ .running := by
      rw [untouched.state]
      exact nofun
    rw [← Option.some.inj stepped, Mission.update, if_pos (Or.inl idle)]
    exact Or.inl untouched
  | setCurrentCmd index =>
    have zero : index = 0 := by
      simpa [initialisedFor, untouched.table] using initialised
    obtain ⟨after, returned, rfl⟩ := Option.map_eq_some_iff.mp stepped
    rcases ledger.setCurrentCmd (Or.inr zero) untouched.stored returned with same | after
    · exact Or.inl (same ▸ untouched)
    · exact Or.inr after
  | _ => exact nomatch flies

theorem counted_zeroed (index count : Nat) :
    counted index (List.replicate count ⟨0, 0⟩) = 0 := by
  induction count with
  | zero => rfl
  | succ count inductionHypothesis =>
    rw [List.replicate_succ, counted, inductionHypothesis]
    split
    · rfl
    · split <;> rfl

theorem packed_zeroed (count : Nat) : Packed (List.replicate count ⟨0, 0⟩) := by
  induction count with
  | zero => trivial
  | succ count inductionHypothesis =>
    rw [List.replicate_succ]
    exact ⟨fun impossible => absurd impossible (by decide), inductionHypothesis⟩

theorem constructed_tally (plan : Plan board) :
    (constructed plan).Kept plan (Tally plan.kind) :=
  ⟨rfl, packed_zeroed _, fun _ _ => counted_zeroed _ _, fun _ natural => natural,
    fun member => absurd member List.not_mem_nil⟩

section Runs

variable {fuel : Nat} {plan : Plan board} {calls : List Call} {final : Mission board}

theorem run_tally (flies : ∀ call ∈ calls, call.flies = true)
    (reached : runSteps (perform fuel) (constructed plan) calls = some final) :
    Tally plan.kind final.jumpTracking final.visits := by
  have along : Meets (perform fuel) (fun _ call => call.flies = true) (constructed plan) calls :=
    meets_of_forall calls (constructed plan) flies
  exact (runSteps_keeps (Mission.Kept plan (Tally plan.kind))
    (fun _ _ _ kept flies stepped => (tally_ledger plan.countable).perform flies kept stepped)
    (constructed_tally plan) along reached).2

/-- Once the table was initialised, no jump is passed too early. -/
theorem run_held (few : plan.jumps.length ≤ maxNumDoJumpCommands)
    (flies : ∀ call ∈ calls, call.flies = true)
    (initialised : Meets (perform fuel) (fun mission call => initialisedFor mission call = true)
      (constructed plan) calls)
    (reached : runSteps (perform fuel) (constructed plan) calls = some final) :
    Held plan.kind final.visits := by
  have ledger := settled_ledger plan.listed few
  have along : Meets (perform fuel) (fun _ call => call.flies = true) (constructed plan) calls :=
    meets_of_forall calls (constructed plan) flies
  have ends : Untouched plan final ∨ final.Kept plan (Settled plan.kind plan.jumps) := by
    refine runSteps_keeps
      (fun mission => Untouched plan mission ∨ mission.Kept plan (Settled plan.kind plan.jumps))
      ?_ (Or.inl ⟨rfl, rfl, rfl, rfl, rfl⟩) (along.and initialised) reached
    rintro mission call next (untouched | kept) ⟨flies, initialised⟩ stepped
    · exact ledger.perform_untouched flies initialised untouched stepped
    · exact Or.inr (ledger.perform flies kept stepped)
  rcases ends with untouched | kept
  · rw [untouched.visits]
    exact ledger.fresh.held
  · exact kept.2.held

end Runs

/-- The jumps run as they are counted. In a run of calls that fly the mission, in which
`set_current_cmd` does not search from a command before the table was initialised, a jump that is
to be taken a number of times was not taken more often since the table was last initialised, its
count is the number of times that it was taken, and in a mission with at most 15 jumps it was not
passed before it had been taken that often. -/
theorem jumps_run_as_counted {fuel : Nat} (plan : Plan board) (calls : List Call)
    (flies : ∀ call ∈ calls, call.flies = true)
    (initialised : Meets (perform fuel) (fun mission call => initialisedFor mission call = true)
      (constructed plan) calls)
    {final : Mission board} (reached : runSteps (perform fuel) (constructed plan) calls = some final)
    {index : Nat} {cmd : MissionCommand} (listed : index < plan.cmdTotal)
    (read : readCmdFromStorage plan index board.scratch = some cmd) (jump : cmd.id = doJump)
    (natural : 0 ≤ cmd.content.jumpNumTimes) :
    timesTaken index final.visits ≤ cmd.content.jumpNumTimes ∧
      counted index final.jumpTracking = timesTaken index final.visits ∧
      (plan.jumps.length ≤ maxNumDoJumpCommands →
        ∀ before, before ++ [.jump index false] <+: final.visits →
          cmd.content.jumpNumTimes ≤ timesTaken index before) := by
  have tally := run_tally flies reached
  have named := plan.index_ne_none listed
  have kind := plan.kind_of_read listed read
  rw [MissionCommand.kind, if_pos jump] at kind
  by_cases invalid : cmd.content.jumpTarget ≥ plan.cmdTotal ∨ cmd.content.jumpTarget = 0
  · -- a search ends at such a jump, it neither takes nor passes it
    rw [if_pos invalid] at kind
    have unmarked : ∀ taken, .jump index taken ∉ final.visits := by
      intro taken member
      obtain ⟨target, times, impossible⟩ := tally.marks member
      rw [kind] at impossible
      cases impossible
    refine ⟨?_, tally.counts named (fun target => by rw [kind]; exact fun impossible => by cases impossible), ?_⟩
    · rw [timesTaken, List.count_eq_zero.mpr (unmarked true)]
      exact natural
    · intro few before early
      exact absurd (early.subset (List.mem_append_right _ List.mem_cons_self)) (unmarked false)
  · rw [if_neg invalid] at kind
    have ends : cmd.content.jumpNumTimes ≠ jumpRepeatForever := by
      intro forever
      rw [forever] at natural
      exact absurd natural (by decide)
    exact ⟨tally.bounds kind natural, tally.counts named (ends_of_times kind ends),
      fun few before => run_held few flies initialised reached _ _ _ before kind natural⟩

/-- Two waypoints and a jump back to the first that is taken twice, flown to the end. -/
def loopPlan : Plan smallBoard := uploaded [navCmd, jumpCmd 1 2, navCmd]

def loopRun : List Call :=
  [.start, .update true false, .stop, .resume, .setCurrentCmd 1, .update true false,
    .update true false]

theorem jumps_run_as_counted_on_a_loop :
    ∃ final, runSteps (perform 9) (constructed loopPlan) loopRun = some final ∧
      timesTaken 2 final.visits ≤ 2 ∧
      counted 2 final.jumpTracking = timesTaken 2 final.visits ∧
      ∀ before, before ++ [.jump 2 false] <+: final.visits → 2 ≤ timesTaken 2 before := by
  obtain ⟨final, reached⟩ :
      ∃ final, runSteps (perform 9) (constructed loopPlan) loopRun = some final := ⟨_, rfl⟩
  obtain ⟨cmd, read, jump, twice⟩ : ∃ cmd,
      readCmdFromStorage loopPlan 2 smallBoard.scratch = some cmd ∧ cmd.id = doJump ∧
        cmd.content.jumpNumTimes = 2 := ⟨_, rfl, by decide +kernel, by decide +kernel⟩
  have counted := jumps_run_as_counted loopPlan loopRun (by decide) (by decide +kernel) reached
    (by decide +kernel) read jump (by rw [twice]; decide)
  rw [twice] at counted
  exact ⟨final, reached, counted.1, counted.2.1, counted.2.2 (by decide +kernel)⟩

/-- On an object that was just constructed, `set_current_cmd` passes a jump that is to be taken
once and was never taken. -/
theorem setCurrentCmd_passes_jump :
    ∃ final, runSteps (perform 9) (constructed (uploaded [navCmd, jumpCmd 1 1, navCmd]))
        [.setCurrentCmd 2] = some final ∧
      final.visits = [.jump 2 false, .found 3] ∧
      (uploaded [navCmd, jumpCmd 1 1, navCmd]).kind 2 = .jump 1 1 ∧
      (uploaded [navCmd, jumpCmd 1 1, navCmd]).jumps = [2] := by
  refine ⟨_, rfl, ?_, ?_, ?_⟩ <;> decide +kernel

end Urus.ApMission
