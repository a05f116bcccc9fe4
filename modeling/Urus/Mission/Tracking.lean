/-
This file is about the jump tracking table as a map from jumps to counts. The table is a
list that is filled from the front: `counted` reads the count of a jump off it, and is
zero for a jump that has no entry yet, so looking a jump up leaves all counts alone even
though it makes an entry.

The map is faithful as long as there is room. A table that was initialised, and in which
the jumps of a mission are looked up, has room for all of them if they are not more than
its entries: `Tracked`. A table that was never initialised has room for none of them, and
every one of them counts as used up: `Stale`. A search makes its decisions by `timesRun`,
and what it needs to know of a table is the same in both cases: `Healthy`.
-/

import Urus.Mission.Walk

namespace Urus.ApMission

variable {board : Board}

/-! ### Counts -/

/-- The count of a jump, zero if it has no entry. -/
def counted (index : Nat) : List JumpTracking → Int
  | [] => 0
  | entry :: rest =>
    if entry.index = index then entry.numTimesRun
    else if entry.index = indexNone then 0
    else counted index rest

/-- There is an entry for a jump, or a free one. -/
def HasRoom (index : Nat) (table : List JumpTracking) : Prop :=
  ∃ entry ∈ table, entry.index = index ∨ entry.index = indexNone

/-- The free entries are at the end. -/
def Packed : List JumpTracking → Prop
  | [] => True
  | entry :: rest =>
    (entry.index = indexNone → ∀ other ∈ rest, other.index = indexNone) ∧ Packed rest

variable {entry : JumpTracking} {index : Nat} {table : List JumpTracking}

theorem HasRoom.of_cons {rest : List JumpTracking} (room : HasRoom index (entry :: rest))
    (other : entry.index ≠ index) (taken : entry.index ≠ indexNone) : HasRoom index rest := by
  obtain ⟨entry', member, fits⟩ := room
  rcases List.mem_cons.mp member with rfl | inRest
  · rcases fits with same | free
    · exact absurd same other
    · exact absurd free taken
  · exact ⟨entry', inRest, fits⟩

theorem counted_free (named : index ≠ indexNone) (free : ∀ entry ∈ table, entry.index = indexNone) :
    counted index table = 0 := by
  cases table with
  | nil => rfl
  | cons entry rest =>
    have unset := free entry List.mem_cons_self
    rw [counted, if_neg (by rw [unset]; exact named.symm), if_pos unset]

theorem findJump_room (room : HasRoom index table) :
    (findJump index table).1 = counted index table := by
  induction table with
  | nil =>
    obtain ⟨_, member, _⟩ := room
    exact absurd member List.not_mem_nil
  | cons entry rest inductionHypothesis =>
    simp only [findJump, counted]
    by_cases same : entry.index = index
    · rw [if_pos same, if_pos same]
    · rw [if_neg same, if_neg same]
      by_cases free : entry.index = indexNone
      · rw [if_pos free, if_pos free]
      · rw [if_neg free, if_neg free]
        exact inductionHypothesis (room.of_cons same free)

theorem findJump_full (full : ¬ HasRoom index table) :
    findJump index table = (jumpTimesMax, table) := by
  induction table with
  | nil => rfl
  | cons entry rest inductionHypothesis =>
    have same : entry.index ≠ index :=
      fun same => full ⟨entry, List.mem_cons_self, Or.inl same⟩
    have free : entry.index ≠ indexNone :=
      fun free => full ⟨entry, List.mem_cons_self, Or.inr free⟩
    have fullRest : ¬ HasRoom index rest :=
      fun ⟨other, member, fits⟩ => full ⟨other, List.mem_cons_of_mem _ member, fits⟩
    rw [findJump, if_neg same, if_neg free, inductionHypothesis fullRest]

/-- Looking a jump up leaves all counts alone. -/
theorem counted_findJump (named : index ≠ indexNone) {other : Nat} (namedOther : other ≠ indexNone)
    (packed : Packed table) :
    counted other (findJump index table).2 = counted other table := by
  induction table with
  | nil => rfl
  | cons entry rest inductionHypothesis =>
    simp only [findJump]
    by_cases same : entry.index = index
    · rw [if_pos same]
    · rw [if_neg same]
      by_cases free : entry.index = indexNone
      · rw [if_pos free, counted_free namedOther (List.forall_mem_cons.mpr ⟨free, packed.1 free⟩),
          counted]
        split
        · rfl
        · exact counted_free namedOther (packed.1 free)
      · rw [if_neg free]
        simp only [counted, inductionHypothesis packed.2]

theorem counted_countJump_self (room : HasRoom index table) :
    counted index (countJump index table) = Int.bmod (counted index table + 1) (2 ^ 16) := by
  induction table with
  | nil =>
    obtain ⟨_, member, _⟩ := room
    exact absurd member List.not_mem_nil
  | cons entry rest inductionHypothesis =>
    simp only [countJump, counted]
    by_cases same : entry.index = index
    · rw [if_pos same, if_pos same, counted, if_pos same]
    · rw [if_neg same, if_neg same]
      by_cases free : entry.index = indexNone
      · rw [if_pos free, if_pos free, counted, if_pos rfl]
        rfl
      · rw [if_neg free, if_neg free, counted, if_neg same, if_neg free]
        exact inductionHypothesis (room.of_cons same free)

theorem counted_countJump_other {index other : Nat} (different : other ≠ index)
    (namedOther : other ≠ indexNone) (packed : Packed table) (named : index ≠ indexNone) :
    counted other (countJump index table) = counted other table := by
  induction table with
  | nil => rfl
  | cons entry rest inductionHypothesis =>
    simp only [countJump]
    by_cases same : entry.index = index
    · rw [if_pos same, counted, counted, same, if_neg different.symm, if_neg different.symm]
    · rw [if_neg same]
      by_cases free : entry.index = indexNone
      · rw [if_pos free, counted_free namedOther (List.forall_mem_cons.mpr ⟨free, packed.1 free⟩),
          counted, if_neg different.symm, if_neg named, counted_free namedOther (packed.1 free)]
      · rw [if_neg free, counted, counted, inductionHypothesis packed.2]

/-! ### The entries of the table -/

/-- The jumps that have an entry. -/
def tracked (table : List JumpTracking) : List Nat :=
  (table.map JumpTracking.index).filter fun index => index != indexNone

theorem tracked_cons (entry : JumpTracking) (rest : List JumpTracking) :
    tracked (entry :: rest) =
      if entry.index = indexNone then tracked rest else entry.index :: tracked rest := by
  simp only [tracked, List.map_cons, List.filter_cons, bne_iff_ne, ne_eq, ite_not]

theorem tracked_free (free : ∀ entry ∈ table, entry.index = indexNone) : tracked table = [] := by
  rw [tracked, List.filter_eq_nil_iff]
  intro index member
  obtain ⟨entry, inTable, rfl⟩ := List.mem_map.mp member
  simp only [free entry inTable, bne_self_eq_false, Bool.false_eq_true, not_false_eq_true]

/-- A lookup makes an entry for a jump that has none, if there is room. -/
theorem tracked_findJump (named : index ≠ indexNone) (packed : Packed table) :
    tracked (findJump index table).2 = tracked table ∨
      index ∉ tracked table ∧ tracked (findJump index table).2 = tracked table ++ [index] := by
  induction table with
  | nil => exact Or.inl rfl
  | cons entry rest inductionHypothesis =>
    simp only [findJump]
    by_cases same : entry.index = index
    · rw [if_pos same]
      exact Or.inl rfl
    · rw [if_neg same]
      by_cases free : entry.index = indexNone
      · rw [if_pos free]
        right
        rw [tracked_cons, tracked_cons, if_pos free, if_neg named, tracked_free (packed.1 free)]
        exact ⟨List.not_mem_nil, rfl⟩
      · rw [if_neg free, tracked_cons, tracked_cons, if_neg free, if_neg free]
        rcases inductionHypothesis packed.2 with kept | ⟨fresh, added⟩
        · exact Or.inl (congrArg _ kept)
        · refine Or.inr ⟨?_, congrArg _ added⟩
          rw [List.mem_cons, not_or]
          exact ⟨fun equal => same equal.symm, fresh⟩

theorem indices_countJump (index : Nat) (table : List JumpTracking) :
    (countJump index (findJump index table).2).map JumpTracking.index =
      (findJump index table).2.map JumpTracking.index := by
  induction table with
  | nil => rfl
  | cons entry rest inductionHypothesis =>
    simp only [findJump]
    by_cases same : entry.index = index
    · simp only [if_pos same, countJump, List.map_cons]
    · simp only [if_neg same]
      by_cases free : entry.index = indexNone
      · simp only [if_pos free, countJump, if_true, List.map_cons]
      · simp only [if_neg free, countJump, if_neg same, List.map_cons, inductionHypothesis]

theorem length_findJump (index : Nat) (table : List JumpTracking) :
    (findJump index table).2.length = table.length := by
  induction table with
  | nil => rfl
  | cons entry rest inductionHypothesis =>
    simp only [findJump]
    split
    · rfl
    · split
      · rfl
      · rw [List.length_cons, List.length_cons, inductionHypothesis]

theorem packed_findJump (named : index ≠ indexNone) (packed : Packed table) :
    Packed (findJump index table).2 := by
  induction table with
  | nil => trivial
  | cons entry rest inductionHypothesis =>
    simp only [findJump]
    split
    · exact packed
    · split
      · exact ⟨fun impossible => absurd impossible named, packed.2⟩
      · rename_i taken
        exact ⟨fun impossible => absurd impossible taken, inductionHypothesis packed.2⟩

theorem packed_countJump (named : index ≠ indexNone) (packed : Packed table) :
    Packed (countJump index table) := by
  induction table with
  | nil => trivial
  | cons entry rest inductionHypothesis =>
    simp only [countJump]
    split
    · rename_i same
      exact ⟨fun impossible => absurd (same.symm.trans impossible) named, packed.2⟩
    · split
      · exact ⟨fun impossible => absurd impossible named, packed.2⟩
      · rename_i taken
        exact ⟨fun impossible => absurd impossible taken, inductionHypothesis packed.2⟩

/-- The table of a mission whose jumps all fit into it. -/
structure Tracked (jumps : List Nat) (table : List JumpTracking) : Prop where
  packed : Packed table
  distinct : (tracked table).Nodup
  within : ∀ index ∈ tracked table, index ∈ jumps
  long : jumps.length ≤ table.length
  natural : ∀ index, index ≠ indexNone → 0 ≤ counted index table

namespace Tracked

variable {jumps : List Nat} {table : List JumpTracking}

variable {index : Nat}

theorem room (tracks : Tracked jumps table) (member : index ∈ jumps) :
    HasRoom index table := by
  by_contra full
  have named : ∀ entry ∈ table, entry.index ≠ index ∧ entry.index ≠ indexNone :=
    fun entry inTable => ⟨fun same => full ⟨entry, inTable, Or.inl same⟩,
      fun free => full ⟨entry, inTable, Or.inr free⟩⟩
  have every : tracked table = table.map JumpTracking.index := by
    rw [tracked, List.filter_eq_self]
    intro other inIndices
    obtain ⟨entry, inTable, rfl⟩ := List.mem_map.mp inIndices
    exact bne_iff_ne.mpr (named entry inTable).2
  have fresh : index ∉ tracked table := by
    rw [every]
    intro inIndices
    obtain ⟨entry, inTable, same⟩ := List.mem_map.mp inIndices
    exact (named entry inTable).1 same
  have count := (List.subperm_of_subset (List.nodup_cons.mpr ⟨fresh, tracks.distinct⟩)
    (List.cons_subset.mpr ⟨member, tracks.within⟩)).length_le
  rw [List.length_cons, every, List.length_map] at count
  have long := tracks.long
  omega

theorem findJump (tracks : Tracked jumps table) (member : index ∈ jumps) (named : index ≠ indexNone)
    : Tracked jumps (findJump index table).2 where
  packed := packed_findJump named tracks.packed
  distinct := by
    rcases tracked_findJump named tracks.packed with kept | ⟨fresh, added⟩
    · rw [kept]
      exact tracks.distinct
    · rw [added, List.nodup_append]
      refine ⟨tracks.distinct, List.nodup_singleton _, fun first inFirst second inSecond => ?_⟩
      rw [List.mem_singleton.mp inSecond]
      exact fun same => fresh (same ▸ inFirst)
  within := by
    rcases tracked_findJump named tracks.packed with kept | ⟨fresh, added⟩
    · rw [kept]
      exact tracks.within
    · rw [added]
      intro other inTable
      rcases List.mem_append.mp inTable with old | new
      · exact tracks.within other old
      · rw [List.mem_singleton.mp new]
        exact member
  long := by
    rw [length_findJump]
    exact tracks.long
  natural := by
    intro other namedOther
    rw [counted_findJump named namedOther tracks.packed]
    exact tracks.natural other namedOther

theorem counted_countJump (tracks : Tracked jumps table) (member : index ∈ jumps)
    (named : index ≠ indexNone) (below : counted index table < jumpTimesMax) :
    counted index (ApMission.countJump index (ApMission.findJump index table).2) =
      counted index table + 1 := by
  have least := tracks.natural index named
  rw [jumpTimesMax] at below
  rw [counted_countJump_self ((tracks.findJump member named).room member),
    counted_findJump named named tracks.packed]
  exact Int.bmod_eq_of_le (by omega) (by omega)

theorem countJump (tracks : Tracked jumps table) (member : index ∈ jumps)
    (named : index ≠ indexNone) (below : counted index table < jumpTimesMax) :
    Tracked jumps (ApMission.countJump index (ApMission.findJump index table).2) := by
  have found := tracks.findJump member named
  have indices := indices_countJump index table
  have same : tracked (ApMission.countJump index (ApMission.findJump index table).2) =
      tracked (ApMission.findJump index table).2 := by
    rw [tracked, tracked, indices]
  refine ⟨packed_countJump named found.packed, same ▸ found.distinct, same ▸ found.within, ?_,
    fun other namedOther => ?_⟩
  · have lengths := congrArg List.length indices
    rw [List.length_map, List.length_map] at lengths
    rw [lengths]
    exact found.long
  · by_cases self : other = index
    · rw [self, tracks.counted_countJump member named below]
      have least := tracks.natural index named
      omega
    · rw [counted_countJump_other self namedOther found.packed named]
      exact found.natural other namedOther

end Tracked

/-! ### The table after `init_jump_tracking` -/

theorem initJumpTracking_free (member : entry ∈ initJumpTracking) :
    entry.index = indexNone := by rw [List.eq_of_mem_replicate member]

theorem initJumpTracking_packed : Packed initJumpTracking := by
  simp [initJumpTracking, maxNumDoJumpCommands, Packed, List.replicate]

theorem counted_initJumpTracking (named : index ≠ indexNone) :
    counted index initJumpTracking = 0 :=
  counted_free named fun _ => initJumpTracking_free

theorem initJumpTracking_tracked {jumps : List Nat}
    (few : jumps.length ≤ maxNumDoJumpCommands) : Tracked jumps initJumpTracking where
  packed := initJumpTracking_packed
  distinct := by
    rw [tracked_free fun _ => initJumpTracking_free]
    exact List.nodup_nil
  within := by
    rw [tracked_free fun _ => initJumpTracking_free]
    exact fun _ impossible => absurd impossible List.not_mem_nil
  long := by
    rw [initJumpTracking, List.length_replicate]
    exact few
  natural := fun _ named => le_of_eq (counted_initJumpTracking named).symm

/-! ### What a search sees of the table -/

/-- The number of times that a search takes a jump to have been run. -/
def timesRun (index : Nat) (table : List JumpTracking) : Int := (findJump index table).1

/-- A program whose jumps can be counted and are listed. -/
structure Listed (program : Nat → Kind) (jumps : List Nat) : Prop extends Countable program where
  member : ∀ {index target times}, program index = .jump target times → index ∈ jumps

/-- A table that was never initialised, or one that has room for all jumps. -/
def Healthy (program : Nat → Kind) (jumps : List Nat) (table : List JumpTracking) : Prop :=
  Stale program table ∨ Tracked jumps table

namespace Healthy

variable {program : Nat → Kind} {jumps : List Nat} {table : List JumpTracking} {index target : Nat}
  {times : Int}

theorem findJump (healthy : Healthy program jumps table) (listed : Listed program jumps)
    (jump : program index = .jump target times) :
    Healthy program jumps (findJump index table).2 := by
  rcases healthy with stale | tracks
  · rw [stale index target times jump]
    exact Or.inl stale
  · exact Or.inr (tracks.findJump (listed.member jump) (listed.named jump))

variable {other target' : Nat}

section

variable (healthy : Healthy program jumps table)

include healthy

/-- Looking a jump up changes nothing that a search sees. -/
theorem timesRun_findJump (listed : Listed program jumps)
    (jump : program index = .jump target times) {times' : Int}
    (jump' : program other = .jump target' times') :
    timesRun other (ApMission.findJump index table).2 = timesRun other table := by
  rcases healthy with stale | tracks
  · rw [stale index target times jump]
  · have found := tracks.findJump (listed.member jump) (listed.named jump)
    rw [timesRun, timesRun, findJump_room (found.room (listed.member jump')),
      findJump_room (tracks.room (listed.member jump')),
      counted_findJump (listed.named jump) (listed.named jump') tracks.packed]

theorem tracked_of_left (listed : Listed program jumps)
    (jump : program index = .jump target times) (left : timesRun index table < times) :
    Tracked jumps table ∧ counted index table < jumpTimesMax := by
  have bounded := listed.bounded jump
  rcases healthy with stale | tracks
  · rw [timesRun, stale index target times jump] at left
    exact absurd left (not_lt.mpr bounded)
  · rw [timesRun, findJump_room (tracks.room (listed.member jump))] at left
    exact ⟨tracks, lt_of_lt_of_le left bounded⟩

theorem countJump (listed : Listed program jumps)
    (jump : program index = .jump target times) (left : timesRun index table < times) :
    Healthy program jumps (countJump index (ApMission.findJump index table).2) := by
  obtain ⟨tracks, below⟩ := healthy.tracked_of_left listed jump left
  exact Or.inr (tracks.countJump (listed.member jump) (listed.named jump) below)

theorem timesRun_countJump (listed : Listed program jumps)
    (jump : program index = .jump target times) (left : timesRun index table < times) {times' : Int}
    (jump' : program other = .jump target' times') :
    timesRun other (ApMission.countJump index (ApMission.findJump index table).2) =
      timesRun other table + if other = index then 1 else 0 := by
  obtain ⟨tracks, below⟩ := healthy.tracked_of_left listed jump left
  have counted := tracks.countJump (listed.member jump) (listed.named jump) below
  rw [timesRun, timesRun, findJump_room (counted.room (listed.member jump')),
    findJump_room (tracks.room (listed.member jump'))]
  by_cases self : other = index
  · rw [if_pos self, self, tracks.counted_countJump (listed.member jump) (listed.named jump) below]
  · rw [if_neg self, add_zero, counted_countJump_other self (listed.named jump')
      (tracks.findJump (listed.member jump) (listed.named jump)).packed (listed.named jump),
      counted_findJump (listed.named jump) (listed.named jump') tracks.packed]

end

end Healthy

/-- Two tables in which a search sees the same counts. -/
structure Alike (program : Nat → Kind) (jumps : List Nat) (first second : List JumpTracking) :
    Prop where
  healthyFirst : Healthy program jumps first
  healthySecond : Healthy program jumps second
  same : ∀ {index target times}, program index = .jump target times →
    timesRun index first = timesRun index second

namespace Alike

variable {program : Nat → Kind} {jumps : List Nat} {first second third : List JumpTracking}
  {index target : Nat} {times : Int}

theorem refl (healthy : Healthy program jumps first) : Alike program jumps first first :=
  ⟨healthy, healthy, fun _ => rfl⟩

theorem symm (alike : Alike program jumps first second) : Alike program jumps second first :=
  ⟨alike.healthySecond, alike.healthyFirst, fun jump => (alike.same jump).symm⟩

theorem trans (alike : Alike program jumps first second)
    (alike' : Alike program jumps second third) : Alike program jumps first third :=
  ⟨alike.healthyFirst, alike'.healthySecond, fun jump => (alike.same jump).trans (alike'.same jump)⟩

/-- A table and the table after a lookup. -/
theorem lookup (healthy : Healthy program jumps first) (listed : Listed program jumps)
    (jump : program index = .jump target times) :
    Alike program jumps first (findJump index first).2 :=
  ⟨healthy, healthy.findJump listed jump, fun jump' =>
    (healthy.timesRun_findJump listed jump jump').symm⟩

theorem findJump (alike : Alike program jumps first second) (listed : Listed program jumps)
    (jump : program index = .jump target times) :
    Alike program jumps (findJump index first).2 (findJump index second).2 :=
  ((lookup alike.healthyFirst listed jump).symm.trans alike).trans (lookup alike.healthySecond listed jump)

theorem countJump (alike : Alike program jumps first second) (listed : Listed program jumps)
    (jump : program index = .jump target times) (left : timesRun index first < times) :
    Alike program jumps (countJump index (ApMission.findJump index first).2)
      (countJump index (ApMission.findJump index second).2) := by
  have leftSecond : timesRun index second < times := alike.same jump ▸ left
  refine ⟨alike.healthyFirst.countJump listed jump left, alike.healthySecond.countJump listed jump leftSecond,
    fun jump' => ?_⟩
  rw [alike.healthyFirst.timesRun_countJump listed jump left jump',
    alike.healthySecond.timesRun_countJump listed jump leftSecond jump', alike.same jump']

end Alike

/-- A walk that does not count changes nothing that a search sees. -/
theorem walk_lookup {program : Nat → Kind} {jumps : List Nat} (listed : Listed program jumps)
    (maxLoops index jumpIndex : Nat) (healthy : Healthy program jumps table) :
    Alike program jumps table (walk program false maxLoops index jumpIndex table).table := by
  induction maxLoops generalizing index jumpIndex table with
  | zero =>
    unfold walk
    cases program index <;> exact Alike.refl healthy
  | succ maxLoops inductionHypothesis =>
    unfold walk
    cases kind : program index with
    | halt => exact Alike.refl healthy
    | nav => exact Alike.refl healthy
    | act => exact Alike.refl healthy
    | jump target times =>
      have looked := Alike.lookup healthy listed kind
      dsimp only
      split
      · exact Alike.refl healthy
      · split
        · exact inductionHypothesis _ _ healthy
        · split <;> exact looked.trans (inductionHypothesis _ _ looked.healthySecond)

/-! ### The jumps of a mission -/

/-- The jumps of a stored mission. A jump with an invalid target ends a search and is not one of
them. -/
def Plan.jumps (plan : Plan board) : List Nat :=
  (List.range plan.cmdTotal).filter fun index =>
    match plan.kind index with
    | .jump _ _ => true
    | _ => false

theorem Plan.listed (plan : Plan board) : Listed plan.kind plan.jumps where
  named := plan.countable.named
  bounded := plan.countable.bounded
  member := by
    intro index target times jump
    rw [Plan.jumps, List.mem_filter, List.mem_range, jump]
    exact ⟨plan.listed_of_jump jump, rfl⟩

end Urus.ApMission
