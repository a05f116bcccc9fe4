/-
This file is about hiding the variables of disabled groups. Behind an enable variable that
is 0, `next_scalar` passes over the variables with the same key, and below the top level of
a group only over those with the same six lowest bits of the identifier.

These bits name the row of the top level group table. So what is passed over is the rest of
the enable variable's group when it stands in the top level group or in a group below it. In
a group further down it is the rest of the enclosing group as well.
-/

import Urus.Lib.Sieve
import Urus.Param.Enumeration
import Urus.Param.RoundTrip

namespace Urus.Param

/-! ### What is hidden -/

/-- An enable variable that is 0. -/
def Leaf.disables (memory : Memory) (leaf : Leaf) : Bool :=
  decide (leaf.type = .int8) &&
    (leaf.ginfo.any fun entry =>
      entry.flags.testBit enableFlag && !entry.flags.testBit ignoreEnableFlag) &&
    leaf.address.any fun address => memory.bytes address == 0

/-- The group of the first variable is the group of the second, or encloses it. -/
def Leaf.encloses (first second : Leaf) : Bool :=
  first.vindex == second.vindex && first.nesting.isPrefixOf second.nesting

/-- The first variable hides the second when it comes first. -/
def Leaf.hides (memory : Memory) (first second : Leaf) : Bool :=
  first.disables memory && first.encloses second

/-- The second variable is in the same group as the first, counting only the groups that the table
of the top level group has as rows. -/
def Leaf.sharesTop (first second : Leaf) : Bool :=
  first.vindex == second.vindex && (first.nesting.take 1).isPrefixOf second.nesting

/-- The first variable makes the walk pass over the second when it comes first. -/
def Leaf.shadows (memory : Memory) (frameTypeFlags : Nat) (first second : Leaf) : Bool :=
  first.shown frameTypeFlags && first.disables memory && first.sharesTop second

/-- The address is one of the variable's. -/
def Leaf.holds (leaf : Leaf) (address : Int) : Bool :=
  leaf.address.any fun place =>
    decide (place ≤ address ∧ address < place + typeSize leaf.type.code)

/-- In front of the variable at an address is one that hides it. -/
def hiddenBy (hides : Leaf → Leaf → Bool) : List Leaf → Int → Bool
  | [], _ => false
  | leaf :: rest, address =>
    (rest.any fun other => other.holds address && hides leaf other) || hiddenBy hides rest address

section Scalars

variable (table : List Info) (memory : Memory) (frameTypeFlags : Nat)

/-- What the calls of `next_scalar` from a token on return. -/
def scalarsFrom (hideDisabledGroups : Bool) : (fuel : Nat) → Token → Option (List Hit)
  | 0, _ => none
  | fuel + 1, token =>
    match nextScalar table memory frameTypeFlags hideDisabledGroups fuel token with
    | none => none
    | some (_, none) => some []
    | some (token, some hit) => (scalarsFrom hideDisabledGroups fuel token).map (hit :: ·)

/-- What the calls of `next_scalar` return behind the first variable, which `first` returns. -/
def scalars (hideDisabledGroups : Bool) (fuel : Nat) : Option (List Hit) :=
  scalarsFrom table memory frameTypeFlags hideDisabledGroups fuel (first table memory).1

/-- Hiding removes from the scalars those behind an enable variable that is 0, in its group and the
groups below, and nothing else. -/
def HidesExactly : Prop :=
  ∃ enough, ∀ fuel ≥ enough, ∃ shown,
    scalars table memory frameTypeFlags false fuel = some shown ∧
      scalars table memory frameTypeFlags true fuel = some (shown.filter fun hit =>
        !hiddenBy (Leaf.hides memory) (leaves table memory) hit.address)

/-- The walk passes over a variable, behind those in front of it in the table, exactly when it is
hidden. An enable variable that is 0 in another group below the same top level one makes no
difference to it, and neither does one that is not shown. -/
structure PassedRightly (before : List Leaf) (leaf : Leaf) : Prop where
  reach : ∀ first ∈ before, first.shadows memory frameTypeFlags leaf = true →
    first.encloses leaf = false → ∃ other ∈ before, other.hides memory leaf = true
  frame : ∀ first ∈ before, first.hides memory leaf = true → first.shown frameTypeFlags = false →
    ∃ other ∈ before, other.shadows memory frameTypeFlags leaf = true

end Scalars

/-! ### Groups and identifiers -/

section Group

variable {memory : Memory} {vindex : Nat} {info : Info}

variable {entry : Entry} {groupBase groupShift prefixLength usedMask : Nat} {nesting : List Entry}
  {object : Option Int}

/-- The group in the table that a variable is below gives the digit of the identifier. -/
theorem groupLeaves_digit {group : GroupInfo}
    (accepted : checkGroupInfo group groupShift prefixLength usedMask = true)
    (below : groupBase < 2 ^ groupShift) (level : Level groupShift) {leaf : Leaf}
    (member : leaf ∈ groupLeaves memory vindex info group groupBase groupShift nesting object)
    {deeper : List Entry} (path : leaf.nesting = nesting ++ entry :: deeper) :
    levelDigit leaf.groupElement groupShift = digit entry groupShift := by
  induction group generalizing usedMask with
  | groupEnd => exact absurd member List.not_mem_nil
  | element row type rest restHypothesis =>
    obtain ⟨-, -, tail⟩ := checkGroupInfo_element accepted
    rcases List.mem_cons.mp member with rfl | later
    · exact absurd path (by simp)
    · exact restHypothesis tail later
  | group row nested rest nestedHypothesis restHypothesis =>
    obtain ⟨⟨small, -⟩, depth, inner, tail⟩ := checkGroupInfo_group accepted
    rcases List.mem_append.mp member with inside | later
    · obtain ⟨-, -, -, further, nestedPath⟩ := groupLeaves_nesting _ _ _ _ _ _ _ _ leaf inside
      rw [path, List.append_assoc] at nestedPath
      obtain ⟨rfl, -⟩ := List.cons.inj (List.append_cancel_left nestedPath)
      obtain ⟨-, low, -, -⟩ := groupLeaves_spec memory vindex info nested _ _ _ _ _ _ inner
        (nestedBase_lt small below) (level.next depth) leaf inside
      rw [groupId_eq] at low
      exact (levelDigit_of_mod (digit entry groupShift) below low).1
    · exact restHypothesis tail later
  | unset row rest restHypothesis =>
    obtain ⟨-, -, tail⟩ := checkGroupInfo_unset accepted
    exact restHypothesis tail member

theorem rest_outside {rest : GroupInfo}
    (tail : checkGroupInfo rest groupShift prefixLength (usedMask ||| 2 ^ checkedIdx groupShift entry.idx) = true)
    (below : groupBase < 2 ^ groupShift) (level : Level groupShift) :
    ∀ leaf ∈ groupLeaves memory vindex info rest groupBase groupShift nesting object,
      ¬ nesting ++ [entry] <+: leaf.nesting := by
  rintro leaf later ⟨deeper, path⟩
  rw [List.append_assoc, List.singleton_append] at path
  exact groupLeaves_rest_digit memory vindex info tail below level leaf later
    (groupLeaves_digit tail below level later path.symm)

/-- The variables below a path of groups stand next to each other. -/
theorem groupLeaves_isRun (path : List Entry) (group : GroupInfo)
    (groupBase groupShift prefixLength usedMask : Nat) (nesting : List Entry) (object : Option Int)
    (accepted : checkGroupInfo group groupShift prefixLength usedMask = true)
    (below : groupBase < 2 ^ groupShift) (level : Level groupShift) :
    IsRun (fun leaf => path.isPrefixOf leaf.nesting)
      (groupLeaves memory vindex info group groupBase groupShift nesting object) := by
  by_cases above : path <+: nesting
  · refine isRun_all fun leaf member => List.isPrefixOf_iff_prefix.mpr ?_
    obtain ⟨-, -, -, deeper, here⟩ := groupLeaves_nesting _ _ _ _ _ _ _ _ leaf member
    exact above.trans ⟨deeper, here.symm⟩
  induction group generalizing groupBase groupShift prefixLength usedMask nesting object with
  | groupEnd => exact isRun_none fun leaf member => absurd member List.not_mem_nil
  | element entry type rest restHypothesis =>
    obtain ⟨-, -, tail⟩ := checkGroupInfo_element accepted
    rw [groupLeaves, ← List.singleton_append]
    refine (restHypothesis _ _ _ _ _ _ tail below level above).behind fun leaf member => ?_
    rw [List.mem_singleton.mp member, ← Bool.not_eq_true, List.isPrefixOf_iff_prefix]
    exact above
  | group entry nested rest nestedHypothesis restHypothesis =>
    obtain ⟨⟨small, -⟩, depth, inner, tail⟩ := checkGroupInfo_group accepted
    have later := restHypothesis groupBase groupShift prefixLength _ nesting object tail below level
      above
    -- Either the path leads through this row, and then no later variable is below it, or no
    -- variable of this row is.
    by_cases through : nesting ++ [entry] <+: path
    · have outside : ∀ leaf ∈ groupLeaves memory vindex info rest groupBase groupShift nesting
          object, path.isPrefixOf leaf.nesting = false := by
        intro leaf member
        rw [← Bool.not_eq_true, List.isPrefixOf_iff_prefix]
        exact fun inside => rest_outside tail below level leaf member (through.trans inside)
      refine IsRun.before ?_ outside
      by_cases whole : path <+: nesting ++ [entry]
      · refine isRun_all fun leaf member => List.isPrefixOf_iff_prefix.mpr ?_
        obtain ⟨-, -, -, deeper, here⟩ := groupLeaves_nesting _ _ _ _ _ _ _ _ leaf member
        exact whole.trans ⟨deeper, here.symm⟩
      · exact nestedHypothesis _ _ _ _ _ _ inner (nestedBase_lt small below) (level.next depth) whole
    · refine later.behind fun leaf member => ?_
      obtain ⟨-, -, -, deeper, here⟩ := groupLeaves_nesting _ _ _ _ _ _ _ _ leaf member
      rw [← Bool.not_eq_true, List.isPrefixOf_iff_prefix]
      intro inside
      have own : nesting ++ [entry] <+: leaf.nesting := ⟨deeper, here.symm⟩
      rcases List.prefix_or_prefix_of_prefix own inside with longer | shorter
      · exact through longer
      · rcases List.prefix_concat_iff.mp shorter with same | short
        · exact through (same ▸ List.prefix_rfl)
        · exact above short
  | unset entry rest restHypothesis =>
    obtain ⟨-, -, tail⟩ := checkGroupInfo_unset accepted
    exact restHypothesis _ _ _ _ _ _ tail below level above

/-- Variables with the same digit are below the same row. -/
theorem groupLeaves_head {group : GroupInfo}
    (accepted : checkGroupInfo group groupShift prefixLength usedMask = true)
    (below : groupBase < 2 ^ groupShift) (level : Level groupShift) {first second : Leaf}
    (firstMember : first ∈ groupLeaves memory vindex info group groupBase groupShift nesting object)
    (secondMember : second ∈ groupLeaves memory vindex info group groupBase groupShift nesting object)
    (through : nesting ++ [entry] <+: first.nesting)
    (same : levelDigit second.groupElement groupShift = digit entry groupShift) :
    nesting ++ [entry] <+: second.nesting := by
  induction group generalizing usedMask with
  | groupEnd => exact absurd firstMember List.not_mem_nil
  | element row type rest restHypothesis =>
    obtain ⟨⟨small, -⟩, -, tail⟩ := checkGroupInfo_element accepted
    rcases List.mem_cons.mp firstMember with rfl | firstLater
    · obtain ⟨deeper, path⟩ := through
      exact absurd path (by simp)
    · rcases List.mem_cons.mp secondMember with rfl | secondLater
      · obtain ⟨deeper, path⟩ := through
        rw [List.append_assoc, List.singleton_append] at path
        obtain ⟨own, -⟩ := levelDigit_of_mod (digit row groupShift) below
          (by rw [Nat.mod_eq_of_lt (nestedBase_lt small below), groupId_eq])
        refine absurd ?_ (groupLeaves_rest_digit memory vindex info tail below level first firstLater)
        rw [groupLeaves_digit tail below level firstLater path.symm, ← same]
        exact own
      · exact restHypothesis tail firstLater secondLater
  | group row nested rest nestedHypothesis restHypothesis =>
    obtain ⟨⟨small, -⟩, depth, inner, tail⟩ := checkGroupInfo_group accepted
    have belowRow : ∀ leaf ∈ groupLeaves memory vindex info nested (groupId row groupBase groupShift)
        (groupShift + groupLevelShift) (nesting ++ [row]) (object.bind (nestedObject memory row)),
        nesting ++ [row] <+: leaf.nesting ∧
          levelDigit leaf.groupElement groupShift = digit row groupShift := by
      intro leaf inside
      obtain ⟨-, -, -, deeper, path⟩ := groupLeaves_nesting _ _ _ _ _ _ _ _ leaf inside
      refine ⟨⟨deeper, path.symm⟩, ?_⟩
      rw [List.append_assoc, List.singleton_append] at path
      exact groupLeaves_digit accepted below level (List.mem_append_left _ inside) path
    rcases List.mem_append.mp firstMember with firstInside | firstLater
    · have row : entry = row := by
        obtain ⟨deeper, path⟩ := through
        obtain ⟨further, here⟩ := (belowRow first firstInside).1
        rw [← here, List.append_assoc, List.append_assoc] at path
        exact (List.cons.inj (List.append_cancel_left path)).1
      subst row
      rcases List.mem_append.mp secondMember with secondInside | secondLater
      · exact (belowRow second secondInside).1
      · exact absurd same (groupLeaves_rest_digit memory vindex info tail below level second secondLater)
    · rcases List.mem_append.mp secondMember with secondInside | secondLater
      · obtain ⟨deeper, path⟩ := through
        rw [List.append_assoc, List.singleton_append] at path
        refine absurd ?_ (groupLeaves_rest_digit memory vindex info tail below level first firstLater)
        rw [groupLeaves_digit tail below level firstLater path.symm, ← same]
        exact (belowRow second secondInside).2
      · exact restHypothesis tail firstLater secondLater
  | unset row rest restHypothesis =>
    obtain ⟨-, -, tail⟩ := checkGroupInfo_unset accepted
    exact restHypothesis tail firstMember secondMember

end Group

section Table

variable {table : List Info} {memory : Memory}

/-- The variables of one row below a path of groups stand next to each other. -/
theorem leavesFrom_isRun (row : Nat) (path : List Entry) {first : Bool} {vindex : Nat}
    {rows : List Info} (accepted : checkVarInfoFrom first rows = true) :
    IsRun (fun leaf => row == leaf.vindex && path.isPrefixOf leaf.nesting)
      (leavesFrom memory vindex rows) := by
  induction rows generalizing vindex first with
  | nil => exact isRun_none fun leaf member => absurd member List.not_mem_nil
  | cons info rest inductionHypothesis =>
    obtain ⟨here, tail⟩ := checkVarInfoFrom_cons accepted
    by_cases own : row = vindex
    · subst own
      refine IsRun.before ?_ fun leaf member => ?_
      · have run : IsRun (fun leaf => path.isPrefixOf leaf.nesting) (rowLeaves memory row info) := by
          unfold rowLeaves
          unfold Info.Accepted at here
          cases kind : info.kind with
          | element type =>
            cases whole : path.isPrefixOf ([] : List Entry) with
            | true =>
              exact isRun_all fun leaf member => by rw [List.mem_singleton.mp member, ← whole]
            | false =>
              exact isRun_none fun leaf member => by rw [List.mem_singleton.mp member, ← whole]
          | group groupInfo =>
            simp only [kind] at here
            exact groupLeaves_isRun path groupInfo 0 0 _ 0 [] _ here.1 (by decide) ⟨rfl, by decide⟩
          | unset => exact isRun_none fun leaf member => absurd member List.not_mem_nil
        refine run.congr fun leaf member => ?_
        rw [(rowLeaves_info memory here leaf member).1, beq_self_eq_true, Bool.true_and]
      · have later := (leavesFrom_info memory tail leaf member).1
        rw [show (row == leaf.vindex) = false from beq_eq_false_iff_ne.mpr (by omega), Bool.false_and]
    · refine (inductionHypothesis tail).behind fun leaf member => ?_
      rw [(rowLeaves_info memory here leaf member).1,
        show (row == vindex) = false from beq_eq_false_iff_ne.mpr own, Bool.false_and]

theorem lowBits_eq (accepted : checkVarInfo table = true) {first second : Leaf}
    (firstMember : first ∈ leaves table memory) (secondMember : second ∈ leaves table memory)
    (row : first.vindex = second.vindex) (grouped : first.nesting ≠ []) :
    (first.groupElement % 2 ^ 6 = second.groupElement % 2 ^ 6) ↔
      first.nesting.take 1 <+: second.nesting := by
  obtain ⟨place, info, here, firstInside⟩ := mem_leavesFrom.mp firstMember
  obtain ⟨place', info', here', secondInside⟩ := mem_leavesFrom.mp secondMember
  rw [Nat.zero_add] at firstInside secondInside
  have samePlace : place = place' := by
    rw [← (rowLeaves_place firstInside).1, ← (rowLeaves_place secondInside).1, row]
  subst samePlace
  obtain rfl : info = info' := Option.some.inj (here.symm.trans here')
  obtain ⟨rest, rowAccepted⟩ := accepted_row accepted here
  obtain ⟨entry, deeper, path⟩ := List.exists_cons_of_ne_nil grouped
  have low : ∀ id, levelDigit id 0 = id % 2 ^ 6 := fun id => by
    rw [levelDigit, pow_zero, Nat.div_one]
    rfl
  unfold rowLeaves at firstInside secondInside
  unfold Info.Accepted at rowAccepted
  cases kind : info.kind with
  | element type =>
    rw [kind] at firstInside
    rw [List.mem_singleton.mp firstInside] at grouped
    exact absurd rfl grouped
  | group groupInfo =>
    simp only [kind] at firstInside secondInside rowAccepted
    have level : Level 0 := ⟨rfl, by decide⟩
    have own := groupLeaves_digit rowAccepted.1 (by decide) level firstInside path
    rw [← low, ← low, own, path, List.take_succ_cons, List.take_zero]
    constructor
    · intro same
      exact groupLeaves_head rowAccepted.1 (by decide) level firstInside secondInside
        ⟨deeper, path.symm⟩ same.symm
    · rintro ⟨further, through⟩
      exact (groupLeaves_digit rowAccepted.1 (by decide) level secondInside through.symm).symm
  | unset =>
    rw [kind] at firstInside
    exact absurd firstInside List.not_mem_nil

end Table

/-! ### Skipping -/

section Skip

variable {table : List Info} {memory : Memory} {frameTypeFlags : Nat}

/-- The loop that passes over the variables of a disabled group goes on with this one. -/
def behind (level : Nat) (token other : Token) : Bool :=
  other.key == token.key &&
    (level == 0 || token.groupElement % 2 ^ 6 == other.groupElement % 2 ^ 6)

/-- What `next_scalar` passes over behind a variable that it returns. -/
def covers (table : List Info) (memory : Memory) (hideDisabledGroups : Bool)
    (visit other : Token × Hit) : Bool :=
  decide (visit.2.type = VarType.int8.code) &&
    (disabledBy table memory hideDisabledGroups visit.1 visit.2).any fun found =>
      behind found.nesting.length visit.1 other.1

/-- The loop ends in front of the first variable that it does not pass over. -/
theorem Chain.passDisabled {token : Token} {visits : List (Token × Hit)}
    (chain : Chain table memory frameTypeFlags token visits) (level : Nat) {fuel : Nat}
    (enough : visits.length < fuel) :
    ∃ token', passDisabled table memory frameTypeFlags level fuel token token = some token' ∧
      Chain table memory frameTypeFlags token'
        (visits.dropWhile fun visit => behind level token visit.1) := by
  refine chain.rule enough ?_ ?_
  · intro fuel token ended
    refine ⟨token, ?_, ended⟩
    rw [Param.passDisabled]
    simp only [ended]
  · intro fuel token visit rest place hit later inductionHypothesis
    rw [Param.passDisabled]
    simp only [hit, place]
    cases passed : behind level token visit.1 with
    | true =>
      have key : visit.1.key = token.key := by
        rw [behind, Bool.and_eq_true, beq_iff_eq] at passed
        exact passed.1
      have bits : level = 0 ∨ token.groupElement % 2 ^ 6 = visit.1.groupElement % 2 ^ 6 := by
        rw [behind, Bool.and_eq_true, Bool.or_eq_true, beq_iff_eq, beq_iff_eq, beq_iff_eq] at passed
        exact passed.2
      obtain ⟨token', result, onwards⟩ := inductionHypothesis
      -- The loop compares with the variable passed last, which has the same bits.
      have same : (fun other : Token × Hit => behind level visit.1 other.1) =
          fun other => behind level token other.1 := by
        funext other
        rw [behind, behind, key]
        rcases bits with top | bits
        · rw [top]
          rfl
        · rw [bits]
      have dropped : (visit :: rest).dropWhile (fun other => behind level token other.1) =
          rest.dropWhile fun other => behind level visit.1 other.1 := by
        rw [same]
        exact List.dropWhile_cons_of_pos passed
      rw [if_neg (not_not.mpr key), if_neg fun apart => bits.elim apart.1 apart.2, dropped]
      exact ⟨token', result, onwards⟩
    | false =>
      have stop : visit.1.key ≠ token.key ∨
          level ≠ 0 ∧ token.groupElement % 2 ^ 6 ≠ visit.1.groupElement % 2 ^ 6 := by
        rw [behind, Bool.and_eq_false_iff, Bool.or_eq_false_iff, beq_eq_false_iff_ne,
          beq_eq_false_iff_ne, beq_eq_false_iff_ne] at passed
        exact passed
      refine ⟨token, ?_, ?_⟩
      · rcases stop with other | other
        · rw [if_pos other]
        · rw [if_pos other, ite_self]
      · rw [List.dropWhile_cons_of_neg (by rw [passed]; exact Bool.false_ne_true)]
        exact ⟨place, hit, later⟩

variable {hideDisabledGroups : Bool}

/-- Behind the variable that it returns, `next_scalar` goes on at the first that it does not pass
over. -/
theorem Chain.nextScalar {token : Token} {visits : List (Token × Hit)}
    (chain : Chain table memory frameTypeFlags token visits) {fuel : Nat}
    (enough : visits.length < fuel) :
    ((∀ visit ∈ visits, scalar visit = false) ∧ ∃ token',
      nextScalar table memory frameTypeFlags hideDisabledGroups fuel token = some (token', none)) ∨
      ∃ vectors visit rest token', visits = vectors ++ visit :: rest ∧
        (∀ vector ∈ vectors, scalar vector = false) ∧ scalar visit = true ∧
        nextScalar table memory frameTypeFlags hideDisabledGroups fuel token =
          some (token', some visit.2) ∧
        Chain table memory frameTypeFlags token'
          (rest.dropWhile (covers table memory hideDisabledGroups visit)) := by
  obtain ⟨walk, stopped, ⟨ended, none⟩ | ⟨vectors, visit, rest, rfl, none, found, place, hit, later⟩⟩ :=
    chain.skipVectors enough
  · refine Or.inl ⟨none, walk.token, ?_⟩
    rw [Param.nextScalar, stopped, Option.bind_some]
    simp only [ended]
  · have fewer : rest.length < fuel := by
      rw [List.length_append, List.length_cons] at enough
      omega
    have step : ∃ token', Param.nextScalar table memory frameTypeFlags hideDisabledGroups fuel token =
          some (token', some visit.2) ∧
        Chain table memory frameTypeFlags token'
          (rest.dropWhile (covers table memory hideDisabledGroups visit)) := by
      rw [Param.nextScalar, stopped, Option.bind_some]
      simp only [hit, place]
      by_cases int8 : visit.2.type = VarType.int8.code
      · rw [if_pos int8]
        cases disabled : disabledBy table memory hideDisabledGroups visit.1 visit.2 with
        | none =>
          have nothing : covers table memory hideDisabledGroups visit = fun _ => false := by
            funext other
            rw [covers, disabled, Option.any_none, Bool.and_false]
          refine ⟨visit.1, rfl, ?_⟩
          rw [nothing, List.dropWhile_eq_self_iff.mpr fun _ => Bool.false_ne_true]
          exact later
        | some owner =>
          have passes : covers table memory hideDisabledGroups visit =
              fun other => behind owner.nesting.length visit.1 other.1 := by
            funext other
            rw [covers, disabled, Option.any_some, decide_eq_true int8, Bool.true_and]
          obtain ⟨token', result, onwards⟩ := later.passDisabled owner.nesting.length fewer
          refine ⟨token', ?_, ?_⟩
          · simp only [result, Option.map_some]
          · rw [passes]
            exact onwards
      · have nothing : covers table memory hideDisabledGroups visit = fun _ => false := by
          funext other
          rw [covers, decide_eq_false int8, Bool.false_and]
        rw [if_neg int8]
        refine ⟨visit.1, rfl, ?_⟩
        rw [nothing, List.dropWhile_eq_self_iff.mpr fun _ => Bool.false_ne_true]
        exact later
    obtain ⟨token', result, onwards⟩ := step
    exact Or.inr ⟨vectors, visit, rest, token', rfl, none, found, result, onwards⟩

/-- The scalars that a walk returns are those that it has not passed over before. -/
theorem Chain.scalarsFrom {Tag : Type} {shadows : Tag × (Token × Hit) → Tag × (Token × Hit) → Bool}
    {items : List (Tag × (Token × Hit))}
    (same : ∀ item ∈ items, ∀ other ∈ items,
      covers table memory hideDisabledGroups item.2 other.2 = shadows item other)
    (trans : ∀ first second third, shadows first second = true → shadows second third = true →
      shadows first third = true)
    (runs : Runs shadows items) {token : Token}
    (chain : Chain table memory frameTypeFlags token (items.map Prod.snd)) {fuel : Nat}
    (enough : items.length + 1 < fuel) :
    scalarsFrom table memory frameTypeFlags hideDisabledGroups fuel token =
      some (((sieve shadows items).filter fun item => scalar item.2).map fun item => item.2.2) := by
  induction size : items.length using Nat.strong_induction_on generalizing token items fuel with
  | _ count inductionHypothesis =>
    obtain ⟨fuel, rfl⟩ := Nat.exists_eq_add_one.mpr (Nat.zero_lt_of_lt enough)
    have steps : (items.map Prod.snd).length < fuel := by
      rw [List.length_map]
      omega
    rw [Param.scalarsFrom]
    rcases @Chain.nextScalar _ _ _ hideDisabledGroups _ _ chain _ steps with
      ⟨none, token', result⟩ | ⟨vectors, visit, rest, token', split, none, found, result, onwards⟩
    · have nothing : (sieve shadows items).filter (fun item => scalar item.2) = [] := by
        refine List.filter_eq_nil_iff.mpr fun item member => ?_
        rw [none item.2 (List.mem_map_of_mem ((sieve_sublist shadows items).subset member))]
        exact Bool.false_ne_true
      simp only [result, nothing, List.map_nil]
    · obtain ⟨front, back, rfl, rfl, behindFront⟩ := List.map_eq_append_iff.mp split
      obtain ⟨item, others, rfl, rfl, rfl⟩ := List.map_eq_cons_iff.mp behindFront
      have idle : ∀ vector ∈ front, ∀ other ∈ front ++ item :: others,
          shadows vector other = false := by
        intro vector member other inside
        have notScalar := none vector.2 (List.mem_map_of_mem member)
        rw [← same vector (List.mem_append_left _ member) other inside, covers, decide_eq_false,
          Bool.false_and]
        intro int8
        rw [scalar, int8] at notScalar
        exact absurd notScalar (by decide)
      have here : item ∈ front ++ item :: others := List.mem_append_right _ List.mem_cons_self
      have back : others ⊆ front ++ item :: others := fun _ member =>
        List.mem_append_right _ (List.mem_cons_of_mem _ member)
      have tailRuns : Runs shadows (item :: others) := runs.suffix (List.suffix_append _ _)
      have remaining : others.dropWhile (shadows item) <:+ others := List.dropWhile_suffix _
      have dropped : (others.map Prod.snd).dropWhile
          (covers table memory hideDisabledGroups item.2) =
            (others.dropWhile (shadows item)).map Prod.snd := by
        rw [List.dropWhile_map]
        congr 1
        exact dropWhile_congr fun other member => same item here other (back member)
      have shorter : (others.dropWhile (shadows item)).length < count := by
        have bound := remaining.length_le
        rw [← size, List.length_append, List.length_cons]
        omega
      rw [dropped] at onwards
      have fewer : (others.dropWhile (shadows item)).length + 1 < fuel := by omega
      have later := inductionHypothesis _ shorter
        (fun first member second inside => same first (back (remaining.subset member)) second
          (back (remaining.subset inside)))
        (tailRuns.2.suffix remaining) onwards fewer rfl
      have vectorsOnly : front.filter (fun item => scalar item.2) = [] := by
        refine List.filter_eq_nil_iff.mpr fun vector member => ?_
        rw [none vector.2 (List.mem_map_of_mem member)]
        exact Bool.false_ne_true
      have kept : (sieve shadows (front ++ item :: others)).filter (fun item => scalar item.2) =
          item :: (sieve shadows (others.dropWhile (shadows item))).filter
            fun item => scalar item.2 := by
        rw [sieve_append_idle idle, sieve_cons trans tailRuns, List.filter_append, vectorsOnly,
          List.nil_append]
        exact List.filter_cons_of_pos found
      rw [kept, result]
      dsimp only
      rw [later]
      rfl

end Skip

/-! ### The variables behind the visits -/

section Items

variable {table : List Info} {memory : Memory} {frameTypeFlags : Nat}

/-- What a walk returns for a variable, together with the variable. -/
def Leaf.items (frameTypeFlags : Nat) (leaf : Leaf) : List (Leaf × (Token × Hit)) :=
  (leaf.spot frameTypeFlags).toList.flatMap fun spot => spot.visits.map (leaf, ·)

theorem items_visits (all : List Leaf) :
    (all.flatMap (Leaf.items frameTypeFlags)).map Prod.snd =
      (spots frameTypeFlags all).flatMap Spot.visits := by
  induction all with
  | nil => rfl
  | cons leaf rest inductionHypothesis =>
    rw [List.flatMap_cons, List.map_append, inductionHypothesis]
    unfold Leaf.items spots
    cases here : leaf.spot frameTypeFlags with
    | none =>
      rw [List.filterMap_cons_none here]
      rfl
    | some spot =>
      rw [List.filterMap_cons_some here, List.flatMap_cons]
      simp only [Option.toList_some, List.flatMap_cons, List.flatMap_nil, List.append_nil,
        List.map_map, Function.comp_def, List.map_id']

variable {leaf : Leaf}

/-- A variable that is shown and allocated. -/
theorem Leaf.spot_eq {spot : Spot} (here : leaf.spot frameTypeFlags = some spot) :
    leaf.shown frameTypeFlags = true ∧ leaf.address = some spot.address ∧
      spot = ⟨leaf.vindex, leaf.groupElement, leaf.type, spot.address⟩ := by
  unfold Leaf.spot at here
  split at here
  · rename_i shown
    obtain ⟨address, allocated, rfl⟩ := Option.map_eq_some_iff.mp here
    exact ⟨shown, allocated, rfl⟩
  · exact nomatch here

/-- What a walk returns for a variable is the variable, or a part of a vector. -/
theorem Leaf.mem_items {item : Leaf × (Token × Hit)} (member : item ∈ leaf.items frameTypeFlags) :
    item.1 = leaf ∧ ∃ address, leaf.address = some address ∧ leaf.shown frameTypeFlags = true ∧
      item.2.1.key = leaf.vindex % 2 ^ 9 ∧ item.2.1.groupElement = leaf.groupElement % 2 ^ 18 ∧
      (item.2.2 = ⟨address, leaf.type.code⟩ ∨
        leaf.type = .vector3f ∧ ∃ part < 3,
          item.2.2 = ⟨address + 4 * (part : Nat), VarType.float.code⟩) := by
  obtain ⟨spot, here, inVisits⟩ := List.mem_flatMap.mp member
  obtain ⟨visit, inSpot, rfl⟩ := List.mem_map.mp inVisits
  obtain ⟨shown, allocated, shape⟩ := Leaf.spot_eq (Option.mem_toList.mp here)
  refine ⟨rfl, spot.address, allocated, shown, ?_⟩
  have sameType : spot.type = leaf.type := by rw [shape]
  have sameRow : spot.vindex = leaf.vindex := by rw [shape]
  have sameElement : spot.groupElement = leaf.groupElement := by rw [shape]
  rw [← sameRow, ← sameElement, ← sameType]
  rcases List.mem_cons.mp inSpot with rfl | part
  · exact ⟨rfl, rfl, Or.inl rfl⟩
  · unfold Spot.parts at part
    split at part
    · rename_i vector
      simp only [List.mem_cons, List.not_mem_nil, or_false] at part
      rcases part with rfl | rfl | rfl
      · exact ⟨rfl, rfl, Or.inr ⟨vector, 0, by decide, rfl⟩⟩
      · exact ⟨rfl, rfl, Or.inr ⟨vector, 1, by decide, rfl⟩⟩
      · exact ⟨rfl, rfl, Or.inr ⟨vector, 2, by decide, rfl⟩⟩
    · exact absurd part List.not_mem_nil

/-- A number is returned once. -/
theorem Leaf.items_number {leaf : Leaf} (number : leaf.type ≠ .vector3f) :
    (leaf.items frameTypeFlags).length ≤ 1 := by
  unfold Leaf.items
  cases here : leaf.spot frameTypeFlags with
  | none => exact Nat.zero_le 1
  | some spot =>
    have parts : spot.parts = [] := by
      rw [Spot.parts, if_neg]
      rw [(Leaf.spot_eq here).2.2]
      exact number
    rw [Option.toList_some, List.flatMap_singleton, Spot.visits, parts]
    exact le_refl 1

theorem Leaf.exists_scalar (shown : leaf.spot frameTypeFlags ≠ none) :
    ∃ item ∈ leaf.items frameTypeFlags, scalar item.2 = true := by
  obtain ⟨spot, here⟩ := Option.ne_none_iff_exists'.mp shown
  have all : ∀ visit ∈ spot.visits, (leaf, visit) ∈ leaf.items frameTypeFlags := by
    intro visit member
    rw [Leaf.items, here, Option.toList_some, List.flatMap_singleton]
    exact List.mem_map_of_mem member
  by_cases vector : spot.type = .vector3f
  · refine ⟨_, all (spot.token 1, spot.part 0) (List.mem_cons_of_mem _ ?_), rfl⟩
    rw [Spot.parts, if_pos vector]
    exact List.mem_cons_self
  · have number : ¬ spot.type.code > VarType.float.code := by
      revert vector
      cases spot.type <;> decide
    exact ⟨_, all (spot.token 0, spot.hit) List.mem_cons_self, decide_eq_true number⟩

theorem Leaf.disables_iff :
    leaf.disables memory = true ↔ leaf.type = .int8 ∧
      (leaf.ginfo.any fun entry =>
        entry.flags.testBit enableFlag && !entry.flags.testBit ignoreEnableFlag) = true ∧
      ∃ address, leaf.address = some address ∧ memory.bytes address = 0 := by
  have value : (leaf.address.any fun address => memory.bytes address == 0) = true ↔
      ∃ address, leaf.address = some address ∧ memory.bytes address = 0 := by
    rw [Option.any_eq_true]
    exact exists_congr fun _ => and_congr_right fun _ => beq_iff_eq
  rw [Leaf.disables, Bool.and_eq_true, Bool.and_eq_true, decide_eq_true_iff, and_assoc, value]

theorem Leaf.sharesTop_iff {first second : Leaf} : first.sharesTop second = true ↔
    first.vindex = second.vindex ∧ first.nesting.take 1 <+: second.nesting := by
  rw [Leaf.sharesTop, Bool.and_eq_true, beq_iff_eq, List.isPrefixOf_iff_prefix]

theorem Leaf.encloses_iff {first second : Leaf} : first.encloses second = true ↔
    first.vindex = second.vindex ∧ first.nesting <+: second.nesting := by
  rw [Leaf.encloses, Bool.and_eq_true, beq_iff_eq, List.isPrefixOf_iff_prefix]

/-- What an item makes the walk pass over. -/
def passes (memory : Memory) (item other : Leaf × (Token × Hit)) : Bool :=
  item.1.disables memory && item.1.sharesTop other.1

theorem passes_trans (first second third : Leaf × (Token × Hit))
    (reaches : passes memory first second = true) (onwards : passes memory second third = true) :
    passes memory first third = true := by
  rw [passes, Bool.and_eq_true, Leaf.sharesTop_iff] at *
  refine ⟨reaches.1, reaches.2.1.trans onwards.2.1, ?_⟩
  refine List.IsPrefix.trans ?_ onwards.2.2
  have shorter := reaches.2.2.take 1
  rwa [List.take_take, Nat.min_self] at shorter

theorem vindex_lt (rows : table.length ≤ 2 ^ 9) (member : leaf ∈ leaves table memory) :
    leaf.vindex < 2 ^ 9 := by
  obtain ⟨index, info, inRows, here⟩ := mem_leavesFrom.mp member
  rw [(rowLeaves_place here).1, Nat.zero_add]
  exact lt_of_lt_of_le (List.getElem?_eq_some_iff.mp inRows).1 rows

section

variable (accepted : checkVarInfo table = true)

include accepted

/-- Which variable's group is taken for disabled. -/
theorem disabledBy_leaf (apart : AllApart table memory)
    (member : leaf ∈ leaves table memory) {address : Int} (allocated : leaf.address = some address)
    (int8 : leaf.type = .int8) {token : Token} (row : token.key = leaf.vindex) :
    disabledBy table memory true token ⟨address, VarType.int8.code⟩ =
      if leaf.disables memory then some (leaf.found 0) else none := by
  have parameter : leaf.IsParameter 0 ⟨address, VarType.int8.code⟩ := by
    refine ⟨address, allocated, ?_⟩
    rw [int8, if_neg (by decide)]
    exact ⟨rfl, rfl⟩
  have found := findVarInfoRow_parameter accepted apart member parameter token.key
  rw [if_pos row] at found
  rw [disabledBy, found, Option.filter_some, Leaf.disables, allocated, int8]
  cases grouped : leaf.ginfo with
  | none => simp [Leaf.found, grouped]
  | some entry => simp [Leaf.found, grouped]

/-- What `next_scalar` passes over behind a variable of the table. -/
theorem covers_eq (rows : table.length ≤ 2 ^ 9)
    (apart : AllApart table memory) :
    ∀ item ∈ (leaves table memory).flatMap (Leaf.items frameTypeFlags),
      ∀ other ∈ (leaves table memory).flatMap (Leaf.items frameTypeFlags),
        covers table memory true item.2 other.2 = passes memory item other := by
  rintro ⟨owner, token, hit⟩ member ⟨otherOwner, otherToken, otherHit⟩ otherMember
  obtain ⟨leaf, inTable, inItems⟩ := List.mem_flatMap.mp member
  obtain ⟨otherLeaf, otherInTable, otherInItems⟩ := List.mem_flatMap.mp otherMember
  obtain ⟨rfl, address, allocated, -, key, element, whole | ⟨vector, part, -, sameHit⟩⟩ :=
    Leaf.mem_items inItems
  · obtain ⟨rfl, -, -, -, otherKey, otherElement, -⟩ := Leaf.mem_items otherInItems
    dsimp only at *
    subst whole
    rw [Nat.mod_eq_of_lt (vindex_lt rows inTable)] at key
    rw [Nat.mod_eq_of_lt (vindex_lt rows otherInTable)] at otherKey
    rw [Nat.mod_eq_of_lt (leavesFrom_info memory accepted _ inTable).2.2] at element
    rw [Nat.mod_eq_of_lt (leavesFrom_info memory accepted _ otherInTable).2.2] at otherElement
    rw [covers, passes]
    by_cases int8 : owner.type = .int8
    · have same : behind owner.nesting.length token otherToken = owner.sharesTop otherOwner := by
        rw [behind, Leaf.sharesTop, key, otherKey, element, otherElement, Bool.beq_comm]
        by_cases row : owner.vindex = otherOwner.vindex
        · congr 1
          by_cases top : owner.nesting = []
          · rw [top]
            rfl
          · rw [show (owner.nesting.length == 0) = false from
                beq_eq_false_iff_ne.mpr fun zero => top (List.eq_nil_of_length_eq_zero zero),
              Bool.false_or, Bool.eq_iff_iff, beq_iff_eq, List.isPrefixOf_iff_prefix]
            exact lowBits_eq accepted inTable otherInTable row top
        · rw [show (owner.vindex == otherOwner.vindex) = false from beq_eq_false_iff_ne.mpr row,
            Bool.false_and, Bool.false_and]
      have disabled := disabledBy_leaf accepted apart inTable allocated int8 key
      rw [← int8] at disabled
      rw [disabled, decide_eq_true (congrArg VarType.code int8), Bool.true_and]
      cases zero : owner.disables memory with
      | true =>
        exact same
      | false => rfl
    · have other : owner.type.code ≠ VarType.int8.code := by
        revert int8
        cases owner.type <;> decide
      rw [decide_eq_false other, Leaf.disables, decide_eq_false int8]
      rfl
  · have notInt8 : owner.disables memory = false := by
      rw [Leaf.disables, vector]
      rfl
    rw [covers, passes, notInt8, sameHit]
    rfl

/-- What the walk passes over behind a variable follows directly behind it. -/
theorem passes_runs :
    Runs (passes memory) ((leaves table memory).flatMap (Leaf.items frameTypeFlags)) := by
  refine runs_of_isRun fun item _ => ?_
  cases disabled : item.1.disables memory with
  | false => exact Or.inl fun other => by rw [passes, disabled, Bool.false_and]
  | true =>
    refine Or.inr ⟨?_, ?_⟩
    · rw [passes, disabled, Bool.true_and, Leaf.sharesTop_iff]
      exact ⟨rfl, List.take_prefix _ _⟩
    · refine IsRun.flatMap (leavesFrom_isRun item.1.vindex (item.1.nesting.take 1) accepted)
        fun leaf _ other member => ?_
      rw [passes, disabled, Bool.true_and, (Leaf.mem_items member).1, Leaf.sharesTop]

/-- The calls behind `first` go through all visits but those of the first variable that `first`
has returned. -/
theorem first_chain (rows : table.length ≤ 2 ^ 9) :
    ∃ front tail, (leaves table memory).flatMap (Leaf.items frameTypeFlags) = front ++ tail ∧
      (∀ item ∈ front, item.1.ginfo = none) ∧
      Chain table memory frameTypeFlags (first table memory).1 (tail.map Prod.snd) ∧
      ∀ before leaf after, leaves table memory = before ++ leaf :: after → before ≠ [] →
        ∀ item ∈ leaf.items frameTypeFlags, item ∈ tail := by
  cases table with
  | nil =>
    refine ⟨[], [], rfl, fun _ member => absurd member List.not_mem_nil, rfl, ?_⟩
    intro before leaf after shape
    exact absurd shape.symm (by simp [leaves, leavesFrom])
  | cons info rest =>
    obtain ⟨spot, split, start⟩ := spots_first memory frameTypeFlags accepted
    have linked : Linked (info :: rest) memory frameTypeFlags
        (spots frameTypeFlags (leaves (info :: rest) memory)) :=
      linked_rows rfl (by omega) accepted fun _ => rfl
    rw [split] at linked
    obtain ⟨row, -⟩ := checkVarInfoFrom_cons accepted
    have top : ∃ leaf, rowLeaves memory 0 info = [leaf] ∧ leaf.ginfo = none ∧
        ∃ spot', leaf.spot frameTypeFlags = some spot' := by
      rw [checkVarInfo, checkVarInfoFrom] at accepted
      unfold Info.Accepted at row
      unfold rowLeaves
      cases kind : info.kind with
      | element type =>
        simp only [kind] at row
        exact ⟨_, rfl, rfl, ⟨0, 0, type, info.ptr⟩, by rw [getBase_element row.1]; rfl⟩
      | group groupInfo => simp [kind] at accepted
      | unset => simp [kind] at accepted
    obtain ⟨leaf, whole, ungrouped, spot', here⟩ := top
    have all : leaves (info :: rest) memory = leaf :: leavesFrom memory 1 rest := by
      rw [leaves, leavesFrom, whole, List.singleton_append]
    have own : leaf.items frameTypeFlags =
        (leaf, spot'.token 0, spot'.hit) :: spot'.parts.map (leaf, ·) := by
      rw [Leaf.items, here, Option.toList_some, List.flatMap_singleton, Spot.visits, List.map_cons]
    have visits := @items_visits frameTypeFlags (leaves (info :: rest) memory)
    rw [split, all, List.flatMap_cons, own, List.cons_append, List.map_cons, List.flatMap_cons,
      Spot.visits, List.cons_append] at visits
    obtain ⟨-, behind⟩ := List.cons.inj visits
    refine ⟨[(leaf, spot'.token 0, spot'.hit)], spot'.parts.map (leaf, ·) ++
      (leavesFrom memory 1 rest).flatMap (Leaf.items frameTypeFlags), ?_, ?_, ?_, ?_⟩
    · rw [all, List.flatMap_cons, own]
      rfl
    · intro item member
      rw [List.mem_singleton.mp member]
      exact ungrouped
    · rw [behind, start]
      exact linked
    · intro before other after shape nonempty item member
      obtain ⟨head, others, rfl⟩ := List.exists_cons_of_ne_nil nonempty
      rw [all, List.cons_append] at shape
      refine List.mem_append_right _ (List.mem_flatMap.mpr ⟨other, ?_, member⟩)
      rw [(List.cons.inj shape).2]
      exact List.mem_append_right _ List.mem_cons_self

end

/-- What a walk returns for a variable lies in the variable. -/
theorem Leaf.holds_item {item : Leaf × (Token × Hit)} (member : item ∈ leaf.items frameTypeFlags) :
    leaf.holds item.2.2.address = true := by
  obtain ⟨-, address, allocated, -, -, -, whole | ⟨vector, part, small, sameHit⟩⟩ :=
    Leaf.mem_items member
  · rw [Leaf.holds, allocated, Option.any_some, decide_eq_true_iff, whole]
    exact ⟨le_refl _, lt_add_of_pos_right _ (typeSize_pos leaf.type)⟩
  · rw [Leaf.holds, allocated, Option.any_some, decide_eq_true_iff, sameHit, vector]
    change address ≤ address + 4 * (part : Int) ∧ address + 4 * (part : Int) < address + 12
    omega

theorem Leaf.Apart.holds {first second : Leaf} (apart : first.Apart second) {address : Int}
    (inFirst : first.holds address = true) : second.holds address = false := by
  rw [Leaf.holds, Option.any_eq_true] at inFirst
  obtain ⟨low, lowPlace, inside⟩ := inFirst
  rw [decide_eq_true_iff] at inside
  rw [← Bool.not_eq_true, Leaf.holds, Option.any_eq_true]
  rintro ⟨high, highPlace, inside'⟩
  rw [decide_eq_true_iff] at inside'
  rcases apart low lowPlace high highPlace with before | behind
  · omega
  · omega

/-- Whether a variable is hidden depends on those in front of it. -/
theorem hiddenBy_split {hides : Leaf → Leaf → Bool} {before after : List Leaf} {address : Int}
    (apart : (before ++ leaf :: after).Pairwise Leaf.Apart) (inside : leaf.holds address = true) :
    hiddenBy hides (before ++ leaf :: after) address = before.any fun first => hides first leaf := by
  have free : ∀ rest : List Leaf, (∀ other ∈ rest, other.holds address = false) →
      ∀ first : Leaf, (rest.any fun other => other.holds address && hides first other) = false := by
    intro rest none first
    refine List.any_eq_false.mpr fun other member => ?_
    rw [none other member, Bool.false_and]
    exact Bool.false_ne_true
  induction before with
  | nil =>
    rw [List.nil_append, List.pairwise_cons] at apart
    have none : ∀ other ∈ after, other.holds address = false := fun other member =>
      (apart.1 other member).holds inside
    have never : ∀ rest : List Leaf, (∀ other ∈ rest, other.holds address = false) →
        hiddenBy hides rest address = false := by
      intro rest
      induction rest with
      | nil => exact fun _ => rfl
      | cons first others inductionHypothesis =>
        intro none
        have others := fun other member => none other (List.mem_cons_of_mem first member)
        rw [hiddenBy, free _ others, inductionHypothesis others]
        rfl
    rw [List.nil_append, hiddenBy, free after none, never after none]
    rfl
  | cons first rest inductionHypothesis =>
    rw [List.cons_append, List.pairwise_cons] at apart
    have parts := List.pairwise_append.mp apart.2
    have front : ∀ other ∈ rest, other.holds address = false := fun other member =>
      (symm (parts.2.2 other member leaf List.mem_cons_self) : leaf.Apart other).holds inside
    have back : ∀ other ∈ after, other.holds address = false := fun other member =>
      ((List.pairwise_cons.mp parts.2.1).1 other member).holds inside
    rw [List.cons_append, hiddenBy, inductionHypothesis apart.2, List.any_append, List.any_cons,
      free rest front, free after back, inside, Bool.false_or, Bool.or_false, Bool.true_and,
      List.any_cons]

end Items

/-! ### The main result -/

section Main

variable {table : List Info} {memory : Memory} {frameTypeFlags : Nat}

/-- What is in front of an item: the items of the variables in front of its own, and the whole of a
vector in front of its parts. -/
theorem passed_iff {front back : List Leaf} {leaf : Leaf}
    {before part left : List (Leaf × (Token × Hit))} {item : Leaf × (Token × Hit)}
    (own : leaf.items frameTypeFlags = part ++ item :: left)
    (shape : before = front.flatMap (Leaf.items frameTypeFlags) ++ part)
    (apart : (front ++ leaf :: back).Pairwise Leaf.Apart) :
    (!hiddenBy (Leaf.shadows memory frameTypeFlags) (front ++ leaf :: back) item.2.2.address) = true ↔
      ∀ other ∈ before, passes memory other item = false := by
  have member : item ∈ leaf.items frameTypeFlags := by
    rw [own]
    exact List.mem_append_right _ List.mem_cons_self
  have owner := (Leaf.mem_items member).1
  rw [hiddenBy_split apart (Leaf.holds_item member), Bool.not_eq_true', List.any_eq_false, shape]
  constructor
  · intro free other inFront
    rcases List.mem_append.mp inFront with earlier | same
    · obtain ⟨first, inTable, inItems⟩ := List.mem_flatMap.mp earlier
      obtain ⟨sameFirst, -, -, shown, -⟩ := Leaf.mem_items inItems
      have unshadowed := free first inTable
      rw [Leaf.shadows, shown, Bool.true_and, Bool.not_eq_true] at unshadowed
      rw [passes, sameFirst, owner]
      exact unshadowed
    · -- Only a vector has more than one item, and a vector disables nothing.
      have inItems : other ∈ leaf.items frameTypeFlags := by
        rw [own]
        exact List.mem_append_left _ same
      have vector : leaf.type = .vector3f := by
        by_contra number
        have few := @Leaf.items_number frameTypeFlags leaf number
        rw [own, List.length_append, List.length_cons] at few
        have some := List.length_pos_of_mem same
        omega
      rw [passes, (Leaf.mem_items inItems).1, Leaf.disables, vector]
      rfl
  · intro free first inTable shadowed
    rw [Leaf.shadows, Bool.and_eq_true, Bool.and_eq_true] at shadowed
    obtain ⟨⟨shown, disabled⟩, shares⟩ := shadowed
    obtain ⟨-, -, address, allocated, -⟩ := Leaf.disables_iff.mp disabled
    have here : first.spot frameTypeFlags ≠ none := by
      rw [Leaf.spot, if_pos shown, allocated]
      exact Option.some_ne_none _
    obtain ⟨other, inItems, -⟩ := Leaf.exists_scalar here
    have passed := free other (List.mem_append_left _ (List.mem_flatMap.mpr ⟨first, inTable, inItems⟩))
    rw [passes, (Leaf.mem_items inItems).1, owner, disabled, shares] at passed
    cases passed

/-- What the calls of `next_scalar` return, with and without hiding. -/
theorem scalars_eq (accepted : checkVarInfo table = true) (rows : table.length ≤ 2 ^ 9)
    (apart : AllApart table memory) :
    ∃ enough shown, (∀ fuel ≥ enough,
        scalars table memory frameTypeFlags false fuel = some shown ∧
          scalars table memory frameTypeFlags true fuel = some (shown.filter fun hit =>
            !hiddenBy (Leaf.shadows memory frameTypeFlags) (leaves table memory) hit.address)) ∧
      (∀ hit ∈ shown, ∃ before leaf after item, leaves table memory = before ++ leaf :: after ∧
        item ∈ leaf.items frameTypeFlags ∧ item.2.2 = hit) ∧
      ∀ before leaf after, leaves table memory = before ++ leaf :: after → before ≠ [] →
        leaf.spot frameTypeFlags ≠ none → ∃ item ∈ leaf.items frameTypeFlags, item.2.2 ∈ shown := by
  obtain ⟨front, tail, split, ungrouped, chain, behind⟩ :=
    @first_chain table memory frameTypeFlags accepted rows
  have suffix : tail <:+ (leaves table memory).flatMap (Leaf.items frameTypeFlags) := ⟨front, split.symm⟩
  have kept : sieve (passes memory) tail = tail.filter fun item =>
      !hiddenBy (Leaf.shadows memory frameTypeFlags) (leaves table memory) item.2.2.address := by
    refine sieve_eq_filter fun before item after shape => ?_
    rw [shape, ← List.append_assoc] at split
    obtain ⟨earlier, leaf, later, part, left, all, own, place⟩ := flatMap_split split
    have positioned := @passed_iff memory frameTypeFlags earlier later leaf _ part left item own place
      (all ▸ apart)
    rw [all, positioned]
    refine ⟨fun free other member => free other (List.mem_append_right _ member),
      fun free other member => ?_⟩
    rcases List.mem_append.mp member with top | inside
    · rw [passes, Leaf.disables, ungrouped other top, Option.any_none, Bool.and_false]
      rfl
    · exact free other inside
  refine ⟨tail.length + 2, (tail.filter fun item => scalar item.2).map fun item => item.2.2,
    fun fuel enough => ⟨?_, ?_⟩, ?_, ?_⟩
  · have none : ∀ item ∈ tail, ∀ other ∈ tail, covers table memory false item.2 other.2 = false := by
      intro item _ other _
      rw [covers, disabledBy_off, Option.any_none, Bool.and_false]
    have all := chain.scalarsFrom none (fun _ _ _ impossible _ => impossible)
      (runs_of_isRun fun _ _ => Or.inl fun _ => rfl) (by omega : tail.length + 1 < fuel)
    rw [sieve_idle] at all
    exact all
  · have some := chain.scalarsFrom
      (fun item member other inside => covers_eq accepted rows apart item (suffix.subset member) other
        (suffix.subset inside))
      passes_trans ((passes_runs accepted).suffix suffix) (by omega : tail.length + 1 < fuel)
    rw [scalars, some, kept, List.filter_map, List.filter_filter, List.filter_filter]
    simp only [Function.comp_def, Bool.and_comm]
  · intro hit member
    obtain ⟨item, inside, rfl⟩ := List.mem_map.mp member
    obtain ⟨leaf, inTable, inItems⟩ :=
      List.mem_flatMap.mp (suffix.subset (List.mem_of_mem_filter inside))
    obtain ⟨before, after, all⟩ := List.append_of_mem inTable
    exact ⟨before, leaf, after, item, all, inItems, rfl⟩
  · intro before leaf after all nonempty shown
    obtain ⟨item, inItems, isScalar⟩ := Leaf.exists_scalar shown
    exact ⟨item, inItems, List.mem_map_of_mem (List.mem_filter.mpr
      ⟨behind before leaf after all nonempty item inItems, isScalar⟩)⟩

/-- When a variable is passed over exactly if it is hidden. -/
theorem passedRightly_iff (before : List Leaf) (leaf : Leaf) :
    PassedRightly memory frameTypeFlags before leaf ↔
      (before.any fun first => first.shadows memory frameTypeFlags leaf) =
        before.any fun first => first.hides memory leaf := by
  constructor
  · intro rightly
    rw [Bool.eq_iff_iff, List.any_eq_true, List.any_eq_true]
    constructor
    · rintro ⟨first, inFront, shadowed⟩
      cases inner : first.encloses leaf with
      | false => exact rightly.reach first inFront shadowed inner
      | true =>
        rw [Leaf.shadows, Bool.and_eq_true, Bool.and_eq_true] at shadowed
        exact ⟨first, inFront, by rw [Leaf.hides, shadowed.1.2, inner]; rfl⟩
    · rintro ⟨first, inFront, hidden⟩
      cases shown : first.shown frameTypeFlags with
      | false => exact rightly.frame first inFront hidden shown
      | true =>
        rw [Leaf.hides, Bool.and_eq_true, Leaf.encloses_iff] at hidden
        refine ⟨first, inFront, ?_⟩
        rw [Leaf.shadows, shown, hidden.1, Bool.true_and, Bool.true_and, Leaf.sharesTop_iff]
        exact ⟨hidden.2.1, (List.take_prefix _ _).trans hidden.2.2⟩
  · intro same
    rw [Bool.eq_iff_iff, List.any_eq_true, List.any_eq_true] at same
    exact ⟨fun first inFront shadowed _ => same.mp ⟨first, inFront, shadowed⟩,
      fun first inFront hidden _ => same.mpr ⟨first, inFront, hidden⟩⟩

theorem hiddenBy_item (apart : AllApart table memory) {before after : List Leaf} {leaf : Leaf}
    (all : leaves table memory = before ++ leaf :: after) {item : Leaf × (Token × Hit)}
    (member : item ∈ leaf.items frameTypeFlags) (hides : Leaf → Leaf → Bool) :
    hiddenBy hides (leaves table memory) item.2.2.address =
      before.any fun first => hides first leaf := by
  rw [all, hiddenBy_split (all ▸ apart) (Leaf.holds_item member)]

theorem HidesExactly.passedRightly (exactly : HidesExactly table memory frameTypeFlags)
    (accepted : checkVarInfo table = true) (rows : table.length ≤ 2 ^ 9)
    (apart : AllApart table memory) {before after : List Leaf} {leaf : Leaf}
    (all : leaves table memory = before ++ leaf :: after)
    (here : leaf.spot frameTypeFlags ≠ none) :
    PassedRightly memory frameTypeFlags before leaf := by
  obtain ⟨needed, shown, returned, -, reached⟩ :=
    @scalars_eq table memory frameTypeFlags accepted rows apart
  obtain ⟨enough, exactly⟩ := exactly
  cases before with
  | nil => exact ⟨fun _ member => absurd member List.not_mem_nil,
      fun _ member => absurd member List.not_mem_nil⟩
  | cons head others =>
    obtain ⟨off, on⟩ := returned (max enough needed) (le_max_right _ _)
    obtain ⟨shown', off', on'⟩ := exactly (max enough needed) (le_max_left _ _)
    obtain rfl := Option.some.inj (off.symm.trans off')
    obtain ⟨item, inItems, inShown⟩ := reached _ leaf after all (List.cons_ne_nil _ _) here
    have member : ∀ keep : Hit → Bool, item.2.2 ∈ shown.filter keep ↔ keep item.2.2 = true :=
      fun keep => List.mem_filter.trans (and_iff_right inShown)
    have agree := member fun hit =>
      !hiddenBy (Leaf.shadows memory frameTypeFlags) (leaves table memory) hit.address
    rw [Option.some.inj (on.symm.trans on'), member, Bool.eq_iff_iff.symm] at agree
    rw [passedRightly_iff, ← hiddenBy_item apart all inItems, ← hiddenBy_item apart all inItems]
    exact (Bool.not_inj agree).symm

/-- Hiding is exact in an accepted table exactly when every variable that is shown is passed over
if and only if it is hidden: no enable variable that is 0 in another group below its top level one
is in front of it, and it is hidden by one that is shown. -/
theorem hidesExactly_iff (table : List Info) (memory : Memory) (frameTypeFlags : Nat)
    (accepted : checkVarInfo table = true) (rows : table.length ≤ 2 ^ 9)
    (apart : AllApart table memory) :
    HidesExactly table memory frameTypeFlags ↔
      ∀ before leaf after, leaves table memory = before ++ leaf :: after →
        leaf.spot frameTypeFlags ≠ none → PassedRightly memory frameTypeFlags before leaf := by
  refine ⟨fun exactly before leaf after all here =>
    exactly.passedRightly accepted rows apart all here, fun rightly => ?_⟩
  obtain ⟨needed, shown, returned, sources, -⟩ :=
    @scalars_eq table memory frameTypeFlags accepted rows apart
  refine ⟨needed, fun fuel enough => ⟨shown, (returned fuel enough).1, ?_⟩⟩
  rw [(returned fuel enough).2]
  congr 1
  refine List.filter_congr fun hit member => ?_
  obtain ⟨before, leaf, after, item, all, inItems, rfl⟩ := sources hit member
  have here : leaf.spot frameTypeFlags ≠ none := by
    intro missing
    rw [Leaf.items, missing] at inItems
    exact absurd inItems List.not_mem_nil
  rw [hiddenBy_item apart all inItems, hiddenBy_item apart all inItems,
    (passedRightly_iff before leaf).mp (rightly before leaf after all here)]

end Main

/-- A group with an enable variable, and a group below it with one. -/
def hidingTable : List Info := [
  ⟨['F'], 0, 1000, 0, .element .int8⟩,
  ⟨['G', '_'], 1, 2000, 0, .group
    (.element ⟨1, ['E'], 0, 4⟩ .int8
      (.group ⟨2, ['A'], 8, 1⟩
        (.element ⟨1, ['E'], 0, 4⟩ .int8 (.element ⟨2, ['P'], 4, 0⟩ .float .groupEnd))
        (.element ⟨3, ['Z'], 16, 0⟩ .int16 .groupEnd)))⟩]

/-- Only the enable variable of the group below is 0. -/
def hidingMemory : Memory := ⟨fun _ => 0, fun address => if address = 2008 then 0 else 1⟩

/-- The variable behind the enable variable that is 0 is hidden, and the one of the enclosing group
is not. -/
theorem hidesExactly_small : HidesExactly hidingTable hidingMemory 0 := by
  refine (hidesExactly_iff hidingTable hidingMemory 0 (by decide) (by decide) (by decide)).mpr
    fun before leaf after all here => ?_
  have shadowed : ∀ first ∈ leaves hidingTable hidingMemory, ∀ leaf ∈ leaves hidingTable hidingMemory,
      first.shadows hidingMemory 0 leaf = true → first.encloses leaf = true := by decide
  have shown : ∀ first ∈ leaves hidingTable hidingMemory, first.shown 0 = true := by decide
  have inFront : before ⊆ leaves hidingTable hidingMemory := by
    rw [all]
    exact List.subset_append_left _ _
  have inTable : leaf ∈ leaves hidingTable hidingMemory := by
    rw [all]
    exact List.mem_append_right _ List.mem_cons_self
  refine ⟨fun first member shadows outside => ?_, fun first member _ notShown => ?_⟩
  · rw [shadowed first (inFront member) leaf inTable shadows] at outside
    cases outside
  · rw [shown first (inFront member)] at notShown
    cases notShown

example : scalars hidingTable hidingMemory 0 true 10 =
    some [⟨2000, 1⟩, ⟨2008, 1⟩, ⟨2016, 2⟩] := by decide

/-- An enable variable two groups below the top level one, and a variable of the group between. -/
def deepTable : List Info := [
  ⟨['F'], 0, 1000, 0, .element .int8⟩,
  ⟨['G', '_'], 1, 2000, 0, .group
    (.group ⟨1, ['A'], 0, 1⟩
      (.group ⟨1, ['B'], 8, 1⟩ (.element ⟨1, ['E'], 0, 4⟩ .int8 .groupEnd)
        (.element ⟨2, ['P'], 16, 0⟩ .float .groupEnd))
      .groupEnd)⟩]

/-- The variable of the enclosing group is passed over. -/
theorem not_hidesExactly_deep :
    checkVarInfo deepTable = true ∧ AllApart deepTable blankMemory ∧
      scalars deepTable blankMemory 0 false 10 = some [⟨2008, 1⟩, ⟨2016, 4⟩] ∧
      scalars deepTable blankMemory 0 true 10 = some [⟨2008, 1⟩] ∧
      ¬ HidesExactly deepTable blankMemory 0 := by
  refine ⟨by decide, by decide, by decide, by decide, fun exactly => ?_⟩
  have rightly : ∀ before leaf after, leaves deepTable blankMemory = before ++ leaf :: after →
      leaf.spot 0 ≠ none → PassedRightly blankMemory 0 before leaf := fun before leaf after =>
    exactly.passedRightly (by decide) (by decide) (by decide)
  have shadowed := (rightly ((leaves deepTable blankMemory).take 2) _ [] rfl (by decide)).reach
  revert shadowed
  decide

end Urus.Param
