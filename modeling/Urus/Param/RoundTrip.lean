/-
This file is about the way from a parameter to its name and back. The two directions do not
agree everywhere. The search does not know the parts of a vector that is a row of the top
level table. A name that does not fit the buffer is cut, and the letter of a part is left
out. And a name may fit a variable in front of the one that it is the name of: a vector is
also found by its own name, although it is no parameter, and by every name that goes on
behind the letter of one of its parts. Everywhere else the name leads back.
-/

import Urus.Param.Names
import Urus.Param.Store

namespace Urus.Param

/-! ### The variable of a token -/

section Token

variable {table : List Info} {memory : Memory}

/-- A variable of a row knows the row, and if it has no row in a group table it is in no group. -/
theorem rowLeaves_place {vindex : Nat} {info : Info} {leaf : Leaf}
    (member : leaf ∈ rowLeaves memory vindex info) :
    leaf.vindex = vindex ∧ (leaf.ginfo = none → leaf.nesting = []) := by
  unfold rowLeaves at member
  cases kind : info.kind with
  | element type =>
    rw [kind] at member
    obtain rfl := List.mem_singleton.mp member
    exact ⟨rfl, fun _ => rfl⟩
  | group groupInfo =>
    rw [kind] at member
    obtain ⟨-, sameRow, inTable, -⟩ :=
      groupLeaves_nesting memory vindex info groupInfo _ _ _ _ leaf member
    exact ⟨sameRow, fun missing => absurd missing inTable⟩
  | unset =>
    rw [kind] at member
    exact absurd member List.not_mem_nil

/-- The variables of a table are those of its rows. -/
theorem mem_leavesFrom {leaf : Leaf} {rows : List Info} {vindex : Nat} :
    leaf ∈ leavesFrom memory vindex rows ↔
      ∃ place info, rows[place]? = some info ∧ leaf ∈ rowLeaves memory (vindex + place) info := by
  induction rows generalizing vindex with
  | nil => simp [leavesFrom]
  | cons info rest inductionHypothesis =>
    rw [leavesFrom, List.mem_append, inductionHypothesis]
    constructor
    · rintro (here | ⟨place, other, row, member⟩)
      · exact ⟨0, info, rfl, here⟩
      · refine ⟨place + 1, other, row, ?_⟩
        rw [← Nat.add_assoc, Nat.add_right_comm]
        exact member
    · rintro ⟨place, other, row, member⟩
      cases place with
      | zero =>
        obtain rfl : info = other := Option.some.inj row
        exact Or.inl member
      | succ place =>
        refine Or.inr ⟨place, other, row, ?_⟩
        rw [Nat.add_right_comm, Nat.add_assoc]
        exact member

theorem accepted_row {first : Bool} {rows : List Info} (accepted : checkVarInfoFrom first rows = true)
    {place : Nat} {info : Info} (row : rows[place]? = some info) : ∃ rest, info.Accepted rest := by
  induction rows generalizing first place with
  | nil => exact nomatch row
  | cons top rest inductionHypothesis =>
    obtain ⟨here, tail⟩ := checkVarInfoFrom_cons accepted
    cases place with
    | zero =>
      obtain rfl : top = info := Option.some.inj row
      exact ⟨rest, here⟩
    | succ place => exact inductionHypothesis tail row

/-- Variables that share no byte are told apart by any byte. -/
theorem AllApart.eq_of_inside (apart : AllApart table memory) {first second : Leaf}
    (firstMember : first ∈ leaves table memory) (secondMember : second ∈ leaves table memory)
    {place : Int}
    (inFirst : ∃ address, first.address = some address ∧ address ≤ place ∧
      place < address + typeSize first.type.code)
    (inSecond : ∃ address, second.address = some address ∧ address ≤ place ∧
      place < address + typeSize second.type.code) : first = second := by
  obtain ⟨low, lowPlace, lowBound⟩ := inFirst
  obtain ⟨high, highPlace, highBound⟩ := inSecond
  by_contra different
  rcases apart.apart firstMember secondMember different low lowPlace high highPlace with
    before | behind
  · omega
  · omega

theorem pickAt_inside {leaf : Leaf} {this : Int} (picked : pickAt this leaf ≠ none) :
    ∃ address, leaf.address = some address ∧ address ≤ this ∧
      this < address + typeSize leaf.type.code := by
  obtain ⟨found, here⟩ := Option.ne_none_iff_exists'.mp picked
  obtain ⟨address, place, part⟩ := Option.bind_eq_some_iff.mp here
  obtain ⟨idx, inside, -⟩ := Option.map_eq_some_iff.mp part
  obtain ⟨same, bound⟩ := partOf_inside inside
  exact ⟨address, place, by omega, by omega⟩

theorem pickAt_parameter {leaf : Leaf} {part : Nat} {hit : Hit}
    (parameter : leaf.IsParameter part hit) : pickAt hit.address leaf = some (leaf.found part) := by
  obtain ⟨address, place, shape⟩ := parameter
  rw [pickAt, place, Option.bind_some]
  split at shape
  · rename_i vector
    obtain ⟨small, rfl⟩ := shape
    rw [vector, partOf]
    dsimp only
    interval_cases part
    · rw [if_pos (by omega)]
      rfl
    · rw [if_neg (by omega), if_pos ⟨rfl, Or.inl (by omega)⟩]
      rw [show (address + 4 * ((1 : Nat) : Int) - address) / 4 = 1 by omega]
      rfl
    · rw [if_neg (by omega), if_pos ⟨rfl, Or.inr (by omega)⟩]
      rw [show (address + 4 * ((2 : Nat) : Int) - address) / 4 = 2 by omega]
      rfl
  · obtain ⟨rfl, rfl⟩ := shape
    rw [partOf, if_pos rfl]
    rfl

theorem findVarInfoRow_parameter (accepted : checkVarInfo table = true)
    (apart : AllApart table memory) {leaf : Leaf} (member : leaf ∈ leaves table memory) {part : Nat}
    {hit : Hit} (parameter : leaf.IsParameter part hit) (key : Nat) :
    table[key]?.bind (findVarInfoRow memory hit.address key) =
      if key = leaf.vindex then some (leaf.found part) else none := by
  obtain ⟨place, info, row, here⟩ := mem_leavesFrom.mp member
  rw [Nat.zero_add] at here
  have sameRow := (rowLeaves_place here).1
  have only : ∀ key info, table[key]? = some info → ∀ other ∈ rowLeaves memory key info,
      pickAt hit.address other ≠ none → other = leaf := by
    intro key info row other inside picked
    refine apart.eq_of_inside (mem_leavesFrom.mpr ⟨key, info, row, ?_⟩) member
      (pickAt_inside picked) parameter.inside
    rw [Nat.zero_add]
    exact inside
  by_cases own : key = leaf.vindex
  · obtain rfl : key = place := own.trans sameRow
    obtain ⟨rest, rowAccepted⟩ := accepted_row accepted row
    rw [if_pos own, row, Option.bind_some, findVarInfoRow_eq memory hit.address key info rowAccepted,
      findSome_only (pickAt hit.address) here (only key info row), pickAt_parameter parameter]
  · rw [if_neg own]
    cases other : table[key]? with
    | none => rfl
    | some info' =>
      obtain ⟨rest, rowAccepted⟩ := accepted_row accepted other
      rw [Option.bind_some, findVarInfoRow_eq memory hit.address key info' rowAccepted]
      refine List.findSome?_eq_none_iff.mpr fun leaf' inside => ?_
      by_contra picked
      have same := only key info' other leaf' inside picked
      exact own ((rowLeaves_place inside).1.symm.trans (congrArg Leaf.vindex same))

end Token

/-! ### From a parameter to its name and back -/

section RoundTrip

variable {table : List Info} {memory : Memory}

/-- When the name of a parameter leads back to it. The token names its row (in a table of more
than 512 rows it may not, and the name is empty then), the parameter is not a part of a vector of
the top level table, its name fits the buffer, and it fits no allocated variable in front of it. -/
structure LeadsBack (token : Token) (before : List Leaf) (leaf : Leaf) (part : Nat) : Prop where
  row : token.key = leaf.vindex ∨ leaf.knownName ++ leaf.type.suffix part = []
  known : ¬ (leaf.ginfo = none ∧ leaf.type = .vector3f)
  short : (leaf.knownName ++ leaf.type.suffix part).length ≤ maxNameSize
  first : ∀ other ∈ before, other.address ≠ none →
    ¬ other.Fits (leaf.knownName ++ leaf.type.suffix part)

theorem leaves_top {leaf : Leaf} (member : leaf ∈ leaves table memory) :
    leaf.ginfo = none → leaf.nesting = [] := by
  obtain ⟨place, info, -, here⟩ := mem_leavesFrom.mp member
  exact (rowLeaves_place here).2

theorem answer_own (apart : AllApart table memory) {leaf other : Leaf}
    (member : leaf ∈ leaves table memory) (otherMember : other ∈ leaves table memory) {part : Nat}
    {hit : Hit} (parameter : leaf.IsParameter part hit) {name : List Char}
    (answers : other.answer name = some hit) : other = leaf :=
  apart.eq_of_inside otherMember member (Leaf.answer_inside (leaves_top otherMember) answers)
    parameter.inside

/-- A name that finds a parameter in its own variable is the name that the search knows. -/
theorem copyNameToken_known (accepted : checkVarInfo table = true) (apart : AllApart table memory)
    {leaf : Leaf} (member : leaf ∈ leaves table memory) {part : Nat} {hit : Hit}
    (parameter : leaf.IsParameter part hit) (token : Token)
    (row : token.key = leaf.vindex ∨ leaf.knownName ++ leaf.type.suffix part = [])
    (short : (leaf.knownName ++ leaf.type.suffix part).length ≤ maxNameSize) :
    copyNameToken table memory token hit.address maxNameSize true =
      leaf.knownName ++ leaf.type.suffix part := by
  rw [copyNameToken, findVarInfoRow_parameter accepted apart member parameter]
  split
  · rename_i missing
    refine (row.resolve_left fun same => ?_).symm
    rw [if_pos same] at missing
    exact nomatch missing
  · rename_i found here
    split at here
    · obtain rfl := Option.some.inj here
      exact copyNameInfo_known short
    · exact nomatch here

theorem copyNameToken_answer (accepted : checkVarInfo table = true) (apart : AllApart table memory)
    {leaf : Leaf} (member : leaf ∈ leaves table memory) {part : Nat} {hit : Hit}
    (parameter : leaf.IsParameter part hit) (token : Token)
    (answers : leaf.answer (copyNameToken table memory token hit.address maxNameSize true) =
      some hit) :
    (token.key = leaf.vindex ∨ leaf.knownName ++ leaf.type.suffix part = []) ∧
      ¬ (leaf.ginfo = none ∧ leaf.type = .vector3f) ∧
      (leaf.knownName ++ leaf.type.suffix part).length ≤ maxNameSize := by
  have top := leaves_top member
  rw [copyNameToken, findVarInfoRow_parameter accepted apart member parameter] at answers
  by_cases own : token.key = leaf.vindex
  · rw [if_pos own] at answers
    exact ⟨Or.inl own,
      Leaf.answer_short top parameter (copyNameInfo_length leaf part maxNameSize) answers⟩
  · rw [if_neg own] at answers
    obtain ⟨known, short⟩ := Leaf.answer_short top parameter (Nat.zero_le _) answers
    refine ⟨Or.inr ?_, known, short⟩
    obtain ⟨address, place, ⟨same, empty⟩ | ⟨-, -, -, longer⟩⟩ := Leaf.answer_cases top answers
    · rw [VarType.suffix_scalar (parameter.scalar (congrArg Hit.type same)), List.append_nil]
      exact List.eq_nil_of_length_eq_zero empty
    · exact absurd longer (by simp)

theorem find_name_iff (accepted : checkVarInfo table = true) (apart : AllApart table memory)
    {before after : List Leaf} {leaf : Leaf} (split : leaves table memory = before ++ leaf :: after)
    {part : Nat} {hit : Hit} (parameter : leaf.IsParameter part hit) (token : Token) :
    find table memory (copyNameToken table memory token hit.address maxNameSize true) = some hit ↔
      LeadsBack token before leaf part := by
  have member : leaf ∈ leaves table memory := by
    rw [split]
    exact List.mem_append_right _ List.mem_cons_self
  have inFront : ∀ other ∈ before, other ∈ leaves table memory := by
    intro other early
    rw [split]
    exact List.mem_append_left _ early
  have different : ∀ other ∈ before, other ≠ leaf := by
    have distinct := @leavesFrom_pairwise memory true 0 table accepted
    change (leaves table memory).Pairwise Leaf.Differ at distinct
    rw [split] at distinct
    rintro other early rfl
    exact (List.pairwise_append.mp distinct).2.2 other early other List.mem_cons_self rfl
  have search : ∀ name, find table memory name =
      (before.findSome? (Leaf.answer name)).or
        ((leaf.answer name).or (after.findSome? (Leaf.answer name))) := by
    intro name
    rw [find, findFrom_eq memory 0 name accepted]
    change (leaves table memory).findSome? (Leaf.answer name) = _
    rw [split, List.findSome?_append, List.findSome?_cons]
    cases leaf.answer name <;> rfl
  constructor
  · intro found
    have own : leaf.answer (copyNameToken table memory token hit.address maxNameSize true) =
        some hit := by
      rw [find, findFrom_eq memory 0 _ accepted] at found
      obtain ⟨other, inside, answers⟩ := List.exists_of_findSome?_eq_some found
      rw [answer_own apart member inside parameter answers] at answers
      exact answers
    obtain ⟨row, known, short⟩ := copyNameToken_answer accepted apart member parameter token own
    refine ⟨row, known, short, fun other early allocated fits => ?_⟩
    rw [copyNameToken_known accepted apart member parameter token row short, search] at found
    cases earlier : before.findSome? (Leaf.answer (leaf.knownName ++ leaf.type.suffix part)) with
    | none =>
      exact (other.answer_ne_none_iff _).mpr ⟨allocated, fits⟩
        (List.findSome?_eq_none_iff.mp earlier other early)
    | some hit' =>
      rw [earlier] at found
      obtain rfl : hit' = hit := Option.some.inj found
      obtain ⟨stranger, inside, answers⟩ := List.exists_of_findSome?_eq_some earlier
      exact different stranger inside
        (answer_own apart member (inFront stranger inside) parameter answers)
  · rintro ⟨row, known, short, first⟩
    have nothing : before.findSome? (Leaf.answer (leaf.knownName ++ leaf.type.suffix part)) = none := by
      refine List.findSome?_eq_none_iff.mpr fun other early => ?_
      by_contra answers
      obtain ⟨allocated, fits⟩ := (other.answer_ne_none_iff _).mp answers
      exact first other early allocated fits
    rw [copyNameToken_known accepted apart member parameter token row short, search, nothing,
      Leaf.answer_known (leaves_top member) parameter known short]
    rfl

end RoundTrip

/-! ### The parameters that a walk returns -/

section Reached

variable {table : List Info} {memory : Memory} {frameTypeFlags : Nat}

/-- What a walk returns is a variable, or a part of a vector. -/
def Leaf.Returns (leaf : Leaf) (hit : Hit) : Prop :=
  ∃ address, leaf.address = some address ∧
    (hit = ⟨address, leaf.type.code⟩ ∨
      leaf.type = .vector3f ∧ ∃ part < 3, hit = ⟨address + 4 * (part : Nat), VarType.float.code⟩)

theorem nextGroup_returns (vindex : Nat) (info : Info) (base : Option Int) (group : GroupInfo)
    (groupBase groupShift : Nat) (nesting : List Entry) (offset : Int) (found : Bool) (token : Token)
    {hit : Hit}
    (returned : (nextGroup memory frameTypeFlags vindex base group groupBase groupShift offset found
      token).hit = some hit) :
    ∃ leaf ∈ groupLeaves memory vindex info group groupBase groupShift nesting
      (base.map (· + offset)), leaf.Returns hit := by
  induction group generalizing groupBase groupShift nesting offset found token with
  | groupEnd => exact nomatch returned
  | element entry type rest restHypothesis =>
    have behind : ∀ found token, (nextGroup memory frameTypeFlags vindex base rest groupBase
        groupShift offset found token).hit = some hit → ∃ leaf ∈ groupLeaves memory vindex info
          (.element entry type rest) groupBase groupShift nesting (base.map (· + offset)),
          leaf.Returns hit := by
      intro found token later
      obtain ⟨leaf, member, returns⟩ := restHypothesis _ _ nesting _ _ _ later
      exact ⟨leaf, List.mem_cons_of_mem _ member, returns⟩
    unfold nextGroup at returned
    split at returned
    · exact behind _ _ returned
    · cases base with
      | none =>
        split at returned
        · exact behind _ _ returned
        · split at returned
          · split at returned
            · exact behind _ _ returned
            · exact behind _ _ returned
          · exact behind _ _ returned
      | some base =>
        have place : base + entry.offset + offset = base + offset + entry.offset := by omega
        split at returned
        · refine ⟨_, List.mem_cons_self, base + offset + entry.offset, rfl, Or.inl ?_⟩
          rw [← Option.some.inj returned, place]
        · split at returned
          · split at returned
            · rename_i more
              refine ⟨_, List.mem_cons_self, base + offset + entry.offset, rfl,
                Or.inr ⟨more.1, token.idx, more.2, ?_⟩⟩
              rw [← Option.some.inj returned, place]
              rfl
            · exact behind _ _ returned
          · exact behind _ _ returned
  | group entry nested rest nestedHypothesis restHypothesis =>
    have behind : ∀ found token, (nextGroup memory frameTypeFlags vindex base rest groupBase
        groupShift offset found token).hit = some hit → ∃ leaf ∈ groupLeaves memory vindex info
          (.group entry nested rest) groupBase groupShift nesting (base.map (· + offset)),
          leaf.Returns hit := by
      intro found token later
      obtain ⟨leaf, member, returns⟩ := restHypothesis _ _ nesting _ _ _ later
      exact ⟨leaf, List.mem_append_right _ member, returns⟩
    unfold nextGroup at returned
    split at returned
    · exact behind _ _ returned
    · cases adjusted : adjustGroupOffset memory base entry offset with
      | none =>
        rw [adjusted] at returned
        exact behind _ _ returned
      | some newOffset =>
        have object : base.map (· + newOffset) =
            (base.map (· + offset)).bind (nestedObject memory entry) := by
          cases base with
          | none => rfl
          | some base =>
            have nested := adjustGroupOffset_object memory base entry offset
            rw [adjusted] at nested
            exact nested
        rw [adjusted] at returned
        dsimp only at returned
        split at returned
        · obtain ⟨leaf, member, returns⟩ :=
            nestedHypothesis _ _ (nesting ++ [entry]) newOffset _ _ returned
          rw [object] at member
          exact ⟨leaf, List.mem_append_left _ member, returns⟩
        · exact behind _ _ returned
  | unset entry rest restHypothesis =>
    unfold nextGroup at returned
    exact restHypothesis _ _ nesting _ _ _ returned

theorem nextRows_returns {first : Bool} {rows : List Info} (vindex : Nat) (found : Bool)
    (token : Token) (accepted : checkVarInfoFrom first rows = true) {hit : Hit}
    (returned : (nextRows memory frameTypeFlags vindex rows found token).hit = some hit) :
    ∃ leaf ∈ leavesFrom memory vindex rows, leaf.Returns hit := by
  induction rows generalizing vindex found token first with
  | nil => exact nomatch returned
  | cons info rest inductionHypothesis =>
    obtain ⟨row, tail⟩ := checkVarInfoFrom_cons accepted
    have behind : ∀ found token, (nextRows memory frameTypeFlags (vindex + 1) rest found token).hit =
        some hit → ∃ leaf ∈ leavesFrom memory vindex (info :: rest), leaf.Returns hit := by
      intro found token later
      obtain ⟨leaf, member, returns⟩ := inductionHypothesis (vindex + 1) found token tail later
      exact ⟨leaf, List.mem_append_right _ member, returns⟩
    unfold nextRows at returned
    split at returned
    · exact behind _ _ returned
    · unfold Info.Accepted at row
      cases kind : info.kind with
      | element type =>
        rw [kind] at row returned
        refine ⟨⟨vindex, info, [], none, type, 0, getBase memory info⟩, ?_, ?_⟩
        · rw [leavesFrom, rowLeaves, kind]
          exact List.mem_append_left _ (List.mem_singleton_self _)
        · exact ⟨info.ptr, getBase_element row.1, Or.inl (Option.some.inj returned).symm⟩
      | group groupInfo =>
        rw [kind] at returned
        dsimp only at returned
        split at returned
        · obtain ⟨leaf, member, returns⟩ := nextGroup_returns vindex info (getBase memory info)
            groupInfo 0 0 [] 0 found token returned
          refine ⟨leaf, ?_, returns⟩
          rw [leavesFrom, rowLeaves, kind]
          refine List.mem_append_left _ ?_
          simpa using member
        · exact behind _ _ returned
      | unset =>
        rw [kind] at returned
        exact behind _ _ returned

theorem accepted_drop {first : Bool} {rows : List Info} (count : Nat)
    (accepted : checkVarInfoFrom first rows = true) :
    ∃ first, checkVarInfoFrom first (rows.drop count) = true := by
  induction count generalizing rows first with
  | zero => exact ⟨first, accepted⟩
  | succ count inductionHypothesis =>
    cases rows with
    | nil => exact ⟨first, accepted⟩
    | cons info rest => exact inductionHypothesis (checkVarInfoFrom_cons accepted).2

theorem leavesFrom_drop {leaf : Leaf} {key : Nat}
    (member : leaf ∈ leavesFrom memory key (table.drop key)) : leaf ∈ leaves table memory := by
  obtain ⟨place, info, row, here⟩ := mem_leavesFrom.mp member
  refine mem_leavesFrom.mpr ⟨key + place, info, ?_, ?_⟩
  · rw [← List.getElem?_drop, row]
  · rw [Nat.zero_add]
    exact here

theorem next_returns (accepted : checkVarInfo table = true) (token : Token) {hit : Hit}
    (returned : (next table memory frameTypeFlags token).hit = some hit) :
    ∃ leaf ∈ leaves table memory, leaf.Returns hit := by
  obtain ⟨first, remaining⟩ := accepted_drop token.key accepted
  have inside : ∀ leaf ∈ leavesFrom memory token.key (table.drop token.key),
      leaf ∈ leaves table memory := fun leaf => leavesFrom_drop
  unfold next at returned
  cases rows : table.drop token.key with
  | nil =>
    rw [rows] at returned
    exact nomatch returned
  | cons info rest =>
    rw [rows] at returned remaining inside
    dsimp only at returned
    obtain ⟨row, tail⟩ := checkVarInfoFrom_cons remaining
    have walked : ∀ found, (nextRows memory frameTypeFlags token.key (info :: rest) found token).hit =
        some hit → ∃ leaf ∈ leaves table memory, leaf.Returns hit := by
      intro found later
      obtain ⟨leaf, member, returns⟩ := nextRows_returns token.key found token remaining later
      exact ⟨leaf, inside leaf member, returns⟩
    unfold Info.Accepted at row
    cases kind : info.kind with
    | element type =>
      rw [kind] at returned row
      dsimp only at returned
      split at returned
      · rename_i more
        refine ⟨⟨token.key, info, [], none, type, 0, getBase memory info⟩, inside _ ?_, info.ptr,
          getBase_element row.1, Or.inr ⟨more.1, token.idx, more.2, ?_⟩⟩
        · rw [leavesFrom, rowLeaves, kind]
          exact List.mem_append_left _ (List.mem_singleton_self _)
        · rw [← Option.some.inj returned, Int.add_comm]
          rfl
      · obtain ⟨leaf, member, returns⟩ := nextRows_returns (token.key + 1) true token tail returned
        exact ⟨leaf, inside leaf (List.mem_append_right _ member), returns⟩
    | group groupInfo =>
      rw [kind] at returned
      exact walked false returned
    | unset =>
      rw [kind] at returned
      exact walked false returned

/-- The loop of `next_scalar` stops at what `next` returns from a token that has all that every
step keeps, and not at a vector. -/
theorem skipVectors_rule (property : Token → Prop)
    (kept : ∀ token hit, property token → (next table memory frameTypeFlags token).hit = some hit →
      property (next table memory frameTypeFlags token).token)
    {fuel : Nat} {token : Token} {walk : Walk} {hit : Hit} (holds : property token)
    (stopped : skipVectors table memory frameTypeFlags fuel token = some walk)
    (here : walk.hit = some hit) :
    (∃ before, property before ∧ next table memory frameTypeFlags before = walk) ∧
      ¬ hit.type > VarType.float.code := by
  induction fuel generalizing token with
  | zero => cases stopped
  | succ fuel inductionHypothesis =>
    unfold skipVectors at stopped
    dsimp only at stopped
    cases returned : (next table memory frameTypeFlags token).hit with
    | none =>
      rw [returned] at stopped
      rw [← Option.some.inj stopped, returned] at here
      cases here
    | some reached =>
      rw [returned] at stopped
      dsimp only at stopped
      split at stopped
      · exact inductionHypothesis (kept token reached holds returned) stopped
      · rename_i scalar
        have same := Option.some.inj stopped
        rw [← same, returned] at here
        obtain rfl := Option.some.inj here
        exact ⟨⟨token, holds, same⟩, scalar⟩

/-- `next_scalar` returns what its loop stops at. A disabled group is passed over then. -/
theorem nextScalar_stops {hideDisabledGroups : Bool} {fuel : Nat} {token token' : Token} {hit : Hit}
    (returned : nextScalar table memory frameTypeFlags hideDisabledGroups fuel token =
      some (token', some hit)) :
    ∃ walk, skipVectors table memory frameTypeFlags fuel token = some walk ∧ walk.hit = some hit ∧
      (token' = walk.token ∨ ∃ level, passDisabled table memory frameTypeFlags level fuel walk.token
        walk.token = some token') := by
  obtain ⟨walk, stopped, rest⟩ := Option.bind_eq_some_iff.mp returned
  refine ⟨walk, stopped, ?_⟩
  cases here : walk.hit with
  | none =>
    rw [here] at rest
    exact nomatch rest
  | some reached =>
    rw [here] at rest
    dsimp only at rest
    split at rest
    · split at rest
      · obtain ⟨same, sameHit⟩ := Prod.mk.inj (Option.some.inj rest)
        exact ⟨sameHit, Or.inl same.symm⟩
      · obtain ⟨passed, disabled, same⟩ := Option.map_eq_some_iff.mp rest
        obtain ⟨rfl, sameHit⟩ := Prod.mk.inj same
        exact ⟨sameHit, Or.inr ⟨_, disabled⟩⟩
    · obtain ⟨same, sameHit⟩ := Prod.mk.inj (Option.some.inj rest)
      exact ⟨sameHit, Or.inl same.symm⟩

theorem nextScalar_parameter (accepted : checkVarInfo table = true) {hideDisabledGroups : Bool}
    {fuel : Nat} {token token' : Token} {hit : Hit}
    (returned : nextScalar table memory frameTypeFlags hideDisabledGroups fuel token =
      some (token', some hit)) :
    ∃ leaf ∈ leaves table memory, ∃ part, leaf.IsParameter part hit := by
  obtain ⟨walk, stopped, here, -⟩ := nextScalar_stops returned
  obtain ⟨⟨before, -, rfl⟩, scalar⟩ :=
    skipVectors_rule (fun _ => True) (fun _ _ _ _ => trivial) trivial stopped here
  obtain ⟨leaf, member, address, place, rfl | ⟨vector, part, small, rfl⟩⟩ :=
    next_returns accepted before here
  · have plain : leaf.type ≠ .vector3f := by
      intro vector
      rw [vector] at scalar
      exact scalar (by decide : VarType.vector3f.code > VarType.float.code)
    refine ⟨leaf, member, 0, address, place, ?_⟩
    rw [if_neg plain]
    exact ⟨rfl, rfl⟩
  · refine ⟨leaf, member, part, address, place, ?_⟩
    rw [if_pos vector]
    exact ⟨small, rfl⟩

/-- What the calls of `next_scalar` from the start of a walk on return. -/
inductive Reached (table : List Info) (memory : Memory) (frameTypeFlags : Nat)
    (hideDisabledGroups : Bool) : Token → Hit → Prop
  | start {fuel : Nat} {token : Token} {hit : Hit}
      (returned : nextScalar table memory frameTypeFlags hideDisabledGroups fuel
        (first table memory).1 = some (token, some hit)) :
      Reached table memory frameTypeFlags hideDisabledGroups token hit
  | step {fuel : Nat} {token token' : Token} {hit hit' : Hit}
      (before : Reached table memory frameTypeFlags hideDisabledGroups token hit)
      (returned : nextScalar table memory frameTypeFlags hideDisabledGroups fuel token =
        some (token', some hit')) :
      Reached table memory frameTypeFlags hideDisabledGroups token' hit'

variable {hideDisabledGroups : Bool}

theorem Reached.parameter (accepted : checkVarInfo table = true) {token : Token} {hit : Hit}
    (reached : Reached table memory frameTypeFlags hideDisabledGroups token hit) :
    ∃ leaf ∈ leaves table memory, ∃ part, leaf.IsParameter part hit := by
  cases reached with
  | start returned => exact nextScalar_parameter accepted returned
  | step before returned => exact nextScalar_parameter accepted returned

/-! ### The round trip -/

/-- The name of a parameter that a walk has reached leads back to it exactly when it is not a part
of a vector of the top level table, the name fits the buffer, and it fits no variable in front. -/
theorem find_reached_iff (accepted : checkVarInfo table = true) (apart : AllApart table memory)
    {token : Token} {hit : Hit}
    (reached : Reached table memory frameTypeFlags hideDisabledGroups token hit) :
    find table memory (copyNameToken table memory token hit.address maxNameSize true) = some hit ↔
      ∃ before leaf after part, leaves table memory = before ++ leaf :: after ∧
        leaf.IsParameter part hit ∧ LeadsBack token before leaf part := by
  constructor
  · intro found
    obtain ⟨leaf, member, part, parameter⟩ := reached.parameter accepted
    obtain ⟨before, after, place⟩ := List.append_of_mem member
    exact ⟨before, leaf, after, part, place, parameter,
      (find_name_iff accepted apart place parameter token).mp found⟩
  · rintro ⟨before, leaf, after, part, place, parameter, back⟩
    exact (find_name_iff accepted apart place parameter token).mpr back

end Reached

/-- The first part of a vector in a nested group is found by its name. -/
theorem find_reached_nested :
    checkVarInfo nestedTable = true ∧ AllApart nestedTable (allocatedMemory 0) ∧
      Reached nestedTable (allocatedMemory 0) 0 false ⟨1, 1, 258367⟩ ⟨3004, VarType.float.code⟩ ∧
      ∃ before leaf after part, leaves nestedTable (allocatedMemory 0) = before ++ leaf :: after ∧
        leaf.IsParameter part ⟨3004, VarType.float.code⟩ ∧
        LeadsBack ⟨1, 1, 258367⟩ before leaf part := by
  have accepted : checkVarInfo nestedTable = true := by decide
  have apart : AllApart nestedTable (allocatedMemory 0) := by decide
  have before : Reached nestedTable (allocatedMemory 0) 0 false ⟨1, 0, 63⟩
      ⟨2008, VarType.float.code⟩ := Reached.start (by decide : nextScalar _ _ _ _ 2 _ = _)
  have reached : Reached nestedTable (allocatedMemory 0) 0 false ⟨1, 1, 258367⟩
      ⟨3004, VarType.float.code⟩ := Reached.step before (by decide : nextScalar _ _ _ _ 3 _ = _)
  exact ⟨accepted, apart, reached, (find_reached_iff accepted apart reached).mp (by decide)⟩

/-- The full names of the parameters of a variable. -/
def Leaf.scalarNames (leaf : Leaf) : List (List Char) :=
  if leaf.type = .vector3f then
    (List.range 3).map fun part => leaf.info.name ++ leaf.path ++ leaf.type.suffix part
  else [leaf.info.name ++ leaf.path]

/-- No two parameters of the table have the same full name, up to case. -/
def NamesDistinct (table : List Info) (memory : Memory) : Prop :=
  (((leaves table memory).flatMap Leaf.scalarNames).map lower).Nodup

instance decidableNamesDistinct (table : List Info) (memory : Memory) :
    Decidable (NamesDistinct table memory) :=
  inferInstanceAs (Decidable (((leaves table memory).flatMap Leaf.scalarNames).map lower).Nodup)

/-- A table with a vector that is a row of its own. -/
def vectorTable : List Info := [
  ⟨['F'], 0, 1000, 0, .element .int8⟩,
  ⟨['V'], 1, 2000, 0, .element .vector3f⟩]

/-- The first part of the vector is reached, and its name is written as it should be, but the search
does not find it. -/
theorem find_loses_vector :
    (checkVarInfo vectorTable = true ∧ AllApart vectorTable blankMemory ∧
      NamesDistinct vectorTable blankMemory) ∧
      Reached vectorTable blankMemory 0 false ⟨1, 1, 0⟩ ⟨2000, VarType.float.code⟩ ∧
      copyNameToken vectorTable blankMemory ⟨1, 1, 0⟩ 2000 maxNameSize true = ['V', '_', 'X'] ∧
      find vectorTable blankMemory
        (copyNameToken vectorTable blankMemory ⟨1, 1, 0⟩ 2000 maxNameSize true) = none := by
  exact ⟨by decide, Reached.start (by decide : nextScalar _ _ _ _ 3 _ = _), by decide, by decide⟩

end Urus.Param
