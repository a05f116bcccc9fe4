/-
This file proves that the enumeration of the parameters is complete and free of
duplicates, and says when the count of the parameters is the number of their indices.

A table is flattened to the list of the variables that a walk may return, its spots. A
walk through a group is a search in the spots of the group: before the current variable is
found they are compared with the token, and behind it the first one is returned. Since the
identifiers of a group are distinct, the current variable is found at its own place and
nowhere else. From this one step of `next` is known at every spot, and a whole walk by
induction over the spots that are left.
-/

import Urus.Param.Identifiers
import Urus.Param.Walk

namespace Urus.Param

/-! ### Spots -/

/-- A variable that a walk may return. -/
structure Spot where
  vindex : Nat
  groupElement : Nat
  type : VarType
  address : Int
  deriving DecidableEq, Repr

/-- The token of a part of a variable; part 0 is the whole. -/
def Spot.token (spot : Spot) (idx : Nat) : Token :=
  { makeToken spot.vindex spot.groupElement with idx := idx }

/-- The variable as it is returned. -/
def Spot.hit (spot : Spot) : Hit := ⟨spot.address, spot.type.code⟩

/-- The part of a vector as it is returned. -/
def Spot.part (spot : Spot) (idx : Nat) : Hit := ⟨spot.address + 4 * idx, VarType.float.code⟩

/-- The variable is not hidden by the frame flags of its row and of the rows on the way to it. The
first row of the table is not asked for its flags. -/
def Leaf.shown (frameTypeFlags : Nat) (leaf : Leaf) : Bool :=
  leaf.vindex == 0 ||
    (checkFrameType frameTypeFlags leaf.info.flags &&
      (leaf.nesting ++ leaf.ginfo.toList).all fun entry => checkFrameType frameTypeFlags entry.flags)

/-- A variable that is shown and allocated. -/
def Leaf.spot (frameTypeFlags : Nat) (leaf : Leaf) : Option Spot :=
  if leaf.shown frameTypeFlags then
    leaf.address.map fun address => ⟨leaf.vindex, leaf.groupElement, leaf.type, address⟩
  else none

/-- The variables that a walk may return, in the order of the table. -/
def spots (frameTypeFlags : Nat) (leaves : List Leaf) : List Spot :=
  leaves.filterMap (Leaf.spot frameTypeFlags)

/-! ### Searching the spots -/

/-- A search in the spots of one row: the current variable is looked for, and then the next spot is
returned. -/
def seek : List Spot → (found : Bool) → Token → Walk
  | [], found, token => ⟨found, token, none⟩
  | spot :: _, true, _ => ⟨true, spot.token 0, some spot.hit⟩
  | spot :: rest, false, token =>
    if spot.groupElement = token.groupElement then
      if spot.type = .vector3f ∧ token.idx < 3 then
        ⟨true, token.advance, some (spot.part token.idx)⟩
      else seek rest true token
    else seek rest false token

/-- Behind a search without a result comes the next search. -/
def Walk.orElse (walk : Walk) (rest : Bool → Token → Walk) : Walk :=
  match walk.hit with
  | some _ => walk
  | none => rest walk.found walk.token

theorem seek_append (before after : List Spot) (found : Bool) (token : Token) :
    seek (before ++ after) found token = (seek before found token).orElse (seek after) := by
  induction before generalizing found token with
  | nil => rfl
  | cons spot rest inductionHypothesis =>
    cases found with
    | true => rfl
    | false =>
      rw [List.cons_append, seek, seek]
      split
      · split
        · rfl
        · exact inductionHypothesis true token
      · exact inductionHypothesis false token

theorem orElse_congr (walk : Walk) {first second : Bool → Token → Walk}
    (same : ∀ found token, first found token = second found token) :
    walk.orElse first = walk.orElse second := by
  rw [show first = second from funext fun found => funext (same found)]

/-- The search finds the current variable at its own place. -/
theorem seek_at {before after : List Spot} {spot : Spot} {token : Token}
    (here : spot.groupElement = token.groupElement)
    (distinct : (before ++ spot :: after).Pairwise fun first second =>
      first.groupElement ≠ second.groupElement) :
    seek (before ++ spot :: after) false token =
      if spot.type = .vector3f ∧ token.idx < 3 then
        ⟨true, token.advance, some (spot.part token.idx)⟩
      else seek after true token := by
  induction before with
  | nil => rw [List.nil_append, seek, if_pos here]
  | cons other rest inductionHypothesis =>
    rw [List.cons_append, List.pairwise_cons] at distinct
    have different : other.groupElement ≠ token.groupElement := by
      rw [← here]
      exact distinct.1 spot (List.mem_append_right _ List.mem_cons_self)
    rw [List.cons_append, seek, if_neg different]
    exact inductionHypothesis distinct.2

/-! ### A walk through a group -/

section Group

variable (memory : Memory) (frameTypeFlags vindex : Nat) (info : Info)

/-- The rows on the way to a table are shown. -/
def ShownTo (frameTypeFlags : Nat) (info : Info) (nesting : List Entry) : Prop :=
  checkFrameType frameTypeFlags info.flags = true ∧
    ∀ entry ∈ nesting, checkFrameType frameTypeFlags entry.flags = true

variable {nesting : List Entry}

theorem ShownTo.push {entry : Entry} (above : ShownTo frameTypeFlags info nesting)
    (here : checkFrameType frameTypeFlags entry.flags = true) :
    ShownTo frameTypeFlags info (nesting ++ [entry]) := by
  refine ⟨above.1, fun other member => ?_⟩
  rcases List.mem_append.mp member with inside | last
  · exact above.2 other inside
  · rw [List.mem_singleton.mp last]
    exact here

theorem shown_iff (above : ShownTo frameTypeFlags info nesting) (behind : vindex ≠ 0)
    (entry : Entry) (type : VarType) (groupElement : Nat) (address : Option Int) :
    Leaf.shown frameTypeFlags ⟨vindex, info, nesting, some entry, type, groupElement, address⟩ =
      checkFrameType frameTypeFlags entry.flags := by
  have all : nesting.all (fun entry => checkFrameType frameTypeFlags entry.flags) = true :=
    List.all_eq_true.mpr above.2
  have notFirst : (vindex == 0) = false := beq_eq_false_iff_ne.mpr behind
  simp only [Leaf.shown, notFirst, Bool.false_or, above.1, Bool.true_and, List.all_append, all,
    Option.toList_some, List.all_cons, List.all_nil, Bool.and_true]

theorem spots_hidden (group : GroupInfo) (groupBase groupShift : Nat) (nesting : List Entry)
    (object : Option Int) (behind : vindex ≠ 0)
    (hidden : ∃ entry ∈ nesting, checkFrameType frameTypeFlags entry.flags = false) :
    spots frameTypeFlags
      (groupLeaves memory vindex info group groupBase groupShift nesting object) = [] := by
  obtain ⟨row, rowMember, rowHidden⟩ := hidden
  have notFirst : (vindex == 0) = false := beq_eq_false_iff_ne.mpr behind
  induction group generalizing groupBase groupShift nesting object with
  | groupEnd => rfl
  | element entry type rest restHypothesis =>
    have notShown : (nesting ++ [entry]).all (fun entry =>
        checkFrameType frameTypeFlags entry.flags) = false := by
      rw [List.all_eq_false]
      exact ⟨row, List.mem_append_left _ rowMember, by rw [rowHidden]; exact Bool.false_ne_true⟩
    rw [groupLeaves, spots, List.filterMap_cons_none]
    · exact restHypothesis _ _ _ _ rowMember
    · simp only [Leaf.spot, Leaf.shown, notFirst, Option.toList_some, notShown, Bool.and_false,
        Bool.or_false, Bool.false_eq_true, if_false]
  | group entry nested rest nestedHypothesis restHypothesis =>
    rw [groupLeaves, spots, List.filterMap_append]
    exact List.append_eq_nil_iff.mpr ⟨nestedHypothesis _ _ _ _ (List.mem_append_left _ rowMember),
      restHypothesis _ _ _ _ rowMember⟩
  | unset entry rest restHypothesis => exact restHypothesis _ _ _ _ rowMember

/-- No variable of an object that is not allocated is a spot. -/
theorem spots_unallocated (group : GroupInfo) (groupBase groupShift : Nat) (nesting : List Entry) :
    spots frameTypeFlags
      (groupLeaves memory vindex info group groupBase groupShift nesting none) = [] := by
  refine List.filterMap_eq_nil_iff.mpr fun leaf member => ?_
  rw [Leaf.spot, groupLeaves_unallocated memory vindex info group _ _ _ leaf member, Option.map_none,
    ite_self]

/-- A walk through a group whose object is allocated is a search in its spots. -/
theorem nextGroup_seek (base : Int) (group : GroupInfo) (groupBase groupShift : Nat)
    (nesting : List Entry) (offset : Int) (found : Bool) (token : Token) (behind : vindex ≠ 0)
    (above : ShownTo frameTypeFlags info nesting) :
    nextGroup memory frameTypeFlags vindex (some base) group groupBase groupShift offset found token =
      seek (spots frameTypeFlags (groupLeaves memory vindex info group groupBase groupShift nesting
        (some (base + offset)))) found token := by
  induction group generalizing groupBase groupShift nesting offset found token with
  | groupEnd => rfl
  | element entry type rest restHypothesis =>
    rw [nextGroup, groupLeaves]
    by_cases hidden : checkFrameType frameTypeFlags entry.flags = false
    · rw [if_pos hidden, spots, List.filterMap_cons_none, restHypothesis _ _ nesting _ _ _ above]
      · rfl
      · rw [Leaf.spot, shown_iff frameTypeFlags vindex info above behind, hidden]
        rfl
    · have visible : checkFrameType frameTypeFlags entry.flags = true := Bool.not_eq_false _ ▸ hidden
      have place : base + entry.offset + offset = base + offset + entry.offset := by omega
      rw [if_neg hidden, spots, List.filterMap_cons_some (b := ⟨vindex,
        groupId entry groupBase groupShift, type, base + offset + entry.offset⟩)]
      · cases found with
        | true =>
          rw [if_pos rfl, place]
          rfl
        | false =>
          rw [if_neg Bool.false_ne_true, seek, place]
          by_cases current : groupId entry groupBase groupShift = token.groupElement
          · rw [if_pos current, if_pos current]
            by_cases more : type = .vector3f ∧ token.idx < 3
            · rw [if_pos more, if_pos more]
              rfl
            · rw [if_neg more, if_neg more, restHypothesis _ _ nesting _ _ _ above]
              rfl
          · rw [if_neg current, if_neg current, restHypothesis _ _ nesting _ _ _ above]
            rfl
      · rw [Leaf.spot, shown_iff frameTypeFlags vindex info above behind, visible]
        rfl
  | group entry nested rest nestedHypothesis restHypothesis =>
    rw [nextGroup, groupLeaves, spots, List.filterMap_append]
    by_cases hidden : checkFrameType frameTypeFlags entry.flags = false
    · have nothing := spots_hidden memory frameTypeFlags vindex info nested
        (groupId entry groupBase groupShift) (groupShift + groupLevelShift) (nesting ++ [entry])
        ((some (base + offset)).bind (nestedObject memory entry)) behind
        ⟨entry, List.mem_append_right _ (List.mem_singleton_self _), hidden⟩
      rw [spots] at nothing
      rw [if_pos hidden, nothing, List.nil_append, restHypothesis _ _ nesting _ _ _ above]
      rfl
    · have visible : checkFrameType frameTypeFlags entry.flags = true := Bool.not_eq_false _ ▸ hidden
      rw [if_neg hidden, Option.bind_some, ← adjustGroupOffset_object]
      cases adjustGroupOffset memory (some base) entry offset with
      | none =>
        have nothing := spots_unallocated memory frameTypeFlags vindex info nested
          (groupId entry groupBase groupShift) (groupShift + groupLevelShift) (nesting ++ [entry])
        rw [spots] at nothing
        rw [Option.map_none, nothing, List.nil_append]
        exact restHypothesis _ _ nesting _ _ _ above
      | some newOffset =>
        rw [Option.map_some, seek_append]
        dsimp only
        rw [nestedHypothesis _ _ (nesting ++ [entry]) newOffset _ _
          (above.push frameTypeFlags info visible)]
        exact orElse_congr _ fun found token => restHypothesis _ _ nesting _ _ _ above
  | unset entry rest restHypothesis =>
    exact restHypothesis _ _ nesting _ _ _ above

/-- A walk through a group whose object is not allocated returns nothing. -/
theorem nextGroup_unallocated (group : GroupInfo) (groupBase groupShift : Nat) (offset : Int)
    (token : Token) :
    ∃ token', nextGroup memory frameTypeFlags vindex none group groupBase groupShift offset true
      token = ⟨true, token', none⟩ := by
  induction group generalizing groupBase groupShift offset token with
  | groupEnd => exact ⟨token, rfl⟩
  | element entry type rest restHypothesis =>
    rw [nextGroup]
    split
    · exact restHypothesis _ _ _ _
    · rw [if_pos rfl]
      exact restHypothesis _ _ _ _
  | group entry nested rest nestedHypothesis restHypothesis =>
    rw [nextGroup]
    split
    · exact restHypothesis _ _ _ _
    · cases adjustGroupOffset memory none entry offset with
      | none => exact restHypothesis _ _ _ _
      | some newOffset =>
        obtain ⟨token', nothing⟩ := nestedHypothesis (groupId entry groupBase groupShift)
          (groupShift + groupLevelShift) newOffset token
        simp only [nothing]
        exact restHypothesis _ _ _ _
  | unset entry rest restHypothesis =>
    exact restHypothesis _ _ _ _

end Group

/-! ### One step at a spot -/

/-- The walk has returned the first of the spots, or nothing when there is none. -/
def Heads (walk : Walk) : List Spot → Prop
  | [] => walk.hit = none
  | spot :: _ => walk.token = spot.token 0 ∧ walk.hit = some spot.hit

section Rows

variable {memory : Memory} {frameTypeFlags : Nat}

theorem spots_append (before after : List Leaf) :
    spots frameTypeFlags (before ++ after) = spots frameTypeFlags before ++ spots frameTypeFlags after :=
  List.filterMap_append

variable {info : Info} {rest : List Info} {vindex : Nat}

theorem spots_hiddenRow (accepted : info.Accepted rest) (behind : vindex ≠ 0)
    (hidden : checkFrameType frameTypeFlags info.flags = false) :
    spots frameTypeFlags (rowLeaves memory vindex info) = [] := by
  refine List.filterMap_eq_nil_iff.mpr fun leaf member => ?_
  obtain ⟨vindexSame, infoSame, -⟩ := rowLeaves_info memory accepted leaf member
  have notFirst : (leaf.vindex == 0) = false := by
    rw [vindexSame]
    exact beq_eq_false_iff_ne.mpr behind
  rw [Leaf.spot, Leaf.shown, notFirst, infoSame, hidden]
  rfl

/-- The base of a row that is a variable. -/
theorem getBase_element (plain : info.flags.testBit pointerFlag = false) :
    getBase memory info = some info.ptr := by
  rw [getBase, plain]
  rfl

theorem rowSpots_element {type : VarType} (kind : info.kind = .element type)
    (plain : info.flags.testBit pointerFlag = false) :
    spots frameTypeFlags (rowLeaves memory vindex info) =
      if vindex = 0 ∨ checkFrameType frameTypeFlags info.flags = true then
        [⟨vindex, 0, type, info.ptr⟩]
      else [] := by
  have shown : (vindex == 0 || (checkFrameType frameTypeFlags info.flags && true)) = true ↔
      vindex = 0 ∨ checkFrameType frameTypeFlags info.flags = true := by
    rw [Bool.and_true, Bool.or_eq_true, beq_iff_eq]
  simp only [rowLeaves, kind, spots, List.filterMap_cons, List.filterMap_nil, Leaf.spot, Leaf.shown,
    getBase_element plain, Option.map_some, List.nil_append, Option.toList_none, List.all_nil, shown]
  by_cases visible : vindex = 0 ∨ checkFrameType frameTypeFlags info.flags = true
  · rw [if_pos visible, if_pos visible]
  · rw [if_neg visible, if_neg visible]

/-- Behind the current variable the walk returns the next spot. -/
theorem nextRows_heads {first : Bool} {rows : List Info} (vindex : Nat) (token : Token)
    (accepted : checkVarInfoFrom first rows = true) (behind : vindex ≠ 0) :
    Heads (nextRows memory frameTypeFlags vindex rows true token)
      (spots frameTypeFlags (leavesFrom memory vindex rows)) := by
  induction rows generalizing vindex token first with
  | nil => rfl
  | cons info rest inductionHypothesis =>
    obtain ⟨row, tail⟩ := checkVarInfoFrom_cons accepted
    have later := fun token => inductionHypothesis (vindex + 1) token tail (Nat.succ_ne_zero vindex)
    rw [nextRows, leavesFrom, spots_append]
    by_cases hidden : checkFrameType frameTypeFlags info.flags = false
    · rw [if_pos hidden, spots_hiddenRow row behind hidden, List.nil_append]
      exact later token
    · have visible : checkFrameType frameTypeFlags info.flags = true := Bool.not_eq_false _ ▸ hidden
      rw [if_neg hidden]
      unfold Info.Accepted at row
      cases kind : info.kind with
      | element type =>
        simp only [kind] at row
        rw [rowSpots_element kind row.1, if_pos (Or.inr visible)]
        exact ⟨rfl, rfl⟩
      | group groupInfo =>
        simp only [rowLeaves, kind]
        cases base : getBase memory info with
        | none =>
          obtain ⟨token', nothing⟩ := nextGroup_unallocated memory frameTypeFlags vindex groupInfo 0 0
            0 token
          rw [spots_unallocated, List.nil_append]
          simp only [nothing]
          exact later token'
        | some object =>
          have search := nextGroup_seek memory frameTypeFlags vindex info object groupInfo 0 0 [] 0
            true token behind ⟨visible, fun _ member => absurd member List.not_mem_nil⟩
          rw [Int.add_zero] at search
          simp only [search]
          cases spots frameTypeFlags (groupLeaves memory vindex info groupInfo 0 0 []
            (some object)) with
          | nil => exact later token
          | cons spot others => exact ⟨rfl, rfl⟩
      | unset =>
        simp only [rowLeaves, kind]
        exact later token

theorem mem_rowSpots (accepted : info.Accepted rest) {spot : Spot}
    (member : spot ∈ spots frameTypeFlags (rowLeaves memory vindex info)) :
    spot.vindex = vindex ∧ spot.groupElement < 2 ^ 18 := by
  obtain ⟨leaf, leafMember, here⟩ := List.mem_filterMap.mp member
  obtain ⟨vindexSame, -, fits⟩ := rowLeaves_info memory accepted leaf leafMember
  rw [Leaf.spot] at here
  split at here
  · obtain ⟨address, -, rfl⟩ := Option.map_eq_some_iff.mp here
    exact ⟨vindexSame, fits⟩
  · cases here

theorem groupSpots_distinct {group : GroupInfo} {prefixLength : Nat} (object : Option Int)
    (accepted : checkGroupInfo group 0 prefixLength 0 = true) :
    (spots frameTypeFlags (groupLeaves memory vindex info group 0 0 [] object)).Pairwise
      fun first second => first.groupElement ≠ second.groupElement := by
  refine (groupLeaves_pairwise memory vindex info group 0 0 prefixLength 0 [] object accepted
    (by decide) ⟨rfl, by decide⟩).filterMap _ fun first second different => ?_
  have identifier : ∀ (leaf : Leaf) (spot : Spot), leaf.spot frameTypeFlags = some spot →
      spot.groupElement = leaf.groupElement := by
    intro leaf spot here
    rw [Leaf.spot] at here
    split at here
    · obtain ⟨address, -, rfl⟩ := Option.map_eq_some_iff.mp here
      rfl
    · cases here
  intro firstSpot firstHere secondSpot secondHere
  rw [identifier first firstSpot firstHere, identifier second secondSpot secondHere]
  exact different

/-- The part of a vector that comes next, or the next spot. -/
def NextAt (walk : Walk) (spot : Spot) (idx : Nat) (after : List Spot) : Prop :=
  if spot.type = .vector3f ∧ idx < 3 then
    walk.token = spot.token (idx + 1) ∧ walk.hit = some (spot.part idx)
  else Heads walk after

section Step

variable {table rest : List Info} {info : Info} {vindex : Nat}

/-- One step of `next` at a row that is a variable. -/
theorem next_element {type : VarType} (place : table.drop vindex = info :: rest)
    (kind : info.kind = .element type) (fits : vindex < 2 ^ 9)
    (tail : checkVarInfoFrom false rest = true) (idx : Nat) :
    NextAt (next table memory frameTypeFlags (Spot.token ⟨vindex, 0, type, info.ptr⟩ idx))
      ⟨vindex, 0, type, info.ptr⟩ idx
      (spots frameTypeFlags (leavesFrom memory (vindex + 1) rest)) := by
  have key : (Spot.token ⟨vindex, 0, type, info.ptr⟩ idx).key = vindex := Nat.mod_eq_of_lt fits
  rw [next, key, place, NextAt]
  simp only [kind]
  by_cases more : type = .vector3f ∧ idx < 3
  · have parts : type = .vector3f ∧ (Spot.token ⟨vindex, 0, type, info.ptr⟩ idx).idx < 3 := more
    rw [if_pos more, if_pos parts]
    refine ⟨rfl, ?_⟩
    show some (Hit.mk (4 * (idx : Int) + info.ptr) _) = some ⟨info.ptr + 4 * (idx : Int), _⟩
    rw [Int.add_comm]
  · have whole : ¬ (type = .vector3f ∧ (Spot.token ⟨vindex, 0, type, info.ptr⟩ idx).idx < 3) := more
    rw [if_neg more, if_neg whole]
    exact nextRows_heads (vindex + 1) _ tail (Nat.succ_ne_zero vindex)

variable {before after : List Spot}

/-- One step of `next` at a spot of a group. -/
theorem next_group {groupInfo : GroupInfo} (place : table.drop vindex = info :: rest)
    (kind : info.kind = .group groupInfo) (fits : vindex < 2 ^ 9) (behind : vindex ≠ 0)
    (accepted : info.Accepted rest) (tail : checkVarInfoFrom false rest = true) {spot : Spot}
    (here : spots frameTypeFlags (rowLeaves memory vindex info) = before ++ spot :: after)
    (idx : Nat) :
    NextAt (next table memory frameTypeFlags (spot.token idx)) spot idx
      (after ++ spots frameTypeFlags (leavesFrom memory (vindex + 1) rest)) := by
  obtain ⟨sameRow, bound⟩ := mem_rowSpots accepted
    (here ▸ List.mem_append_right _ List.mem_cons_self)
  have key : (spot.token idx).key = vindex := by
    rw [← sameRow] at fits ⊢
    exact Nat.mod_eq_of_lt fits
  have element : spot.groupElement = (spot.token idx).groupElement := (Nat.mod_eq_of_lt bound).symm
  have visible : ¬ checkFrameType frameTypeFlags info.flags = false := by
    intro hidden
    rw [spots_hiddenRow accepted behind hidden] at here
    exact absurd here (by simp)
  unfold Info.Accepted at accepted
  simp only [kind] at accepted
  simp only [rowLeaves, kind] at here
  rw [next, key, place]
  simp only [kind, nextRows, if_neg visible]
  cases base : getBase memory info with
  | none =>
    rw [base, spots_unallocated] at here
    exact absurd here (by simp)
  | some object =>
    rw [base] at here
    have search := nextGroup_seek memory frameTypeFlags vindex info object groupInfo 0 0 [] 0
      false (spot.token idx) behind
      ⟨Bool.not_eq_false _ ▸ visible, fun _ member => absurd member List.not_mem_nil⟩
    have distinct : (before ++ spot :: after).Pairwise fun first second =>
        first.groupElement ≠ second.groupElement :=
      here ▸ groupSpots_distinct (some object) accepted.1
    rw [Int.add_zero, here, seek_at element distinct] at search
    rw [search, NextAt]
    by_cases more : spot.type = .vector3f ∧ idx < 3
    · have parts : spot.type = .vector3f ∧ (spot.token idx).idx < 3 := more
      rw [if_pos more, if_pos parts]
      exact ⟨rfl, rfl⟩
    · have whole : ¬ (spot.type = .vector3f ∧ (spot.token idx).idx < 3) := more
      rw [if_neg more, if_neg whole]
      cases after with
      | nil => exact nextRows_heads (vindex + 1) _ tail (Nat.succ_ne_zero vindex)
      | cons other others => exact ⟨rfl, rfl⟩

/-- One step of `next` at a spot. -/
theorem next_spot (place : table.drop vindex = info :: rest) (fits : vindex < 2 ^ 9)
    (accepted : info.Accepted rest) (tail : checkVarInfoFrom false rest = true)
    (firstRow : vindex = 0 → ∃ type, info.kind = .element type) {spot : Spot}
    (here : spots frameTypeFlags (rowLeaves memory vindex info) = before ++ spot :: after)
    (idx : Nat) :
    NextAt (next table memory frameTypeFlags (spot.token idx)) spot idx
      (after ++ spots frameTypeFlags (leavesFrom memory (vindex + 1) rest)) := by
  cases kind : info.kind with
  | element type =>
    have row := accepted
    unfold Info.Accepted at row
    simp only [kind] at row
    rw [rowSpots_element kind row.1] at here
    split at here
    · obtain ⟨-, same⟩ | ⟨_, -, impossible⟩ := List.cons_eq_append_iff.mp here
      · obtain ⟨rfl, rfl⟩ := List.cons.inj same
        exact next_element place kind fits tail idx
      · exact absurd impossible (by simp)
    · exact absurd here (by simp)
  | group groupInfo =>
    refine next_group place kind fits (fun zero => ?_) accepted tail here idx
    obtain ⟨type, other⟩ := firstRow zero
    rw [kind] at other
    cases other
  | unset =>
    simp only [rowLeaves, kind] at here
    exact absurd here (by simp [spots])

end Step

end Rows

/-! ### A whole walk -/

/-- The parts of a vector, as they are returned behind it. -/
def Spot.parts (spot : Spot) : List (Token × Hit) :=
  if spot.type = .vector3f then
    [(spot.token 1, spot.part 0), (spot.token 2, spot.part 1), (spot.token 3, spot.part 2)]
  else []

/-- What a walk returns for a variable: the variable, and the parts of a vector behind it. -/
def Spot.visits (spot : Spot) : List (Token × Hit) := (spot.token 0, spot.hit) :: spot.parts

/-- What the calls of `next` from a token on return. -/
def walkFrom (table : List Info) (memory : Memory) (frameTypeFlags : Nat) :
    (fuel : Nat) → Token → Option (List (Token × Hit))
  | 0, _ => none
  | fuel + 1, token =>
    let walk := next table memory frameTypeFlags token
    match walk.hit with
    | none => some []
    | some hit => (walkFrom table memory frameTypeFlags fuel walk.token).map ((walk.token, hit) :: ·)

/-- What `first` and the calls of `next` return. -/
def walkAll (table : List Info) (memory : Memory) (frameTypeFlags fuel : Nat) :
    Option (List (Token × Hit)) :=
  match first table memory with
  | (_, none) => some []
  | (token, some hit) => (walkFrom table memory frameTypeFlags fuel token).map ((token, hit) :: ·)

section Chain

variable {table : List Info} {memory : Memory} {frameTypeFlags : Nat}

/-- The calls of `next` from a token on return the visits one after the other, and then nothing. -/
def Chain (table : List Info) (memory : Memory) (frameTypeFlags : Nat) :
    Token → List (Token × Hit) → Prop
  | token, [] => (next table memory frameTypeFlags token).hit = none
  | token, visit :: rest =>
    (next table memory frameTypeFlags token).token = visit.1 ∧
      (next table memory frameTypeFlags token).hit = some visit.2 ∧
      Chain table memory frameTypeFlags visit.1 rest

variable {fuel : Nat} {token : Token} {visits : List (Token × Hit)} {after : List Spot}
  {vindex : Nat}

/-- A loop over the visits of a chain takes one round for each, and one for the end. -/
@[elab_as_elim] theorem Chain.rule {motive : Nat → Token → List (Token × Hit) → Prop}
    (chain : Chain table memory frameTypeFlags token visits) (enough : visits.length < fuel)
    (done : ∀ fuel token, (next table memory frameTypeFlags token).hit = none →
      motive (fuel + 1) token [])
    (onwards : ∀ fuel token visit rest, (next table memory frameTypeFlags token).token = visit.1 →
      (next table memory frameTypeFlags token).hit = some visit.2 →
      Chain table memory frameTypeFlags visit.1 rest → motive fuel visit.1 rest →
      motive (fuel + 1) token (visit :: rest)) :
    motive fuel token visits := by
  induction visits generalizing token fuel with
  | nil =>
    obtain ⟨fuel, rfl⟩ := Nat.exists_eq_add_one.mpr enough
    exact done fuel token chain
  | cons visit rest inductionHypothesis =>
    obtain ⟨fuel, rfl⟩ := Nat.exists_eq_add_one.mpr (Nat.zero_lt_of_lt enough)
    obtain ⟨place, hit, later⟩ := chain
    exact onwards fuel token visit rest place hit later
      (inductionHypothesis later (Nat.lt_of_succ_lt_succ enough))

theorem Chain.walk (chain : Chain table memory frameTypeFlags token visits)
    (enough : visits.length < fuel) :
    walkFrom table memory frameTypeFlags fuel token = some visits := by
  refine chain.rule enough ?_ ?_
  · intro fuel token ended
    rw [walkFrom]
    simp only [ended]
  · intro fuel token visit rest place hit later walked
    rw [walkFrom]
    simp only [place, hit, walked, Option.map_some]

/-- The spots follow one another from the first on. -/
def Linked (table : List Info) (memory : Memory) (frameTypeFlags : Nat) : List Spot → Prop
  | [] => True
  | spot :: rest =>
    Chain table memory frameTypeFlags (spot.token 0) (spot.parts ++ rest.flatMap Spot.visits)

theorem Heads.chain (heads : Heads (next table memory frameTypeFlags token) after)
    (linked : Linked table memory frameTypeFlags after) :
    Chain table memory frameTypeFlags token (after.flatMap Spot.visits) := by
  cases after with
  | nil => exact heads
  | cons spot rest => exact ⟨heads.1, heads.2, linked⟩

theorem linked_cons {spot : Spot}
    (steps : ∀ idx, NextAt (next table memory frameTypeFlags (spot.token idx)) spot idx after)
    (linked : Linked table memory frameTypeFlags after) :
    Linked table memory frameTypeFlags (spot :: after) := by
  rw [Linked, Spot.parts]
  by_cases parts : spot.type = .vector3f
  · have part : ∀ idx, idx < 3 →
        (next table memory frameTypeFlags (spot.token idx)).token = spot.token (idx + 1) ∧
        (next table memory frameTypeFlags (spot.token idx)).hit = some (spot.part idx) := by
      intro idx bound
      have step := steps idx
      rw [NextAt, if_pos ⟨parts, bound⟩] at step
      exact step
    have last := steps 3
    rw [NextAt, if_neg fun more => absurd more.2 (Nat.lt_irrefl 3)] at last
    rw [if_pos parts]
    exact ⟨(part 0 (by decide)).1, (part 0 (by decide)).2, (part 1 (by decide)).1,
      (part 1 (by decide)).2, (part 2 (by decide)).1, (part 2 (by decide)).2, last.chain linked⟩
  · have step := steps 0
    rw [NextAt, if_neg fun more => parts more.1] at step
    rw [if_neg parts]
    exact step.chain linked

/-- The spots of a row are linked to those of the rows behind it. -/
theorem linked_row {rest : List Info} {info : Info} (place : table.drop vindex = info :: rest)
    (fits : vindex < 2 ^ 9) (accepted : info.Accepted rest)
    (tail : checkVarInfoFrom false rest = true)
    (firstRow : vindex = 0 → ∃ type, info.kind = .element type)
    (linked : Linked table memory frameTypeFlags (spots frameTypeFlags (leavesFrom memory (vindex + 1) rest)))
    (before after : List Spot)
    (here : spots frameTypeFlags (rowLeaves memory vindex info) = before ++ after) :
    Linked table memory frameTypeFlags
      (after ++ spots frameTypeFlags (leavesFrom memory (vindex + 1) rest)) := by
  induction after generalizing before with
  | nil => exact linked
  | cons spot after inductionHypothesis =>
    refine linked_cons (fun idx => next_spot place fits accepted tail firstRow here idx) ?_
    refine inductionHypothesis (before ++ [spot]) ?_
    rw [here, List.append_assoc, List.singleton_append]

theorem linked_rows {rows : List Info} {start : Bool} (place : table.drop vindex = rows)
    (fits : vindex + rows.length ≤ 2 ^ 9) (accepted : checkVarInfoFrom start rows = true)
    (atStart : vindex = 0 → start = true) :
    Linked table memory frameTypeFlags (spots frameTypeFlags (leavesFrom memory vindex rows)) := by
  induction rows generalizing vindex start with
  | nil => trivial
  | cons info rest inductionHypothesis =>
    obtain ⟨row, tail⟩ := checkVarInfoFrom_cons accepted
    rw [List.length_cons] at fits
    have next : table.drop (vindex + 1) = rest := by
      rw [← List.drop_drop, place, List.drop_one, List.tail_cons]
    have later := inductionHypothesis next (by omega) tail
      (fun impossible => absurd impossible (Nat.succ_ne_zero _))
    rw [leavesFrom, spots_append]
    refine linked_row place (by omega) row tail (fun zero => ?_) later [] _ rfl
    rw [checkVarInfoFrom, atStart zero] at accepted
    cases kind : info.kind with
    | element type => exact ⟨type, rfl⟩
    | group groupInfo => simp [kind] at accepted
    | unset => simp [kind] at accepted

/-! ### Scalars -/

/-- The visit is no vector. -/
def scalar (visit : Token × Hit) : Bool := decide (¬ visit.2.type > VarType.float.code)

/-- Without hiding no variable disables its group. -/
theorem disabledBy_off (token : Token) (hit : Hit) : disabledBy table memory false token hit = none := by
  rw [disabledBy, Option.filter_eq_none_iff]
  intro found _
  cases found.ginfo <;> simp

theorem nextScalar_off (fuel : Nat) (token : Token) :
    nextScalar table memory frameTypeFlags false fuel token =
      (skipVectors table memory frameTypeFlags fuel token).map fun walk => (walk.token, walk.hit) := by
  rw [nextScalar]
  cases skipVectors table memory frameTypeFlags fuel token with
  | none => rfl
  | some walk =>
    rw [Option.bind_some, Option.map_some]
    cases hit : walk.hit with
    | none => rfl
    | some value => simp only [disabledBy_off, ite_self]

section

variable (chain : Chain table memory frameTypeFlags token visits)

include chain

/-- The loop over the vectors ends at the first scalar that is left. -/
theorem Chain.skipVectors (enough : visits.length < fuel) :
    ∃ walk, skipVectors table memory frameTypeFlags fuel token = some walk ∧
      ((walk.hit = none ∧ ∀ visit ∈ visits, scalar visit = false) ∨
        ∃ vectors visit rest, visits = vectors ++ visit :: rest ∧
          (∀ vector ∈ vectors, scalar vector = false) ∧ scalar visit = true ∧
          walk.token = visit.1 ∧ walk.hit = some visit.2 ∧
          Chain table memory frameTypeFlags visit.1 rest) := by
  refine chain.rule enough ?_ ?_
  · intro fuel token ended
    refine ⟨next table memory frameTypeFlags token, ?_, Or.inl ⟨ended, fun _ member =>
      absurd member List.not_mem_nil⟩⟩
    rw [Param.skipVectors]
    simp only [ended]
  · intro fuel token visit rest place hit later found
    rw [Param.skipVectors]
    by_cases vector : visit.2.type > VarType.float.code
    · have notScalar : scalar visit = false := decide_eq_false (not_not.mpr vector)
      obtain ⟨walk, stopped, cases⟩ := found
      simp only [hit, if_pos vector, place]
      refine ⟨walk, stopped, cases.imp
        (fun ended => ⟨ended.1, List.forall_mem_cons.2 ⟨notScalar, ended.2⟩⟩) ?_⟩
      rintro ⟨vectors, first, others, rfl, none, found⟩
      exact ⟨visit :: vectors, first, others, rfl, List.forall_mem_cons.2 ⟨notScalar, none⟩, found⟩
    · simp only [hit, if_neg vector]
      exact ⟨_, rfl, Or.inr ⟨[], visit, rest, rfl, fun _ member => absurd member List.not_mem_nil,
        decide_eq_true vector, place, hit, later⟩⟩

/-- `next_scalar` returns the first scalar that is left, or nothing when there is none. -/
theorem Chain.scalar_cases (enough : visits.length < fuel) :
    (visits.filter scalar = [] ∧
      ∃ token', nextScalar table memory frameTypeFlags false fuel token = some (token', none)) ∨
      ∃ visit rest, visits.filter scalar = visit :: rest.filter scalar ∧
        rest.length < visits.length ∧ Chain table memory frameTypeFlags visit.1 rest ∧
        nextScalar table memory frameTypeFlags false fuel token =
          some (visit.1, some visit.2) := by
  rw [nextScalar_off]
  obtain ⟨walk, stopped, ⟨ended, none⟩ | ⟨vectors, visit, rest, rfl, none, found, place, hit, later⟩⟩ :=
    chain.skipVectors enough
  · refine Or.inl ⟨List.filter_eq_nil_iff.2 fun visit member => ?_, walk.token, ?_⟩
    · rw [none visit member]
      exact Bool.false_ne_true
    · rw [stopped, Option.map_some, ended]
  · have dropped : vectors.filter scalar = [] := List.filter_eq_nil_iff.2 fun vector member => by
      rw [none vector member]
      exact Bool.false_ne_true
    refine Or.inr ⟨visit, rest, ?_, ?_, later, ?_⟩
    · rw [List.filter_append, dropped, List.nil_append, List.filter_cons_of_pos found]
    · rw [List.length_append, List.length_cons]
      omega
    · rw [stopped, Option.map_some, place, hit]

/-- The count is the number of scalars that are left and one more, in 16 bits. -/
theorem Chain.count_eq (enough : visits.length + 1 < fuel) (ret : Nat) :
    countLoop table memory frameTypeFlags false fuel token ret =
      some ((ret + 1 + (visits.filter scalar).length) % 2 ^ 16) := by
  induction size : visits.length using Nat.strong_induction_on generalizing token visits fuel ret with
  | _ count inductionHypothesis =>
    obtain ⟨fuel, rfl⟩ := Nat.exists_eq_add_one.mpr (Nat.zero_lt_of_lt enough)
    rw [countLoop]
    rcases chain.scalar_cases (Nat.lt_of_succ_lt_succ enough) with
      ⟨nothing, token', result⟩ | ⟨visit, rest, split, shorter, later, result⟩
    · simp only [result, nothing, List.length_nil, Nat.add_zero]
    · simp only [result]
      rw [inductionHypothesis rest.length (size ▸ shorter) later (by omega) _ rfl, split,
        List.length_cons]
      congr 1
      omega

theorem Chain.index_found (enough : visits.length < fuel) (left : Nat) (hit : Hit) :
    ∃ result, indexLoop table memory frameTypeFlags false fuel left (token, some hit) = some result ∧
      (result.2.isSome ↔ left ≤ (visits.filter scalar).length) := by
  induction left generalizing token visits hit with
  | zero => exact ⟨_, rfl, iff_of_true rfl (Nat.zero_le _)⟩
  | succ left inductionHypothesis =>
    rw [indexLoop]
    rcases chain.scalar_cases enough with
      ⟨nothing, token', result⟩ | ⟨visit, rest, split, shorter, later, result⟩
    · rw [result, nothing]
      refine ⟨(token', none), by rw [Option.bind_some, indexLoop], ?_⟩
      simp
    · rw [result, split, Option.bind_some, List.length_cons]
      obtain ⟨found, same, some⟩ := inductionHypothesis later (lt_trans shorter enough) visit.2
      exact ⟨found, same, some.trans Nat.succ_le_succ_iff.symm⟩

end

/-- The scalars that the walk returns for a variable. -/
def Spot.scalars (spot : Spot) : Nat := if spot.type = .vector3f then 3 else 1

/-- The number of parameters of a table: its scalars, and one more for a vector in the first row,
which `first` returns as a whole. -/
def parameterNumber : List Spot → Nat
  | [] => 0
  | spot :: rest =>
    (if spot.type = .vector3f then 4 else 1) + (rest.map Spot.scalars).sum

theorem parts_scalars (spot : Spot) :
    (spot.parts.filter scalar).length = if spot.type = .vector3f then 3 else 0 := by
  unfold Spot.parts
  split <;> rfl

theorem visits_scalars (spot : Spot) : (spot.visits.filter scalar).length = spot.scalars := by
  have head : scalar (spot.token 0, spot.hit) = decide (¬ spot.type = .vector3f) := by
    unfold scalar Spot.hit
    cases spot.type <;> rfl
  rw [Spot.visits, Spot.scalars, List.filter_cons, head]
  by_cases vector : spot.type = .vector3f
  · rw [if_neg (by simp [vector]), parts_scalars, if_pos vector, if_pos vector]
  · rw [if_pos (by simp [vector]), List.length_cons, parts_scalars, if_neg vector, if_neg vector]

theorem flatMap_scalars (rest : List Spot) :
    ((rest.flatMap Spot.visits).filter scalar).length = (rest.map Spot.scalars).sum := by
  induction rest with
  | nil => rfl
  | cons spot rest inductionHypothesis =>
    rw [List.flatMap_cons, List.filter_append, List.length_append, visits_scalars,
      inductionHypothesis, List.map_cons, List.sum_cons]

end Chain

/-! ### The main result -/

section Enumerated

variable (table : List Info) (memory : Memory) (frameTypeFlags fuel : Nat)

/-- The search by index returns a variable. -/
def finds (idx : Nat) : Bool :=
  match findByIndex table memory frameTypeFlags false fuel idx with
  | some (_, some _) => true
  | _ => false

/-- The walk returns the variables of the table that are shown and allocated, each once, in the
order of the table and a vector together with its parts. Every search by index comes to an end, and
the count is the number of indices for which there is a variable. -/
structure EnumeratedWith : Prop where
  walk : walkAll table memory frameTypeFlags fuel =
    some ((spots frameTypeFlags (leaves table memory)).flatMap Spot.visits)
  ends : ∀ idx, findByIndex table memory frameTypeFlags false fuel idx ≠ none
  count : countParameters table memory frameTypeFlags false fuel 0 =
    some ((List.range (2 ^ 16)).countP (finds table memory frameTypeFlags fuel))

/-- The enumeration comes to its end, with the right result, as soon as there is enough fuel. -/
def Enumerated : Prop :=
  ∃ enough, ∀ fuel ≥ enough, EnumeratedWith table memory frameTypeFlags fuel

end Enumerated

/-- How many numbers of 16 bits are below a bound. -/
theorem countP_range_lt (bound size : Nat) (property : Nat → Bool)
    (below : ∀ idx, property idx = true ↔ idx < bound) :
    (List.range size).countP property = min bound size := by
  induction size with
  | zero => rw [List.range_zero, List.countP_nil, Nat.min_zero]
  | succ size inductionHypothesis =>
    rw [List.range_succ, List.countP_append, inductionHypothesis, List.countP_singleton]
    by_cases inside : size < bound
    · rw [if_pos ((below size).mpr inside)]
      omega
    · rw [if_neg fun hit => inside ((below size).mp hit)]
      omega

variable {rest : List Info}

theorem spots_first {info : Info} (memory : Memory) (frameTypeFlags : Nat)
    (accepted : checkVarInfo (info :: rest) = true) :
    ∃ spot, spots frameTypeFlags (leaves (info :: rest) memory) =
        spot :: spots frameTypeFlags (leavesFrom memory 1 rest) ∧
      first (info :: rest) memory = (spot.token 0, some spot.hit) := by
  obtain ⟨row, -⟩ := checkVarInfoFrom_cons accepted
  unfold Info.Accepted at row
  rw [checkVarInfo, checkVarInfoFrom] at accepted
  cases kind : info.kind with
  | element type =>
    simp only [kind] at row
    refine ⟨⟨0, 0, type, info.ptr⟩, ?_, ?_⟩
    · rw [leaves, leavesFrom, spots_append, rowSpots_element kind row.1, if_pos (Or.inl rfl)]
      rfl
    · simp only [first, getBase_element row.1, kind, Option.map_some]
      rfl
  | group groupInfo => simp [kind] at accepted
  | unset => simp [kind] at accepted

/-- What the loops of a table with rows return. -/
theorem enumeration_rows {info : Info} (memory : Memory) (frameTypeFlags : Nat)
    (accepted : checkVarInfo (info :: rest) = true) (rows : (info :: rest).length ≤ 511) :
    ∃ enough, ∀ fuel ≥ enough,
      walkAll (info :: rest) memory frameTypeFlags fuel =
          some ((spots frameTypeFlags (leaves (info :: rest) memory)).flatMap Spot.visits) ∧
        (∀ idx, ∃ result, findByIndex (info :: rest) memory frameTypeFlags false fuel idx =
            some result ∧ (result.2.isSome ↔
              idx < parameterNumber (spots frameTypeFlags (leaves (info :: rest) memory)))) ∧
        countParameters (info :: rest) memory frameTypeFlags false fuel 0 =
          some (parameterNumber (spots frameTypeFlags (leaves (info :: rest) memory)) % 2 ^ 16) := by
  obtain ⟨spot, split, start⟩ := spots_first memory frameTypeFlags accepted
  have linked : Linked (info :: rest) memory frameTypeFlags
      (spots frameTypeFlags (leaves (info :: rest) memory)) :=
    linked_rows rfl (by omega) accepted fun _ => rfl
  rw [split] at linked ⊢
  generalize spots frameTypeFlags (leavesFrom memory 1 rest) = others at linked ⊢
  have chain : Chain (info :: rest) memory frameTypeFlags (spot.token 0)
    (spot.parts ++ others.flatMap Spot.visits) := linked
  have number : parameterNumber (spot :: others) =
      1 + ((spot.parts ++ others.flatMap Spot.visits).filter scalar).length := by
    rw [List.filter_append, List.length_append, parts_scalars, flatMap_scalars, parameterNumber]
    split <;> omega
  refine ⟨(spot.parts ++ others.flatMap Spot.visits).length + 2, fun fuel enough => ⟨?_, ?_, ?_⟩⟩
  · rw [walkAll, start]
    dsimp only
    rw [chain.walk (by omega)]
    rfl
  · intro idx
    obtain ⟨result, same, found⟩ := chain.index_found (by omega : _ < fuel) idx spot.hit
    refine ⟨result, ?_, ?_⟩
    · rw [findByIndex, start]
      exact same
    · rw [found, number]
      omega
  · rw [countParameters, if_pos rfl, start, chain.count_eq (by omega), number, Nat.zero_add]

/-- What the loops of an empty table return. -/
theorem enumeration_empty (memory : Memory) (frameTypeFlags fuel : Nat) :
    walkAll [] memory frameTypeFlags fuel = some [] ∧
      (∀ idx, findByIndex [] memory frameTypeFlags false fuel idx = some (⟨0, 0, 0⟩, none)) ∧
      countParameters [] memory frameTypeFlags false (fuel + 2) 0 = some 1 := by
  refine ⟨rfl, fun idx => ?_, rfl⟩
  rw [findByIndex, first]
  unfold indexLoop
  rfl

/-- An empty table is counted as one parameter. -/
theorem enumerated_empty (memory : Memory) (frameTypeFlags : Nat) :
    ¬ Enumerated [] memory frameTypeFlags := by
  rintro ⟨enough, all⟩
  have counted := (all (enough + 2) (Nat.le_add_right _ _)).count
  have none : (List.range (2 ^ 16)).countP (finds [] memory frameTypeFlags (enough + 2)) = 0 := by
    refine List.countP_eq_zero.mpr fun idx _ => ?_
    rw [finds, (enumeration_empty memory frameTypeFlags (enough + 2)).2.1 idx]
    exact Bool.false_ne_true
  rw [(enumeration_empty memory frameTypeFlags enough).2.2, none] at counted
  cases counted

/-- The enumeration of an accepted table does what it is for exactly when the table has a row and
its parameters can be counted in 16 bits. -/
theorem enumerated_iff (table : List Info) (memory : Memory) (frameTypeFlags : Nat)
    (accepted : checkVarInfo table = true) (rows : table.length ≤ 511) :
    Enumerated table memory frameTypeFlags ↔
      table ≠ [] ∧ parameterNumber (spots frameTypeFlags (leaves table memory)) < 2 ^ 16 := by
  cases table with
  | nil =>
    exact ⟨fun enumerated => absurd enumerated (enumerated_empty memory frameTypeFlags),
      fun nonempty => absurd rfl nonempty.1⟩
  | cons info rest =>
    obtain ⟨needed, results⟩ := enumeration_rows memory frameTypeFlags accepted rows
    have indices : ∀ fuel ≥ needed, (List.range (2 ^ 16)).countP
        (finds (info :: rest) memory frameTypeFlags fuel) =
          min (parameterNumber (spots frameTypeFlags (leaves (info :: rest) memory))) (2 ^ 16) := by
      intro fuel enough
      refine countP_range_lt _ _ _ fun idx => ?_
      obtain ⟨result, same, found⟩ := (results fuel enough).2.1 idx
      rw [finds, same, ← found]
      obtain ⟨token, hit⟩ := result
      cases hit <;> simp
    constructor
    · rintro ⟨enough, all⟩
      refine ⟨List.cons_ne_nil _ _, ?_⟩
      have counted := (all (max enough needed) (le_max_left _ _)).count
      rw [(results _ (le_max_right _ _)).2.2, indices _ (le_max_right _ _)] at counted
      have same := Option.some.inj counted
      by_contra many
      omega
    · rintro ⟨-, few⟩
      refine ⟨needed, fun fuel enough => ⟨(results fuel enough).1, fun idx => ?_, ?_⟩⟩
      · obtain ⟨result, same, -⟩ := (results fuel enough).2.1 idx
        rw [same]
        exact Option.some_ne_none _
      · rw [(results fuel enough).2.2, indices fuel enough, Nat.mod_eq_of_lt few,
          Nat.min_eq_left (le_of_lt few)]

/-- The nested table, with its pointer group not allocated. -/
theorem enumerated_nested : Enumerated nestedTable blankMemory 0 :=
  (enumerated_iff nestedTable blankMemory 0 (by decide) (by decide)).mpr ⟨by decide, by decide⟩

/-- The empty table is accepted. It has no index with a variable, and its parameters are counted as
one. -/
theorem not_enumerated_empty :
    checkVarInfo [] = true ∧ ([] : List Info).length ≤ 511 ∧ ¬ Enumerated [] blankMemory 0 := by
  exact ⟨rfl, by decide, enumerated_empty blankMemory 0⟩

end Urus.Param
