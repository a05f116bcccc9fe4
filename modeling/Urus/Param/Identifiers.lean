/-
This file proves that the identifiers of a checked variable table are unique, and says
which of them are mistaken for the end of the stored list.

An identifier is written in base 64, one digit for every level of nesting. Two rows of
one table have different digits, although `group_id` and `check_group_info` do not move
index 0 in the same cases: the index under which a row is checked is a function of its
digit. So two variables differ at the level where their paths part.

The test for the end of the list compares the whole identifier with a constant of eight
bits. The constant is reached by an identifier whose first digits are 63 and 3.
-/

import Urus.Param.Model

namespace Urus.Param

/-! ### Digits -/

/-- The digit that a row adds to the identifiers of its variables. -/
def digit (entry : Entry) (shift : Nat) : Nat :=
  if entry.idx = 0 ∧ shift ≠ 0 ∧ entry.flags.testBit noShiftFlag = false then 63 else entry.idx

theorem groupId_eq (entry : Entry) (base shift : Nat) :
    groupId entry base shift = base + digit entry shift * 2 ^ shift := by
  unfold groupId digit
  split <;> rw [Nat.shiftLeft_eq]

/-- The index under which a row is checked is known from its digit. -/
theorem checkedIdx_digit (entry : Entry) (shift : Nat) :
    checkedIdx shift (digit entry shift) = checkedIdx shift entry.idx := by
  unfold checkedIdx digit
  by_cases zero : entry.idx = 0
  · by_cases top : shift = 0
    · simp [zero, top]
    · by_cases fixed : entry.flags.testBit noShiftFlag = false <;> simp [zero, top, fixed]
  · simp [zero]

variable {entry : Entry} {first : Bool}

theorem digit_lt (shift : Nat) (small : entry.idx < 64) : digit entry shift < 64 := by
  unfold digit
  split
  · decide
  · exact small

/-- The shifts of the three levels. -/
def Level (shift : Nat) : Prop := shift % 6 = 0 ∧ shift ≤ 12

theorem Level.next {shift : Nat} (level : Level shift) (depth : shift + 6 < 18) :
    Level (shift + 6) := by
  unfold Level at *
  omega

theorem Level.bits {shift : Nat} (level : Level shift) : 2 ^ (shift + 6) ≤ 2 ^ 18 :=
  Nat.pow_le_pow_right (by decide) (Nat.add_le_add_right level.2 6)

/-- The digit of an identifier at a level. -/
def levelDigit (id shift : Nat) : Nat := id / 2 ^ shift % 64

theorem levelDigit_of_mod {id base shift : Nat} (row : Nat) (below : base < 2 ^ shift)
    (same : id % 2 ^ (shift + 6) = base + row * 2 ^ shift) :
    levelDigit id shift = row ∧ id % 2 ^ shift = base := by
  have split : 2 ^ (shift + 6) = 2 ^ shift * 64 := pow_add 2 shift 6
  have positive : 0 < 2 ^ shift := Nat.two_pow_pos shift
  rw [split] at same
  constructor
  · calc levelDigit id shift = id % (2 ^ shift * 64) / 2 ^ shift := by
          rw [levelDigit, Nat.mod_mul_right_div_self]
      _ = (base + row * 2 ^ shift) / 2 ^ shift := by rw [same]
      _ = row := by
          rw [Nat.add_mul_div_right _ _ positive, Nat.div_eq_of_lt below, Nat.zero_add]
  · calc id % 2 ^ shift = id % (2 ^ shift * 64) % 2 ^ shift := by
          rw [Nat.mod_mul_right_mod]
      _ = (base + row * 2 ^ shift) % 2 ^ shift := by rw [same]
      _ = base := by rw [Nat.add_mul_mod_self_right, Nat.mod_eq_of_lt below]

theorem nestedBase_lt {base shift : Nat} (small : entry.idx < 64) (below : base < 2 ^ shift) :
    groupId entry base shift < 2 ^ (shift + 6) := by
  have row := digit_lt shift small
  rw [groupId_eq, pow_add]
  calc base + digit entry shift * 2 ^ shift < 2 ^ shift + digit entry shift * 2 ^ shift :=
        Nat.add_lt_add_right below _
    _ = (digit entry shift + 1) * 2 ^ shift := by ring
    _ ≤ 64 * 2 ^ shift := Nat.mul_le_mul_right _ row
    _ = 2 ^ shift * 2 ^ 6 := by ring

/-! ### What a check says -/

theorem checkIdx_iff (shift usedMask idx : Nat) :
    checkIdx shift usedMask idx = true ↔
      idx < 64 ∧ usedMask.testBit (checkedIdx shift idx) = false := by
  rw [checkIdx, Bool.and_eq_true, decide_eq_true_iff, Bool.not_eq_true']
  rfl

theorem testBit_use (usedMask idx other : Nat) :
    (usedMask ||| 2 ^ idx).testBit other = false ↔ usedMask.testBit other = false ∧ idx ≠ other := by
  rw [Nat.testBit_or, Bool.or_eq_false_iff, Nat.testBit_two_pow, decide_eq_false_iff_not]

section Check

variable {entry : Entry} {rest nested : GroupInfo} {type : VarType}
  {groupShift prefixLength usedMask : Nat}

/-- What an accepted table with a variable in its first row is. -/
theorem checkGroupInfo_element
    (accepted : checkGroupInfo (.element entry type rest) groupShift prefixLength usedMask = true) :
    (entry.idx < 64 ∧ usedMask.testBit (checkedIdx groupShift entry.idx) = false) ∧
      prefixLength + entry.name.length ≤ 16 ∧
      checkGroupInfo rest groupShift prefixLength
        (usedMask ||| 2 ^ checkedIdx groupShift entry.idx) = true := by
  simp only [checkGroupInfo, Bool.and_eq_true, decide_eq_true_iff, checkIdx_iff] at accepted
  obtain ⟨⟨⟨index, -⟩, short⟩, tail⟩ := accepted
  exact ⟨index, Nat.not_lt.mp short, tail⟩

/-- What an accepted table with a group in its first row is. -/
theorem checkGroupInfo_group
    (accepted : checkGroupInfo (.group entry nested rest) groupShift prefixLength usedMask = true) :
    (entry.idx < 64 ∧ usedMask.testBit (checkedIdx groupShift entry.idx) = false) ∧
      groupShift + 6 < 18 ∧
      checkGroupInfo nested (groupShift + groupLevelShift) ((prefixLength + entry.name.length) % 2 ^ 8) 0 = true ∧
      checkGroupInfo rest groupShift prefixLength
        (usedMask ||| 2 ^ checkedIdx groupShift entry.idx) = true := by
  simp only [checkGroupInfo, Bool.and_eq_true, decide_eq_true_iff, checkIdx_iff] at accepted
  obtain ⟨⟨⟨index, depth⟩, inner⟩, tail⟩ := accepted
  exact ⟨index, Nat.not_le.mp depth, inner, tail⟩

theorem checkGroupInfo_unset
    (accepted : checkGroupInfo (.unset entry rest) groupShift prefixLength usedMask = true) :
    (entry.idx < 64 ∧ usedMask.testBit (checkedIdx groupShift entry.idx) = false) ∧
      groupShift + 6 < 18 ∧
      checkGroupInfo rest groupShift prefixLength
        (usedMask ||| 2 ^ checkedIdx groupShift entry.idx) = true := by
  simp only [checkGroupInfo, Bool.and_eq_true, decide_eq_true_iff, checkIdx_iff] at accepted
  obtain ⟨⟨index, depth⟩, tail⟩ := accepted
  exact ⟨index, Nat.not_le.mp depth, tail⟩

end Check

theorem duplicateKey_iff (rest : List Info) (key : Nat) :
    duplicateKey rest key = false ↔ ∀ info ∈ rest, info.key ≠ key := by
  simp [duplicateKey]

/-- What a row of an accepted table is. -/
def Info.Accepted (info : Info) (rest : List Info) : Prop :=
  match info.kind with
  | .element _ => info.flags.testBit pointerFlag = false ∧ ∀ other ∈ rest, other.key ≠ info.key
  | .group groupInfo =>
    checkGroupInfo groupInfo 0 (info.name.length % 2 ^ 8) 0 = true ∧
      ∀ other ∈ rest, other.key ≠ info.key
  | .unset => True

theorem checkVarInfoFrom_cons {info : Info} {rest : List Info}
    (accepted : checkVarInfoFrom first (info :: rest) = true) :
    info.Accepted rest ∧ checkVarInfoFrom false rest = true := by
  unfold checkVarInfoFrom at accepted
  unfold Info.Accepted
  cases kind : info.kind with
  | element type =>
    simp only [kind, Bool.and_eq_true, Bool.not_eq_true', duplicateKey_iff] at accepted
    exact ⟨⟨accepted.1.2, accepted.1.1.2⟩, accepted.2⟩
  | group groupInfo =>
    simp only [kind, Bool.and_eq_true, Bool.not_eq_true', duplicateKey_iff] at accepted
    exact ⟨⟨accepted.1.1.2, accepted.1.2⟩, accepted.2⟩
  | unset =>
    simp only [kind, Bool.and_eq_true] at accepted
    exact ⟨trivial, accepted.2⟩

/-! ### The identifiers of a group -/

section Group

variable (memory : Memory) (vindex : Nat) (info : Info)

/-- The variables of a group table belong to its row, their identifiers go on from the identifier
of the table with a digit that no earlier row has, and fit their field. -/
theorem groupLeaves_spec (group : GroupInfo) (groupBase groupShift prefixLength usedMask : Nat)
    (nesting : List Entry) (object : Option Int)
    (accepted : checkGroupInfo group groupShift prefixLength usedMask = true)
    (below : groupBase < 2 ^ groupShift) (level : Level groupShift) :
    ∀ leaf ∈ groupLeaves memory vindex info group groupBase groupShift nesting object,
      (leaf.vindex = vindex ∧ leaf.info = info ∧ leaf.ginfo ≠ none) ∧
        leaf.groupElement % 2 ^ groupShift = groupBase ∧ leaf.groupElement < 2 ^ 18 ∧
        usedMask.testBit (checkedIdx groupShift (levelDigit leaf.groupElement groupShift)) =
          false := by
  induction group generalizing groupBase groupShift prefixLength usedMask nesting object with
  | groupEnd => exact fun leaf member => absurd member List.not_mem_nil
  | element entry type rest restHypothesis =>
    obtain ⟨⟨small, unused⟩, -, tail⟩ := checkGroupInfo_element accepted
    intro leaf member
    rcases List.mem_cons.mp member with rfl | later
    · have bound := nestedBase_lt small below
      obtain ⟨row, low⟩ := levelDigit_of_mod (digit entry groupShift) below
        (by rw [Nat.mod_eq_of_lt bound, groupId_eq])
      refine ⟨⟨rfl, rfl, Option.some_ne_none _⟩, low, ?_, ?_⟩
      · exact lt_of_lt_of_le bound level.bits
      · rw [row, checkedIdx_digit]
        exact unused
    · obtain ⟨own, low, bound, free⟩ := restHypothesis _ _ _ _ _ _ tail below level leaf later
      exact ⟨own, low, bound, ((testBit_use _ _ _).mp free).1⟩
  | group entry nested rest nestedHypothesis restHypothesis =>
    obtain ⟨⟨small, unused⟩, depth, inner, tail⟩ := checkGroupInfo_group accepted
    intro leaf member
    rcases List.mem_append.mp member with inside | later
    · obtain ⟨own, low, bound, -⟩ := nestedHypothesis _ _ _ _ _ _ inner (nestedBase_lt small below)
        (level.next depth) leaf inside
      rw [groupId_eq] at low
      obtain ⟨row, base⟩ := levelDigit_of_mod (digit entry groupShift) below low
      refine ⟨own, base, bound, ?_⟩
      rw [row, checkedIdx_digit]
      exact unused
    · obtain ⟨own, low, bound, free⟩ := restHypothesis _ _ _ _ _ _ tail below level leaf later
      exact ⟨own, low, bound, ((testBit_use _ _ _).mp free).1⟩
  | unset entry rest restHypothesis =>
    obtain ⟨-, -, tail⟩ := checkGroupInfo_unset accepted
    intro leaf member
    obtain ⟨own, low, bound, free⟩ := restHypothesis _ _ _ _ _ _ tail below level leaf member
    exact ⟨own, low, bound, ((testBit_use _ _ _).mp free).1⟩

/-- The variables of the rows behind a row have another digit than the row. -/
theorem groupLeaves_rest_digit {entry : Entry} {rest : GroupInfo}
    {groupBase groupShift prefixLength usedMask : Nat} {nesting : List Entry} {object : Option Int}
    (tail : checkGroupInfo rest groupShift prefixLength
      (usedMask ||| 2 ^ checkedIdx groupShift entry.idx) = true)
    (below : groupBase < 2 ^ groupShift) (level : Level groupShift) :
    ∀ leaf ∈ groupLeaves memory vindex info rest groupBase groupShift nesting object,
      levelDigit leaf.groupElement groupShift ≠ digit entry groupShift := by
  intro leaf later same
  obtain ⟨-, -, -, free⟩ := groupLeaves_spec memory vindex info rest groupBase groupShift
    prefixLength _ nesting object tail below level leaf later
  rw [same, checkedIdx_digit] at free
  exact ((testBit_use _ _ _).mp free).2 rfl

/-- The identifiers of the variables of a group are distinct. -/
theorem groupLeaves_pairwise (group : GroupInfo) (groupBase groupShift prefixLength usedMask : Nat)
    (nesting : List Entry) (object : Option Int)
    (accepted : checkGroupInfo group groupShift prefixLength usedMask = true)
    (below : groupBase < 2 ^ groupShift) (level : Level groupShift) :
    (groupLeaves memory vindex info group groupBase groupShift nesting object).Pairwise
      fun first second => first.groupElement ≠ second.groupElement := by
  induction group generalizing groupBase groupShift prefixLength usedMask nesting object with
  | groupEnd => exact List.Pairwise.nil
  | element entry type rest restHypothesis =>
    obtain ⟨⟨small, -⟩, -, tail⟩ := checkGroupInfo_element accepted
    refine List.Pairwise.cons (fun leaf later same => ?_)
      (restHypothesis _ _ _ _ _ _ tail below level)
    obtain ⟨row, -⟩ := levelDigit_of_mod (digit entry groupShift) below
      (by rw [Nat.mod_eq_of_lt (nestedBase_lt small below), groupId_eq])
    exact groupLeaves_rest_digit memory vindex info tail below level leaf later (by
      rw [← same]
      exact row)
  | group entry nested rest nestedHypothesis restHypothesis =>
    obtain ⟨⟨small, -⟩, depth, inner, tail⟩ := checkGroupInfo_group accepted
    have deeper := nestedBase_lt small below
    refine List.pairwise_append.mpr ⟨nestedHypothesis _ _ _ _ _ _ inner deeper (level.next depth),
      restHypothesis _ _ _ _ _ _ tail below level, fun first inside second later same => ?_⟩
    obtain ⟨-, low, -, -⟩ := groupLeaves_spec memory vindex info nested _ _ _ _ _ _ inner deeper
      (level.next depth) first inside
    rw [groupId_eq] at low
    obtain ⟨row, -⟩ := levelDigit_of_mod (digit entry groupShift) below low
    exact groupLeaves_rest_digit memory vindex info tail below level second later (same ▸ row)
  | unset entry rest restHypothesis =>
    obtain ⟨-, -, tail⟩ := checkGroupInfo_unset accepted
    exact restHypothesis _ _ _ _ _ _ tail below level

end Group

/-! ### The identifiers of a table -/

section Rows

variable (memory : Memory)

variable {info : Info} {rest : List Info} {vindex : Nat}

theorem rowLeaves_info (accepted : info.Accepted rest) :
    ∀ leaf ∈ rowLeaves memory vindex info,
      leaf.vindex = vindex ∧ leaf.info = info ∧ leaf.groupElement < 2 ^ 18 := by
  intro leaf member
  unfold rowLeaves at member
  unfold Info.Accepted at accepted
  cases kind : info.kind with
  | element type =>
    simp only [kind, List.mem_singleton] at member
    subst member
    exact ⟨rfl, rfl, Nat.two_pow_pos 18⟩
  | group groupInfo =>
    simp only [kind] at member accepted
    obtain ⟨⟨vindexSame, infoSame, -⟩, -, bound, -⟩ := groupLeaves_spec memory vindex info groupInfo
      0 0 _ 0 [] _ accepted.1 (by decide) ⟨rfl, by decide⟩ leaf member
    exact ⟨vindexSame, infoSame, bound⟩
  | unset =>
    simp only [kind] at member
    exact absurd member List.not_mem_nil

/-- A variable belongs to one of the rows. -/
theorem leavesFrom_info {first : Bool} {table : List Info}
    (accepted : checkVarInfoFrom first table = true) :
    ∀ leaf ∈ leavesFrom memory vindex table,
      vindex ≤ leaf.vindex ∧ leaf.info ∈ table ∧ leaf.groupElement < 2 ^ 18 := by
  induction table generalizing vindex first with
  | nil => exact fun leaf member => absurd member List.not_mem_nil
  | cons info rest inductionHypothesis =>
    obtain ⟨row, tail⟩ := checkVarInfoFrom_cons accepted
    intro leaf member
    rcases List.mem_append.mp member with here | later
    · obtain ⟨vindexSame, infoSame, bound⟩ := rowLeaves_info memory row leaf here
      exact ⟨le_of_eq vindexSame.symm, infoSame ▸ List.mem_cons_self, bound⟩
    · obtain ⟨high, inside, bound⟩ := inductionHypothesis tail leaf later
      exact ⟨Nat.le_of_succ_le high, List.mem_cons_of_mem _ inside, bound⟩

/-- Two variables have different identifiers. -/
def Leaf.Differ (first second : Leaf) : Prop :=
  (first.info.key, first.groupElement) ≠ (second.info.key, second.groupElement)

theorem rowLeaves_pairwise (accepted : info.Accepted rest) :
    (rowLeaves memory vindex info).Pairwise Leaf.Differ := by
  unfold rowLeaves
  unfold Info.Accepted at accepted
  cases kind : info.kind with
  | element type => exact List.pairwise_singleton _ _
  | group groupInfo =>
    simp only [kind] at accepted
    refine (groupLeaves_pairwise memory vindex info groupInfo 0 0 _ 0 [] _ accepted.1 (by decide)
      ⟨rfl, by decide⟩).imp fun different same => ?_
    exact different (Prod.mk.inj same).2
  | unset => exact List.Pairwise.nil

theorem rowLeaves_key (accepted : info.Accepted rest) {leaf : Leaf}
    (member : leaf ∈ rowLeaves memory vindex info) :
    ∀ other ∈ rest, other.key ≠ info.key := by
  unfold Info.Accepted at accepted
  unfold rowLeaves at member
  cases kind : info.kind with
  | element type => simp only [kind] at accepted; exact accepted.2
  | group groupInfo => simp only [kind] at accepted; exact accepted.2
  | unset =>
    simp only [kind] at member
    exact absurd member List.not_mem_nil

theorem leavesFrom_pairwise {first : Bool} {vindex : Nat} {table : List Info}
    (accepted : checkVarInfoFrom first table = true) :
    (leavesFrom memory vindex table).Pairwise Leaf.Differ := by
  induction table generalizing vindex first with
  | nil => exact List.Pairwise.nil
  | cons info rest inductionHypothesis =>
    obtain ⟨row, tail⟩ := checkVarInfoFrom_cons accepted
    refine List.pairwise_append.mpr ⟨rowLeaves_pairwise memory row, inductionHypothesis tail,
      fun first here second later same => ?_⟩
    obtain ⟨-, infoSame, -⟩ := rowLeaves_info memory row first here
    obtain ⟨-, inside, -⟩ := leavesFrom_info memory tail second later
    refine rowLeaves_key memory row here second.info inside ?_
    rw [← infoSame]
    exact (Prod.mk.inj same).1.symm

end Rows

/-! ### Searching by header -/

/-- The address of a variable of a group, if it is the one that a header names. -/
def pickInGroup (header : Header) (leaf : Leaf) : Option Int :=
  if leaf.groupElement = header.groupElement.val ∧ leaf.type.code = header.type.val then
    leaf.address
  else none

/-- Where a search can succeed at one item only. -/
theorem findSome_only {Item Result : Type} (pick : Item → Option Result) {items : List Item}
    {item : Item} (member : item ∈ items)
    (only : ∀ other ∈ items, pick other ≠ none → other = item) :
    items.findSome? pick = pick item := by
  cases search : items.findSome? pick with
  | none => exact (List.findSome?_eq_none_iff.mp search item member).symm
  | some found =>
    obtain ⟨other, inside, here⟩ := List.exists_of_findSome?_eq_some search
    rw [← only other inside (by rw [here]; exact Option.some_ne_none _), here]

/-- A variable is known from its identifier. -/
theorem eq_of_not_differ {items : List Leaf} (distinct : items.Pairwise Leaf.Differ)
    {first second : Leaf} (firstMember : first ∈ items) (secondMember : second ∈ items)
    (key : first.info.key = second.info.key) (element : first.groupElement = second.groupElement) :
    first = second := by
  have nodup : (items.map fun leaf => (leaf.info.key, leaf.groupElement)).Nodup :=
    List.pairwise_map.mpr distinct
  exact List.inj_on_of_nodup_map nodup firstMember secondMember (Prod.ext key element)

section Search

variable (memory : Memory) (header : Header) (vindex : Nat) (info : Info)

/-- Without an object the variables have no address. -/
theorem groupLeaves_unallocated (group : GroupInfo) (groupBase groupShift : Nat)
    (nesting : List Entry) :
    ∀ leaf ∈ groupLeaves memory vindex info group groupBase groupShift nesting none,
      leaf.address = none := by
  induction group generalizing groupBase groupShift nesting with
  | groupEnd => exact fun leaf member => absurd member List.not_mem_nil
  | element entry type rest restHypothesis =>
    intro leaf member
    rcases List.mem_cons.mp member with rfl | later
    · rfl
    · exact restHypothesis _ _ _ leaf later
  | group entry nested rest nestedHypothesis restHypothesis =>
    intro leaf member
    rcases List.mem_append.mp member with inside | later
    · exact nestedHypothesis _ _ _ leaf inside
    · exact restHypothesis _ _ _ leaf later
  | unset entry rest restHypothesis => exact restHypothesis _ _ _

/-- A search that passes over variables without an address finds nothing where there is no object. -/
theorem findSome_unallocated {Result : Type} {pick : Leaf → Option Result}
    (passes : ∀ leaf, leaf.address = none → pick leaf = none) (group : GroupInfo)
    (groupBase groupShift : Nat) (nesting : List Entry) :
    (groupLeaves memory vindex info group groupBase groupShift nesting none).findSome? pick = none :=
  List.findSome?_eq_none_iff.mpr fun leaf member =>
    passes leaf (groupLeaves_unallocated memory vindex info group _ _ _ leaf member)

theorem pickInGroup_unallocated (header : Header) (leaf : Leaf) (missing : leaf.address = none) :
    pickInGroup header leaf = none := by
  rw [pickInGroup, missing, ite_self]

theorem adjustGroupOffset_object (base : Int) (entry : Entry) (offset : Int) :
    (adjustGroupOffset memory (some base) entry offset).map (base + ·) =
      nestedObject memory entry (base + offset) := by
  unfold adjustGroupOffset nestedObject
  by_cases nested : entry.flags.testBit nestedOffsetFlag = true
  · simp only [if_pos nested, Option.map_some, Int.add_assoc]
  · by_cases pointer : entry.flags.testBit pointerFlag = true
    · simp only [if_neg nested, if_pos pointer]
      by_cases null : memory.pointers (base + offset + entry.offset) = 0
      · simp only [if_pos null, Option.map_none]
      · simp only [if_neg null, Option.map_some]
        congr 1
        omega
    · simp only [if_neg nested, if_neg pointer, Option.map_some]

/-- A search in a group whose top level object is not allocated finds nothing. -/
theorem findByHeaderGroup_unallocated (group : GroupInfo) (groupBase groupShift : Nat)
    (offset : Int) :
    findByHeaderGroup memory header none group groupBase groupShift offset = none := by
  induction group generalizing groupBase groupShift offset with
  | groupEnd => rfl
  | element entry type rest restHypothesis =>
    unfold findByHeaderGroup
    split <;> exact restHypothesis _ _ _
  | group entry nested rest nestedHypothesis restHypothesis =>
    unfold findByHeaderGroup
    split
    · rfl
    · cases adjustGroupOffset memory none entry offset with
      | none => exact restHypothesis _ _ _
      | some newOffset =>
        simp only [nestedHypothesis]
        exact restHypothesis _ _ _
  | unset entry rest restHypothesis =>
    unfold findByHeaderGroup
    split
    · rfl
    · exact restHypothesis _ _ _

/-- The search in an accepted group table is the search in its list of variables. -/
theorem findByHeaderGroup_eq (base : Int) (group : GroupInfo)
    (groupBase groupShift prefixLength usedMask : Nat) (nesting : List Entry) (offset : Int)
    (accepted : checkGroupInfo group groupShift prefixLength usedMask = true) :
    findByHeaderGroup memory header (some base) group groupBase groupShift offset =
      (groupLeaves memory vindex info group groupBase groupShift nesting
        (some (base + offset))).findSome? (pickInGroup header) := by
  induction group generalizing groupBase groupShift prefixLength usedMask nesting offset with
  | groupEnd => rfl
  | element entry type rest restHypothesis =>
    obtain ⟨-, -, tail⟩ := checkGroupInfo_element accepted
    rw [groupLeaves, List.findSome?_cons, findByHeaderGroup, pickInGroup]
    by_cases match_ : groupId entry groupBase groupShift = header.groupElement.val ∧
        type.code = header.type.val
    · rw [if_pos match_, if_pos match_]
      show some (base + entry.offset + offset) = some (base + offset + entry.offset)
      congr 1
      omega
    · rw [if_neg match_, if_neg match_]
      exact restHypothesis _ _ _ _ _ _ tail
  | group entry nested rest nestedHypothesis restHypothesis =>
    obtain ⟨-, depth, inner, tail⟩ := checkGroupInfo_group accepted
    have shallow : ¬ groupShift + groupLevelShift ≥ groupBits := Nat.not_le.mpr depth
    rw [groupLeaves, List.findSome?_append, findByHeaderGroup, if_neg shallow,
      ← restHypothesis _ _ _ _ nesting _ tail, Option.bind_some, ← adjustGroupOffset_object]
    cases adjustGroupOffset memory (some base) entry offset with
    | none =>
      rw [Option.map_none,
        findSome_unallocated memory vindex info (pickInGroup_unallocated header) nested]
      rfl
    | some newOffset =>
      rw [Option.map_some, ← nestedHypothesis _ _ _ _ (nesting ++ [entry]) newOffset inner]
      dsimp only
      cases findByHeaderGroup memory header (some base) nested (groupId entry groupBase groupShift)
        (groupShift + groupLevelShift) newOffset <;> rfl
  | unset entry rest restHypothesis =>
    obtain ⟨-, depth, tail⟩ := checkGroupInfo_unset accepted
    have shallow : ¬ groupShift + groupLevelShift ≥ groupBits := Nat.not_le.mpr depth
    rw [groupLeaves, findByHeaderGroup, if_neg shallow]
    exact restHypothesis _ _ _ _ _ _ tail

/-- The search in the top level row that holds a variable. -/
theorem findByHeaderFrom_row {rest : List Info} (same : info.key = getKey header)
    (accepted : info.Accepted rest) {leaf : Leaf} (member : leaf ∈ rowLeaves memory vindex info)
    (element : leaf.groupElement = header.groupElement.val)
    (type : leaf.type.code = header.type.val) :
    findByHeaderFrom memory header vindex (info :: rest) = leaf.address.map (vindex, ·) := by
  rw [findByHeaderFrom, if_neg (not_not.mpr same)]
  have own : ∀ leaf ∈ rowLeaves memory vindex info, leaf.vindex = vindex ∧ leaf.info = info ∧ _ :=
    rowLeaves_info memory accepted
  have distinct : (rowLeaves memory vindex info).Pairwise Leaf.Differ :=
    rowLeaves_pairwise memory accepted
  unfold rowLeaves at member distinct own
  unfold Info.Accepted at accepted
  cases kind : info.kind with
  | element variableType =>
    simp only [kind, List.mem_singleton] at member
    subst member
    simp only [if_pos type]
  | group groupInfo =>
    simp only [kind] at member accepted distinct own
    cases base : getBase memory info with
    | none =>
      rw [base] at member
      simp only [findByHeaderGroup_unallocated,
        groupLeaves_unallocated memory vindex info groupInfo 0 0 [] leaf member, Option.map_none]
    | some object =>
      rw [base] at member distinct own
      have whole : object + 0 = object := Int.add_zero object
      have search := findByHeaderGroup_eq memory header vindex info object groupInfo 0 0 _ 0 [] 0
        accepted.1
      rw [whole] at search
      have here : pickInGroup header leaf = leaf.address := by
        rw [pickInGroup, if_pos ⟨element, type⟩]
      have found := findSome_only (pickInGroup header) member (fun other inside hit => by
        by_cases named : other.groupElement = header.groupElement.val ∧
            other.type.code = header.type.val
        · exact eq_of_not_differ distinct inside member
            (by rw [(own leaf member).2.1, (own other inside).2.1])
            (named.1.trans element.symm)
        · rw [pickInGroup, if_neg named] at hit
          exact absurd rfl hit)
      simp only [search, found, here]
  | unset =>
    simp only [kind] at member
    exact absurd member List.not_mem_nil

/-- The search by header finds a variable as soon as it has an address, and nothing else. -/
theorem findByHeaderFrom_leaf {first : Bool} {table : List Info} {leaf : Leaf}
    (accepted : checkVarInfoFrom first table = true)
    (member : leaf ∈ leavesFrom memory vindex table) (key : leaf.info.key = getKey header)
    (element : leaf.groupElement = header.groupElement.val)
    (type : leaf.type.code = header.type.val) :
    findByHeaderFrom memory header vindex table = leaf.address.map (leaf.vindex, ·) := by
  induction table generalizing vindex first with
  | nil => exact absurd member List.not_mem_nil
  | cons row rest inductionHypothesis =>
    obtain ⟨rowAccepted, tail⟩ := checkVarInfoFrom_cons accepted
    rcases List.mem_append.mp member with here | later
    · obtain ⟨vindexSame, infoSame, -⟩ := rowLeaves_info memory rowAccepted leaf here
      rw [vindexSame]
      exact findByHeaderFrom_row memory header vindex row (infoSame ▸ key) rowAccepted here
        element type
    · have found := inductionHypothesis (vindex + 1) tail later
      obtain ⟨-, inside, -⟩ := leavesFrom_info memory tail leaf later
      rw [findByHeaderFrom]
      by_cases other : row.key ≠ getKey header
      · rw [if_pos other]
        exact found
      · have same : leaf.info.key = row.key := key.trans (not_not.mp other).symm
        unfold Info.Accepted at rowAccepted
        rw [if_neg other]
        cases kind : row.kind with
        | element variableType =>
          simp only [kind] at rowAccepted
          exact absurd same (rowAccepted.2 leaf.info inside)
        | group groupInfo =>
          simp only [kind] at rowAccepted
          exact absurd same (rowAccepted.2 leaf.info inside)
        | unset => exact found

end Search

/-! ### Headers and the end of the list -/

theorem getKey_makeHeader {key : Nat} (fits : key < 2 ^ 9) (type groupElement : Nat) :
    getKey (makeHeader key type groupElement) = key := by
  show 2 ^ 8 * (key / 2 ^ 8 % 2 ^ 1) + key % 2 ^ 8 = key
  omega

theorem makeHeader_groupElement (key type : Nat) {groupElement : Nat} (fits : groupElement < 2 ^ 18) :
    (makeHeader key type groupElement).groupElement.val = groupElement :=
  Nat.mod_eq_of_lt fits

theorem VarType.code_lt (type : VarType) : type.code < 2 ^ 5 := by
  cases type <;> decide

theorem makeHeader_type (key : Nat) (type : VarType) (groupElement : Nat) :
    (makeHeader key type.code groupElement).type.val = type.code :=
  Nat.mod_eq_of_lt type.code_lt

theorem VarType.code_range (type : VarType) : 1 ≤ type.code ∧ type.code ≤ 5 := by
  cases type <;> decide

/-- The search with a variable's own header. -/
theorem findByHeader_leaf (table : List Info) (memory : Memory) {leaf : Leaf}
    (accepted : checkVarInfo table = true) (key : leaf.info.key < 2 ^ 9)
    (member : leaf ∈ leaves table memory) :
    findByHeader table memory leaf.header = leaf.address.map (leaf.vindex, ·) := by
  obtain ⟨-, -, fits⟩ := leavesFrom_info memory accepted leaf member
  exact findByHeaderFrom_leaf memory leaf.header 0 accepted member
    (getKey_makeHeader key _ _).symm (makeHeader_groupElement _ _ fits).symm
    (makeHeader_type _ _ _).symm

/-- The header of a variable is taken for the end of the list exactly when its identifier is the
eight bit constant. -/
theorem isSentinal_header (leaf : Leaf) (key : leaf.info.key < sentinalKey)
    (fits : leaf.groupElement < 2 ^ 18) :
    isSentinal leaf.header = true ↔ leaf.groupElement = sentinalGroup := by
  have code := leaf.type.code_range
  have typeField : leaf.header.type.val = leaf.type.code := makeHeader_type _ _ _
  have keyField : getKey leaf.header = leaf.info.key :=
    getKey_makeHeader (lt_trans key (by decide)) _ _
  have element : leaf.header.groupElement.val = leaf.groupElement := makeHeader_groupElement _ _ fits
  have notType : leaf.header.type.val ≠ sentinalType := by
    rw [typeField, sentinalType]
    omega
  have notKey : getKey leaf.header ≠ sentinalKey := by
    rw [keyField]
    exact Nat.ne_of_lt key
  have notZero : leaf.header.word ≠ 0 := by
    rw [Header.word, typeField]
    omega
  have notOnes : leaf.header.word ≠ 0xFFFFFFFF := by
    rw [Header.word, typeField]
    omega
  simp only [isSentinal, notType, notKey, notZero, notOnes, element, false_or, or_self, if_false]
  by_cases sentinal : leaf.groupElement = sentinalGroup <;> simp [sentinal]

/-- The rows of a group table that are variables. -/
def GroupInfo.elements : GroupInfo → List Entry
  | .groupEnd => []
  | .element entry _ rest => entry :: rest.elements
  | .group _ _ rest => rest.elements
  | .unset _ rest => rest.elements

/-- The rows of a group table that lead to another table. -/
def GroupInfo.subgroups : GroupInfo → List (Entry × GroupInfo)
  | .groupEnd => []
  | .element _ _ rest => rest.subgroups
  | .group entry nested rest => (entry, nested) :: rest.subgroups
  | .unset _ rest => rest.subgroups

/-- The group table of a top level row. -/
def InfoKind.rows : InfoKind → GroupInfo
  | .group groupInfo => groupInfo
  | .element _ | .unset => .groupEnd

/-- In no group with index 63 of a top level group is there a variable with index 3, and in no group
with index 3 of such a group is there a variable with index 0 that keeps its index. -/
def SentinalFree (table : List Info) : Prop :=
  ∀ info ∈ table, ∀ outer ∈ info.kind.rows.subgroups, outer.1.idx = 63 →
    (∀ entry ∈ outer.2.elements, entry.idx ≠ 3) ∧
      ∀ inner ∈ outer.2.subgroups, inner.1.idx = 3 →
        ∀ entry ∈ inner.2.elements, ¬ (entry.idx = 0 ∧ entry.flags.testBit noShiftFlag = true)

theorem checkGroupInfo_rows (group : GroupInfo) (groupShift prefixLength usedMask : Nat)
    (accepted : checkGroupInfo group groupShift prefixLength usedMask = true) :
    (∀ entry ∈ group.elements, entry.idx < 64) ∧
      ∀ sub ∈ group.subgroups, sub.1.idx < 64 ∧ groupShift + 6 < 18 ∧
        ∃ nestedLength, checkGroupInfo sub.2 (groupShift + 6) nestedLength 0 = true := by
  induction group generalizing usedMask with
  | groupEnd =>
    exact ⟨fun _ member => absurd member List.not_mem_nil,
      fun _ member => absurd member List.not_mem_nil⟩
  | element entry type rest restHypothesis =>
    obtain ⟨⟨small, -⟩, -, tail⟩ := checkGroupInfo_element accepted
    obtain ⟨elements, subgroups⟩ := restHypothesis _ tail
    refine ⟨fun other member => ?_, subgroups⟩
    rcases List.mem_cons.mp member with rfl | later
    · exact small
    · exact elements other later
  | group entry nested rest nestedHypothesis restHypothesis =>
    obtain ⟨⟨small, -⟩, depth, inner, tail⟩ := checkGroupInfo_group accepted
    obtain ⟨elements, subgroups⟩ := restHypothesis _ tail
    refine ⟨elements, fun sub member => ?_⟩
    rcases List.mem_cons.mp member with rfl | later
    · exact ⟨small, depth, _, inner⟩
    · exact subgroups sub later
  | unset entry rest restHypothesis =>
    obtain ⟨-, -, tail⟩ := checkGroupInfo_unset accepted
    exact restHypothesis _ tail

/-- An identifier is that of a variable of the table, or one of a nested table. -/
theorem exists_groupElement (memory : Memory) (vindex : Nat) (info : Info) (group : GroupInfo)
    (groupBase groupShift : Nat) (nesting : List Entry) (object : Option Int) (id : Nat) :
    (∃ leaf ∈ groupLeaves memory vindex info group groupBase groupShift nesting object,
        leaf.groupElement = id) ↔
      (∃ entry ∈ group.elements, groupId entry groupBase groupShift = id) ∨
        ∃ sub ∈ group.subgroups, ∃ leaf ∈ groupLeaves memory vindex info sub.2
          (groupId sub.1 groupBase groupShift) (groupShift + groupLevelShift) (nesting ++ [sub.1])
          (object.bind (nestedObject memory sub.1)), leaf.groupElement = id := by
  induction group with
  | groupEnd => simp [groupLeaves, GroupInfo.elements, GroupInfo.subgroups]
  | element entry type rest restHypothesis =>
    simp only [groupLeaves, GroupInfo.elements, GroupInfo.subgroups, List.exists_mem_cons_iff,
      restHypothesis, or_assoc]
  | group entry nested rest nestedHypothesis restHypothesis =>
    simp only [groupLeaves, GroupInfo.elements, GroupInfo.subgroups, List.exists_mem_cons_iff,
      List.mem_append, or_and_right, exists_or, restHypothesis]
    exact or_left_comm
  | unset entry rest restHypothesis =>
    simp only [groupLeaves, GroupInfo.elements, GroupInfo.subgroups, restHypothesis]

theorem digit_top (entry : Entry) : digit entry 0 = entry.idx := by
  rw [digit, if_neg fun moved => moved.2.1 rfl]

theorem digit_eq_three (entry : Entry) (shift : Nat) : digit entry shift = 3 ↔ entry.idx = 3 := by
  unfold digit
  split <;> omega

theorem digit_eq_zero (entry : Entry) {shift : Nat} (nested : shift ≠ 0) :
    digit entry shift = 0 ↔ entry.idx = 0 ∧ entry.flags.testBit noShiftFlag = true := by
  unfold digit
  by_cases fixed : entry.flags.testBit noShiftFlag = false
  · by_cases zero : entry.idx = 0 <;> simp [zero, fixed, nested]
  · rw [if_neg fun moved => fixed moved.2.2, Bool.not_eq_false] at *
    exact ⟨fun zero => ⟨zero, fixed⟩, fun keeps => keeps.1⟩

/-- The groups below which the constant is an identifier. -/
def GroupInfo.Reaches (group : GroupInfo) : Prop :=
  ∃ outer ∈ group.subgroups, outer.1.idx = 63 ∧
    ((∃ entry ∈ outer.2.elements, entry.idx = 3) ∨
      ∃ inner ∈ outer.2.subgroups, inner.1.idx = 3 ∧
        ∃ entry ∈ inner.2.elements, entry.idx = 0 ∧ entry.flags.testBit noShiftFlag = true)

/-- The constant is an identifier of an accepted group in two cases only: an identifier of one level
is below 64, and one of two levels has the digits 63 and 3. -/
theorem group_sentinal (memory : Memory) (vindex : Nat) (info : Info) (group : GroupInfo)
    (prefixLength : Nat) (object : Option Int)
    (accepted : checkGroupInfo group 0 prefixLength 0 = true) :
    (∃ leaf ∈ groupLeaves memory vindex info group 0 0 [] object,
        leaf.groupElement = sentinalGroup) ↔ group.Reaches := by
  have constant : sentinalGroup = 255 := rfl
  have nested : 12 ≠ 0 := by decide
  have outerId : ∀ entry : Entry, groupId entry 0 0 = entry.idx := by
    intro entry
    rw [groupId_eq, digit_top]
    omega
  obtain ⟨elements, subgroups⟩ := checkGroupInfo_rows group _ _ _ accepted
  rw [exists_groupElement]
  constructor
  · rintro (⟨entry, member, same⟩ | ⟨outer, outerMember, below⟩)
    · have small := elements entry member
      rw [outerId] at same
      omega
    · obtain ⟨outerSmall, -, nestedLength, outerAccepted⟩ := subgroups outer outerMember
      obtain ⟨outerElements, outerSubgroups⟩ := checkGroupInfo_rows outer.2 _ _ _ outerAccepted
      refine ⟨outer, outerMember, ?_⟩
      rw [exists_groupElement, outerId] at below
      rcases below with ⟨entry, member, same⟩ | ⟨inner, innerMember, below⟩
      · rw [groupId_eq] at same
        have same : outer.1.idx + digit entry 6 * 2 ^ 6 = sentinalGroup := same
        refine ⟨by omega, Or.inl ⟨entry, member, (digit_eq_three entry 6).mp (by omega)⟩⟩
      · obtain ⟨innerSmall, -, innerLength, innerAccepted⟩ := outerSubgroups inner innerMember
        obtain ⟨innerElements, innerSubgroups⟩ := checkGroupInfo_rows inner.2 _ _ _ innerAccepted
        rw [exists_groupElement] at below
        rcases below with ⟨entry, member, same⟩ | ⟨deeper, deeperMember, -⟩
        · rw [groupId_eq, groupId_eq] at same
          have same : outer.1.idx + digit inner.1 6 * 2 ^ 6 + digit entry 12 * 2 ^ 12 =
            sentinalGroup := same
          exact ⟨by omega, Or.inr ⟨inner, innerMember, (digit_eq_three _ 6).mp (by omega), entry,
            member, (digit_eq_zero entry nested).mp (by omega)⟩⟩
        · have tooDeep := (innerSubgroups deeper deeperMember).2.1
          omega
  · rintro ⟨outer, outerMember, outerIdx, below⟩
    refine Or.inr ⟨outer, outerMember, ?_⟩
    rw [exists_groupElement, outerId, outerIdx]
    rcases below with ⟨entry, member, idx⟩ | ⟨inner, innerMember, innerIdx, entry, member, keeps⟩
    · refine Or.inl ⟨entry, member, ?_⟩
      rw [groupId_eq]
      show 63 + digit entry 6 * 2 ^ 6 = sentinalGroup
      rw [(digit_eq_three entry 6).mpr idx]
      rfl
    · refine Or.inr ⟨inner, innerMember, (exists_groupElement _ _ _ _ _ _ _ _ _).mpr
        (Or.inl ⟨entry, member, ?_⟩)⟩
      rw [groupId_eq, groupId_eq]
      show 63 + digit inner.1 6 * 2 ^ 6 + digit entry 12 * 2 ^ 12 = sentinalGroup
      rw [(digit_eq_three inner.1 6).mpr innerIdx, (digit_eq_zero entry nested).mpr keeps]
      rfl

/-- A top level row has a variable with the constant as identifier exactly when its group reaches
it. -/
theorem row_sentinal (memory : Memory) (vindex : Nat) {info : Info} {rest : List Info}
    (accepted : info.Accepted rest) :
    (∃ leaf ∈ rowLeaves memory vindex info, leaf.groupElement = sentinalGroup) ↔
      info.kind.rows.Reaches := by
  unfold Info.Accepted at accepted
  unfold rowLeaves
  cases kind : info.kind with
  | element type => simp [InfoKind.rows, GroupInfo.Reaches, GroupInfo.subgroups, sentinalGroup]
  | group groupInfo =>
    simp only [kind] at accepted
    exact group_sentinal memory vindex info groupInfo _ _ accepted.1
  | unset => simp [InfoKind.rows, GroupInfo.Reaches, GroupInfo.subgroups]

theorem table_sentinal (memory : Memory) (vindex : Nat) {table : List Info}
    (accepted : checkVarInfoFrom first table = true) :
    (∃ leaf ∈ leavesFrom memory vindex table, leaf.groupElement = sentinalGroup) ↔
      ∃ info ∈ table, info.kind.rows.Reaches := by
  induction table generalizing vindex first with
  | nil => simp [leavesFrom]
  | cons info rest inductionHypothesis =>
    obtain ⟨row, tail⟩ := checkVarInfoFrom_cons accepted
    rw [List.exists_mem_cons_iff, ← row_sentinal memory vindex row, ← inductionHypothesis (vindex + 1) tail]
    simp only [leavesFrom, List.mem_append, or_and_right, exists_or]

theorem sentinalFree_iff (table : List Info) :
    SentinalFree table ↔ ¬ ∃ info ∈ table, info.kind.rows.Reaches := by
  unfold SentinalFree GroupInfo.Reaches
  push Not
  exact Iff.rfl

/-! ### The main result -/

/-- What the identifiers of a table are for: they are distinct and fit their field, every allocated
variable is found under its own header, and no header of a variable is taken for the end of the
list. -/
structure Identified (table : List Info) (memory : Memory) : Prop where
  distinct : (leaves table memory).Pairwise Leaf.Differ
  fits : ∀ leaf ∈ leaves table memory, leaf.groupElement < 2 ^ 18
  found : ∀ leaf ∈ leaves table memory, ∀ address, leaf.address = some address →
    findByHeader table memory leaf.header = some (leaf.vindex, address)
  stored : ∀ leaf ∈ leaves table memory, isSentinal leaf.header = false

/-- The identifiers of an accepted table do what they are for exactly when no group with index 63
leads to the identifier 255. -/
theorem identified_iff (table : List Info) (memory : Memory)
    (keys : ∀ info ∈ table, info.key < 0x1FF) (accepted : checkVarInfo table = true) :
    Identified table memory ↔ SentinalFree table := by
  have own : ∀ leaf ∈ leaves table memory, leaf.info.key < 0x1FF ∧ leaf.groupElement < 2 ^ 18 := by
    intro leaf member
    obtain ⟨-, inside, fits⟩ := leavesFrom_info memory accepted leaf member
    exact ⟨keys leaf.info inside, fits⟩
  have free : (∀ leaf ∈ leaves table memory, isSentinal leaf.header = false) ↔ SentinalFree table := by
    rw [sentinalFree_iff, ← table_sentinal memory 0 accepted, not_exists]
    refine forall_congr' fun leaf => ⟨fun stored ⟨member, same⟩ => ?_, fun reaches member => ?_⟩
    · have sentinal := (isSentinal_header leaf (own leaf member).1 (own leaf member).2).mpr same
      rw [stored member] at sentinal
      cases sentinal
    · rw [← Bool.not_eq_true, isSentinal_header leaf (own leaf member).1 (own leaf member).2]
      exact fun same => reaches ⟨member, same⟩
  refine ⟨fun identified => free.mp identified.stored, fun sentinalFree =>
    ⟨leavesFrom_pairwise memory accepted, fun leaf member => (own leaf member).2,
      fun leaf member address allocated => ?_, free.mpr sentinalFree⟩⟩
  rw [findByHeader_leaf table memory accepted (lt_trans (own leaf member).1 (by decide)) member,
    allocated, Option.map_some]

instance decidableSentinalFree (table : List Info) : Decidable (SentinalFree table) :=
  inferInstanceAs (Decidable (∀ info ∈ table, ∀ outer ∈ info.kind.rows.subgroups, outer.1.idx = 63 →
    (∀ entry ∈ outer.2.elements, entry.idx ≠ 3) ∧
      ∀ inner ∈ outer.2.subgroups, inner.1.idx = 3 →
        ∀ entry ∈ inner.2.elements, ¬ (entry.idx = 0 ∧ entry.flags.testBit noShiftFlag = true)))

/-- The memory in which no object is allocated. -/
def blankMemory : Memory := ⟨fun _ => 0, fun _ => 0⟩

/-- A table with three levels, a group with index 63 and rows with index 0 of both kinds. -/
def nestedTable : List Info := [
  ⟨['F'], 0, 1000, 0, .element .int8⟩,
  ⟨['G', '_'], 1, 2000, 0, .group
    (.group ⟨63, ['A'], 8, 1⟩
      (.element ⟨0, ['P'], 0, 8⟩ .float
        (.group ⟨4, ['B'], 16, 2⟩ (.element ⟨0, ['Q'], 4, 0⟩ .vector3f .groupEnd) .groupEnd))
      (.element ⟨0, ['Z'], 0, 0⟩ .int16 .groupEnd))⟩]

theorem identified_nested : Identified nestedTable blankMemory :=
  (identified_iff nestedTable blankMemory (by decide) (by decide)).mpr (by decide)

/-- A table with a variable whose identifier is 255. -/
def clashingTable : List Info := [
  ⟨['F'], 0, 1000, 0, .element .int8⟩,
  ⟨['G', '_'], 1, 2000, 0, .group
    (.group ⟨63, ['A'], 8, 1⟩ (.element ⟨3, ['P'], 0, 0⟩ .float .groupEnd) .groupEnd)⟩]

/-- The table is accepted and its keys are in range, and the header of its last variable is taken
for the end of the list. -/
theorem not_identified_clashing :
    (∀ info ∈ clashingTable, info.key < 0x1FF) ∧ checkVarInfo clashingTable = true ∧
      ¬ Identified clashingTable blankMemory := by
  refine ⟨by decide, by decide, fun identified => ?_⟩
  have stored : ∀ leaf ∈ leaves clashingTable blankMemory, isSentinal leaf.header = false :=
    identified.stored
  revert stored
  decide

end Urus.Param
