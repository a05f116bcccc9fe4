/-
This file relates the search for a variable by its address to the list of variables of a
table. In an accepted table the search is a search in that list, and when the variables
share no byte a variable is found at its own address.

The headers of the variables do not depend on what is allocated, and the addresses depend
on the pointers only, so that loading values moves no variable.
-/

import Urus.Param.Identifiers

namespace Urus.Param

/-! ### What the list of variables depends on -/

variable {memory memory' : Memory} {table : List Info}

section

variable (same : memory'.pointers = memory.pointers)

include same

theorem getBase_congr (info : Info) :
    getBase memory' info = getBase memory info := by
  rw [getBase, getBase, same]

theorem groupLeaves_congr (vindex : Nat) (info : Info)
    (group : GroupInfo) (groupBase groupShift : Nat) (nesting : List Entry) (object : Option Int) :
    groupLeaves memory' vindex info group groupBase groupShift nesting object =
      groupLeaves memory vindex info group groupBase groupShift nesting object := by
  have objects : nestedObject memory' = nestedObject memory := by
    funext entry object
    rw [nestedObject, nestedObject, same]
  induction group generalizing groupBase groupShift nesting object with
  | groupEnd => rfl
  | element entry type rest restHypothesis => rw [groupLeaves, groupLeaves, restHypothesis]
  | group entry nested rest nestedHypothesis restHypothesis =>
    rw [groupLeaves, groupLeaves, nestedHypothesis, restHypothesis, objects]
  | unset entry rest restHypothesis => rw [groupLeaves, groupLeaves, restHypothesis]

theorem rowLeaves_congr (vindex : Nat) (info : Info) :
    rowLeaves memory' vindex info = rowLeaves memory vindex info := by
  unfold rowLeaves
  cases info.kind with
  | element type => simp only [getBase_congr same]
  | group groupInfo => simp only [getBase_congr same, groupLeaves_congr same]
  | unset => rfl

theorem leavesFrom_congr (vindex : Nat)
    (table : List Info) :
    leavesFrom memory' vindex table = leavesFrom memory vindex table := by
  induction table generalizing vindex with
  | nil => rfl
  | cons info rest inductionHypothesis =>
    rw [leavesFrom, leavesFrom, inductionHypothesis, rowLeaves_congr same]

theorem leaves_congr (table : List Info) :
    leaves table memory' = leaves table memory :=
  leavesFrom_congr same 0 table

end

theorem groupLeaves_headers (memory memory' : Memory) (vindex : Nat) (info : Info)
    (group : GroupInfo) (groupBase groupShift : Nat) (nesting : List Entry)
    (object object' : Option Int) :
    (groupLeaves memory' vindex info group groupBase groupShift nesting object').map Leaf.header =
      (groupLeaves memory vindex info group groupBase groupShift nesting object).map
        Leaf.header := by
  induction group generalizing groupBase groupShift nesting object object' with
  | groupEnd => rfl
  | element entry type rest restHypothesis =>
    rw [groupLeaves, groupLeaves, List.map_cons, List.map_cons, restHypothesis _ _ _ object]
    rfl
  | group entry nested rest nestedHypothesis restHypothesis =>
    rw [groupLeaves, groupLeaves, List.map_append, List.map_append, restHypothesis _ _ _ object,
      nestedHypothesis _ _ _ (object.bind (nestedObject memory entry))]
  | unset entry rest restHypothesis => exact restHypothesis _ _ _ _ _

theorem leavesFrom_headers (memory memory' : Memory) (vindex : Nat) (table : List Info) :
    (leavesFrom memory' vindex table).map Leaf.header =
      (leavesFrom memory vindex table).map Leaf.header := by
  induction table generalizing vindex with
  | nil => rfl
  | cons info rest inductionHypothesis =>
    have row : (rowLeaves memory' vindex info).map Leaf.header =
        (rowLeaves memory vindex info).map Leaf.header := by
      unfold rowLeaves
      cases info.kind with
      | element type => rfl
      | group groupInfo => exact groupLeaves_headers _ _ _ _ _ _ _ _ _ _
      | unset => rfl
    rw [leavesFrom, leavesFrom, List.map_append, List.map_append, row, inductionHypothesis]

/-! ### Searching by address -/

/-- What the search by address makes of a variable. -/
def Leaf.found (leaf : Leaf) (idx : Nat) : Found :=
  ⟨leaf.vindex, leaf.info, leaf.ginfo, leaf.type, leaf.nesting, leaf.groupElement, idx⟩

/-- The variable, if the address is one of its parts. -/
def pickAt (this : Int) (leaf : Leaf) : Option Found :=
  leaf.address.bind fun address => (partOf leaf.type address this).map leaf.found

theorem pickAt_unallocated (this : Int) (leaf : Leaf) (missing : leaf.address = none) :
    pickAt this leaf = none := by
  rw [pickAt, missing, Option.bind_none]

section Search

variable (memory : Memory) (this : Int) (vindex : Nat) (info : Info)

/-- The search in an accepted group table is the search in its list of variables. -/
theorem findVarInfoGroup_eq (base : Int) (group : GroupInfo)
    (groupBase groupShift prefixLength usedMask : Nat) (nesting : List Entry) (offset : Int)
    (accepted : checkGroupInfo group groupShift prefixLength usedMask = true)
    (level : 6 * nesting.length = groupShift) :
    findVarInfoGroup memory this vindex info base group groupBase groupShift offset nesting =
      (groupLeaves memory vindex info group groupBase groupShift nesting
        (some (base + offset))).findSome? (pickAt this) := by
  induction group generalizing groupBase groupShift prefixLength usedMask nesting offset with
  | groupEnd => rfl
  | element entry type rest restHypothesis =>
    obtain ⟨-, -, tail⟩ := checkGroupInfo_element accepted
    have place : base + (entry.offset + offset) = base + offset + entry.offset := by omega
    rw [groupLeaves, List.findSome?_cons, findVarInfoGroup, pickAt, Option.map_some,
      Option.bind_some, place, restHypothesis _ _ _ _ _ _ tail level]
    cases partOf type (base + offset + entry.offset) this <;> rfl
  | group entry nested rest nestedHypothesis restHypothesis =>
    obtain ⟨-, depth, inner, tail⟩ := checkGroupInfo_group accepted
    have shallow : ¬ groupShift + groupLevelShift ≥ groupBits := Nat.not_le.mpr depth
    have levels : ¬ nesting.length ≥ numLevels := by
      rw [numLevels]
      omega
    have deeper : 6 * (nesting ++ [entry]).length = groupShift + groupLevelShift := by
      rw [List.length_append, List.length_singleton, ← level]
      rfl
    rw [groupLeaves, List.findSome?_append, findVarInfoGroup, if_neg shallow,
      ← restHypothesis _ _ _ _ nesting _ tail level, Option.bind_some, ← adjustGroupOffset_object]
    cases adjustGroupOffset memory (some base) entry offset with
    | none =>
      rw [Option.map_none, findSome_unallocated memory vindex info (pickAt_unallocated this) nested]
      rfl
    | some newOffset =>
      rw [Option.map_some, ← nestedHypothesis _ _ _ _ (nesting ++ [entry]) newOffset inner deeper]
      simp only [if_neg levels]
      cases findVarInfoGroup memory this vindex info base nested (groupId entry groupBase groupShift)
        (groupShift + groupLevelShift) newOffset (nesting ++ [entry]) <;> rfl
  | unset entry rest restHypothesis =>
    obtain ⟨-, -, tail⟩ := checkGroupInfo_unset accepted
    rw [groupLeaves, findVarInfoGroup]
    exact restHypothesis _ _ _ _ _ _ tail level

theorem findVarInfoRow_eq {rest : List Info} (accepted : info.Accepted rest) :
    findVarInfoRow memory this vindex info =
      (rowLeaves memory vindex info).findSome? (pickAt this) := by
  unfold Info.Accepted at accepted
  unfold findVarInfoRow rowLeaves
  cases kind : info.kind with
  | element type =>
    simp only [List.findSome?_cons, List.findSome?_nil, pickAt]
    cases getBase memory info with
    | none => rfl
    | some base =>
      dsimp only [Option.bind_some]
      cases partOf type base this <;> rfl
  | group groupInfo =>
    simp only [kind] at accepted
    cases getBase memory info with
    | none =>
      exact (findSome_unallocated memory vindex info (pickAt_unallocated this) groupInfo 0 0 []).symm
    | some base =>
      have search := findVarInfoGroup_eq memory this vindex info base groupInfo 0 0 _ 0 [] 0
        accepted.1 rfl
      rw [Int.add_zero] at search
      exact search
  | unset =>
    cases getBase memory info <;> rfl

theorem findVarInfoFrom_eq {first : Bool} {table : List Info}
    (accepted : checkVarInfoFrom first table = true) :
    findVarInfoFrom memory this vindex table =
      (leavesFrom memory vindex table).findSome? (pickAt this) := by
  induction table generalizing vindex first with
  | nil => rfl
  | cons row rest inductionHypothesis =>
    obtain ⟨rowAccepted, tail⟩ := checkVarInfoFrom_cons accepted
    rw [leavesFrom, List.findSome?_append, ← findVarInfoRow_eq memory this vindex row rowAccepted,
      ← inductionHypothesis (vindex + 1) tail, findVarInfoFrom]
    cases findVarInfoRow memory this vindex row <;> rfl

end Search

theorem findVarInfo_leaf {memory : Memory} {this : Int} {found : Found}
    (accepted : checkVarInfo table = true) (search : findVarInfo table memory this = some found) :
    ∃ leaf ∈ leaves table memory, ∃ address, leaf.address = some address ∧
      partOf leaf.type address this = some found.idx ∧ found = leaf.found found.idx := by
  rw [findVarInfo, findVarInfoFrom_eq memory this 0 accepted] at search
  obtain ⟨leaf, member, here⟩ := List.exists_of_findSome?_eq_some search
  refine ⟨leaf, member, ?_⟩
  obtain ⟨address, allocated, part⟩ := Option.bind_eq_some_iff.mp here
  obtain ⟨idx, inside, same⟩ := Option.map_eq_some_iff.mp part
  refine ⟨address, allocated, ?_, ?_⟩
  · rw [inside, ← same]
    rfl
  · rw [← same]
    rfl

/-! ### Variables that share no byte -/

/-- Two variables share no byte. -/
def Leaf.Apart (first second : Leaf) : Prop :=
  ∀ low, first.address = some low → ∀ high, second.address = some high →
    low + typeSize first.type.code ≤ high ∨ high + typeSize second.type.code ≤ low

/-- The variables of a table share no byte. -/
def AllApart (table : List Info) (memory : Memory) : Prop :=
  (leaves table memory).Pairwise Leaf.Apart

instance : Std.Symm Leaf.Apart :=
  ⟨fun _ _ apart low lowPlace high highPlace => (apart high highPlace low lowPlace).symm⟩

theorem AllApart.apart {memory : Memory} (apart : AllApart table memory) {first second : Leaf}
    (firstMember : first ∈ leaves table memory) (secondMember : second ∈ leaves table memory)
    (different : first ≠ second) :
    first.Apart second :=
  apart.forall firstMember secondMember different

/-- A part of a variable lies in the variable. -/
theorem partOf_inside {type : VarType} {address this : Int} {idx : Nat}
    (part : partOf type address this = some idx) :
    this = address + 4 * idx ∧ 4 * idx < typeSize type.code := by
  unfold partOf at part
  split at part
  · rename_i same
    obtain rfl := Option.some.inj part
    refine ⟨by omega, ?_⟩
    cases type <;> decide
  · split at part
    · rename_i inside
      obtain rfl := Option.some.inj part
      obtain ⟨rfl, first | second⟩ := inside
      · have third : (this - address) / 4 = 1 := by omega
        rw [third]
        exact ⟨by omega, by decide⟩
      · have third : (this - address) / 4 = 2 := by omega
        rw [third]
        exact ⟨by omega, by decide⟩
    · cases part

theorem findVarInfo_own {memory : Memory} {leaf : Leaf} {address : Int}
    (accepted : checkVarInfo table = true) (apart : AllApart table memory)
    (member : leaf ∈ leaves table memory) (allocated : leaf.address = some address) :
    findVarInfo table memory address = some (leaf.found 0) := by
  have here : pickAt address leaf = some (leaf.found 0) := by
    rw [pickAt, allocated, Option.bind_some, partOf, if_pos rfl, Option.map_some]
  rw [findVarInfo, findVarInfoFrom_eq memory address 0 accepted, ← here]
  refine findSome_only (pickAt address) member fun other inside hit => ?_
  by_contra different
  cases place : other.address with
  | none =>
    rw [pickAt, place] at hit
    exact hit rfl
  | some low =>
    cases part : partOf other.type low address with
    | none =>
      rw [pickAt, place, Option.bind_some, part] at hit
      exact hit rfl
    | some idx =>
      obtain ⟨same, bound⟩ := partOf_inside part
      have positive : 1 ≤ typeSize leaf.type.code := by cases leaf.type <;> decide
      rcases apart.apart inside member different low place address allocated with first | second
      · omega
      · omega

end Urus.Param
