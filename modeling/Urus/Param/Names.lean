/-
This file is about the names of the parameters. The name of a parameter is put together
from the names of the rows on the way to it, and a part of a vector has one more letter.
It is written to a buffer of a fixed size. The search by name takes it apart again, row by
row, and returns the first variable that it fits.

The search of a tree of rows is the search of the list of its variables. What a variable
answers to a name is stated apart from it: which names fit the variable, and which of its
parts is the answer.
-/

import Urus.Param.Enumeration
import Urus.Param.Variables

namespace Urus.Param

/-! ### Writing a name -/

/-- `AP_MAX_NAME_SIZE`. -/
def maxNameSize : Nat := 16

/-- A name behind what is already in a buffer. What the buffer has no room for is left out. -/
def appendName (bufferSize : Nat) (buffer name : List Char) : List Char :=
  if buffer.length < bufferSize then buffer ++ name.take (bufferSize - buffer.length) else buffer

/-- The letter of a part of a vector. -/
def partLetter (idx : Nat) : Char := Char.ofNat ('X'.toNat + idx)

/-- `add_vector3f_suffix`. -/
def addVector3fSuffix (bufferSize : Nat) (buffer : List Char) (idx : Nat) : List Char :=
  if buffer.length + 2 ≤ bufferSize then buffer ++ ['_', partLetter idx] else buffer

/-- `copy_name_info`. -/
def copyNameInfo (found : Found) (bufferSize : Nat) (forceScalar : Bool) : List Char :=
  let buffer := found.info.name.take bufferSize
  let buffer := found.nesting.foldl (fun buffer group => appendName bufferSize buffer group.name)
    buffer
  let buffer := match found.ginfo with
    | some ginfo => appendName bufferSize buffer ginfo.name
    | none => buffer
  if (forceScalar ∨ found.idx ≠ 0) ∧ found.type = .vector3f then
    addVector3fSuffix bufferSize buffer found.idx
  else buffer

/-- `copy_name_token`: the name of the variable at an address, which is looked for in the row of
the token. -/
def copyNameToken (table : List Info) (memory : Memory) (token : Token) (this : Int)
    (bufferSize : Nat) (forceScalar : Bool) : List Char :=
  match table[token.key]?.bind (findVarInfoRow memory this token.key) with
  | none => []
  | some found => copyNameInfo found bufferSize forceScalar

/-! ### Searching for a name -/

/-- Names are compared without regard to case. -/
def lower (name : List Char) : List Char := name.map Char.toLower

/-- The part of a vector that a letter stands for. -/
def partOfLetter (letter : Char) : Option Nat :=
  if letter = 'X' then some 0
  else if letter = 'Y' then some 1
  else if letter = 'Z' then some 2
  else none

/-- The part of a vector that a name asks for. What comes behind the letter is not looked at. -/
def vectorPart (name vector : List Char) : Option Nat :=
  let suffixLen := (vector.take maxNameSize).length
  if name.take suffixLen = vector.take suffixLen ∧ name[suffixLen]? = some '_' then
    name[suffixLen + 1]?.bind partOfLetter
  else none

/-- `find_group`, from a row on, with the result of `get_base` for the top level row. -/
def findGroup (memory : Memory) (base : Option Int) :
    GroupInfo → (name : List Char) → (groupOffset : Int) → Option Hit
  | .groupEnd, _, _ => none
  | .unset _ rest, name, groupOffset => findGroup memory base rest name groupOffset
  | .group entry nested rest, name, groupOffset =>
    if lower (name.take entry.name.length) ≠ lower entry.name then
      findGroup memory base rest name groupOffset
    else
      match adjustGroupOffset memory base entry groupOffset with
      | none => findGroup memory base rest name groupOffset
      | some newOffset =>
        match findGroup memory base nested (name.drop entry.name.length) newOffset with
        | some hit => some hit
        | none => findGroup memory base rest name groupOffset
  | .element entry type rest, name, groupOffset =>
    if lower name = lower entry.name then
      match base with
      | none => findGroup memory base rest name groupOffset
      | some base => some ⟨base + entry.offset + groupOffset, type.code⟩
    else if type = .vector3f then
      match vectorPart name entry.name, base with
      | some part, some base =>
        some ⟨base + entry.offset + groupOffset + 4 * part, VarType.float.code⟩
      | _, _ => findGroup memory base rest name groupOffset
    else findGroup memory base rest name groupOffset

/-- `find`, from a row on. -/
def findFrom (memory : Memory) (name : List Char) : List Info → Option Hit
  | [] => none
  | info :: rest =>
    match info.kind with
    | .group groupInfo =>
      let len := (info.name.take maxNameSize).length
      if name.take len ≠ info.name.take len then findFrom memory name rest
      else
        match findGroup memory (getBase memory info) groupInfo (name.drop len) 0 with
        | some hit => some hit
        | none => findFrom memory name rest
    | .unset => findFrom memory name rest
    | .element type =>
      if lower name = lower info.name then (getBase memory info).map (⟨·, type.code⟩)
      else findFrom memory name rest

/-- `find`. -/
def find (table : List Info) (memory : Memory) (name : List Char) : Option Hit :=
  findFrom memory name table

/-! ### The variables that a name fits -/

/-- What is left of a name behind the names of some groups. -/
def passGroups : List Entry → List Char → Option (List Char)
  | [], name => some name
  | group :: rest, name =>
    if lower (name.take group.name.length) = lower group.name then
      passGroups rest (name.drop group.name.length)
    else none

/-- What a row of a group table answers to a name, for the address of its variable. -/
def answerElement (name : List Char) (entry : Entry) (type : VarType) (address : Int) : Option Hit :=
  if lower name = lower entry.name then some ⟨address, type.code⟩
  else if type = .vector3f then
    (vectorPart name entry.name).map fun part : Nat => ⟨address + 4 * part, VarType.float.code⟩
  else none

/-- What a variable of a group answers to a name, behind the name of the top level row. -/
def Leaf.answerInGroup (name : List Char) (leaf : Leaf) : Option Hit :=
  leaf.address.bind fun address => leaf.ginfo.bind fun ginfo =>
    (passGroups leaf.nesting name).bind fun left => answerElement left ginfo leaf.type address

/-- What a variable answers to a name. -/
def Leaf.answer (name : List Char) (leaf : Leaf) : Option Hit :=
  let len := (leaf.info.name.take maxNameSize).length
  match leaf.ginfo with
  | none =>
    if lower name = lower leaf.info.name then leaf.address.map (⟨·, leaf.type.code⟩) else none
  | some _ =>
    if name.take len = leaf.info.name.take len then leaf.answerInGroup (name.drop len) else none

theorem passGroups_append (first second : List Entry) (name : List Char) :
    passGroups (first ++ second) name = (passGroups first name).bind (passGroups second) := by
  induction first generalizing name with
  | nil => rfl
  | cons group rest inductionHypothesis =>
    rw [List.cons_append, passGroups, passGroups]
    split
    · exact inductionHypothesis _
    · rfl

theorem findSome_congr {Item Result : Type} {first second : Item → Option Result}
    {items : List Item} (same : ∀ item ∈ items, first item = second item) :
    items.findSome? first = items.findSome? second := by
  induction items with
  | nil => rfl
  | cons item rest inductionHypothesis =>
    rw [List.findSome?_cons, List.findSome?_cons, same item List.mem_cons_self,
      inductionHypothesis fun other member => same other (List.mem_cons_of_mem _ member)]

section Search

variable (memory : Memory) (vindex : Nat) (info : Info)

/-- The variables of a group table are behind the groups on the way to the table, and each has a
row in a group table. -/
theorem groupLeaves_nesting (group : GroupInfo) (groupBase groupShift : Nat) (nesting : List Entry)
    (object : Option Int) :
    ∀ leaf ∈ groupLeaves memory vindex info group groupBase groupShift nesting object,
      leaf.info = info ∧ leaf.vindex = vindex ∧ leaf.ginfo ≠ none ∧
        ∃ deeper, leaf.nesting = nesting ++ deeper := by
  induction group generalizing groupBase groupShift nesting object with
  | groupEnd => exact fun leaf member => absurd member List.not_mem_nil
  | element entry type rest restHypothesis =>
    intro leaf member
    rcases List.mem_cons.mp member with rfl | later
    · exact ⟨rfl, rfl, Option.some_ne_none _, [], (List.append_nil _).symm⟩
    · exact restHypothesis _ _ _ _ leaf later
  | group entry nested rest nestedHypothesis restHypothesis =>
    intro leaf member
    rcases List.mem_append.mp member with inner | later
    · obtain ⟨sameInfo, sameRow, inTable, deeper, path⟩ := nestedHypothesis _ _ _ _ leaf inner
      exact ⟨sameInfo, sameRow, inTable, entry :: deeper, path.trans (List.append_cons _ _ _).symm⟩
    · exact restHypothesis _ _ _ _ leaf later
  | unset entry rest restHypothesis => exact restHypothesis _ _ _ _

theorem Leaf.answerInGroup_unallocated (name : List Char) (leaf : Leaf)
    (missing : leaf.address = none) : leaf.answerInGroup name = none := by
  rw [answerInGroup, missing, Option.bind_none]

theorem findGroup_eq (base : Int) (name : List Char) (group : GroupInfo) (groupBase groupShift : Nat)
    (nesting : List Entry) (offset : Int) {left : List Char}
    (passed : passGroups nesting name = some left) :
    findGroup memory (some base) group left offset =
      (groupLeaves memory vindex info group groupBase groupShift nesting
        (some (base + offset))).findSome? (Leaf.answerInGroup name) := by
  induction group generalizing groupBase groupShift nesting offset left with
  | groupEnd => rfl
  | element entry type rest restHypothesis =>
    have place : base + entry.offset + offset = base + offset + entry.offset := by omega
    rw [groupLeaves, List.findSome?_cons, ← restHypothesis _ _ nesting offset passed, findGroup,
      Leaf.answerInGroup]
    simp only [Option.map_some, Option.bind_some, passed, answerElement, place]
    split
    · rfl
    · split
      · cases vectorPart left entry.name with
        | none => rfl
        | some part => simp only [Option.map_some, place]
      · rfl
  | group entry nested rest nestedHypothesis restHypothesis =>
    rw [groupLeaves, List.findSome?_append, ← restHypothesis _ _ nesting offset passed, findGroup]
    have path : passGroups (nesting ++ [entry]) name =
        if lower (left.take entry.name.length) = lower entry.name then
          some (left.drop entry.name.length)
        else none := by
      rw [passGroups_append, passed, Option.bind_some, passGroups]
      rfl
    by_cases fits : lower (left.take entry.name.length) = lower entry.name
    · rw [if_pos fits] at path
      rw [if_neg (not_not.mpr fits), Option.bind_some, ← adjustGroupOffset_object]
      cases adjustGroupOffset memory (some base) entry offset with
      | none =>
        rw [Option.map_none,
          findSome_unallocated memory vindex info (Leaf.answerInGroup_unallocated name) nested]
        rfl
      | some newOffset =>
        rw [Option.map_some, ← nestedHypothesis _ _ (nesting ++ [entry]) newOffset path]
        dsimp only
        cases findGroup memory (some base) nested (left.drop entry.name.length) newOffset <;> rfl
    · rw [if_neg fits] at path
      have nothing : (groupLeaves memory vindex info nested (groupId entry groupBase groupShift)
          (groupShift + groupLevelShift) (nesting ++ [entry])
          ((some (base + offset)).bind (nestedObject memory entry))).findSome?
            (Leaf.answerInGroup name) = none := by
        refine List.findSome?_eq_none_iff.mpr fun leaf member => ?_
        obtain ⟨-, -, -, deeper, deep⟩ :=
          groupLeaves_nesting memory vindex info nested _ _ _ _ leaf member
        have stuck : passGroups leaf.nesting name = none := by
          rw [deep, passGroups_append, path, Option.bind_none]
        rw [Leaf.answerInGroup, stuck]
        cases leaf.address with
        | none => rfl
        | some address => cases leaf.ginfo <;> rfl
      rw [if_pos fits, nothing]
      rfl
  | unset entry rest restHypothesis =>
    rw [groupLeaves, findGroup]
    exact restHypothesis _ _ nesting offset passed

/-- A group whose object is not allocated has no variable for a name. -/
theorem findGroup_unallocated (group : GroupInfo) (name : List Char) (offset : Int) :
    findGroup memory none group name offset = none := by
  induction group generalizing name offset with
  | groupEnd => rfl
  | element entry type rest restHypothesis =>
    rw [findGroup, restHypothesis]
    split
    · rfl
    · split
      · cases vectorPart name entry.name <;> rfl
      · rfl
  | group entry nested rest nestedHypothesis restHypothesis =>
    rw [findGroup, restHypothesis]
    split
    · rfl
    · cases adjustGroupOffset memory none entry offset with
      | none => rfl
      | some newOffset =>
        dsimp only
        rw [nestedHypothesis]
  | unset entry rest restHypothesis =>
    rw [findGroup]
    exact restHypothesis name offset

/-- The variables of a row answer as variables of the row. -/
theorem rowLeaves_group {groupInfo : GroupInfo} (kind : info.kind = .group groupInfo)
    (name : List Char) :
    (rowLeaves memory vindex info).findSome? (Leaf.answer name) =
      if name.take (info.name.take maxNameSize).length =
          info.name.take (info.name.take maxNameSize).length then
        findGroup memory (getBase memory info) groupInfo
          (name.drop (info.name.take maxNameSize).length) 0
      else none := by
  have rows : rowLeaves memory vindex info =
      groupLeaves memory vindex info groupInfo 0 0 [] (getBase memory info) := by
    rw [rowLeaves, kind]
  have answers : ∀ leaf ∈ rowLeaves memory vindex info, leaf.answer name =
      if name.take (info.name.take maxNameSize).length =
          info.name.take (info.name.take maxNameSize).length then
        leaf.answerInGroup (name.drop (info.name.take maxNameSize).length)
      else none := by
    intro leaf member
    obtain ⟨sameInfo, -, inTable, -⟩ :=
      groupLeaves_nesting memory vindex info groupInfo _ _ _ _ leaf (rows ▸ member)
    obtain ⟨ginfo, row⟩ := Option.ne_none_iff_exists'.mp inTable
    rw [Leaf.answer, row, sameInfo]
  split
  · rename_i fits
    rw [findSome_congr fun leaf member => (answers leaf member).trans (if_pos fits), rows]
    cases getBase memory info with
    | none =>
      rw [findGroup_unallocated]
      exact findSome_unallocated memory vindex info (Leaf.answerInGroup_unallocated _) groupInfo 0 0 []
    | some base =>
      have search := findGroup_eq memory vindex info base
        (name.drop (info.name.take maxNameSize).length) groupInfo 0 0 [] 0 rfl
      rw [Int.add_zero] at search
      exact search.symm
  · rename_i other
    exact List.findSome?_eq_none_iff.mpr fun leaf member =>
      (answers leaf member).trans (if_neg other)

theorem findFrom_eq {first : Bool} {table : List Info} (name : List Char)
    (accepted : checkVarInfoFrom first table = true) :
    findFrom memory name table = (leavesFrom memory vindex table).findSome? (Leaf.answer name) := by
  induction table generalizing vindex first with
  | nil => rfl
  | cons info rest inductionHypothesis =>
    obtain ⟨row, tail⟩ := checkVarInfoFrom_cons accepted
    rw [leavesFrom, List.findSome?_append, ← inductionHypothesis (vindex + 1) tail, findFrom]
    unfold Info.Accepted at row
    cases kind : info.kind with
    | element type =>
      simp only [kind] at row
      simp only [rowLeaves, kind, List.findSome?_cons, List.findSome?_nil, Leaf.answer,
        getBase_element row.1]
      split <;> rfl
    | group groupInfo =>
      rw [rowLeaves_group memory vindex info kind]
      dsimp only
      by_cases fits : name.take (info.name.take maxNameSize).length =
          info.name.take (info.name.take maxNameSize).length
      · rw [if_neg (not_not.mpr fits), if_pos fits]
        cases findGroup memory (getBase memory info) groupInfo
          (name.drop (info.name.take maxNameSize).length) 0 <;> rfl
      · rw [if_pos fits, if_neg fits]
        rfl
    | unset =>
      simp only [rowLeaves, kind]
      rfl

end Search

/-! ### Fitting names -/

/-- A name fits a variable: it is the name of the variable, up to the case of the groups and of its
own row, or of a row of the top level table. A name also fits a vector of a group when it goes on
with the letter of a part and anything behind it. Of the name of a top level group and of a vector
only the first 16 characters count. -/
def Leaf.Fits (leaf : Leaf) (name : List Char) : Prop :=
  match leaf.ginfo with
  | none => lower name = lower leaf.info.name
  | some ginfo =>
    ∃ groups own, name = leaf.info.name.take maxNameSize ++ (groups ++ own) ∧
      lower groups = lower (leaf.nesting.flatMap Entry.name) ∧
      (lower own = lower ginfo.name ∨
        leaf.type = .vector3f ∧ ∃ part more, part < 3 ∧
          own = ginfo.name.take maxNameSize ++ '_' :: partLetter part :: more)

theorem lower_append (first second : List Char) :
    lower (first ++ second) = lower first ++ lower second := List.map_append

theorem lower_length (name : List Char) : (lower name).length = name.length := List.length_map _

theorem length_of_lower {first second : List Char} (same : lower first = lower second) :
    first.length = second.length := by
  rw [← lower_length first, same, lower_length]

theorem partOfLetter_iff (letter : Char) (part : Nat) :
    partOfLetter letter = some part ↔ part < 3 ∧ letter = partLetter part := by
  have letters : partLetter 0 = 'X' ∧ partLetter 1 = 'Y' ∧ partLetter 2 = 'Z' := by decide
  constructor
  · intro known
    unfold partOfLetter at known
    split at known
    · obtain rfl := Option.some.inj known
      exact ⟨by decide, by rw [letters.1]; assumption⟩
    · split at known
      · obtain rfl := Option.some.inj known
        exact ⟨by decide, by rw [letters.2.1]; assumption⟩
      · split at known
        · obtain rfl := Option.some.inj known
          exact ⟨by decide, by rw [letters.2.2]; assumption⟩
        · exact nomatch known
  · rintro ⟨small, rfl⟩
    interval_cases part <;> decide

theorem take_length_take (name : List Char) :
    name.take (name.take maxNameSize).length = name.take maxNameSize := by
  rw [List.length_take, List.take_eq_take_min.symm]

theorem vectorPart_iff (name vector : List Char) (part : Nat) :
    vectorPart name vector = some part ↔
      part < 3 ∧ ∃ more, name = vector.take maxNameSize ++ '_' :: partLetter part :: more := by
  unfold vectorPart
  dsimp only
  rw [take_length_take]
  constructor
  · intro asked
    split at asked
    · rename_i starts
      obtain ⟨rest, rfl⟩ := List.prefix_iff_eq_take.mpr starts.1.symm
      rw [List.getElem?_append_right (le_refl _), Nat.sub_self] at starts
      rw [List.getElem?_append_right (Nat.le_add_right _ 1), Nat.add_sub_cancel_left] at asked
      obtain ⟨letter, here, known⟩ := Option.bind_eq_some_iff.mp asked
      obtain ⟨small, rfl⟩ := (partOfLetter_iff letter part).mp known
      cases rest with
      | nil => exact nomatch here
      | cons underscore rest =>
        cases rest with
        | nil => exact nomatch here
        | cons letter more =>
          obtain rfl : underscore = '_' := Option.some.inj starts.2
          obtain rfl : letter = partLetter part := Option.some.inj here
          exact ⟨small, more, rfl⟩
    · exact nomatch asked
  · rintro ⟨small, more, rfl⟩
    rw [if_pos]
    · rw [List.getElem?_append_right (Nat.le_add_right _ 1), Nat.add_sub_cancel_left]
      exact (partOfLetter_iff (partLetter part) part).mpr ⟨small, rfl⟩
    · rw [List.getElem?_append_right (le_refl _), Nat.sub_self]
      exact ⟨List.take_left, rfl⟩

theorem passGroups_iff (groups : List Entry) (name left : List Char) :
    passGroups groups name = some left ↔
      ∃ front, name = front ++ left ∧ lower front = lower (groups.flatMap Entry.name) := by
  induction groups generalizing name with
  | nil =>
    rw [passGroups]
    constructor
    · intro same
      exact ⟨[], Option.some.inj same, rfl⟩
    · rintro ⟨front, rfl, empty⟩
      obtain rfl := List.map_eq_nil_iff.mp empty
      rfl
  | cons group rest inductionHypothesis =>
    rw [passGroups, List.flatMap_cons, lower_append]
    constructor
    · intro passed
      split at passed
      · rename_i fits
        obtain ⟨front, split, same⟩ := (inductionHypothesis _).mp passed
        refine ⟨name.take group.name.length ++ front, ?_, ?_⟩
        · rw [List.append_assoc, ← split, List.take_append_drop]
        · rw [lower_append, fits, same]
      · exact nomatch passed
    · rintro ⟨front, rfl, same⟩
      have reaches : group.name.length ≤ front.length := by
        have lengths := congrArg List.length same
        rw [List.length_append, lower_length, lower_length] at lengths
        omega
      have fits : lower (front.take group.name.length) = lower group.name := by
        rw [lower, List.map_take]
        change (lower front).take group.name.length = lower group.name
        rw [same, ← lower_length group.name, List.take_left]
      have others : lower (front.drop group.name.length) = lower (rest.flatMap Entry.name) := by
        rw [lower, List.map_drop]
        change (lower front).drop group.name.length = lower (rest.flatMap Entry.name)
        rw [same, ← lower_length group.name, List.drop_left]
      rw [List.take_append_of_le_length reaches, if_pos fits,
        List.drop_append_of_le_length reaches]
      exact (inductionHypothesis _).mpr ⟨_, rfl, others⟩

theorem answerElement_ne_none_iff (name : List Char) (entry : Entry) (type : VarType)
    (address : Int) :
    answerElement name entry type address ≠ none ↔
      lower name = lower entry.name ∨
        type = .vector3f ∧ ∃ part more, part < 3 ∧
          name = entry.name.take maxNameSize ++ '_' :: partLetter part :: more := by
  have asked : vectorPart name entry.name ≠ none ↔ ∃ part more, part < 3 ∧
      name = entry.name.take maxNameSize ++ '_' :: partLetter part :: more := by
    rw [Option.ne_none_iff_exists']
    simp only [vectorPart_iff, exists_and_left]
  rw [← asked]
  unfold answerElement
  by_cases own : lower name = lower entry.name
  · rw [if_pos own]
    exact iff_of_true (Option.some_ne_none _) (Or.inl own)
  · rw [if_neg own]
    by_cases vector : type = .vector3f
    · rw [if_pos vector, ne_eq, Option.map_eq_none_iff]
      exact ⟨fun part => Or.inr ⟨vector, part⟩, fun fits => (fits.resolve_left own).2⟩
    · rw [if_neg vector]
      exact iff_of_false (fun nothing => nothing rfl) fun fits => vector (fits.resolve_left own).1

theorem Leaf.answer_ne_none_iff (leaf : Leaf) (name : List Char) :
    leaf.answer name ≠ none ↔ leaf.address ≠ none ∧ leaf.Fits name := by
  cases place : leaf.address with
  | none =>
    refine iff_of_false (fun answers => answers ?_) fun fits => fits.1 rfl
    rw [answer]
    cases leaf.ginfo with
    | none => rw [place, Option.map_none, ite_self]
    | some ginfo => rw [answerInGroup, place, Option.bind_none, ite_self]
  | some address =>
    rw [and_iff_right (Option.some_ne_none _), answer, Fits]
    cases row : leaf.ginfo with
    | none =>
      rw [place, Option.map_some]
      dsimp only
      split
      · exact iff_of_true (Option.some_ne_none _) (by assumption)
      · exact iff_of_false (fun nothing => nothing rfl) (by assumption)
    | some ginfo =>
      dsimp only
      rw [take_length_take]
      constructor
      · intro answers
        split at answers
        · rename_i starts
          obtain ⟨rest, rfl⟩ := List.prefix_iff_eq_take.mpr starts.symm
          rw [List.drop_left, answerInGroup, place, Option.bind_some, row, Option.bind_some] at answers
          obtain ⟨hit, found⟩ := Option.ne_none_iff_exists'.mp answers
          obtain ⟨left, passed, element⟩ := Option.bind_eq_some_iff.mp found
          obtain ⟨groups, rfl, same⟩ := (passGroups_iff _ _ _).mp passed
          refine ⟨groups, left, rfl, same, (answerElement_ne_none_iff _ _ _ address).mp ?_⟩
          rw [element]
          exact Option.some_ne_none _
        · exact absurd rfl answers
      · rintro ⟨groups, own, rfl, same, fits⟩
        rw [if_pos List.take_left, List.drop_left, answerInGroup, place, Option.bind_some, row,
          Option.bind_some, (passGroups_iff _ _ own).mpr ⟨groups, rfl, same⟩, Option.bind_some]
        exact (answerElement_ne_none_iff _ _ _ address).mpr fits

/-! ### Parameters and their names -/

/-- What a name has behind the name of the variable. -/
def VarType.suffix : VarType → Nat → List Char
  | .vector3f, part => ['_', partLetter part]
  | _, _ => []

/-- The names of the groups on the way to a variable and of its own row. -/
def Leaf.path (leaf : Leaf) : List Char :=
  leaf.nesting.flatMap Entry.name ++ leaf.ginfo.elim [] Entry.name

/-- The name of a variable as far as the search compares it. -/
def Leaf.knownName (leaf : Leaf) : List Char :=
  (if leaf.ginfo = none then leaf.info.name else leaf.info.name.take maxNameSize) ++ leaf.path

/-- A parameter as the walk returns it: a variable, or a part of a vector. -/
def Leaf.IsParameter (leaf : Leaf) (part : Nat) (hit : Hit) : Prop :=
  ∃ address, leaf.address = some address ∧
    if leaf.type = .vector3f then
      part < 3 ∧ hit = ⟨address + 4 * part, VarType.float.code⟩
    else part = 0 ∧ hit = ⟨address, leaf.type.code⟩

theorem appendName_take (bufferSize : Nat) (buffer name : List Char) :
    appendName bufferSize (buffer.take bufferSize) name = (buffer ++ name).take bufferSize := by
  rw [appendName, List.take_append, List.length_take]
  split
  · rename_i room
    rw [show min bufferSize buffer.length = buffer.length by omega]
  · rename_i full
    rw [show bufferSize - buffer.length = 0 by omega, List.take_zero, List.append_nil]

theorem foldl_appendName (bufferSize : Nat) (groups : List Entry) (buffer : List Char) :
    groups.foldl (fun buffer group => appendName bufferSize buffer group.name)
        (buffer.take bufferSize) =
      (buffer ++ groups.flatMap Entry.name).take bufferSize := by
  induction groups generalizing buffer with
  | nil => rw [List.foldl_nil, List.flatMap_nil, List.append_nil]
  | cons group rest inductionHypothesis =>
    rw [List.foldl_cons, appendName_take, inductionHypothesis, List.flatMap_cons, List.append_assoc]

/-- The name that is written for a parameter. -/
theorem copyNameInfo_found (leaf : Leaf) (part bufferSize : Nat) :
    copyNameInfo (leaf.found part) bufferSize true =
      if leaf.type = .vector3f then
        addVector3fSuffix bufferSize ((leaf.info.name ++ leaf.path).take bufferSize) part
      else (leaf.info.name ++ leaf.path).take bufferSize := by
  have written : (match leaf.ginfo with
      | some ginfo => appendName bufferSize
        ((leaf.info.name ++ leaf.nesting.flatMap Entry.name).take bufferSize) ginfo.name
      | none => (leaf.info.name ++ leaf.nesting.flatMap Entry.name).take bufferSize) =
      (leaf.info.name ++ leaf.path).take bufferSize := by
    cases row : leaf.ginfo with
    | none => rw [Leaf.path, row, Option.elim_none, List.append_nil]
    | some ginfo =>
      dsimp only
      rw [appendName_take, Leaf.path, row, Option.elim_some, List.append_assoc]
  simp only [copyNameInfo, Leaf.found, foldl_appendName, written, true_or, true_and]

theorem copyNameInfo_length (leaf : Leaf) (part bufferSize : Nat) :
    (copyNameInfo (leaf.found part) bufferSize true).length ≤ bufferSize := by
  rw [copyNameInfo_found]
  have bound := List.length_take_le bufferSize (leaf.info.name ++ leaf.path)
  split
  · unfold addVector3fSuffix
    split
    · rename_i room
      rw [List.length_append]
      exact room
    · exact bound
  · exact bound

variable {leaf : Leaf} {name : List Char}

/-- A name that fits the buffer is written as the search knows it. -/
theorem copyNameInfo_known {part : Nat}
    (short : (leaf.knownName ++ leaf.type.suffix part).length ≤ maxNameSize) :
    copyNameInfo (leaf.found part) maxNameSize true = leaf.knownName ++ leaf.type.suffix part := by
  rw [copyNameInfo_found]
  rw [List.length_append] at short
  have whole : (leaf.info.name ++ leaf.path).take maxNameSize = leaf.knownName := by
    have size : leaf.knownName.length ≤ maxNameSize := by omega
    unfold Leaf.knownName at size ⊢
    split at size
    · rename_i top
      rw [if_pos top, List.take_of_length_le size]
    · rename_i grouped
      rw [List.length_append, List.length_take] at size
      rw [if_neg grouped, List.take_append, List.take_of_length_le (l := leaf.path) (by omega)]
  rw [whole]
  cases kind : leaf.type with
  | vector3f =>
    have room : leaf.knownName.length + 2 ≤ maxNameSize := by
      rw [kind] at short
      exact short
    rw [if_pos rfl, addVector3fSuffix, if_pos room]
    rfl
  | _ =>
    rw [if_neg (by decide), VarType.suffix, List.append_nil]
    all_goals exact nofun

theorem VarType.suffix_scalar {type : VarType} (scalar : type ≠ .vector3f) (part : Nat) :
    type.suffix part = [] := by
  cases type with
  | vector3f => exact absurd rfl scalar
  | _ => rfl

theorem answerElement_own {entry : Entry} {type : VarType} {address : Int} {part : Nat} {hit : Hit}
    (short : entry.name.length ≤ maxNameSize)
    (shape : if type = .vector3f then part < 3 ∧ hit = ⟨address + 4 * part, VarType.float.code⟩
      else part = 0 ∧ hit = ⟨address, type.code⟩) :
    answerElement (entry.name ++ type.suffix part) entry type address = some hit := by
  by_cases vector : type = .vector3f
  · rw [if_pos vector] at shape
    have longer : lower (entry.name ++ type.suffix part) ≠ lower entry.name := by
      intro same
      have lengths := length_of_lower same
      rw [List.length_append, vector] at lengths
      exact absurd lengths (by simp [VarType.suffix])
    have asked : vectorPart (entry.name ++ type.suffix part) entry.name = some part := by
      refine (vectorPart_iff _ _ _).mpr ⟨shape.1, [], ?_⟩
      rw [List.take_of_length_le short, vector]
      rfl
    rw [answerElement, if_neg longer, if_pos vector, asked, shape.2]
    rfl
  · rw [if_neg vector] at shape
    rw [VarType.suffix_scalar vector, List.append_nil, answerElement, if_pos rfl, shape.2]

theorem Leaf.answer_known {part : Nat} {hit : Hit} (top : leaf.ginfo = none → leaf.nesting = [])
    (parameter : leaf.IsParameter part hit)
    (grouped : ¬ (leaf.ginfo = none ∧ leaf.type = .vector3f))
    (short : (leaf.knownName ++ leaf.type.suffix part).length ≤ maxNameSize) :
    leaf.answer (leaf.knownName ++ leaf.type.suffix part) = some hit := by
  obtain ⟨address, place, shape⟩ := parameter
  unfold answer
  cases row : leaf.ginfo with
  | none =>
    have scalar : leaf.type ≠ .vector3f := fun vector => grouped ⟨row, vector⟩
    rw [if_neg scalar] at shape
    have name : leaf.knownName ++ leaf.type.suffix part = leaf.info.name := by
      rw [VarType.suffix_scalar scalar, List.append_nil, knownName, if_pos row, path, top row, row]
      exact List.append_nil _
    dsimp only
    rw [name, if_pos rfl, place, shape.2]
    rfl
  | some ginfo =>
    have name : leaf.knownName ++ leaf.type.suffix part = leaf.info.name.take maxNameSize ++
        (leaf.nesting.flatMap Entry.name ++ (ginfo.name ++ leaf.type.suffix part)) := by
      rw [knownName, if_neg (by rw [row]; exact Option.some_ne_none _), path, row, Option.elim_some]
      simp only [List.append_assoc]
    have fits : ginfo.name.length ≤ maxNameSize := by
      rw [name] at short
      simp only [List.length_append] at short
      omega
    dsimp only
    rw [name, take_length_take, if_pos List.take_left, List.drop_left, answerInGroup, place,
      Option.bind_some, row, Option.bind_some, (passGroups_iff _ _ _).mpr ⟨_, rfl, rfl⟩,
      Option.bind_some]
    exact answerElement_own fits shape

/-- What a variable answers to a name: itself, to a name as long as its own, or a part of a vector of
a group, to a name that is longer. -/
theorem Leaf.answer_cases {hit : Hit} (top : leaf.ginfo = none → leaf.nesting = [])
    (answers : leaf.answer name = some hit) :
    ∃ address, leaf.address = some address ∧
      (hit = ⟨address, leaf.type.code⟩ ∧ leaf.knownName.length = name.length ∨
        leaf.type = .vector3f ∧ leaf.ginfo ≠ none ∧
          (∃ part < 3, hit = ⟨address + 4 * (part : Nat), VarType.float.code⟩) ∧
          min leaf.knownName.length maxNameSize + 2 ≤ name.length) := by
  unfold answer at answers
  cases row : leaf.ginfo with
  | none =>
    rw [row] at answers
    dsimp only at answers
    split at answers
    · rename_i same
      obtain ⟨address, place, rfl⟩ := Option.map_eq_some_iff.mp answers
      refine ⟨address, place, Or.inl ⟨rfl, ?_⟩⟩
      rw [length_of_lower same, knownName, if_pos row, path, top row, row]
      exact congrArg List.length (List.append_nil _)
    · exact nomatch answers
  | some ginfo =>
    have known : leaf.knownName.length = (leaf.info.name.take maxNameSize).length +
        ((leaf.nesting.flatMap Entry.name).length + ginfo.name.length) := by
      rw [knownName, if_neg (by rw [row]; exact Option.some_ne_none _), path, row, Option.elim_some,
        List.length_append, List.length_append]
    rw [row] at answers
    dsimp only at answers
    rw [take_length_take] at answers
    split at answers
    · rename_i starts
      obtain ⟨rest, rfl⟩ := List.prefix_iff_eq_take.mpr starts.symm
      rw [List.drop_left, answerInGroup, row] at answers
      obtain ⟨address, place, answers⟩ := Option.bind_eq_some_iff.mp answers
      rw [Option.bind_some] at answers
      obtain ⟨left, passed, element⟩ := Option.bind_eq_some_iff.mp answers
      obtain ⟨groups, rfl, same⟩ := (passGroups_iff _ _ _).mp passed
      have groupsLength := length_of_lower same
      refine ⟨address, place, ?_⟩
      unfold answerElement at element
      split at element
      · rename_i own
        refine Or.inl ⟨(Option.some.inj element).symm, ?_⟩
        rw [known, List.length_append, List.length_append, groupsLength, length_of_lower own]
      · split at element
        · rename_i vector
          obtain ⟨part, asked, rfl⟩ := Option.map_eq_some_iff.mp element
          obtain ⟨small, more, rfl⟩ := (vectorPart_iff _ _ _).mp asked
          refine Or.inr ⟨vector, Option.some_ne_none _, ⟨part, small, rfl⟩, ?_⟩
          simp only [List.length_append, List.length_cons, List.length_take] at known ⊢
          omega
        · exact nomatch element
    · exact nomatch answers

theorem Leaf.IsParameter.scalar {part : Nat} {hit : Hit} (parameter : leaf.IsParameter part hit)
    (whole : hit.type = leaf.type.code) :
    leaf.type ≠ .vector3f := by
  obtain ⟨address, place, shape⟩ := parameter
  intro vector
  rw [if_pos vector] at shape
  rw [shape.2, vector] at whole
  exact absurd whole (by decide : VarType.float.code ≠ VarType.vector3f.code)

/-- A name that finds a parameter in its own variable is not cut. -/
theorem Leaf.answer_short {part : Nat} {hit : Hit} (top : leaf.ginfo = none → leaf.nesting = [])
    (parameter : leaf.IsParameter part hit) (fits : name.length ≤ maxNameSize)
    (answers : leaf.answer name = some hit) :
    ¬ (leaf.ginfo = none ∧ leaf.type = .vector3f) ∧
      (leaf.knownName ++ leaf.type.suffix part).length ≤ maxNameSize := by
  obtain ⟨address, place, whole | ⟨vector, grouped, -, longer⟩⟩ := answer_cases top answers
  · have scalar := parameter.scalar (congrArg Hit.type whole.1)
    refine ⟨fun top => scalar top.2, ?_⟩
    rw [VarType.suffix_scalar scalar, List.append_nil, whole.2]
    exact fits
  · refine ⟨fun top => grouped top.1, ?_⟩
    rw [vector, List.length_append]
    change leaf.knownName.length + 2 ≤ maxNameSize
    omega

theorem typeSize_pos (type : VarType) : (0 : Int) < typeSize type.code := by
  cases type <;> simp [typeSize, VarType.code]

/-- What a variable answers lies in the variable. -/
theorem Leaf.answer_inside {hit : Hit} (top : leaf.ginfo = none → leaf.nesting = [])
    (answers : leaf.answer name = some hit) :
    ∃ address, leaf.address = some address ∧ address ≤ hit.address ∧
      hit.address < address + typeSize leaf.type.code := by
  obtain ⟨address, place, ⟨rfl, -⟩ | ⟨vector, -, ⟨part, small, rfl⟩, -⟩⟩ := answer_cases top answers
  · exact ⟨address, place, le_refl _, lt_add_of_pos_right _ (typeSize_pos leaf.type)⟩
  · refine ⟨address, place, ?_, ?_⟩
    · dsimp only
      omega
    · rw [vector]
      change address + 4 * (part : Int) < address + 12
      omega

/-- A parameter lies in its variable. -/
theorem Leaf.IsParameter.inside {part : Nat} {hit : Hit} (parameter : leaf.IsParameter part hit) :
    ∃ address, leaf.address = some address ∧ address ≤ hit.address ∧
      hit.address < address + typeSize leaf.type.code := by
  obtain ⟨address, place, shape⟩ := parameter
  refine ⟨address, place, ?_⟩
  split at shape
  · rename_i vector
    obtain ⟨small, rfl⟩ := shape
    rw [vector]
    change address ≤ address + 4 * (part : Int) ∧ address + 4 * (part : Int) < address + 12
    omega
  · obtain ⟨-, rfl⟩ := shape
    exact ⟨le_refl _, lt_add_of_pos_right _ (typeSize_pos leaf.type)⟩

end Urus.Param
