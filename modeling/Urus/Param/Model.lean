/-
This file models the variable table of the parameter store: the top level rows, the
group tables that they lead to, the identifiers of the variables and the searches that
go from an identifier or an address to a variable.

A group table is an array that ends at its first row of type none, and a row of type
group leads to another table. The model has one constructor for every kind of row, so
that a table is a tree and every walk of the source is a recursion over it. What
`get_group_info` returns for a row is part of the row: the two constructors of a group
row are a table and no table.

Pointers to objects are kept apart from the bytes of the variables. Addresses and
offsets are integers, and the null pointer is 0.
-/

import Mathlib.Tactic

namespace Urus.Param

/-! ### Types and headers -/

/-- The types of a variable. A row of a table has one of them or is a group. -/
inductive VarType
  | int8
  | int16
  | int32
  | float
  | vector3f
  deriving DecidableEq, Repr

/-- The number of a type in `ap_var_type`. -/
def VarType.code : VarType → Nat
  | .int8 => 1
  | .int16 => 2
  | .int32 => 3
  | .float => 4
  | .vector3f => 5

/-- `type_size`, for the number of a type. -/
def typeSize (code : Nat) : Nat :=
  match code with
  | 1 => 1
  | 2 => 2
  | 3 => 4
  | 4 => 4
  | 5 => 3 * 4
  | _ => 0

/-- `Param_header`, with the widths of its fields. -/
structure Header where
  keyLow : Fin (2 ^ 8)
  type : Fin (2 ^ 5)
  keyHigh : Fin (2 ^ 1)
  groupElement : Fin (2 ^ 18)
  deriving DecidableEq, Repr

/-- The 32 bit word that a header is in memory. -/
def Header.word (header : Header) : Nat :=
  header.keyLow.val + 2 ^ 8 * header.type.val + 2 ^ 13 * header.keyHigh.val +
    2 ^ 14 * header.groupElement.val

/-- `get_key`. -/
def getKey (header : Header) : Nat := 2 ^ 8 * header.keyHigh.val + header.keyLow.val

/-- The header that a 32 bit word is. -/
def Header.ofWord (word : Nat) : Header where
  keyLow := Fin.ofNat _ word
  type := Fin.ofNat _ (word / 2 ^ 8)
  keyHigh := Fin.ofNat _ (word / 2 ^ 13)
  groupElement := Fin.ofNat _ (word / 2 ^ 14)

/-- A header as `save` fills it in: every field keeps the bits that it has room for. -/
def makeHeader (key type groupElement : Nat) : Header where
  keyLow := Fin.ofNat _ key
  type := Fin.ofNat _ type
  keyHigh := Fin.ofNat _ (key / 2 ^ 8)
  groupElement := Fin.ofNat _ groupElement

/-- `_sentinal_key`, `_sentinal_type` and `_sentinal_group`. -/
def sentinalKey : Nat := 0x1FF
def sentinalType : Nat := 0x1F
def sentinalGroup : Nat := 0xFF

/-- `is_sentinal`. -/
def isSentinal (header : Header) : Bool :=
  if header.type.val = sentinalType ∨ getKey header = sentinalKey ∨
      header.groupElement.val = sentinalGroup then true
  else if header.word = 0 ∨ header.word = 0xFFFFFFFF then true
  else false

/-! ### Tables -/

/-- The flags that a walk looks at, by the number of their bit. -/
def nestedOffsetFlag : Nat := 0
def pointerFlag : Nat := 1
def enableFlag : Nat := 2
def noShiftFlag : Nat := 3
def ignoreEnableFlag : Nat := 5

/-- `AP_PARAM_FRAME_TYPE_SHIFT`. -/
def frameTypeShift : Nat := 6

/-- `_group_level_shift` and `_group_bits`. -/
def groupLevelShift : Nat := 6
def groupBits : Nat := 18

/-- What every row of a group table has. -/
structure Entry where
  idx : Nat
  name : List Char
  offset : Int
  flags : Nat
  deriving DecidableEq, Repr

/-- A group table, row by row. -/
inductive GroupInfo
  | groupEnd
  | element (entry : Entry) (type : VarType) (rest : GroupInfo)
  | group (entry : Entry) (nested : GroupInfo) (rest : GroupInfo)
  | unset (entry : Entry) (rest : GroupInfo)
  deriving DecidableEq, Repr

/-- What a row of the top level table is. -/
inductive InfoKind
  | element (type : VarType)
  | group (groupInfo : GroupInfo)
  | unset
  deriving DecidableEq, Repr

/-- A row of the top level table. -/
structure Info where
  name : List Char
  key : Nat
  ptr : Int
  flags : Nat
  kind : InfoKind
  deriving DecidableEq, Repr

/-- The memory: the objects that pointers lead to, and the bytes of the variables. -/
structure Memory where
  pointers : Int → Int
  bytes : Int → UInt8

/-- `group_id`, for a row. -/
def groupId (entry : Entry) (base shift : Nat) : Nat :=
  if entry.idx = 0 ∧ shift ≠ 0 ∧ entry.flags.testBit noShiftFlag = false then base + 63 <<< shift
  else base + entry.idx <<< shift

/-- `check_frame_type`. -/
def checkFrameType (frameTypeFlags flags : Nat) : Bool :=
  let frameFlags := flags >>> frameTypeShift
  if frameFlags = 0 then true else (frameFlags &&& frameTypeFlags) != 0

/-! ### Checking a table -/

/-- The index under which `check_group_info` looks for duplicates. -/
def checkedIdx (shift idx : Nat) : Nat := if shift ≠ 0 ∧ idx = 0 then 63 else idx

/-- The index of a row is in range and not used by an earlier row. -/
def checkIdx (shift usedMask idx : Nat) : Bool :=
  decide (idx < 1 <<< groupLevelShift) && !usedMask.testBit (checkedIdx shift idx)

/-- `check_group_info`, from a row on. -/
def checkGroupInfo : GroupInfo → (groupShift prefixLength usedMask : Nat) → Bool
  | .groupEnd, _, _, _ => true
  | .element entry type rest, groupShift, prefixLength, usedMask =>
    checkIdx groupShift usedMask entry.idx && decide (typeSize type.code ≠ 0) &&
      decide (¬ prefixLength + entry.name.length > 16) &&
      checkGroupInfo rest groupShift prefixLength (usedMask ||| 2 ^ checkedIdx groupShift entry.idx)
  | .group entry nested rest, groupShift, prefixLength, usedMask =>
    checkIdx groupShift usedMask entry.idx &&
      decide (¬ groupShift + groupLevelShift ≥ groupBits) &&
      checkGroupInfo nested (groupShift + groupLevelShift)
        ((prefixLength + entry.name.length) % 2 ^ 8) 0 &&
      checkGroupInfo rest groupShift prefixLength (usedMask ||| 2 ^ checkedIdx groupShift entry.idx)
  | .unset entry rest, groupShift, prefixLength, usedMask =>
    checkIdx groupShift usedMask entry.idx &&
      decide (¬ groupShift + groupLevelShift ≥ groupBits) &&
      checkGroupInfo rest groupShift prefixLength (usedMask ||| 2 ^ checkedIdx groupShift entry.idx)

/-- `duplicate_key`, for the rows behind the one with the key. -/
def duplicateKey (rest : List Info) (key : Nat) : Bool := rest.any fun info => info.key == key

/-- `check_var_info`, from a row on. -/
def checkVarInfoFrom (first : Bool) : List Info → Bool
  | [] => true
  | info :: rest =>
    match info.kind with
    | .group groupInfo =>
      !first && checkGroupInfo groupInfo 0 (info.name.length % 2 ^ 8) 0 &&
        !duplicateKey rest info.key && checkVarInfoFrom false rest
    | .unset => !first && checkVarInfoFrom false rest
    | .element type =>
      decide (typeSize type.code ≠ 0) && !duplicateKey rest info.key &&
        !info.flags.testBit pointerFlag && checkVarInfoFrom false rest

/-- `check_var_info`. -/
def checkVarInfo (table : List Info) : Bool := checkVarInfoFrom true table

/-! ### Addresses -/

/-- `get_base`. -/
def getBase (memory : Memory) (info : Info) : Option Int :=
  if info.flags.testBit pointerFlag then
    let base := memory.pointers info.ptr
    if base ≠ 0 then some base else none
  else some info.ptr

/-- `adjust_group_offset`, with the result of `get_base` for the top level row. -/
def adjustGroupOffset (memory : Memory) (base : Option Int) (entry : Entry) (newOffset : Int) :
    Option Int :=
  if entry.flags.testBit nestedOffsetFlag then some (newOffset + entry.offset)
  else if entry.flags.testBit pointerFlag then
    match base with
    | none => none
    | some base =>
      let object := memory.pointers (base + newOffset + entry.offset)
      if object = 0 then none else some (object - base)
  else some newOffset

/-! ### The searches -/

/-- `find_by_header_group`, from a row on: the address of the variable. -/
def findByHeaderGroup (memory : Memory) (header : Header) (base : Option Int) :
    GroupInfo → (groupBase groupShift : Nat) → (groupOffset : Int) → Option Int
  | .groupEnd, _, _, _ => none
  | .group entry nested rest, groupBase, groupShift, groupOffset =>
    if groupShift + groupLevelShift ≥ groupBits then none
    else
      match adjustGroupOffset memory base entry groupOffset with
      | none => findByHeaderGroup memory header base rest groupBase groupShift groupOffset
      | some newOffset =>
        match findByHeaderGroup memory header base nested (groupId entry groupBase groupShift)
            (groupShift + groupLevelShift) newOffset with
        | some ptr => some ptr
        | none => findByHeaderGroup memory header base rest groupBase groupShift groupOffset
  | .unset _ rest, groupBase, groupShift, groupOffset =>
    if groupShift + groupLevelShift ≥ groupBits then none
    else findByHeaderGroup memory header base rest groupBase groupShift groupOffset
  | .element entry type rest, groupBase, groupShift, groupOffset =>
    if groupId entry groupBase groupShift = header.groupElement.val ∧
        type.code = header.type.val then
      match base with
      | none => findByHeaderGroup memory header none rest groupBase groupShift groupOffset
      | some base => some (base + entry.offset + groupOffset)
    else findByHeaderGroup memory header base rest groupBase groupShift groupOffset

/-- `find_by_header`, from a row on: the number of the top level row and the address. -/
def findByHeaderFrom (memory : Memory) (header : Header) : (vindex : Nat) → List Info →
    Option (Nat × Int)
  | _, [] => none
  | vindex, info :: rest =>
    if info.key ≠ getKey header then findByHeaderFrom memory header (vindex + 1) rest
    else
      match info.kind with
      | .group groupInfo =>
        (findByHeaderGroup memory header (getBase memory info) groupInfo 0 0 0).map (vindex, ·)
      | .unset => findByHeaderFrom memory header (vindex + 1) rest
      | .element type =>
        if type.code = header.type.val then (getBase memory info).map (vindex, ·)
        else findByHeaderFrom memory header (vindex + 1) rest

/-- `find_by_header`. -/
def findByHeader (table : List Info) (memory : Memory) (header : Header) : Option (Nat × Int) :=
  findByHeaderFrom memory header 0 table

/-- What `find_var_info` returns: the top level row, the row of the group table, the groups on the
way to it, the identifier, and which part of a vector was asked for. -/
structure Found where
  vindex : Nat
  info : Info
  ginfo : Option Entry
  type : VarType
  nesting : List Entry
  groupElement : Nat
  idx : Nat
  deriving DecidableEq, Repr

/-- `GroupNesting::numlevels`. -/
def numLevels : Nat := 2

/-- Which part of a variable at an address is meant by `this`. -/
def partOf (type : VarType) (address this : Int) : Option Nat :=
  if this = address then some 0
  else if type = .vector3f ∧ (address + 4 = this ∨ address + 2 * 4 = this) then
    some ((this - address) / 4).toNat
  else none

/-- `find_var_info_group`, from a row on. -/
def findVarInfoGroup (memory : Memory) (this : Int) (vindex : Nat) (info : Info) (base : Int) :
    GroupInfo → (groupBase groupShift : Nat) → (groupOffset : Int) → (nesting : List Entry) →
    Option Found
  | .groupEnd, _, _, _, _ => none
  | .unset _ rest, groupBase, groupShift, groupOffset, nesting =>
    findVarInfoGroup memory this vindex info base rest groupBase groupShift groupOffset nesting
  | .group entry nested rest, groupBase, groupShift, groupOffset, nesting =>
    if groupShift + groupLevelShift ≥ groupBits then none
    else
      match adjustGroupOffset memory (some base) entry groupOffset with
      | none =>
        findVarInfoGroup memory this vindex info base rest groupBase groupShift groupOffset nesting
      | some newOffset =>
        if nesting.length ≥ numLevels then none
        else
          match findVarInfoGroup memory this vindex info base nested
              (groupId entry groupBase groupShift) (groupShift + groupLevelShift) newOffset
              (nesting ++ [entry]) with
          | some found => some found
          | none => findVarInfoGroup memory this vindex info base rest groupBase groupShift
              groupOffset nesting
  | .element entry type rest, groupBase, groupShift, groupOffset, nesting =>
    match partOf type (base + (entry.offset + groupOffset)) this with
    | some idx =>
      some ⟨vindex, info, some entry, type, nesting, groupId entry groupBase groupShift, idx⟩
    | none =>
      findVarInfoGroup memory this vindex info base rest groupBase groupShift groupOffset nesting

/-- `find_var_info_token`, for the row that the token names. -/
def findVarInfoRow (memory : Memory) (this : Int) (vindex : Nat) (info : Info) : Option Found :=
  match getBase memory info with
  | none => none
  | some base =>
    match info.kind with
    | .group groupInfo => findVarInfoGroup memory this vindex info base groupInfo 0 0 0 []
    | .unset => none
    | .element type =>
      (partOf type base this).map fun idx => ⟨vindex, info, none, type, [], 0, idx⟩

/-- `find_var_info`, from a row on: every row is searched in the same way. -/
def findVarInfoFrom (memory : Memory) (this : Int) : (vindex : Nat) → List Info → Option Found
  | _, [] => none
  | vindex, info :: rest =>
    match findVarInfoRow memory this vindex info with
    | some found => some found
    | none => findVarInfoFrom memory this (vindex + 1) rest

/-- `find_var_info`. -/
def findVarInfo (table : List Info) (memory : Memory) (this : Int) : Option Found :=
  findVarInfoFrom memory this 0 table

/-! ### The variables of a table -/

/-- A variable, with its place in the table: the top level row, the groups on the way to it and its
own row if it is in a group. The address is missing when an object on the way to it is not
allocated. -/
structure Leaf where
  vindex : Nat
  info : Info
  nesting : List Entry
  ginfo : Option Entry
  type : VarType
  groupElement : Nat
  address : Option Int
  deriving DecidableEq, Repr

/-- The object of a nested group, from the object that holds the row. -/
def nestedObject (memory : Memory) (entry : Entry) (object : Int) : Option Int :=
  if entry.flags.testBit nestedOffsetFlag then some (object + entry.offset)
  else if entry.flags.testBit pointerFlag then
    let nested := memory.pointers (object + entry.offset)
    if nested = 0 then none else some nested
  else some object

/-- The variables of a group table, in the order of the table. -/
def groupLeaves (memory : Memory) (vindex : Nat) (info : Info) :
    GroupInfo → (groupBase groupShift : Nat) → (nesting : List Entry) → (object : Option Int) →
    List Leaf
  | .groupEnd, _, _, _, _ => []
  | .element entry type rest, groupBase, groupShift, nesting, object =>
    ⟨vindex, info, nesting, some entry, type, groupId entry groupBase groupShift,
        object.map (· + entry.offset)⟩ ::
      groupLeaves memory vindex info rest groupBase groupShift nesting object
  | .group entry nested rest, groupBase, groupShift, nesting, object =>
    groupLeaves memory vindex info nested (groupId entry groupBase groupShift)
        (groupShift + groupLevelShift) (nesting ++ [entry])
        (object.bind (nestedObject memory entry)) ++
      groupLeaves memory vindex info rest groupBase groupShift nesting object
  | .unset _ rest, groupBase, groupShift, nesting, object =>
    groupLeaves memory vindex info rest groupBase groupShift nesting object

/-- The variables of a row of the top level table. -/
def rowLeaves (memory : Memory) (vindex : Nat) (info : Info) : List Leaf :=
  match info.kind with
  | .element type => [⟨vindex, info, [], none, type, 0, getBase memory info⟩]
  | .group groupInfo => groupLeaves memory vindex info groupInfo 0 0 [] (getBase memory info)
  | .unset => []

/-- The variables of the rows from a number on. -/
def leavesFrom (memory : Memory) : (vindex : Nat) → List Info → List Leaf
  | _, [] => []
  | vindex, info :: rest => rowLeaves memory vindex info ++ leavesFrom memory (vindex + 1) rest

/-- The variables of a table. -/
def leaves (table : List Info) (memory : Memory) : List Leaf := leavesFrom memory 0 table

/-- The header under which `save` stores a variable. -/
def Leaf.header (leaf : Leaf) : Header :=
  makeHeader leaf.info.key leaf.type.code leaf.groupElement

end Urus.Param
