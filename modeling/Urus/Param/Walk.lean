/-
This file models the enumeration of the parameters: `first`, `next` and `next_scalar`, and
the two loops over them that a ground station's download rests on, `find_by_index` and
`count_parameters`.

`next` has no state but a packed token. It walks the table from the row of the token,
looks for the variable with the token's identifier and returns the one behind it. A vector
is returned as a whole and then part by part.

The loops of the source that run until there is no further variable have a fuel argument,
and no result when it runs out.
-/

import Urus.Param.Model

namespace Urus.Param

/-! ### Tokens -/

/-- `ParamToken`. -/
structure Token where
  key : Nat
  idx : Nat
  groupElement : Nat
  deriving DecidableEq, Repr

/-- The token of a variable as a whole, in the widths of its fields. -/
def makeToken (vindex groupElement : Nat) : Token := ⟨vindex % 2 ^ 9, 0, groupElement % 2 ^ 18⟩

/-- `token->idx++`. -/
def Token.advance (token : Token) : Token := { token with idx := token.idx + 1 }

/-- A returned variable: its address and the number of its type. -/
structure Hit where
  address : Int
  type : Nat
  deriving DecidableEq, Repr

/-- The state of a walk, and the variable that it has returned. -/
structure Walk where
  found : Bool
  token : Token
  hit : Option Hit
  deriving DecidableEq, Repr

/-- The number of `AP_PARAM_GROUP`. -/
def groupCode : Nat := 6

/-- The number of the type of a top level row. -/
def InfoKind.code : InfoKind → Nat
  | .element type => type.code
  | .group _ | .unset => groupCode

/-! ### The next variable -/

section Next

variable (table : List Info) (memory : Memory) (frameTypeFlags : Nat)

/-- `first`. -/
def first : Token × Option Hit :=
  (⟨0, 0, 0⟩,
    match table with
    | [] => none
    | info :: _ => (getBase memory info).map (⟨·, info.kind.code⟩))

/-- `next_group`, from a row on. -/
def nextGroup (vindex : Nat) (base : Option Int) : GroupInfo → (groupBase groupShift : Nat) →
    (groupOffset : Int) → (found : Bool) → Token → Walk
  | .groupEnd, _, _, _, found, token => ⟨found, token, none⟩
  | .unset _ rest, groupBase, groupShift, groupOffset, found, token =>
    nextGroup vindex base rest groupBase groupShift groupOffset found token
  | .group entry nested rest, groupBase, groupShift, groupOffset, found, token =>
    if checkFrameType frameTypeFlags entry.flags = false then
      nextGroup vindex base rest groupBase groupShift groupOffset found token
    else
      match adjustGroupOffset memory base entry groupOffset with
      | none => nextGroup vindex base rest groupBase groupShift groupOffset found token
      | some newOffset =>
        let walk := nextGroup vindex base nested (groupId entry groupBase groupShift)
          (groupShift + groupLevelShift) newOffset found token
        match walk.hit with
        | some _ => walk
        | none => nextGroup vindex base rest groupBase groupShift groupOffset walk.found walk.token
  | .element entry type rest, groupBase, groupShift, groupOffset, found, token =>
    if checkFrameType frameTypeFlags entry.flags = false then
      nextGroup vindex base rest groupBase groupShift groupOffset found token
    else if found then
      let token := makeToken vindex (groupId entry groupBase groupShift)
      match base with
      | none => nextGroup vindex none rest groupBase groupShift groupOffset true token
      | some base => ⟨true, token, some ⟨base + entry.offset + groupOffset, type.code⟩⟩
    else if groupId entry groupBase groupShift = token.groupElement then
      if type = .vector3f ∧ token.idx < 3 then
        match base with
        | none => nextGroup vindex none rest groupBase groupShift groupOffset true token.advance
        | some base =>
          let ofs := base + entry.offset + groupOffset
          ⟨true, token.advance, some ⟨ofs + 4 * (token.advance.idx - 1 : Nat), VarType.float.code⟩⟩
      else nextGroup vindex base rest groupBase groupShift groupOffset true token
    else nextGroup vindex base rest groupBase groupShift groupOffset false token

/-- The loop of `next`, from a row on. -/
def nextRows : (vindex : Nat) → List Info → (found : Bool) → Token → Walk
  | _, [], found, token => ⟨found, token, none⟩
  | vindex, info :: rest, found, token =>
    if checkFrameType frameTypeFlags info.flags = false then nextRows (vindex + 1) rest found token
    else
      match info.kind with
      | .group groupInfo =>
        let walk := nextGroup memory frameTypeFlags vindex (getBase memory info) groupInfo 0 0 0
          found token
        match walk.hit with
        | some _ => walk
        | none => nextRows (vindex + 1) rest walk.found walk.token
      | .unset => nextRows (vindex + 1) rest found token
      | .element type => ⟨found, makeToken vindex 0, some ⟨info.ptr, type.code⟩⟩

/-- `next`. -/
def next (token : Token) : Walk :=
  match table.drop token.key with
  | [] => ⟨false, token, none⟩
  | info :: rest =>
    match info.kind with
    | .element type =>
      if type = .vector3f ∧ token.idx < 3 then
        ⟨false, token.advance,
          some ⟨4 * (token.advance.idx - 1 : Nat) + info.ptr, VarType.float.code⟩⟩
      else nextRows memory frameTypeFlags (token.key + 1) rest true token
    | .group _ | .unset => nextRows memory frameTypeFlags token.key (info :: rest) false token

/-! ### The next scalar -/

variable (hideDisabledGroups : Bool)

/-- The variables behind a disabled group's own variable are passed over. -/
def passDisabled (level : Nat) : (fuel : Nat) → Token → Token → Option Token
  | 0, _, _ => none
  | fuel + 1, token, ahead =>
    let walk := next table memory frameTypeFlags ahead
    match walk.hit with
    | none => some token
    | some _ =>
      if walk.token.key ≠ token.key then some token
      else if level ≠ 0 ∧ token.groupElement % 2 ^ 6 ≠ walk.token.groupElement % 2 ^ 6 then
        some token
      else passDisabled level fuel walk.token walk.token

/-- The variable enables its group and is 0. -/
def disabledBy (token : Token) (hit : Hit) : Option Found :=
  (table[token.key]?.bind (findVarInfoRow memory hit.address token.key)).filter fun found =>
    match found.ginfo with
    | none => false
    | some ginfo =>
      ginfo.flags.testBit enableFlag && !ginfo.flags.testBit ignoreEnableFlag &&
        memory.bytes hit.address == 0 && hideDisabledGroups

/-- The loop of `next_scalar`: the first variable that is no vector. -/
def skipVectors : (fuel : Nat) → Token → Option Walk
  | 0, _ => none
  | fuel + 1, token =>
    let walk := next table memory frameTypeFlags token
    match walk.hit with
    | none => some walk
    | some hit =>
      if hit.type > VarType.float.code then skipVectors fuel walk.token else some walk

/-- `next_scalar`. -/
def nextScalar (fuel : Nat) (token : Token) : Option (Token × Option Hit) :=
  (skipVectors table memory frameTypeFlags fuel token).bind fun walk =>
    match walk.hit with
    | none => some (walk.token, none)
    | some hit =>
      if hit.type = VarType.int8.code then
        match disabledBy table memory hideDisabledGroups walk.token hit with
        | none => some (walk.token, some hit)
        | some found =>
          (passDisabled table memory frameTypeFlags found.nesting.length fuel walk.token
            walk.token).map (·, some hit)
      else some (walk.token, some hit)

/-! ### The loops over the scalars -/

/-- The loop of `find_by_index`. -/
def indexLoop (fuel : Nat) : (left : Nat) → Token × Option Hit → Option (Token × Option Hit)
  | _, (token, none) => some (token, none)
  | 0, (token, some hit) => some (token, some hit)
  | left + 1, (token, some _) =>
    (nextScalar table memory frameTypeFlags hideDisabledGroups fuel token).bind (indexLoop fuel left)

/-- `find_by_index`. -/
def findByIndex (fuel idx : Nat) : Option (Token × Option Hit) :=
  indexLoop table memory frameTypeFlags hideDisabledGroups fuel idx (first table memory)

/-- The loop of `count_parameters`. -/
def countLoop : (fuel : Nat) → Token → (ret : Nat) → Option Nat
  | 0, _, _ => none
  | fuel + 1, token, ret =>
    let ret := (ret + 1) % 2 ^ 16
    match nextScalar table memory frameTypeFlags hideDisabledGroups fuel token with
    | none => none
    | some (_, none) => some ret
    | some (token, some _) => countLoop fuel token ret

/-- `count_parameters`, with the count that is cached. -/
def countParameters (fuel cached : Nat) : Option Nat :=
  if cached = 0 then
    countLoop table memory frameTypeFlags hideDisabledGroups fuel (first table memory).1 0
  else some cached

end Next

end Urus.Param
