/-
This file is about the load of one variable. A variable that is in storage is loaded to the
address that it was found by. Any other gets its default value, at an address that is
computed a second time: the offsets of the groups on the way are added up as they stand in
the tables. This is the address of the variable as long as every group lies in the object
around it, at its offset. Behind a pointer it is another place.
-/

import Urus.Param.RoundTrip

namespace Urus.Param

open Image StorageManager

/-! ### Loading one variable -/

/-- The default values: the list that overrides them, the default of a row, and the bytes that a
value has as a variable of a type. -/
structure Defaults (Value : Type) where
  overrides : List (Int × Value)
  defValue : Found → Value
  bytes : VarType → Value → List UInt8
  length : ∀ type value, (bytes type value).length = typeSize type.code

/-- Bytes that are written to the memory. -/
structure MemoryWrite where
  address : Int
  data : List UInt8

/-- A write is carried out. -/
def Memory.apply (memory : Memory) (write : MemoryWrite) : Memory :=
  memory.write write.address write.data

section Load

variable {Value : Type} (defaults : Defaults Value)

/-- `get_default_value`. -/
def getDefaultValue (vp : Int) (defValue : Value) : Value :=
  match defaults.overrides.find? fun override => decide (vp = override.1) with
  | some override => override.2
  | none => defValue

/-- `set_value`. A vector has no default. -/
def setValue (type : VarType) (ptr : Int) (value : Value) : List MemoryWrite :=
  match type with
  | .int8 | .int16 | .int32 | .float => [⟨ptr, defaults.bytes type value⟩]
  | .vector3f => []

variable (layout : Layout) (table : List Info) (hal : Image) (memory : Memory) (this : Int)

/-- `load`: the result, and the writes. -/
def loadWrites : Bool × List MemoryWrite :=
  match findVarInfo table memory this with
  | none => (false, [])
  | some found =>
    match scan layout hal found.header with
    | (false, _) =>
      match getBase memory found.info with
      | none => (false, [])
      | some base =>
        let value := getDefaultValue defaults this (defaults.defValue found)
        match found.ginfo with
        | some ginfo =>
          let groupOffset := (found.nesting.map Entry.offset).sum
          (false, setValue defaults found.type (base + ginfo.offset + groupOffset) value)
        | none => (false, setValue defaults found.type base value)
    | (true, ofs) =>
      if found.type ≠ .vector3f ∧ found.idx ≠ 0 then (false, [])
      else
        (true, [⟨this - found.idx * 4,
          (readBlock layout.areas .param hal (ofs + 4) (typeSize found.type.code)).2⟩])

/-- `load`: the result, and the memory behind it. -/
def load : Bool × Memory :=
  let (result, writes) := loadWrites defaults layout table hal memory this
  (result, runCalls Memory.apply memory writes)

/-- A load writes to the variable that was found, and nowhere else: what is stored for it, or else
its default value when it is a number. -/
structure LoadsOwn (found : Found) : Prop where
  stored : ∀ ofs, scan layout hal found.header = (true, ofs) →
    (loadWrites defaults layout table hal memory this).2 = [⟨this - found.idx * 4,
      (readBlock layout.areas .param hal (ofs + 4) (typeSize found.type.code)).2⟩]
  missing : (scan layout hal found.header).1 = false →
    (loadWrites defaults layout table hal memory this).2 =
      setValue defaults found.type (this - found.idx * 4)
        (getDefaultValue defaults this (defaults.defValue found))
  frame : ∀ other, ¬ (this - found.idx * 4 ≤ other ∧
      other < this - found.idx * 4 + typeSize found.type.code) →
    (load defaults layout table hal memory this).2.bytes other = memory.bytes other

end Load

/-! ### The object of a variable -/

/-- The object that a path of groups leads to. -/
def objectOf (memory : Memory) : Int → List Entry → Option Int
  | object, [] => some object
  | object, entry :: rest =>
    (nestedObject memory entry object).bind fun nested => objectOf memory nested rest

/-- The object that the variable is a member of stands where the offsets of the groups on the way
add up to. -/
def Found.AtSum (memory : Memory) (found : Found) : Prop :=
  ∀ base, getBase memory found.info = some base →
    objectOf memory base found.nesting = some (base + (found.nesting.map Entry.offset).sum)

section Object

variable {memory : Memory}

/-- The variables of a group table are members of the objects that their paths lead to. -/
theorem groupLeaves_object (vindex : Nat) (info : Info) (group : GroupInfo)
    (groupBase groupShift : Nat) (nesting : List Entry) (object : Option Int) :
    ∀ leaf ∈ groupLeaves memory vindex info group groupBase groupShift nesting object,
      ∃ deeper entry, leaf.nesting = nesting ++ deeper ∧ leaf.ginfo = some entry ∧
        leaf.address = (object.bind fun object => objectOf memory object deeper).map
          (· + entry.offset) := by
  induction group generalizing groupBase groupShift nesting object with
  | groupEnd => exact fun leaf member => absurd member List.not_mem_nil
  | element entry type rest restHypothesis =>
    intro leaf member
    rcases List.mem_cons.mp member with rfl | later
    · refine ⟨[], entry, (List.append_nil _).symm, rfl, ?_⟩
      cases object <;> rfl
    · exact restHypothesis _ _ _ _ leaf later
  | group row nested rest nestedHypothesis restHypothesis =>
    intro leaf member
    rcases List.mem_append.mp member with inside | later
    · obtain ⟨deeper, entry, path, own, place⟩ := nestedHypothesis _ _ _ _ leaf inside
      refine ⟨row :: deeper, entry, path.trans (List.append_cons _ _ _).symm, own, ?_⟩
      rw [place, Option.bind_assoc]
      rfl
    · exact restHypothesis _ _ _ _ leaf later
  | unset row rest restHypothesis => exact restHypothesis _ _ _ _

/-- Where a variable of a table is: at the top level, or in the object of its group. -/
theorem leaf_object {table : List Info} {leaf : Leaf} (member : leaf ∈ leaves table memory) :
    (leaf.ginfo = none ∧ leaf.nesting = [] ∧ leaf.address = getBase memory leaf.info) ∨
      ∃ entry, leaf.ginfo = some entry ∧
        leaf.address = ((getBase memory leaf.info).bind fun base =>
          objectOf memory base leaf.nesting).map (· + entry.offset) := by
  obtain ⟨place, info, -, here⟩ := mem_leavesFrom.mp member
  unfold rowLeaves at here
  cases kind : info.kind with
  | element type =>
    rw [kind] at here
    rw [List.mem_singleton.mp here]
    exact Or.inl ⟨rfl, rfl, rfl⟩
  | group groupInfo =>
    rw [kind] at here
    obtain ⟨deeper, entry, path, own, address⟩ := groupLeaves_object _ info groupInfo _ _ _ _ leaf here
    obtain ⟨sameInfo, -⟩ := groupLeaves_nesting _ _ info groupInfo _ _ _ _ leaf here
    rw [List.nil_append] at path
    exact Or.inr ⟨entry, own, by rw [sameInfo, path, address]⟩
  | unset =>
    rw [kind] at here
    exact absurd here List.not_mem_nil

theorem objectOf_nested (base : Int) (nesting : List Entry)
    (inside : ∀ entry ∈ nesting, entry.flags.testBit nestedOffsetFlag = true) :
    objectOf memory base nesting = some (base + (nesting.map Entry.offset).sum) := by
  induction nesting generalizing base with
  | nil => rw [objectOf, List.map_nil, List.sum_nil, Int.add_zero]
  | cons entry rest inductionHypothesis =>
    rw [objectOf, nestedObject, if_pos (inside entry List.mem_cons_self), Option.bind_some,
      inductionHypothesis _ fun other member => inside other (List.mem_cons_of_mem _ member),
      List.map_cons, List.sum_cons, Int.add_assoc]

end Object

/-! ### The main result -/

/-- A read yields no more bytes than it is asked for. -/
theorem readBlock_length (areas : List StorageArea) (type : StorageType) (hal : Image)
    (addr n : Nat) : (readBlock areas type hal addr n).2.length ≤ n := by
  have loop : ∀ (areas : List StorageArea) (addr n : Nat) (bytes : List UInt8),
      (blockLoop type (readTransfer hal) areas addr n bytes).2.length ≤ bytes.length + n := by
    intro areas
    induction areas with
    | nil => exact fun _ n bytes => Nat.le_add_right _ _
    | cons area rest inductionHypothesis =>
      intro addr n bytes
      rw [blockLoop]
      split
      · exact inductionHypothesis _ _ _
      · split
        · exact inductionHypothesis _ _ _
        · rename_i inside
          have count : ∀ count, count ≤ n →
              (readTransfer hal bytes (addr + area.offset) count).length = bytes.length + count := by
            intro count _
            rw [readTransfer, List.length_append, slice_length]
          have small : (if n % 2 ^ 8 + addr > area.length then (area.length - addr) % 2 ^ 8
              else n % 2 ^ 8) ≤ n := by
            split
            · have low := Nat.mod_le (area.length - addr) (2 ^ 8)
              have high := Nat.mod_le n (2 ^ 8)
              omega
            · exact Nat.mod_le _ _
          dsimp only
          generalize (if n % 2 ^ 8 + addr > area.length then (area.length - addr) % 2 ^ 8
              else n % 2 ^ 8) = piece at small ⊢
          split
          · rw [count piece small]
            omega
          · refine le_trans (inductionHypothesis _ _ _) ?_
            rw [count piece small]
            omega
  have whole := loop areas addr n []
  rw [List.length_nil, Nat.zero_add] at whole
  exact whole

section Main

variable {Value : Type} {defaults : Defaults Value} {layout : Layout} {table : List Info}
  {hal : Image} {memory : Memory} {this : Int} {found : Found}

theorem setValue_number {type : VarType} (number : type ≠ .vector3f) (ptr : Int) (value : Value) :
    setValue defaults type ptr value = [⟨ptr, defaults.bytes type value⟩] := by
  cases type with
  | vector3f => exact absurd rfl number
  | int8 | int16 | int32 | float => rfl

/-- Where a variable is that was found by its address. -/
theorem found_place (accepted : checkVarInfo table = true)
    (search : findVarInfo table memory this = some found) :
    (found.type ≠ .vector3f → found.idx = 0) ∧ ∃ base, getBase memory found.info = some base ∧
      ((found.ginfo = none ∧ found.nesting = [] ∧ this - found.idx * 4 = base) ∨
        ∃ entry object, found.ginfo = some entry ∧
          objectOf memory base found.nesting = some object ∧
          this - found.idx * 4 = object + entry.offset) := by
  obtain ⟨leaf, member, address, allocated, part, same⟩ := findVarInfo_leaf accepted search
  obtain ⟨place, inside⟩ := partOf_inside part
  have start : this - found.idx * 4 = address := by omega
  have sameType : found.type = leaf.type := by rw [same]; rfl
  have sameInfo : found.info = leaf.info := by rw [same]; rfl
  have sameRow : found.ginfo = leaf.ginfo := by rw [same]; rfl
  have samePath : found.nesting = leaf.nesting := by rw [same]; rfl
  rw [sameType, sameInfo, sameRow, samePath, start]
  refine ⟨fun number => ?_, ?_⟩
  · have small : typeSize leaf.type.code ≤ 4 := by
      revert number
      cases leaf.type <;> decide
    omega
  · rcases leaf_object member with ⟨ungrouped, top, own⟩ | ⟨entry, grouped, own⟩
    · exact ⟨address, own.symm.trans allocated, Or.inl ⟨ungrouped, top, rfl⟩⟩
    · rw [allocated] at own
      obtain ⟨object, reached, sum⟩ := Option.map_eq_some_iff.mp own.symm
      obtain ⟨base, here, path⟩ := Option.bind_eq_some_iff.mp reached
      exact ⟨base, here, Or.inr ⟨entry, object, grouped, path, sum.symm⟩⟩

theorem loadWrites_missing (accepted : checkVarInfo table = true)
    (search : findVarInfo table memory this = some found)
    (missing : (scan layout hal found.header).1 = false) :
    ∃ ptr, (loadWrites defaults layout table hal memory this).2 =
        setValue defaults found.type ptr
          (getDefaultValue defaults this (defaults.defValue found)) ∧
      (ptr = this - found.idx * 4 ↔ found.AtSum memory) := by
  obtain ⟨-, base, here, place⟩ := found_place accepted search
  have nothing : scan layout hal found.header = (false, (scan layout hal found.header).2) := by
    rw [← missing]
  unfold loadWrites Found.AtSum
  rw [search]
  simp only [here, Option.some.injEq, forall_eq']
  rw [nothing]
  rcases place with ⟨ungrouped, top, start⟩ | ⟨entry, object, grouped, path, start⟩
  · refine ⟨base, by simp only [ungrouped], ?_⟩
    rw [top, start]
    exact iff_of_true rfl (by rw [objectOf, List.map_nil, List.sum_nil, Int.add_zero])
  · refine ⟨base + entry.offset + (found.nesting.map Entry.offset).sum, by simp only [grouped], ?_⟩
    rw [start, path, Option.some.injEq]
    constructor
    · intro same
      omega
    · intro same
      omega

theorem loadWrites_stored (accepted : checkVarInfo table = true)
    (search : findVarInfo table memory this = some found) {ofs : Nat}
    (stored : scan layout hal found.header = (true, ofs)) :
    (loadWrites defaults layout table hal memory this).2 = [⟨this - found.idx * 4,
      (readBlock layout.areas .param hal (ofs + 4) (typeSize found.type.code)).2⟩] := by
  have whole : ¬ (found.type ≠ .vector3f ∧ found.idx ≠ 0) := fun part =>
    part.2 ((found_place accepted search).1 part.1)
  unfold loadWrites
  rw [search]
  dsimp only
  rw [stored]
  dsimp only
  rw [if_neg whole]

/-- Writes that lie in the variable change nothing else. -/
theorem load_frame (writes : List MemoryWrite) {start : Int} {size : Nat}
    (inside : ∀ write ∈ writes, write.address = start ∧ write.data.length ≤ size) {other : Int}
    (outside : ¬ (start ≤ other ∧ other < start + size)) :
    (runCalls Memory.apply memory writes).bytes other = memory.bytes other := by
  induction writes generalizing memory with
  | nil => rfl
  | cons write rest inductionHypothesis =>
    obtain ⟨place, fits⟩ := inside write List.mem_cons_self
    refine (inductionHypothesis fun later member =>
      inside later (List.mem_cons_of_mem _ member)).trans (if_neg ?_)
    omega

/-- A load writes to its own variable exactly when the variable is in storage, is a vector, or is a
member of an object that stands at the sum of the offsets of the groups on the way. -/
theorem loadsOwn_iff (defaults : Defaults Value) (layout : Layout) (table : List Info) (hal : Image)
    (memory : Memory) (this : Int) (found : Found) (accepted : checkVarInfo table = true)
    (search : findVarInfo table memory this = some found) :
    LoadsOwn defaults layout table hal memory this found ↔
      (scan layout hal found.header).1 = true ∨ found.type = .vector3f ∨ found.AtSum memory := by
  constructor
  · intro own
    cases stored : (scan layout hal found.header).1 with
    | true => exact Or.inl rfl
    | false =>
      refine Or.inr (or_iff_not_imp_left.mpr fun number => ?_)
      obtain ⟨ptr, writes, sum⟩ := @loadWrites_missing _ defaults _ _ _ _ _ _ accepted search stored
      have same := writes.symm.trans (own.missing stored)
      rw [setValue_number number, setValue_number number, List.cons.injEq,
        MemoryWrite.mk.injEq] at same
      exact sum.mp same.1.1
  · intro condition
    have missing : (scan layout hal found.header).1 = false →
        (loadWrites defaults layout table hal memory this).2 =
          setValue defaults found.type (this - found.idx * 4)
            (getDefaultValue defaults this (defaults.defValue found)) := by
      intro absent
      obtain ⟨ptr, writes, sum⟩ := @loadWrites_missing _ defaults _ _ _ _ _ _ accepted search absent
      rcases condition with stored | vector | atSum
      · rw [absent] at stored
        cases stored
      · rw [writes, vector]
        rfl
      · rw [writes, sum.mpr atSum]
    have inside : ∀ write ∈ (loadWrites defaults layout table hal memory this).2,
        write.address = this - found.idx * 4 ∧ write.data.length ≤ typeSize found.type.code := by
      intro write member
      cases result : scan layout hal found.header with
      | mk stored ofs =>
        cases stored with
        | true =>
          rw [loadWrites_stored accepted search result] at member
          rw [List.mem_singleton.mp member]
          exact ⟨rfl, readBlock_length _ _ _ _ _⟩
        | false =>
          rw [missing (by rw [result])] at member
          by_cases vector : found.type = .vector3f
          · rw [vector] at member
            exact absurd member List.not_mem_nil
          · rw [setValue_number vector] at member
            rw [List.mem_singleton.mp member]
            exact ⟨rfl, le_of_eq (defaults.length _ _)⟩
    exact ⟨fun ofs => loadWrites_stored accepted search, missing,
      fun other outside => load_frame _ inside outside⟩

end Main

/-- Every default value is 0, and no list overrides it. -/
def zeroDefaults : Defaults Unit where
  overrides := []
  defValue := fun _ => ()
  bytes := fun type _ => List.replicate (typeSize type.code) 0
  length := fun _ _ => List.length_replicate

/-- A number in a group that lies in the object around it. -/
theorem loadsOwn_nested : ∃ found, findVarInfo nestedTable (allocatedMemory 1) 2008 = some found ∧
    LoadsOwn zeroDefaults (Table.copter.layout 4096 (le_refl _)) nestedTable
      (eraseAll (Table.copter.layout 4096 (le_refl _)) fun _ => 0) (allocatedMemory 1) 2008 found := by
  refine ⟨_, rfl, (loadsOwn_iff zeroDefaults _ nestedTable _ (allocatedMemory 1) 2008 _ (by decide)
    rfl).mpr (Or.inr (Or.inr fun base _ => objectOf_nested base _ (by decide)))⟩

/-- A number behind a pointer. -/
def pointerTable : List Info := [
  ⟨['F'], 0, 1000, 0, .element .int8⟩,
  ⟨['G', '_'], 1, 2000, 0, .group
    (.group ⟨1, ['A'], 24, 2⟩ (.element ⟨1, ['P'], 4, 0⟩ .int16 .groupEnd) .groupEnd)⟩]

/-- The object of the group is at 3000, and the number at 3004. Its default value is written to
2028. -/
theorem not_loadsOwn_pointer : checkVarInfo pointerTable = true ∧
    ∃ found, findVarInfo pointerTable (allocatedMemory 1) 3004 = some found ∧
      (loadWrites zeroDefaults (Table.copter.layout 4096 (le_refl _)) pointerTable
        (eraseAll (Table.copter.layout 4096 (le_refl _)) fun _ => 0) (allocatedMemory 1) 3004).2 =
          [⟨2028, [0, 0]⟩] ∧
      ¬ LoadsOwn zeroDefaults (Table.copter.layout 4096 (le_refl _)) pointerTable
        (eraseAll (Table.copter.layout 4096 (le_refl _)) fun _ => 0) (allocatedMemory 1) 3004
        found := by
  have search : (findVarInfo pointerTable (allocatedMemory 1) 3004).isSome = true := by
    decide +kernel
  obtain ⟨found, same⟩ := Option.isSome_iff_exists.mp search
  have facts : found.header.Storable ∧ found.type = .int16 ∧ found.idx = 0 ∧
      found.nesting.map Entry.offset = [24] ∧ found.ginfo.map Entry.offset = some 4 ∧
      getBase (allocatedMemory 1) found.info = some 2000 := by
    revert found
    decide +kernel
  obtain ⟨storable, number, whole, path, grouped, base⟩ := facts
  obtain ⟨entry, own, offset⟩ := Option.map_eq_some_iff.mp grouped
  have empty : Holds (Table.copter.layout 4096 (le_refl _))
      (eraseAll (Table.copter.layout 4096 (le_refl _)) fun _ => 0) [] := eraseAll_holds (by decide)
  have missing := empty.scan_missing storable List.not_mem_nil
  have writes : (loadWrites zeroDefaults (Table.copter.layout 4096 (le_refl _)) pointerTable
      (eraseAll (Table.copter.layout 4096 (le_refl _)) fun _ => 0) (allocatedMemory 1) 3004).2 =
        [⟨2028, [0, 0]⟩] := by
    unfold loadWrites
    rw [same]
    dsimp only
    rw [missing, base]
    simp only [own, offset, path, number]
    rfl
  refine ⟨by decide, found, same, writes, fun loadsOwn => ?_⟩
  have elsewhere := writes.symm.trans (loadsOwn.missing (by rw [missing]))
  rw [number, whole, setValue_number (by decide), List.cons.injEq, MemoryWrite.mk.injEq] at elsewhere
  exact absurd elsewhere.1.1 (by decide)

end Urus.Param
