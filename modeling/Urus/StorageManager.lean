/-
This file models the storage manager: the layout tables that divide the board's
storage between parameters, fence, rally and mission points, and the accessor
through which each of them sees its own bytes.

A storage type owns several areas that need not be adjacent. The accessor walks
the whole layout with a running address, skips the areas of other types and splits
a block at every area boundary. The content of the file is that nothing of this is
visible: an accessor presents one flat array of `size` bytes, and a write through it
touches no byte of any other type. Everything follows from one property of the
layouts, that their areas are pairwise disjoint.
-/

import Urus.Lib.Bytes

namespace Urus.StorageManager

open Image

/-! ### Layouts -/

/-- The types of data kept in storage. -/
inductive StorageType
  | param
  | fence
  | rally
  | mission
  | keys
  | bindInfo
  deriving DecidableEq, Repr

/-- One area of the board's storage. -/
structure StorageArea where
  type : StorageType
  offset : Nat
  length : Nat
  deriving DecidableEq, Repr

/-- Two areas share no byte. -/
def StorageArea.Apart (first second : StorageArea) : Prop :=
  first.offset + first.length ≤ second.offset ∨ second.offset + second.length ≤ first.offset

instance (first second : StorageArea) : Decidable (first.Apart second) :=
  inferInstanceAs (Decidable (_ ∨ _))

/-- `STORAGE_NUM_AREAS` as the header derives it from the board's storage size. -/
def storageNumAreas (halStorageSize : Nat) : Nat :=
  if halStorageSize ≥ 16384 then 14 else if halStorageSize ≥ 8192 then 10 else 4

/-- The areas that both layouts add on boards with 8k of storage. -/
def extendedAreas : List StorageArea := [
  ⟨.param, 4096, 1280⟩,
  ⟨.rally, 5376, 300⟩,
  ⟨.fence, 5676, 256⟩,
  ⟨.mission, 5932, 2132⟩,
  ⟨.keys, 8064, 64⟩,
  ⟨.bindInfo, 8128, 56⟩]

/-- The areas that both layouts add on boards with 16k of storage. -/
def largeAreas : List StorageArea := [
  ⟨.param, 8192, 1280⟩,
  ⟨.rally, 9472, 300⟩,
  ⟨.fence, 9772, 256⟩,
  ⟨.mission, 10028, 6228⟩]

/-- The layout for fixed wing and rovers. -/
def layoutDefault (numAreas : Nat) : List StorageArea :=
  [⟨.param, 0, 1280⟩, ⟨.mission, 1280, 2506⟩, ⟨.rally, 3786, 150⟩, ⟨.fence, 3936, 160⟩] ++
    (if numAreas ≥ 8 then extendedAreas else []) ++ (if numAreas ≥ 12 then largeAreas else [])

/-- The layout for copter. -/
def layoutCopter (numAreas : Nat) : List StorageArea :=
  [⟨.param, 0, 1536⟩, ⟨.mission, 1536, 2422⟩, ⟨.rally, 3958, 90⟩, ⟨.fence, 4048, 48⟩] ++
    (if numAreas ≥ 8 then extendedAreas else []) ++ (if numAreas ≥ 12 then largeAreas else [])

/-- The bytes a type owns, counted without the width of the accessor's field. -/
def totalLength (type : StorageType) : List StorageArea → Nat
  | [] => 0
  | area :: rest => (if area.type = type then area.length else 0) + totalLength type rest

/-- A layout the accessors can work with: the areas share no byte and stay inside the
board's storage. -/
structure Layout where
  areas : List StorageArea
  halStorageSize : Nat
  disjoint : areas.Pairwise StorageArea.Apart
  inside : ∀ area ∈ areas, area.offset + area.length ≤ halStorageSize
  sizeFits : ∀ type, totalLength type areas < 2 ^ 16

/-- The two tables of the source, on a board with the given storage size. -/
inductive Table
  | default
  | copter
  deriving DecidableEq, Repr

/-- The rows of a table. -/
def Table.areas : Table → Nat → List StorageArea
  | .default, halStorageSize => layoutDefault (storageNumAreas halStorageSize)
  | .copter, halStorageSize => layoutCopter (storageNumAreas halStorageSize)

theorem storageNumAreas_cases (halStorageSize : Nat) (supported : 4096 ≤ halStorageSize) :
    (storageNumAreas halStorageSize = 14 ∧ 16384 ≤ halStorageSize) ∨
      (storageNumAreas halStorageSize = 10 ∧ 8192 ≤ halStorageSize) ∨
      (storageNumAreas halStorageSize = 4 ∧ 4096 ≤ halStorageSize) := by
  unfold storageNumAreas
  split
  · exact Or.inl ⟨rfl, by assumption⟩
  · split
    · exact Or.inr (Or.inl ⟨rfl, by assumption⟩)
    · exact Or.inr (Or.inr ⟨rfl, supported⟩)

/-- Each table is a layout on every supported board: a board with more storage only gets
more areas, and the new ones lie above the old ones. -/
def Table.layout (table : Table) (halStorageSize : Nat) (supported : 4096 ≤ halStorageSize) :
    Layout where
  areas := table.areas halStorageSize
  halStorageSize := halStorageSize
  disjoint := by
    rcases storageNumAreas_cases halStorageSize supported with ⟨count, _⟩ | ⟨count, _⟩ | ⟨count, _⟩ <;>
      cases table <;> simp only [Table.areas, count] <;> decide
  inside := by
    have bounded : ∀ limit, (∀ area ∈ table.areas halStorageSize,
        area.offset + area.length ≤ limit) → limit ≤ halStorageSize →
        ∀ area ∈ table.areas halStorageSize, area.offset + area.length ≤ halStorageSize :=
      fun limit below high area member => le_trans (below area member) high
    rcases storageNumAreas_cases halStorageSize supported with
      ⟨count, high⟩ | ⟨count, high⟩ | ⟨count, high⟩
    · refine bounded 16384 ?_ high
      cases table <;> simp only [Table.areas, count] <;> decide
    · refine bounded 8192 ?_ high
      cases table <;> simp only [Table.areas, count] <;> decide
    · refine bounded 4096 ?_ high
      cases table <;> simp only [Table.areas, count] <;> decide
  sizeFits := by
    intro type
    rcases storageNumAreas_cases halStorageSize supported with ⟨count, _⟩ | ⟨count, _⟩ | ⟨count, _⟩ <;>
      cases table <;> simp only [Table.areas, count] <;> cases type <;> decide

/-! ### The accessor -/

/-- The walk shared by `read_block` and `write_block`: visit the areas of one type, hand each
piece of the block that lies in an area to `transfer` as a physical address and a byte count,
and return the bytes that found no area. `count` is an 8 bit variable of the source. -/
def blockLoop {State : Type} (type : StorageType) (transfer : State → Nat → Nat → State) :
    List StorageArea → Nat → Nat → State → Nat × State
  | [], _, n, state => (n, state)
  | area :: rest, addr, n, state =>
    if area.type ≠ type then blockLoop type transfer rest addr n state
    else if addr ≥ area.length then blockLoop type transfer rest (addr - area.length) n state
    else
      let count := if n % 2 ^ 8 + addr > area.length then (area.length - addr) % 2 ^ 8 else n % 2 ^ 8
      let state := transfer state (addr + area.offset) count
      if n - count = 0 then (0, state) else blockLoop type transfer rest 0 (n - count) state

/-- `StorageAccess::size`, a 16 bit sum. -/
def size (type : StorageType) (areas : List StorageArea) : Nat :=
  areas.foldl (fun total area =>
    if area.type = type then (total + area.length) % 2 ^ 16 else total) 0

/-- One piece of a read: the board's bytes are appended at the destination pointer. -/
def readTransfer (hal : Image) (bytes : List UInt8) (address count : Nat) : List UInt8 :=
  bytes ++ slice hal address count

/-- One piece of a write: overwrite the board's bytes and move the source pointer behind them. -/
def writeTransfer (state : Image × List UInt8) (address count : Nat) : Image × List UInt8 :=
  (put state.1 address (state.2.take count), state.2.drop count)

/-- `StorageAccess::read_block`: whether the whole block was read, and the bytes stored at the
destination. -/
def readBlock (areas : List StorageArea) (type : StorageType) (hal : Image) (addr n : Nat) :
    Bool × List UInt8 :=
  let (left, bytes) := blockLoop type (readTransfer hal) areas addr n []
  (left == 0, bytes)

/-- `StorageAccess::write_block`: whether the whole block was written, and the board's storage
after it. -/
def writeBlock (areas : List StorageArea) (type : StorageType) (hal : Image) (addr : Nat)
    (data : List UInt8) : Bool × Image :=
  let (left, state) := blockLoop type writeTransfer areas addr data.length (hal, data)
  (left == 0, state.1)

/-! ### The flat array -/

/-- The abstract view of one type: its areas laid end to end. -/
def flat (type : StorageType) (hal : Image) : List StorageArea → Image
  | [] => fun _ => 0
  | area :: rest => fun address =>
    if area.type = type then
      if address < area.length then hal (area.offset + address)
      else flat type hal rest (address - area.length)
    else flat type hal rest address

/-- The physical addresses a type owns. -/
def Owns (type : StorageType) (areas : List StorageArea) (address : Nat) : Prop :=
  ∃ area ∈ areas, area.type = type ∧ area.offset ≤ address ∧ address < area.offset + area.length

theorem size_foldl (type : StorageType) (areas : List StorageArea) (total : Nat)
    (fits : total + totalLength type areas < 2 ^ 16) :
    areas.foldl (fun total area =>
      if area.type = type then (total + area.length) % 2 ^ 16 else total) total =
      total + totalLength type areas := by
  induction areas generalizing total with
  | nil => rfl
  | cons area rest inductionHypothesis =>
    simp only [List.foldl_cons, totalLength] at fits ⊢
    by_cases same : area.type = type
    · simp only [if_pos same] at fits ⊢
      rw [Nat.mod_eq_of_lt (by omega), inductionHypothesis _ (by omega)]
      omega
    · simp only [if_neg same] at fits ⊢
      rw [inductionHypothesis _ (by omega)]
      omega

/-- The accessor's 16 bit size is the number of bytes its type owns. -/
theorem size_eq (layout : Layout) (type : StorageType) :
    size type layout.areas = totalLength type layout.areas := by
  have fits := layout.sizeFits type
  rw [size, size_foldl type layout.areas 0 (by omega), Nat.zero_add]

/-! ### The walk -/

section Walk

variable {State : Type} (type : StorageType) (transfer : State → Nat → Nat → State)

/-- A block of at most 255 bytes is transferred completely exactly when it ends inside the
type's bytes. -/
theorem blockLoop_left (areas : List StorageArea) (addr n : Nat) (state : State)
    (positive : 1 ≤ n) (short : n ≤ 255) :
    (blockLoop type transfer areas addr n state).1 = 0 ↔ addr + n ≤ totalLength type areas := by
  induction areas generalizing addr n state with
  | nil =>
    simp only [blockLoop, totalLength]
    omega
  | cons area rest inductionHypothesis =>
    simp only [blockLoop, totalLength]
    by_cases same : area.type = type
    · rw [if_neg (not_not.mpr same), if_pos same]
      by_cases beyond : addr ≥ area.length
      · rw [if_pos beyond, inductionHypothesis _ _ _ positive short]
        omega
      · rw [if_neg beyond, Nat.mod_eq_of_lt (show n < 2 ^ 8 by omega)]
        by_cases crosses : n + addr > area.length
        · rw [if_pos crosses, Nat.mod_eq_of_lt (show area.length - addr < 2 ^ 8 by omega),
            if_neg (by omega), inductionHypothesis _ _ _ (by omega) (by omega)]
          omega
        · rw [if_neg crosses, if_pos (by omega)]
          simp only [true_iff]
          omega
    · rw [if_pos same, if_neg same, inductionHypothesis _ _ _ positive short, Nat.zero_add]

theorem blockLoop_behind (areas : List StorageArea) (addr n : Nat) (state : State)
    (behind : totalLength type areas ≤ addr) :
    blockLoop type transfer areas addr n state = (n, state) := by
  induction areas generalizing addr with
  | nil => rfl
  | cons area rest inductionHypothesis =>
    simp only [totalLength] at behind
    rw [blockLoop]
    by_cases same : area.type = type
    · rw [if_pos same] at behind
      rw [if_neg (not_not.mpr same), if_pos (by omega)]
      exact inductionHypothesis _ (by omega)
    · rw [if_neg same, Nat.zero_add] at behind
      rw [if_pos same]
      exact inductionHypothesis _ behind

end Walk

/-! ### Reading -/

theorem blockLoop_read (type : StorageType) (hal : Image) (areas : List StorageArea)
    (addr n : Nat) (bytes : List UInt8) (positive : 1 ≤ n) (short : n ≤ 255)
    (inside : addr + n ≤ totalLength type areas) :
    (blockLoop type (readTransfer hal) areas addr n bytes).2 = bytes ++ slice (flat type hal areas) addr n := by
  induction areas generalizing addr n bytes with
  | nil =>
    simp only [totalLength] at inside
    omega
  | cons area rest inductionHypothesis =>
    simp only [totalLength] at inside
    simp only [blockLoop, readTransfer]
    by_cases same : area.type = type
    · rw [if_pos same] at inside
      rw [if_neg (not_not.mpr same)]
      by_cases beyond : addr ≥ area.length
      · rw [if_pos beyond, inductionHypothesis _ _ _ positive short (by omega)]
        refine congrArg _ (List.map_congr_left fun index _ => ?_)
        simp only [flat, if_pos same]
        rw [if_neg (by omega)]
        congr 1
        omega
      · have firstPart : ∀ count, addr + count ≤ area.length →
            slice hal (addr + area.offset) count = slice (flat type hal (area :: rest)) addr count := by
          intro count bound
          refine List.map_congr_left fun index member => ?_
          have indexBound := List.mem_range.mp member
          simp only [flat, if_pos same]
          rw [if_pos (by omega)]
          congr 1
          omega
        rw [if_neg beyond, Nat.mod_eq_of_lt (show n < 2 ^ 8 by omega)]
        by_cases crosses : n + addr > area.length
        · rw [if_pos crosses, Nat.mod_eq_of_lt (show area.length - addr < 2 ^ 8 by omega),
            if_neg (by omega), inductionHypothesis _ _ _ (by omega) (by omega) (by omega),
            firstPart _ (by omega), List.append_assoc]
          have split := slice_add (flat type hal (area :: rest)) addr (area.length - addr)
            (n - (area.length - addr))
          rw [show area.length - addr + (n - (area.length - addr)) = n by omega] at split
          rw [split]
          refine congrArg _ (congrArg _ (List.map_congr_left fun index _ => ?_))
          simp only [flat, if_pos same]
          rw [if_neg (by omega)]
          congr 1
          omega
        · rw [if_neg crosses, if_pos (by omega), firstPart _ (by omega)]
    · rw [if_neg same, Nat.zero_add] at inside
      rw [if_pos same, inductionHypothesis _ _ _ positive short inside]
      refine congrArg _ (List.map_congr_left fun index _ => ?_)
      simp only [flat, if_neg same]

/-- A read in range returns the flat array's bytes. -/
theorem readBlock_flat (areas : List StorageArea) (type : StorageType) (hal : Image) (addr n : Nat)
    (positive : 1 ≤ n) (short : n ≤ 255) (inside : addr + n ≤ totalLength type areas) :
    readBlock areas type hal addr n = (true, slice (flat type hal areas) addr n) := by
  have complete := (blockLoop_left type (readTransfer hal) areas addr n [] positive short).mpr inside
  have bytes := blockLoop_read type hal areas addr n [] positive short inside
  simp only [readBlock, complete, bytes, List.nil_append, BEq.rfl]

theorem blockLoop_read_congr (type : StorageType) (first second : Image)
    (areas : List StorageArea) (addr n : Nat) (bytes : List UInt8)
    (agree : ∀ address, Owns type areas address → first address = second address) :
    blockLoop type (readTransfer first) areas addr n bytes =
      blockLoop type (readTransfer second) areas addr n bytes := by
  induction areas generalizing addr n bytes with
  | nil => rfl
  | cons area rest inductionHypothesis =>
    have agreeRest : ∀ address, Owns type rest address → first address = second address := by
      rintro address ⟨owner, member, owned⟩
      exact agree address ⟨owner, List.mem_cons_of_mem _ member, owned⟩
    simp only [blockLoop, readTransfer]
    by_cases same : area.type = type
    · rw [if_neg (not_not.mpr same), if_neg (not_not.mpr same)]
      by_cases beyond : addr ≥ area.length
      · rw [if_pos beyond, if_pos beyond, inductionHypothesis _ _ _ agreeRest]
      · rw [if_neg beyond, if_neg beyond]
        have piece : ∀ count, addr + count ≤ area.length →
            slice first (addr + area.offset) count = slice second (addr + area.offset) count := by
          intro count bound
          refine slice_congr fun address low high => ?_
          exact agree address ⟨area, List.mem_cons_self, same, by omega, by omega⟩
        by_cases crosses : n % 2 ^ 8 + addr > area.length
        · have smaller : (area.length - addr) % 2 ^ 8 ≤ area.length - addr := Nat.mod_le _ _
          rw [if_pos crosses, piece _ (by omega), inductionHypothesis _ _ _ agreeRest]
        · rw [if_neg crosses, piece _ (by omega), inductionHypothesis _ _ _ agreeRest]
    · rw [if_pos same, if_pos same, inductionHypothesis _ _ _ agreeRest]

theorem readBlock_congr (areas : List StorageArea) (type : StorageType) (first second : Image)
    (addr n : Nat)
    (agree : ∀ address, Owns type areas address → first address = second address) :
    readBlock areas type first addr n = readBlock areas type second addr n := by
  simp only [readBlock, blockLoop_read_congr type first second areas addr n [] agree]

/-! ### Writing -/

theorem writeBlock_eq (areas : List StorageArea) (type : StorageType) (hal : Image) (addr : Nat)
    (data : List UInt8) :
    writeBlock areas type hal addr data =
      ((blockLoop type writeTransfer areas addr data.length (hal, data)).1 == 0,
        (blockLoop type writeTransfer areas addr data.length (hal, data)).2.1) := rfl

theorem blockLoop_write_frame (type : StorageType) (areas : List StorageArea) (addr n : Nat)
    (hal : Image) (data : List UInt8) (address : Nat) (foreign : ¬ Owns type areas address) :
    (blockLoop type writeTransfer areas addr n (hal, data)).2.1 address = hal address := by
  induction areas generalizing addr n hal data with
  | nil => rfl
  | cons area rest inductionHypothesis =>
    have foreignRest : ¬ Owns type rest address := by
      rintro ⟨owner, member, owned⟩
      exact foreign ⟨owner, List.mem_cons_of_mem _ member, owned⟩
    simp only [blockLoop]
    by_cases same : area.type = type
    · rw [if_neg (not_not.mpr same)]
      by_cases beyond : addr ≥ area.length
      · rw [if_pos beyond, inductionHypothesis _ _ _ _ foreignRest]
      · have outside : address < area.offset ∨ area.offset + area.length ≤ address := by
          by_contra inside
          exact foreign ⟨area, List.mem_cons_self, same, by omega, by omega⟩
        have piece : ∀ count, addr + count ≤ area.length →
            put hal (addr + area.offset) (data.take count) address = hal address := by
          intro count bound
          have short := List.length_take_le count data
          exact put_outside _ _ _ _ (by omega)
        rw [if_neg beyond]
        by_cases crosses : n % 2 ^ 8 + addr > area.length
        · have smaller : (area.length - addr) % 2 ^ 8 ≤ area.length - addr := Nat.mod_le _ _
          rw [if_pos crosses]
          split
          · exact piece _ (by omega)
          · rw [writeTransfer, inductionHypothesis _ _ _ _ foreignRest, piece _ (by omega)]
        · rw [if_neg crosses]
          split
          · exact piece _ (by omega)
          · rw [writeTransfer, inductionHypothesis _ _ _ _ foreignRest, piece _ (by omega)]
    · rw [if_pos same, inductionHypothesis _ _ _ _ foreignRest]

theorem flat_congr (type : StorageType) (first second : Image) (areas : List StorageArea)
    (agree : ∀ address, Owns type areas address → first address = second address) :
    flat type first areas = flat type second areas := by
  induction areas with
  | nil => rfl
  | cons area rest inductionHypothesis =>
    funext address
    have agreeRest : ∀ address, Owns type rest address → first address = second address := by
      rintro address ⟨owner, member, owned⟩
      exact agree address ⟨owner, List.mem_cons_of_mem _ member, owned⟩
    simp only [flat, inductionHypothesis agreeRest]
    by_cases same : area.type = type
    · by_cases inside : address < area.length
      · rw [if_pos same, if_pos inside, if_pos same, if_pos inside]
        exact agree _ ⟨area, List.mem_cons_self, same, by omega, by omega⟩
      · rw [if_pos same, if_neg inside, if_pos same, if_neg inside]
    · rw [if_neg same, if_neg same]

theorem not_owns_of_apart (type : StorageType) (area : StorageArea) (rest : List StorageArea)
    (apart : ∀ other ∈ rest, area.Apart other) (address : Nat) (low : area.offset ≤ address)
    (high : address < area.offset + area.length) : ¬ Owns type rest address := by
  rintro ⟨other, member, _, lower, upper⟩
  have separate := apart other member
  unfold StorageArea.Apart at separate
  omega

variable {area : StorageArea} {data : List UInt8} {rest : List StorageArea} {type : StorageType}

theorem flat_put_first (same : area.type = type) (apart : ∀ other ∈ rest, area.Apart other)
    (hal : Image) {addr : Nat} (fits : addr + data.length ≤ area.length) :
    flat type (put hal (addr + area.offset) data) (area :: rest) =
      put (flat type hal (area :: rest)) addr data := by
  have unowned := not_owns_of_apart type area rest apart
  funext address
  by_cases early : address < area.length
  · simp only [flat, put, if_pos same, if_pos early]
    by_cases hit : addr ≤ address ∧ address < addr + data.length
    · rw [if_pos (by omega), if_pos hit]
      congr 1
      omega
    · rw [if_neg (by omega), if_neg hit]
  · rw [put_outside _ _ _ _ (by omega)]
    simp only [flat, if_pos same, if_neg early]
    refine congrFun (flat_congr type _ _ rest fun physical owned => ?_) _
    refine put_outside _ _ _ _ ?_
    by_contra overlap
    exact unowned physical (by omega) (by omega) owned

theorem flat_put_rest (same : area.type = type) {hal hal' : Image} {start : Nat}
    (untouched : ∀ address, area.offset ≤ address → address < area.offset + area.length → hal' address = hal address)
    (written : flat type hal' rest = put (flat type hal rest) start data) :
    flat type hal' (area :: rest) =
      put (flat type hal (area :: rest)) (area.length + start) data := by
  funext address
  by_cases early : address < area.length
  · rw [put_outside _ _ _ _ (by omega)]
    simp only [flat, if_pos same, if_pos early]
    exact untouched _ (by omega) (by omega)
  · simp only [flat, if_pos same, if_neg early, written, put]
    by_cases hit : area.length + start ≤ address ∧ address < area.length + start + data.length
    · rw [if_pos (by omega), if_pos hit, Nat.sub_sub]
    · rw [if_neg (by omega), if_neg hit]

/-- A write of at most 255 bytes in range updates the flat array at the written addresses. -/
theorem blockLoop_write (type : StorageType) (areas : List StorageArea)
    (disjoint : areas.Pairwise StorageArea.Apart) (addr : Nat) (hal : Image) (data : List UInt8)
    (positive : 1 ≤ data.length) (short : data.length ≤ 255)
    (inside : addr + data.length ≤ totalLength type areas) :
    flat type (blockLoop type writeTransfer areas addr data.length (hal, data)).2.1 areas =
      put (flat type hal areas) addr data := by
  induction areas generalizing addr hal data with
  | nil =>
    simp only [totalLength] at inside
    omega
  | cons area rest inductionHypothesis =>
    obtain ⟨apart, disjointRest⟩ := List.pairwise_cons.mp disjoint
    have unowned := not_owns_of_apart type area rest apart
    simp only [totalLength] at inside
    simp only [blockLoop]
    by_cases same : area.type = type
    · rw [if_pos same] at inside
      rw [if_neg (not_not.mpr same)]
      by_cases beyond : addr ≥ area.length
      · -- the block starts behind this area, which the rest of the walk does not touch
        rw [if_pos beyond, flat_put_rest same
          (fun address low high => blockLoop_write_frame type rest _ _ _ _ _ (unowned _ low high))
          (inductionHypothesis disjointRest _ _ _ positive short (by omega)),
          Nat.add_sub_cancel' beyond]
      · rw [if_neg beyond, Nat.mod_eq_of_lt (show data.length < 2 ^ 8 by omega)]
        by_cases crosses : data.length + addr > area.length
        · -- the block fills the end of this area and continues at the start of the next one
          rw [if_pos crosses, Nat.mod_eq_of_lt (show area.length - addr < 2 ^ 8 by omega),
            if_neg (by omega), writeTransfer]
          have taken : (data.take (area.length - addr)).length = area.length - addr := by
            rw [List.length_take]
            omega
          have dropped : (data.drop (area.length - addr)).length =
              data.length - (area.length - addr) := List.length_drop
          have reached : area.length + 0 = addr + (data.take (area.length - addr)).length := by
            omega
          have first := flat_put_first same apart hal reached.ge
          dsimp only
          rw [← dropped, flat_put_rest same
            (fun address low high => blockLoop_write_frame type rest _ _ _ _ _ (unowned _ low high))
            (inductionHypothesis disjointRest _ _ _ (by omega) (by omega) (by omega)),
            first, reached, put_append, List.take_append_drop]
        · -- the block ends inside this area
          rw [if_neg crosses, if_pos (by omega), writeTransfer, List.take_length]
          exact flat_put_first same apart hal (by omega)
    · rw [if_neg same, Nat.zero_add] at inside
      rw [if_pos same]
      funext address
      simp only [flat, if_neg same]
      rw [inductionHypothesis disjointRest _ _ _ positive short inside]

/-- Two types own no byte in common. -/
theorem not_owns_of_owns (areas : List StorageArea) (disjoint : areas.Pairwise StorageArea.Apart)
    (first second : StorageType) (different : first ≠ second) (address : Nat)
    (owned : Owns first areas address) : ¬ Owns second areas address := by
  induction areas with
  | nil =>
    obtain ⟨area, member, _⟩ := owned
    exact absurd member List.not_mem_nil
  | cons area rest inductionHypothesis =>
    obtain ⟨apart, disjointRest⟩ := List.pairwise_cons.mp disjoint
    obtain ⟨owner, member, ownerType, low, high⟩ := owned
    rintro ⟨other, otherMember, otherType, lower, upper⟩
    rcases List.mem_cons.mp member with rfl | inRest
    · rcases List.mem_cons.mp otherMember with rfl | otherRest
      · exact different (ownerType.symm.trans otherType)
      · exact not_owns_of_apart second owner rest apart address low high
          ⟨other, otherRest, otherType, lower, upper⟩
    · rcases List.mem_cons.mp otherMember with rfl | otherRest
      · exact not_owns_of_apart first other rest apart address lower upper
          ⟨owner, inRest, ownerType, low, high⟩
      · exact inductionHypothesis disjointRest ⟨owner, inRest, ownerType, low, high⟩
          ⟨other, otherRest, otherType, lower, upper⟩

/-! ### One flat array per type -/

/-- A write in range succeeds and is the update of the flat array. -/
theorem writeBlock_flat (layout : Layout) (type : StorageType) (hal : Image) (addr : Nat)
    (data : List UInt8) (positive : 1 ≤ data.length) (short : data.length ≤ 255)
    (inside : addr + data.length ≤ size type layout.areas) :
    (writeBlock layout.areas type hal addr data).1 = true ∧
      flat type (writeBlock layout.areas type hal addr data).2 layout.areas =
        put (flat type hal layout.areas) addr data := by
  rw [size_eq] at inside
  have complete := (blockLoop_left type writeTransfer layout.areas addr data.length (hal, data)
    positive short).mpr inside
  rw [writeBlock_eq]
  refine ⟨by rw [complete]; rfl, ?_⟩
  exact blockLoop_write type layout.areas layout.disjoint addr hal data positive short inside

/-- Every accessor is a flat array of its own: on both layouts and every board, a write of 1 to
255 bytes in range succeeds, every later read of its type sees the flat array after that update,
no read of another type and no byte outside the type's areas changes, and a block that ends
beyond the accessor's size is refused by both operations. -/
theorem storageAccess_flat_array (table : Table) (halStorageSize : Nat)
    (supported : 4096 ≤ halStorageSize) (type : StorageType) (hal : Image) (addr : Nat)
    (data : List UInt8) (positive : 1 ≤ data.length) (short : data.length ≤ 255) :
    (addr + data.length ≤ size type (table.areas halStorageSize) →
      (writeBlock (table.areas halStorageSize) type hal addr data).1 = true ∧
      (∀ addr' n', 1 ≤ n' → n' ≤ 255 → addr' + n' ≤ size type (table.areas halStorageSize) →
        readBlock (table.areas halStorageSize) type
            (writeBlock (table.areas halStorageSize) type hal addr data).2 addr' n' =
          (true, slice (put (flat type hal (table.areas halStorageSize)) addr data) addr' n')) ∧
      (∀ other, other ≠ type → ∀ addr' n',
        readBlock (table.areas halStorageSize) other
            (writeBlock (table.areas halStorageSize) type hal addr data).2 addr' n' =
          readBlock (table.areas halStorageSize) other hal addr' n') ∧
      (∀ address, ¬ Owns type (table.areas halStorageSize) address →
        (writeBlock (table.areas halStorageSize) type hal addr data).2 address = hal address)) ∧
    (size type (table.areas halStorageSize) < addr + data.length →
      (readBlock (table.areas halStorageSize) type hal addr data.length).1 = false ∧
      (writeBlock (table.areas halStorageSize) type hal addr data).1 = false) := by
  let layout := table.layout halStorageSize supported
  have sizeEq : size type (table.areas halStorageSize) =
      totalLength type (table.areas halStorageSize) := size_eq layout type
  have frame : ∀ address, ¬ Owns type (table.areas halStorageSize) address →
      (writeBlock (table.areas halStorageSize) type hal addr data).2 address = hal address := by
    intro address foreign
    rw [writeBlock_eq]
    exact blockLoop_write_frame type _ _ _ _ _ _ foreign
  constructor
  · intro inside
    obtain ⟨success, updated⟩ := writeBlock_flat layout type hal addr data positive short inside
    refine ⟨success, fun addr' n' positive' short' inside' => ?_, fun other different addr' n' => ?_,
      frame⟩
    · rw [sizeEq] at inside'
      rw [readBlock_flat _ type _ addr' n' positive' short' inside']
      exact congrArg (fun image => (true, slice image addr' n')) updated
    · refine readBlock_congr _ other _ _ addr' n' fun address owned => frame address ?_
      exact not_owns_of_owns _ layout.disjoint other type different address owned
  · intro beyond
    rw [sizeEq] at beyond
    have incomplete : ∀ {State : Type} (transfer : State → Nat → Nat → State) (state : State),
        (blockLoop type transfer (table.areas halStorageSize) addr data.length state).1 ≠ 0 := by
      intro State transfer state complete
      have inside := (blockLoop_left type transfer _ addr data.length state positive short).mp complete
      omega
    refine ⟨?_, ?_⟩
    · simp only [readBlock, beq_eq_false_iff_ne]
      exact incomplete _ _
    · rw [writeBlock_eq]
      simp only [beq_eq_false_iff_ne]
      exact incomplete _ _

/-- A mission block that starts in the first area of the copter layout and ends in the second,
and one that would end one byte behind the last area. -/
theorem storageAccess_flat_array_crossing :
    (writeBlock (Table.copter.areas 8192) .mission (fun _ => 0) 2420 [1, 2, 3, 4]).1 = true ∧
      readBlock (Table.copter.areas 8192) .mission
        (writeBlock (Table.copter.areas 8192) .mission (fun _ => 0) 2420 [1, 2, 3, 4]).2 2421 2 =
        (true, [2, 3]) ∧
      (writeBlock (Table.copter.areas 8192) .mission (fun _ => 0) 4551 [1, 2, 3, 4]).1 = false := by
  have result := (storageAccess_flat_array .copter 8192 (by decide) .mission (fun _ => 0) 2420
    [1, 2, 3, 4] (by decide) (by decide)).1 (by decide)
  refine ⟨result.1, ?_, ?_⟩
  · rw [result.2.1 2421 2 (by decide) (by decide) (by decide)]
    decide
  · exact ((storageAccess_flat_array .copter 8192 (by decide) .mission (fun _ => 0) 4551
      [1, 2, 3, 4] (by decide) (by decide)).2 (by decide)).2

end Urus.StorageManager
