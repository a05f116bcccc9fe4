/-
This file is about the load of an object that is allocated late. Its variables are loaded
from storage one by one: for every row of its group table the records are gone through
until one leads to the address of the row in the object, and for a subgroup the load
begins again with the object of the subgroup.

Where a variable is depends on the top level row that leads to the object. The load asks
for the key of that row, and then takes the key for the number of the row. So an object
behind a pointer in the object is looked for at an offset from another variable, or from
what lies behind the table. The load is right where this makes no difference.
-/

import Urus.Param.RoundTrip

namespace Urus.Param

open Image StorageManager

/-! ### The key of an object -/

section Key

variable (memory : Memory) (ptr : Int)

/-- What a row of a group leads to is the object that is looked for. -/
def refersTo (base : Int) (entry : Entry) (offset : Int) : Bool :=
  if entry.flags.testBit pointerFlag then
    decide (ptr = memory.pointers (base + entry.offset + offset))
  else decide (ptr = base + entry.offset + offset)

/-- `find_key_by_pointer_group`, from a row on. -/
def findKeyByPointerGroup (info : Info) : GroupInfo → (offset : Int) → Option Nat
  | .groupEnd, _ => none
  | .element _ _ rest, offset => findKeyByPointerGroup info rest offset
  | .unset entry rest, offset =>
    match getBase memory info with
    | none => findKeyByPointerGroup info rest offset
    | some base =>
      if refersTo memory ptr base entry offset then some info.key
      else findKeyByPointerGroup info rest offset
  | .group entry nested rest, offset =>
    match getBase memory info with
    | none => findKeyByPointerGroup info rest offset
    | some base =>
      if refersTo memory ptr base entry offset then some info.key
      else
        match adjustGroupOffset memory (some base) entry offset with
        | none => findKeyByPointerGroup info rest offset
        | some newOffset =>
          match findKeyByPointerGroup info nested newOffset with
          | some key => some key
          | none => findKeyByPointerGroup info rest offset

/-- `find_key_by_pointer`, from a row on. -/
def findKeyByPointer : List Info → Option Nat
  | [] => none
  | info :: rest =>
    match info.kind with
    | .element _ => findKeyByPointer rest
    | .unset =>
      if info.flags.testBit pointerFlag ∧ ptr = memory.pointers info.ptr then some info.key
      else findKeyByPointer rest
    | .group groupInfo =>
      if info.flags.testBit pointerFlag ∧ ptr = memory.pointers info.ptr then some info.key
      else
        match findKeyByPointerGroup memory ptr info groupInfo 0 with
        | some key => some key
        | none => findKeyByPointer rest

end Key

/-! ### Loading an object -/

/-- `adjust_group_offset` for the top level row with a number. It has no result where a row behind
the table would be read. -/
def adjustAt (table : List Info) (memory : Memory) (vindex : Nat) (entry : Entry) :
    Option (Option Int) :=
  if entry.flags.testBit nestedOffsetFlag = false ∧ entry.flags.testBit pointerFlag = true then
    table[vindex]?.map fun info => adjustGroupOffset memory (getBase memory info) entry 0
  else some (adjustGroupOffset memory none entry 0)

section Load

variable (layout : Layout) (table : List Info) (hal : Image)

/-- The loop over the records for one row: the header that was read last, and the memory. -/
def loadFieldFrom (key : Nat) (address : Int) : (fuel : Nat) → (older : Header) → (ofs : Nat) →
    Memory → Header × Memory
  | 0, older, _, memory => (older, memory)
  | fuel + 1, older, ofs, memory =>
    if ofs < storageSize layout then
      let header := readHeader layout hal older ofs
      if isSentinal header then (header, memory)
      else if getKey header = key ∧
          (findByHeader table memory header).map Prod.snd = some address then
        (header, memory.write address
          (readBlock layout.areas .param hal (ofs + 4) (typeSize header.type.val)).2)
      else loadFieldFrom key address fuel header (ofs + (typeSize header.type.val + 4)) memory
    else (older, memory)

/-- The part of `load_object_from_eeprom` behind the search for the key, from a row on. It has no
result where a row behind the top level table would be read. -/
def loadRows : GroupInfo → (key : Nat) → (object : Int) → (older : Header) → Memory → Option Memory
  | .groupEnd, _, _, _, memory => some memory
  | .element entry _ rest, key, object, older, memory =>
    let (older, memory) := loadFieldFrom layout table hal key (object + entry.offset)
      (storageSize layout) older 4 memory
    loadRows rest key object older memory
  | .unset entry rest, key, object, older, memory =>
    match adjustAt table memory key entry with
    | none => none
    | some none => loadRows rest key object older memory
    | some (some _) =>
      let (older, memory) := loadFieldFrom layout table hal key (object + entry.offset)
        (storageSize layout) older 4 memory
      loadRows rest key object older memory
  | .group entry nested rest, key, object, older, memory =>
    match adjustAt table memory key entry with
    | none => none
    | some none => loadRows rest key object older memory
    | some (some newOffset) =>
      let loaded :=
        match findKeyByPointer memory (object + newOffset) table with
        | none => some memory
        | some nestedKey =>
          loadRows nested nestedKey (object + newOffset) (Header.ofWord 0) memory
      loaded.bind fun memory =>
        let (older, memory) := loadFieldFrom layout table hal key (object + entry.offset)
          (storageSize layout) older 4 memory
        loadRows rest key object older memory

/-- `load_object_from_eeprom`. The header that the loops read into is not initialised. -/
def loadObject (memory : Memory) (object : Int) (group : GroupInfo) : Option Memory :=
  match findKeyByPointer memory object table with
  | none => some memory
  | some key => loadRows layout table hal group key object (Header.ofWord 0) memory

end Load

/-! ### What the searches depend on -/

section Congr

variable {memory memory' : Memory} (same : memory'.pointers = memory.pointers)
include same

theorem adjustGroupOffset_congr (base : Option Int) (entry : Entry) (newOffset : Int) :
    adjustGroupOffset memory' base entry newOffset =
      adjustGroupOffset memory base entry newOffset := by
  unfold adjustGroupOffset
  rw [same]

theorem adjustAt_congr (table : List Info) (vindex : Nat) (entry : Entry) :
    adjustAt table memory' vindex entry = adjustAt table memory vindex entry := by
  unfold adjustAt
  simp only [adjustGroupOffset_congr same, getBase_congr same]

theorem findByHeaderGroup_congr (header : Header) (base : Option Int) (group : GroupInfo)
    (groupBase groupShift : Nat) (offset : Int) :
    findByHeaderGroup memory' header base group groupBase groupShift offset =
      findByHeaderGroup memory header base group groupBase groupShift offset := by
  induction group generalizing groupBase groupShift offset with
  | groupEnd => rfl
  | element entry type rest restHypothesis =>
    unfold findByHeaderGroup
    cases base <;> simp only [restHypothesis]
  | group entry nested rest nestedHypothesis restHypothesis =>
    unfold findByHeaderGroup
    simp only [adjustGroupOffset_congr same, nestedHypothesis, restHypothesis]
  | unset entry rest restHypothesis =>
    unfold findByHeaderGroup
    simp only [restHypothesis]

/-- The search by header depends on the pointers only. -/
theorem findByHeader_congr (table : List Info) (header : Header) :
    findByHeader table memory' header = findByHeader table memory header := by
  have rows : ∀ vindex, findByHeaderFrom memory' header vindex table =
      findByHeaderFrom memory header vindex table := by
    induction table with
    | nil => exact fun vindex => rfl
    | cons info rest inductionHypothesis =>
      intro vindex
      unfold findByHeaderFrom
      simp only [inductionHypothesis, findByHeaderGroup_congr same, getBase_congr same]
  exact rows 0

theorem findKeyByPointerGroup_congr (ptr : Int) (info : Info) (group : GroupInfo) (offset : Int) :
    findKeyByPointerGroup memory' ptr info group offset =
      findKeyByPointerGroup memory ptr info group offset := by
  have refers : refersTo memory' ptr = refersTo memory ptr := by
    funext base entry offset
    rw [refersTo, refersTo, same]
  induction group generalizing offset with
  | groupEnd => rfl
  | element entry type rest restHypothesis => exact restHypothesis offset
  | group entry nested rest nestedHypothesis restHypothesis =>
    unfold findKeyByPointerGroup
    simp only [getBase_congr same, adjustGroupOffset_congr same, refers, nestedHypothesis,
      restHypothesis]
  | unset entry rest restHypothesis =>
    unfold findKeyByPointerGroup
    simp only [getBase_congr same, refers, restHypothesis]

theorem findKeyByPointer_congr (ptr : Int) (table : List Info) :
    findKeyByPointer memory' ptr table = findKeyByPointer memory ptr table := by
  induction table with
  | nil => rfl
  | cons info rest inductionHypothesis =>
    unfold findKeyByPointer
    simp only [inductionHypothesis, findKeyByPointerGroup_congr same, same]

end Congr

/-! ### The variable that a header leads to -/

section Named

variable {table : List Info} {memory : Memory}

variable {header : Header} {address : Int}

/-- The header of a variable is known from its fields. -/
theorem Leaf.header_eq {leaf : Leaf} (key : leaf.info.key = getKey header)
    (type : leaf.type.code = header.type.val)
    (element : leaf.groupElement = header.groupElement.val) : leaf.header = header := by
  have fits : getKey header < 2 ^ 9 := by
    unfold getKey
    omega
  refine (sameHeader_iff leaf.header header).mp ⟨?_, ?_, ?_⟩
  · exact Fin.ext ((makeHeader_type _ _ _).trans type)
  · exact (getKey_makeHeader (key ▸ fits) _ _).trans key
  · exact Fin.ext ((makeHeader_groupElement _ _ (element ▸ header.groupElement.isLt)).trans element)

/-- What is known of a variable that a header leads to. Top level variables are found without their
identifier. -/
structure Leaf.Named (leaf : Leaf) (header : Header) (address : Int) : Prop where
  allocated : leaf.address = some address
  key : leaf.info.key = getKey header
  type : leaf.type.code = header.type.val
  grouped : leaf.ginfo ≠ none → leaf.header = header

theorem named_of_findByHeaderGroup {info : Info} {groupInfo : GroupInfo} {rest : List Info}
    (kind : info.kind = .group groupInfo) (accepted : info.Accepted rest) (vindex : Nat)
    (key : info.key = getKey header)
    (found : findByHeaderGroup memory header (getBase memory info) groupInfo 0 0 0 = some address) :
    ∃ leaf ∈ rowLeaves memory vindex info, leaf.Named header address := by
  unfold Info.Accepted at accepted
  rw [kind] at accepted
  cases base : getBase memory info with
  | none =>
    rw [base, findByHeaderGroup_unallocated] at found
    exact nomatch found
  | some object =>
    rw [base, findByHeaderGroup_eq memory header vindex info object groupInfo 0 0 _ 0 [] 0
      accepted.1, Int.add_zero] at found
    obtain ⟨leaf, member, picked⟩ := List.exists_of_findSome?_eq_some found
    rw [pickInGroup] at picked
    split at picked
    · rename_i named
      have sameInfo := (groupLeaves_nesting memory vindex info groupInfo _ _ _ _ leaf member).1
      have sameKey : leaf.info.key = getKey header := sameInfo ▸ key
      refine ⟨leaf, ?_, picked, sameKey, named.2, fun _ => Leaf.header_eq sameKey named.2 named.1⟩
      rw [rowLeaves, kind, base]
      exact member
    · exact nomatch picked

/-- A search by header leads to a variable with the key and the type of the header, and to one of a
group with its own header only. -/
theorem named_of_findByHeader (accepted : checkVarInfo table = true)
    (found : (findByHeader table memory header).map Prod.snd = some address) :
    ∃ leaf ∈ leaves table memory, leaf.Named header address := by
  obtain ⟨first, acceptedFrom⟩ : ∃ first, checkVarInfoFrom first table = true := ⟨true, accepted⟩
  clear accepted
  rw [findByHeader] at found
  rw [leaves]
  generalize 0 = vindex at found ⊢
  induction table generalizing first vindex with
  | nil => cases found
  | cons info rest inductionHypothesis =>
    obtain ⟨row, tail⟩ := checkVarInfoFrom_cons acceptedFrom
    have later : (findByHeaderFrom memory header (vindex + 1) rest).map Prod.snd = some address →
        ∃ leaf ∈ leavesFrom memory vindex (info :: rest), leaf.Named header address := by
      intro found
      obtain ⟨leaf, member, named⟩ := inductionHypothesis false tail (vindex + 1) found
      exact ⟨leaf, List.mem_append_right _ member, named⟩
    have here : (∃ leaf ∈ rowLeaves memory vindex info, leaf.Named header address) →
        ∃ leaf ∈ leavesFrom memory vindex (info :: rest), leaf.Named header address := by
      rintro ⟨leaf, member, named⟩
      exact ⟨leaf, List.mem_append_left _ member, named⟩
    rw [findByHeaderFrom] at found
    split at found
    · exact later found
    · rename_i same
      rw [not_not] at same
      cases kind : info.kind with
      | unset =>
        rw [kind] at found
        exact later found
      | element type =>
        rw [kind] at found
        dsimp only at found
        split at found
        · rename_i sameType
          rw [Option.map_map, Function.comp_def, Option.map_id'] at found
          refine here ⟨⟨vindex, info, [], none, type, 0, getBase memory info⟩, ?_, found, same,
            sameType, fun grouped => absurd rfl grouped⟩
          rw [rowLeaves, kind]
          exact List.mem_singleton_self _
        · exact later found
      | group groupInfo =>
        rw [kind] at found
        rw [Option.map_map, Function.comp_def, Option.map_id'] at found
        exact here (named_of_findByHeaderGroup kind row vindex same found)

end Named

/-! ### The record of a variable -/

/-- The header leads to an address. -/
def leadsTo (table : List Info) (memory : Memory) (address : Int) (record : Record) : Bool :=
  decide ((findByHeader table memory record.header).map Prod.snd = some address)

/-- The record that the loop for one row ends with. -/
def fieldRecord (table : List Info) (memory : Memory) (key : Nat) (address : Int)
    (records : List Record) : Option Record :=
  records.find? fun record => decide (getKey record.header = key) && leadsTo table memory address record

/-- A record is written to an address. -/
def Memory.store (memory : Memory) (address : Int) : Option Record → Memory
  | none => memory
  | some record => memory.write address record.data

section Records

variable {layout : Layout} {hal : Image} {table : List Info} {memory : Memory}

theorem loadFieldFrom_eq (key : Nat) (address : Int) (fuel : Nat) (older : Header) (ofs : Nat)
    (records : List Record)
    (listed : Occupied (flat .param hal layout.areas) ofs records)
    (closed : slice (flat .param hal layout.areas) (endOf ofs records) 4 = sentinal.bytes)
    (inside : endOf ofs records + 4 ≤ storageSize layout) :
    (loadFieldFrom layout table hal key address (records.length + (fuel + 1)) older ofs memory).2 =
      memory.store address (fieldRecord table memory key address records) := by
  induction records generalizing older ofs with
  | nil =>
    have read : readHeader layout hal older ofs = sentinal := readHeader_eq older ofs inside closed
    have within : ofs < storageSize layout := lt_of_lt_of_le (Nat.lt_add_of_pos_right (by decide)) inside
    rw [List.length_nil, Nat.zero_add, loadFieldFrom, if_pos within]
    simp only [read, sentinal_isSentinal, if_true]
    rfl
  | cons record rest inductionHypothesis =>
    obtain ⟨read, within, notEnd, content, later⟩ := record_read listed inside older
    rw [List.length_cons, Nat.add_right_comm, loadFieldFrom, if_pos within]
    simp only [read, if_neg notEnd, ← record.length, content]
    rw [fieldRecord, List.find?_cons, leadsTo]
    split
    · rename_i named
      rw [decide_eq_true named.1, decide_eq_true named.2]
      rfl
    · rename_i other
      rw [← Bool.decide_and, decide_eq_false other]
      exact inductionHypothesis record.header _ later closed inside

/-- The loop for one row stores the first record with the key that leads to the row. -/
theorem Holds.loadField_eq {records : List Record} (holds : Holds layout hal records) (key : Nat)
    (address : Int) (older : Header) :
    (loadFieldFrom layout table hal key address (storageSize layout) older 4 memory).2 =
      memory.store address (fieldRecord table memory key address records) := by
  obtain ⟨fuel, enough⟩ := exists_fuel holds.inside
  rw [enough]
  exact loadFieldFrom_eq key address fuel older 4 records holds.listed holds.closed holds.inside

end Records

/-! ### What a variable is loaded with -/

section Values

variable {table : List Info} {start memory : Memory} {leaf : Leaf} {address : Int}
  {record : Record}

/-- A variable is known from its address. -/
theorem eq_of_address (apart : AllApart table start) {first second : Leaf}
    (firstMember : first ∈ leaves table start) (secondMember : second ∈ leaves table start)
    (firstPlace : first.address = some address) (secondPlace : second.address = some address) :
    first = second := by
  have positive : ∀ type : VarType, address < address + typeSize type.code := by
    intro type
    have : 0 < typeSize type.code := by cases type <;> decide
    omega
  exact apart.eq_of_inside firstMember secondMember
    ⟨address, firstPlace, le_refl _, positive first.type⟩
    ⟨address, secondPlace, le_refl _, positive second.type⟩

theorem named_of_leadsTo (accepted : checkVarInfo table = true) (apart : AllApart table start)
    (member : leaf ∈ leaves table start) (allocated : leaf.address = some address)
    (leads : leadsTo table start address record = true) : leaf.Named record.header address := by
  obtain ⟨other, otherMember, named⟩ := named_of_findByHeader accepted (of_decide_eq_true leads)
  exact eq_of_address apart otherMember member named.allocated allocated ▸ named

/-- A record fills the variable that it is about. -/
theorem Leaf.Named.size (named : leaf.Named record.header address) :
    typeSize leaf.type.code = record.data.length := by
  rw [record.length, named.type]

theorem read_write_elsewhere (accepted : checkVarInfo table = true) (apart : AllApart table start)
    (member : leaf ∈ leaves table start) (allocated : leaf.address = some address) {other : Int}
    (leads : leadsTo table start other record = true) (elsewhere : other ≠ address) :
    (memory.write other record.data).read address (typeSize leaf.type.code) =
      memory.read address (typeSize leaf.type.code) := by
  obtain ⟨owner, ownerMember, named⟩ := named_of_findByHeader accepted (of_decide_eq_true leads)
  have different : owner ≠ leaf := by
    rintro rfl
    exact elsewhere (Option.some.inj (named.allocated.symm.trans allocated))
  refine Memory.read_write_apart _ _ _ _ _ ?_
  rw [← named.size]
  exact apart.apart ownerMember member different other named.allocated address allocated

theorem applyRecord_leads (same : memory.pointers = start.pointers)
    (leads : leadsTo table start address record = true) :
    applyRecord table memory record = memory.write address record.data := by
  obtain ⟨found, search, here⟩ := Option.map_eq_some_iff.mp (of_decide_eq_true leads)
  rw [applyRecord, findByHeader_congr same, search, ← here]

theorem applyRecord_pointers (memory : Memory) (record : Record) :
    (applyRecord table memory record).pointers = memory.pointers := by
  rw [applyRecord]
  cases findByHeader table memory record.header <;> rfl

/-- `load_all` gives a variable of a group the data of the record that leads to it. -/
theorem foldl_applyRecord_read (accepted : checkVarInfo table = true) (apart : AllApart table start)
    (member : leaf ∈ leaves table start) (allocated : leaf.address = some address)
    (grouped : leaf.ginfo ≠ none) (records : List Record)
    (distinct : (records.map Record.header).Nodup) (same : memory.pointers = start.pointers) :
    (records.foldl (applyRecord table) memory).read address (typeSize leaf.type.code) =
      ((records.find? (leadsTo table start address)).map Record.data).getD
        (memory.read address (typeSize leaf.type.code)) := by
  induction records generalizing memory with
  | nil => rfl
  | cons record rest inductionHypothesis =>
    rw [List.map_cons, List.nodup_cons] at distinct
    rw [List.foldl_cons, inductionHypothesis distinct.2 ((applyRecord_pointers _ _).trans same),
      List.find?_cons]
    cases leads : leadsTo table start address record with
    | true =>
      have named := named_of_leadsTo accepted apart member allocated leads
      -- no other record has the header
      have only : rest.find? (leadsTo table start address) = none := by
        refine List.find?_eq_none.mpr fun other later alsoLeads => distinct.1 ?_
        have also := named_of_leadsTo accepted apart member allocated alsoLeads
        rw [← named.grouped grouped, also.grouped grouped]
        exact List.mem_map_of_mem later
      rw [only, applyRecord_leads same leads, named.size]
      exact Memory.read_write_self memory address record.data
    | false =>
      have unchanged : (applyRecord table memory record).read address (typeSize leaf.type.code) =
          memory.read address (typeSize leaf.type.code) := by
        cases search : findByHeader table start record.header with
        | none => rw [applyRecord, findByHeader_congr same, search]
        | some found =>
          have leadsThere : leadsTo table start found.2 record = true := by
            rw [leadsTo, search]
            exact decide_eq_true rfl
          rw [applyRecord_leads same leadsThere]
          refine read_write_elsewhere accepted apart member allocated leadsThere ?_
          rintro rfl
          exact absurd leadsThere (by rw [leads]; exact Bool.false_ne_true)
      rw [unchanged]

/-- Some variables have what `load_all` gives them, and the others are as they were. -/
structure Loaded (table : List Info) (records : List Record) (start : Memory) (done : Set Leaf)
    (memory : Memory) : Prop where
  pointers : memory.pointers = start.pointers
  own : ∀ leaf ∈ leaves table start, ∀ address, leaf.address = some address → leaf ∈ done →
    memory.read address (typeSize leaf.type.code) =
      (records.foldl (applyRecord table) start).read address (typeSize leaf.type.code)
  others : ∀ leaf ∈ leaves table start, ∀ address, leaf.address = some address → leaf ∉ done →
    memory.read address (typeSize leaf.type.code) = start.read address (typeSize leaf.type.code)

/-- The variables at an address whose row has a key. -/
def standingAt (key : Nat) (address : Int) : Set Leaf :=
  { leaf | leaf.address = some address ∧ leaf.info.key = key }

/-- The loop for one row loads the variable that stands there. -/
theorem Loaded.field {records : List Record} {done : Set Leaf} {key : Nat} {place : Int}
    (loaded : Loaded table records start done memory) (accepted : checkVarInfo table = true)
    (apart : AllApart table start) (distinct : (records.map Record.header).Nodup)
    (grouped : ∀ leaf ∈ leaves table start, leaf.info.key = key → leaf.ginfo ≠ none) :
    Loaded table records start (done ∪ standingAt key place)
      (memory.store place (fieldRecord table memory key place records)) := by
  have search : fieldRecord table memory key place records =
      records.find? fun record => decide (getKey record.header = key) &&
        leadsTo table start place record := by
    simp only [fieldRecord, leadsTo, findByHeader_congr loaded.pointers]
  -- where a variable stands whose row has the key, every record that leads there has it
  have plain : ∀ leaf ∈ leaves table start, leaf ∈ standingAt key place →
      fieldRecord table memory key place records = records.find? (leadsTo table start place) := by
    rintro leaf member ⟨allocated, sameKey⟩
    rw [search]
    congr 1
    funext record
    cases leads : leadsTo table start place record with
    | false => exact Bool.and_false _
    | true =>
      have named := named_of_leadsTo accepted apart member allocated leads
      rw [Bool.and_true]
      exact decide_eq_true (named.key.symm.trans sameKey)
  have final : ∀ leaf ∈ leaves table start, leaf ∈ standingAt key place →
      (records.foldl (applyRecord table) start).read place (typeSize leaf.type.code) =
        ((fieldRecord table memory key place records).map Record.data).getD
          (start.read place (typeSize leaf.type.code)) := by
    intro leaf member standing
    rw [plain leaf member standing]
    exact foldl_applyRecord_read accepted apart member standing.1 (grouped leaf member standing.2)
      records distinct rfl
  cases found : fieldRecord table memory key place records with
  | none =>
    refine ⟨loaded.pointers, fun leaf member address allocated inside => ?_,
      fun leaf member address allocated outside => ?_⟩
    · by_cases before : leaf ∈ done
      · exact loaded.own leaf member address allocated before
      · have standing := inside.resolve_left before
        obtain rfl : place = address := Option.some.inj (standing.1.symm.trans allocated)
        rw [final leaf member standing, found]
        exact loaded.others leaf member place allocated before
    · exact loaded.others leaf member address allocated fun before => outside (Or.inl before)
  | some record =>
    have hit := List.find?_some (search.symm.trans found)
    rw [Bool.and_eq_true, decide_eq_true_eq] at hit
    obtain ⟨sameKey, leads⟩ := hit
    have standing : ∀ leaf ∈ leaves table start, leaf.address = some place →
        leaf ∈ standingAt key place := fun leaf member allocated =>
      ⟨allocated, (named_of_leadsTo accepted apart member allocated leads).key.trans sameKey⟩
    refine ⟨loaded.pointers, fun leaf member address allocated inside => ?_,
      fun leaf member address allocated outside => ?_⟩
    · by_cases here : place = address
      · subst here
        rw [final leaf member (standing leaf member allocated), found,
          (named_of_leadsTo accepted apart member allocated leads).size]
        exact Memory.read_write_self memory place record.data
      · have before := inside.resolve_right fun there =>
          here (Option.some.inj (there.1.symm.trans allocated))
        exact (read_write_elsewhere accepted apart member allocated leads here).trans
          (loaded.own leaf member address allocated before)
    · have here : place ≠ address := by
        rintro rfl
        exact outside (Or.inr (standing leaf member allocated))
      exact (read_write_elsewhere accepted apart member allocated leads here).trans
        (loaded.others leaf member address allocated fun before => outside (Or.inl before))

end Values

/-! ### The objects of a table -/

/-- An object that a table registers: the group table of its variables, and its place in the top
level table. The object is missing when it is not allocated. -/
structure Place where
  vindex : Nat
  info : Info
  group : GroupInfo
  groupBase : Nat
  groupShift : Nat
  nesting : List Entry
  object : Option Int
  deriving DecidableEq, Repr

section Places

variable (table : List Info) (memory : Memory)

/-- The variables that belong to an object or its subgroups. -/
def Place.leaves (place : Place) : List Leaf :=
  groupLeaves memory place.vindex place.info place.group place.groupBase place.groupShift
    place.nesting place.object

/-- The objects of the subgroups of a group table. -/
def groupPlaces (vindex : Nat) (info : Info) : GroupInfo → (groupBase groupShift : Nat) →
    (nesting : List Entry) → (object : Option Int) → List Place
  | .groupEnd, _, _, _, _ => []
  | .element _ _ rest, groupBase, groupShift, nesting, object =>
    groupPlaces vindex info rest groupBase groupShift nesting object
  | .unset _ rest, groupBase, groupShift, nesting, object =>
    groupPlaces vindex info rest groupBase groupShift nesting object
  | .group entry nested rest, groupBase, groupShift, nesting, object =>
    ⟨vindex, info, nested, groupId entry groupBase groupShift, groupShift + groupLevelShift,
        nesting ++ [entry], object.bind (nestedObject memory entry)⟩ ::
      (groupPlaces vindex info nested (groupId entry groupBase groupShift)
          (groupShift + groupLevelShift) (nesting ++ [entry])
          (object.bind (nestedObject memory entry)) ++
        groupPlaces vindex info rest groupBase groupShift nesting object)

/-- The objects of a row of the top level table. -/
def rowPlaces (vindex : Nat) (info : Info) : List Place :=
  match info.kind with
  | .group groupInfo =>
    ⟨vindex, info, groupInfo, 0, 0, [], getBase memory info⟩ ::
      groupPlaces memory vindex info groupInfo 0 0 [] (getBase memory info)
  | .element _ | .unset => []

/-- The objects of the rows from a number on. -/
def placesFrom : (vindex : Nat) → List Info → List Place
  | _, [] => []
  | vindex, info :: rest => rowPlaces memory vindex info ++ placesFrom (vindex + 1) rest

/-- The objects of a table. -/
def places : List Place := placesFrom memory 0 table

/-- Where the rows of an object stand that lead to its subgroups. -/
def groupMembers : GroupInfo → (object : Option Int) → List Int
  | .groupEnd, _ => []
  | .element _ _ rest, object => groupMembers rest object
  | .unset entry rest, object =>
    (object.map (· + entry.offset)).toList ++ groupMembers rest object
  | .group entry nested rest, object =>
    (object.map (· + entry.offset)).toList ++
      (groupMembers nested (object.bind (nestedObject memory entry)) ++ groupMembers rest object)

/-- A variable that stands where the object has a subgroup, or the pointer to one, is a variable of
the object. -/
def Place.Encloses (place : Place) : Prop :=
  ∀ address ∈ groupMembers memory place.group place.object, ∀ leaf ∈ Param.leaves table memory,
    leaf.address = some address → leaf ∈ place.leaves memory

/-- From a row on, the load comes from an object to the objects of its subgroups: the key of the
top level row, taken for the number of a row, leads to them, and they have the same key. -/
def LeadsRight (key : Nat) : GroupInfo → (object : Int) → Prop
  | .groupEnd, _ => True
  | .element _ _ rest, object => LeadsRight key rest object
  | .unset entry rest, object =>
    adjustAt table memory key entry ≠ none ∧ LeadsRight key rest object
  | .group entry nested rest, object =>
    adjustAt table memory key entry = some ((nestedObject memory entry object).map (· - object)) ∧
      (match nestedObject memory entry object with
        | none => True
        | some inner =>
          findKeyByPointer memory inner table = some key ∧ LeadsRight key nested inner) ∧
      LeadsRight key rest object

instance decidableEncloses (place : Place) : Decidable (place.Encloses table memory) :=
  inferInstanceAs (Decidable (∀ address ∈ groupMembers memory place.group place.object,
    ∀ leaf ∈ Param.leaves table memory, leaf.address = some address → leaf ∈ place.leaves memory))

instance decidableLeadsRight (key : Nat) : (group : GroupInfo) → (object : Int) →
    Decidable (LeadsRight table memory key group object)
  | .groupEnd, _ => isTrue trivial
  | .element _ _ rest, object => decidableLeadsRight key rest object
  | .unset _ rest, object =>
    let _ := decidableLeadsRight key rest object
    inferInstanceAs (Decidable (_ ∧ LeadsRight table memory key rest object))
  | .group entry nested rest, object =>
    let _ := decidableLeadsRight key rest object
    let _ : Decidable (match nestedObject memory entry object with
        | none => True
        | some inner =>
          findKeyByPointer memory inner table = some key ∧
            LeadsRight table memory key nested inner) :=
      match nestedObject memory entry object with
      | none => isTrue trivial
      | some inner =>
        let _ := decidableLeadsRight key nested inner
        inferInstanceAs (Decidable (_ ∧ LeadsRight table memory key nested inner))
    inferInstanceAs (Decidable (_ ∧ _ ∧ LeadsRight table memory key rest object))

end Places

section Objects

variable {table : List Info} {memory : Memory}

variable {info : Info} {place : Place} {vindex : Nat}

theorem groupPlaces_leaves {group : GroupInfo} {groupBase groupShift : Nat} {nesting : List Entry}
    {object : Option Int}
    (member : place ∈ groupPlaces memory vindex info group groupBase groupShift nesting object) :
    place.info = info ∧ ∀ leaf ∈ place.leaves memory,
      leaf ∈ groupLeaves memory vindex info group groupBase groupShift nesting object := by
  induction group generalizing groupBase groupShift nesting object with
  | groupEnd => exact absurd member List.not_mem_nil
  | element entry type rest restHypothesis =>
    obtain ⟨sameInfo, inside⟩ := restHypothesis member
    exact ⟨sameInfo, fun leaf own => List.mem_cons_of_mem _ (inside leaf own)⟩
  | group entry nested rest nestedHypothesis restHypothesis =>
    obtain rfl | deeper := List.mem_cons.mp member
    · exact ⟨rfl, fun leaf own => List.mem_append_left _ own⟩
    · obtain inner | later := List.mem_append.mp deeper
      · obtain ⟨sameInfo, inside⟩ := nestedHypothesis inner
        exact ⟨sameInfo, fun leaf own => List.mem_append_left _ (inside leaf own)⟩
      · obtain ⟨sameInfo, inside⟩ := restHypothesis later
        exact ⟨sameInfo, fun leaf own => List.mem_append_right _ (inside leaf own)⟩
  | unset entry rest restHypothesis => exact restHypothesis member

theorem rowPlaces_group (member : place ∈ rowPlaces memory vindex info) :
    ∃ groupInfo, info.kind = .group groupInfo ∧
      place ∈ (⟨vindex, info, groupInfo, 0, 0, [], getBase memory info⟩ : Place) ::
        groupPlaces memory vindex info groupInfo 0 0 [] (getBase memory info) := by
  unfold rowPlaces at member
  cases kind : info.kind with
  | element type =>
    rw [kind] at member
    exact absurd member List.not_mem_nil
  | unset =>
    rw [kind] at member
    exact absurd member List.not_mem_nil
  | group groupInfo =>
    rw [kind] at member
    exact ⟨groupInfo, rfl, member⟩

theorem rowPlaces_leaves (member : place ∈ rowPlaces memory vindex info) :
    place.info = info ∧ (∀ leaf ∈ place.leaves memory, leaf ∈ rowLeaves memory vindex info) ∧
      ∀ leaf ∈ rowLeaves memory vindex info, leaf.info = info ∧ leaf.ginfo ≠ none := by
  obtain ⟨groupInfo, kind, inGroup⟩ := rowPlaces_group member
  unfold rowLeaves
  rw [kind]
  have row : ∀ leaf ∈ groupLeaves memory vindex info groupInfo 0 0 [] (getBase memory info),
      leaf.info = info ∧ leaf.ginfo ≠ none := fun leaf inside => by
    obtain ⟨sameInfo, -, grouped, -⟩ :=
      groupLeaves_nesting memory vindex info groupInfo _ _ _ _ leaf inside
    exact ⟨sameInfo, grouped⟩
  obtain rfl | deeper := List.mem_cons.mp inGroup
  · exact ⟨rfl, fun leaf own => own, row⟩
  · obtain ⟨sameInfo, inside⟩ := groupPlaces_leaves deeper
    exact ⟨sameInfo, inside, row⟩

theorem rowPlaces_key {rest : List Info} (accepted : info.Accepted rest)
    (member : place ∈ rowPlaces memory vindex info) :
    ∀ other ∈ rest, other.key ≠ info.key := by
  obtain ⟨groupInfo, kind, -⟩ := rowPlaces_group member
  unfold Info.Accepted at accepted
  rw [kind] at accepted
  exact accepted.2

/-- The variables of an object are variables of the table, under a key that no top level variable
has. -/
theorem placesFrom_leaves {first : Bool} (accepted : checkVarInfoFrom first table = true)
    (member : place ∈ placesFrom memory vindex table) :
    place.info ∈ table ∧
      (∀ leaf ∈ place.leaves memory,
        leaf ∈ leavesFrom memory vindex table ∧ leaf.info = place.info) ∧
      ∀ leaf ∈ leavesFrom memory vindex table, leaf.info.key = place.info.key →
        leaf.ginfo ≠ none := by
  induction table generalizing first vindex with
  | nil => exact absurd member List.not_mem_nil
  | cons info rest inductionHypothesis =>
    obtain ⟨row, tail⟩ := checkVarInfoFrom_cons accepted
    obtain here | later := List.mem_append.mp member
    · obtain ⟨sameInfo, inside, grouped⟩ := rowPlaces_leaves here
      refine ⟨sameInfo ▸ List.mem_cons_self, fun leaf own => ?_, fun leaf inTable sameKey => ?_⟩
      · exact ⟨List.mem_append_left _ (inside leaf own),
          (grouped leaf (inside leaf own)).1.trans sameInfo.symm⟩
      · obtain inRow | behind := List.mem_append.mp inTable
        · exact (grouped leaf inRow).2
        · have inRest := (leavesFrom_info memory tail leaf behind).2.1
          exact absurd (sameInfo ▸ sameKey) (rowPlaces_key row here _ inRest)
    · obtain ⟨inRest, inside, grouped⟩ := inductionHypothesis tail later
      refine ⟨List.mem_cons_of_mem _ inRest, fun leaf own => ?_, fun leaf inTable sameKey => ?_⟩
      · exact ⟨List.mem_append_right _ (inside leaf own).1, (inside leaf own).2⟩
      · obtain inRow | behind := List.mem_append.mp inTable
        · have sameInfo := (rowLeaves_info memory row leaf inRow).2.1
          exact absurd (sameInfo ▸ sameKey.symm) (rowLeaves_key memory row inRow _ inRest)
        · exact grouped leaf behind sameKey

/-! ### The run over an object -/

/-- A part of a load loads what it should, nothing but the variables of the object, and forgets
nothing. -/
structure Advances (table : List Info) (memory : Memory) (own done : Set Leaf) (wanted : List Leaf)
    (done' : Set Leaf) : Prop where
  more : done ⊆ done'
  inside : ∀ leaf ∈ leaves table memory, leaf ∈ done' → leaf ∈ done ∨ leaf ∈ own
  wanted : ∀ leaf ∈ wanted, leaf.address ≠ none → leaf ∈ done'

theorem Advances.refl {own done : Set Leaf} {wanted : List Leaf}
    (unallocated : ∀ leaf ∈ wanted, leaf.address = none) :
    Advances table memory own done wanted done :=
  ⟨subset_rfl, fun _ _ => Or.inl, fun leaf member allocated =>
    absurd (unallocated leaf member) allocated⟩

theorem Advances.trans {own done done' done'' : Set Leaf} {first second : List Leaf}
    (early : Advances table memory own done first done')
    (late : Advances table memory own done' second done'') :
    Advances table memory own done (first ++ second) done'' := by
  refine ⟨early.more.trans late.more, fun leaf member inside => ?_, fun leaf member allocated => ?_⟩
  · exact (late.inside leaf member inside).elim (early.inside leaf member) Or.inr
  · obtain inFirst | inSecond := List.mem_append.mp member
    · exact late.more (early.wanted leaf inFirst allocated)
    · exact late.wanted leaf inSecond allocated

end Objects

section Run

variable {layout : Layout} {table : List Info} {hal : Image} {records : List Record}
  {start : Memory} {key : Nat} {own : Set Leaf}

/-- The load of the row of a variable, or of a subgroup, that stands in the object. -/
theorem loadField_loaded (holds : Holds layout hal records) (accepted : checkVarInfo table = true)
    (apart : AllApart table start)
    (grouped : ∀ leaf ∈ leaves table start, leaf.info.key = key → leaf.ginfo ≠ none) {place : Int}
    (belongs : ∀ leaf ∈ leaves table start, leaf.address = some place → leaf ∈ own)
    {wanted : List Leaf} (standing : ∀ leaf ∈ wanted, leaf ∈ standingAt key place) (older : Header)
    {memory : Memory} {done : Set Leaf} (loaded : Loaded table records start done memory) :
    Loaded table records start (done ∪ standingAt key place)
        (loadFieldFrom layout table hal key place (storageSize layout) older 4 memory).2 ∧
      Advances table start own done wanted (done ∪ standingAt key place) := by
  rw [holds.loadField_eq]
  exact ⟨loaded.field accepted apart holds.distinct grouped, Set.subset_union_left,
    fun leaf member inside => inside.imp_right fun there => belongs leaf member there.1,
    fun leaf member _ => Or.inr (standing leaf member)⟩

/-- The load of an object, from a row on, loads the variables from that row on. -/
theorem loadRows_loaded (holds : Holds layout hal records) (accepted : checkVarInfo table = true)
    (apart : AllApart table start)
    (grouped : ∀ leaf ∈ leaves table start, leaf.info.key = key → leaf.ginfo ≠ none)
    (vindex : Nat) (info : Info) (group : GroupInfo) (groupBase groupShift : Nat)
    (nesting : List Entry) (object : Int) (older : Header) (memory : Memory) (done : Set Leaf)
    (belong : ∀ leaf ∈ groupLeaves start vindex info group groupBase groupShift nesting
      (some object), leaf ∈ leaves table start ∧ leaf.info.key = key ∧ leaf ∈ own)
    (members : ∀ address ∈ groupMembers start group (some object), ∀ leaf ∈ leaves table start,
      leaf.address = some address → leaf ∈ own)
    (right : LeadsRight table start key group object)
    (loaded : Loaded table records start done memory) :
    ∃ after done', loadRows layout table hal group key object older memory = some after ∧
      Loaded table records start done' after ∧
      Advances table start own done (groupLeaves start vindex info group groupBase groupShift nesting
        (some object)) done' := by
  induction group generalizing groupBase groupShift nesting object older memory done with
  | groupEnd => exact ⟨memory, done, rfl, loaded, Advances.refl nofun⟩
  | element entry type rest restHypothesis =>
    obtain ⟨inTable, sameKey, isOwn⟩ := belong _ List.mem_cons_self
    have belongs : ∀ leaf ∈ leaves table start, leaf.address = some (object + entry.offset) →
        leaf ∈ own := fun leaf member allocated =>
      eq_of_address apart inTable member rfl allocated ▸ isOwn
    obtain ⟨loadedHere, advancedHere⟩ := loadField_loaded holds accepted apart grouped belongs
      (fun leaf member => List.mem_singleton.mp member ▸ ⟨rfl, sameKey⟩) older loaded
    obtain ⟨after, done', result, loadedThere, advancedThere⟩ := restHypothesis groupBase groupShift
      nesting object _ _ _ (fun leaf member => belong leaf (List.mem_cons_of_mem _ member)) members
      right loadedHere
    exact ⟨after, done', result, loadedThere, advancedHere.trans advancedThere⟩
  | group entry nested rest nestedHypothesis restHypothesis =>
    obtain ⟨adjusted, inner, rightRest⟩ := right
    rw [groupLeaves] at belong ⊢
    rw [groupMembers] at members
    rw [loadRows, adjustAt_congr loaded.pointers, adjusted]
    rw [Option.bind_some] at belong members ⊢
    have later := fun leaf member => belong leaf (List.mem_append_right _ member)
    have membersLater := fun address member =>
      members address (List.mem_append_right _ (List.mem_append_right _ member))
    cases place : nestedObject start entry object with
    | none =>
      obtain ⟨after, done', result, loadedThere, advancedThere⟩ := restHypothesis groupBase
        groupShift nesting object older memory done later membersLater rightRest loaded
      have skipped : Advances table start own done
          (groupLeaves start vindex info nested (groupId entry groupBase groupShift)
            (groupShift + groupLevelShift) (nesting ++ [entry]) none) done :=
        Advances.refl (groupLeaves_unallocated _ _ _ nested _ _ _)
      exact ⟨after, done', result, loadedThere, skipped.trans advancedThere⟩
    | some object' =>
      rw [place] at belong members inner
      obtain ⟨found, rightInner⟩ := inner
      obtain ⟨between, done₁, loadedNested, loadedInner, advancedInner⟩ := nestedHypothesis
        (groupId entry groupBase groupShift) (groupShift + groupLevelShift) (nesting ++ [entry])
        object' (Header.ofWord 0) memory done
        (fun leaf member => belong leaf (List.mem_append_left _ member))
        (fun address member => members address
          (List.mem_append_right _ (List.mem_append_left _ member))) rightInner loaded
      obtain ⟨loadedHere, advancedHere⟩ := loadField_loaded holds accepted apart grouped
        (members _ (List.mem_append_left _ (List.mem_singleton_self _)))
        (fun leaf member => absurd member List.not_mem_nil) older loadedInner
      obtain ⟨after, done', result, loadedThere, advancedThere⟩ := restHypothesis groupBase
        groupShift nesting object _ _ _ later membersLater rightRest loadedHere
      have back : object + (object' - object) = object' := by omega
      rw [Option.map_some]
      dsimp only
      rw [back, findKeyByPointer_congr loaded.pointers, found]
      dsimp only
      rw [loadedNested]
      exact ⟨after, done', result, loadedThere,
        advancedInner.trans (advancedHere.trans advancedThere)⟩
  | unset entry rest restHypothesis =>
    obtain ⟨inRange, rightRest⟩ := right
    rw [loadRows, adjustAt_congr loaded.pointers]
    cases adjusted : adjustAt table start key entry with
    | none => exact absurd adjusted inRange
    | some newOffset =>
      cases newOffset with
      | none =>
        exact restHypothesis groupBase groupShift nesting object older memory done belong
          (fun address member => members address (List.mem_append_right _ member)) rightRest loaded
      | some newOffset =>
        obtain ⟨loadedHere, advancedHere⟩ := loadField_loaded holds accepted apart grouped
          (members _ (List.mem_append_left _ (List.mem_singleton_self _)))
          (fun leaf member => absurd member List.not_mem_nil) older loaded
        obtain ⟨after, done', result, loadedThere, advancedThere⟩ := restHypothesis groupBase
          groupShift nesting object _ _ _ belong
          (fun address member => members address (List.mem_append_right _ member)) rightRest
          loadedHere
        exact ⟨after, done', result, loadedThere, advancedHere.trans advancedThere⟩

end Run

/-! ### The main result -/

/-- The load of an object gives its variables the values that `load_all` gives them, changes no
other variable, and reads no row behind the top level table. -/
def LoadsObject (layout : Layout) (table : List Info) (hal : Image) (memory : Memory) (place : Place)
    (object : Int) : Prop :=
  ∃ after, loadObject layout table hal memory object place.group = some after ∧
    (∀ leaf ∈ place.leaves memory, ∀ address, leaf.address = some address →
      after.read address (typeSize leaf.type.code) =
        (loadAll layout table hal memory).2.read address (typeSize leaf.type.code)) ∧
    ∀ leaf ∈ leaves table memory, leaf ∉ place.leaves memory → ∀ address,
      leaf.address = some address →
        after.read address (typeSize leaf.type.code) = memory.read address (typeSize leaf.type.code)

/-- The object has the key of its top level row, and with the key for the number of a row the load
comes to the objects of its subgroups. -/
def Place.Right (table : List Info) (memory : Memory) (place : Place) (object : Int) : Prop :=
  findKeyByPointer memory object table = some place.info.key ∧
    LeadsRight table memory place.info.key place.group object

/-- A row of a group table makes the load read a row of the top level table. -/
def GroupInfo.readsRow : GroupInfo → Bool
  | .groupEnd => false
  | .element _ _ rest => rest.readsRow
  | .unset entry rest | .group entry _ rest =>
    !entry.flags.testBit nestedOffsetFlag && entry.flags.testBit pointerFlag || rest.readsRow

variable {table : List Info}

theorem adjustAt_outside (memory : Memory) {key : Nat} (outside : table.length ≤ key)
    (entry : Entry)
    (reads : (!entry.flags.testBit nestedOffsetFlag && entry.flags.testBit pointerFlag) = true) :
    adjustAt table memory key entry = none := by
  rw [Bool.and_eq_true, Bool.not_eq_true'] at reads
  rw [adjustAt, if_pos reads, List.getElem?_eq_none outside, Option.map_none]

theorem loadRows_outside (layout : Layout) (hal : Image) {key : Nat} (outside : table.length ≤ key)
    (group : GroupInfo) (reads : group.readsRow = true) (object : Int) (older : Header)
    (memory : Memory) :
    loadRows layout table hal group key object older memory = none := by
  induction group generalizing older memory with
  | groupEnd => exact nomatch reads
  | element entry type rest restHypothesis =>
    exact restHypothesis reads _ _
  | group entry nested rest nestedHypothesis restHypothesis =>
    rw [loadRows]
    obtain here | later := (Bool.or_eq_true _ _).mp reads
    · rw [adjustAt_outside memory outside entry here]
    · cases adjusted : adjustAt table memory key entry with
      | none => rfl
      | some newOffset =>
        cases newOffset with
        | none => exact restHypothesis later older memory
        | some newOffset =>
          refine Option.bind_eq_none_iff.mpr fun between _ => ?_
          exact restHypothesis later _ _
  | unset entry rest restHypothesis =>
    rw [loadRows]
    obtain here | later := (Bool.or_eq_true _ _).mp reads
    · rw [adjustAt_outside memory outside entry here]
    · cases adjusted : adjustAt table memory key entry with
      | none => rfl
      | some newOffset =>
        cases newOffset with
        | none => exact restHypothesis later older memory
        | some newOffset => exact restHypothesis later _ _

section Main

variable {layout : Layout} {table : List Info} {hal : Image} {records : List Record}
  {memory : Memory} {place : Place} {object : Int}

theorem not_loadsObject_outside {key : Nat}
    (found : findKeyByPointer memory object table = some key) (outside : table.length ≤ key)
    (reads : place.group.readsRow = true) : ¬ LoadsObject layout table hal memory place object := by
  rintro ⟨after, result, -⟩
  rw [loadObject, found] at result
  dsimp only at result
  rw [loadRows_outside layout hal outside place.group reads] at result
  exact nomatch result

theorem Place.Right.loads (right : place.Right table memory object)
    (accepted : checkVarInfo table = true) (apart : AllApart table memory)
    (holds : Holds layout hal records) (registered : place ∈ places table memory)
    (allocated : place.object = some object) (encloses : place.Encloses table memory) :
    LoadsObject layout table hal memory place object := by
  obtain ⟨found, leads⟩ := right
  obtain ⟨-, inside, grouped⟩ := placesFrom_leaves accepted registered
  have untouched : Loaded table records memory ∅ memory :=
    ⟨rfl, fun _ _ _ _ none => absurd none (Set.notMem_empty _), fun _ _ _ _ _ => rfl⟩
  unfold Place.Encloses Place.leaves at encloses
  unfold Place.leaves at inside
  rw [allocated] at encloses inside
  obtain ⟨after, done, result, loaded, advanced⟩ := loadRows_loaded holds accepted apart grouped
    place.vindex place.info place.group place.groupBase place.groupShift place.nesting object
    (Header.ofWord 0) memory ∅
    (fun leaf own => ⟨(inside leaf own).1, congrArg Info.key (inside leaf own).2, own⟩) encloses leads
    untouched
  refine ⟨after, ?_, fun leaf own address there => ?_, fun leaf member other address there => ?_⟩
  · rw [loadObject, found]
    exact result
  · unfold Place.leaves at own
    rw [allocated] at own
    rw [holds.loadAll_eq]
    exact loaded.own leaf (inside leaf own).1 address there
      (advanced.wanted leaf own (by rw [there]; exact Option.some_ne_none _))
  · unfold Place.leaves at other
    rw [allocated] at other
    refine loaded.others leaf member address there fun done => ?_
    exact (advanced.inside leaf member done).elim (Set.notMem_empty _) other

/-- An object is loaded as by `load_all` if its key, taken for the number of a row of the top level
table, leads to the objects of its subgroups. It is not if the object has a pointer to another one
and there is no row with that number. -/
theorem loadObject_agrees (accepted : checkVarInfo table = true) (apart : AllApart table memory)
    (holds : Holds layout hal records) (registered : place ∈ places table memory)
    (allocated : place.object = some object) (encloses : place.Encloses table memory) :
    (place.Right table memory object → LoadsObject layout table hal memory place object) ∧
      ∀ key, findKeyByPointer memory object table = some key → table.length ≤ key →
        place.group.readsRow = true → ¬ LoadsObject layout table hal memory place object :=
  ⟨fun right => right.loads accepted apart holds registered allocated encloses,
    fun _ found outside reads => not_loadsObject_outside found outside reads⟩

end Main

/-- The table of an object with a pointer to another one. -/
def objectGroup : GroupInfo :=
  .group ⟨1, ['S', '_'], 24, 2⟩ (.element ⟨1, ['Q'], 4, 0⟩ .int16 .groupEnd)
    (.group ⟨2, ['N', '_'], 8, 1⟩ (.element ⟨1, ['A'], 0, 0⟩ .int8 .groupEnd)
      (.element ⟨4, ['P'], 4, 0⟩ .float .groupEnd))

/-- The object is behind the pointer of the second row, which has the given key. -/
def objectTable (key : Nat) : List Info :=
  [⟨['F'], 7, 1000, 0, .element .int8⟩, ⟨['G', '_'], key, 500, 2, .group objectGroup⟩]

/-- The object is at 2000, and the other one at 3000. -/
def objectMemory : Memory :=
  ⟨fun address => if address = 500 then 2000 else if address = 2024 then 3000 else 0, fun _ => 0⟩

/-- The object of the second row. -/
def objectPlace (key : Nat) : Place :=
  ⟨1, ⟨['G', '_'], key, 500, 2, .group objectGroup⟩, objectGroup, 0, 0, [], some 2000⟩

theorem innerData_length : ([1, 2] : List UInt8).length = 2 := rfl

/-- What is stored for the variable of the other object. -/
def innerRecord (key : Fin 6) : Record where
  header := makeHeader key 2 65
  data := [1, 2]
  storable := by revert key; decide
  length := innerData_length

/-- A storage with the one record. -/
def innerStorage (key : Fin 6) : Image :=
  runCalls (eepromWriteCheck (Table.copter.layout 4096 (le_refl _)))
    (eraseAll (Table.copter.layout 4096 (le_refl _)) fun _ => 0)
    [⟨4 + 4 + 2, sentinal.bytes⟩, ⟨4 + 4, [1, 2]⟩, ⟨4, (innerRecord key).header.bytes⟩]

theorem innerStorage_holds (key : Fin 6) :
    Holds (Table.copter.layout 4096 (le_refl _)) (innerStorage key) [innerRecord key] :=
  Holds.append (eraseAll_holds (by decide)) (innerRecord key) List.not_mem_nil
    (by change 4 + 2 + 2 * 4 < _; decide)

/-- With the number of its row for a key the object is loaded. -/
theorem loadObject_agrees_row :
    LoadsObject (Table.copter.layout 4096 (le_refl _)) (objectTable 1) (innerStorage 1) objectMemory
      (objectPlace 1) 2000 :=
  (loadObject_agrees (by decide) (by decide) (innerStorage_holds 1) (by decide) rfl (by decide)).1
    ⟨by decide, by decide⟩

/-- The variable of the other object is stored. Where the key of the object is no number of a row,
the load reads behind the table, and where it is that of another row, it leaves the variable as it
was. -/
theorem not_loadsObject_key :
    (∀ key ∈ [(0 : Fin 6), 5], checkVarInfo (objectTable key) = true ∧
      AllApart (objectTable key) objectMemory ∧
      objectPlace key ∈ places (objectTable key) objectMemory ∧
      (objectPlace key).Encloses (objectTable key) objectMemory) ∧
      (∀ key, Holds (Table.copter.layout 4096 (le_refl _)) (innerStorage key) [innerRecord key]) ∧
      loadObject (Table.copter.layout 4096 (le_refl _)) (objectTable 5) (innerStorage 5) objectMemory
        2000 objectGroup = none ∧
      ¬ LoadsObject (Table.copter.layout 4096 (le_refl _)) (objectTable 5) (innerStorage 5)
        objectMemory (objectPlace 5) 2000 ∧
      ¬ LoadsObject (Table.copter.layout 4096 (le_refl _)) (objectTable 0) (innerStorage 0)
        objectMemory (objectPlace 0) 2000 := by
  have found : findKeyByPointer objectMemory 2000 (objectTable 5) = some 5 := by decide
  have outside : (objectTable 5).length ≤ 5 := by decide
  refine ⟨by decide, innerStorage_holds, ?_, not_loadsObject_outside found outside rfl, ?_⟩
  · rw [loadObject, found]
    exact loadRows_outside _ _ outside objectGroup rfl _ _ _
  · rintro ⟨after, result, own, -⟩
    obtain rfl := Option.some.inj result
    obtain ⟨leaf, member, address, size⟩ : ∃ leaf ∈ (objectPlace 0).leaves objectMemory,
        leaf.address = some 3004 ∧ typeSize leaf.type.code = 2 := by decide
    have same := own leaf member 3004 address
    rw [(innerStorage_holds 0).loadAll_eq, size] at same
    exact absurd same (by decide)

end Urus.Param
