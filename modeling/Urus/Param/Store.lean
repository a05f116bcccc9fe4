/-
This file proves that the parameter store is a finite map from headers to bytes. A run of
forced saves from an erased storage is compared with the map of the values that were saved
last: the stored list holds exactly this map, a save changes it at one header, and a load
of all parameters gives every variable the value that the map has for it.
-/

import Urus.Param.Records
import Urus.Param.Variables

namespace Urus.Param

open Image StorageManager

/-! ### Records as a map -/

/-- The data of the record with a header. -/
def valueOf (header : Header) : List Record → Option (List UInt8)
  | [] => none
  | record :: rest => if record.header = header then some record.data else valueOf header rest

/-- A record takes the place of the one with its header, or comes last. -/
def upsert (changed : Record) : List Record → List Record
  | [] => [changed]
  | record :: rest =>
    if record.header = changed.header then changed :: rest else record :: upsert changed rest

theorem valueOf_eq_none_iff (header : Header) (records : List Record) :
    valueOf header records = none ↔ header ∉ records.map Record.header := by
  induction records with
  | nil => exact ⟨fun _ => List.not_mem_nil, fun _ => rfl⟩
  | cons record rest inductionHypothesis =>
    rw [valueOf, List.map_cons, List.mem_cons, not_or, ← inductionHypothesis]
    by_cases here : record.header = header
    · rw [if_pos here]
      exact ⟨(fun impossible => nomatch impossible), fun missing => absurd here.symm missing.1⟩
    · rw [if_neg here]
      exact ⟨fun missing => ⟨Ne.symm here, missing⟩, fun missing => missing.2⟩

variable {data : List UInt8} {header : Header} {records : List Record} {changed : Record}
  {first : List Record} {layout : Layout}

theorem exists_of_valueOf (value : valueOf header records = some data) :
    ∃ before record after, records = before ++ record :: after ∧ record.header = header ∧
      record.data = data := by
  induction records with
  | nil => cases value
  | cons record rest inductionHypothesis =>
    rw [valueOf] at value
    by_cases here : record.header = header
    · rw [if_pos here] at value
      exact ⟨[], record, rest, rfl, here, Option.some.inj value⟩
    · rw [if_neg here] at value
      obtain ⟨before, found, after, split, same, content⟩ := inductionHypothesis value
      exact ⟨record :: before, found, after, by rw [split, List.cons_append], same, content⟩

theorem valueOf_upsert (header : Header) (changed : Record) (records : List Record) :
    valueOf header (upsert changed records) =
      if header = changed.header then some changed.data else valueOf header records := by
  induction records with
  | nil => simp only [upsert, valueOf, eq_comm]
  | cons record rest inductionHypothesis =>
    by_cases here : record.header = changed.header
    · rw [upsert, if_pos here, valueOf, valueOf, here]
      by_cases same : header = changed.header
      · rw [if_pos same.symm, if_pos same]
      · rw [if_neg (Ne.symm same), if_neg same, if_neg (Ne.symm same)]
    · rw [upsert, if_neg here, valueOf, valueOf, inductionHypothesis]
      by_cases same : record.header = header
      · rw [if_pos same, if_pos same, if_neg (same ▸ here)]
      · rw [if_neg same, if_neg same]

theorem upsert_append_of_mem (member : changed.header ∈ first.map Record.header)
    (second : List Record) :
    upsert changed (first ++ second) = upsert changed first ++ second := by
  induction first with
  | nil => exact absurd member List.not_mem_nil
  | cons record rest inductionHypothesis =>
    by_cases here : record.header = changed.header
    · rw [List.cons_append, upsert, upsert, if_pos here, if_pos here, List.cons_append]
    · rw [List.map_cons, List.mem_cons] at member
      have later := member.resolve_left (Ne.symm here)
      rw [List.cons_append, upsert, upsert, if_neg here, if_neg here, List.cons_append,
        inductionHypothesis later]

theorem upsert_append_of_not_mem (missing : changed.header ∉ first.map Record.header)
    (second : List Record) :
    upsert changed (first ++ second) = first ++ upsert changed second := by
  induction first with
  | nil => rfl
  | cons record rest inductionHypothesis =>
    rw [List.map_cons, List.mem_cons, not_or] at missing
    rw [List.cons_append, upsert, if_neg (Ne.symm missing.1), inductionHypothesis missing.2,
      List.cons_append]

/-- Replacing a record moves no other. -/
theorem endOf_upsert (ofs : Nat) (member : changed.header ∈ records.map Record.header) :
    endOf ofs (upsert changed records) = endOf ofs records := by
  induction records generalizing ofs with
  | nil => exact absurd member List.not_mem_nil
  | cons record rest inductionHypothesis =>
    by_cases here : record.header = changed.header
    · have length : changed.data.length = record.data.length := by
        rw [changed.length, record.length, here]
      rw [upsert, if_pos here, endOf, endOf, length]
    · rw [List.map_cons, List.mem_cons] at member
      have later := member.resolve_left (Ne.symm here)
      rw [upsert, if_neg here, endOf, endOf, inductionHypothesis _ later]

theorem mem_headers_upsert (header : Header) (changed : Record) (records : List Record) :
    header ∈ (upsert changed records).map Record.header ↔
      header = changed.header ∨ header ∈ records.map Record.header := by
  induction records with
  | nil => simp [upsert]
  | cons record rest inductionHypothesis =>
    by_cases here : record.header = changed.header
    · rw [upsert, if_pos here, List.map_cons, List.map_cons, List.mem_cons, List.mem_cons, here]
      exact ⟨fun member => Or.inr member, fun member => member.elim Or.inl id⟩
    · rw [upsert, if_neg here, List.map_cons, List.map_cons, List.mem_cons, List.mem_cons,
        inductionHypothesis]
      exact or_left_comm

theorem exists_split (member : header ∈ records.map Record.header) :
    ∃ before record after, records = before ++ record :: after ∧ record.header = header := by
  obtain ⟨record, inside, same⟩ := List.mem_map.mp member
  obtain ⟨before, after, split⟩ := List.append_of_mem inside
  exact ⟨before, record, after, split, same⟩

/-! ### Saving a record -/

/-- What the storage has under a header: the offset and the bytes. -/
def stored (layout : Layout) (hal : Image) (header : Header) : Option (Nat × List UInt8) :=
  match scan layout hal header with
  | (true, ofs) =>
    some (ofs, (readBlock layout.areas .param hal (ofs + 4) (typeSize header.type.val)).2)
  | (false, _) => none

section Save

variable {layout : Layout} {hal : Image} {records : List Record}

variable {record : Record} {header : Header}

theorem Holds.stored_found {before after : List Record}
    (holds : Holds layout hal (before ++ record :: after)) :
    stored layout hal record.header = some (endOf 4 before, record.data) := by
  rw [stored, holds.scan_found]
  simp only [holds.read_data]

theorem Holds.stored_missing (holds : Holds layout hal records) (storable : header.Storable)
    (missing : header ∉ records.map Record.header) :
    stored layout hal header = none := by
  rw [stored, holds.scan_missing storable missing]

theorem Holds.scan_value (holds : Holds layout hal records) {data : List UInt8}
    (value : valueOf header records = some data) :
    ∃ ofs, scan layout hal header = (true, ofs) ∧
      readBlock layout.areas .param hal (ofs + 4) (typeSize header.type.val) = (true, data) := by
  obtain ⟨before, record, after, rfl, rfl, rfl⟩ := exists_of_valueOf value
  exact ⟨endOf 4 before, holds.scan_found, holds.read_data⟩

/-- A save replaces a record, adds one, or fails for want of room and changes nothing. -/
theorem Holds.save_cases (holds : Holds layout hal records) (record : Record) :
    ((saveRecord layout hal record.header record.data).1 = true ∧
      Holds layout (runCalls (eepromWriteCheck layout) hal
        (saveRecord layout hal record.header record.data).2) (upsert record records)) ∨
      saveRecord layout hal record.header record.data = (false, []) := by
  by_cases member : record.header ∈ records.map Record.header
  · obtain ⟨before, old, after, split, same⟩ := exists_split member
    subst split
    have missing : record.header ∉ before.map Record.header := by
      have distinct := holds.distinct
      rw [List.map_append, List.map_cons, List.nodup_append] at distinct
      rw [← same]
      exact fun inside => distinct.2.2 _ inside _ List.mem_cons_self rfl
    have replaced : upsert record (before ++ old :: after) = before ++ record :: after := by
      rw [upsert_append_of_not_mem missing, upsert, if_pos same]
    have found := holds.scan_found
    rw [same] at found
    rw [saveRecord, found, replaced]
    exact Or.inl ⟨rfl, holds.replace record same.symm⟩
  · have missing := holds.scan_missing record.storable member
    have added : upsert record records = records ++ [record] := by
      have whole := upsert_append_of_not_mem member []
      rwa [List.append_nil] at whole
    have inside := holds.inside
    have notLost : endOf 4 records ≠ 0xFFFF := by
      have fits := layout.sizeFits .param
      rw [storageSize, size_eq] at inside
      omega
    rw [saveRecord, missing]
    dsimp only
    rw [if_neg notLost]
    by_cases full : endOf 4 records + typeSize record.header.type.val + 2 * 4 ≥ storageSize layout
    · rw [if_pos full]
      exact Or.inr rfl
    · rw [if_neg full, added]
      rw [← record.length] at full ⊢
      exact Or.inl ⟨rfl, holds.append record member (Nat.not_le.mp full)⟩

theorem Holds.stored_upsert {hal' : Image} (holds : Holds layout hal records)
    (after : Holds layout hal' (upsert record records)) {other : Header} (storable : other.Storable)
    (different : other ≠ record.header) : stored layout hal' other = stored layout hal other := by
  by_cases member : other ∈ records.map Record.header
  · obtain ⟨before, kept, rest, split, same⟩ := exists_split member
    subst split
    rw [← same, holds.stored_found]
    by_cases earlier : record.header ∈ before.map Record.header
    · rw [upsert_append_of_mem earlier] at after
      rw [after.stored_found, endOf_upsert 4 earlier]
    · have behind : upsert record (kept :: rest) = kept :: upsert record rest := by
        rw [upsert, if_neg (same ▸ different)]
      rw [upsert_append_of_not_mem earlier, behind] at after
      exact after.stored_found
  · have absent : other ∉ (upsert record records).map Record.header := by
      rw [mem_headers_upsert]
      exact fun inside => inside.elim different member
    rw [holds.stored_missing storable member, after.stored_missing storable absent]

end Save

/-! ### A run of saves -/

/-- A call of `save(true)`: the memory at the time, and the address of the variable. -/
structure SaveCall where
  memory : Memory
  this : Int

/-- The header of the variable that is saved is storable. -/
def SaveCall.Storable (table : List Info) (call : SaveCall) : Prop :=
  ∀ found, findVarInfo table call.memory call.this = some found → found.header.Storable

/-- The storage, and beside it the value that was saved last for every header. -/
structure Store where
  hal : Image
  saved : Header → Option (List UInt8)

/-- One save. The map of the saved values changes when the save returns true. -/
def saveStep (layout : Layout) (table : List Info) (store : Store) (call : SaveCall) : Store where
  hal := (save layout table store.hal call.memory call.this).2
  saved :=
    match findVarInfo table call.memory call.this with
    | some found =>
      if (save layout table store.hal call.memory call.this).1 then
        Function.update store.saved found.header (some (found.value call.memory call.this))
      else store.saved
    | none => store.saved

/-- The store behind `erase_all`. -/
def erased (layout : Layout) (hal : Image) : Store := ⟨eraseAll layout hal, fun _ => none⟩

theorem Memory.read_length (memory : Memory) (address : Int) (count : Nat) :
    (memory.read address count).length = count := by
  rw [Memory.read, List.length_map, List.length_range]

/-- The record that a save stores. -/
def Found.record (found : Found) (memory : Memory) (this : Int) (storable : found.header.Storable) :
    Record where
  header := found.header
  data := found.value memory this
  storable := storable
  length := by
    rw [Found.value, Memory.read_length]
    show typeSize found.type.code = typeSize (makeHeader _ found.type.code _).type.val
    rw [makeHeader_type]

/-- The stored list holds the map of the saved values. -/
def Store.Refines (layout : Layout) (store : Store) (records : List Record) : Prop :=
  Holds layout store.hal records ∧ ∀ header, store.saved header = valueOf header records

section Run

variable {layout : Layout} {table : List Info} {store : Store} {records : List Record}

/-- What a save does to the store. -/
theorem save_step (refines : store.Refines layout records) (call : SaveCall)
    (storable : call.Storable table) :
    (∃ found record, findVarInfo table call.memory call.this = some found ∧
      record.header = found.header ∧ record.data = found.value call.memory call.this ∧
      (save layout table store.hal call.memory call.this).1 = true ∧
      (saveStep layout table store call).Refines layout (upsert record records)) ∨
      (save layout table store.hal call.memory call.this = (false, store.hal) ∧
        saveStep layout table store call = store) := by
  cases search : findVarInfo table call.memory call.this with
  | none =>
    have fails : save layout table store.hal call.memory call.this = (false, store.hal) := by
      simp only [save, saveWrites, search]
      rfl
    refine Or.inr ⟨fails, ?_⟩
    simp only [saveStep, search, fails]
  | some found =>
    have failing : saveWrites layout table store.hal call.memory call.this = (false, []) →
        save layout table store.hal call.memory call.this = (false, store.hal) ∧
          saveStep layout table store call = store := by
      intro nothing
      have fails : save layout table store.hal call.memory call.this = (false, store.hal) := by
        simp only [save, nothing]
        rfl
      refine ⟨fails, ?_⟩
      simp only [saveStep, search, fails, Bool.false_eq_true, if_false]
    by_cases odd : found.type ≠ .vector3f ∧ found.idx ≠ 0
    · refine Or.inr (failing ?_)
      simp only [saveWrites, search, if_pos odd]
    · have writes : saveWrites layout table store.hal call.memory call.this =
          saveRecord layout store.hal found.header (found.value call.memory call.this) := by
        simp only [saveWrites, search, if_neg odd]
      rcases refines.1.save_cases (found.record call.memory call.this (storable found search)) with
        ⟨succeeds, holds⟩ | nothing
      · refine Or.inl ⟨found, found.record call.memory call.this (storable found search), rfl, rfl,
          rfl, ?_⟩
        have result : (save layout table store.hal call.memory call.this).1 = true := by
          simp only [save, writes]
          exact succeeds
        refine ⟨result, ?_, fun header => ?_⟩
        · show Holds layout (save layout table store.hal call.memory call.this).2 _
          simp only [save, writes]
          exact holds
        · rw [valueOf_upsert]
          simp only [saveStep, search, result, if_true]
          by_cases same : header = found.header
          · rw [same, Function.update_self]
            exact (if_pos rfl).symm
          · rw [Function.update_of_ne same, refines.2 header]
            exact (if_neg same).symm
      · exact Or.inr (failing (writes.trans nothing))

/-- In every run of saves the stored list holds the map of the saved values. -/
theorem run_refines (room : 8 ≤ storageSize layout) (hal : Image) (calls : List SaveCall)
    (storable : ∀ call ∈ calls, call.Storable table) :
    ∃ records, (runCalls (saveStep layout table) (erased layout hal) calls).Refines layout
      records := by
  refine runCalls_invariant (fun store : Store => ∃ records, store.Refines layout records) (fun store call member held => ?_)
    ⟨[], eraseAll_holds room, fun _ => rfl⟩
  obtain ⟨records, refines⟩ := held
  rcases save_step refines call (storable call member) with
    ⟨found, record, -, -, -, -, next⟩ | ⟨-, same⟩
  · exact ⟨_, next⟩
  · rw [same]
    exact ⟨records, refines⟩

theorem run_known (layout : Layout) (table : List Info) (hal : Image) (calls : List SaveCall)
    (accepted : checkVarInfo table = true) (memory : Memory) (header : Header)
    (saved : (runCalls (saveStep layout table) (erased layout hal) calls).saved header ≠ none) :
    ∃ leaf ∈ leaves table memory, leaf.header = header := by
  refine List.mem_map.mp (runCalls_invariant (fun store : Store => ∀ header,
    store.saved header ≠ none → header ∈ (leaves table memory).map Leaf.header)
    (fun store call _ held header saved => ?_) (fun header saved => absurd rfl saved) header saved)
  unfold saveStep at saved
  cases search : findVarInfo table call.memory call.this with
  | none =>
    simp only [search] at saved
    exact held header saved
  | some found =>
    obtain ⟨leaf, member, -, -, -, same⟩ := findVarInfo_leaf accepted search
    simp only [search] at saved
    by_cases result : (save layout table store.hal call.memory call.this).1 = true
    · rw [if_pos result] at saved
      by_cases here : header = found.header
      · rw [leaves, leavesFrom_headers call.memory memory, here, same]
        exact List.mem_map_of_mem member
      · rw [Function.update_of_ne here] at saved
        exact held header saved
    · rw [if_neg result] at saved
      exact held header saved

end Run

/-! ### Loading all variables -/

/-- What `load_all` makes of one record. -/
def applyRecord (table : List Info) (memory : Memory) (record : Record) : Memory :=
  match findByHeader table memory record.header with
  | none => memory
  | some (_, ptr) => memory.write ptr record.data

section Load

variable {layout : Layout} {hal : Image} {table : List Info}

variable {record : Record} {memory : Memory}

/-- What a loop reads where a record lies. -/
theorem record_read {rest : List Record} {ofs : Nat}
    (listed : Occupied (flat .param hal layout.areas) ofs (record :: rest))
    (inside : endOf ofs (record :: rest) + 4 ≤ storageSize layout) (older : Header) :
    readHeader layout hal older ofs = record.header ∧ ofs < storageSize layout ∧
      ¬ isSentinal record.header = true ∧
      readBlock layout.areas .param hal (ofs + 4) record.data.length = (true, record.data) ∧
      Occupied (flat .param hal layout.areas) (ofs + (record.data.length + 4)) rest := by
  obtain ⟨header, data, later⟩ := listed
  have bound := le_endOf (ofs + (record.data.length + 4)) rest
  have size := record.storable.size
  have length := record.length
  rw [endOf] at inside
  refine ⟨readHeader_eq older ofs (by omega) header, by omega, ?_, ?_, later⟩
  · rw [record.storable.1]
    exact Bool.false_ne_true
  · have flatInside := inside
    rw [storageSize, size_eq] at flatInside
    rw [readBlock_flat layout.areas .param hal _ _ (length ▸ size.1)
      (le_trans (le_of_eq length) (le_trans size.2 (by decide))) (by omega), data]

/-- The loop goes over the records and ends at the end mark. -/
theorem loadAllFrom_eq (fuel : Nat) (older : Header) (ofs : Nat) (records : List Record)
    (memory : Memory) (listed : Occupied (flat .param hal layout.areas) ofs records)
    (closed : slice (flat .param hal layout.areas) (endOf ofs records) 4 = sentinal.bytes)
    (inside : endOf ofs records + 4 ≤ storageSize layout) :
    loadAllFrom layout table hal (records.length + (fuel + 1)) older ofs memory =
      (true, records.foldl (applyRecord table) memory) := by
  induction records generalizing older ofs memory with
  | nil =>
    have read : readHeader layout hal older ofs = sentinal := readHeader_eq older ofs inside closed
    have within : ofs < storageSize layout := lt_of_lt_of_le (Nat.lt_add_of_pos_right (by decide)) inside
    rw [List.length_nil, Nat.zero_add, loadAllFrom, if_pos within]
    simp only [read, sentinal_isSentinal, if_true, List.foldl_nil]
  | cons record rest inductionHypothesis =>
    obtain ⟨read, within, notEnd, content, later⟩ := record_read listed inside older
    rw [endOf] at inside closed
    have loaded : loadRecord layout table hal record.header ofs memory =
        applyRecord table memory record := by
      unfold loadRecord applyRecord
      rw [← record.length]
      cases findByHeader table memory record.header with
      | none => rfl
      | some found => exact congrArg (memory.write found.2) (congrArg Prod.snd content)
    rw [List.length_cons, Nat.add_right_comm, loadAllFrom, if_pos within]
    simp only [read, if_neg notEnd, ← record.length, loaded]
    exact inductionHypothesis record.header _ _ later closed inside

theorem Holds.loadAll_eq {records : List Record} (holds : Holds layout hal records)
    (memory : Memory) :
    loadAll layout table hal memory = (true, records.foldl (applyRecord table) memory) := by
  obtain ⟨fuel, enough⟩ := exists_fuel holds.inside
  rw [loadAll, enough]
  exact loadAllFrom_eq fuel _ 4 records memory holds.listed holds.closed holds.inside

theorem Memory.read_write_self (memory : Memory) (address : Int) (data : List UInt8) :
    (memory.write address data).read address data.length = data := by
  refine List.ext_getElem (Memory.read_length _ _ _) fun index low high => ?_
  have inside : address ≤ address + (index : Int) ∧
      address + (index : Int) < address + (data.length : Int) := by omega
  have place : (address + (index : Int) - address).toNat = index := by omega
  simp only [Memory.read, Memory.write, List.getElem_map, List.getElem_range, if_pos inside, place]
  exact List.getD_eq_getElem data 0 high

theorem Memory.read_write_apart (memory : Memory) (address other : Int) (data : List UInt8)
    (count : Nat) (apart : address + data.length ≤ other ∨ other + count ≤ address) :
    (memory.write address data).read other count = memory.read other count := by
  refine List.map_congr_left fun index member => ?_
  have bound := List.mem_range.mp member
  exact if_neg (by omega)

/-- A variable is known from its header. -/
theorem leaf_eq_of_header (accepted : checkVarInfo table = true)
    (keys : ∀ info ∈ table, info.key < 2 ^ 9) {first second : Leaf}
    (firstMember : first ∈ leaves table memory) (secondMember : second ∈ leaves table memory)
    (same : first.header = second.header) : first = second := by
  obtain ⟨-, firstRow, firstFits⟩ := leavesFrom_info memory accepted first firstMember
  obtain ⟨-, secondRow, secondFits⟩ := leavesFrom_info memory accepted second secondMember
  have key : first.info.key = second.info.key := by
    rw [← getKey_makeHeader (keys _ firstRow) first.type.code first.groupElement,
      ← getKey_makeHeader (keys _ secondRow) second.type.code second.groupElement]
    exact congrArg getKey same
  have element : first.groupElement = second.groupElement := by
    rw [← makeHeader_groupElement first.info.key first.type.code firstFits,
      ← makeHeader_groupElement second.info.key second.type.code secondFits]
    exact congrArg (fun header => header.groupElement.val) same
  exact eq_of_not_differ (leavesFrom_pairwise memory accepted) firstMember secondMember key element

theorem applyRecord_eq (accepted : checkVarInfo table = true)
    (keys : ∀ info ∈ table, info.key < 2 ^ 9) {leaf : Leaf} (member : leaf ∈ leaves table memory)
    (same : leaf.header = record.header) :
    applyRecord table memory record =
      match leaf.address with
      | none => memory
      | some address => memory.write address record.data := by
  obtain ⟨-, row, -⟩ := leavesFrom_info memory accepted leaf member
  rw [applyRecord, ← same, findByHeader_leaf table memory accepted (keys _ row) member]
  cases leaf.address <;> rfl

/-- Applying records gives every variable the value of its record, and keeps the others. -/
theorem foldl_applyRecord (accepted : checkVarInfo table = true)
    (keys : ∀ info ∈ table, info.key < 2 ^ 9) (records : List Record) (memory : Memory)
    (distinct : (records.map Record.header).Nodup)
    (known : ∀ record ∈ records, ∃ leaf ∈ leaves table memory, leaf.header = record.header)
    (apart : AllApart table memory) :
    ∀ leaf ∈ leaves table memory, ∀ address, leaf.address = some address →
      (records.foldl (applyRecord table) memory).read address (typeSize leaf.type.code) =
        (valueOf leaf.header records).getD (memory.read address (typeSize leaf.type.code)) := by
  induction records generalizing memory with
  | nil => exact fun leaf _ address _ => rfl
  | cons record rest inductionHypothesis =>
    obtain ⟨owner, ownerMember, ownerHeader⟩ := known record List.mem_cons_self
    have applied := applyRecord_eq accepted keys ownerMember ownerHeader
    have pointers : (applyRecord table memory record).pointers = memory.pointers := by
      rw [applied]
      cases owner.address <;> rfl
    have same := leaves_congr pointers table
    rw [List.map_cons, List.nodup_cons] at distinct
    have later := inductionHypothesis (applyRecord table memory record) distinct.2
      (fun other member => by
        rw [same]
        exact known other (List.mem_cons_of_mem _ member))
      (by rw [AllApart, same]; exact apart)
    rw [same] at later
    intro leaf member address allocated
    rw [List.foldl_cons, later leaf member address allocated, valueOf]
    by_cases here : record.header = leaf.header
    · have owned : owner = leaf :=
        leaf_eq_of_header accepted keys ownerMember member (ownerHeader.trans here)
      have size : typeSize leaf.type.code = record.data.length := by
        rw [record.length, here]
        show _ = typeSize (makeHeader _ leaf.type.code _).type.val
        rw [makeHeader_type]
      rw [owned, allocated] at applied
      rw [if_pos here, (valueOf_eq_none_iff _ _).mpr (here ▸ distinct.1), Option.getD_none, Option.getD_some,
        applied, size]
      exact memory.read_write_self address record.data
    · have other : owner ≠ leaf := fun equal => here (ownerHeader.symm.trans (equal ▸ rfl))
      have unchanged : (applyRecord table memory record).read address (typeSize leaf.type.code) =
          memory.read address (typeSize leaf.type.code) := by
        rw [applied]
        cases place : owner.address with
        | none => rfl
        | some low =>
          have size : typeSize owner.type.code = record.data.length := by
            rw [record.length, ← ownerHeader]
            show _ = typeSize (makeHeader _ owner.type.code _).type.val
            rw [makeHeader_type]
          refine Memory.read_write_apart _ _ _ _ _ ?_
          rw [← size]
          exact apart.apart ownerMember member other low place address allocated
      rw [if_neg here, unchanged]

end Load

/-! ### The finite map -/

/-- The store is a finite map. The storage holds the saved values as a list of records. A save that
returns true is found by a scan with its bytes, no other record moves or changes, and a save that
returns false changes no byte. In a table that passes its check and whose keys fit their field, a
variable is saved under its own header, and `load_all` gives every variable the value that was saved
last for it. -/
structure IsFiniteMap (layout : Layout) (table : List Info) (store : Store) : Prop where
  records : ∃ records, store.Refines layout records
  saves : ∀ (memory : Memory) (this : Int) (found : Found),
    findVarInfo table memory this = some found → found.header.Storable →
      (save layout table store.hal memory this).1 = true →
        ∃ ofs, scan layout (save layout table store.hal memory this).2 found.header = (true, ofs) ∧
          readBlock layout.areas .param (save layout table store.hal memory this).2 (ofs + 4)
            (typeSize found.type.code) = (true, found.value memory this)
  others : ∀ (memory : Memory) (this : Int) (found : Found) (other : Header),
    findVarInfo table memory this = some found → found.header.Storable → other.Storable →
      other ≠ found.header →
        stored layout (save layout table store.hal memory this).2 other =
          stored layout store.hal other
  fails : ∀ (memory : Memory) (this : Int),
    (save layout table store.hal memory this).1 = false →
      (save layout table store.hal memory this).2 = store.hal
  own : checkVarInfo table = true → ∀ memory, AllApart table memory →
    ∀ leaf ∈ leaves table memory, ∀ address, leaf.address = some address →
      ∃ found, findVarInfo table memory address = some found ∧ found.header = leaf.header ∧
        found.value memory address = memory.read address (typeSize leaf.type.code)
  loads : checkVarInfo table = true → (∀ info ∈ table, info.key < 2 ^ 9) →
    ∀ memory, AllApart table memory → (loadAll layout table store.hal memory).1 = true ∧
      ∀ leaf ∈ leaves table memory, ∀ address, leaf.address = some address →
        (loadAll layout table store.hal memory).2.read address (typeSize leaf.type.code) =
          (store.saved leaf.header).getD (memory.read address (typeSize leaf.type.code))

theorem saveRecord_fails {hal : Image} (result : (saveRecord layout hal header data).1 = false) :
    (saveRecord layout hal header data).2 = [] := by
  revert result
  unfold saveRecord
  obtain ⟨found, ofs⟩ := scan layout hal header
  cases found with
  | true => exact fun impossible => nomatch impossible
  | false =>
    intro result
    dsimp only at *
    by_cases lost : ofs = 0xFFFF
    · rw [if_pos lost]
    · rw [if_neg lost] at result ⊢
      by_cases full : ofs + typeSize header.type.val + 2 * 4 ≥ storageSize layout
      · rw [if_pos full]
      · rw [if_neg full] at result
        cases result

theorem save_fails {table : List Info} {hal : Image} {memory : Memory} {this : Int}
    (result : (save layout table hal memory this).1 = false) :
    (save layout table hal memory this).2 = hal := by
  have nothing : (saveWrites layout table hal memory this).2 = [] := by
    have result : (saveWrites layout table hal memory this).1 = false := result
    revert result
    unfold saveWrites
    cases findVarInfo table memory this with
    | none => exact fun _ => rfl
    | some found =>
      intro result
      dsimp only at *
      by_cases odd : found.type ≠ .vector3f ∧ found.idx ≠ 0
      · rw [if_pos odd]
      · rw [if_neg odd] at result ⊢
        exact saveRecord_fails result
  show runCalls (eepromWriteCheck layout) hal (saveWrites layout table hal memory this).2 = hal
  rw [nothing]
  rfl

/-- A run of saves from an erased storage is a finite map. -/
theorem finite_map (layout : Layout) (table : List Info) (hal : Image) (calls : List SaveCall)
    (room : 8 ≤ storageSize layout) (storable : ∀ call ∈ calls, call.Storable table) :
    IsFiniteMap layout table (runCalls (saveStep layout table) (erased layout hal) calls) := by
  have known := run_known layout table hal calls
  obtain ⟨records, refines⟩ := run_refines room hal calls storable
  generalize runCalls (saveStep layout table) (erased layout hal) calls = store at known refines ⊢
  refine ⟨⟨records, refines⟩, ?_, ?_, fun _ _ => save_fails, ?_, ?_⟩
  · intro memory this found search header result
    rcases save_step refines ⟨memory, this⟩ (fun other same => by
        rw [search] at same
        rwa [← Option.some.inj same]) with
      ⟨other, record, same, sameHeader, sameData, -, next, -⟩ | ⟨fails, -⟩
    · obtain rfl : found = other := Option.some.inj (search.symm.trans same)
      have value : valueOf found.header (upsert record records) = some (found.value memory this) := by
        rw [valueOf_upsert, if_pos sameHeader.symm, sameData]
      obtain ⟨ofs, here, content⟩ := next.scan_value value
      refine ⟨ofs, here, ?_⟩
      rw [← content]
      show _ = readBlock _ _ _ _ (typeSize (makeHeader _ found.type.code _).type.val)
      rw [makeHeader_type]
      rfl
    · rw [fails] at result
      cases result
  · intro memory this found other search header otherStorable different
    rcases save_step refines ⟨memory, this⟩ (fun other same => by
        rw [search] at same
        rwa [← Option.some.inj same]) with
      ⟨_, record, same, sameHeader, -, -, next, -⟩ | ⟨fails, -⟩
    · obtain rfl := Option.some.inj (search.symm.trans same)
      exact refines.1.stored_upsert next otherStorable (sameHeader ▸ different)
    · rw [fails]
  · intro accepted memory apart leaf member address allocated
    refine ⟨leaf.found 0, findVarInfo_own accepted apart member allocated, rfl, ?_⟩
    rw [Found.value]
    show memory.read (address - 0 * 4) _ = _
    rw [Int.zero_mul, Int.sub_zero]
    rfl
  · intro accepted keys memory apart
    rw [refines.1.loadAll_eq]
    refine ⟨rfl, fun leaf member address allocated => ?_⟩
    rw [refines.2]
    refine foldl_applyRecord accepted keys records memory refines.1.distinct
      (fun record member => known accepted memory record.header ?_) apart leaf member address allocated
    rw [refines.2, Ne, valueOf_eq_none_iff, not_not]
    exact List.mem_map_of_mem member

instance decidableSaveStorable (table : List Info) (call : SaveCall) :
    Decidable (call.Storable table) := decidableForallResult _ _

instance decidableApart (first second : Leaf) : Decidable (first.Apart second) :=
  decidableForallResult _ _

instance decidableAllApart (table : List Info) (memory : Memory) :
    Decidable (AllApart table memory) :=
  inferInstanceAs (Decidable ((leaves table memory).Pairwise Leaf.Apart))

/-- The nested table with its pointer group allocated, and bytes that all have one value. -/
def allocatedMemory (value : UInt8) : Memory :=
  ⟨fun address => if address = 2024 then 3000 else 0, fun _ => value⟩

/-- A number, a part of a vector, and the number again with another value. -/
def nestedCalls : List SaveCall :=
  [⟨allocatedMemory 1, 2000⟩, ⟨allocatedMemory 2, 3008⟩, ⟨allocatedMemory 3, 2000⟩]

theorem finite_map_nested :
    (checkVarInfo nestedTable = true ∧ (∀ info ∈ nestedTable, info.key < 2 ^ 9) ∧
      AllApart nestedTable (allocatedMemory 0)) ∧
      IsFiniteMap (Table.copter.layout 4096 (le_refl _)) nestedTable
        (runCalls (saveStep (Table.copter.layout 4096 (le_refl _)) nestedTable)
          (erased (Table.copter.layout 4096 (le_refl _)) fun _ => 0) nestedCalls) :=
  ⟨by decide, finite_map _ nestedTable (fun _ => 0) nestedCalls (by decide) (by decide)⟩

end Urus.Param
