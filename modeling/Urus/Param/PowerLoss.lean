/-
This file proves that a save of a new variable survives a loss of power. The save writes a new
end mark and the data behind the end of the list, over whatever bytes are there, and its last
write puts the header in the place of the old end mark. Up to that write the list is the old one:
it depends only on the bytes up to its end mark.
-/

import Urus.Param.Store

namespace Urus.Param

open Image StorageManager

/-! ### The list up to its end mark -/

section Cut

variable {layout : Layout} {hal hal' : Image} {records : List Record}

/-- The list depends only on the bytes up to its end mark. -/
theorem Holds.congr (holds : Holds layout hal records)
    (agree : Agree (flat .param hal layout.areas) (flat .param hal' layout.areas) 0
      (endOf 4 records + 4)) : Holds layout hal' records := by
  have low := le_endOf 4 records
  refine ⟨?_, ?_, ?_, holds.inside, holds.distinct⟩
  · rw [← holds.start]
    exact (slice_congr fun address _ below => agree address (Nat.zero_le _) (by omega)).symm
  · exact holds.listed.congr fun address _ below => agree address (Nat.zero_le _) (by omega)
  · rw [← holds.closed]
    exact (slice_congr fun address _ below => agree address (Nat.zero_le _) below).symm

theorem Holds.behind (holds : Holds layout hal records) {ofs : Nat} {data : List UInt8}
    (after : endOf 4 records + 4 ≤ ofs) (positive : 1 ≤ data.length) (short : data.length ≤ 12)
    (inside : ofs + data.length ≤ storageSize layout) :
    Holds layout (eepromWriteCheck layout hal ⟨ofs, data⟩) records := by
  refine holds.congr fun address _ below => ?_
  rw [flat_eepromWriteCheck layout hal ofs data positive short inside]
  exact (put_outside _ _ _ _ (Or.inl (by omega))).symm

/-! ### What a search sees -/

/-- The result of a scan, and the bytes behind the header when it is found. -/
def lookup (layout : Layout) (hal : Image) (target : Header) : (Bool × Nat) × List UInt8 :=
  (scan layout hal target,
    if (scan layout hal target).1 then
      (readBlock layout.areas .param hal ((scan layout hal target).2 + 4)
        (typeSize target.type.val)).2
    else [])

theorem readBlock_zero (areas : List StorageArea) (type : StorageType) (hal : Image) (addr : Nat) :
    (readBlock areas type hal addr 0).2 = [] := by
  have nothing : ∀ (areas : List StorageArea) (addr : Nat) (bytes : List UInt8),
      (blockLoop type (readTransfer hal) areas addr 0 bytes).2 = bytes := by
    intro areas
    induction areas with
    | nil => exact fun _ _ => rfl
    | cons area rest inductionHypothesis =>
      intro addr bytes
      rw [blockLoop]
      split
      · exact inductionHypothesis addr bytes
      · split
        · exact inductionHypothesis _ bytes
        · rename_i inside
          rw [Nat.zero_mod, if_neg (show ¬ 0 + addr > area.length by omega)]
          exact List.append_nil bytes
  exact nothing areas addr []

section

variable (holds : Holds layout hal records)

include holds

theorem Holds.scan_absent {target : Header}
    (missing : target ∉ records.map Record.header) :
    scan layout hal target = (decide (target = sentinal), endOf 4 records) := by
  obtain ⟨fuel, enough⟩ := exists_fuel holds.inside
  obtain ⟨older, skip⟩ := scanFrom_skip target (fuel + 1) (Header.ofWord 0) 4 records holds.listed
    holds.inside missing
  have read : readHeader layout hal older (endOf 4 records) = sentinal :=
    readHeader_eq older _ holds.inside holds.closed
  have within : endOf 4 records < storageSize layout := by
    have inside := holds.inside
    omega
  rw [scan, enough, skip, scanFrom, if_pos within]
  simp only [read, sameHeader_iff]
  by_cases mark : target = sentinal
  · rw [if_pos mark.symm, decide_eq_true mark]
  · rw [if_neg (Ne.symm mark), if_pos sentinal_isSentinal, decide_eq_false mark]

/-- Two storages with the same list look the same to every search. -/
theorem Holds.lookup_eq (holds' : Holds layout hal' records)
    (target : Header) : lookup layout hal target = lookup layout hal' target := by
  by_cases member : target ∈ records.map Record.header
  · obtain ⟨before, record, after, split, same⟩ := exists_split member
    subst split same
    rw [lookup, lookup, holds.scan_found, holds'.scan_found]
    simp only [holds.read_data, holds'.read_data]
  · rw [lookup, lookup, holds.scan_absent member, holds'.scan_absent member]
    by_cases mark : target = sentinal
    · have size : typeSize target.type.val = 0 := by
        rw [mark]
        rfl
      simp only [size, readBlock_zero]
    · rw [decide_eq_false mark]
      rfl

/-! ### A save that is cut off -/

/-- Whatever part of a save of a new record is done, the list is the old one, or the save is complete and
the list has the record at its end. -/
theorem Holds.save_cut (record : Record)
    (missing : record.header ∉ records.map Record.header) (count : Nat) :
    Holds layout (runCalls (eepromWriteCheck layout) hal
        ((saveRecord layout hal record.header record.data).2.take count)) records ∨
      (saveRecord layout hal record.header record.data).2.take count =
          (saveRecord layout hal record.header record.data).2 ∧
        Holds layout (runCalls (eepromWriteCheck layout) hal
          (saveRecord layout hal record.header record.data).2) (records ++ [record]) := by
  have size := record.storable.size
  have length := record.length
  have markLength : sentinal.bytes.length = 4 := rfl
  rw [saveRecord, holds.scan_missing record.storable missing]
  dsimp only
  split
  · rw [List.take_nil]
    exact Or.inl holds
  · split
    · rw [List.take_nil]
      exact Or.inl holds
    · rename_i room
      rw [not_le] at room
      have first : Holds layout (eepromWriteCheck layout hal
          ⟨endOf 4 records + 4 + typeSize record.header.type.val, sentinal.bytes⟩) records :=
        holds.behind (by omega) (by omega) (by omega) (by omega)
      have second := first.behind (le_refl (endOf 4 records + 4)) (length ▸ size.1)
        (length ▸ size.2) (show _ + record.data.length ≤ _ by omega)
      rcases count with _ | _ | _ | count
      · exact Or.inl holds
      · exact Or.inl first
      · exact Or.inl second
      · have whole := holds.append record missing (by omega)
        rw [length] at whole
        exact Or.inr ⟨List.take_of_length_le (Nat.le_add_left 3 count), whole⟩

theorem Holds.saved (table : List Info) (call : SaveCall)
    (storable : call.Storable table) :
    ∃ records', Holds layout (save layout table hal call.memory call.this).2 records' := by
  have refines : Store.Refines layout ⟨hal, fun header => valueOf header records⟩ records :=
    ⟨holds, fun _ => rfl⟩
  rcases save_step refines call storable with ⟨_, _, -, -, -, -, next, -⟩ | ⟨fails, -⟩
  · exact ⟨_, next⟩
  · exact ⟨records, by rw [fails]; exact holds⟩

end

end Cut

/-- What a save that is cut off must leave: every search sees the storage from before the save or the
one behind it, the records from before are found with their values, and the storage holds a list,
which a load goes through to its end and a later save keeps. -/
structure Survives (layout : Layout) (table : List Info) (before after cut : Image)
    (records : List Record) : Prop where
  seen : (∀ target, lookup layout cut target = lookup layout before target) ∨
    ∀ target, lookup layout cut target = lookup layout after target
  kept : ∀ record ∈ records, ∃ ofs, scan layout cut record.header = (true, ofs) ∧
    readBlock layout.areas .param cut (ofs + 4) (typeSize record.header.type.val) =
      (true, record.data)
  list : ∃ list, records <+: list ∧ Holds layout cut list
  loads : ∀ memory, (loadAll layout table cut memory).1 = true
  saves : ∀ call : SaveCall, call.Storable table →
    ∃ list, Holds layout (save layout table cut call.memory call.this).2 list

theorem Holds.survives {layout : Layout} {before after cut : Image} {records list : List Record}
    (holds : Holds layout cut list) (table : List Info) (earlier : records <+: list)
    (seen : (∀ target, lookup layout cut target = lookup layout before target) ∨
      ∀ target, lookup layout cut target = lookup layout after target) :
    Survives layout table before after cut records where
  seen := seen
  kept := by
    intro record member
    obtain ⟨first, last, split⟩ := List.append_of_mem (earlier.subset member)
    subst split
    exact ⟨endOf 4 first, holds.scan_found, holds.read_data⟩
  list := ⟨list, earlier, holds⟩
  loads := fun memory => by rw [holds.loadAll_eq]
  saves := fun call storable => holds.saved table call storable

/-- A save of a variable that is not stored yet survives if execution stops behind any number of its
writes. -/
theorem save_survives {layout : Layout} {table : List Info} {hal : Image} {records : List Record}
    (holds : Holds layout hal records) {memory : Memory} {this : Int} {found : Found}
    (search : findVarInfo table memory this = some found) (storable : found.header.Storable)
    (missing : found.header ∉ records.map Record.header) (count : Nat) :
    Survives layout table hal (save layout table hal memory this).2
      (runCalls (eepromWriteCheck layout) hal
        ((saveWrites layout table hal memory this).2.take count)) records := by
  rw [save]
  dsimp only
  rw [saveWrites, search]
  dsimp only
  by_cases odd : found.type ≠ .vector3f ∧ found.idx ≠ 0
  · rw [if_pos odd, List.take_nil]
    exact holds.survives table (List.prefix_refl _) (Or.inl fun _ => rfl)
  · rw [if_neg odd]
    rcases holds.save_cut (found.record memory this storable) missing count with
      old | ⟨complete, new⟩
    · exact old.survives table (List.prefix_refl _) (Or.inl fun target => old.lookup_eq holds target)
    · rw [show (saveRecord layout hal found.header (found.value memory this)).2.take count = _
        from complete]
      exact new.survives table (List.prefix_append _ _) (Or.inr fun _ => rfl)

/-- A number is saved to an erased storage, and execution stops behind the data. -/
theorem save_survives_nested :
    Survives (Table.copter.layout 4096 (le_refl _)) nestedTable
      (eraseAll (Table.copter.layout 4096 (le_refl _)) fun _ => 7)
      (save (Table.copter.layout 4096 (le_refl _)) nestedTable
        (eraseAll (Table.copter.layout 4096 (le_refl _)) fun _ => 7) (allocatedMemory 1) 2000).2
      (runCalls (eepromWriteCheck (Table.copter.layout 4096 (le_refl _)))
        (eraseAll (Table.copter.layout 4096 (le_refl _)) fun _ => 7)
        ((saveWrites (Table.copter.layout 4096 (le_refl _)) nestedTable
          (eraseAll (Table.copter.layout 4096 (le_refl _)) fun _ => 7)
          (allocatedMemory 1) 2000).2.take 2)) [] := by
  have search : (findVarInfo nestedTable (allocatedMemory 1) 2000).isSome = true := by
    decide +kernel
  have storable : ∀ found, findVarInfo nestedTable (allocatedMemory 1) 2000 = some found →
      found.header.Storable := by decide +kernel
  obtain ⟨found, same⟩ := Option.isSome_iff_exists.mp search
  exact save_survives (eraseAll_holds (by decide)) same (storable found same) List.not_mem_nil 2

end Urus.Param
