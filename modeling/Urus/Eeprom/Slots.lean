/-
This file reads a page as what it is meant to be: a status and a list of entries, in
the order of its slots, with erased slots behind them. An entry is complete, or its
address is still missing because the power was lost behind the write of its data.

The scans of the source are then scans of the list. `read` finds the last entry of an
address, the first empty slot is the one behind the entries, and a page without entries
passes the check for blank.
-/

import Urus.Eeprom.Model

namespace Urus.Eeprom

@[simp] theorem Page.other_ne (page : Page) : page.other ≠ page := by
  cases page <;> decide

@[simp] theorem Page.ne_other (page : Page) : page ≠ page.other := by
  cases page <;> decide

@[simp] theorem Page.other_other (page : Page) : page.other.other = page := by
  cases page <;> rfl

/-! ### Addresses -/

/-- A virtual address that can be stored. -/
def IsAddress (address : UInt16) : Prop := address < 0x3FFF

instance : DecidablePred IsAddress := fun address => inferInstanceAs (Decidable (address < 0x3FFF))

theorem IsAddress.masked {address : UInt16} (good : IsAddress address) :
    address &&& addressMask = address := by
  have small : address.toNat < 0x3FFF := good
  apply UInt16.toNat_inj.mp
  rw [UInt16.toNat_and, show addressMask.toNat = 2 ^ 14 - 1 from rfl, Nat.and_two_pow_sub_one_eq_mod]
  exact Nat.mod_eq_of_lt (by omega)

theorem IsAddress.noFlags {address : UInt16} (good : IsAddress address) :
    address &&& flagsMask = 0 := by
  have apart : addressMask &&& flagsMask = 0 := by decide
  rw [← good.masked, UInt16.and_assoc, apart, UInt16.and_zero]

theorem IsAddress.ne_erased {address : UInt16} (good : IsAddress address) : address ≠ 0xFFFF := by
  rintro rfl
  exact absurd good (by decide)

/-! ### Entries -/

/-- A slot that is not empty. -/
structure Entry where
  data : UInt16
  address : UInt16
  written : IsAddress address ∨ address = 0xFFFF ∧ data ≠ 0xFFFF

/-- The address of the entry was written too. -/
def Entry.Complete (entry : Entry) : Prop := entry.address ≠ 0xFFFF

instance : DecidablePred Entry.Complete := fun entry =>
  inferInstanceAs (Decidable (entry.address ≠ 0xFFFF))

theorem Entry.Complete.isAddress {entry : Entry} (complete : entry.Complete) :
    IsAddress entry.address := by
  rcases entry.written with good | ⟨missing, -⟩
  · exact good
  · exact absurd missing complete

/-- The data of the last entry of an address. -/
def lookup (entries : List Entry) (address : UInt16) : Option UInt16 :=
  (entries.reverse.find? fun entry => entry.address == address).map Entry.data

@[simp] theorem lookup_nil (address : UInt16) : lookup [] address = none := rfl

theorem lookup_append_single (entries : List Entry) (entry : Entry) (address : UInt16) :
    lookup (entries ++ [entry]) address =
      if entry.address = address then some entry.data else lookup entries address := by
  rw [lookup, List.reverse_append, List.reverse_singleton, List.singleton_append, List.find?_cons]
  by_cases same : entry.address = address
  · rw [if_pos same, beq_iff_eq.mpr same]
    rfl
  · rw [if_neg same, beq_eq_false_iff_ne.mpr same]
    rfl

theorem lookup_append (first second : List Entry) (address : UInt16) :
    lookup (first ++ second) address = (lookup second address).or (lookup first address) := by
  induction second using List.reverseRecOn with
  | nil => rw [List.append_nil, lookup_nil, Option.none_or]
  | append_singleton second entry inductionHypothesis =>
    rw [← List.append_assoc, lookup_append_single, lookup_append_single, inductionHypothesis]
    split
    · rfl
    · rfl

theorem lookup_eq_none_iff (entries : List Entry) (address : UInt16) :
    lookup entries address = none ↔ ∀ entry ∈ entries, entry.address ≠ address := by
  rw [lookup, Option.map_eq_none_iff, List.find?_eq_none]
  constructor
  · intro none entry member same
    exact none entry (List.mem_reverse.mpr member) (beq_iff_eq.mpr same)
  · intro miss entry member same
    exact miss entry (List.mem_reverse.mp member) (beq_iff_eq.mp same)

theorem lookup_append_miss (first second : List Entry) (address : UInt16)
    (miss : ∀ entry ∈ second, entry.address ≠ address) :
    lookup (first ++ second) address = lookup first address := by
  rw [lookup_append, (lookup_eq_none_iff second address).mpr miss, Option.none_or]

theorem exists_last_of_lookup {entries : List Entry} {address data : UInt16}
    (found : lookup entries address = some data) :
    ∃ front entry back, entries = front ++ entry :: back ∧ entry.address = address ∧
      entry.data = data ∧ ∀ other ∈ back, other.address ≠ address := by
  induction entries using List.reverseRecOn with
  | nil => cases found
  | append_singleton entries entry inductionHypothesis =>
    rw [lookup_append_single] at found
    by_cases same : entry.address = address
    · rw [if_pos same] at found
      exact ⟨entries, entry, [], rfl, same, Option.some.inj found, fun _ member =>
        absurd member List.not_mem_nil⟩
    · rw [if_neg same] at found
      obtain ⟨front, last, back, rfl, good, value, later⟩ := inductionHypothesis found
      refine ⟨front, last, back ++ [entry], by simp, good, value, fun other member => ?_⟩
      rcases List.mem_append.mp member with old | new
      · exact later other old
      · rw [List.mem_singleton.mp new]
        exact same

/-! ### Pages -/

/-- A page has a status and holds a list of entries, and its other slots are empty. -/
structure Holds (geometry : Geometry) (words : Words) (status : UInt16)
    (entries : List Entry) : Prop where
  status : words 0 = status
  entry : ∀ index, (inside : index < entries.length) →
    words (dataAt (index + 1)) = entries[index].data ∧
      words (addressAt (index + 1)) = entries[index].address
  blank : ∀ slot, entries.length < slot → slot ≤ geometry.slots →
    words (dataAt slot) = 0xFFFF ∧ words (addressAt slot) = 0xFFFF
  fits : entries.length ≤ geometry.slots

theorem Geometry.three_le_slots (geometry : Geometry) : 3 ≤ geometry.slots := by
  have large := geometry.large
  unfold Geometry.slots
  omega

section Scans

variable {geometry : Geometry} {words : Words} {status : UInt16} {entries : List Entry}

section

variable (holds : Holds geometry words status entries)

include holds

theorem Holds.not_slotEmpty (slot : Nat)
    (low : 1 ≤ slot) (high : slot ≤ entries.length) : slotEmpty words slot = false := by
  obtain ⟨index, rfl⟩ : ∃ index, slot = index + 1 := ⟨slot - 1, by omega⟩
  obtain ⟨data, address⟩ := holds.entry index (by omega)
  rw [slotEmpty, data, address, Bool.and_eq_false_iff]
  rcases entries[index].written with good | ⟨-, some⟩
  · exact Or.inr (beq_eq_false_iff_ne.mpr good.ne_erased)
  · exact Or.inl (beq_eq_false_iff_ne.mpr some)

theorem Holds.slotEmpty (slot : Nat)
    (low : entries.length < slot) (high : slot ≤ geometry.slots) :
    Eeprom.slotEmpty words slot = true := by
  obtain ⟨data, address⟩ := holds.blank slot low high
  rw [Eeprom.slotEmpty, data, address]
  rfl

theorem Holds.firstEmpty_eq (room : entries.length < geometry.slots) :
    firstEmpty geometry words = some (entries.length + 1) := by
  rw [firstEmpty, List.find?_range'_eq_some]
  refine ⟨holds.slotEmpty _ (by omega) (by omega), ?_, fun slot low high => ?_⟩
  · rw [List.mem_range'_1]
    omega
  · rw [holds.not_slotEmpty slot low (by omega)]
    rfl

theorem Holds.firstEmpty_none
    (full : entries.length = geometry.slots) : firstEmpty geometry words = none := by
  rw [firstEmpty, List.find?_eq_none]
  intro slot member
  rw [List.mem_range'_1] at member
  rw [holds.not_slotEmpty slot (by omega) (by omega)]
  exact Bool.false_ne_true

end

theorem Holds.checkPage_ok {req : UInt16} (holds : Holds geometry words status [])
    (known : status = erased ∨ status = req) : checkPage geometry words req = .ok := by
  have good : ¬ (words 0 ≠ erased ∧ words 0 ≠ req) := by
    rw [holds.status]
    rintro ⟨notErased, notReq⟩
    rcases known with same | same
    · exact notErased same
    · exact notReq same
  have empty : (List.range' 1 geometry.slots).all (Eeprom.slotEmpty words) = true := by
    rw [List.all_eq_true]
    intro slot member
    rw [List.mem_range'_1] at member
    exact holds.slotEmpty slot (by rw [List.length_nil]; omega) (by omega)
  rw [checkPage, if_neg good, if_pos empty]

theorem Holds.readLoop_eq (holds : Holds geometry words status entries) (address : UInt16)
    (good : address ≠ 0xFFFF) :
    readLoop words address geometry.slots = lookup entries address := by
  have atEntries : ∀ count, count ≤ entries.length →
      readLoop words address count = lookup (entries.take count) address := by
    intro count
    induction count with
    | zero => exact fun _ => rfl
    | succ count inductionHypothesis =>
      intro bound
      have inside : count < entries.length := bound
      obtain ⟨data, stored⟩ := holds.entry count inside
      rw [readLoop, data, stored, List.take_succ_eq_append_getElem inside, lookup_append_single,
        inductionHypothesis (by omega)]
  have behind : ∀ extra, entries.length + extra ≤ geometry.slots →
      readLoop words address (entries.length + extra) = readLoop words address entries.length := by
    intro extra
    induction extra with
    | zero => exact fun _ => rfl
    | succ extra inductionHypothesis =>
      intro bound
      obtain ⟨-, empty⟩ := holds.blank (entries.length + extra + 1) (by omega) bound
      rw [← Nat.add_assoc, readLoop, empty, if_neg (Ne.symm good)]
      exact inductionHypothesis (by omega)
  have all := behind (geometry.slots - entries.length) (by have := holds.fits; omega)
  rw [Nat.add_sub_cancel' holds.fits] at all
  rw [all, atEntries entries.length (le_refl _), List.take_length]

theorem Holds.updateScan_stored (front back : List Entry) (entry : Entry)
    (holds : Holds geometry words status (front ++ entry :: back)) (good : entry.Complete)
    (later : ∀ other ∈ back, other.address ≠ entry.address) :
    updateScan words entry.address geometry.slots = some (front.length + 1) := by
  have length : (front ++ entry :: back).length = front.length + 1 + back.length := by
    simp only [List.length_append, List.length_cons]
    omega
  have fits := holds.fits
  have skipped : ∀ extra, front.length + 1 + extra ≤ geometry.slots →
      updateScan words entry.address (front.length + 1 + extra) = some (front.length + 1) := by
    intro extra
    induction extra with
    | zero =>
      intro _
      obtain ⟨-, stored⟩ := holds.entry front.length (by omega)
      rw [List.getElem_append_right (le_refl _)] at stored
      simp only [Nat.sub_self, List.getElem_cons_zero] at stored
      rw [Nat.add_zero, updateScan, if_pos stored]
    | succ extra inductionHypothesis =>
      intro bound
      have miss : words (addressAt (front.length + 1 + extra + 1)) ≠ entry.address := by
        by_cases inside : front.length + 1 + extra < (front ++ entry :: back).length
        · obtain ⟨-, stored⟩ := holds.entry _ inside
          rw [stored, List.getElem_append_right (by omega)]
          refine later _ ?_
          have position : front.length + 1 + extra - front.length = extra + 1 := by omega
          simp only [position, List.getElem_cons_succ]
          exact List.getElem_mem _
        · rw [(holds.blank (front.length + 1 + extra + 1) (by omega) bound).2]
          exact Ne.symm good
      rw [← Nat.add_assoc, updateScan, if_neg miss]
      exact inductionHypothesis (by omega)
  have all := skipped (geometry.slots - (front.length + 1)) (by omega)
  rwa [Nat.add_sub_cancel' (by omega)] at all

/-- The scan of a write for an address that is not stored ends at the page header. -/
theorem Holds.updateScan_missing (holds : Holds geometry words status entries) (address : UInt16)
    (good : address ≠ 0xFFFF) (missing : lookup entries address = none) :
    updateScan words address geometry.slots = if words 2 = address then some 0 else none := by
  have skipped : ∀ count, count ≤ geometry.slots →
      updateScan words address count = if words 2 = address then some 0 else none := by
    intro count
    induction count with
    | zero => exact fun _ => rfl
    | succ count inductionHypothesis =>
      intro bound
      have miss : words (addressAt (count + 1)) ≠ address := by
        by_cases inside : count < entries.length
        · rw [(holds.entry count inside).2]
          exact (lookup_eq_none_iff _ _).mp missing _ (List.getElem_mem _)
        · rw [(holds.blank _ (by omega) bound).2]
          exact Ne.symm good
      rw [updateScan, if_neg miss]
      exact inductionHypothesis (by omega)
  exact skipped geometry.slots (le_refl _)

end Scans

/-! ### Programming a page -/

section Program

variable {geometry : Geometry} {words : Words} {status : UInt16} {entries : List Entry}

theorem erased_and (data : UInt16) : 0xFFFF &&& data = data := UInt16.neg_one_and

/-- A half-word of a slot does not change when another half-word is programmed. -/
theorem Holds.mark (holds : Holds geometry words status entries) (value : UInt16) :
    Holds geometry (Function.update words 0 value) value entries := by
  have data : ∀ slot, 1 ≤ slot → Function.update words 0 value (dataAt slot) = words (dataAt slot) :=
    fun slot low => Function.update_of_ne (by rw [dataAt]; omega) _ _
  have address : ∀ slot, Function.update words 0 value (addressAt slot) = words (addressAt slot) :=
    fun slot => Function.update_of_ne (by rw [addressAt]; omega) _ _
  refine ⟨Function.update_self _ _ _, fun index inside => ?_, fun slot low high => ?_, holds.fits⟩
  · rw [data _ (by omega), address]
    exact holds.entry index inside
  · rw [data _ (by omega), address]
    exact holds.blank slot low high

/-- A page with one more entry in its first empty slot. -/
theorem Holds.extend (holds : Holds geometry words status entries) (entry : Entry)
    (room : entries.length < geometry.slots) {words' : Words} (header : words' 0 = words 0)
    (same : ∀ slot, slot ≠ entries.length + 1 →
      words' (dataAt slot) = words (dataAt slot) ∧ words' (addressAt slot) = words (addressAt slot))
    (data : words' (dataAt (entries.length + 1)) = entry.data)
    (address : words' (addressAt (entries.length + 1)) = entry.address) :
    Holds geometry words' status (entries ++ [entry]) := by
  have length : (entries ++ [entry]).length = entries.length + 1 := by simp
  refine ⟨header.trans holds.status, fun index inside => ?_, fun slot low high => ?_, by omega⟩
  · by_cases last : index = entries.length
    · subst last
      rw [List.getElem_append_right (le_refl _)]
      simp only [Nat.sub_self, List.getElem_cons_zero]
      exact ⟨data, address⟩
    · have old : index < entries.length := by omega
      rw [List.getElem_append_left old, (same (index + 1) (by omega)).1,
        (same (index + 1) (by omega)).2]
      exact holds.entry index old
  · rw [(same slot (by omega)).1, (same slot (by omega)).2]
    exact holds.blank slot (by omega) high

/-- A page whose empty slot was programmed with erased data has not changed. -/
theorem Holds.congr (holds : Holds geometry words status entries) {words' : Words}
    (same : ∀ offset, words' offset = words offset) : Holds geometry words' status entries := by
  rw [show words' = words from funext same]
  exact holds

/-- The entry that a write of the data alone leaves. -/
def pending (data : UInt16) : List Entry :=
  if missing : data = 0xFFFF then [] else [⟨data, 0xFFFF, Or.inr ⟨rfl, missing⟩⟩]

/-- The words of a page when the data of its first empty slot is programmed. -/
def withData (words : Words) (slot : Nat) (data : UInt16) : Words :=
  Function.update words (dataAt slot) data

/-- The words of a page when a whole slot is programmed. -/
def withSlot (words : Words) (slot : Nat) (data address : UInt16) : Words :=
  Function.update (withData words slot data) (addressAt slot) address

theorem Holds.withData (holds : Holds geometry words status entries) (data : UInt16)
    (room : entries.length < geometry.slots) :
    Holds geometry (Eeprom.withData words (entries.length + 1) data) status
      (entries ++ pending data) := by
  have addressKept : ∀ slot, Eeprom.withData words (entries.length + 1) data (addressAt slot) =
      words (addressAt slot) :=
    fun slot => Function.update_of_ne (by rw [addressAt, dataAt]; omega) _ _
  by_cases missing : data = 0xFFFF
  · rw [pending, dif_pos missing, List.append_nil]
    refine holds.congr fun offset => ?_
    by_cases here : offset = dataAt (entries.length + 1)
    · subst here
      rw [Eeprom.withData, Function.update_self, missing,
        (holds.blank _ (Nat.lt_succ_self _) room).1]
    · exact Function.update_of_ne here _ _
  · rw [pending, dif_neg missing]
    refine holds.extend _ room ?_ (fun slot other => ⟨?_, addressKept slot⟩) ?_ ?_
    · exact Function.update_of_ne (by rw [dataAt]; omega) _ _
    · exact Function.update_of_ne (by rw [dataAt, dataAt]; omega) _ _
    · exact Function.update_self _ _ _
    · rw [addressKept]
      exact (holds.blank _ (Nat.lt_succ_self _) room).2

theorem Holds.withSlot (holds : Holds geometry words status entries) (entry : Entry)
    (room : entries.length < geometry.slots) :
    Holds geometry (Eeprom.withSlot words (entries.length + 1) entry.data entry.address) status
      (entries ++ [entry]) := by
  refine holds.extend entry room ?_ (fun slot other => ⟨?_, ?_⟩) ?_ ?_
  · rw [Eeprom.withSlot, Function.update_of_ne (by rw [addressAt]; omega)]
    exact Function.update_of_ne (by rw [dataAt]; omega) _ _
  · rw [Eeprom.withSlot, Function.update_of_ne (by rw [addressAt, dataAt]; omega)]
    exact Function.update_of_ne (by rw [dataAt, dataAt]; omega) _ _
  · rw [Eeprom.withSlot, Function.update_of_ne (by rw [addressAt, addressAt]; omega)]
    exact Function.update_of_ne (by rw [addressAt, dataAt]; omega) _ _
  · rw [Eeprom.withSlot, Function.update_of_ne (by rw [addressAt, dataAt]; omega)]
    exact Function.update_self _ _ _
  · exact Function.update_self _ _ _

theorem Holds.replace (front back : List Entry) (entry : Entry)
    (holds : Holds geometry words status (front ++ entry :: back)) (good : entry.Complete)
    (data : UInt16) :
    Holds geometry (Eeprom.withData words (front.length + 1) data) status
      (front ++ ⟨data, entry.address, Or.inl good.isAddress⟩ :: back) := by
  have addressKept : ∀ slot, Eeprom.withData words (front.length + 1) data (addressAt slot) =
      words (addressAt slot) :=
    fun slot => Function.update_of_ne (by rw [addressAt, dataAt]; omega) _ _
  have dataKept : ∀ slot, slot ≠ front.length + 1 →
      Eeprom.withData words (front.length + 1) data (dataAt slot) = words (dataAt slot) :=
    fun slot other => Function.update_of_ne (by rw [dataAt, dataAt]; omega) _ _
  have length : (front ++ (⟨data, entry.address, Or.inl good.isAddress⟩ : Entry) :: back).length =
      (front ++ entry :: back).length := by simp
  refine ⟨?_, fun index inside => ?_, fun slot low high => ?_, length ▸ holds.fits⟩
  · rw [Eeprom.withData, Function.update_of_ne (by rw [dataAt]; omega)]
    exact holds.status
  · rw [length] at inside
    obtain ⟨oldData, oldAddress⟩ := holds.entry index inside
    rw [addressKept, oldAddress]
    rcases Nat.lt_trichotomy index front.length with before | rfl | behind
    · rw [dataKept _ (by omega), oldData, List.getElem_append_left before,
        List.getElem_append_left before]
      exact ⟨rfl, rfl⟩
    · rw [List.getElem_append_right (le_refl _), List.getElem_append_right (le_refl _)]
      simp only [Nat.sub_self, List.getElem_cons_zero]
      exact ⟨Function.update_self _ _ _, trivial⟩
    · obtain ⟨offset, rfl⟩ : ∃ offset, index = front.length + 1 + offset :=
        ⟨index - (front.length + 1), by omega⟩
      have position : front.length + 1 + offset - front.length = offset + 1 := by omega
      rw [dataKept _ (by omega), oldData, List.getElem_append_right (by omega),
        List.getElem_append_right (by omega)]
      simp only [position, List.getElem_cons_succ]
      exact ⟨trivial, trivial⟩
  · rw [addressKept, dataKept _ (by simp only [length, List.length_append, List.length_cons] at low; omega)]
    exact holds.blank slot (length ▸ low) high

end Program

end Urus.Eeprom
