/-
This file develops the stored list of parameters as a list of records: where it lies in
the storage, what the search for a header finds in it, and what a save makes of it.

The list is kept by two kinds of change. The data of a record is replaced by data of the
same length, which moves no other record. Or a record is put in the place of the end mark,
with a new end mark behind it, when both are inside the storage.
-/

import Urus.Param.Storage

namespace Urus.Param

open Image StorageManager

/-! ### Headers -/

/-- A header that can be told from the end of the list, of a type with a size. -/
def Header.Storable (header : Header) : Prop :=
  isSentinal header = false ∧ 1 ≤ header.type.val ∧ header.type.val ≤ 5

instance decidableStorable (header : Header) : Decidable header.Storable :=
  inferInstanceAs (Decidable (_ ∧ _ ∧ _))

theorem Header.Storable.size {header : Header} (storable : header.Storable) :
    1 ≤ typeSize header.type.val ∧ typeSize header.type.val ≤ 12 := by
  obtain ⟨-, low, high⟩ := storable
  generalize header.type.val = code at low high
  interval_cases code <;> decide

theorem Header.word_lt (header : Header) : header.word < 2 ^ 32 := by
  have low := header.keyLow.isLt
  have type := header.type.isLt
  have high := header.keyHigh.isLt
  have element := header.groupElement.isLt
  unfold Header.word
  omega

theorem Header.ofWord_word (header : Header) : Header.ofWord header.word = header := by
  obtain ⟨⟨low, lowBound⟩, ⟨type, typeBound⟩, ⟨high, highBound⟩, ⟨element, elementBound⟩⟩ := header
  simp only [Header.ofWord, Header.word, Header.mk.injEq, Fin.ext_iff, Fin.val_ofNat]
  refine ⟨?_, ?_, ?_, ?_⟩ <;> omega

theorem Header.ofBytes_bytes (header : Header) : Header.ofBytes header.bytes = header := by
  have bound := header.word_lt
  have joined : header.word % 2 ^ 8 + 2 ^ 8 * (header.word / 2 ^ 8 % 2 ^ 8) +
      2 ^ 16 * (header.word / 2 ^ 16 % 2 ^ 8) + 2 ^ 24 * (header.word / 2 ^ 24 % 2 ^ 8) =
        header.word := by omega
  show Header.ofWord ((UInt8.ofNat header.word).toNat +
    2 ^ 8 * (UInt8.ofNat (header.word / 2 ^ 8)).toNat +
    2 ^ 16 * (UInt8.ofNat (header.word / 2 ^ 16)).toNat +
    2 ^ 24 * (UInt8.ofNat (header.word / 2 ^ 24)).toNat) = header
  rw [UInt8.toNat_ofNat', UInt8.toNat_ofNat', UInt8.toNat_ofNat', UInt8.toNat_ofNat', joined,
    Header.ofWord_word]

/-- The comparison that `scan` makes is the equality of headers. -/
theorem sameHeader_iff (first second : Header) :
    (first.type = second.type ∧ getKey first = getKey second ∧
      first.groupElement = second.groupElement) ↔ first = second := by
  constructor
  · rintro ⟨type, key, element⟩
    have low := first.keyLow.isLt
    have low' := second.keyLow.isLt
    unfold getKey at key
    cases first
    cases second
    simp only [Header.mk.injEq, Fin.ext_iff] at *
    refine ⟨?_, type, ?_, element⟩ <;> omega
  · rintro rfl
    exact ⟨rfl, rfl, rfl⟩

/-! ### Records -/

/-- A stored variable. -/
structure Record where
  header : Header
  data : List UInt8
  storable : header.Storable
  length : data.length = typeSize header.type.val

/-- The offset behind a list of records. -/
def endOf : Nat → List Record → Nat
  | ofs, [] => ofs
  | ofs, record :: rest => endOf (ofs + (record.data.length + 4)) rest

/-- The records lie one behind the other from an offset on. -/
def Occupied (image : Image) : Nat → List Record → Prop
  | _, [] => True
  | ofs, record :: rest =>
    slice image ofs 4 = record.header.bytes ∧
      slice image (ofs + 4) record.data.length = record.data ∧
      Occupied image (ofs + (record.data.length + 4)) rest

/-- The parameters' storage is the header of the whole, the records with distinct headers, and one
end mark. -/
structure Holds (layout : Layout) (hal : Image) (records : List Record) : Prop where
  start : slice (flat .param hal layout.areas) 0 4 = eepromHeader
  listed : Occupied (flat .param hal layout.areas) 4 records
  closed : slice (flat .param hal layout.areas) (endOf 4 records) 4 = sentinal.bytes
  inside : endOf 4 records + 4 ≤ storageSize layout
  distinct : (records.map Record.header).Nodup

theorem le_endOf (ofs : Nat) (records : List Record) : ofs + 4 * records.length ≤ endOf ofs records := by
  induction records generalizing ofs with
  | nil => exact le_refl _
  | cons record rest inductionHypothesis =>
    have later := inductionHypothesis (ofs + (record.data.length + 4))
    rw [endOf, List.length_cons]
    omega

theorem endOf_append (ofs : Nat) (first second : List Record) :
    endOf ofs (first ++ second) = endOf (endOf ofs first) second := by
  induction first generalizing ofs with
  | nil => rfl
  | cons record rest inductionHypothesis => exact inductionHypothesis _

theorem occupied_append (image : Image) (ofs : Nat) (first second : List Record) :
    Occupied image ofs (first ++ second) ↔
      Occupied image ofs first ∧ Occupied image (endOf ofs first) second := by
  induction first generalizing ofs with
  | nil => exact ⟨fun second => ⟨trivial, second⟩, fun both => both.2⟩
  | cons record rest inductionHypothesis =>
    simp only [List.cons_append, Occupied, endOf, inductionHypothesis, and_assoc]

/-- The records depend on their own bytes only. -/
theorem Occupied.congr {image image' : Image} {ofs : Nat} {records : List Record}
    (listed : Occupied image ofs records) (agree : Agree image image' ofs (endOf ofs records)) :
    Occupied image' ofs records := by
  induction records generalizing ofs with
  | nil => trivial
  | cons record rest inductionHypothesis =>
    obtain ⟨header, data, later⟩ := listed
    have bound := le_endOf (ofs + (record.data.length + 4)) rest
    rw [endOf] at agree
    refine ⟨?_, ?_, inductionHypothesis later fun address low high => ?_⟩
    · rw [← header]
      exact (slice_congr fun address low high => agree address low (by omega)).symm
    · rw [← data]
      nth_rewrite 1 [data]
      exact (slice_congr fun address low high => agree address (by omega) (by omega)).symm
    · exact agree address (by omega) high

/-! ### The accessor on the flat array -/

section Accessor

variable {layout : Layout} {hal : Image}

theorem readHeader_eq {header : Header} (older : Header) (ofs : Nat)
    (inside : ofs + 4 ≤ storageSize layout)
    (here : slice (flat .param hal layout.areas) ofs 4 = header.bytes) :
    readHeader layout hal older ofs = header := by
  rw [storageSize, size_eq] at inside
  rw [readHeader, readBlock_flat layout.areas .param hal ofs 4 (by decide) (by decide) inside, here]
  show Header.ofBytes header.bytes = header
  exact header.ofBytes_bytes

theorem flat_eepromWriteCheck (layout : Layout) (hal : Image) (ofs : Nat) (data : List UInt8)
    (positive : 1 ≤ data.length) (short : data.length ≤ 12)
    (inside : ofs + data.length ≤ storageSize layout) :
    flat .param (eepromWriteCheck layout hal ⟨ofs, data⟩) layout.areas =
      put (flat .param hal layout.areas) ofs data :=
  (writeBlock_flat layout .param hal ofs data positive (le_trans short (by decide)) inside).2

theorem Header.bytes_length (header : Header) : header.bytes.length = 4 := rfl

theorem flat_writeHeader (layout : Layout) (hal : Image) (ofs : Nat) (header : Header)
    (inside : ofs + 4 ≤ storageSize layout) :
    flat .param (eepromWriteCheck layout hal ⟨ofs, header.bytes⟩) layout.areas =
      put (flat .param hal layout.areas) ofs header.bytes :=
  flat_eepromWriteCheck layout hal ofs header.bytes (by rw [header.bytes_length]; decide)
    (by rw [header.bytes_length]; decide) inside

/-- A scan goes over records with other headers. -/
theorem scanFrom_skip (target : Header) (fuel : Nat) (older : Header) (ofs : Nat)
    (records : List Record) (listed : Occupied (flat .param hal layout.areas) ofs records)
    (inside : endOf ofs records + 4 ≤ storageSize layout)
    (other : target ∉ records.map Record.header) :
    ∃ older', scanFrom layout hal target (records.length + fuel) older ofs =
      scanFrom layout hal target fuel older' (endOf ofs records) := by
  induction records generalizing older ofs with
  | nil => exact ⟨older, by rw [List.length_nil, Nat.zero_add]; rfl⟩
  | cons record rest inductionHypothesis =>
    obtain ⟨header, -, later⟩ := listed
    have bound := le_endOf (ofs + (record.data.length + 4)) rest
    rw [endOf] at inside ⊢
    rw [List.map_cons, List.mem_cons, not_or] at other
    obtain ⟨older', rest_eq⟩ := inductionHypothesis record.header _ later inside other.2
    refine ⟨older', ?_⟩
    have here : readHeader layout hal older ofs = record.header :=
      readHeader_eq older ofs (by omega) header
    have within : ofs < storageSize layout := by omega
    have different : ¬ (record.header.type = target.type ∧ getKey record.header = getKey target ∧
        record.header.groupElement = target.groupElement) :=
      fun same => other.1 ((sameHeader_iff _ _).mp same).symm
    have notEnd : ¬ isSentinal record.header = true := by
      rw [record.storable.1]
      exact Bool.false_ne_true
    rw [List.length_cons, Nat.add_right_comm, scanFrom, if_pos within]
    simp only [here, if_neg different, if_neg notEnd, ← record.length]
    exact rest_eq

/-- A header that is read at its own offset is found there. -/
theorem scanFrom_here (target : Header) (fuel : Nat) (older : Header) (ofs : Nat)
    (inside : ofs + 4 ≤ storageSize layout)
    (here : slice (flat .param hal layout.areas) ofs 4 = target.bytes) :
    scanFrom layout hal target (fuel + 1) older ofs = (true, ofs) := by
  have read : readHeader layout hal older ofs = target := readHeader_eq older ofs inside here
  have within : ofs < storageSize layout := by omega
  rw [scanFrom, if_pos within]
  simp only [read, and_self, if_true]

theorem sentinal_isSentinal : isSentinal sentinal = true := by decide

variable {target : Header} {records : List Record} {before after : List Record} {record : Record}

theorem scanFrom_end (storable : target.Storable) (fuel : Nat) (older : Header) (ofs : Nat)
    (inside : ofs + 4 ≤ storageSize layout)
    (here : slice (flat .param hal layout.areas) ofs 4 = sentinal.bytes) :
    scanFrom layout hal target (fuel + 1) older ofs = (false, ofs) := by
  have read : readHeader layout hal older ofs = sentinal := readHeader_eq older ofs inside here
  have within : ofs < storageSize layout := by omega
  have different : ¬ (sentinal.type = target.type ∧ getKey sentinal = getKey target ∧
      sentinal.groupElement = target.groupElement) := by
    intro same
    have ends := storable.1
    rw [← (sameHeader_iff _ _).mp same, sentinal_isSentinal] at ends
    cases ends
  rw [scanFrom, if_pos within]
  simp only [read, if_neg different, sentinal_isSentinal, if_true]

/-- The fuel of a scan is enough for the records and one step more. -/
theorem exists_fuel {size : Nat} (inside : endOf 4 records + 4 ≤ size) :
    ∃ fuel, size = records.length + (fuel + 1) := by
  have bound := le_endOf 4 records
  exact ⟨size - records.length - 1, by omega⟩

theorem Holds.scan_found (holds : Holds layout hal (before ++ record :: after)) :
    scan layout hal record.header = (true, endOf 4 before) := by
  obtain ⟨listedBefore, here, -, -⟩ := (occupied_append _ _ _ _).mp holds.listed
  have inside := holds.inside
  rw [endOf_append, endOf] at inside
  have bound := le_endOf (endOf 4 before + (record.data.length + 4)) after
  have other : record.header ∉ before.map Record.header := by
    have distinct := holds.distinct
    rw [List.map_append, List.map_cons, List.nodup_append] at distinct
    exact fun member => distinct.2.2 _ member _ List.mem_cons_self rfl
  obtain ⟨fuel, enough⟩ := exists_fuel (show endOf 4 before + 4 ≤ storageSize layout by omega)
  obtain ⟨older, skip⟩ := scanFrom_skip record.header (fuel + 1) (Header.ofWord 0) 4 before
    listedBefore (by omega) other
  rw [scan, enough, skip]
  exact scanFrom_here _ _ _ _ (by omega) here

theorem Holds.scan_missing (holds : Holds layout hal records) (storable : target.Storable)
    (missing : target ∉ records.map Record.header) :
    scan layout hal target = (false, endOf 4 records) := by
  obtain ⟨fuel, enough⟩ := exists_fuel holds.inside
  obtain ⟨older, skip⟩ := scanFrom_skip target (fuel + 1) (Header.ofWord 0) 4 records holds.listed
    holds.inside missing
  rw [scan, enough, skip]
  exact scanFrom_end storable _ _ _ holds.inside holds.closed

theorem Holds.read_data (holds : Holds layout hal (before ++ record :: after)) :
    readBlock layout.areas .param hal (endOf 4 before + 4) (typeSize record.header.type.val) =
      (true, record.data) := by
  obtain ⟨-, -, data, -⟩ := (occupied_append _ _ _ _).mp holds.listed
  have inside := holds.inside
  rw [endOf_append, endOf, storageSize, size_eq] at inside
  have bound := le_endOf (endOf 4 before + (record.data.length + 4)) after
  have size := record.storable.size
  have length := record.length
  rw [readBlock_flat layout.areas .param hal _ _ size.1 (le_trans size.2 (by decide)) (by omega),
    ← length, data]

/-! ### What a save makes of the records -/

theorem eraseAll_holds (room : 8 ≤ storageSize layout) : Holds layout (eraseAll layout hal) [] := by
  have first : flat .param (eepromWriteCheck layout hal ⟨0, eepromHeader⟩) layout.areas =
      put (flat .param hal layout.areas) 0 eepromHeader :=
    flat_eepromWriteCheck layout hal 0 eepromHeader (by decide) (by decide)
      (le_trans (by decide) room)
  have both : flat .param (eraseAll layout hal) layout.areas =
      put (put (flat .param hal layout.areas) 0 eepromHeader) 4 sentinal.bytes := by
    rw [← first]
    exact flat_writeHeader layout _ 4 sentinal room
  refine ⟨?_, trivial, ?_, room, List.nodup_nil⟩
  · rw [both, slice_put_disjoint _ 4 _ 0 4 (Or.inl (le_refl _))]
    exact slice_put_self _ 0 eepromHeader
  · rw [both]
    exact slice_put_self _ 4 sentinal.bytes

theorem Holds.replace (holds : Holds layout hal (before ++ record :: after)) (changed : Record)
    (same : changed.header = record.header) :
    Holds layout (eepromWriteCheck layout hal ⟨endOf 4 before + 4, changed.data⟩)
      (before ++ changed :: after) := by
  obtain ⟨listedBefore, header, data, listedAfter⟩ := (occupied_append _ _ _ _).mp holds.listed
  have sameLength : changed.data.length = record.data.length := by
    rw [changed.length, record.length, same]
  have size := changed.storable.size
  have length := changed.length
  have inside := holds.inside
  have closed := holds.closed
  have ends : endOf 4 (before ++ changed :: after) = endOf 4 (before ++ record :: after) := by
    rw [endOf_append, endOf_append, endOf, endOf, sameLength]
  rw [endOf_append, endOf] at inside closed
  have low := le_endOf 4 before
  have high := le_endOf (endOf 4 before + (record.data.length + 4)) after
  have written := flat_eepromWriteCheck layout hal (endOf 4 before + 4) changed.data (by omega)
    (by omega) (by omega)
  refine ⟨?_, ?_, ?_, ?_, ?_⟩
  · rw [written, slice_put_disjoint _ _ _ _ _ (Or.inl (by omega))]
    exact holds.start
  · rw [written, occupied_append]
    refine ⟨listedBefore.congr fun address _ below => ?_, ?_, ?_, ?_⟩
    · exact (put_outside _ _ _ _ (by omega)).symm
    · rw [slice_put_disjoint _ _ _ _ _ (Or.inl (le_refl _)), header, same]
    · exact slice_put_self _ _ _
    · rw [sameLength]
      exact listedAfter.congr fun address above _ => (put_outside _ _ _ _ (by omega)).symm
  · rw [written, ends, slice_put_disjoint _ _ _ _ _ (Or.inr (by rw [endOf_append, endOf]; omega)),
      endOf_append, endOf, closed]
  · rw [ends, endOf_append, endOf]
    exact inside
  · have distinct := holds.distinct
    rw [List.map_append, List.map_cons] at distinct ⊢
    rw [same]
    exact distinct

/-- A record is put in the place of the end mark. -/
theorem Holds.append (holds : Holds layout hal records) (record : Record)
    (fresh : record.header ∉ records.map Record.header)
    (room : endOf 4 records + record.data.length + 2 * 4 < storageSize layout) :
    Holds layout (runCalls (eepromWriteCheck layout) hal
      [⟨endOf 4 records + 4 + record.data.length, sentinal.bytes⟩,
        ⟨endOf 4 records + 4, record.data⟩, ⟨endOf 4 records, record.header.bytes⟩])
      (records ++ [record]) := by
  have size := record.storable.size
  have length := record.length
  have low := le_endOf 4 records
  simp only [runCalls_cons, runCalls_nil]
  generalize firstImage : eepromWriteCheck layout hal
    ⟨endOf 4 records + 4 + record.data.length, sentinal.bytes⟩ = first
  generalize secondImage : eepromWriteCheck layout first ⟨endOf 4 records + 4, record.data⟩ = second
  have mark := flat_writeHeader layout hal (endOf 4 records + 4 + record.data.length) sentinal
    (by omega)
  have data := flat_eepromWriteCheck layout first (endOf 4 records + 4) record.data (by omega)
    (by omega) (by omega)
  have header := flat_writeHeader layout second (endOf 4 records) record.header (by omega)
  rw [firstImage] at mark
  rw [secondImage, mark] at data
  rw [data] at header
  have ends : endOf 4 (records ++ [record]) = endOf 4 records + 4 + record.data.length := by
    rw [endOf_append, endOf, endOf]
    omega
  have markLength : sentinal.bytes.length = 4 := rfl
  have headerLength := record.header.bytes_length
  refine ⟨?_, ?_, ?_, ?_, ?_⟩
  · rw [header, slice_put_disjoint _ _ _ _ _ (Or.inl (by omega)),
      slice_put_disjoint _ _ _ _ _ (Or.inl (by omega)),
      slice_put_disjoint _ _ _ _ _ (Or.inl (by omega))]
    exact holds.start
  · rw [header, occupied_append]
    refine ⟨holds.listed.congr fun address _ below => ?_, ?_, ?_, trivial⟩
    · rw [put_outside _ _ _ _ (by omega), put_outside _ _ _ _ (by omega),
        put_outside _ _ _ _ (by omega)]
    · exact slice_put_self _ _ record.header.bytes
    · rw [slice_put_disjoint _ _ _ _ _ (Or.inr (by omega))]
      exact slice_put_self _ _ record.data
  · rw [header, ends, slice_put_disjoint _ _ _ _ _ (Or.inr (by omega)),
      slice_put_disjoint _ _ _ _ _ (Or.inr (by omega))]
    exact slice_put_self _ _ sentinal.bytes
  · rw [ends]
    omega
  · rw [List.map_append, List.nodup_append]
    refine ⟨holds.distinct, List.nodup_singleton _, fun header member other same equal => ?_⟩
    rw [List.map_singleton, List.mem_singleton] at same
    exact fresh (same ▸ equal ▸ member)

end Accessor

end Urus.Param
