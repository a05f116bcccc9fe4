/-
This file models the part of the parameter store that works on the board's storage: the
search for a header, the save of one variable and the load of all of them.

The stored list starts behind a header of four bytes. Every record is a parameter header
and the bytes of a variable, and the list ends at a header that is taken for the end. All
accesses go through the accessor of the storage manager. A read that is not complete
leaves the rest of its destination as it was, so the header that a loop reads into is part
of the state of the loop.

A save is modelled as the writes it makes, in their order, and its result. It is the
forced save, for which the comparison with the default value has no effect.
-/

import Urus.Lib.Trace
import Urus.Param.Model
import Urus.StorageManager

namespace Urus.Param

open Image StorageManager

/-! ### Headers in storage -/

/-- The four bytes of a header. -/
def Header.bytes (header : Header) : List UInt8 :=
  [UInt8.ofNat header.word, UInt8.ofNat (header.word / 2 ^ 8), UInt8.ofNat (header.word / 2 ^ 16),
    UInt8.ofNat (header.word / 2 ^ 24)]

/-- The header that four bytes are. -/
def Header.ofBytes (bytes : List UInt8) : Header :=
  Header.ofWord ((bytes.getD 0 0).toNat + 2 ^ 8 * (bytes.getD 1 0).toNat +
    2 ^ 16 * (bytes.getD 2 0).toNat + 2 ^ 24 * (bytes.getD 3 0).toNat)

/-- The header that `write_sentinal` writes. -/
def sentinal : Header := makeHeader sentinalKey sentinalType sentinalGroup

/-- The bytes of the header that `erase_all` writes. -/
def eepromHeader : List UInt8 := [0x50, 0x41, 6, 0]

/-! ### The search for a header -/

section Accessor

variable (layout : Layout)

/-- The size of the parameters' storage. -/
def storageSize : Nat := size .param layout.areas

/-- A header is read over an older one. -/
def readHeader (hal : Image) (older : Header) (ofs : Nat) : Header :=
  let bytes := (readBlock layout.areas .param hal ofs 4).2
  Header.ofBytes (bytes ++ older.bytes.drop bytes.length)

/-- `scan`, from an offset on. Every round moves by at least four bytes, so that the size is
enough fuel. -/
def scanFrom (hal : Image) (target : Header) : (fuel : Nat) → (older : Header) → (ofs : Nat) →
    Bool × Nat
  | 0, _, _ => (false, 0xFFFF)
  | fuel + 1, older, ofs =>
    if ofs < storageSize layout then
      let header := readHeader layout hal older ofs
      if header.type = target.type ∧ getKey header = getKey target ∧
          header.groupElement = target.groupElement then (true, ofs)
      else if isSentinal header then (false, ofs)
      else scanFrom hal target fuel header (ofs + (typeSize header.type.val + 4))
    else (false, 0xFFFF)

/-- `scan`. The header that the loop reads into is not initialised; the first read fills it. -/
def scan (hal : Image) (target : Header) : Bool × Nat :=
  scanFrom layout hal target (storageSize layout) (Header.ofWord 0) 4

/-! ### Saving -/

/-- A call of `eeprom_write_check`. -/
structure BlockWrite where
  ofs : Nat
  data : List UInt8

/-- `eeprom_write_check`. -/
def eepromWriteCheck (hal : Image) (write : BlockWrite) : Image :=
  (writeBlock layout.areas .param hal write.ofs write.data).2

/-- `erase_all`. -/
def eraseAll (hal : Image) : Image :=
  runCalls (eepromWriteCheck layout) hal [⟨0, eepromHeader⟩, ⟨4, sentinal.bytes⟩]

/-- The bytes of a variable. -/
def Memory.read (memory : Memory) (address : Int) (count : Nat) : List UInt8 :=
  (List.range count).map fun index : Nat => memory.bytes (address + (index : Int))

/-- The header that `save` stores a variable under. -/
def Found.header (found : Found) : Header :=
  makeHeader found.info.key found.type.code found.groupElement

/-- The bytes that `save` stores. For a part of a vector they are those of the vector. -/
def Found.value (found : Found) (memory : Memory) (this : Int) : List UInt8 :=
  memory.read (this - found.idx * 4) (typeSize found.type.code)

/-- The storage part of `save`: the result, and the writes. -/
def saveRecord (hal : Image) (header : Header) (data : List UInt8) : Bool × List BlockWrite :=
  let size := typeSize header.type.val
  match scan layout hal header with
  | (true, ofs) => (true, [⟨ofs + 4, data⟩])
  | (false, ofs) =>
    if ofs = 0xFFFF then (false, [])
    else if ofs + size + 2 * 4 ≥ storageSize layout then (false, [])
    else (true, [⟨ofs + 4 + size, sentinal.bytes⟩, ⟨ofs + 4, data⟩, ⟨ofs, header.bytes⟩])

/-- `save(true)`: the result, and the writes. -/
def saveWrites (table : List Info) (hal : Image) (memory : Memory) (this : Int) :
    Bool × List BlockWrite :=
  match findVarInfo table memory this with
  | none => (false, [])
  | some found =>
    if found.type ≠ .vector3f ∧ found.idx ≠ 0 then (false, [])
    else saveRecord layout hal found.header (found.value memory this)

/-- `save(true)`: the result, and the storage behind it. -/
def save (table : List Info) (hal : Image) (memory : Memory) (this : Int) : Bool × Image :=
  let (result, writes) := saveWrites layout table hal memory this
  (result, runCalls (eepromWriteCheck layout) hal writes)

/-! ### Loading -/

/-- Bytes are copied to an address. -/
def Memory.write (memory : Memory) (address : Int) (data : List UInt8) : Memory where
  pointers := memory.pointers
  bytes := fun other =>
    if address ≤ other ∧ other < address + data.length then data.getD (other - address).toNat 0
    else memory.bytes other

/-- One record of `load_all`. -/
def loadRecord (table : List Info) (hal : Image) (header : Header) (ofs : Nat) (memory : Memory) :
    Memory :=
  match findByHeader table memory header with
  | none => memory
  | some (_, ptr) =>
    memory.write ptr (readBlock layout.areas .param hal (ofs + 4) (typeSize header.type.val)).2

/-- The loop of `load_all`, from an offset on. -/
def loadAllFrom (table : List Info) (hal : Image) : (fuel : Nat) → (older : Header) →
    (ofs : Nat) → Memory → Bool × Memory
  | 0, _, _, memory => (false, memory)
  | fuel + 1, older, ofs, memory =>
    if ofs < storageSize layout then
      let header := readHeader layout hal older ofs
      if isSentinal header then (true, memory)
      else
        loadAllFrom table hal fuel header (ofs + (typeSize header.type.val + 4))
          (loadRecord layout table hal header ofs memory)
    else (false, memory)

/-- `load_all`, behind `reload_defaults_file`: the memory is the one with the defaults loaded. -/
def loadAll (table : List Info) (hal : Image) (memory : Memory) : Bool × Memory :=
  loadAllFrom layout table hal (storageSize layout) (Header.ofWord 0) 4 memory

end Accessor

end Urus.Param
