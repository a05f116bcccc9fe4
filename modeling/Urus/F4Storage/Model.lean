/-
This file models the storage driver of the F4Light boards. All reads are from a RAM
cache. A write changes the cache and puts the words it touches into a ring, from which
a second thread takes them and writes them to the EEPROM. While the vehicle is armed
the driver may be told to defer: then a write changes the cache only, and on disarming
every word of the cache that differs from the EEPROM is put into the ring.

The two threads share the ring and its two positions. The model takes one step for every
statement that touches them, so that a run is any interleaving of the steps of the two
threads. The EEPROM is a map of words.
-/

import Urus.Lib.Bytes
import Urus.Lib.Ring
import Urus.Lib.Trace

namespace Urus.F4Storage

open Image

/-! ### Words of the cache -/

/-- A word of the EEPROM on its way there. -/
structure Item where
  loc : Nat
  val : UInt16
  deriving DecidableEq, Repr

/-- `EEPROM_QUEUE_LEN`. -/
def queueLen : Nat := 256

/-- Two bytes as a word, the low byte first. -/
def wordOf (low high : UInt8) : UInt16 := low.toUInt16 ||| high.toUInt16 <<< 8

/-- A word of the cache. -/
def cacheWord (cache : Image) (word : Nat) : UInt16 := wordOf (cache (2 * word)) (cache (2 * word + 1))

/-- `_write_byte`: the word of the cache with one byte replaced. -/
def writeByteItem (cache : Image) (loc : Nat) (value : UInt8) : Item :=
  let data := cacheWord cache (loc / 2)
  let data :=
    if loc % 2 = 1 then (data &&& (0x00FF : UInt16)) ||| (value.toUInt16 <<< 8)
    else (data &&& (0xFF00 : UInt16)) ||| value.toUInt16
  ⟨loc / 2, data⟩

/-- The words that `write_block` writes from an even address on. A byte that is left over is
merged into the word of the cache. -/
def wordItems (cache : Image) : Nat → List UInt8 → List Item
  | _, [] => []
  | loc, [last] => [writeByteItem cache loc last]
  | loc, low :: high :: rest => ⟨loc / 2, wordOf low high⟩ :: wordItems cache (loc + 2) rest

/-- The words that `write_block` writes. -/
def blockItems (cache : Image) (loc : Nat) : List UInt8 → List Item
  | [] => []
  | first :: rest =>
    if loc % 2 = 1 then writeByteItem cache loc first :: wordItems cache (loc + 1) rest
    else wordItems cache loc (first :: rest)

/-! ### The two threads -/

/-- Where the main thread is in `write_word`. -/
inductive Stage
  | setLoc
  | setVal
  | advance
  | wait (newWp : Nat)
  | publish (newWp : Nat)
  deriving DecidableEq, Repr

/-- What is left of an operation of the main thread: words to write, or the loop of
`do_on_disarm` from a word on. -/
inductive Rest
  | words (items : List Item)
  | flush (word : Nat)

/-- The main thread. -/
inductive Main
  | idle
  | running (rest : Rest)
  | writing (item : Item) (stage : Stage) (rest : Rest)

/-- The write thread: at the loop's condition, at the fetch of an item, at the wrap of the read
position, at the write of the item to the EEPROM. -/
inductive Thread
  | check
  | fetch
  | wrap (item : Item)
  | store (item : Item)

/-- The driver and the EEPROM. Beside them, `written` has the last byte that was written to every
address. -/
structure System where
  eeprom : Nat → UInt16
  cache : Image
  queue : Nat → Item
  rdPtr : Nat
  wrPtr : Nat
  armed : Bool
  main : Main
  thread : Thread
  written : Image

/-- The settings of the driver: the size of the storage in words, and whether writes are deferred
while armed. -/
structure Settings where
  words : Nat
  writeDeferred : Bool

/-- What the rest of the vehicle may ask of the main thread. -/
inductive Operation
  | writeBlock (loc : Nat) (data : List UInt8)
  | writeByte (loc : Nat) (value : UInt8)
  | arm
  | disarm

/-- A scheduling choice: the main thread starts an operation, or one thread takes a step. -/
inductive Action
  | start (operation : Operation)
  | main
  | thread

/-- `read_block`. -/
def readBlock (system : System) (loc n : Nat) : List UInt8 := slice system.cache loc n

/-- The start of an operation. The cache is changed at once, and what is left is kept for the
steps of the main thread. -/
def startOperation (settings : Settings) (system : System) : Operation → System
  | .writeBlock loc data =>
    let system := { system with
      cache := put system.cache loc data
      written := put system.written loc data }
    if settings.writeDeferred && system.armed then system
    else { system with main := .running (.words (blockItems system.cache loc data)) }
  | .writeByte loc value =>
    if system.cache loc = value then { system with written := put system.written loc [value] }
    else
      let system := { system with
        cache := put system.cache loc [value]
        written := put system.written loc [value] }
      if settings.writeDeferred && system.armed then system
      else { system with main := .running (.words [writeByteItem system.cache loc value]) }
  | .arm => { system with armed := true }
  | .disarm =>
    if system.armed then { system with armed := false, main := .running (.flush 0) } else system

/-- One step of `write_word`. -/
def writeWordStep (system : System) (item : Item) (stage : Stage) (rest : Rest) : System :=
  match stage with
  | .setLoc =>
    { system with
      queue := Function.update system.queue system.wrPtr
        { system.queue system.wrPtr with loc := item.loc }
      main := .writing item .setVal rest }
  | .setVal =>
    { system with
      queue := Function.update system.queue system.wrPtr
        { system.queue system.wrPtr with val := item.val }
      main := .writing item .advance rest }
  | .advance =>
    let newWp := system.wrPtr + 1
    let newWp := if newWp ≥ queueLen then 0 else newWp
    { system with main := .writing item (.wait newWp) rest }
  | .wait newWp =>
    if newWp = system.rdPtr then system
    else { system with main := .writing item (.publish newWp) rest }
  | .publish newWp => { system with wrPtr := newWp, main := .running rest }

/-- One step of the main thread. -/
def mainStep (settings : Settings) (system : System) : System :=
  match system.main with
  | .idle => system
  | .running (.words []) => { system with main := .idle }
  | .running (.words (item :: items)) =>
    { system with main := .writing item .setLoc (.words items) }
  | .running (.flush word) =>
    if word < settings.words then
      let data := system.eeprom word
      let cached := cacheWord system.cache word
      if cached ≠ data then
        { system with main := .writing ⟨word, cached⟩ .setLoc (.flush (word + 1)) }
      else { system with main := .running (.flush (word + 1)) }
    else { system with main := .idle }
  | .writing item stage rest => writeWordStep system item stage rest

/-- One step of the write thread. -/
def threadStep (system : System) : System :=
  match system.thread with
  | .check => if system.rdPtr ≠ system.wrPtr then { system with thread := .fetch } else system
  | .fetch =>
    { system with
      thread := .wrap (system.queue system.rdPtr)
      rdPtr := system.rdPtr + 1 }
  | .wrap item =>
    { system with
      thread := .store item
      rdPtr := if system.rdPtr ≥ queueLen then 0 else system.rdPtr }
  | .store item =>
    { system with
      eeprom := Function.update system.eeprom item.loc item.val
      thread := .check }

/-- One step of the system. An operation starts only when the main thread has no other. -/
def step (settings : Settings) (system : System) : Action → System
  | .start operation =>
    match system.main with
    | .idle => startOperation settings system operation
    | _ => system
  | .main => mainStep settings system
  | .thread => threadStep system

/-- The driver behind `init`: the cache is read from the EEPROM and the ring is empty. -/
def initial (eeprom : Nat → UInt16) (queue : Nat → Item) : System :=
  let cache : Image := fun address =>
    if address % 2 = 0 then (eeprom (address / 2)).toUInt8
    else (eeprom (address / 2) >>> 8).toUInt8
  { eeprom := eeprom
    cache := cache
    queue := queue
    rdPtr := 0
    wrPtr := 0
    armed := false
    main := .idle
    thread := .check
    written := cache }

end Urus.F4Storage
