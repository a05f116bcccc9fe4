/-
This file models the EEPROM emulation of the F4Light boards. The emulation keeps a map
from 14 bit virtual addresses to 16 bit data in one of two flash pages. A page is a
header of two half-words, the page's status and its erase counter, and slots of two
half-words, data and address. A new value is programmed over the old one when it only
clears bits, else appended to the active page, and when the page is full the live
variables are moved to the other page.

A page is given by the half-word at every even offset. The flash never fails: a program
clears bits, an erase sets all of a page, and the branches that give up on a flash error
are not part of the model. Every flash operation is recorded in the order it is made.
-/

import Mathlib.Tactic
import Urus.Lib.Trace

namespace Urus.Eeprom

/-! ### The flash -/

/-- The two flash pages, the source's `PageBase0` and `PageBase1`. -/
inductive Page
  | page0
  | page1
  deriving DecidableEq, Repr

def Page.other : Page → Page
  | .page0 => .page1
  | .page1 => .page0

/-- The half-word at every even offset of a page. -/
abbrev Words := Nat → UInt16

abbrev Flash := Page → Words

/-- One flash operation. -/
inductive FlashOp
  | program (page : Page) (offset : Nat) (data : UInt16)
  | erase (page : Page)
  deriving DecidableEq, Repr

def FlashOp.apply (flash : Flash) : FlashOp → Flash
  | .program page offset data =>
    Function.update flash page (Function.update (flash page) offset (flash page offset &&& data))
  | .erase page => Function.update flash page fun _ => 0xFFFF

/-! ### Constants -/

def erased : UInt16 := 0xFFFF

def receiveData : UInt16 := 0xEEEE

def validPage : UInt16 := 0xAAAA

def addressMask : UInt16 := 0x3FFF

def flagsMask : UInt16 := 0xC000

def defaultData : UInt16 := 0xFFFF

/-- The codes that the functions return. -/
inductive Code
  | ok
  | outSize
  | badAddress
  | badFlash
  | notInit
  | noValidPage
  deriving DecidableEq, Repr

/-- The page size: a whole number of slots, and at least three of them behind the header. -/
structure Geometry where
  pageSize : Nat
  aligned : 4 ∣ pageSize
  large : 16 ≤ pageSize

/-- The number of slots of a page. -/
def Geometry.slots (geometry : Geometry) : Nat := geometry.pageSize / 4 - 1

/-- The 16 bit result of the source's `maxcount`. -/
def maxcount (geometry : Geometry) : UInt16 := UInt16.ofNat (geometry.pageSize / 4 - 1)

/-- The offset of the data of a slot. The slots count from 1, and slot 0 is the header: its data
is the page status and its address the erase counter. -/
def dataAt (slot : Nat) : Nat := 4 * slot

/-- The offset of the address of a slot. -/
def addressAt (slot : Nat) : Nat := 4 * slot + 2

/-! ### The object -/

/-- The object and the flash behind it. `ops` are the flash operations made so far. -/
structure State where
  flash : Flash
  ops : List FlashOp
  status : Code

/-- A freshly constructed object. -/
def fresh (flash : Flash) : State := ⟨flash, [], .notInit⟩

def State.op (state : State) (op : FlashOp) : State :=
  { state with flash := op.apply state.flash, ops := state.ops ++ [op] }

def State.read16 (state : State) (page : Page) (offset : Nat) : UInt16 := state.flash page offset

/-- Both half-words of a slot are erased: the source's `read_32(..) == 0xFFFFFFFF`. -/
def slotEmpty (words : Words) (slot : Nat) : Bool :=
  words (dataAt slot) == 0xFFFF && words (addressAt slot) == 0xFFFF

def State.write16 (state : State) (page : Page) (offset : Nat) (data : UInt16) : State :=
  state.op (.program page offset data)

/-! ### Pages -/

/-- Check a page for blank. -/
def checkPage (geometry : Geometry) (words : Words) (status : UInt16) : Code :=
  if words 0 ≠ erased ∧ words 0 ≠ status then .badFlash
  else if (List.range' 1 geometry.slots).all (slotEmpty words) then .ok
  else .badFlash

/-- Erase a page and write its erase counter back, incremented. -/
def erasePage (state : State) (page : Page) : State :=
  let status := state.read16 page 0
  let data :=
    if status = erased ∨ status = validPage ∨ status = receiveData then state.read16 page 2 + 1
    else 0
  (state.op (.erase page)).write16 page 2 data

/-- Check a page for blank and erase it if it is not. -/
def checkErasePage (geometry : Geometry) (state : State) (page : Page) (req : UInt16) :
    Code × State :=
  if checkPage geometry (state.flash page) req ≠ .ok then
    let state := erasePage state page
    (checkPage geometry (state.flash page) req, state)
  else (.ok, state)

/-- A slot counts for `_GetVariablesCount`: it is written, is not the address to skip, and no
later slot has the same address. -/
def countsVariable (geometry : Geometry) (words : Words) (skipAddress : UInt16) (slot : Nat) :
    Bool :=
  let varAddress := words (addressAt slot)
  !(varAddress == 0xFFFF || (varAddress &&& addressMask) == skipAddress ||
      (varAddress &&& flagsMask) != 0) &&
    !((List.range' (slot + 1) (geometry.slots - slot)).any fun next =>
      (words (addressAt next) &&& addressMask) == (varAddress &&& addressMask))

/-- The 16 bit count of the variables of a page. -/
def getVariablesCount (geometry : Geometry) (words : Words) (skipAddress : UInt16) : UInt16 :=
  UInt16.ofNat
    ((List.range' 1 geometry.slots).filter (countsVariable geometry words skipAddress)).length

/-- The first empty slot of a page. -/
def firstEmpty (geometry : Geometry) (words : Words) : Option Nat :=
  (List.range' 1 geometry.slots).find? (slotEmpty words)

/-- The copy loop of `_PageTransfer`, from the given slot of the old page down to its first one.
`newSlot` is the next slot of the new page to write. -/
def transferLoop (geometry : Geometry) (newPage oldPage : Page) (skipAddress : UInt16) :
    Nat → Nat → State → Code × State
  | 0, _, state => (.ok, state)
  | slot + 1, newSlot, state =>
    let address := state.read16 oldPage (addressAt (slot + 1))
    if address = skipAddress ∨ address &&& flagsMask ≠ 0 then
      transferLoop geometry newPage oldPage skipAddress slot newSlot state
    else if (List.range' 1 (newSlot - 1)).any fun done =>
        state.read16 newPage (addressAt done) == address then
      transferLoop geometry newPage oldPage skipAddress slot newSlot state
    else if newSlot ≤ geometry.slots then
      let data := state.read16 oldPage (dataAt (slot + 1))
      let state := state.write16 newPage (dataAt newSlot) data
      let state := state.write16 newPage (addressAt newSlot) (address &&& addressMask)
      transferLoop geometry newPage oldPage skipAddress slot (newSlot + 1) state
    else (.outSize, state)

/-- Move the last data of every variable from the old page to the new one, erase the old page and
mark the new one as valid. -/
def pageTransfer (geometry : Geometry) (state : State) (newPage oldPage : Page)
    (skipAddress : UInt16) : Code × State :=
  match firstEmpty geometry (state.flash newPage) with
  | none => (.outSize, state)
  | some newSlot =>
    match transferLoop geometry newPage oldPage skipAddress geometry.slots newSlot state with
    | (.ok, state) =>
      match checkErasePage geometry state oldPage erased with
      | (.ok, state) => (.ok, state.write16 newPage 0 validPage)
      | (code, state) => (code, state)
    | (code, state) => (code, state)

/-! ### Initialisation -/

/-- One try of `_format`: erase both pages and mark the first one as valid. -/
def formatOnce (geometry : Geometry) (state : State) : Code × State :=
  match checkErasePage geometry state .page0 validPage with
  | (.ok, state) =>
    let state := if state.read16 .page0 0 = erased then state.write16 .page0 0 validPage else state
    checkErasePage geometry state .page1 erased
  | (code, state) => (code, state)

/-- `_format`, with as many more tries as the first argument says. -/
def formatLoop (geometry : Geometry) : Nat → State → Code × State
  | 0, state => formatOnce geometry state
  | tries + 1, state =>
    match formatOnce geometry state with
    | (.ok, state) => (.ok, state)
    | (_, state) => formatLoop geometry tries state

def format (geometry : Geometry) (state : State) : Code × State := formatLoop geometry 16 state

/-- A page status is none of the three known ones. -/
def badStatus (status : UInt16) : Bool :=
  status != validPage && status != receiveData && status != erased

/-- The first part of `_init`: a page with a bad status is erased, or both are formatted. -/
def repairPages (geometry : Geometry) (state : State) : Code × State :=
  if badStatus (state.read16 .page0 0) then
    if state.read16 .page1 0 = validPage then checkErasePage geometry state .page0 erased
    else format geometry state
  else if badStatus (state.read16 .page1 0) then checkErasePage geometry state .page1 erased
  else (.noValidPage, state)

/-- Mark a page as valid, then check the other one. -/
def markValid (geometry : Geometry) (state : State) (page : Page) : Code × State :=
  checkErasePage geometry (state.write16 page 0 validPage) page.other erased

/-- The second part of `_init`, by the status of the two pages. -/
def initPages (geometry : Geometry) (state : State) : Code × State :=
  let status0 := state.read16 .page0 0
  let status1 := state.read16 .page1 0
  if status0 = erased then
    if status1 = validPage then checkErasePage geometry state .page0 erased
    else if status1 = receiveData then markValid geometry state .page1
    else format geometry state
  else if status0 = receiveData then
    if status1 = validPage then pageTransfer geometry state .page0 .page1 0xFFFF
    else if status1 = erased then
      match checkErasePage geometry state .page1 erased with
      | (.ok, state) => (.ok, state.write16 .page0 0 validPage)
      | (code, state) => (code, state)
    else format geometry state
  else if status0 = validPage then
    if status1 = validPage then
      let cnt0 := getVariablesCount geometry (state.flash .page0) 0xFFFF
      let cnt1 := getVariablesCount geometry (state.flash .page1) 0xFFFF
      if cnt0 > cnt1 then checkErasePage geometry state .page1 erased
      else if cnt0 < cnt1 then checkErasePage geometry state .page0 erased
      else checkErasePage geometry state .page1 erased
    else if status1 = receiveData then pageTransfer geometry state .page1 .page0 0xFFFF
    else checkErasePage geometry state .page1 erased
  else
    if status1 = validPage then checkErasePage geometry state .page0 erased
    else if status1 = receiveData then markValid geometry state .page1
    else format geometry state

/-- `_init`. The code of the second part replaces the one of the first. -/
def init (geometry : Geometry) (state : State) : Code × State :=
  let (_, state) := repairPages geometry state
  let (code, state) := initPages geometry state
  (code, { state with status := code })

/-! ### Reading and writing -/

/-- Find the valid page. A result of `none` says that the given number of tries, each behind an
`_init`, did not find one. -/
def findValidPage (geometry : Geometry) : Nat → State → Option (Option Page × State)
  | 0, _ => none
  | tries + 1, state =>
    let status0 := state.read16 .page0 0
    let status1 := state.read16 .page1 0
    if status0 = validPage ∧ status1 = erased then some (some .page0, state)
    else if status1 = validPage ∧ status0 = erased then some (some .page1, state)
    else
      match init geometry state with
      | (.ok, state) => findValidPage geometry tries state
      | (_, state) => some (none, state)

/-- The head of `_FindValidPage`: an object that was not initialised initialises itself. -/
def findPage (geometry : Geometry) (tries : Nat) (state : State) : Option (Option Page × State) :=
  if state.status = .notInit then
    match init geometry state with
    | (.ok, state) => findValidPage geometry tries state
    | (_, state) => some (none, state)
  else findValidPage geometry tries state

/-- The scan of `read`, from the given slot down to slot 1. -/
def readLoop (words : Words) (address : UInt16) : Nat → Option UInt16
  | 0 => none
  | slot + 1 =>
    if words (addressAt (slot + 1)) = address then some (words (dataAt (slot + 1)))
    else readLoop words address slot

/-- Read a variable. -/
def read (geometry : Geometry) (tries : Nat) (state : State) (address : UInt16) :
    Option (Code × UInt16 × State) :=
  match findPage geometry tries state with
  | none => none
  | some (none, state) => some (.noValidPage, defaultData, state)
  | some (some page, state) =>
    match readLoop (state.flash page) (address &&& addressMask) geometry.slots with
    | some data => some (.ok, data, state)
    | none => some (.badAddress, defaultData, state)

/-- The scan of `_VerifyPageFullWriteVariable` for the slot to update. Unlike the scan of `read`
it goes down to slot 0, which is the page header. -/
def updateScan (words : Words) (address : UInt16) : Nat → Option Nat
  | 0 => if words (addressAt 0) = address then some 0 else none
  | slot + 1 =>
    if words (addressAt (slot + 1)) = address then some (slot + 1)
    else updateScan words address slot

/-- Append a variable to the active page, or move all to the other page when there is no empty
slot. -/
def appendVariable (geometry : Geometry) (state : State) (page : Page) (address data : UInt16) :
    Code × State :=
  match firstEmpty geometry (state.flash page) with
  | some slot =>
    let state := state.write16 page (dataAt slot) data
    (.ok, state.write16 page (addressAt slot) (address &&& addressMask))
  | none =>
    let mycount := getVariablesCount geometry (state.flash page) address + 1
    if mycount ≥ maxcount geometry then (.outSize, state)
    else
      let newPage := page.other
      let state := state.write16 newPage 0 receiveData
      let state := state.write16 newPage (dataAt 1) data
      let state := state.write16 newPage (addressAt 1) address
      pageTransfer geometry state newPage page address

/-- Write a variable to the active page. -/
def writeVariable (geometry : Geometry) (state : State) (page : Page) (address data : UInt16) :
    Code × State :=
  match updateScan (state.flash page) address geometry.slots with
  | none => appendVariable geometry state page address data
  | some slot =>
    let oldData := state.read16 page (dataAt slot)
    if oldData = data then (.ok, state)
    else if oldData = 0xFFFF ∨ ~~~oldData &&& data = 0 then
      let state := state.write16 page (dataAt slot) data
      if state.read16 page (dataAt slot) = data then (.ok, state)
      else appendVariable geometry state page address data
    else appendVariable geometry state page address data

/-- `_VerifyPageFullWriteVariable`. -/
def verifyPageFullWriteVariable (geometry : Geometry) (tries : Nat) (state : State)
    (address data : UInt16) : Option (Code × State) :=
  match findPage geometry tries state with
  | none => none
  | some (none, state) => some (.noValidPage, state)
  | some (some page, state) => some (writeVariable geometry state page address data)

/-- Write a variable. -/
def write (geometry : Geometry) (tries : Nat) (state : State) (address data : UInt16) :
    Option (Code × State) :=
  let (started, state) :=
    if state.status = .notInit then init geometry state else (.ok, state)
  if started ≠ .ok then some (started, state)
  else if address = 0xFFFF then some (.badAddress, state)
  else
    match verifyPageFullWriteVariable geometry tries state (address &&& addressMask) data with
    | none => none
    | some (.noValidPage, state) => some (.noValidPage, { state with status := .notInit })
    | some (code, state) => some (code, state)

end Urus.Eeprom
