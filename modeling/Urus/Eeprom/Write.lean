/-
This file proves what the operations of the emulation do to the contents: `_init`
recovers them from every image that a run can leave, `read` looks them up, and `write`
changes them at one address, with every image in between recoverable to the old or the
new contents.

The one write that is left out is the one that the source gets wrong. Its scan for the
slot to update does not stop in front of the page header, so that a variable that is not
stored yet and whose address is the page's erase counter is looked for in the header.
-/

import Urus.Eeprom.Transfer

namespace Urus.Eeprom

/-! ### Initialisation -/

section Init

variable {geometry : Geometry} {addresses : Finset UInt16} {contents : Contents} {flash : Flash}
  {page : Page} {entries : List Entry}

theorem not_badStatus {status : UInt16}
    (known : status = validPage ∨ status = receiveData ∨ status = erased) :
    badStatus status = false := by
  rcases known with rfl | rfl | rfl <;> decide

theorem init_eq (geometry : Geometry) (state : State)
    (known0 : badStatus (state.flash .page0 0) = false)
    (known1 : badStatus (state.flash .page1 0) = false) :
    init geometry state =
      ((initPages geometry state).1,
        { (initPages geometry state).2 with status := (initPages geometry state).1 }) := by
  have nothing : repairPages geometry state = (.noValidPage, state) := by
    simp only [repairPages, State.read16, known0, known1, Bool.false_eq_true, if_false]
  simp only [init, nothing]

theorem initPages_settled (state : State) (view : Settled geometry contents state.flash page entries) :
    initPages geometry state = (.ok, state) := by
  have blank := checkErasePage_blank state page.other view.other
  have active := view.active.status
  have other := view.other.status
  cases page with
  | page0 =>
    simp only [Page.other] at blank other
    simp only [initPages, State.read16, active, other]
    exact blank
  | page1 =>
    simp only [Page.other] at blank other
    simp only [initPages, State.read16, active, other]
    exact blank

theorem initPages_moving {old new : List Entry} (state : State)
    (view : Moving geometry addresses contents state.flash page old new) :
    initPages geometry state = pageTransfer geometry state page.other page 0xFFFF := by
  have oldStatus := view.oldPage.status
  have newStatus := view.newPage.status
  cases page with
  | page0 =>
    simp only [Page.other] at newStatus ⊢
    simp only [initPages, State.read16, oldStatus, newStatus]
    rfl
  | page1 =>
    simp only [Page.other] at newStatus ⊢
    simp only [initPages, State.read16, oldStatus, newStatus]
    rfl

theorem initPages_moved {new : List Entry} (state : State)
    (view : Moved geometry contents state.flash page new) :
    initPages geometry state = (.ok, state.write16 page.other 0 validPage) := by
  have oldStatus := view.oldPage.status
  have newStatus := view.newPage.status
  cases page with
  | page0 =>
    simp only [Page.other] at newStatus ⊢
    have blank : Holds geometry ((state.write16 .page1 0 validPage).flash .page0) erased [] :=
      view.oldPage
    have checked := checkErasePage_blank _ .page0 blank
    simp only [initPages, State.read16, oldStatus, newStatus]
    exact checked
  | page1 =>
    simp only [Page.other] at newStatus ⊢
    have checked := checkErasePage_blank state .page1 view.oldPage
    simp only [initPages, State.read16, oldStatus, newStatus, checked]
    rfl

theorem Recoverable.known (recoverable : Recoverable geometry addresses contents flash)
    (page : Page) : badStatus (flash page 0) = false := by
  have one : ∀ active : Page, (flash active 0 = validPage ∨ flash active 0 = receiveData ∨
      flash active 0 = erased) → (flash active.other 0 = validPage ∨
      flash active.other 0 = receiveData ∨ flash active.other 0 = erased) →
      badStatus (flash page 0) = false := by
    intro active here there
    by_cases same : page = active
    · rw [same]
      exact not_badStatus here
    · have other : page = active.other := by
        revert same
        cases page <;> cases active <;> decide
      rw [other]
      exact not_badStatus there
  cases recoverable with
  | settled active entries view =>
    exact one active (Or.inl view.active.status) (Or.inr (Or.inr view.other.status))
  | moving active old new view room =>
    exact one active (Or.inl view.oldPage.status) (Or.inr (Or.inl view.newPage.status))
  | moved active new view =>
    exact one active (Or.inr (Or.inr view.oldPage.status)) (Or.inr (Or.inl view.newPage.status))

theorem init_recoverable (recoverable : Recoverable geometry addresses contents flash) :
    ∃ state page entries, init geometry (fresh flash) = (.ok, state) ∧ state.status = .ok ∧
      Settled geometry contents state.flash page entries := by
  have eq := init_eq geometry (fresh flash) (recoverable.known .page0)
    (recoverable.known .page1)
  cases recoverable with
  | settled page entries view =>
    have settled : Settled geometry contents (fresh flash).flash page entries := view
    rw [eq, initPages_settled _ settled]
    exact ⟨_, page, entries, rfl, rfl, view⟩
  | moving page old new view room =>
    have moving : Moving geometry addresses contents (fresh flash).flash page old new := view
    obtain ⟨state, new', result, settled, -⟩ := pageTransfer_moving (fresh flash) moving room
      (Or.inl rfl) fun impossible : False => impossible.elim
    rw [eq, initPages_moving _ moving, result]
    exact ⟨_, page.other, new', rfl, rfl, settled⟩
  | moved page new view =>
    have moved : Moved geometry contents (fresh flash).flash page new := view
    have marked := moved.markValid
    rw [← moved.write16_flash] at marked
    rw [eq, initPages_moved _ moved]
    exact ⟨_, page.other, new, rfl, rfl, marked⟩

theorem format_blank (state : State)
    (first : checkErasePage geometry state .page0 validPage = (.ok, state))
    (unmarked : state.read16 .page0 0 = erased)
    (second : checkErasePage geometry (state.write16 .page0 0 validPage) .page1 erased =
      (.ok, state.write16 .page0 0 validPage)) :
    format geometry state = (.ok, state.write16 .page0 0 validPage) := by
  have once : formatOnce geometry state = (.ok, state.write16 .page0 0 validPage) := by
    simp only [formatOnce, first, if_pos unmarked, second]
  rw [format, formatLoop, once]

theorem init_erased (geometry : Geometry) :
    ∃ state, init geometry (fresh fun _ _ => 0xFFFF) = (.ok, state) ∧ state.status = .ok ∧
      Settled geometry (fun _ => none) state.flash .page0 [] := by
  have blank := holds_blank geometry
  have eq := init_eq geometry (fresh fun _ _ => 0xFFFF) (by decide) (by decide)
  have first : checkErasePage geometry (fresh fun _ _ => 0xFFFF) .page0 validPage =
      (.ok, fresh fun _ _ => 0xFFFF) := by
    have good : checkPage geometry ((fresh fun _ _ => 0xFFFF).flash .page0) validPage = .ok :=
      blank.checkPage_ok (Or.inl rfl)
    rw [checkErasePage, if_neg (not_not.mpr good)]
  let marked := (fresh fun _ _ => 0xFFFF).write16 .page0 0 validPage
  have second : checkErasePage geometry marked .page1 erased = (.ok, marked) :=
    checkErasePage_blank marked .page1 blank
  have formatted : format geometry (fresh fun _ _ => 0xFFFF) = (.ok, marked) :=
    format_blank _ first rfl second
  have pages : initPages geometry (fresh fun _ _ => 0xFFFF) = (.ok, marked) := by
    have status : ∀ page, (fresh fun _ _ => 0xFFFF).read16 page 0 = erased := fun _ => rfl
    simp only [initPages, status, if_true, if_neg (show ¬ erased = validPage by decide),
      if_neg (show ¬ erased = receiveData by decide)]
    exact formatted
  rw [eq, pages]
  refine ⟨_, rfl, rfl, ⟨?_, blank, fun _ _ => rfl⟩⟩
  show Holds geometry (marked.flash .page0) validPage []
  rw [write16_flash _ _ _ _ validPage (by decide), Function.update_self]
  exact blank.mark validPage

end Init

/-! ### Reading -/

section Read

variable {geometry : Geometry} {contents : Contents} {state : State} {page : Page}
  {entries : List Entry}

theorem findPage_settled (view : Settled geometry contents state.flash page entries)
    (started : state.status = .ok) (tries : Nat) :
    findPage geometry (tries + 1) state = some (some page, state) := by
  have active := view.active.status
  have other := view.other.status
  have notNew : ¬ state.status = .notInit := by
    rw [started]
    decide
  rw [findPage, if_neg notNew, findValidPage]
  cases page with
  | page0 =>
    simp only [Page.other] at other
    simp only [State.read16, active, other]
    rfl
  | page1 =>
    simp only [Page.other] at other
    simp only [State.read16, active, other]
    rfl

/-- What `read` returns for a variable. -/
def readResult (stored : Option UInt16) : Code × UInt16 :=
  match stored with
  | some data => (.ok, data)
  | none => (.badAddress, defaultData)

theorem masked_ne_erased (address : UInt16) : address &&& addressMask ≠ 0xFFFF := by
  intro same
  have flags : (address &&& addressMask) &&& flagsMask = 0 := by
    rw [UInt16.and_assoc, show addressMask &&& flagsMask = 0 by decide, UInt16.and_zero]
  rw [same] at flags
  exact absurd flags (by decide)

/-- `read` looks the variable up and changes nothing. -/
theorem read_settled (view : Settled geometry contents state.flash page entries)
    (started : state.status = .ok) (tries : Nat) (address : UInt16) :
    read geometry (tries + 1) state address =
      some ((readResult (contents (address &&& addressMask))).1,
        (readResult (contents (address &&& addressMask))).2, state) := by
  have good := masked_ne_erased address
  rw [read, findPage_settled view started]
  simp only [view.active.readLoop_eq _ good, view.shows _ good]
  cases contents (address &&& addressMask) <;> rfl

end Read

/-! ### Writing -/

section Write

variable {geometry : Geometry} {addresses : Finset UInt16} {contents : Contents} {state : State}
  {page : Page} {entries : List Entry}

/-- An object between two calls of a run without losses: its page has complete entries only. -/
structure Clean (geometry : Geometry) (addresses : Finset UInt16) (contents : Contents)
    (state : State) (page : Page) (entries : List Entry) : Prop where
  view : Settled geometry contents state.flash page entries
  whole : waste entries = 0
  within : ∀ address ∈ stored entries, address ∈ addresses
  started : state.status = .ok

/-- The contents behind a write. -/
def Contents.set (contents : Contents) (address data : UInt16) : Contents :=
  Function.update contents address (some data)

/-- An image that leads back to the old contents or to the new ones. -/
def OldOrNew (geometry : Geometry) (addresses : Finset UInt16) (contents : Contents)
    (address data : UInt16) (flash : Flash) : Prop :=
  Recoverable geometry addresses contents flash ∨
    Recoverable geometry addresses (contents.set address data) flash

/-- What a write leaves: the new contents, or nothing changed because the page is too small. -/
def Written (geometry : Geometry) (addresses : Finset UInt16) (contents : Contents)
    (address data : UInt16) (before : State) (code : Code) (after : State) : Prop :=
  (code = .ok ∧ ∃ page entries,
      Clean geometry addresses (contents.set address data) after page entries) ∨
    code = .outSize ∧ after = before

/-- The entry that a write makes. -/
def entryOf (address data : UInt16) (good : IsAddress address) : Entry := ⟨data, address, Or.inl good⟩

theorem Contents.set_self (contents : Contents) (address data : UInt16) :
    contents.set address data address = some data := Function.update_self _ _ _

theorem Contents.set_of_ne (contents : Contents) {address other : UInt16} (data : UInt16)
    (different : other ≠ address) : contents.set address data other = contents other :=
  Function.update_of_ne different _ _

/-- A variable is appended to a page with an empty slot. -/
theorem appendVariable_room (clean : Clean geometry addresses contents state page entries)
    (address data : UInt16) (good : IsAddress address) (known : address ∈ addresses)
    (room : entries.length < geometry.slots) :
    ∃ state', appendVariable geometry state page address data = (.ok, state') ∧
      Clean geometry addresses (contents.set address data) state' page
        (entries ++ [entryOf address data good]) ∧
      Steps (OldOrNew geometry addresses contents address data) state state' := by
  have view := clean.view
  have empty := view.active.blank (entries.length + 1) (Nat.lt_succ_self _) room
  obtain ⟨flash1, flash2⟩ :=
    writeSlot_flash state page (entries.length + 1) data address empty
  have complete : (entryOf address data good).Complete := good.ne_erased
  have middle : Settled geometry contents
      (state.write16 page (dataAt (entries.length + 1)) data).flash page
      (entries ++ pending data) := by
    rw [flash1]
    refine ⟨?_, ?_, fun other proper => ?_⟩
    · rw [Function.update_self]
      exact view.active.withData data room
    · rw [Function.update_of_ne (Page.other_ne page)]
      exact view.other
    · rw [lookup_pending _ _ _ proper]
      exact view.shows other proper
  have final : Settled geometry (contents.set address data)
      ((state.write16 page (dataAt (entries.length + 1)) data).write16 page
        (addressAt (entries.length + 1)) address).flash page
      (entries ++ [entryOf address data good]) := by
    rw [flash2]
    refine ⟨?_, ?_, fun other proper => ?_⟩
    · rw [Function.update_self]
      exact view.active.withSlot (entryOf address data good) room
    · rw [Function.update_of_ne (Page.other_ne page)]
      exact view.other
    · rw [lookup_append_single]
      show (if address = other then some data else lookup entries other) = _
      by_cases same : address = other
      · subst same
        rw [if_pos rfl, contents.set_self]
      · rw [if_neg same, contents.set_of_ne data (Ne.symm same)]
        exact view.shows other proper
  refine ⟨_, ?_, ⟨final, ?_, ?_, clean.started⟩, ?_⟩
  · rw [appendVariable, view.active.firstEmpty_eq room]
    simp only [good.masked]
  · rw [waste_append, waste_single complete, clean.whole]
  · intro other member
    rw [stored_append, stored_single complete] at member
    rcases List.mem_append.mp member with before | single
    · exact clean.within other before
    · rw [List.mem_singleton.mp single]
      exact known
  · exact (Steps.program state _ _ _ (Or.inl (.settled page entries view))
      (Or.inl (.settled page _ middle))).trans
      (Steps.program _ _ _ _ (Or.inl (.settled page _ middle)) (Or.inr (.settled page _ final)))

/-- The transfer that a write to a full page starts. -/
theorem transfer_full (clean : Clean geometry addresses contents state page entries)
    (address data : UInt16) (good : IsAddress address) (known : address ∈ addresses)
    (capacity : addresses.card + 1 ≤ geometry.slots) :
    ∃ state' entries', pageTransfer geometry (((state.write16 page.other 0 receiveData).write16
        page.other (dataAt 1) data).write16 page.other (addressAt 1) address) page.other page
        address = (.ok, state') ∧
      Clean geometry addresses (contents.set address data) state' page.other entries' ∧
      Steps (OldOrNew geometry addresses contents address data) state state' := by
  have view := clean.view
  have three := geometry.three_le_slots
  have complete : (entryOf address data good).Complete := good.ne_erased
  let started := state.write16 page.other 0 receiveData
  have flash0 : started.flash = Function.update state.flash page.other
      (Function.update (state.flash page.other) 0 receiveData) :=
    write16_flash state _ _ _ _ (by rw [view.other.status]; decide)
  have moving : Moving geometry addresses contents started.flash page entries [] := by
    rw [flash0]
    refine ⟨?_, ?_, List.nodup_nil, clean.within, fun _ member => absurd member List.not_mem_nil,
      Nat.le_of_succ_le capacity, fun other proper => ?_⟩
    · rw [Function.update_of_ne (Page.ne_other page)]
      exact view.active
    · rw [Function.update_self]
      exact view.other.mark receiveData
    · rw [lookup_nil, Option.none_or]
      exact view.shows other proper
  obtain ⟨copied, result, copiedView, copySteps, copyStatus⟩ := copy_steps started moving
    (entryOf address data good) complete known List.not_mem_nil (contents.set_self address data)
    (fun other different => contents.set_of_ne data different) (fun _ : True => capacity)
  obtain ⟨state', entries', transfer, settled, within, whole, transferSteps, transferStatus⟩ :=
    pageTransfer_moving copied copiedView (by rw [List.nil_append, List.length_singleton]; omega)
      (show address = 0xFFFF ∨ _ from
        Or.inr (by rw [List.nil_append, stored_single complete]; exact List.mem_cons_self))
      (fun _ : True => by rw [List.nil_append, waste_single complete]; exact capacity)
  have startStep : Steps (OldOrNew geometry addresses contents address data) state started :=
    Steps.program state _ _ _ (Or.inl (.settled page entries view))
      (Or.inl (.moving page entries [] moving (by rw [List.length_nil]; omega)))
  refine ⟨state', entries', ?_, ⟨settled, ?_, within, ?_⟩, ?_⟩
  · have same : ((started.write16 page.other (dataAt 1) data).write16 page.other (addressAt 1)
        address) = copied := result
    rw [same]
    exact transfer
  · rw [whole, List.nil_append, waste_single complete]
  · rw [transferStatus, copyStatus]
    exact clean.started
  · refine (startStep.trans (copySteps.mono fun flash either => ?_)).trans
      (transferSteps.mono fun flash new => Or.inr (new trivial))
    exact either.imp (fun old => old trivial) fun new => new trivial

/-- A slot that counts is an entry, and no later entry has its address. -/
theorem Holds.counted {words : Words} {status : UInt16} {skipAddress : UInt16}
    (holds : Holds geometry words status entries) (slot : Nat) (low : 1 ≤ slot)
    (high : slot ≤ geometry.slots)
    (counts : countsVariable geometry words skipAddress slot = true) :
    words (addressAt slot) ∈ stored entries ∧ words (addressAt slot) ≠ skipAddress ∧
      ∀ next, slot < next → next ≤ geometry.slots →
        words (addressAt next) ≠ words (addressAt slot) := by
  rw [countsVariable, Bool.and_eq_true] at counts
  obtain ⟨kept, last⟩ := counts
  rw [Bool.not_eq_true', Bool.or_eq_false_iff, Bool.or_eq_false_iff, beq_eq_false_iff_ne,
    beq_eq_false_iff_ne] at kept
  obtain ⟨⟨written, notSkipped⟩, -⟩ := kept
  have inside : slot ≤ entries.length := by
    by_contra outside
    exact written (holds.blank slot (by omega) high).2
  obtain ⟨index, rfl⟩ : ∃ index, slot = index + 1 := ⟨slot - 1, by omega⟩
  have stored := (holds.entry index (by omega)).2
  have complete : entries[index].Complete := fun missing => written (stored.trans missing)
  refine ⟨?_, ?_, fun next later bound same => ?_⟩
  · exact (mem_stored _ _).mpr ⟨entries[index], List.getElem_mem _, complete, stored.symm⟩
  · intro same
    rw [same] at notSkipped
    have good : IsAddress skipAddress := by
      rw [← same, stored]
      exact complete.isAddress
    exact notSkipped good.masked
  · rw [Bool.not_eq_true', List.any_eq_false] at last
    refine last next (List.mem_range'_1.mpr (by omega)) ?_
    rw [same]
    exact beq_self_eq_true _

section

variable (clean : Clean geometry addresses contents state page entries)

include clean

theorem Clean.count_lt {address : UInt16} (known : address ∈ addresses) :
    ((List.range' 1 geometry.slots).filter
      (countsVariable geometry (state.flash page) address)).length < addresses.card := by
  let counted := (List.range' 1 geometry.slots).filter
    (countsVariable geometry (state.flash page) address)
  have facts : ∀ slot ∈ counted, state.flash page (addressAt slot) ∈ stored entries ∧
      state.flash page (addressAt slot) ≠ address ∧ ∀ next, slot < next → next ≤ geometry.slots →
        state.flash page (addressAt next) ≠ state.flash page (addressAt slot) := by
    intro slot member
    obtain ⟨bounds, counts⟩ := List.mem_filter.mp member
    rw [List.mem_range'_1] at bounds
    exact clean.view.active.counted slot (by omega) (by omega) counts
  have bounded : ∀ slot ∈ counted, slot ≤ geometry.slots := by
    intro slot member
    have bounds := List.mem_range'_1.mp (List.mem_filter.mp member).1
    omega
  have distinct : (counted.map fun slot => state.flash page (addressAt slot)).Nodup := by
    refine List.Nodup.map_on ?_ (List.Nodup.filter _ List.nodup_range')
    intro first member second member' same
    rcases Nat.lt_trichotomy first second with before | equal | behind
    · exact absurd same.symm ((facts first member).2.2 second before (bounded second member'))
    · exact equal
    · exact absurd same ((facts second member').2.2 first behind (bounded first member))
  have fewer : (counted.map fun slot => state.flash page (addressAt slot)).length ≤
      (addresses.erase address).card := by
    rw [← List.toFinset_card_of_nodup distinct]
    refine Finset.card_le_card fun other member => ?_
    obtain ⟨slot, inside, rfl⟩ := List.mem_map.mp (List.mem_toFinset.mp member)
    exact Finset.mem_erase.mpr ⟨(facts slot inside).2.1, clean.within _ (facts slot inside).1⟩
  rw [List.length_map, Finset.card_erase_of_mem known] at fewer
  have positive : 0 < addresses.card := Finset.card_pos.mpr ⟨address, known⟩
  show counted.length < _
  omega

/-- A page that is large enough, by its 16 bit count, is never found too small. -/
theorem Clean.count_fits {address : UInt16} (known : address ∈ addresses)
    (enough : addresses.card < (maxcount geometry).toNat) :
    ¬ getVariablesCount geometry (state.flash page) address + 1 ≥ maxcount geometry := by
  have fewer := clean.count_lt known
  have bound := (maxcount geometry).toNat_lt
  rw [ge_iff_le, UInt16.le_iff_toNat_le, Nat.not_le, UInt16.toNat_add, getVariablesCount,
    UInt16.toNat_ofNat', show (1 : UInt16).toNat = 1 from rfl]
  omega

/-- A variable is appended, or everything is moved to the other page. -/
theorem appendVariable_clean
    (address data : UInt16) (good : IsAddress address) (known : address ∈ addresses)
    (capacity : addresses.card + 1 ≤ geometry.slots) :
    ∃ code state', appendVariable geometry state page address data = (code, state') ∧
      Written geometry addresses contents address data state code state' ∧
      (addresses.card < (maxcount geometry).toNat → code = .ok) ∧
      Steps (OldOrNew geometry addresses contents address data) state state' := by
  by_cases room : entries.length < geometry.slots
  · obtain ⟨state', result, clean', steps⟩ :=
      appendVariable_room clean address data good known room
    exact ⟨.ok, state', result, Or.inl ⟨rfl, page, _, clean'⟩, fun _ => rfl, steps⟩
  · have full : entries.length = geometry.slots := by
      have fits := clean.view.active.fits
      omega
    have noSlot := clean.view.active.firstEmpty_none full
    by_cases small : getVariablesCount geometry (state.flash page) address + 1 ≥ maxcount geometry
    · refine ⟨.outSize, state, ?_, Or.inr ⟨rfl, rfl⟩, fun enough =>
        absurd small (clean.count_fits known enough),
        Performs.refl (Or.inl (.settled page entries clean.view))⟩
      rw [appendVariable, noSlot]
      simp only [if_pos small]
    · obtain ⟨state', entries', result, clean', steps⟩ :=
        transfer_full clean address data good known capacity
      refine ⟨.ok, state', ?_, Or.inl ⟨rfl, page.other, entries', clean'⟩, fun _ => rfl, steps⟩
      rw [appendVariable, noSlot]
      simp only [if_neg small]
      exact result

end

theorem and_of_clears {old data : UInt16} (clears : ~~~old &&& data = 0) : old &&& data = data := by
  apply UInt16.toBitVec_inj.mp
  refine BitVec.eq_of_getElem_eq fun index bound => ?_
  have bit := congrArg (fun word : UInt16 => word.toBitVec[index]) clears
  simp only [UInt16.toBitVec_and, UInt16.toBitVec_not, BitVec.getElem_and, BitVec.getElem_not,
    UInt16.toBitVec_zero, BitVec.getElem_zero] at bit ⊢
  revert bit
  cases old.toBitVec[index] <;> cases data.toBitVec[index] <;> decide

theorem lookup_replace (front back : List Entry) (entry : Entry) (good : entry.Complete)
    (later : ∀ other ∈ back, other.address ≠ entry.address) (data address : UInt16) :
    lookup (front ++ ⟨data, entry.address, Or.inl good.isAddress⟩ :: back) address =
      if entry.address = address then some data else lookup (front ++ entry :: back) address := by
  have split : ∀ middle : Entry, lookup (front ++ middle :: back) address =
      ((lookup back address).or (if middle.address = address then some middle.data else none)).or
        (lookup front address) := by
    intro middle
    rw [lookup_append, show middle :: back = [middle] ++ back from rfl, lookup_append]
    rw [show lookup [middle] address =
      if middle.address = address then some middle.data else none from
        lookup_append_single [] middle address]
  rw [split, split]
  by_cases same : entry.address = address
  · have missing : lookup back address = none :=
      (lookup_eq_none_iff back address).mpr fun other member => same ▸ later other member
    simp only [if_pos same, missing, Option.none_or, Option.some_or]
  · simp only [if_neg same]

/-- A new value that only clears bits is programmed over the old one. -/
theorem update_clean (front back : List Entry) (entry : Entry)
    (clean : Clean geometry addresses contents state page (front ++ entry :: back))
    (complete : entry.Complete) (later : ∀ other ∈ back, other.address ≠ entry.address)
    (data : UInt16) (clears : entry.data &&& data = data)
    (slot : state.flash page (dataAt (front.length + 1)) = entry.data) :
    (state.write16 page (dataAt (front.length + 1)) data).flash page
        (dataAt (front.length + 1)) = data ∧
      Clean geometry addresses (contents.set entry.address data)
        (state.write16 page (dataAt (front.length + 1)) data) page
        (front ++ ⟨data, entry.address, Or.inl complete.isAddress⟩ :: back) ∧
      Steps (OldOrNew geometry addresses contents entry.address data) state
        (state.write16 page (dataAt (front.length + 1)) data) := by
  have view := clean.view
  have flash : (state.write16 page (dataAt (front.length + 1)) data).flash =
      Function.update state.flash page (withData (state.flash page) (front.length + 1) data) :=
    write16_flash state _ _ _ _ (by rw [slot, clears])
  have settled : Settled geometry (contents.set entry.address data)
      (state.write16 page (dataAt (front.length + 1)) data).flash page
      (front ++ ⟨data, entry.address, Or.inl complete.isAddress⟩ :: back) := by
    rw [flash]
    refine ⟨?_, ?_, fun address proper => ?_⟩
    · rw [Function.update_self]
      exact Holds.replace front back entry view.active complete data
    · rw [Function.update_of_ne (Page.other_ne page)]
      exact view.other
    · rw [lookup_replace front back entry complete later]
      by_cases same : entry.address = address
      · rw [if_pos same, ← same, contents.set_self]
      · rw [if_neg same, contents.set_of_ne data (Ne.symm same)]
        exact view.shows address proper
  have sameStored : stored (front ++ ⟨data, entry.address, Or.inl complete.isAddress⟩ :: back) =
      stored (front ++ entry :: back) := by
    have complete' : Entry.Complete ⟨data, entry.address, Or.inl complete.isAddress⟩ := complete
    rw [stored_append, stored_append, stored_cons complete, stored_cons complete']
  have sameLength : (front ++ (⟨data, entry.address, Or.inl complete.isAddress⟩ : Entry) ::
      back).length = (front ++ entry :: back).length := by simp
  refine ⟨?_, ⟨settled, ?_, sameStored ▸ clean.within, clean.started⟩, ?_⟩
  · rw [flash, Function.update_self]
    exact Function.update_self _ _ _
  · have before := length_eq_stored_add_waste (front ++ entry :: back)
    have after := length_eq_stored_add_waste
      (front ++ ⟨data, entry.address, Or.inl complete.isAddress⟩ :: back)
    rw [sameLength, sameStored] at after
    have whole := clean.whole
    omega
  · exact Steps.program state _ _ _ (Or.inl (.settled page _ view)) (Or.inr (.settled page _ settled))

/-- The write is not misled by the page header: the variable is stored, or its address is not the
erase counter, or its data has a bit that a valid page's status has not. -/
def Unmistaken (stored : Option UInt16) (counter address data : UInt16) : Prop :=
  stored.isSome ∨ counter ≠ address ∨ data &&& 0x5555 ≠ 0

/-- A write to the active page. -/
theorem writeVariable_clean (clean : Clean geometry addresses contents state page entries)
    (address data : UInt16) (good : IsAddress address) (known : address ∈ addresses)
    (capacity : addresses.card + 1 ≤ geometry.slots)
    (unmistaken : Unmistaken (contents address) (state.flash page 2) address data) :
    ∃ code state', writeVariable geometry state page address data = (code, state') ∧
      Written geometry addresses contents address data state code state' ∧
      (addresses.card < (maxcount geometry).toNat → code = .ok) ∧
      Steps (OldOrNew geometry addresses contents address data) state state' := by
  have view := clean.view
  have appended := appendVariable_clean clean address data good known capacity
  cases found : lookup entries address with
  | none =>
    have scan := view.active.updateScan_missing address good.ne_erased found
    by_cases header : state.flash page 2 = address
    · -- the scan ends at the header, and the status of a valid page is not taken for old data
      rw [if_pos header] at scan
      have bits : data &&& 0x5555 ≠ 0 := by
        rcases unmistaken with there | other | bits
        · rw [← view.shows address good.ne_erased, found] at there
          cases there
        · exact absurd header other
        · exact bits
      have different : ¬ state.read16 page (dataAt 0) = data := by
        intro same
        rw [← same, show state.read16 page (dataAt 0) = validPage from view.active.status] at bits
        exact bits (by decide)
      have notClears : ¬ (state.read16 page (dataAt 0) = 0xFFFF ∨
          ~~~(state.read16 page (dataAt 0)) &&& data = 0) := by
        rw [show state.read16 page (dataAt 0) = validPage from view.active.status]
        rintro (impossible | clears)
        · exact absurd impossible (by decide)
        · rw [show ~~~validPage = 0x5555 by decide, UInt16.and_comm] at clears
          exact bits clears
      obtain ⟨code, state', result, rest⟩ := appended
      refine ⟨code, state', ?_, rest⟩
      rw [writeVariable, scan]
      simp only [if_neg different, if_neg notClears]
      exact result
    · rw [if_neg header] at scan
      obtain ⟨code, state', result, rest⟩ := appended
      refine ⟨code, state', ?_, rest⟩
      rw [writeVariable, scan]
      exact result
  | some old =>
    obtain ⟨front, entry, back, rfl, rfl, rfl, later⟩ := exists_last_of_lookup found
    have complete : entry.Complete := good.ne_erased
    have scan := Holds.updateScan_stored front back entry view.active complete later
    have slot : state.read16 page (dataAt (front.length + 1)) = entry.data := by
      have stored := (view.active.entry front.length (by simp)).1
      rw [List.getElem_append_right (le_refl _)] at stored
      simp only [Nat.sub_self, List.getElem_cons_zero] at stored
      exact stored
    have settled : Recoverable geometry addresses contents state.flash := .settled page _ view
    by_cases same : entry.data = data
    · have unchanged : contents.set entry.address data = contents := by
        refine Function.update_eq_self_iff.mpr ?_
        rw [← view.shows _ complete, found, same]
      refine ⟨.ok, state, ?_, Or.inl ⟨rfl, page, _, unchanged ▸ clean⟩, fun _ => rfl,
        Performs.refl (Or.inl settled)⟩
      rw [writeVariable, scan]
      simp only [slot, if_pos same]
    · by_cases clears : entry.data = 0xFFFF ∨ ~~~entry.data &&& data = 0
      · have programmed : entry.data &&& data = data := by
          rcases clears with blank | bits
          · rw [blank, erased_and]
          · exact and_of_clears bits
        obtain ⟨readBack, clean', steps⟩ :=
          update_clean front back entry clean complete later data programmed slot
        refine ⟨.ok, _, ?_, Or.inl ⟨rfl, page, _, clean'⟩, fun _ => rfl, steps⟩
        have check : (state.write16 page (dataAt (front.length + 1)) data).read16 page
            (dataAt (front.length + 1)) = data := readBack
        rw [writeVariable, scan]
        simp only [slot, if_neg same, if_pos clears, if_pos check]
      · obtain ⟨code, state', result, rest⟩ := appended
        refine ⟨code, state', ?_, rest⟩
        rw [writeVariable, scan]
        simp only [slot, if_neg same, if_neg clears]
        exact result

/-- A write by an object between two calls. -/
theorem write_clean (clean : Clean geometry addresses contents state page entries)
    (address data : UInt16) (good : IsAddress address) (known : address ∈ addresses)
    (capacity : addresses.card + 1 ≤ geometry.slots)
    (unmistaken : Unmistaken (contents address) (state.flash page 2) address data) (tries : Nat) :
    ∃ code state', write geometry (tries + 1) state address data = some (code, state') ∧
      Written geometry addresses contents address data state code state' ∧
      (addresses.card < (maxcount geometry).toNat → code = .ok) ∧
      Steps (OldOrNew geometry addresses contents address data) state state' := by
  obtain ⟨code, state', result, written, enough, steps⟩ :=
    writeVariable_clean clean address data good known capacity unmistaken
  have notNew : ¬ state.status = .notInit := by
    rw [clean.started]
    decide
  have verify : verifyPageFullWriteVariable geometry (tries + 1) state (address &&& addressMask)
      data = some (code, state') := by
    rw [verifyPageFullWriteVariable, findPage_settled clean.view clean.started, good.masked]
    exact congrArg some result
  refine ⟨code, state', ?_, written, enough, steps⟩
  simp only [write, if_neg notNew, ne_eq, not_true_eq_false, if_false, if_neg good.ne_erased, verify]
  rcases written with ⟨rfl, -⟩ | ⟨rfl, -⟩ <;> rfl

end Write

end Urus.Eeprom
