/-
This file proves that moving the variables to the other page loses nothing, whatever
the point at which the power is lost.

The images that a flash can show between two operations are of three kinds: one page is
valid and the other blank, the valid page is being copied to the other one, or the old
page is erased and the new one not yet marked as valid. What they have in common is the
contents they stand for. An address that the new page already has is read there, any
other in the old page. A restarted transfer goes on from there and ends in a valid page
with the same contents.

The one thing that can go wrong is room. A lost half of a slot is one slot less, so that
the addresses in use and the unfinished entries together must fit into a page.
-/

import Urus.Eeprom.Slots

namespace Urus.Eeprom

/-- The variables that are stored: every address with its data. -/
abbrev Contents := UInt16 → Option UInt16

/-! ### Complete entries -/

/-- The addresses of the complete entries. -/
def stored (entries : List Entry) : List UInt16 :=
  (entries.filter (·.Complete)).map Entry.address

/-- The number of entries whose address is missing. -/
def waste (entries : List Entry) : Nat := entries.countP fun entry => ¬ entry.Complete

theorem length_eq_stored_add_waste (entries : List Entry) :
    entries.length = (stored entries).length + waste entries := by
  rw [stored, List.length_map, ← List.countP_eq_length_filter, waste]
  simpa using List.length_eq_countP_add_countP (fun entry : Entry => decide entry.Complete)

theorem mem_stored (entries : List Entry) (address : UInt16) :
    address ∈ stored entries ↔ ∃ entry ∈ entries, entry.Complete ∧ entry.address = address := by
  simp only [stored, List.mem_map, List.mem_filter, decide_eq_true_eq, and_assoc]

theorem stored_append (first second : List Entry) :
    stored (first ++ second) = stored first ++ stored second := by
  rw [stored, List.filter_append, List.map_append]
  rfl

theorem waste_append (first second : List Entry) :
    waste (first ++ second) = waste first + waste second := List.countP_append

variable {entry : Entry}

theorem stored_single (complete : entry.Complete) :
    stored [entry] = [entry.address] := by
  simp [stored, complete]

theorem stored_cons (complete : entry.Complete) (entries : List Entry) :
    stored (entry :: entries) = entry.address :: stored entries := by
  rw [stored, List.filter_cons_of_pos (by simpa using complete), List.map_cons]
  rfl

theorem stored_cons_missing (missing : ¬ entry.Complete) (entries : List Entry) :
    stored (entry :: entries) = stored entries := by
  rw [stored, List.filter_cons_of_neg (by simpa using missing)]
  rfl

theorem waste_single (complete : entry.Complete) : waste [entry] = 0 := by
  simp [waste, complete]

theorem stored_pending (data : UInt16) : stored (pending data) = [] := by
  rw [pending]
  split
  · rfl
  · simp [stored, Entry.Complete]

theorem waste_pending (data : UInt16) : waste (pending data) ≤ 1 := by
  rw [pending]
  split
  · exact Nat.zero_le _
  · exact le_trans List.countP_le_length (le_refl _)

theorem pending_missing (data : UInt16) : ∀ entry ∈ pending data, ¬ entry.Complete := by
  intro entry member
  rw [pending] at member
  split at member
  · exact absurd member List.not_mem_nil
  · rw [List.mem_singleton.mp member]
    exact fun complete => complete rfl

/-- An unfinished entry is not found. -/
theorem lookup_pending (entries : List Entry) (data address : UInt16) (good : address ≠ 0xFFFF) :
    lookup (entries ++ pending data) address = lookup entries address := by
  refine lookup_append_miss _ _ _ fun entry member same => ?_
  exact pending_missing data entry member fun missing => good (same.symm.trans missing)

theorem lookup_isSome_iff (entries : List Entry) (address : UInt16) (good : address ≠ 0xFFFF) :
    (lookup entries address).isSome ↔ address ∈ stored entries := by
  rw [mem_stored]
  constructor
  · intro some
    by_contra none
    refine absurd ((lookup_eq_none_iff entries address).mpr fun entry member same => ?_)
      (Option.isSome_iff_ne_none.mp some)
    exact none ⟨entry, member, fun missing => good (same.symm.trans missing), same⟩
  · rintro ⟨entry, member, -, same⟩
    rw [Option.isSome_iff_ne_none]
    intro none
    exact (lookup_eq_none_iff entries address).mp none entry member same

/-! ### The images of a run -/

/-- One page is valid, and its last entries are the contents. -/
structure Settled (geometry : Geometry) (contents : Contents) (flash : Flash) (page : Page)
    (entries : List Entry) : Prop where
  active : Holds geometry (flash page) validPage entries
  other : Holds geometry (flash page.other) erased []
  shows : ∀ address, address ≠ 0xFFFF → lookup entries address = contents address

/-- The valid page is being copied to the other one. -/
structure Moving (geometry : Geometry) (addresses : Finset UInt16) (contents : Contents)
    (flash : Flash) (page : Page) (old new : List Entry) : Prop where
  oldPage : Holds geometry (flash page) validPage old
  newPage : Holds geometry (flash page.other) receiveData new
  distinct : (stored new).Nodup
  oldWithin : ∀ address ∈ stored old, address ∈ addresses
  newWithin : ∀ address ∈ stored new, address ∈ addresses
  capacity : addresses.card + waste new ≤ geometry.slots
  shows : ∀ address, address ≠ 0xFFFF →
    (lookup new address).or (lookup old address) = contents address

/-- The old page is erased, and the new one holds the contents. -/
structure Moved (geometry : Geometry) (contents : Contents) (flash : Flash) (page : Page)
    (new : List Entry) : Prop where
  oldPage : Holds geometry (flash page) erased []
  newPage : Holds geometry (flash page.other) receiveData new
  shows : ∀ address, address ≠ 0xFFFF → lookup new address = contents address

/-- The images from which `_init` recovers the contents. -/
inductive Recoverable (geometry : Geometry) (addresses : Finset UInt16) (contents : Contents)
    (flash : Flash) : Prop
  | settled (page : Page) (entries : List Entry)
      (view : Settled geometry contents flash page entries)
  | moving (page : Page) (old new : List Entry)
      (view : Moving geometry addresses contents flash page old new)
      (room : new.length < geometry.slots)
  | moved (page : Page) (new : List Entry) (view : Moved geometry contents flash page new)

/-- The second state is reached from the first with every flash image on the way good. -/
def Steps (good : Flash → Prop) (before after : State) : Prop :=
  Performs FlashOp.apply State.flash State.ops good (fun _ _ => True) before after

section Steps

variable {good : Flash → Prop} {flash : Flash} {page : Page} {words : Words}

/-- Programming a half-word. -/
theorem Steps.program (state : State) (page : Page) (offset : Nat) (data : UInt16)
    (start : good state.flash) (stop : good (state.write16 page offset data).flash) :
    Steps good state (state.write16 page offset data) :=
  Performs.call (.program page offset data) rfl rfl start trivial stop

/-- Programming an erased half-word stores the data. -/
theorem write16_flash (state : State) (page : Page) (offset : Nat) (data value : UInt16)
    (result : state.flash page offset &&& data = value) :
    (state.write16 page offset data).flash =
      Function.update state.flash page (Function.update (state.flash page) offset value) := by
  show Function.update state.flash page
    (Function.update (state.flash page) offset (state.flash page offset &&& data)) = _
  rw [result]

/-- Programming the two half-words of an empty slot. -/
theorem writeSlot_flash (state : State) (page : Page) (slot : Nat) (data address : UInt16)
    (empty : state.flash page (dataAt slot) = 0xFFFF ∧ state.flash page (addressAt slot) = 0xFFFF) :
    (state.write16 page (dataAt slot) data).flash =
        Function.update state.flash page (withData (state.flash page) slot data) ∧
      ((state.write16 page (dataAt slot) data).write16 page (addressAt slot) address).flash =
        Function.update state.flash page (withSlot (state.flash page) slot data address) := by
  have first : (state.write16 page (dataAt slot) data).flash =
      Function.update state.flash page (withData (state.flash page) slot data) :=
    write16_flash state _ _ _ _ (by rw [empty.1, erased_and])
  refine ⟨first, ?_⟩
  rw [write16_flash _ _ _ _ address, first, Function.update_self, Function.update_idem]
  · rfl
  · rw [first, Function.update_self, withData,
      Function.update_of_ne (by rw [addressAt, dataAt]; omega), empty.2, erased_and]

end Steps

/-! ### Copying one variable -/

section Copy

variable {geometry : Geometry} {addresses : Finset UInt16} {contents : Contents} {flash : Flash}
  {page : Page} {old new : List Entry}

section

variable (view : Moving geometry addresses contents flash page old new)

include view

/-- The new page with another list of entries. -/
theorem Moving.update {words : Words}
    {contents' : Contents} {new' : List Entry} (holds : Holds geometry words receiveData new')
    (distinct : (stored new').Nodup) (within : ∀ address ∈ stored new', address ∈ addresses)
    (capacity : addresses.card + waste new' ≤ geometry.slots)
    (shows : ∀ address, address ≠ 0xFFFF →
      (lookup new' address).or (lookup old address) = contents' address) :
    Moving geometry addresses contents' (Function.update flash page.other words) page old new' := by
  refine ⟨?_, ?_, distinct, view.oldWithin, within, capacity, shows⟩
  · rw [Function.update_of_ne (Page.ne_other page)]
    exact view.oldPage
  · rw [Function.update_self]
    exact holds

theorem Moving.stored_lt
    {address : UInt16} (known : address ∈ addresses) (missing : address ∉ stored new) :
    (stored new).length < addresses.card := by
  have all : (address :: stored new).Nodup := List.nodup_cons.mpr ⟨missing, view.distinct⟩
  have bound : (address :: stored new).length ≤ addresses.card := by
    rw [← List.toFinset_card_of_nodup all]
    refine Finset.card_le_card fun other member => ?_
    rcases List.mem_cons.mp (List.mem_toFinset.mp member) with rfl | old
    · exact known
    · exact view.newWithin other old
  exact bound

theorem Moving.room
    {address : UInt16} (known : address ∈ addresses) (missing : address ∉ stored new) :
    new.length < geometry.slots := by
  have capacity := view.capacity
  have length := length_eq_stored_add_waste new
  have fewer := view.stored_lt known missing
  omega

theorem Moving.copyData (data : UInt16) (room : new.length < geometry.slots)
    (spare : addresses.card + (waste new + 1) ≤ geometry.slots) :
    Moving geometry addresses contents
      (Function.update flash page.other (withData (flash page.other) (new.length + 1) data)) page old
      (new ++ pending data) := by
  have keeps : stored (new ++ pending data) = stored new := by
    rw [stored_append, stored_pending, List.append_nil]
  have lost := waste_pending data
  refine view.update (view.newPage.withData data room) ?_ ?_ ?_ fun address good => ?_
  · rw [keeps]
    exact view.distinct
  · rw [keeps]
    exact view.newWithin
  · rw [waste_append]
    omega
  · rw [lookup_pending _ _ _ good]
    exact view.shows address good

/-- A whole slot is copied. `contents'` are the contents with it. -/
theorem Moving.copySlot
    (entry : Entry) (complete : entry.Complete) (known : entry.address ∈ addresses)
    (missing : entry.address ∉ stored new) {contents' : Contents}
    (here : contents' entry.address = some entry.data)
    (elsewhere : ∀ address, address ≠ entry.address → contents' address = contents address) :
    Moving geometry addresses contents'
      (Function.update flash page.other
        (withSlot (flash page.other) (new.length + 1) entry.data entry.address)) page old
      (new ++ [entry]) := by
  refine view.update (view.newPage.withSlot entry (view.room known missing)) ?_ ?_ ?_
    fun address good => ?_
  · rw [stored_append, stored_single complete, List.nodup_append]
    refine ⟨view.distinct, List.nodup_singleton _, fun address left other right => ?_⟩
    rw [List.mem_singleton.mp right]
    rintro rfl
    exact missing left
  · intro address member
    rw [stored_append, stored_single complete] at member
    rcases List.mem_append.mp member with before | single
    · exact view.newWithin address before
    · rw [List.mem_singleton.mp single]
      exact known
  · rw [waste_append, waste_single complete]
    exact view.capacity
  · rw [lookup_append_single]
    by_cases same : entry.address = address
    · rw [if_pos same, ← same, here]
      rfl
    · rw [if_neg same, elsewhere address (Ne.symm same)]
      exact view.shows address good

end

variable {entries : List Entry} {spare : Prop} {skipAddress : UInt16}

/-- Whether the new page has an address already. -/
theorem Holds.found_iff {words : Words} {status : UInt16}
    (holds : Holds geometry words status entries) (address : UInt16) (good : address ≠ 0xFFFF) :
    ((List.range' 1 (entries.length + 1 - 1)).any fun done => words (addressAt done) == address) =
      true ↔ address ∈ stored entries := by
  rw [List.any_eq_true, mem_stored]
  constructor
  · rintro ⟨slot, member, same⟩
    rw [List.mem_range'_1] at member
    obtain ⟨index, rfl⟩ : ∃ index, slot = index + 1 := ⟨slot - 1, by omega⟩
    have inside : index < entries.length := by omega
    rw [(holds.entry index inside).2, beq_iff_eq] at same
    exact ⟨entries[index], List.getElem_mem _, fun missing => good (same.symm.trans missing), same⟩
  · rintro ⟨entry, member, -, same⟩
    obtain ⟨index, inside, rfl⟩ := List.getElem_of_mem member
    refine ⟨index + 1, List.mem_range'_1.mpr (by omega), ?_⟩
    rw [(holds.entry index inside).2, beq_iff_eq]
    exact same

theorem Moving.lookup_last {front back : List Entry} {entry : Entry}
    (view : Moving geometry addresses contents flash page (front ++ entry :: back) new)
    (complete : entry.Complete) (covered : ∀ address ∈ stored back, address ∈ stored new)
    (missing : entry.address ∉ stored new) : contents entry.address = some entry.data := by
  have notNew : lookup new entry.address = none := by
    rw [← Option.not_isSome_iff_eq_none, lookup_isSome_iff _ _ complete]
    exact missing
  have notLater : ∀ other ∈ back, other.address ≠ entry.address := by
    intro other member same
    refine missing (covered _ ((mem_stored _ _).mpr ⟨other, member, ?_, same⟩))
    exact fun absent => complete (same.symm.trans absent)
  have last : lookup (front ++ entry :: back) entry.address = some entry.data := by
    rw [show front ++ entry :: back = front ++ [entry] ++ back by simp,
      lookup_append_miss _ _ _ notLater, lookup_append_single, if_pos rfl]
  rw [← view.shows _ complete, notNew, last]
  rfl

/-- What the operations of a transfer leave good: nothing is asked of an image when there is no
spare slot for a second unfinished entry. -/
def GoodIf (geometry : Geometry) (addresses : Finset UInt16) (contents : Contents) (spare : Prop)
    (flash : Flash) : Prop := spare → Recoverable geometry addresses contents flash

/-- The two operations that write one slot of the new page. -/
theorem copy_steps {contents' : Contents} (state : State)
    (view : Moving geometry addresses contents state.flash page old new) (entry : Entry)
    (complete : entry.Complete) (known : entry.address ∈ addresses)
    (missing : entry.address ∉ stored new) (here : contents' entry.address = some entry.data)
    (elsewhere : ∀ address, address ≠ entry.address → contents' address = contents address)
    (spareRoom : spare → addresses.card + (waste new + 1) ≤ geometry.slots) :
    ∃ state', (state.write16 page.other (dataAt (new.length + 1)) entry.data).write16 page.other
        (addressAt (new.length + 1)) entry.address = state' ∧
      Moving geometry addresses contents' state'.flash page old (new ++ [entry]) ∧
      Steps (fun flash => GoodIf geometry addresses contents spare flash ∨
        GoodIf geometry addresses contents' spare flash) state state' ∧
      state'.status = state.status := by
  have room := view.room known missing
  have empty := view.newPage.blank (new.length + 1) (Nat.lt_succ_self _) room
  have length := length_eq_stored_add_waste new
  have fewer := view.stored_lt known missing
  obtain ⟨flash1, flash2⟩ :=
    writeSlot_flash state page.other (new.length + 1) entry.data entry.address empty
  have copied := view.copySlot entry complete known missing here elsewhere
  have start : GoodIf geometry addresses contents spare state.flash := fun extra =>
    .moving page old new view room
  have middle : GoodIf geometry addresses contents spare
      (state.write16 page.other (dataAt (new.length + 1)) entry.data).flash := by
    intro extra
    rw [flash1]
    have spareSlots := spareRoom extra
    refine .moving page old _ (view.copyData entry.data room spareSlots) ?_
    have lost := waste_pending entry.data
    rw [length_eq_stored_add_waste, stored_append, stored_pending, List.append_nil, waste_append]
    omega
  refine ⟨_, rfl, flash2 ▸ copied, ?_, rfl⟩
  refine (Steps.program state _ _ _ (Or.inl start) (Or.inl middle)).trans
    (Steps.program _ _ _ _ (Or.inl middle) (Or.inr ?_))
  intro extra
  rw [flash2]
  have spareSlots := spareRoom extra
  refine .moving page old _ copied ?_
  rw [List.length_append, List.length_singleton]
  omega

/-- The copy loop, by induction on the entries of the old page that are left. `back` are those
that are done: the new page has all their addresses. -/
theorem transferLoop_moving (front back : List Entry) (state : State)
    (view : Moving geometry addresses contents state.flash page (front ++ back) new)
    (covered : ∀ address ∈ stored back, address ∈ stored new)
    (skipKnown : skipAddress = 0xFFFF ∨ skipAddress ∈ stored new)
    (spareRoom : spare → addresses.card + (waste new + 1) ≤ geometry.slots)
    (start : GoodIf geometry addresses contents spare state.flash) :
    ∃ state' new',
      transferLoop geometry page.other page skipAddress front.length (new.length + 1) state =
        (.ok, state') ∧
      Moving geometry addresses contents state'.flash page (front ++ back) new' ∧
      (∀ address ∈ stored (front ++ back), address ∈ stored new') ∧ waste new' = waste new ∧
      Steps (GoodIf geometry addresses contents spare) state state' ∧
      state'.status = state.status := by
  induction front using List.reverseRecOn generalizing back new state with
  | nil => exact ⟨state, new, rfl, view, covered, rfl, Performs.refl start, rfl⟩
  | append_singleton front entry inductionHypothesis =>
    have split : front ++ [entry] ++ back = front ++ (entry :: back) := by simp
    have length : (front ++ [entry]).length = front.length + 1 := by simp
    rw [split] at view ⊢
    obtain ⟨data, address⟩ := view.oldPage.entry front.length (by simp)
    rw [List.getElem_append_right (le_refl _)] at data address
    simp only [Nat.sub_self, List.getElem_cons_zero] at data address
    rw [length, transferLoop]
    simp only [State.read16, address, data]
    by_cases complete : entry.Complete
    · have good := complete.isAddress
      by_cases done : entry.address ∈ stored new
      · -- the new page has the address: this entry is older, or it was copied before the loss
        have coveredNext : ∀ address ∈ stored (entry :: back), address ∈ stored new := by
          rw [stored_cons complete]
          exact List.forall_mem_cons.mpr ⟨done, covered⟩
        have found := (view.newPage.found_iff entry.address complete).mpr done
        obtain ⟨state', new', result, rest⟩ := inductionHypothesis (entry :: back) state view
          coveredNext skipKnown spareRoom start
        refine ⟨state', new', ?_, rest⟩
        rw [if_pos found, ite_self]
        exact result
      · -- the last entry of an address that the new page does not have: it is copied
        have known : entry.address ∈ addresses :=
          view.oldWithin _ ((mem_stored _ _).mpr
            ⟨entry, List.mem_append_right _ List.mem_cons_self, complete, rfl⟩)
        have kept : ¬ (entry.address = skipAddress ∨ entry.address &&& flagsMask ≠ 0) := by
          rintro (skipped | flags)
          · rcases skipKnown with missing | there
            · exact complete (skipped.trans missing)
            · exact done (skipped ▸ there)
          · exact flags good.noFlags
        have notFound : ¬ ((List.range' 1 (new.length + 1 - 1)).any fun slot =>
            state.flash page.other (addressAt slot) == entry.address) = true :=
          fun found => done ((view.newPage.found_iff entry.address complete).mp found)
        have here := view.lookup_last complete covered done
        obtain ⟨copied, result, copiedView, copySteps, status⟩ :=
          copy_steps state view entry complete known done here (fun _ _ => rfl) spareRoom
        have steps : Steps (GoodIf geometry addresses contents spare) state copied :=
          copySteps.mono fun _ either => either.elim id id
        have wasteKept : waste (new ++ [entry]) = waste new := by
          rw [waste_append, waste_single complete]
          rfl
        have storedNext : stored (new ++ [entry]) = stored new ++ [entry.address] := by
          rw [stored_append, stored_single complete]
        have coveredNext : ∀ address ∈ stored (entry :: back), address ∈ stored (new ++ [entry]) := by
          rw [stored_cons complete, storedNext]
          exact List.forall_mem_cons.mpr ⟨List.mem_append_right _ List.mem_cons_self,
            fun other later => List.mem_append_left _ (covered other later)⟩
        obtain ⟨state', new', loop, finalView, all, wasteFinal, stepsRest, statusRest⟩ :=
          inductionHypothesis (entry :: back) copied copiedView coveredNext
            (skipKnown.imp_right fun there => by
              rw [storedNext]
              exact List.mem_append_left _ there)
            (by rwa [wasteKept]) steps.stop
        refine ⟨state', new', ?_, finalView, all, wasteFinal.trans wasteKept,
          steps.trans stepsRest, statusRest.trans status⟩
        have fits : new.length + 1 ≤ geometry.slots := view.room known done
        rw [if_neg kept, if_neg notFound, if_pos fits, good.masked, result]
        rw [List.length_append, List.length_singleton] at loop
        exact loop
    · have flags : entry.address &&& flagsMask ≠ 0 := by
        rw [not_not.mp complete]
        decide
      have coveredNext : ∀ address ∈ stored (entry :: back), address ∈ stored new := by
        rwa [stored_cons_missing complete]
      obtain ⟨state', new', result, rest⟩ := inductionHypothesis (entry :: back) state view
        coveredNext skipKnown spareRoom start
      refine ⟨state', new', ?_, rest⟩
      rw [if_pos (Or.inr flags)]
      exact result

theorem transferLoop_blank {words : Words} {status : UInt16}
    (holds : Holds geometry words status entries) (newPage : Page) (skipAddress : UInt16)
    (newSlot : Nat) (state : State) (here : state.flash page = words) :
    transferLoop geometry newPage page skipAddress geometry.slots newSlot state =
      transferLoop geometry newPage page skipAddress entries.length newSlot state := by
  have skipped : ∀ extra, entries.length + extra ≤ geometry.slots →
      transferLoop geometry newPage page skipAddress (entries.length + extra) newSlot state =
        transferLoop geometry newPage page skipAddress entries.length newSlot state := by
    intro extra
    induction extra with
    | zero => exact fun _ => rfl
    | succ extra inductionHypothesis =>
      intro bound
      obtain ⟨-, empty⟩ := holds.blank (entries.length + extra + 1) (by omega) bound
      have flags : state.read16 page (addressAt (entries.length + extra + 1)) &&& flagsMask ≠ 0 := by
        rw [State.read16, here, empty]
        decide
      rw [← Nat.add_assoc, transferLoop]
      simp only [if_pos (Or.inr flags : _ = skipAddress ∨ _)]
      exact inductionHypothesis (by omega)
  have all := skipped (geometry.slots - entries.length) (by have := holds.fits; omega)
  rwa [Nat.add_sub_cancel' holds.fits] at all

/-! ### Finishing a transfer -/

theorem Moving.shows_new (view : Moving geometry addresses contents flash page old new)
    (all : ∀ address ∈ stored old, address ∈ stored new) (address : UInt16)
    (good : address ≠ 0xFFFF) : lookup new address = contents address := by
  rw [← view.shows address good]
  cases found : lookup new address with
  | some data => rfl
  | none =>
    have missing : address ∉ stored old := by
      intro member
      have there := (lookup_isSome_iff new address good).mpr (all address member)
      rw [found] at there
      cases there
    rw [← lookup_isSome_iff _ _ good, Option.not_isSome_iff_eq_none] at missing
    rw [missing]
    rfl

theorem holds_erased (geometry : Geometry) (counter : UInt16) :
    Holds geometry (Function.update (fun _ => 0xFFFF) 2 counter) erased [] := by
  refine ⟨Function.update_of_ne (by decide) _ _, fun index inside => ?_, fun slot low _ => ?_,
    Nat.zero_le _⟩
  · exact absurd inside (Nat.not_lt_zero _)
  · have low' : 0 < slot := low
    exact ⟨Function.update_of_ne (by rw [dataAt]; omega) _ _,
      Function.update_of_ne (by rw [addressAt]; omega) _ _⟩

theorem holds_blank (geometry : Geometry) : Holds geometry (fun _ => 0xFFFF) erased [] := by
  have update := holds_erased geometry 0xFFFF
  rwa [Function.update_eq_self_iff.mpr rfl] at update

theorem checkErasePage_erases (state : State) (page : Page) (req : UInt16)
    (bad : checkPage geometry (state.flash page) req ≠ .ok) :
    ∃ counter, checkErasePage geometry state page req =
        (.ok, (state.op (.erase page)).write16 page 2 counter) ∧
      ((state.op (.erase page)).write16 page 2 counter).flash =
        Function.update state.flash page (Function.update (fun _ => 0xFFFF) 2 counter) := by
  obtain ⟨counter, chosen⟩ : ∃ counter, erasePage state page =
      (state.op (.erase page)).write16 page 2 counter := ⟨_, rfl⟩
  have flash : ((state.op (.erase page)).write16 page 2 counter).flash =
      Function.update state.flash page (Function.update (fun _ => 0xFFFF) 2 counter) := by
    have blank : (state.op (.erase page)).flash = Function.update state.flash page fun _ => 0xFFFF :=
      rfl
    rw [write16_flash _ _ _ _ counter, blank, Function.update_self, Function.update_idem]
    rw [blank, Function.update_self, erased_and]
  refine ⟨counter, ?_, flash⟩
  have good : checkPage geometry (((state.op (.erase page)).write16 page 2 counter).flash page) req =
      .ok := by
    rw [flash, Function.update_self]
    exact (holds_erased geometry counter).checkPage_ok (Or.inl rfl)
  rw [checkErasePage, if_pos bad, chosen]
  simp only [good]

theorem checkErasePage_blank (state : State) (page : Page)
    (holds : Holds geometry (state.flash page) erased []) :
    checkErasePage geometry state page erased = (.ok, state) := by
  rw [checkErasePage, if_neg (not_not.mpr (holds.checkPage_ok (Or.inl rfl)))]

theorem Holds.checkPage_valid {words : Words} (holds : Holds geometry words validPage entries) :
    checkPage geometry words erased ≠ .ok := by
  have notErased : words 0 ≠ erased ∧ words 0 ≠ erased := by
    rw [holds.status]
    decide
  rw [checkPage, if_pos notErased]
  decide

theorem Moved.markValid (view : Moved geometry contents flash page new) :
    Settled geometry contents
      (Function.update flash page.other (Function.update (flash page.other) 0 validPage)) page.other
      new := by
  refine ⟨?_, ?_, view.shows⟩
  · rw [Function.update_self]
    exact view.newPage.mark validPage
  · rw [Page.other_other, Function.update_of_ne (Page.ne_other page)]
    exact view.oldPage

theorem Moved.write16_flash (state : State) (view : Moved geometry contents state.flash page new) :
    (state.write16 page.other 0 validPage).flash =
      Function.update state.flash page.other
        (Function.update (state.flash page.other) 0 validPage) :=
  Eeprom.write16_flash state _ _ _ _ (by rw [view.newPage.status]; decide)

/-- A transfer, started or restarted, ends with the contents in the new page. -/
theorem pageTransfer_moving (state : State)
    (view : Moving geometry addresses contents state.flash page old new)
    (room : new.length < geometry.slots)
    (skipKnown : skipAddress = 0xFFFF ∨ skipAddress ∈ stored new)
    (spareRoom : spare → addresses.card + (waste new + 1) ≤ geometry.slots) :
    ∃ state' new', pageTransfer geometry state page.other page skipAddress = (.ok, state') ∧
      Settled geometry contents state'.flash page.other new' ∧
      (∀ address ∈ stored new', address ∈ addresses) ∧ waste new' = waste new ∧
      Steps (GoodIf geometry addresses contents spare) state state' ∧
      state'.status = state.status := by
  have start : GoodIf geometry addresses contents spare state.flash := fun _ =>
    .moving page old new view room
  have view' : Moving geometry addresses contents state.flash page (old ++ []) new := by
    rwa [List.append_nil]
  obtain ⟨copied, new', loop, copiedView, all, wasteKept, steps, status⟩ :=
    transferLoop_moving old [] state view' (fun address member => absurd member List.not_mem_nil)
      skipKnown spareRoom start
  rw [List.append_nil] at copiedView all
  obtain ⟨counter, erasing, erasedFlash⟩ := checkErasePage_erases copied page erased
    copiedView.oldPage.checkPage_valid
  have movedBlank : Moved geometry contents (copied.op (.erase page)).flash page new' := by
    have flash : (copied.op (.erase page)).flash =
        Function.update copied.flash page fun _ => 0xFFFF := rfl
    rw [flash]
    refine ⟨?_, ?_, copiedView.shows_new all⟩
    · rw [Function.update_self]
      exact holds_blank geometry
    · rw [Function.update_of_ne (Page.other_ne page)]
      exact copiedView.newPage
  have movedCounter : Moved geometry contents
      ((copied.op (.erase page)).write16 page 2 counter).flash page new' := by
    rw [erasedFlash]
    refine ⟨?_, ?_, copiedView.shows_new all⟩
    · rw [Function.update_self]
      exact holds_erased geometry counter
    · rw [Function.update_of_ne (Page.other_ne page)]
      exact copiedView.newPage
  have marked := movedCounter.markValid
  rw [← movedCounter.write16_flash] at marked
  refine ⟨_, new', ?_, marked, copiedView.newWithin, wasteKept, ?_, status⟩
  · have empty := view.newPage.firstEmpty_eq room
    rw [pageTransfer, empty]
    simp only [transferLoop_blank view.oldPage page.other skipAddress _ state rfl, loop, erasing]
  · have erase : Steps (GoodIf geometry addresses contents spare) copied
        (copied.op (.erase page)) :=
      Performs.call (.erase page) rfl rfl steps.stop trivial fun _ => .moved page new' movedBlank
    refine ((steps.trans erase).trans (Steps.program _ _ _ _ erase.stop fun _ =>
      .moved page new' movedCounter)).trans (Steps.program _ _ _ _ (fun _ =>
      .moved page new' movedCounter) fun _ => .settled page.other new' marked)

end Copy

end Urus.Eeprom
