/-
This file is about whole runs of the emulation: writes and initialisations, in any
order and number, from two erased pages on.

Without losses the emulation is a map, and at every point of a write at which the power
can be lost the next initialisation finds the map before the write or the one behind it.
Both hold as long as no write is misled by the page header.
-/

import Urus.Eeprom.Write

namespace Urus.Eeprom

/-- A write, or an initialisation of a fresh object on the same flash. -/
inductive Event
  | write (address data : UInt16)
  | init

/-- The object, what it returned last, and beside them the data of the last write to every
address. -/
structure Run where
  state : State
  returned : Code
  stored : Contents

def Run.step (geometry : Geometry) (tries : Nat) (run : Run) : Event → Option Run
  | .write address data =>
    match write geometry tries run.state address data with
    | none => none
    | some (code, state) => some ⟨state, code, run.stored.set address data⟩
  | .init =>
    let (code, state) := Eeprom.init geometry (fresh run.state.flash)
    some ⟨state, code, run.stored⟩

/-- The first initialisation, of two erased pages. -/
def formatted (geometry : Geometry) : Run :=
  let (code, state) := init geometry (fresh fun _ _ => 0xFFFF)
  ⟨state, code, fun _ => none⟩

/-- Writes are to storable addresses of a given set. -/
def Event.Inside (addresses : Finset UInt16) : Event → Prop
  | .write address _ => IsAddress address ∧ address ∈ addresses
  | .init => True

/-- The page with the data. -/
def activePage (flash : Flash) : Page := if flash .page0 0 = validPage then .page0 else .page1

/-- A regular address is stored already, or differs from the erase counter of the active page. -/
def Regular (geometry : Geometry) (flash : Flash) (address : UInt16) : Prop :=
  (readLoop (flash (activePage flash)) address geometry.slots).isSome ∨
    flash (activePage flash) 2 ≠ address

/-- Every write is to a regular address. -/
def Run.Regular (geometry : Geometry) (run : Run) : Event → Prop
  | .write address _ => Eeprom.Regular geometry run.state.flash address
  | .init => True

/-- Every write is to a regular address, or has a bit that the status of a valid page has not. -/
def Run.Unmistaken (geometry : Geometry) (run : Run) : Event → Prop
  | .write address data => Eeprom.Regular geometry run.state.flash address ∨ data &&& 0x5555 ≠ 0
  | .init => True

instance (addresses : Finset UInt16) : DecidablePred (Event.Inside addresses)
  | .write address _ => inferInstanceAs (Decidable (IsAddress address ∧ address ∈ addresses))
  | .init => isTrue trivial

instance (geometry : Geometry) (flash : Flash) (address : UInt16) :
    Decidable (Regular geometry flash address) := inferInstanceAs (Decidable (_ ∨ _))

instance (geometry : Geometry) (run : Run) : DecidablePred (run.Regular geometry)
  | .write address _ => inferInstanceAs (Decidable (Regular geometry run.state.flash address))
  | .init => isTrue trivial

instance (geometry : Geometry) (run : Run) : DecidablePred (run.Unmistaken geometry)
  | .write address data =>
    inferInstanceAs (Decidable (Regular geometry run.state.flash address ∨ data &&& 0x5555 ≠ 0))
  | .init => isTrue trivial

section Steps

variable {geometry : Geometry} {addresses : Finset UInt16} {contents : Contents} {state : State}
  {page : Page} {entries : List Entry}

theorem Settled.activePage_eq (view : Settled geometry contents state.flash page entries) :
    activePage state.flash = page := by
  have active := view.active.status
  have other := view.other.status
  cases page with
  | page0 => rw [activePage, if_pos active]
  | page1 =>
    simp only [Page.other] at other
    rw [activePage, other, if_neg (by decide)]

theorem Settled.unmistaken (view : Settled geometry contents state.flash page entries)
    {address data : UInt16} (good : IsAddress address)
    (regular : Regular geometry state.flash address ∨ data &&& 0x5555 ≠ 0) :
    Unmistaken (contents address) (state.flash page 2) address data := by
  rw [Regular, view.activePage_eq, view.active.readLoop_eq _ good.ne_erased,
    view.shows _ good.ne_erased, or_assoc] at regular
  exact regular

/-- A re-initialisation between two calls leaves everything as it was. -/
theorem Clean.init (clean : Clean geometry addresses contents state page entries) :
    ∃ state', Eeprom.init geometry (fresh state.flash) = (.ok, state') ∧
      Clean geometry addresses contents state' page entries := by
  have recoverable : Recoverable geometry addresses contents (fresh state.flash).flash :=
    .settled page entries clean.view
  have settled : Settled geometry contents (fresh state.flash).flash page entries := clean.view
  refine ⟨{ fresh state.flash with status := .ok }, ?_, clean.view, clean.whole, clean.within, rfl⟩
  rw [init_eq geometry _ (recoverable.known .page0) (recoverable.known .page1),
    initPages_settled _ settled]

theorem formatted_clean (geometry : Geometry) (addresses : Finset UInt16) :
    Clean geometry addresses (fun _ => none) (formatted geometry).state .page0 [] ∧
      (formatted geometry).returned = .ok := by
  obtain ⟨state, result, started, view⟩ := init_erased geometry
  have same : formatted geometry = ⟨state, .ok, fun _ => none⟩ := by
    rw [formatted, result]
  rw [same]
  exact ⟨⟨view, rfl, fun _ member => absurd member List.not_mem_nil, started⟩, rfl⟩

end Steps

/-! ### The emulation is a map -/

section Map

variable {geometry : Geometry} {addresses : Finset UInt16}

/-- The last call returned ok, every read returns the data of the last write to its address, and
one page is valid and the other one erased. -/
def RefinesMap (geometry : Geometry) (tries : Nat) (run : Run) : Prop :=
  run.returned = .ok ∧
    (∀ address, read geometry tries run.state address =
      some ((readResult (run.stored (address &&& addressMask))).1,
        (readResult (run.stored (address &&& addressMask))).2, run.state)) ∧
    ∃ page, run.state.flash page 0 = validPage ∧ run.state.flash page.other 0 = erased

/-- The object is clean and its contents are those of the ghost. -/
def Run.Invariant (geometry : Geometry) (addresses : Finset UInt16) (run : Run) : Prop :=
  run.returned = .ok ∧ ∃ page entries, Clean geometry addresses run.stored run.state page entries

theorem Run.Invariant.refinesMap {run : Run} (invariant : run.Invariant geometry addresses)
    (tries : Nat) : RefinesMap geometry (tries + 1) run := by
  obtain ⟨returned, page, entries, clean⟩ := invariant
  exact ⟨returned, fun address => read_settled clean.view clean.started tries address,
    page, clean.view.active.status, clean.view.other.status⟩

theorem maxcount_le (geometry : Geometry) : (maxcount geometry).toNat ≤ geometry.slots := by
  rw [maxcount, UInt16.toNat_ofNat']
  exact Nat.mod_le _ _

theorem Run.step_invariant (enough : addresses.card < (maxcount geometry).toNat) (tries : Nat)
    (run : Run) (event : Event) (invariant : run.Invariant geometry addresses)
    (good : event.Inside addresses ∧ run.Unmistaken geometry event) :
    ∃ next, run.step geometry (tries + 1) event = some next ∧ next.Invariant geometry addresses := by
  have most := maxcount_le geometry
  obtain ⟨-, page, entries, clean⟩ := invariant
  obtain ⟨inside, unmistaken⟩ := good
  cases event with
  | write address data =>
    obtain ⟨code, state', result, written, ok, -⟩ := write_clean clean address data inside.1
      inside.2 (by omega) (clean.view.unmistaken inside.1 unmistaken) tries
    obtain rfl := ok enough
    refine ⟨⟨state', .ok, run.stored.set address data⟩, ?_, rfl, ?_⟩
    · simp only [Run.step, result]
    · rcases written with ⟨-, after⟩ | ⟨impossible, -⟩
      · exact after
      · cases impossible
  | init =>
    obtain ⟨state', result, clean'⟩ := clean.init
    refine ⟨⟨state', .ok, run.stored⟩, ?_, rfl, page, entries, clean'⟩
    simp only [Run.step, result]

/-- A run in which no write is misled by the page header is a run of a map. -/
theorem refinesMap_of_unmistaken (geometry : Geometry) (addresses : Finset UInt16)
    (enough : addresses.card < (maxcount geometry).toNat) (tries : Nat) (events : List Event)
    (inside : ∀ event ∈ events, event.Inside addresses)
    (unmistaken : Meets (Run.step geometry (tries + 1)) (Run.Unmistaken geometry)
      (formatted geometry) events) :
    ∃ run, runSteps (Run.step geometry (tries + 1)) (formatted geometry) events = some run ∧
      RefinesMap geometry (tries + 1) run := by
  have start : (formatted geometry).Invariant geometry addresses := by
    obtain ⟨clean, returned⟩ := formatted_clean geometry addresses
    exact ⟨returned, .page0, [], clean⟩
  obtain ⟨run, reached, invariant⟩ := runSteps_invariant (Run.Invariant geometry addresses)
    (fun run event kept good => run.step_invariant enough tries event kept good) events
    (formatted geometry) start ((meets_of_forall events _ inside).and unmistaken)
  exact ⟨run, reached, invariant.refinesMap tries⟩

/-- Pages of three slots. -/
def smallPages : Geometry := ⟨16, by decide, by decide⟩

/-- Seven values of one variable, each with a bit that the one before has not. They fill both
pages and come back to the first one. -/
def sevenWrites : List Event :=
  [.write 1 0, .write 1 1, .write 1 2, .write 1 4, .write 1 8, .write 1 16, .write 1 32]

/-- With an initialisation between them, the seven writes and one of a second variable refine the
map. -/
theorem refinesMap_of_unmistaken_seven :
    ∃ run, runSteps (Run.step smallPages 1) (formatted smallPages)
        (sevenWrites ++ [.init, .write 2 7]) = some run ∧ RefinesMap smallPages 1 run :=
  refinesMap_of_unmistaken smallPages {1, 2} (by decide) 0 _ (by decide) (by decide +kernel)

/-- Behind the seven writes the erase counter of the active page is 0. The first write to address
0 is then made to the page's status. -/
theorem not_refinesMap_counter :
    ({0, 1} : Finset UInt16).card ≤ smallPages.pageSize / 4 - 2 ∧
      (∀ event ∈ sevenWrites ++ [.write 0 0], event.Inside {0, 1}) ∧
      ¬ ∃ run, runSteps (Run.step smallPages 1) (formatted smallPages)
        (sevenWrites ++ [.write 0 0]) = some run ∧ RefinesMap smallPages 1 run := by
  refine ⟨by decide, by decide, ?_⟩
  rintro ⟨run, reached, -, reads, page, valid, -⟩
  have statuses : (runSteps (Run.step smallPages 1) (formatted smallPages)
      (sevenWrites ++ [.write 0 0])).map (fun run =>
        (run.returned, run.state.flash .page0 0, run.state.flash .page1 0)) =
      some (.ok, 0, 0xFFFF) := by
    decide +kernel
  rw [reached] at statuses
  obtain ⟨first, second⟩ := Prod.mk.inj (Prod.mk.inj (Option.some.inj statuses)).2
  cases page with
  | page0 =>
    rw [first] at valid
    exact absurd valid (by decide)
  | page1 =>
    rw [second] at valid
    exact absurd valid (by decide)

end Map

/-! ### Power loss -/

section PowerLoss

variable {geometry : Geometry} {addresses : Finset UInt16}

/-- The flash behind the first operations that lead from one state to a later one. -/
def flashAtLoss (before after : State) (count : Nat) : Flash :=
  deviceAtLoss FlashOp.apply State.flash State.ops before after count

/-- The code and the data that `read` returns. -/
def readValue (geometry : Geometry) (tries : Nat) (state : State) (address : UInt16) :
    Option (Code × UInt16) :=
  (read geometry tries state address).map fun result => (result.1, result.2.1)

theorem readValue_settled {contents : Contents} {state : State} {page : Page}
    {entries : List Entry} (view : Settled geometry contents state.flash page entries)
    (started : state.status = .ok) (tries : Nat) (address : UInt16) :
    readValue geometry (tries + 1) state address =
      some (readResult (contents (address &&& addressMask))) := by
  rw [readValue, read_settled view started]
  rfl

/-- The object is clean, whatever its contents. -/
def Run.IsClean (geometry : Geometry) (addresses : Finset UInt16) (run : Run) : Prop :=
  ∃ contents page entries, Clean geometry addresses contents run.state page entries

theorem Run.step_isClean (capacity : addresses.card + 1 ≤ geometry.slots) (tries : Nat) (run : Run)
    (event : Event) (clean : run.IsClean geometry addresses)
    (good : event.Inside addresses ∧ run.Regular geometry event) :
    ∃ next, run.step geometry (tries + 1) event = some next ∧ next.IsClean geometry addresses := by
  obtain ⟨contents, page, entries, clean⟩ := clean
  obtain ⟨inside, regular⟩ := good
  cases event with
  | write address data =>
    obtain ⟨code, state', result, written, -, -⟩ := write_clean clean address data inside.1
      inside.2 capacity (clean.view.unmistaken inside.1 (Or.inl regular)) tries
    refine ⟨⟨state', code, run.stored.set address data⟩, ?_, ?_⟩
    · simp only [Run.step, result]
    · rcases written with ⟨-, page', entries', clean'⟩ | ⟨-, rfl⟩
      · exact ⟨_, page', entries', clean'⟩
      · exact ⟨contents, page, entries, clean⟩
  | init =>
    obtain ⟨state', result, clean'⟩ := clean.init
    refine ⟨⟨state', .ok, run.stored⟩, ?_, contents, page, entries, clean'⟩
    simp only [Run.step, result]

/-- What an initialisation finds at any point of a write: every other variable as it was, and the
old or the new data of the variable that was written. -/
theorem loss_recovered {contents : Contents} {state after : State} {page : Page}
    {entries : List Entry} (clean : Clean geometry addresses contents state page entries)
    {address data : UInt16} (good : IsAddress address)
    (steps : Steps (OldOrNew geometry addresses contents address data) state after)
    (count tries : Nat) :
    ∃ booted, init geometry (fresh (flashAtLoss state after count)) = (.ok, booted) ∧
      (∀ other, other &&& addressMask ≠ address →
        readValue geometry (tries + 1) booted other = readValue geometry (tries + 1) state other) ∧
      (readValue geometry (tries + 1) booted address =
          readValue geometry (tries + 1) state address ∨
        readValue geometry (tries + 1) booted address = some (.ok, data)) := by
  have old := readValue_settled clean.view clean.started tries
  rcases steps.atLoss count with before | behind
  · obtain ⟨booted, page', entries', result, started, view⟩ := init_recoverable before
    have new := readValue_settled view started tries
    refine ⟨booted, result, fun other _ => ?_, Or.inl ?_⟩
    · rw [new, old]
    · rw [new, old]
  · obtain ⟨booted, page', entries', result, started, view⟩ := init_recoverable behind
    have new := readValue_settled view started tries
    refine ⟨booted, result, fun other different => ?_, Or.inr ?_⟩
    · rw [new, old, contents.set_of_ne data different]
    · rw [new, good.masked, contents.set_self]
      rfl

/-- A regular write is atomic: wherever in it the power is lost, the next initialisation returns
ok, every other variable reads as before, and the one that was written reads as before or as
written. -/
theorem regular_write_atomic (geometry : Geometry) (addresses : Finset UInt16)
    (capacity : addresses.card ≤ geometry.pageSize / 4 - 2) (tries : Nat) (events : List Event)
    (address data : UInt16)
    (inside : ∀ event ∈ events ++ [.write address data], event.Inside addresses)
    (regular : Meets (Run.step geometry (tries + 1)) (Run.Regular geometry) (formatted geometry)
      (events ++ [.write address data])) (count : Nat) :
    ∃ run code after booted,
      runSteps (Run.step geometry (tries + 1)) (formatted geometry) events = some run ∧
      write geometry (tries + 1) run.state address data = some (code, after) ∧
      init geometry (fresh (flashAtLoss run.state after count)) = (.ok, booted) ∧
      (∀ other, other &&& addressMask ≠ address →
        readValue geometry (tries + 1) booted other =
          readValue geometry (tries + 1) run.state other) ∧
      (readValue geometry (tries + 1) booted address =
          readValue geometry (tries + 1) run.state address ∨
        readValue geometry (tries + 1) booted address = some (.ok, data)) := by
  have room : addresses.card + 1 ≤ geometry.slots := by
    have large := geometry.large
    unfold Geometry.slots
    omega
  have start : (formatted geometry).IsClean geometry addresses :=
    ⟨_, _, _, (formatted_clean geometry addresses).1⟩
  obtain ⟨run, reached, contents, page, entries, clean⟩ :=
    runSteps_invariant (Run.IsClean geometry addresses)
      (fun run event kept good => run.step_isClean room tries event kept good) events
      (formatted geometry) start
      ((meets_of_forall events _ fun event member =>
        inside event (List.mem_append_left _ member)).and regular.append_left)
  have good : IsAddress address ∧ address ∈ addresses :=
    inside (.write address data) (List.mem_append_right _ List.mem_cons_self)
  have last : Regular geometry run.state.flash address := (regular.append_right reached).1
  obtain ⟨code, after, result, -, -, steps⟩ := write_clean clean address data good.1 good.2 room
    (clean.view.unmistaken good.1 (Or.inl last)) tries
  obtain ⟨booted, initialised, others, written⟩ := loss_recovered clean good.1 steps count tries
  exact ⟨run, code, after, booted, reached, result, initialised, others, written⟩

/-- A loss in the middle of the copying that the fourth write starts. -/
theorem regular_write_atomic_transfer :
    ∃ run code after booted,
      runSteps (Run.step smallPages 1) (formatted smallPages)
        [.write 1 1, .write 2 5, .write 1 2] = some run ∧
      write smallPages 1 run.state 1 4 = some (code, after) ∧
      init smallPages (fresh (flashAtLoss run.state after 4)) = (.ok, booted) ∧
      (∀ other, other &&& addressMask ≠ 1 →
        readValue smallPages 1 booted other = readValue smallPages 1 run.state other) ∧
      (readValue smallPages 1 booted 1 = readValue smallPages 1 run.state 1 ∨
        readValue smallPages 1 booted 1 = some (.ok, 4)) :=
  regular_write_atomic smallPages {1, 2} (by decide) 0 _ 1 4 (by decide) (by decide +kernel) 4

end PowerLoss

end Urus.Eeprom
