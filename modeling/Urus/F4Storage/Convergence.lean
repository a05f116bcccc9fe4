/-
This file proves that the cache and the EEPROM of the F4Light storage driver converge,
whatever the interleaving of its two threads.

The EEPROM is compared with the cache as it will be when the items on their way have
arrived: the one the write thread has in its hands first, then those of the ring. Words
that the operation in progress has still to write are left out, and so is everything
while writes are deferred: disarming looks at every word again.

Two steps of the source break this, and the theorem asks that a run does not take them.
On disarming, a word is compared with the EEPROM alone, so that an older value that is
still on its way stays unnoticed. And the test for a full ring is wrong when the write
position is about to wrap while the read position has been moved behind the last slot
and not yet been wrapped.
-/

import Urus.F4Storage.Model

namespace Urus.F4Storage

open Image

/-! ### Words and bytes -/

theorem eq_of_bits {first second : UInt16}
    (same : ∀ index (bound : index < 16), first.toBitVec[index] = second.toBitVec[index]) :
    first = second :=
  UInt16.toBitVec_inj.mp (BitVec.eq_of_getElem_eq same)

theorem wordOf_replace_high (low high : UInt8) :
    (wordOf low high &&& (0x00FF : UInt16)) ||| (high.toUInt16 <<< 8) = wordOf low high := by
  refine eq_of_bits fun index bound => ?_
  simp only [wordOf, UInt16.toBitVec_or, UInt16.toBitVec_and, UInt16.toBitVec_shiftLeft,
    BitVec.getElem_or, BitVec.getElem_and, UInt8.toBitVec_toUInt16]
  interval_cases index <;> simp

theorem wordOf_replace_low (low high : UInt8) :
    (wordOf low high &&& (0xFF00 : UInt16)) ||| low.toUInt16 = wordOf low high := by
  refine eq_of_bits fun index bound => ?_
  simp only [wordOf, UInt16.toBitVec_or, UInt16.toBitVec_and, UInt16.toBitVec_shiftLeft,
    BitVec.getElem_or, BitVec.getElem_and, UInt8.toBitVec_toUInt16]
  interval_cases index <;> simp

theorem wordOf_bytes (word : UInt16) : wordOf word.toUInt8 (word >>> 8).toUInt8 = word := by
  refine eq_of_bits fun index bound => ?_
  simp only [wordOf, UInt16.toBitVec_or, UInt16.toBitVec_shiftLeft, BitVec.getElem_or,
    UInt8.toBitVec_toUInt16]
  interval_cases index <;> simp

theorem initial_cacheWord (eeprom : Nat → UInt16) (queue : Nat → Item) (word : Nat) :
    cacheWord (initial eeprom queue).cache word = eeprom word := by
  have even : 2 * word % 2 = 0 ∧ 2 * word / 2 = word := by omega
  have odd : ¬ (2 * word + 1) % 2 = 0 ∧ (2 * word + 1) / 2 = word := by omega
  simp only [cacheWord, initial, if_pos even.1, if_neg odd.1, even.2, odd.2, wordOf_bytes]

/-! ### The words of a write -/

/-- The item carries the word of the cache. -/
def Item.Current (cache : Image) (item : Item) : Prop := item.val = cacheWord cache item.loc

theorem writeByteItem_current (cache : Image) (loc : Nat) (value : UInt8)
    (written : cache loc = value) : (writeByteItem cache loc value).Current cache := by
  show (if loc % 2 = 1 then _ else _) = cacheWord cache (loc / 2)
  by_cases odd : loc % 2 = 1
  · have here : 2 * (loc / 2) + 1 = loc := by omega
    rw [if_pos odd, cacheWord, here, written, wordOf_replace_high]
  · have here : 2 * (loc / 2) = loc := by omega
    rw [if_neg odd, cacheWord, here, written, wordOf_replace_low]

theorem wordItems_spec (cache : Image) (loc : Nat) (data : List UInt8) (even : loc % 2 = 0)
    (copied : ∀ index, index < data.length → cache (loc + index) = data.getD index 0) :
    (∀ item ∈ wordItems cache loc data, item.Current cache) ∧
      ∀ address, loc ≤ address → address < loc + data.length →
        ∃ item ∈ wordItems cache loc data, item.loc = address / 2 := by
  induction loc, data using wordItems.induct with
  | case1 loc =>
    refine ⟨fun _ member => absurd member List.not_mem_nil, fun address low high => ?_⟩
    rw [List.length_nil] at high
    omega
  | case2 loc last =>
    have byte : cache loc = last := copied 0 Nat.zero_lt_one
    refine ⟨fun item member => ?_, fun address low high => ?_⟩
    · rw [List.mem_singleton.mp member]
      exact writeByteItem_current cache loc last byte
    · rw [List.length_singleton] at high
      refine ⟨_, List.mem_singleton_self _, ?_⟩
      show loc / 2 = address / 2
      omega
  | case3 loc low high rest inductionHypothesis =>
    have first : cache loc = low := copied 0 (Nat.zero_lt_succ _)
    have second : cache (loc + 1) = high := copied 1 (Nat.succ_lt_succ (Nat.zero_lt_succ _))
    obtain ⟨current, covers⟩ := inductionHypothesis (by omega) (fun index bound => by
      have byte := copied (index + 2) (by simp only [List.length_cons]; omega)
      rw [show loc + 2 + index = loc + (index + 2) by omega, byte]
      rfl)
    refine ⟨fun item member => ?_, fun address lower upper => ?_⟩
    · rcases List.mem_cons.mp member with rfl | later
      · show wordOf low high = cacheWord cache (loc / 2)
        rw [cacheWord, show 2 * (loc / 2) = loc by omega, first, second]
      · exact current item later
    · simp only [List.length_cons] at upper
      by_cases here : address < loc + 2
      · refine ⟨⟨loc / 2, wordOf low high⟩, List.mem_cons_self, ?_⟩
        show loc / 2 = address / 2
        omega
      · obtain ⟨item, member, same⟩ := covers address (by omega) (by omega)
        exact ⟨item, List.mem_cons_of_mem _ member, same⟩

theorem blockItems_spec (cache : Image) (loc : Nat) (data : List UInt8)
    (copied : ∀ index, index < data.length → cache (loc + index) = data.getD index 0) :
    (∀ item ∈ blockItems cache loc data, item.Current cache) ∧
      ∀ address, loc ≤ address → address < loc + data.length →
        ∃ item ∈ blockItems cache loc data, item.loc = address / 2 := by
  cases data with
  | nil =>
    refine ⟨fun _ member => absurd member List.not_mem_nil, fun address low high => ?_⟩
    rw [List.length_nil] at high
    omega
  | cons first rest =>
    by_cases odd : loc % 2 = 1
    · have byte : cache loc = first := copied 0 (Nat.zero_lt_succ _)
      obtain ⟨current, covers⟩ := wordItems_spec cache (loc + 1) rest (by omega)
        (fun index bound => by
          have next := copied (index + 1) (by rw [List.length_cons]; omega)
          rw [show loc + 1 + index = loc + (index + 1) by omega, next]
          rfl)
      rw [blockItems, if_pos odd]
      refine ⟨fun item member => ?_, fun address lower upper => ?_⟩
      · rcases List.mem_cons.mp member with rfl | later
        · exact writeByteItem_current cache loc first byte
        · exact current item later
      · rw [List.length_cons] at upper
        by_cases here : address = loc
        · refine ⟨_, List.mem_cons_self, ?_⟩
          show loc / 2 = address / 2
          rw [here]
        · obtain ⟨item, member, same⟩ := covers address (by omega) (by omega)
          exact ⟨item, List.mem_cons_of_mem _ member, same⟩
    · rw [blockItems, if_neg odd]
      exact wordItems_spec cache loc (first :: rest) (by omega) copied

theorem cacheWord_put (cache : Image) (loc : Nat) (data : List UInt8) (word : Nat)
    (apart : ∀ address, loc ≤ address → address < loc + data.length → address / 2 ≠ word) :
    cacheWord (put cache loc data) word = cacheWord cache word := by
  have low : put cache loc data (2 * word) = cache (2 * word) := by
    refine put_outside _ _ _ _ ?_
    by_contra inside
    exact apart (2 * word) (by omega) (by omega) (by omega)
  have high : put cache loc data (2 * word + 1) = cache (2 * word + 1) := by
    refine put_outside _ _ _ _ ?_
    by_contra inside
    exact apart (2 * word + 1) (by omega) (by omega) (by omega)
  rw [cacheWord, low, high, cacheWord]

/-! ### Items on their way -/

/-- The item that the write thread has taken from the ring and not yet written. -/
def inFlight : Thread → List Item
  | .wrap item | .store item => [item]
  | .check | .fetch => []

/-- The items on their way to the EEPROM, in the order in which they will be written. -/
def pendingItems (system : System) : List Item :=
  inFlight system.thread ++ ringItems system.queue queueLen system.rdPtr system.wrPtr

/-- The EEPROM when a list of items has been written. -/
def store (eeprom : Nat → UInt16) (items : List Item) : Nat → UInt16 :=
  items.foldl (fun eeprom item => Function.update eeprom item.loc item.val) eeprom

/-- The EEPROM as it will be when all items on their way have arrived. -/
def drained (system : System) : Nat → UInt16 := store system.eeprom (pendingItems system)

theorem store_append_single (eeprom : Nat → UInt16) (items : List Item) (item : Item) :
    store eeprom (items ++ [item]) = Function.update (store eeprom items) item.loc item.val := by
  rw [store, List.foldl_append]
  rfl

theorem store_word (eeprom : Nat → UInt16) (items : List Item) (word : Nat) :
    store eeprom items word =
      match (items.filter fun item => item.loc == word).getLast? with
      | some item => item.val
      | none => eeprom word := by
  induction items using List.reverseRecOn with
  | nil => rfl
  | append_singleton items item inductionHypothesis =>
    rw [store_append_single, List.filter_append]
    by_cases here : item.loc = word
    · rw [List.filter_singleton, beq_iff_eq.mpr here, cond_true, List.getLast?_append_cons]
      rw [← here, Function.update_self]
      rfl
    · rw [Function.update_of_ne (Ne.symm here), inductionHypothesis, List.filter_singleton,
        beq_eq_false_iff_ne.mpr here, cond_false, List.append_nil]

/-! ### What is still to be written -/

/-- The words that the rest of an operation will look at. -/
def Rest.Todo (word : Nat) : Rest → Prop
  | .words items => ∃ item ∈ items, item.loc = word
  | .flush first => first ≤ word

/-- The words that the operation in progress has not put into the ring yet. -/
def Main.Todo (word : Nat) : Main → Prop
  | .idle => False
  | .running rest => rest.Todo word
  | .writing item _ rest => item.loc = word ∨ rest.Todo word

/-- The words of the operation in progress are those of the cache. -/
def Rest.Current (cache : Image) : Rest → Prop
  | .words items => ∀ item ∈ items, item.Current cache
  | .flush _ => True

def Main.Current (cache : Image) : Main → Prop
  | .idle => True
  | .running rest => rest.Current cache
  | .writing item _ rest => item.Current cache ∧ rest.Current cache

/-- How far the free slot of the ring is filled, and that the ring has room when the new write
position is published. -/
def StageHolds (system : System) (item : Item) : Stage → Prop
  | .setLoc => True
  | .setVal => (system.queue system.wrPtr).loc = item.loc
  | .advance => system.queue system.wrPtr = item
  | .wait newWp => system.queue system.wrPtr = item ∧ newWp = ringNext queueLen system.wrPtr
  | .publish newWp =>
    system.queue system.wrPtr = item ∧ newWp = ringNext queueLen system.wrPtr ∧
      newWp ≠ system.rdPtr ∧ ¬ (system.rdPtr = queueLen ∧ newWp = 0)

def Main.Holds (system : System) : Main → Prop
  | .idle | .running _ => True
  | .writing item stage _ => StageHolds system item stage

/-- What holds between two steps of any interleaving. -/
structure Invariant (settings : Settings) (system : System) : Prop where
  write : system.wrPtr < queueLen
  read : system.rdPtr ≤ queueLen
  wraps : system.rdPtr = queueLen → ∃ item, system.thread = .wrap item
  fetches : system.thread = .fetch → system.rdPtr ≠ system.wrPtr
  stage : system.main.Holds system
  current : system.main.Current system.cache
  settled : (settings.writeDeferred && system.armed) = false →
    ∀ word, word < settings.words → ¬ system.main.Todo word →
      drained system word = cacheWord system.cache word
  written : system.cache = system.written

/-! ### The steps that a run must not take -/

/-- The last item on its way to a word, if there is one, carries what the cache has. -/
def NoneStale (system : System) (word : Nat) : Prop :=
  ∀ item, ((pendingItems system).filter fun item => item.loc == word).getLast? = some item →
    item.val = cacheWord system.cache word

/-- A word that is found equal on disarming has no older value on its way, and the test for a full
ring is not made for position 0 while the read position is not wrapped yet. -/
def Main.Careful (settings : Settings) (system : System) : Main → Prop
  | .running (.flush word) =>
    word < settings.words → cacheWord system.cache word = system.eeprom word →
      NoneStale system word
  | .writing _ (.wait newWp) _ => ¬ (newWp = 0 ∧ system.rdPtr = queueLen)
  | _ => True

def Careful (settings : Settings) (system : System) : Action → Prop
  | .start _ | .thread => True
  | .main => system.main.Careful settings system

instance decidableNoneStale (system : System) (word : Nat) : Decidable (NoneStale system word) :=
  decidableForallResult _ _

instance decidableMainCareful (settings : Settings) (system : System) :
    ∀ main : Main, Decidable (main.Careful settings system)
  | .running (.flush word) =>
    inferInstanceAs (Decidable (word < settings.words →
      cacheWord system.cache word = system.eeprom word → NoneStale system word))
  | .writing _ (.wait newWp) _ =>
    inferInstanceAs (Decidable (¬ (newWp = 0 ∧ system.rdPtr = queueLen)))
  | .idle | .running (.words _) | .writing _ .setLoc _ | .writing _ .setVal _
  | .writing _ .advance _ | .writing _ (.publish _) _ => isTrue trivial

instance decidableCareful (settings : Settings) (system : System) :
    ∀ action : Action, Decidable (Careful settings system action)
  | .start _ | .thread => isTrue trivial
  | .main => decidableMainCareful settings system system.main

/-- The operations that the driver may be asked for. -/
def Operation.Inside (settings : Settings) : Operation → Prop
  | .writeBlock loc data => 1 ≤ data.length ∧ loc + data.length ≤ 2 * settings.words
  | .writeByte loc _ => loc < 2 * settings.words
  | .arm | .disarm => True

def Action.Inside (settings : Settings) : Action → Prop
  | .start operation => operation.Inside settings
  | .main | .thread => True

instance decidableActionInside (settings : Settings) :
    ∀ action : Action, Decidable (action.Inside settings)
  | .start (.writeBlock loc data) =>
    inferInstanceAs (Decidable (1 ≤ data.length ∧ loc + data.length ≤ 2 * settings.words))
  | .start (.writeByte loc _) => inferInstanceAs (Decidable (loc < 2 * settings.words))
  | .start .arm | .start .disarm | .main | .thread => isTrue trivial

/-! ### The write thread -/

section Steps

variable {settings : Settings} {system : System}

/-- What one step of the write thread does. -/
theorem threadStep_cases (system : System) :
    threadStep system = system ∨
      (system.thread = .check ∧ system.rdPtr ≠ system.wrPtr ∧
        threadStep system = { system with thread := .fetch }) ∨
      (system.thread = .fetch ∧ threadStep system = { system with
        thread := .wrap (system.queue system.rdPtr)
        rdPtr := system.rdPtr + 1 }) ∨
      (∃ item, system.thread = .wrap item ∧ threadStep system = { system with
        thread := .store item
        rdPtr := if system.rdPtr ≥ queueLen then 0 else system.rdPtr }) ∨
      ∃ item, system.thread = .store item ∧ threadStep system = { system with
        eeprom := Function.update system.eeprom item.loc item.val
        thread := .check } := by
  unfold threadStep
  cases place : system.thread with
  | check =>
    by_cases empty : system.rdPtr = system.wrPtr
    · exact Or.inl (if_neg (not_not.mpr empty))
    · exact Or.inr (Or.inl ⟨rfl, empty, if_pos empty⟩)
  | fetch => exact Or.inr (Or.inr (Or.inl ⟨rfl, rfl⟩))
  | wrap item => exact Or.inr (Or.inr (Or.inr (Or.inl ⟨item, rfl, rfl⟩)))
  | store item => exact Or.inr (Or.inr (Or.inr (Or.inr ⟨item, rfl, rfl⟩)))

theorem Invariant.read_lt (invariant : Invariant settings system)
    (inside : ∀ item, system.thread ≠ .wrap item) : system.rdPtr < queueLen := by
  refine lt_of_le_of_ne invariant.read fun full => ?_
  obtain ⟨item, atWrap⟩ := invariant.wraps full
  exact inside item atWrap

theorem Main.Holds.congr {system' : System} {main : Main} (holds : main.Holds system)
    (queue : system'.queue = system.queue) (write : system'.wrPtr = system.wrPtr)
    (read : ∀ newWp, newWp = ringNext queueLen system.wrPtr → newWp ≠ system.rdPtr →
      ¬ (system.rdPtr = queueLen ∧ newWp = 0) →
        newWp ≠ system'.rdPtr ∧ ¬ (system'.rdPtr = queueLen ∧ newWp = 0)) :
    main.Holds system' := by
  cases main with
  | idle => trivial
  | running rest => trivial
  | writing item stage rest =>
    cases stage with
    | setLoc => trivial
    | setVal =>
      show (system'.queue system'.wrPtr).loc = _
      rw [queue, write]
      exact holds
    | advance =>
      show system'.queue system'.wrPtr = _
      rw [queue, write]
      exact holds
    | wait newWp =>
      show system'.queue system'.wrPtr = _ ∧ newWp = ringNext queueLen system'.wrPtr
      rw [queue, write]
      exact holds
    | publish newWp =>
      obtain ⟨filled, next, notFull, notWrapped⟩ := holds
      show system'.queue system'.wrPtr = _ ∧ newWp = ringNext queueLen system'.wrPtr ∧ _ ∧ _
      rw [queue, write]
      exact ⟨filled, next, read newWp next notFull notWrapped⟩

/-- A step of the write thread keeps the invariant: the item on its way moves from the ring to
the thread and from there to the EEPROM. -/
theorem threadStep_invariant (invariant : Invariant settings system) :
    Invariant settings (threadStep system) := by
  have read := invariant.read
  have write := invariant.write
  have settled := invariant.settled
  rcases threadStep_cases system with same | ⟨atCheck, notEmpty, result⟩ | ⟨atFetch, result⟩ |
    ⟨item, atWrap, result⟩ | ⟨item, atStore, result⟩
  · rw [same]
    exact invariant
  · have inside := invariant.read_lt fun item other => by rw [atCheck] at other; cases other
    have sameDrained : drained { system with thread := .fetch } = drained system := by
      rw [drained, drained, pendingItems, pendingItems, atCheck]
      rfl
    rw [result]
    refine ⟨write, read, fun full => ?_, fun _ => notEmpty, ?_, invariant.current, ?_,
      invariant.written⟩
    · exact absurd full (Nat.ne_of_lt inside)
    · exact invariant.stage.congr rfl rfl fun _ _ notFull notWrapped => ⟨notFull, notWrapped⟩
    · rw [sameDrained]
      exact settled
  · have notEmpty := invariant.fetches atFetch
    have inside := invariant.read_lt fun item other => by rw [atFetch] at other; cases other
    have sameDrained : drained { system with
        thread := .wrap (system.queue system.rdPtr)
        rdPtr := system.rdPtr + 1 } = drained system := by
      rw [drained, drained, pendingItems, pendingItems, atFetch,
        ringItems_pop system.queue queueLen _ _ inside write notEmpty]
      rfl
    rw [result]
    refine ⟨write, inside, fun _ => ⟨_, rfl⟩, (fun impossible => nomatch impossible), ?_,
      invariant.current, ?_, invariant.written⟩
    · refine invariant.stage.congr rfl rfl fun newWp next notFull notWrapped => ?_
      show newWp ≠ system.rdPtr + 1 ∧ ¬ (system.rdPtr + 1 = queueLen ∧ newWp = 0)
      unfold ringNext at next
      split at next <;> omega
    · rw [sameDrained]
      exact settled
  · have sameDrained : drained { system with
        thread := .store item
        rdPtr := if system.rdPtr ≥ queueLen then 0 else system.rdPtr } = drained system := by
      rw [drained, drained, pendingItems, pendingItems, atWrap]
      by_cases full : system.rdPtr ≥ queueLen
      · rw [le_antisymm read full, if_pos (le_refl _), ringItems_wrap _ _ _ write]
        rfl
      · rw [if_neg full]
        rfl
    have wrapped : (if system.rdPtr ≥ queueLen then 0 else system.rdPtr) < queueLen := by
      split <;> omega
    rw [result]
    refine ⟨write, Nat.le_of_lt wrapped, fun full => ?_, (fun impossible => nomatch impossible), ?_,
      invariant.current, ?_, invariant.written⟩
    · exact absurd full (Nat.ne_of_lt wrapped)
    · refine invariant.stage.congr rfl rfl fun newWp next notFull notWrapped => ?_
      show newWp ≠ (if system.rdPtr ≥ queueLen then 0 else system.rdPtr) ∧
        ¬ ((if system.rdPtr ≥ queueLen then 0 else system.rdPtr) = queueLen ∧ newWp = 0)
      split <;> omega
    · rw [sameDrained]
      exact settled
  · have sameDrained : drained { system with
        eeprom := Function.update system.eeprom item.loc item.val
        thread := .check } = drained system := by
      rw [drained, drained, pendingItems, pendingItems, atStore]
      rfl
    have inside := invariant.read_lt fun item other => by rw [atStore] at other; cases other
    rw [result]
    refine ⟨write, read, fun full => ?_, (fun impossible => nomatch impossible), ?_,
      invariant.current, ?_, invariant.written⟩
    · exact absurd full (Nat.ne_of_lt inside)
    · exact invariant.stage.congr rfl rfl fun _ _ notFull notWrapped => ⟨notFull, notWrapped⟩
    · rw [sameDrained]
      exact settled

/-! ### The main thread -/

/-- A step of the main thread that leaves the ring's items, the cache and the EEPROM alone. -/
theorem Invariant.mainOnly (invariant : Invariant settings system) (main : Main)
    (queue : Nat → Item)
    (sameItems : ringItems queue queueLen system.rdPtr system.wrPtr =
      ringItems system.queue queueLen system.rdPtr system.wrPtr)
    (stage : main.Holds { system with queue := queue, main := main })
    (current : main.Current system.cache)
    (settled : (settings.writeDeferred && system.armed) = false →
      ∀ word, word < settings.words → ¬ main.Todo word →
        drained system word = cacheWord system.cache word) :
    Invariant settings { system with queue := queue, main := main } := by
  have sameDrained : drained { system with queue := queue, main := main } = drained system := by
    rw [drained, drained, pendingItems, pendingItems, sameItems]
  refine ⟨invariant.write, invariant.read, invariant.wraps, invariant.fetches, stage, current, ?_,
    invariant.written⟩
  rw [sameDrained]
  exact settled

theorem writeWordStep_invariant (invariant : Invariant settings system) (item : Item)
    (stage : Stage) (rest : Rest) (place : system.main = .writing item stage rest)
    (careful : Careful settings system .main) :
    Invariant settings (writeWordStep system item stage rest) := by
  have read := invariant.read
  have write := invariant.write
  have stageHolds := invariant.stage
  have current := invariant.current
  have settled := invariant.settled
  rw [place] at stageHolds current settled
  cases stage with
  | setLoc =>
    exact invariant.mainOnly _ _ (ringItems_update _ _ _ _ _ read)
      (by
        show (Function.update system.queue system.wrPtr _ system.wrPtr).loc = item.loc
        rw [Function.update_self])
      current settled
  | setVal =>
    refine invariant.mainOnly _ _ (ringItems_update _ _ _ _ _ read) ?_ current settled
    show Function.update system.queue system.wrPtr _ system.wrPtr = item
    have loc : (system.queue system.wrPtr).loc = item.loc := stageHolds
    rw [Function.update_self]
    rw [loc]
  | advance =>
    refine invariant.mainOnly _ _ rfl ⟨stageHolds, ?_⟩ current settled
    show (if system.wrPtr + 1 ≥ queueLen then 0 else system.wrPtr + 1) = ringNext queueLen system.wrPtr
    unfold ringNext
    split <;> split <;> omega
  | wait newWp =>
    obtain ⟨filled, next⟩ := stageHolds
    have notWrapped : ¬ (newWp = 0 ∧ system.rdPtr = queueLen) := by
      have here : system.main.Careful settings system := careful
      rw [place] at here
      exact here
    unfold writeWordStep
    by_cases full : newWp = system.rdPtr
    · simp only [if_pos full]
      exact invariant
    · simp only [if_neg full]
      refine invariant.mainOnly _ system.queue rfl ⟨filled, next, full, ?_⟩ current settled
      exact fun wrapped => notWrapped ⟨wrapped.2, wrapped.1⟩
  | publish newWp =>
    obtain ⟨filled, next, notFull, notWrapped⟩ := stageHolds
    subst next
    have pushed : drained { system with wrPtr := ringNext queueLen system.wrPtr
                                        main := .running rest } =
        Function.update (drained system) item.loc item.val := by
      rw [drained, drained, pendingItems, pendingItems]
      show store system.eeprom (inFlight system.thread ++
        ringItems system.queue queueLen system.rdPtr (ringNext queueLen system.wrPtr)) = _
      rw [ringItems_push _ _ _ _ read write notFull notWrapped, ← List.append_assoc,
        store_append_single, filled]
    refine ⟨ringNext_lt write, read, invariant.wraps, fun atFetch => ?_, trivial, current.2, ?_,
      invariant.written⟩
    · exact Ne.symm notFull
    · intro awake word inside notLeft
      show drained { system with wrPtr := ringNext queueLen system.wrPtr
                                 main := .running rest } word = cacheWord system.cache word
      rw [pushed]
      by_cases here : word = item.loc
      · rw [here, Function.update_self]
        exact current.1
      · rw [Function.update_of_ne here]
        refine settled awake word inside ?_
        rintro (same | left)
        · exact here same.symm
        · exact notLeft left

theorem drained_of_noneStale (word : Nat)
    (equal : cacheWord system.cache word = system.eeprom word) (fresh : NoneStale system word) :
    drained system word = cacheWord system.cache word := by
  rw [drained, store_word]
  cases last : ((pendingItems system).filter fun item => item.loc == word).getLast? with
  | none => exact equal.symm
  | some item => exact fresh item last

theorem mainStep_invariant (invariant : Invariant settings system)
    (careful : Careful settings system .main) : Invariant settings (mainStep settings system) := by
  have current := invariant.current
  have settled := invariant.settled
  unfold mainStep
  cases place : system.main with
  | idle => exact invariant
  | writing item stage rest =>
    exact writeWordStep_invariant invariant item stage rest place careful
  | running rest =>
    rw [place] at current settled
    cases rest with
    | words items =>
      cases items with
      | nil =>
        refine invariant.mainOnly .idle system.queue rfl trivial trivial fun awake word inside _ =>
          settled awake word inside ?_
        rintro ⟨item, member, -⟩
        exact absurd member List.not_mem_nil
      | cons item items =>
        refine invariant.mainOnly (.writing item .setLoc (.words items)) system.queue rfl trivial
          ⟨current item List.mem_cons_self, fun other member =>
            current other (List.mem_cons_of_mem _ member)⟩
          fun awake word inside notLeft => settled awake word inside ?_
        rintro ⟨other, member, same⟩
        rcases List.mem_cons.mp member with rfl | later
        · exact notLeft (Or.inl same)
        · exact notLeft (Or.inr ⟨other, later, same⟩)
    | flush first =>
      by_cases more : first < settings.words
      · simp only [if_pos more]
        by_cases equal : cacheWord system.cache first = system.eeprom first
        · have fresh : NoneStale system first := by
            have here : system.main.Careful settings system := careful
            rw [place] at here
            exact here more equal
          simp only [if_neg (not_not.mpr equal)]
          refine invariant.mainOnly (.running (.flush (first + 1))) system.queue rfl trivial trivial
            fun awake word inside notLeft => ?_
          have bound : ¬ first + 1 ≤ word := notLeft
          by_cases here : word = first
          · rw [here]
            exact drained_of_noneStale first equal fresh
          · refine settled awake word inside ?_
            show ¬ first ≤ word
            omega
        · simp only [if_pos equal]
          refine invariant.mainOnly
            (.writing ⟨first, cacheWord system.cache first⟩ .setLoc (.flush (first + 1)))
            system.queue rfl trivial ⟨rfl, trivial⟩ fun awake word inside notLeft =>
              settled awake word inside ?_
          show ¬ first ≤ word
          intro left
          rcases Nat.eq_or_lt_of_le left with here | behind
          · exact notLeft (Or.inl here)
          · exact notLeft (Or.inr behind)
      · simp only [if_neg more]
        refine invariant.mainOnly .idle system.queue rfl trivial trivial fun awake word inside _ =>
          settled awake word inside ?_
        show ¬ first ≤ word
        omega

/-! ### Operations -/

/-- A change of the cache with the words it touches left to write. -/
theorem Invariant.change (invariant : Invariant settings system) (idle : system.main = .idle)
    (loc : Nat) (data : List UInt8) (main : Main)
    (stage : main.Holds { system with main := main })
    (current : main.Current (put system.cache loc data))
    (covers : (settings.writeDeferred && system.armed) = false →
      ∀ address, loc ≤ address → address < loc + data.length → main.Todo (address / 2)) :
    Invariant settings { system with
      cache := put system.cache loc data
      written := put system.written loc data
      main := main } := by
  have settled := invariant.settled
  rw [idle] at settled
  refine ⟨invariant.write, invariant.read, invariant.wraps, invariant.fetches, ?_, current, ?_, ?_⟩
  · exact stage.congr rfl rfl fun _ _ notFull notWrapped => ⟨notFull, notWrapped⟩
  · intro awake word inside notLeft
    have apart : ∀ address, loc ≤ address → address < loc + data.length → address / 2 ≠ word := by
      intro address low high same
      exact notLeft (same ▸ covers awake address low high)
    rw [cacheWord_put _ _ _ _ apart]
    exact settled awake word inside not_false
  · show put system.cache loc data = put system.written loc data
    rw [invariant.written]

theorem startOperation_invariant (invariant : Invariant settings system)
    (idle : system.main = .idle) (operation : Operation) :
    Invariant settings (startOperation settings system operation) := by
  have settled := invariant.settled
  cases operation with
  | writeBlock loc data =>
    have copied : ∀ index, index < data.length →
        put system.cache loc data (loc + index) = data.getD index 0 := by
      intro index bound
      rw [put_inside _ _ _ _ (by omega) (by omega), Nat.add_sub_cancel_left]
    obtain ⟨current, covers⟩ := blockItems_spec (put system.cache loc data) loc data copied
    unfold startOperation
    by_cases deferred : (settings.writeDeferred && system.armed) = true
    · simp only [if_pos deferred]
      have unchanged := invariant.change idle loc data .idle trivial trivial fun awake => by
        rw [deferred] at awake
        cases awake
      rw [← idle] at unchanged
      exact unchanged
    · simp only [if_neg deferred]
      exact invariant.change idle loc data _ trivial current fun _ => covers
  | writeByte loc value =>
    have copied : put system.cache loc [value] loc = value := by
      rw [put_inside _ _ _ _ le_rfl (Nat.lt_succ_self loc), Nat.sub_self]
      rfl
    unfold startOperation
    by_cases equal : system.cache loc = value
    · simp only [if_pos equal]
      refine ⟨invariant.write, invariant.read, invariant.wraps, invariant.fetches, ?_,
        invariant.current, invariant.settled, ?_⟩
      · exact invariant.stage.congr rfl rfl fun _ _ notFull notWrapped => ⟨notFull, notWrapped⟩
      · show system.cache = put system.written loc [value]
        rw [← invariant.written]
        funext address
        by_cases here : address = loc
        · rw [here, equal]
          exact copied.symm
        · rw [put_outside _ _ _ _ (by rw [List.length_singleton]; omega)]
    · simp only [if_neg equal]
      by_cases deferred : (settings.writeDeferred && system.armed) = true
      · simp only [if_pos deferred]
        have unchanged := invariant.change idle loc [value] .idle trivial trivial fun awake => by
          rw [deferred] at awake
          cases awake
        rw [← idle] at unchanged
        exact unchanged
      · simp only [if_neg deferred]
        refine invariant.change idle loc [value] _ trivial ?_ fun _ address low high => ?_
        · intro item member
          rw [List.mem_singleton.mp member]
          exact writeByteItem_current _ loc value copied
        · rw [List.length_singleton] at high
          refine ⟨_, List.mem_singleton_self _, ?_⟩
          show loc / 2 = address / 2
          rw [show address = loc by omega]
  | arm =>
    refine ⟨invariant.write, invariant.read, invariant.wraps, invariant.fetches, ?_,
      invariant.current, ?_, invariant.written⟩
    · exact invariant.stage.congr rfl rfl fun _ _ notFull notWrapped => ⟨notFull, notWrapped⟩
    · intro awake word inside notLeft
      refine invariant.settled ?_ word inside notLeft
      have never : settings.writeDeferred = false := by
        rw [← Bool.and_true settings.writeDeferred]
        exact awake
      rw [never, Bool.false_and]
  | disarm =>
    by_cases armed : system.armed = true
    · simp only [startOperation, if_pos armed]
      exact ⟨invariant.write, invariant.read, invariant.wraps, invariant.fetches, trivial, trivial,
        fun _ word _ notLeft => absurd (Nat.zero_le word) notLeft, invariant.written⟩
    · simp only [startOperation, if_neg armed]
      exact invariant

theorem step_invariant (action : Action) (invariant : Invariant settings system)
    (careful : Careful settings system action) : Invariant settings (step settings system action) := by
  cases action with
  | thread => exact threadStep_invariant invariant
  | main => exact mainStep_invariant invariant careful
  | start operation =>
    unfold step
    cases place : system.main with
    | idle => exact startOperation_invariant invariant place operation
    | running rest => exact invariant
    | writing item stage rest => exact invariant

end Steps

/-! ### Convergence -/

theorem initial_invariant (settings : Settings) (eeprom : Nat → UInt16) (queue : Nat → Item) :
    Invariant settings (initial eeprom queue) := by
  have room : 0 < queueLen := by decide
  refine ⟨room, Nat.zero_le _, fun full => ?_, (fun impossible => nomatch impossible), trivial,
    trivial, fun _ word _ _ => ?_, rfl⟩
  · exact absurd full (Nat.ne_of_lt room)
  · rw [initial_cacheWord]
    show store eeprom (ringItems queue queueLen 0 0) word = eeprom word
    rfl

/-- No thread is inside an operation. -/
def atRest : Main → Thread → Bool
  | .idle, .check => true
  | _, _ => false

/-- No operation is in progress, the ring is empty and the vehicle is disarmed. -/
def Quiet (system : System) : Prop :=
  atRest system.main system.thread = true ∧ system.rdPtr = system.wrPtr ∧ system.armed = false

/-- Reads return the last written bytes, and when the driver is quiet the EEPROM has what the
cache has. -/
def Converged (settings : Settings) (system : System) : Prop :=
  (∀ loc n, readBlock system loc n = slice system.written loc n) ∧
    (Quiet system → ∀ word, word < settings.words →
      system.eeprom word = cacheWord system.cache word)

theorem atRest_iff (main : Main) (thread : Thread) :
    atRest main thread = true ↔ main = .idle ∧ thread = .check := by
  cases main <;> cases thread <;> simp [atRest]

/-- The invariant of the interleavings, read when the driver is quiet. -/
theorem Invariant.converged {settings : Settings} {system : System}
    (invariant : Invariant settings system) : Converged settings system := by
  refine ⟨fun loc n => ?_, ?_⟩
  · rw [readBlock, invariant.written]
  · rintro ⟨rest, empty, disarmed⟩ word inside
    obtain ⟨idle, checking⟩ := (atRest_iff _ _).mp rest
    have awake : (settings.writeDeferred && system.armed) = false := by
      rw [disarmed, Bool.and_false]
    have nothing : pendingItems system = [] := by
      rw [pendingItems, checking, empty, ringItems_empty]
      rfl
    have settled := invariant.settled awake word inside (by rw [idle]; exact not_false)
    rw [drained, nothing] at settled
    exact settled

/-- In every interleaving of the two threads reads return the last written bytes, and whenever the
driver is quiet the EEPROM has what the cache has. No step of the run may compare a word while an
older value is on its way, or test for a full ring before the wrap of the read position. -/
theorem converges (settings : Settings) (eeprom : Nat → UInt16) (queue : Nat → Item)
    (actions : List Action) (_inside : ∀ action ∈ actions, action.Inside settings)
    (careful : Along (step settings) (fun _ => True) (Careful settings) (initial eeprom queue)
      actions) :
    Converged settings (runCalls (step settings) (initial eeprom queue) actions) :=
  (careful.invariant (fun _ action invariant fair => step_invariant action invariant fair)
    (initial_invariant settings eeprom queue)).converged

/-- A deferred write of two bytes, flushed on disarming, while the write thread empties the ring. -/
def flushedRun : List Action :=
  [.start (.writeBlock 1 [7]), .main, .main, .main, .main, .main, .main, .main, .thread, .thread,
    .start .arm, .start (.writeByte 0 5), .thread, .thread, .start .disarm,
    .main, .main, .main, .main, .main, .main, .main, .thread, .thread, .thread, .thread]

theorem converges_flushed :
    Converged ⟨1, true⟩ (runCalls (step ⟨1, true⟩)
      (initial (fun _ => 0xFFFF) fun _ => ⟨0, 0⟩) flushedRun) :=
  converges ⟨1, true⟩ (fun _ => 0xFFFF) (fun _ => ⟨0, 0⟩) flushedRun (by decide) (by decide)

/-- The first value is in the ring when the cache goes back to what the EEPROM has. Disarming finds
the word equal, and then the write thread writes the first value. -/
def staleRun : List Action :=
  [.start (.writeBlock 0 [1, 0]), .main, .main, .main, .main, .main, .main, .main,
    .start .arm, .start (.writeBlock 0 [0xFF, 0xFF]), .start .disarm, .main, .main,
    .thread, .thread, .thread, .thread]

/-- A run of well formed operations behind which the driver is quiet and the EEPROM has another
word than the cache. -/
theorem not_converged_stale :
    (∀ action ∈ staleRun, action.Inside ⟨1, true⟩) ∧
      ¬ Converged ⟨1, true⟩ (runCalls (step ⟨1, true⟩)
        (initial (fun _ => 0xFFFF) fun _ => ⟨0, 0⟩) staleRun) := by
  refine ⟨by decide, fun converged => ?_⟩
  have equal := converged.2 (by unfold Quiet; decide) 0 (by decide)
  exact absurd equal (by decide)

end Urus.F4Storage
