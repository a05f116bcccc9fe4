/-
This file says what the blocks are for, without the pointers. A ledger knows where every block is:
it is free, it is the current one, or it is in one of the queues. What is written goes to the current
block, which is queued when it is full, and a block becomes free when its number was acknowledged.

Every step keeps that each block is at exactly one place, and that the full blocks have the bytes of
the stream that belong to their number. A number leaves the queues only when it was acknowledged.
-/

import Urus.DataFlash.Model

namespace Urus.DataFlashMavlink

/-! ### Ledgers -/

/-- Where a block is. -/
inductive Place
  | free
  | current
  | queue (name : QueueName)
  deriving DecidableEq

/-- The blocks at every place, and what is known about them: the number of a block, its bytes, how
many bytes the current block has, and the number that the next block will have. The stream is all
that was written, and the messages that were sent are kept. -/
structure Ledger where
  blockcount : Nat
  place : Place → List Nat
  length : Nat
  nextNumber : UInt32
  number : Nat → UInt32
  buf : Nat → Image
  stream : List UInt8
  messages : List (UInt32 × List UInt8)

namespace Ledger

def set (ledger : Ledger) (place : Place) (blocks : List Nat) : Ledger :=
  { ledger with place := Function.update ledger.place place blocks }

@[simp] theorem set_place_self (ledger : Ledger) (place : Place) (blocks : List Nat) :
    (ledger.set place blocks).place place = blocks :=
  Function.update_self _ _ _

theorem set_place_of_ne (ledger : Ledger) {place other : Place} (apart : other ≠ place)
    (blocks : List Nat) : (ledger.set place blocks).place other = ledger.place other :=
  Function.update_of_ne apart _ _

@[simp] theorem set_self (ledger : Ledger) (place : Place) :
    ledger.set place (ledger.place place) = ledger := by
  rw [set, Function.update_eq_self]

theorem set_queue_free (ledger : Ledger) (name : QueueName) (blocks : List Nat) :
    (ledger.set (.queue name) blocks).place .free = ledger.place .free :=
  rfl

theorem set_free_queue (ledger : Ledger) (name : QueueName) (blocks : List Nat) :
    (ledger.set .free blocks).place (.queue name) = ledger.place (.queue name) :=
  rfl

/-- A block moves from one place to the front of another, or behind it. -/
structure Moves (ledger next : Ledger) (source target : Place) (block : Nat) : Prop where
  apart : source ≠ target
  split : ∃ early late, ledger.place source = early ++ block :: late ∧
    next.place source = early ++ late
  added : next.place target = block :: ledger.place target ∨
    next.place target = ledger.place target ++ [block]
  others : ∀ place, place ≠ source → place ≠ target → next.place place = ledger.place place

/-- A free block becomes the current one and is numbered. -/
def take (ledger : Ledger) (block : Nat) (rest : List Nat) : Ledger :=
  { (ledger.set .free rest).set .current [block] with
    length := 0
    nextNumber := ledger.nextNumber + 1
    number := Function.update ledger.number block ledger.nextNumber }

/-- Bytes are written to the current block. -/
def copy (ledger : Ledger) (block : Nat) (data : List UInt8) : Ledger :=
  { ledger with
    length := ledger.length + data.length
    buf := Function.update ledger.buf block ((ledger.buf block).put ledger.length data)
    stream := ledger.stream ++ data }

/-- The current block is queued. -/
def enqueue (ledger : Ledger) (block : Nat) : Ledger :=
  (ledger.set .current []).set (.queue .pending) (ledger.place (.queue .pending) ++ [block])

/-- A block is sent. -/
def transmit (ledger : Ledger) (block : Nat) : Ledger :=
  { ledger with messages :=
      ledger.messages ++ [(ledger.number block, (ledger.buf block).slice 0 fieldDataLen)] }

/-- What happens to a ledger, when some numbers are acknowledged. -/
inductive Step (acked : UInt32 → Prop) : Ledger → Ledger → Prop
  | take {ledger : Ledger} {block : Nat} {rest : List Nat}
      (stack : ledger.place .free = block :: rest) (idle : ledger.place .current = []) :
      Step acked ledger (ledger.take block rest)
  | copy {ledger : Ledger} {block : Nat} {data : List UInt8}
      (current : ledger.place .current = [block])
      (room : ledger.length + data.length < fieldDataLen) :
      Step acked ledger (ledger.copy block data)
  | fill {ledger : Ledger} {block : Nat} {data : List UInt8}
      (current : ledger.place .current = [block])
      (full : ledger.length + data.length = fieldDataLen) :
      Step acked ledger ((ledger.copy block data).enqueue block)
  | transmit {ledger : Ledger} {name : QueueName} {block : Nat}
      (queued : block ∈ ledger.place (.queue name)) :
      Step acked ledger (ledger.transmit block)
  | requeue {ledger : Ledger} {source target : QueueName} {early late : List Nat} {block : Nat}
      (apart : source ≠ target) (split : ledger.place (.queue source) = early ++ block :: late) :
      Step acked ledger ((ledger.set (.queue source) (early ++ late)).set (.queue target)
        (ledger.place (.queue target) ++ [block]))
  | release {ledger : Ledger} {source : QueueName} {early late : List Nat} {block : Nat}
      (split : ledger.place (.queue source) = early ++ block :: late)
      (isAcked : acked (ledger.number block)) :
      Step acked ledger ((ledger.set (.queue source) (early ++ late)).set .free
        (block :: ledger.place .free))

/-- The bytes for which there is room. -/
def capacity (ledger : Ledger) : Nat :=
  fieldDataLen * (ledger.place .free).length +
    if ledger.place .current = [] then 0 else fieldDataLen - ledger.length

variable {block : Nat} {early late : List Nat} {source target : Place}

theorem take_capacity {ledger : Ledger} {rest : List Nat}
    (stack : ledger.place .free = block :: rest) (idle : ledger.place .current = []) :
    (ledger.take block rest).capacity = ledger.capacity := by
  have shorter : (ledger.take block rest).place .free = rest := rfl
  have busy : (ledger.take block rest).place .current ≠ [] := List.cons_ne_nil block []
  rw [capacity, capacity, shorter, if_neg busy, if_pos idle, stack, List.length_cons, Nat.mul_succ]
  rfl

theorem enqueue_capacity (ledger : Ledger) (block : Nat) :
    (ledger.enqueue block).capacity = fieldDataLen * (ledger.place .free).length :=
  rfl

/-- Any number of steps. -/
def Steps (acked : UInt32 → Prop) : Ledger → Ledger → Prop := Relation.ReflTransGen (Step acked)

variable {acked : UInt32 → Prop} {ledger next : Ledger}

/-! ### Every block is at one place -/

/-- No block is at two places, and none is at one place twice. -/
structure Separate (ledger : Ledger) : Prop where
  distinct : ∀ place, (ledger.place place).Nodup
  apart : ∀ block first second, block ∈ ledger.place first → block ∈ ledger.place second →
    first = second

/-- Every block is at exactly one place, and there only once. -/
structure Once (ledger : Ledger) : Prop extends ledger.Separate where
  all : ∀ block, (∃ place, block ∈ ledger.place place) ↔ block < ledger.blockcount

theorem Once.length_le (once : ledger.Once) (place : Place) :
    (ledger.place place).length ≤ ledger.blockcount := by
  have inside : ledger.place place ⊆ List.range ledger.blockcount := fun block member =>
    List.mem_range.mpr ((once.all block).mp ⟨place, member⟩)
  have shorter := ((once.distinct place).subperm inside).length_le
  rwa [List.length_range] at shorter

theorem Separate.remove {place : Place} (separate : ledger.Separate)
    (split : ledger.place place = early ++ block :: late) :
    (ledger.set place (early ++ late)).Separate ∧
      ∀ other, block ∉ (ledger.set place (early ++ late)).place other := by
  have distinct := separate.distinct place
  rw [split, List.nodup_middle, List.nodup_cons] at distinct
  have home : block ∈ ledger.place place := by rw [split]; simp
  have fewer : ∀ other node, node ∈ (ledger.set place (early ++ late)).place other →
      node ∈ ledger.place other := by
    intro other node member
    by_cases same : other = place
    · subst same
      rw [set_place_self] at member
      rw [split]
      exact List.perm_middle.mem_iff.mpr (List.mem_cons_of_mem _ member)
    · rwa [set_place_of_ne _ same] at member
  refine ⟨⟨fun other => ?_, fun node first second inFirst inSecond => ?_⟩, fun other member => ?_⟩
  · by_cases same : other = place
    · subst same
      rw [set_place_self]
      exact distinct.2
    · rw [set_place_of_ne _ same]
      exact separate.distinct other
  · exact separate.apart node first second (fewer first node inFirst) (fewer second node inSecond)
  · by_cases same : other = place
    · subst same
      rw [set_place_self] at member
      exact distinct.1 member
    · exact same (separate.apart block other place (fewer other block member) home)

/-- Where the blocks are after a move. -/
theorem Moves.mem_iff (once : ledger.Once) (moves : ledger.Moves next source target block)
    (place : Place) (other : Nat) :
    other ∈ next.place place ↔
      if other = block then place = target else other ∈ ledger.place place := by
  obtain ⟨early, late, before, after⟩ := moves.split
  have distinct := once.distinct source
  rw [before, List.nodup_middle, List.nodup_cons] at distinct
  have home : block ∈ ledger.place source := by rw [before]; simp
  by_cases isSource : place = source
  · subst isSource
    rw [after]
    split
    · rename_i same
      rw [same]
      exact iff_of_false distinct.1 moves.apart
    · rename_i different
      rw [before]
      simp [different]
  · by_cases isTarget : place = target
    · subst isTarget
      have added : other ∈ next.place place ↔ other = block ∨ other ∈ ledger.place place := by
        rcases moves.added with front | behind
        · rw [front, List.mem_cons]
        · rw [behind, List.mem_append, List.mem_singleton, or_comm]
      rw [added]
      split
      · rename_i same
        exact iff_of_true (Or.inl same) rfl
      · rename_i different
        exact or_iff_right different
    · rw [moves.others place isSource isTarget]
      split
      · rename_i same
        rw [same]
        exact iff_of_false (fun member => isSource (once.apart block place source member home))
          isTarget
      · rfl

theorem Moves.nodup (once : ledger.Once) (moves : ledger.Moves next source target block)
    (place : Place) :
    (next.place place).Nodup := by
  obtain ⟨early, late, before, after⟩ := moves.split
  have home : block ∈ ledger.place source := by rw [before]; simp
  by_cases isSource : place = source
  · rw [isSource, after]
    have distinct := once.distinct source
    rw [before, List.nodup_middle, List.nodup_cons] at distinct
    exact distinct.2
  · by_cases isTarget : place = target
    · have fresh : block ∉ ledger.place target := fun member =>
        moves.apart (once.apart block source target home member)
      rw [isTarget]
      rcases moves.added with front | behind
      · rw [front]
        exact List.nodup_cons.mpr ⟨fresh, once.distinct target⟩
      · rw [behind, ← List.concat_eq_append]
        exact (once.distinct target).concat fresh
    · rw [moves.others place isSource isTarget]
      exact once.distinct place

theorem Once.move (once : ledger.Once) (moves : ledger.Moves next source target block)
    (same : next.blockcount = ledger.blockcount) :
    next.Once := by
  have home : block ∈ ledger.place source := by
    obtain ⟨early, late, before, -⟩ := moves.split
    rw [before]
    simp
  refine ⟨⟨moves.nodup once, fun other first second inFirst inSecond => ?_⟩, fun other => ?_⟩
  · rw [moves.mem_iff once] at inFirst inSecond
    split at inFirst
    · rename_i isBlock
      rw [if_pos isBlock] at inSecond
      exact inFirst.trans inSecond.symm
    · rename_i different
      rw [if_neg different] at inSecond
      exact once.apart other first second inFirst inSecond
  · rw [same, ← once.all other]
    by_cases isBlock : other = block
    · subst isBlock
      refine iff_of_true ⟨target, ?_⟩ ⟨source, home⟩
      rw [moves.mem_iff once, if_pos rfl]
    · simp only [moves.mem_iff once, if_neg isBlock]

/-! ### The moves of the steps -/

theorem take_moves {rest : List Nat} (stack : ledger.place .free = block :: rest)
    (idle : ledger.place .current = []) :
    ledger.Moves (ledger.take block rest) .free .current block where
  apart := nofun
  split := ⟨[], rest, stack, rfl⟩
  added := Or.inl (by rw [idle]; rfl)
  others place notFree notCurrent := by
    rw [take]
    exact (set_place_of_ne _ notCurrent _).trans (set_place_of_ne _ notFree _)

theorem enqueue_moves {data : List UInt8} (current : ledger.place .current = [block]) :
    ledger.Moves ((ledger.copy block data).enqueue block) .current (.queue .pending) block where
  apart := nofun
  split := ⟨[], [], current, rfl⟩
  added := Or.inr (set_place_self _ _ _)
  others _ notCurrent notPending :=
    (set_place_of_ne _ notPending _).trans (set_place_of_ne _ notCurrent _)

theorem requeue_moves {source target : QueueName} (apart : source ≠ target)
    (split : ledger.place (.queue source) = early ++ block :: late) :
    ledger.Moves ((ledger.set (.queue source) (early ++ late)).set (.queue target)
      (ledger.place (.queue target) ++ [block])) (.queue source) (.queue target) block where
  apart := fun same => apart (Place.queue.inj same)
  split := by
    have other : Place.queue source ≠ Place.queue target :=
      fun same => apart (Place.queue.inj same)
    exact ⟨early, late, split, (set_place_of_ne _ other _).trans (set_place_self _ _ _)⟩
  added := Or.inr (set_place_self _ _ _)
  others place notSource notTarget :=
    (set_place_of_ne _ notTarget _).trans (set_place_of_ne _ notSource _)

theorem release_moves {source : QueueName}
    (split : ledger.place (.queue source) = early ++ block :: late) :
    ledger.Moves ((ledger.set (.queue source) (early ++ late)).set .free
      (block :: ledger.place .free)) (.queue source) .free block where
  apart := nofun
  split := by
    have other : Place.queue source ≠ Place.free := nofun
    exact ⟨early, late, split, (set_place_of_ne _ other _).trans (set_place_self _ _ _)⟩
  added := Or.inl (set_place_self _ _ _)
  others _ notSource notFree :=
    (set_place_of_ne _ notFree _).trans (set_place_of_ne _ notSource _)

/-! ### Sound ledgers -/

/-- Every block is at one place, there is at most one current block and it has room. Without a
current block the last one was filled, or nothing was queued yet. -/
structure Sound (ledger : Ledger) : Prop where
  once : ledger.Once
  single : (ledger.place .current).length ≤ 1
  room : ledger.place .current ≠ [] → ledger.length < fieldDataLen
  idle : ledger.place .current = [] → ledger.length = fieldDataLen ∨
    ledger.length = 0 ∧ ∀ name, ledger.place (.queue name) = []

theorem Sound.length_le (sound : ledger.Sound) : ledger.length ≤ fieldDataLen := by
  by_cases idle : ledger.place .current = []
  · rcases sound.idle idle with full | ⟨blank, -⟩
    · exact le_of_eq full
    · rw [blank]
      exact Nat.zero_le _
  · exact le_of_lt (sound.room idle)

theorem Once.all_free (once : ledger.Once) (idle : ledger.place .current = [])
    (nothing : ∀ name, ledger.place (.queue name) = []) :
    (ledger.place .free).length = ledger.blockcount := by
  have same : (ledger.place .free).Perm (List.range ledger.blockcount) := by
    rw [List.perm_ext_iff_of_nodup (once.distinct .free) List.nodup_range]
    intro block
    rw [List.mem_range, ← once.all block]
    constructor
    · exact fun member => ⟨.free, member⟩
    · rintro ⟨_ | _ | name, member⟩
      · exact member
      · rw [idle] at member
        exact absurd member List.not_mem_nil
      · rw [nothing name] at member
        exact absurd member List.not_mem_nil
  rw [same.length_eq, List.length_range]

theorem Step.blockcount_eq (step : Step acked ledger next) :
    next.blockcount = ledger.blockcount := by
  cases step <;> rfl

theorem Step.sound (step : Step acked ledger next) (sound : ledger.Sound) : next.Sound := by
  have same := step.blockcount_eq
  cases step with
  | @take block rest stack idle =>
    refine ⟨sound.once.move (take_moves stack idle) same, le_refl 1,
      fun _ => (by decide : 0 < fieldDataLen), ?_⟩
    exact fun empty => absurd empty (List.cons_ne_nil block [])
  | copy current room =>
    refine ⟨⟨⟨sound.once.distinct, sound.once.apart⟩, sound.once.all⟩, sound.single, fun _ => room,
      fun empty => ?_⟩
    exact absurd (current.symm.trans empty) (List.cons_ne_nil _ [])
  | fill current full =>
    exact ⟨sound.once.move (enqueue_moves current) same, Nat.zero_le 1,
      fun busy => absurd rfl busy, fun _ => Or.inl full⟩
  | transmit queued =>
    exact ⟨⟨⟨sound.once.distinct, sound.once.apart⟩, sound.once.all⟩, sound.single, sound.room,
      sound.idle⟩
  | @requeue source target early late block apart split =>
    refine ⟨sound.once.move (requeue_moves apart split) same, sound.single, sound.room,
      fun empty => ?_⟩
    rcases sound.idle empty with full | ⟨-, nothing⟩
    · exact Or.inl full
    · exact absurd (split.symm.trans (nothing source)) (by simp)
  | @release source early late block split isAcked =>
    refine ⟨sound.once.move (release_moves split) same, sound.single, sound.room,
      fun empty => ?_⟩
    rcases sound.idle empty with full | ⟨-, nothing⟩
    · exact Or.inl full
    · exact absurd (split.symm.trans (nothing source)) (by simp)

theorem Steps.blockcount_eq (steps : Steps acked ledger next) :
    next.blockcount = ledger.blockcount := by
  induction steps with
  | refl => rfl
  | tail _ step inductionHypothesis => exact step.blockcount_eq.trans inductionHypothesis

theorem Steps.sound (steps : Steps acked ledger next) (sound : ledger.Sound) : next.Sound := by
  induction steps with
  | refl => exact sound
  | tail _ step inductionHypothesis => exact step.sound inductionHypothesis

end Ledger

end Urus.DataFlashMavlink
