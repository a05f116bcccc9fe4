/-
This file proves what is injected of a series of blocks whose fragments are received in any
order, with losses and repetitions, among other messages. Two different blocks with the same
sequence number are taken to be separated by a fragment with another one.

What is injected is what a gatherer completes. So every injected block is an original one,
and a block whose fragments arrive once and undisturbed is injected once, if and only if the
two things hold in which the handling of four fragments does no harm: the short fragment of
such a block comes last, and any other four fragments that end with a full one happen to be
an original block.
-/

import Urus.Gps.Reassembly

namespace Urus.Gps

open Gather

section Series

variable {Index : Type}

/-! ### Messages -/

/-- A received message: a fragment of a block of the series, or anything else. -/
inductive Message (Index : Type)
  | other (packet : Packet)
  | fragment (packet : Packet) (name : Index) (piece : Nat)

/-- The packet of the message. -/
def Message.packet : Message Index → Packet
  | .other packet => packet
  | .fragment packet _ _ => packet

/-- The piece that the message brings. -/
def Message.arrival : Message Index → Option (Index × Nat)
  | .other _ => none
  | .fragment _ name piece => some (name, piece)

/-- The message is what its sender made: a piece of the block, or no fragment that is valid. -/
def Message.Sent (series : Index → Block) : Message Index → Prop
  | .other packet => packet.len.toNat > fieldDataLen ∨ packet.isFragmented = false
  | .fragment packet name piece => Carries (series name) piece packet

/-- The pieces that some messages bring. -/
def arrivals (messages : List (Message Index)) : List (Index × Nat) :=
  messages.filterMap Message.arrival

/-- The buffer behind some messages. -/
def bufferAfter (buffer : Option RtcmBuffer) (messages : List (Message Index)) :
    Option RtcmBuffer :=
  messages.foldl (fun buffer message => (handleGpsRtcmData buffer message.packet).1) buffer

/-- What a message makes the library inject as a fragmented block, with the piece that the message
brought. -/
def injected (buffer : Option RtcmBuffer) (message : Message Index) :
    List ((Index × Nat) × List UInt8) :=
  match message.arrival, (handleGpsRtcmData buffer message.packet).2 with
  | some arrival, some data => [(arrival, data)]
  | _, _ => []

/-- All fragmented blocks that are injected. -/
def injections (buffer : Option RtcmBuffer) :
    List (Message Index) → List ((Index × Nat) × List UInt8)
  | [] => []
  | message :: rest =>
    injected buffer message ++
      injections (handleGpsRtcmData buffer message.packet).1 rest

/-- Two different blocks with one sequence number are separated by a fragment with another. -/
def Separated (series : Index → Block) (arrivals : List (Index × Nat)) : Prop :=
  ∀ before first between second after,
    arrivals = before ++ first :: (between ++ second :: after) → first.1 ≠ second.1 →
    (series first.1).sequence = (series second.1).sequence →
    ∃ other ∈ between, (series other.1).sequence ≠ (series first.1).sequence

/-- The messages are pieces of a series of blocks, as the sender cuts and numbers them. -/
structure Received (series : Index → Block) (messages : List (Message Index)) : Prop where
  sent : ∀ message ∈ messages, message.Sent series
  separated : Separated series (arrivals messages)

/-! ### The law and its condition -/

/-- Every fragmented block that is injected is one of the series. -/
def OnlyOriginals (series : Index → Block) (messages : List (Message Index)) : Prop :=
  ∀ injection ∈ injections none messages, ∃ name, injection.2 = (series name).bytes

/-- All pieces of the block arrive, once and with no other pieces between them. -/
def ArrivesOnce (series : Index → Block) (messages : List (Message Index)) (name : Index)
    (pieces : List Nat) : Prop :=
  pieces.Perm (List.range (series name).count) ∧
    ∃ before after, arrivals messages = before ++ pieces.map (Prod.mk name) ++ after ∧
      (∀ arrival ∈ before, arrival.1 ≠ name) ∧ ∀ arrival ∈ after, arrival.1 ≠ name

/-- A block that arrives once and undisturbed is injected once. -/
def InjectedOnce [DecidableEq Index] (series : Index → Block) (messages : List (Message Index)) :
    Prop :=
  ∀ name pieces, ArrivesOnce series messages name pieces →
    ((injections none messages).filter fun injection => injection.1.1 = name).map Prod.snd =
      [(series name).bytes]

/-- Four fragments of which a full one comes behind the short one are an original block. -/
def OverrunsOriginal (series : Index → Block) (messages : List (Message Index)) : Prop :=
  ∀ before packet name piece after, messages = before ++ .fragment packet name piece :: after →
    ((bufferAfter none before).getD RtcmBuffer.zero).Overrun packet →
    ∃ other, (series name).padded = (series other).bytes

/-- Where a block of four pieces arrives once, its short one comes last. -/
def ShortLast (series : Index → Block) (messages : List (Message Index)) : Prop :=
  ∀ name pieces, ArrivesOnce series messages name pieces → (series name).count = 4 →
    (series name).bytes.length < 4 * fieldDataLen → pieces.getLast? = some 3

/-! ### Runs -/

theorem arrivals_append (first second : List (Message Index)) :
    arrivals (first ++ second) = arrivals first ++ arrivals second :=
  List.filterMap_append

theorem bufferAfter_snoc (buffer : Option RtcmBuffer) (before : List (Message Index))
    (message : Message Index) :
    bufferAfter buffer (before ++ [message]) =
      (handleGpsRtcmData (bufferAfter buffer before) message.packet).1 := by
  rw [bufferAfter, List.foldl_append]
  rfl

theorem injections_snoc (buffer : Option RtcmBuffer) (before : List (Message Index))
    (message : Message Index) :
    injections buffer (before ++ [message]) =
      injections buffer before ++ injected (bufferAfter buffer before) message := by
  induction before generalizing buffer with
  | nil => exact List.append_nil _
  | cons first rest inductionHypothesis =>
    rw [List.cons_append, injections, injections, inductionHypothesis, List.append_assoc]
    rfl

variable {packet : Packet} {series : Index → Block} {block : Block} {piece : Nat} {name : Index}

/-- A message that is no valid fragment does not touch the buffer. -/
theorem handle_other (sent : (Message.other packet : Message Index).Sent series)
    (buffer : Option RtcmBuffer) :
    (handleGpsRtcmData buffer packet).1 = buffer := by
  rw [handleGpsRtcmData]
  rcases sent with long | plain
  · rw [if_pos long]
  · rw [plain, if_pos Bool.false_ne_true]
    split <;> rfl

theorem handle_fragment (carries : Carries block piece packet) (buffer : Option RtcmBuffer) :
    handleGpsRtcmData buffer packet =
      (some ((buffer.getD RtcmBuffer.zero).reassemble packet).1,
        ((buffer.getD RtcmBuffer.zero).reassemble packet).2) := by
  have short : ¬ packet.len.toNat > fieldDataLen := by
    rw [carries.len, Block.piece_length]
    omega
  rw [handleGpsRtcmData, if_neg short, if_neg (not_not.mpr carries.fragmented)]

theorem Received.before {before after : List (Message Index)}
    (received : Received series (before ++ after)) : Received series before where
  sent := fun message member => received.sent message (List.mem_append_left _ member)
  separated := by
    intro first earlier between later rest split
    refine received.separated first earlier between later (rest ++ arrivals after) ?_
    rw [arrivals_append, split]
    simp

theorem arrivals_split {messages : List (Message Index)} {first rest : List (Index × Nat)}
    (split : arrivals messages = first ++ (name, piece) :: rest) :
    ∃ before packet after, messages = before ++ .fragment packet name piece :: after ∧
      arrivals before = first := by
  obtain ⟨before, tail, rfl, same, onward⟩ := List.filterMap_eq_append_iff.mp split
  obtain ⟨idle, message, after, rfl, skipped, brings, -⟩ := List.filterMap_eq_cons_iff.mp onward
  cases message with
  | other packet => exact nomatch brings
  | fragment packet name' piece' =>
    cases Option.some.inj brings
    refine ⟨before ++ idle, packet, after, by rw [List.append_assoc], ?_⟩
    have none : arrivals idle = [] := List.filterMap_eq_nil_iff.mpr skipped
    rw [arrivals_append, none, List.append_nil]
    exact same

variable [DecidableEq Index] {series : Index → Block} {messages : List (Message Index)}

theorem Received.alone {before after : List (Message Index)}
    (received : Received series (before ++ .fragment packet name piece :: after)) (other : Index)
    (pieces : Finset Nat)
    (held : (arrivals before).foldl (gather (wholeOf series)) none = some (other, pieces))
    (same : (series other).sequence = (series name).sequence) : other = name := by
  by_contra different
  obtain ⟨earlier, last, split⟩ := foldl_gather_holds ⟨pieces, held⟩
  have adjacent : arrivals (before ++ .fragment packet name piece :: after) =
      earlier ++ (other, last) :: ([] ++ (name, piece) :: arrivals after) := by
    rw [arrivals_append, split]
    simp [arrivals, Message.arrival]
  obtain ⟨between, member, -⟩ := received.separated _ _ _ _ _ adjacent different same
  exact nomatch member

theorem Received.run (received : Received series messages) :
    Shows series ((arrivals messages).foldl (gather (wholeOf series)) none)
        ((bufferAfter none messages).getD RtcmBuffer.zero) ∧
      injections none messages = (completions (wholeOf series) none (arrivals messages)).map
        fun arrival => (arrival, (series arrival.1).delivered arrival.2) := by
  induction messages using List.reverseRecOn with
  | nil => exact ⟨rfl, rfl⟩
  | append_singleton before message inductionHypothesis =>
    obtain ⟨shows, injects⟩ := inductionHypothesis received.before
    rw [arrivals_append, bufferAfter_snoc, injections_snoc, injects]
    have sent := received.sent message (by simp)
    cases message with
    | other packet =>
      have idle : arrivals [(Message.other packet : Message Index)] = [] := rfl
      rw [Message.packet, handle_other sent, idle, List.append_nil]
      exact ⟨shows, List.append_nil _⟩
    | fragment packet name piece =>
      have brings : arrivals [Message.fragment packet name piece] = [(name, piece)] := rfl
      obtain ⟨next, result⟩ := shows.reassemble sent received.alone
      rw [Message.packet, brings, handle_fragment sent, List.foldl_append, completions_append,
        List.map_append]
      refine ⟨next, congrArg _ ?_⟩
      rw [injected, Message.packet, handle_fragment sent, Message.arrival, result, completions,
        completions]
      split_ifs <;> rfl

/-! ### When the law holds -/

/-- A block is delivered as it is unless a full piece comes last of four that are not all full. -/
theorem Block.delivered_eq_iff {index : Nat} (inside : index < block.count) :
    block.delivered index = block.bytes ↔
      (block.count = 4 → block.bytes.length < 4 * fieldDataLen → index = 3) := by
  have short := Block.piece_short_iff inside
  have bound := block.piece_length index
  have fits := block.fits
  rw [Block.delivered]
  by_cases four : block.count = 4 ∧ (block.piece index).length = fieldDataLen
  · rw [if_pos four, Block.padded]
    constructor
    · intro same
      have length := congrArg List.length same
      rw [List.length_append, List.length_replicate] at length
      intro _ missing
      omega
    · intro last
      have full : ¬ block.bytes.length < 4 * fieldDataLen := by
        intro missing
        have ends := short.mpr ⟨by rw [last four.1 missing, four.1], missing⟩
        omega
      rw [show 4 * fieldDataLen - block.bytes.length = 0 by omega]
      exact List.append_nil _
  · rw [if_neg four]
    refine ⟨fun _ count missing => ?_, fun _ => rfl⟩
    have ends := (short.mp (by
      have notFull : (block.piece index).length ≠ fieldDataLen := fun full => four ⟨count, full⟩
      omega)).1
    omega

/-- Where the pieces of a block are handled, the buffer overruns or injects the block as it is. -/
theorem Received.overrun_iff {before after : List (Message Index)}
    (received : Received series (before ++ .fragment packet name piece :: after)) :
    ((bufferAfter none before).getD RtcmBuffer.zero).Overrun packet ↔
      joined ((arrivals before).foldl (gather (wholeOf series)) none) (name, piece) =
          wholeOf series name ∧
        (series name).count = 4 ∧ ((series name).piece piece).length = fieldDataLen ∧
        (series name).bytes.length < 4 * fieldDataLen := by
  have sent : Carries (series name) piece packet :=
    received.sent (.fragment packet name piece) (by simp)
  exact received.before.run.1.overrun_iff sent received.alone

theorem Received.onlyOriginals_iff (received : Received series messages) :
    OnlyOriginals series messages ↔ OverrunsOriginal series messages := by
  have injects := received.run.2
  constructor
  · rintro originals before packet name piece after rfl overrun
    obtain ⟨all, count, full, -⟩ := received.overrun_iff.mp overrun
    have member : (name, piece) ∈ completions (wholeOf series) none
        (arrivals (before ++ .fragment packet name piece :: after)) := by
      refine mem_completions_iff.mpr ⟨arrivals before, arrivals after, ?_, all⟩
      rw [arrivals_append]
      rfl
    obtain ⟨other, same⟩ := originals ((name, piece), (series name).delivered piece) (by
      rw [injects]
      exact List.mem_map_of_mem member)
    refine ⟨other, ?_⟩
    rwa [Block.delivered, if_pos ⟨count, full⟩] at same
  · rintro overruns injection member
    rw [injects] at member
    obtain ⟨⟨name, piece⟩, completed, rfl⟩ := List.mem_map.mp member
    obtain ⟨first, rest, split, all⟩ := mem_completions_iff.mp completed
    obtain ⟨before, packet, after, rfl, rfl⟩ := arrivals_split split
    have sent : Carries (series name) piece packet :=
      received.sent (.fragment packet name piece) (by simp)
    by_cases overrun : ((bufferAfter none before).getD RtcmBuffer.zero).Overrun packet
    · obtain ⟨other, same⟩ := overruns before packet name piece after rfl overrun
      obtain ⟨-, count, full, -⟩ := received.overrun_iff.mp overrun
      refine ⟨other, ?_⟩
      rw [Block.delivered, if_pos ⟨count, full⟩, same]
    · refine ⟨name, (Block.delivered_eq_iff sent.inside).mpr fun count missing => ?_⟩
      by_contra early
      refine overrun (received.overrun_iff.mpr ⟨all, count, ?_, missing⟩)
      have notShort := mt (Block.piece_short_iff sent.inside).mp fun last => by omega
      have bound := (series name).piece_length piece
      omega

theorem Received.injected_once (received : Received series messages) {pieces : List Nat}
    (once : ArrivesOnce series messages name pieces) :
    ∃ last, pieces.getLast? = some last ∧ last < (series name).count ∧
      ((injections none messages).filter fun injection => injection.1.1 = name).map Prod.snd =
        [(series name).delivered last] := by
  obtain ⟨order, before, after, split, notBefore, notAfter⟩ := once
  have nonempty : pieces ≠ [] := by
    intro empty
    have positive := (series name).count_pos
    have length := order.length_eq
    rw [empty, List.length_range] at length
    exact absurd length positive.ne
  have all : pieces.toFinset = wholeOf series name := by
    rw [List.toFinset_eq_of_perm _ _ order, wholeOf]
    exact List.toFinset_range _
  refine ⟨pieces.getLast nonempty, List.getLast?_eq_some_getLast nonempty, ?_, ?_⟩
  · exact List.mem_range.mp (order.mem_iff.mp (List.getLast_mem nonempty))
  · rw [received.run.2, split, List.filter_map, List.map_map]
    have completed := completions_once nonempty (order.nodup_iff.mpr List.nodup_range) all notBefore
      notAfter
    rw [show (fun injection : (Index × Nat) × List UInt8 => decide (injection.1.1 = name)) ∘
        (fun arrival => (arrival, (series arrival.1).delivered arrival.2)) =
        fun arrival => decide (arrival.1 = name) from rfl, completed]
    rfl

theorem Received.injectedOnce_iff (received : Received series messages) :
    InjectedOnce series messages ↔ ShortLast series messages := by
  refine forall_congr' fun name => forall_congr' fun pieces => forall_congr' fun once => ?_
  obtain ⟨last, ends, inside, injects⟩ := received.injected_once once
  rw [injects, ends, List.singleton_inj, Block.delivered_eq_iff inside, Option.some_inj]

/-- Every injected block is an original one, and every block that arrives once and undisturbed is
injected once, if and only if four fragments that end with a full one behind the short one are an
original block, and are no block that arrives once. -/
theorem reassembly_iff (series : Index → Block) (messages : List (Message Index))
    (received : Received series messages) :
    OnlyOriginals series messages ∧ InjectedOnce series messages ↔
      OverrunsOriginal series messages ∧ ShortLast series messages :=
  and_congr received.onlyOriginals_iff received.injectedOnce_iff

end Series

/-! ### Two short runs -/

/-- The messages that carry pieces of one block. -/
def oneBlock (block : Block) (pieces : List Nat) : List (Message Unit) :=
  pieces.map fun piece => .fragment (block.packet piece) () piece

theorem arrivals_oneBlock (block : Block) (pieces : List Nat) :
    arrivals (oneBlock block pieces) = pieces.map (Prod.mk ()) := by
  rw [arrivals, oneBlock, List.filterMap_map, ← List.filterMap_eq_map]
  rfl

theorem oneBlock_received (block : Block) (pieces : List Nat)
    (inside : ∀ piece ∈ pieces, piece < block.count) :
    Received (fun _ => block) (oneBlock block pieces) where
  sent := by
    intro message member
    obtain ⟨piece, brought, rfl⟩ := List.mem_map.mp member
    exact Block.packet_carries (inside piece brought)
  separated := fun _ _ _ _ _ _ different => absurd rfl different

/-- A block of four pieces, the last of one byte. -/
def shortFourth : Block := ⟨0, List.replicate 541 1, by rw [List.length_replicate]; decide, by decide⟩

theorem shortFourth_length : shortFourth.bytes.length = 541 := List.length_replicate

theorem shortFourth_count : shortFourth.count = 4 := by
  rw [Block.count, shortFourth_length]
  rfl

theorem shortFourth_received {pieces : List Nat} (inside : ∀ piece ∈ pieces, piece < 4) :
    Received (fun _ => shortFourth) (oneBlock shortFourth pieces) :=
  oneBlock_received _ _ (by rwa [shortFourth_count])

/-- The short fragment arrives last, the full ones before it in any order. -/
theorem reassembly_iff_shortLast :
    Received (fun _ => shortFourth) (oneBlock shortFourth [2, 0, 1, 3]) ∧
      OnlyOriginals (fun _ => shortFourth) (oneBlock shortFourth [2, 0, 1, 3]) ∧
      InjectedOnce (fun _ => shortFourth) (oneBlock shortFourth [2, 0, 1, 3]) := by
  have received := @shortFourth_received [2, 0, 1, 3] (by decide)
  have whole : wholeOf (fun _ : Unit => shortFourth) = fun _ => Finset.range 4 :=
    funext fun _ => congrArg Finset.range shortFourth_count
  refine ⟨received, (reassembly_iff _ _ received).mpr ⟨?_, ?_⟩⟩
  · intro before packet name piece after split overrun
    rw [split] at received
    obtain ⟨all, -, full, -⟩ := received.overrun_iff.mp overrun
    have completed : (name, piece) ∈ completions (wholeOf fun _ => shortFourth) none
        (arrivals (oneBlock shortFourth [2, 0, 1, 3])) := by
      rw [split, arrivals_append]
      exact mem_completions_iff.mpr ⟨arrivals before, arrivals after, rfl, all⟩
    have only : completions (fun _ : Unit => Finset.range 4) none
        ([2, 0, 1, 3].map (Prod.mk ())) = [((), 3)] := by decide
    rw [arrivals_oneBlock, whole, only, List.mem_singleton, Prod.mk.injEq] at completed
    rw [completed.2, Block.piece_length, shortFourth_length] at full
    exact absurd full (by decide)
  · rintro _ pieces ⟨-, before, after, parts, front, back⟩ _ _
    have none : before = [] := List.eq_nil_iff_forall_not_mem.mpr fun _ member => front _ member rfl
    have nothing : after = [] := List.eq_nil_iff_forall_not_mem.mpr fun _ member => back _ member rfl
    rw [arrivals_oneBlock, none, nothing, List.nil_append, List.append_nil] at parts
    rw [← List.map_injective_iff.mpr (Prod.mk_right_injective ()) parts]
    rfl

/-- The short fragment arrives first, the full ones behind it: the block is injected with zero bytes
up to 720, which is no original, and is never injected as it is. -/
theorem not_reassembled_shortFirst :
    Received (fun _ => shortFourth) (oneBlock shortFourth [3, 0, 1, 2]) ∧
      ¬ OnlyOriginals (fun _ => shortFourth) (oneBlock shortFourth [3, 0, 1, 2]) ∧
      ¬ InjectedOnce (fun _ => shortFourth) (oneBlock shortFourth [3, 0, 1, 2]) := by
  have received := @shortFourth_received [3, 0, 1, 2] (by decide)
  have once : ArrivesOnce (fun _ => shortFourth) (oneBlock shortFourth [3, 0, 1, 2]) ()
      [3, 0, 1, 2] := by
    refine ⟨by rw [shortFourth_count]; decide, [], [], ?_, fun _ none => (by cases none),
      fun _ none => by cases none⟩
    rw [arrivals_oneBlock]
    rfl
  obtain ⟨last, ends, inside, injects⟩ := received.injected_once once
  cases Option.some.inj ends
  have padded : shortFourth.delivered 2 ≠ shortFourth.bytes := by
    intro same
    have late := (Block.delivered_eq_iff inside).mp same shortFourth_count
      (by rw [shortFourth_length]; decide)
    exact absurd late (by decide)
  refine ⟨received, fun originals => ?_, fun whole => ?_⟩
  · have member : shortFourth.delivered 2 ∈
        ((injections none (oneBlock shortFourth [3, 0, 1, 2])).filter
          fun injection => injection.1.1 = ()).map Prod.snd := by
      rw [injects]
      exact List.mem_singleton_self _
    obtain ⟨injection, kept, same⟩ := List.mem_map.mp member
    obtain ⟨_, original⟩ := originals injection (List.mem_of_mem_filter kept)
    exact padded (same.symm.trans original)
  · have single := (injects.symm.trans (whole () _ once))
    exact padded (List.singleton_inj.mp single)

end Urus.Gps
