/-
This file is about the stored commands. Seen as one flat array, the mission's storage is
a version word and behind it one record of 15 bytes for every command. A record begins
with the identifier, or with a zero byte and the identifier behind it if it does not fit
into a byte; so an identifier of zero is not stored faithfully, and a wide one costs two
bytes of the content.

Writing a command puts its record into its slot and touches nothing else. A run of edits
therefore leaves in every slot the record that was written there last: edits that are
refused and truncations write nothing.
-/

import Urus.Mission.Walk
import Urus.Lib.Trace

namespace Urus.ApMission

open Image StorageManager

variable {board : Board}

/-! ### Words and bytes -/

theorem word_wordBytes (value : UInt16) :
    word (UInt8.ofNat value.toNat) (UInt8.ofNat (value.toNat / 2 ^ 8)) = value := by
  have bound := value.toNat_lt
  apply UInt16.toNat_inj.mp
  rw [word, UInt16.toNat_ofNat', UInt8.toNat_ofNat', UInt8.toNat_ofNat']
  omega

/-- A narrow identifier as a byte and back. -/
theorem toUInt16_toUInt8 (id : UInt16) (narrow : id < 256) : id.toUInt8.toUInt16 = id := by
  have bound : id.toNat < 256 := narrow
  apply UInt16.toNat_inj.mp
  rw [UInt8.toNat_toUInt16, UInt16.toNat_toUInt8]
  omega

theorem toUInt8_ne_zero {id : UInt16} (narrow : id < 256) (real : id ≠ 0) : id.toUInt8 ≠ 0 := by
  intro zero
  have back := toUInt16_toUInt8 id narrow
  rw [zero] at back
  exact real back.symm

/-! ### Records -/

/-- The bytes of the content that are stored. -/
def MissionCommand.stored (cmd : MissionCommand) : List UInt8 :=
  if cmd.id < 256 then cmd.content.bytes else cmd.content.bytes.take 10

/-- The record of a command. -/
def MissionCommand.record (cmd : MissionCommand) : List UInt8 :=
  if cmd.id < 256 then [cmd.id.toUInt8] ++ wordBytes cmd.p1 ++ cmd.stored
  else [0] ++ wordBytes cmd.id ++ wordBytes cmd.p1 ++ cmd.stored

/-- The command in a record, over the content that was there before. -/
def decodeRecord (index : Nat) (temp : MissionCommand) (record : List UInt8) : MissionCommand :=
  if record.getD 0 0 = 0 then
    ⟨index, word (record.getD 1 0) (record.getD 2 0), word (record.getD 3 0) (record.getD 4 0),
      temp.content.overlay (record.drop 5)⟩
  else
    ⟨index, (record.getD 0 0).toUInt16, word (record.getD 1 0) (record.getD 2 0),
      temp.content.overlay (record.drop 3)⟩

variable {cmd : MissionCommand} {index : Nat} {calls : List Call} {mission final : Mission board}

theorem MissionCommand.stored_narrow (narrow : cmd.id < 256) :
    cmd.stored = cmd.content.bytes := if_pos narrow

theorem MissionCommand.stored_wide (wide : ¬ cmd.id < 256) :
    cmd.stored = cmd.content.bytes.take 10 := if_neg wide

theorem MissionCommand.record_narrow (narrow : cmd.id < 256) :
    cmd.record = [cmd.id.toUInt8] ++ wordBytes cmd.p1 ++ cmd.stored := if_pos narrow

theorem MissionCommand.record_wide (wide : ¬ cmd.id < 256) :
    cmd.record = [0] ++ wordBytes cmd.id ++ wordBytes cmd.p1 ++ cmd.stored := if_neg wide

theorem MissionCommand.record_length (cmd : MissionCommand) : cmd.record.length = commandSize := by
  have sized := cmd.content.sized
  by_cases narrow : cmd.id < 256
  · rw [record_narrow narrow, stored_narrow narrow]
    simp [wordBytes, sized, commandSize]
  · rw [record_wide narrow, stored_wide narrow]
    simp [wordBytes, sized, commandSize]

theorem decodeRecord_record (index : Nat) (temp : MissionCommand) (real : cmd.id ≠ 0) :
    decodeRecord index temp cmd.record =
      ⟨index, cmd.id, cmd.p1, temp.content.overlay cmd.stored⟩ := by
  by_cases narrow : cmd.id < 256
  · rw [cmd.record_narrow narrow, decodeRecord]
    simp only [wordBytes, List.cons_append, List.nil_append, List.getD_cons_zero,
      List.getD_cons_succ, List.drop_succ_cons, List.drop_zero]
    rw [if_neg (toUInt8_ne_zero narrow real), toUInt16_toUInt8 _ narrow, word_wordBytes]
  · rw [cmd.record_wide narrow, decodeRecord]
    simp only [wordBytes, List.cons_append, List.nil_append, List.getD_cons_zero,
      List.getD_cons_succ, List.drop_succ_cons, List.drop_zero, if_true]
    rw [word_wordBytes, word_wordBytes]

theorem Content.overlay_whole (old : Content) (new : Content) :
    old.overlay new.bytes = new := by
  have sized := new.sized
  have oldSized := old.sized
  cases new with
  | mk bytes _ =>
    simp only [Content.overlay, Content.mk.injEq]
    rw [List.drop_eq_nil_of_le (by omega), List.append_nil, List.take_of_length_le (by omega)]

/-! ### Slots -/

/-- The bytes of the mission's storage. -/
def Plan.bytes (plan : Plan board) : Image := flat .mission plan.storage board.layout.areas

/-- Where the slot of a command begins. -/
def slotAt (index : Nat) : Nat := 4 + index * commandSize

/-- The record in the slot of a command. -/
def Plan.slot (plan : Plan board) (index : Nat) : List UInt8 :=
  slice plan.bytes (slotAt index) commandSize

theorem slotAt_inside (room : index < numCommandsMax board) :
    posInStorage index = slotAt index ∧
      slotAt index + commandSize ≤ size .mission board.layout.areas :=
  Plan.slot_inside ⟨fun _ => 0, numCommandsMax board, le_refl _⟩ room

theorem writeBytes_flat (storage : Image) (loc : Nat) (data : List UInt8)
    (positive : 1 ≤ data.length) (short : data.length ≤ 255)
    (inside : loc + data.length ≤ size .mission board.layout.areas) :
    flat .mission (writeBytes board storage loc data) board.layout.areas =
      put (flat .mission storage board.layout.areas) loc data :=
  (writeBlock_flat board.layout .mission storage loc data positive short inside).2

theorem writeBytes_foreign (storage : Image) (loc : Nat) (data : List UInt8) (address : Nat)
    (foreign : ¬ Owns .mission board.layout.areas address) :
    writeBytes board storage loc data address = storage address := by
  rw [writeBytes, writeBlock_eq]
  exact blockLoop_write_frame .mission _ _ _ _ _ _ foreign

theorem writeCmdToStorage_bytes (plan : Plan board) (room : index < numCommandsMax board)
    (cmd : MissionCommand) :
    (writeCmdToStorage plan index cmd).2.bytes = put plan.bytes (slotAt index) cmd.record := by
  obtain ⟨place, inside⟩ := slotAt_inside room
  have sized := cmd.content.sized
  rw [commandSize] at inside
  rw [writeCmdToStorage, if_neg (not_le.mpr room)]
  dsimp only [Plan.bytes]
  rw [place]
  by_cases narrow : cmd.id < 256
  · rw [if_pos narrow, cmd.record_narrow narrow, cmd.stored_narrow narrow]
    dsimp only
    rw [writeBytes_flat _ _ _ (by omega) (by omega) (by omega),
      writeBytes_flat _ _ _ (by simp [wordBytes]) (by simp [wordBytes]) (by simp [wordBytes]; omega),
      writeBytes_flat _ _ _ (by simp) (by simp) (by simp; omega), ← put_append, ← put_append]
    rfl
  · have taken : (cmd.content.bytes.take 10).length = 10 := by
      rw [List.length_take, sized]
      rfl
    rw [if_neg narrow, cmd.record_wide narrow, cmd.stored_wide narrow]
    dsimp only
    rw [writeBytes_flat _ _ _ (by omega) (by omega) (by omega),
      writeBytes_flat _ _ _ (by simp [wordBytes]) (by simp [wordBytes]) (by simp [wordBytes]; omega),
      writeBytes_flat _ _ _ (by simp [wordBytes]) (by simp [wordBytes]) (by simp [wordBytes]; omega),
      writeBytes_flat _ _ _ (by simp) (by simp) (by simp; omega), ← put_append, ← put_append,
      ← put_append]
    rfl

theorem writeCmdToStorage_foreign (plan : Plan board) (index : Nat) (cmd : MissionCommand)
    (address : Nat) (foreign : ¬ Owns .mission board.layout.areas address) :
    (writeCmdToStorage plan index cmd).2.storage address = plan.storage address := by
  unfold writeCmdToStorage
  split
  · rfl
  · dsimp only
    split
    · dsimp only
      rw [writeBytes_foreign _ _ _ _ foreign, writeBytes_foreign _ _ _ _ foreign,
        writeBytes_foreign _ _ _ _ foreign]
    · dsimp only
      rw [writeBytes_foreign _ _ _ _ foreign, writeBytes_foreign _ _ _ _ foreign,
        writeBytes_foreign _ _ _ _ foreign, writeBytes_foreign _ _ _ _ foreign]

theorem readCmdFromStorage_slot (plan : Plan board) (real : 1 ≤ index)
    (listed : index < plan.cmdTotal) (temp : MissionCommand) :
    readCmdFromStorage plan index temp = some (decodeRecord index temp (plan.slot index)) := by
  obtain ⟨place, inside⟩ := slotAt_inside (lt_of_lt_of_le listed plan.inside)
  rw [commandSize] at inside
  have byte : ∀ offset < 15, (plan.slot index).getD offset 0 = plan.bytes (slotAt index + offset) :=
    fun offset early => slice_getD _ _ _ _ early
  have block : ∀ offset count, 1 ≤ count → offset + count ≤ 15 →
      readBytes board plan.storage (slotAt index + offset) count =
        slice plan.bytes (slotAt index + offset) count :=
    fun offset count positive within => readBytes_flat _ _ _ positive (by omega) (by omega)
  have first : readByte board plan.storage (slotAt index) = (plan.slot index).getD 0 0 := by
    have start := block 0 1 (by decide) (by decide)
    rw [Nat.add_zero] at start
    rw [readByte, start, byte 0 (by decide), slice_getD _ _ _ _ (by decide)]
  have double : ∀ offset, offset + 2 ≤ 15 →
      readUint16 board plan.storage (slotAt index + offset) =
        word ((plan.slot index).getD offset 0) ((plan.slot index).getD (offset + 1) 0) := by
    intro offset within
    rw [readUint16, block offset 2 (by decide) within, byte offset (by omega),
      byte (offset + 1) (by omega), slice_getD _ _ _ _ (by decide), slice_getD _ _ _ _ (by decide)]
    rfl
  rw [readCmdFromStorage, if_neg (by omega), if_neg (by omega)]
  dsimp only
  rw [place, first, decodeRecord, double 1 (by decide), double 3 (by decide),
    block 5 10 (by decide) (by decide), block 3 12 (by decide) (by decide),
    ← slice_drop plan.bytes (slotAt index) 5 10, ← slice_drop plan.bytes (slotAt index) 3 12]
  split <;> rfl

/-! ### Writing and reading back -/

/-- A read of a command finds what was written: the index, the identifier, the parameter, and the
content, up to the bytes that a wide identifier takes. -/
def ReadsAs (plan : Plan board) (index : Nat) (cmd : MissionCommand) : Prop :=
  ∀ temp, ∃ read, readCmdFromStorage plan index temp = some read ∧ read.index = index ∧
    read.id = cmd.id ∧ read.p1 = cmd.p1 ∧ (cmd.id < 256 → read.content = cmd.content) ∧
    (256 ≤ cmd.id → read.content.bytes.take 10 = cmd.content.bytes.take 10)

theorem readsAs_of_slot {plan : Plan board} (real : 1 ≤ index) (listed : index < plan.cmdTotal)
    (named : cmd.id ≠ 0) (holds : plan.slot index = cmd.record) : ReadsAs plan index cmd := by
  intro temp
  refine ⟨_, readCmdFromStorage_slot plan real listed temp, ?_⟩
  rw [holds, decodeRecord_record index temp named]
  refine ⟨rfl, rfl, rfl, fun narrow => ?_, fun wide => ?_⟩
  · rw [cmd.stored_narrow narrow]
    exact temp.content.overlay_whole cmd.content
  · have sized := cmd.content.sized
    rw [cmd.stored_wide (UInt16.not_lt.mpr wide), Content.overlay]
    dsimp only
    rw [List.take_take, show min 10 12 = 10 by decide,
      List.take_append_of_le_length (by rw [List.length_take, sized]; decide), List.take_take,
      Nat.min_self]

theorem slot_write_self (plan : Plan board) (room : index < numCommandsMax board)
    (cmd : MissionCommand) : (writeCmdToStorage plan index cmd).2.slot index = cmd.record := by
  rw [Plan.slot, writeCmdToStorage_bytes plan room cmd, ← cmd.record_length]
  exact slice_put_self _ _ _

/-- A write inside of the storage succeeds and does not change the number of commands. -/
theorem writeCmdToStorage_accepted (plan : Plan board) (room : index < numCommandsMax board)
    (cmd : MissionCommand) :
    (writeCmdToStorage plan index cmd).1 = true ∧
      (writeCmdToStorage plan index cmd).2.cmdTotal = plan.cmdTotal := by
  rw [writeCmdToStorage, if_neg (not_le.mpr room)]
  dsimp only
  split <;> exact ⟨rfl, rfl⟩

theorem slotAt_apart {index other : Nat} (different : other ≠ index) :
    slotAt other + commandSize ≤ slotAt index ∨ slotAt index + commandSize ≤ slotAt other := by
  rw [slotAt, slotAt, commandSize]
  omega

theorem slot_write_other (plan : Plan board) {index other : Nat} (different : other ≠ index)
    (cmd : MissionCommand) :
    (writeCmdToStorage plan index cmd).2.slot other = plan.slot other := by
  by_cases room : index < numCommandsMax board
  · rw [Plan.slot, writeCmdToStorage_bytes plan room cmd]
    refine slice_put_disjoint _ _ _ _ _ ?_
    rw [cmd.record_length]
    exact slotAt_apart different
  · rw [writeCmdToStorage, if_pos (not_lt.mp room)]

/-- The version word is in front of all slots. -/
theorem version_write (plan : Plan board) (index : Nat) (cmd : MissionCommand) :
    slice (writeCmdToStorage plan index cmd).2.bytes 0 4 = slice plan.bytes 0 4 := by
  by_cases room : index < numCommandsMax board
  · rw [writeCmdToStorage_bytes plan room cmd]
    refine slice_put_disjoint _ _ _ _ _ (Or.inl ?_)
    rw [slotAt]
    omega
  · rw [writeCmdToStorage, if_pos (not_lt.mp room)]

/-! ### Runs of edits -/

/-- The calls that edit the stored mission. -/
def Call.edits : Call → Bool
  | .truncate _ | .addCmd _ | .replaceCmd _ _ => true
  | _ => false

/-- The command that a call writes, and where. -/
def written (mission : Mission board) : Call → Option (Nat × MissionCommand)
  | .addCmd cmd => if (mission.addCmd cmd).1 then some (mission.plan.cmdTotal, cmd) else none
  | .replaceCmd index cmd => if (mission.replaceCmd index cmd).1 then some (index, cmd) else none
  | _ => none

/-- The commands that a run writes, in their order. -/
def writes (fuel : Nat) : Mission board → List Call → List (Nat × MissionCommand)
  | _, [] => []
  | mission, call :: rest =>
    (written mission call).toList ++
      match perform fuel mission call with
      | none => []
      | some next => writes fuel next rest

theorem Mission.addCmd_refused {mission : Mission board} (refused : (mission.addCmd cmd).1 = false)
    : (mission.addCmd cmd).2.2 = mission := by
  unfold addCmd at refused ⊢
  split
  · rename_i room
    rw [dif_pos room] at refused
    exact nomatch refused
  · rfl

theorem Mission.replaceCmd_refused {mission : Mission board}
    (refused : (mission.replaceCmd index cmd).1 = false) :
    (mission.replaceCmd index cmd).2 = mission := by
  unfold replaceCmd writeCmdToStorage at *
  by_cases beyond : index ≥ mission.plan.cmdTotal
  · rw [if_pos beyond]
  · by_cases full : index ≥ numCommandsMax board
    · rw [if_neg beyond, if_pos full]
    · rw [if_neg beyond, if_neg full] at refused
      dsimp only at refused
      split at refused <;> exact nomatch refused

theorem slot_edit {fuel : Nat} {mission next : Mission board} {call : Call}
    (edits : call.edits = true) (stepped : perform fuel mission call = some next) (index : Nat) :
    (∀ cmd, written mission call = some (index, cmd) → next.plan.slot index = cmd.record) ∧
      ((∀ cmd, written mission call ≠ some (index, cmd)) →
        next.plan.slot index = mission.plan.slot index) := by
  cases call with
  | truncate last =>
    rw [← Option.some.inj stepped]
    refine ⟨(fun cmd impossible => nomatch impossible), fun _ => ?_⟩
    unfold Mission.truncate
    split <;> rfl
  | addCmd new =>
    rw [← Option.some.inj stepped, written]
    cases added : (mission.addCmd new).1 with
    | false =>
      rw [Mission.addCmd_refused added]
      exact ⟨(fun cmd impossible => nomatch impossible), fun _ => rfl⟩
    | true =>
      have room : mission.plan.cmdTotal < numCommandsMax board := by
        by_contra full
        rw [Mission.addCmd, dif_neg full] at added
        exact nomatch added
      have slots : (mission.addCmd new).2.2.plan.slot index =
          (writeCmdToStorage mission.plan mission.plan.cmdTotal new).2.slot index := by
        rw [Mission.addCmd, dif_pos room]
        rfl
      rw [slots, if_pos rfl]
      refine ⟨fun cmd same => ?_, fun other => ?_⟩
      · obtain ⟨rfl, rfl⟩ := Prod.mk.inj (Option.some.inj same)
        exact slot_write_self mission.plan room new
      · refine slot_write_other mission.plan (fun same => ?_) new
        exact other new (by rw [same])
  | replaceCmd place new =>
    rw [← Option.some.inj stepped, written]
    cases replaced : (mission.replaceCmd place new).1 with
    | false =>
      rw [Mission.replaceCmd_refused replaced]
      exact ⟨(fun cmd impossible => nomatch impossible), fun _ => rfl⟩
    | true =>
      have listed : place < mission.plan.cmdTotal := by
        by_contra beyond
        rw [Mission.replaceCmd, if_pos (not_lt.mp beyond)] at replaced
        exact nomatch replaced
      have slots : (mission.replaceCmd place new).2.plan.slot index =
          (writeCmdToStorage mission.plan place new).2.slot index := by
        rw [Mission.replaceCmd, if_neg (not_le.mpr listed)]
      rw [slots, if_pos rfl]
      refine ⟨fun cmd same => ?_, fun other => ?_⟩
      · obtain ⟨rfl, rfl⟩ := Prod.mk.inj (Option.some.inj same)
        exact slot_write_self mission.plan (lt_of_lt_of_le listed mission.plan.inside) new
      · refine slot_write_other mission.plan (fun same => ?_) new
        exact other new (by rw [same])
  | _ => exact nomatch edits

theorem slot_unwritten {fuel : Nat} (edits : ∀ call ∈ calls, call.edits = true)
    (reached : runSteps (perform fuel) mission calls = some final)
    (unwritten : ∀ write ∈ writes fuel mission calls, write.1 ≠ index) :
    final.plan.slot index = mission.plan.slot index := by
  induction calls generalizing mission with
  | nil => rw [← Option.some.inj reached]
  | cons call rest inductionHypothesis =>
    obtain ⟨next, stepped, remaining⟩ := Option.bind_eq_some_iff.mp reached
    rw [writes, stepped] at unwritten
    have kept := (slot_edit (edits call List.mem_cons_self) stepped index).2 fun cmd same =>
      unwritten (index, cmd) (List.mem_append_left _ (by rw [same]; exact List.mem_cons_self)) rfl
    rw [inductionHypothesis (fun other member => edits other (List.mem_cons_of_mem _ member))
      remaining fun write member => unwritten write (List.mem_append_right _ member), kept]

theorem slot_last_written {fuel : Nat} (edits : ∀ call ∈ calls, call.edits = true)
    (reached : runSteps (perform fuel) mission calls = some final)
    {before after : List (Nat × MissionCommand)}
    (log : writes fuel mission calls = before ++ (index, cmd) :: after)
    (last : ∀ write ∈ after, write.1 ≠ index) : final.plan.slot index = cmd.record := by
  induction calls generalizing mission before with
  | nil =>
    rw [writes] at log
    exact absurd log.symm (List.append_ne_nil_of_right_ne_nil _ (List.cons_ne_nil _ _))
  | cons call rest inductionHypothesis =>
    obtain ⟨next, stepped, remaining⟩ := Option.bind_eq_some_iff.mp reached
    have editsRest : ∀ other ∈ rest, other.edits = true :=
      fun other member => edits other (List.mem_cons_of_mem _ member)
    rw [writes, stepped] at log
    dsimp only at log
    cases wrote : written mission call with
    | none =>
      rw [wrote] at log
      exact inductionHypothesis editsRest remaining log
    | some write =>
      rw [wrote, Option.toList_some, List.singleton_append] at log
      cases before with
      | nil =>
        -- the last write of the slot is the one of this call
        obtain ⟨same, behind⟩ := List.cons.inj log
        rw [slot_unwritten editsRest remaining (behind ▸ last)]
        exact (slot_edit (edits call List.mem_cons_self) stepped index).1 cmd (wrote.trans
          (congrArg some same))
      | cons first before =>
        exact inductionHypothesis editsRest remaining (List.cons.inj log).2

/-- The stored mission. A command with an identifier is read back as it was written, with its
content up to the bytes that a wide identifier takes; the write touches no other slot, not the
version word, and no byte outside of the mission's storage. A command that is not added or not
replaced leaves the mission as it was. Behind any run of edits, reading a command finds the one
that was written there last. -/
theorem stored_commands_read_back (fuel : Nat) (mission : Mission board) (index : Nat)
    (cmd : MissionCommand) :
    (1 ≤ index → index < mission.plan.cmdTotal → cmd.id ≠ 0 →
      (writeCmdToStorage mission.plan index cmd).1 = true ∧
        ReadsAs (writeCmdToStorage mission.plan index cmd).2 index cmd) ∧
    (∀ other, other ≠ index →
      (writeCmdToStorage mission.plan index cmd).2.slot other = mission.plan.slot other) ∧
    slice (writeCmdToStorage mission.plan index cmd).2.bytes 0 4 = slice mission.plan.bytes 0 4 ∧
    (∀ address, ¬ Owns .mission board.layout.areas address →
      (writeCmdToStorage mission.plan index cmd).2.storage address =
        mission.plan.storage address) ∧
    ((mission.addCmd cmd).1 = false → (mission.addCmd cmd).2.2 = mission) ∧
    ((mission.replaceCmd index cmd).1 = false → (mission.replaceCmd index cmd).2 = mission) ∧
    ∀ calls final before after, (∀ call ∈ calls, call.edits = true) →
      runSteps (perform fuel) mission calls = some final →
      writes fuel mission calls = before ++ (index, cmd) :: after →
      (∀ write ∈ after, write.1 ≠ index) → 1 ≤ index → index < final.plan.cmdTotal →
      cmd.id ≠ 0 → ReadsAs final.plan index cmd := by
  refine ⟨fun real listed named => ?_, fun other different =>
    slot_write_other mission.plan different cmd, version_write mission.plan index cmd,
    writeCmdToStorage_foreign mission.plan index cmd, Mission.addCmd_refused,
    Mission.replaceCmd_refused, ?_⟩
  · have room := lt_of_lt_of_le listed mission.plan.inside
    obtain ⟨accepted, total⟩ := writeCmdToStorage_accepted mission.plan room cmd
    exact ⟨accepted, readsAs_of_slot real (total ▸ listed) named
      (slot_write_self mission.plan room cmd)⟩
  · intro calls final before after edits reached log last real listed named
    exact readsAs_of_slot real listed named (slot_last_written edits reached log last)

/-- A mission to which waypoints and a wide command are added, of which one command is replaced,
and which is cut and grown again. -/
def editedRun : List Call :=
  [.addCmd navCmd, .addCmd navCmd, .addCmd (plainCmd 300), .replaceCmd 2 (jumpCmd 1 1), .truncate 2,
    .addCmd (plainCmd 42000)]

theorem stored_commands_read_back_edited :
    ∃ final : Mission smallBoard,
      runSteps (perform 0) (constructed (uploaded [])) editedRun = some final ∧
        ReadsAs final.plan 1 navCmd ∧ ReadsAs final.plan 2 (plainCmd 42000) := by
  obtain ⟨final, reached, total⟩ : ∃ final : Mission smallBoard,
      runSteps (perform 0) (constructed (uploaded [])) editedRun = some final ∧
        final.plan.cmdTotal = 3 := ⟨_, rfl, by decide +kernel⟩
  obtain ⟨-, -, -, -, -, -, first⟩ :=
    stored_commands_read_back 0 (constructed (uploaded [])) 1 navCmd
  obtain ⟨-, -, -, -, -, -, second⟩ :=
    stored_commands_read_back 0 (constructed (uploaded [])) 2 (plainCmd 42000)
  refine ⟨final, reached, ?_, ?_⟩
  · exact first editedRun final []
      [(2, navCmd), (3, plainCmd 300), (2, jumpCmd 1 1), (2, plainCmd 42000)] (by decide) reached
      (by decide +kernel) (by decide +kernel) (by decide) (by rw [total]; decide) (by decide)
  · exact second editedRun final
      [(1, navCmd), (2, navCmd), (3, plainCmd 300), (2, jumpCmd 1 1)] [] (by decide) reached
      (by decide +kernel) (by decide +kernel) (by decide) (by rw [total]; decide) (by decide)

end Urus.ApMission
