/-
This file models how the channels are taken out of a DSM frame, and proves when all the values that
are reported come from the frame.

The values are a local array without initial values. Each channel in the frame fills the place that
it is mapped to, and the number of values goes by the highest channel number. A report is right
exactly if the channels in the frame have no gap below the highest one. A frame has room for seven
channels, so a frame with the eighth one never gives a right report.
-/

import Mathlib.Tactic
import Urus.Lib.Framing
import Urus.RcProtocol.Model

namespace Urus.RcProtocol.DsmDecode

/-! ### The code -/

/-- `DSM_FRAME_CHANNELS`. -/
def frameChannels : ℕ := 7

/-- The variables that outlive a frame: members of `AP_RCProtocol_DSM`, and the static ones of
`dsm_guess_format`. -/
structure DsmFormat where
  lastFrameTime : ℕ
  channelShift : ℕ
  cs10 : ℕ
  cs11 : ℕ
  samples : ℕ
  deriving DecidableEq

/-- The decoder as it is at first. -/
def start : DsmFormat := ⟨0, 0, 0, 0, 0⟩

/-- The raw value in one of the places of a frame. -/
def rawValue (frame : List ℕ) (i : ℕ) : ℕ :=
  frame.getD (2 + 2 * i) 0 <<< 8 ||| frame.getD (2 + 2 * i + 1) 0

/-- `dsm_decode_channel`: the channel and its value. -/
def dsmDecodeChannel (raw shift : ℕ) : Option (ℕ × ℕ) :=
  if raw = 0xffff then none else some (raw >>> shift &&& 0xf, raw &&& (1 <<< shift - 1))

/-- One place of a frame in the scan for assigned channel numbers. -/
def sniff (shift cs raw : ℕ) : ℕ :=
  match dsmDecodeChannel raw shift with
  | some (channel, _) => if channel < 31 then cs ||| 1 <<< channel else cs
  | none => cs

/-- The sets of channels that are looked for. -/
def masks : List ℕ := [0x3f, 0x7f, 0xff, 0x1ff, 0x3ff, 0x1fff, 0x3fff]

/-- `dsm_guess_format(true, dsm_frame)`. -/
def resetGuess (format : DsmFormat) : DsmFormat :=
  { format with cs10 := 0, cs11 := 0, samples := 0, channelShift := 0 }

/-- `dsm_guess_format(false, dsm_frame)`. -/
def dsmGuessFormat (format : DsmFormat) (frame : List ℕ) : DsmFormat :=
  let raws := (List.range frameChannels).map (rawValue frame)
  let samples := format.samples
  let format := { format with
    cs10 := raws.foldl (sniff 10) format.cs10
    cs11 := raws.foldl (sniff 11) format.cs11
    samples := (samples + 1) % 2 ^ 32 }
  if samples < 5 then format
  else
    let votes10 := masks.countP fun mask => format.cs10 = mask
    let votes11 := masks.countP fun mask => format.cs11 = mask
    if votes11 = 1 ∧ votes10 = 0 then { format with channelShift := 11 }
    else if votes10 = 1 ∧ votes11 = 0 then { format with channelShift := 10 }
    else resetGuess format

/-- The values that are handed out, and how many. A value that has not been set is not there. -/
structure Decoded where
  values : List (Option ℕ)
  numValues : ℕ
  deriving DecidableEq

/-- The scaled value of a channel. -/
def scale (shift value : ℕ) : ℕ :=
  let value := if shift = 10 then value * 2 else value
  ((((value : ℤ) - 1024) * 1000).tdiv 1700 + 1500).toNat % 2 ^ 16

/-- Where a channel of the receiver is stored. -/
def remap : ℕ → ℕ
  | 0 => 2
  | 1 => 0
  | 2 => 1
  | channel => channel

/-- One round of the loop over the places of a frame. -/
def decodeRaw (shift maxValues : ℕ) (decoded : Decoded) (raw : ℕ) : Decoded :=
  match dsmDecodeChannel raw shift with
  | none => decoded
  | some (channel, value) =>
    if maxValues ≤ channel then decoded
    else
      { numValues := if decoded.numValues ≤ channel then channel + 1 else decoded.numValues
        values := decoded.values.set (remap channel) (some (scale shift value)) }

/-- Forget the format if no frame has come for a second. -/
def forgetFormat (format : DsmFormat) (frameTime : ℕ) : DsmFormat :=
  if ((frameTime : ℤ) - format.lastFrameTime) % 2 ^ 64 > 1000000 ∧ format.channelShift ≠ 0 then
    resetGuess format
  else format

/-- `dsm_decode`: the variables behind it, and what it hands out if it returns true. -/
def dsmDecode (format : DsmFormat) (frameTime : ℕ) (frame : List ℕ) (decoded : Decoded)
    (maxValues : ℕ) : DsmFormat × Option Decoded :=
  let format := { forgetFormat format frameTime with lastFrameTime := frameTime }
  if format.channelShift = 0 then (dsmGuessFormat format frame, none)
  else
    let decoded := ((List.range frameChannels).map (rawValue frame)).foldl
      (decodeRaw format.channelShift maxValues) decoded
    (format, some (if decoded.numValues = 13 then { decoded with numValues := 12 } else decoded))

/-- What `process_pulse` does with the bytes of a full frame: the reports are the calls of
`add_input`. -/
def handleFrame (format : DsmFormat) (item : ℕ × List ℕ) : DsmFormat × List Decoded :=
  match dsmDecode format item.1 item.2 ⟨List.replicate 8 none, 0⟩ 8 with
  | (format, none) => (format, [])
  | (format, some decoded) =>
    (format, if minRcinChannels ≤ decoded.numValues then [decoded] else [])

/-- The decoder behind a row of frames, each with the time it comes at. -/
def after (items : List (ℕ × List ℕ)) : DsmFormat := (Framing.run handleFrame start items).1

/-! ### What reports are to say -/

/-- The channels below a bound that are in a frame, with their values, in their order. -/
def received (shift maxValues : ℕ) (raws : List ℕ) : List (ℕ × ℕ) :=
  raws.filterMap fun raw => (dsmDecodeChannel raw shift).filter fun item => item.1 < maxValues

/-- The raw values of a frame. -/
def rawValues (frame : List ℕ) : List ℕ := (List.range frameChannels).map (rawValue frame)

/-- The number of bits by which a frame is decoded, 0 if the format is not known. -/
def shiftFor (format : DsmFormat) (frameTime : ℕ) : ℕ := (forgetFormat format frameTime).channelShift

/-- Every reported value is that of a channel in the frame, and every channel in the frame is among
the reported ones. -/
def Right (shift : ℕ) (channels : List (ℕ × ℕ)) (report : Decoded) : Prop :=
  (∀ k < report.numValues, ∃ channel value, (channel, value) ∈ channels ∧ remap channel = k ∧
      report.values[k]? = some (some (scale shift value))) ∧
    ∀ item ∈ channels, remap item.1 < report.numValues

/-- All reports of a row of frames are right. -/
def ReportsRight (items : List (ℕ × List ℕ)) : Prop :=
  ∀ first item rest, items = first ++ item :: rest →
    ∀ report ∈ (handleFrame (after first) item).2,
      Right (shiftFor (after first) item.1)
        (received (shiftFor (after first) item.1) 8 (rawValues item.2)) report

/-- Below a channel from the fifth one on there is no channel missing. -/
def Gapless (channels : List (ℕ × ℕ)) : Prop :=
  ∀ item ∈ channels, 4 ≤ item.1 → ∀ other < item.1, ∃ value, (other, value) ∈ channels

/-- All frames that come while the format is known have channels without a gap. -/
def AllGapless (items : List (ℕ × List ℕ)) : Prop :=
  ∀ first item rest, items = first ++ item :: rest → shiftFor (after first) item.1 ≠ 0 →
    Gapless (received (shiftFor (after first) item.1) 8 (rawValues item.2))

/-! ### The loop over a frame -/

variable {channel : ℕ} {channels : List (ℕ × ℕ)} {decoded : Decoded} {shift : ℕ}

theorem remap_lt (below : channel < 8) : remap channel < 8 := by
  unfold remap
  split <;> omega

theorem remap_injective : Function.Injective remap := by
  intro first second same
  rcases first with _ | _ | _ | first <;> rcases second with _ | _ | _ | second <;>
    simp_all [remap]

/-- Three channels change their places, and the others keep theirs. -/
theorem remap_cases (channel : ℕ) : (channel < 3 ∧ remap channel < 3) ∨
    3 ≤ channel ∧ remap channel = channel := by
  unfold remap
  split <;> omega

theorem exists_remap (place : ℕ) : ∃ channel, remap channel = place := by
  match place with
  | 0 => exact ⟨1, rfl⟩
  | 1 => exact ⟨2, rfl⟩
  | 2 => exact ⟨0, rfl⟩
  | place + 3 => exact ⟨place + 3, rfl⟩

/-- What the loop over a frame has stored when it has come across some channels. -/
structure Stored (shift : ℕ) (channels : List (ℕ × ℕ)) (decoded : Decoded) : Prop where
  places : decoded.values.length = 8
  sound : ∀ (k stored : ℕ), decoded.values[k]? = some (some stored) →
    ∃ channel value, (channel, value) ∈ channels ∧ remap channel = k ∧ stored = scale shift value
  complete : ∀ item ∈ channels, ∃ stored, decoded.values[remap item.1]? = some (some stored)
  below : ∀ item ∈ channels, item.1 < 8 ∧ item.1 < decoded.numValues
  count : decoded.numValues = 0 ∨ ∃ item ∈ channels, decoded.numValues = item.1 + 1

theorem stored_nil (shift : ℕ) : Stored shift [] ⟨List.replicate 8 none, 0⟩ where
  places := List.length_replicate
  sound k stored found := by
    rw [List.getElem?_replicate] at found
    split at found
    case isTrue => exact nomatch found
    case isFalse => exact nomatch found
  complete _ member := nomatch member
  below _ member := nomatch member
  count := .inl rfl

section

variable (stored : Stored shift channels decoded)

include stored

theorem Stored.store (value : ℕ) (small : channel < 8) :
    Stored shift (channels ++ [(channel, value)])
      { numValues := if decoded.numValues ≤ channel then channel + 1 else decoded.numValues
        values := decoded.values.set (remap channel) (some (scale shift value)) } where
  places := by rw [List.length_set, stored.places]
  sound k other found := by
    dsimp only at found
    by_cases here : remap channel = k
    · rw [here, List.getElem?_set_self (by rw [stored.places, ← here]; exact remap_lt small)] at found
      exact ⟨channel, value, List.mem_append_right _ List.mem_cons_self, here,
        (Option.some.inj (Option.some.inj found)).symm⟩
    · rw [List.getElem?_set_ne here] at found
      obtain ⟨before, its, member, place, eq⟩ := stored.sound k other found
      exact ⟨before, its, List.mem_append_left _ member, place, eq⟩
  complete item member := by
    dsimp only
    have room : remap channel < decoded.values.length := by
      rw [stored.places]
      exact remap_lt small
    by_cases here : remap channel = remap item.1
    · exact ⟨_, by rw [← here, List.getElem?_set_self room]⟩
    · rw [List.getElem?_set_ne here]
      rcases List.mem_append.mp member with before | now
      · exact stored.complete item before
      · rw [List.mem_singleton.mp now] at here
        exact absurd rfl here
  below item member := by
    dsimp only
    rcases List.mem_append.mp member with before | now
    · have earlier := stored.below item before
      split <;> omega
    · rw [List.mem_singleton.mp now]
      split <;> omega
  count := by
    dsimp only
    split
    case isTrue => exact .inr ⟨_, List.mem_append_right _ List.mem_cons_self, rfl⟩
    case isFalse =>
      refine stored.count.imp_right ?_
      rintro ⟨item, member, eq⟩
      exact ⟨item, List.mem_append_left _ member, eq⟩

theorem Stored.loop (raws : List ℕ) :
    Stored shift (channels ++ received shift 8 raws) (raws.foldl (decodeRaw shift 8) decoded) := by
  induction raws generalizing channels decoded with
  | nil =>
    rw [received, List.filterMap_nil, List.append_nil]
    exact stored
  | cons raw rest inductionHypothesis =>
    rw [List.foldl_cons, received, List.filterMap_cons]
    cases found : dsmDecodeChannel raw shift with
    | none =>
      rw [decodeRaw, found]
      exact inductionHypothesis stored
    | some item =>
      obtain ⟨channel, value⟩ := item
      rw [decodeRaw, found]
      by_cases large : 8 ≤ channel
      · rw [Option.filter_some_neg (by simpa using large)]
        dsimp only
        rw [if_pos large]
        exact inductionHypothesis stored
      · rw [Option.filter_some_pos (by simpa using large)]
        dsimp only
        rw [if_neg large]
        have small : channel < 8 := by omega
        have onward := inductionHypothesis (stored.store value small)
        rw [List.append_assoc] at onward
        exact onward

/-! ### Right reports -/

theorem Stored.right_iff (enough : minRcinChannels ≤ decoded.numValues) :
    Right shift channels decoded ↔ Gapless channels := by
  have five : 5 ≤ decoded.numValues := enough
  constructor
  · rintro ⟨filled, -⟩ item member large other below
    have itemBelow := (stored.below item member).2
    have place : remap other < decoded.numValues := by
      have cases := remap_cases other
      omega
    obtain ⟨channel, value, among, same, -⟩ := filled (remap other) place
    exact ⟨value, remap_injective same ▸ among⟩
  · intro gapless
    obtain none | ⟨last, lastMember, count⟩ := stored.count
    · omega
    refine ⟨fun k small => ?_, fun item member => ?_⟩
    · obtain ⟨channel, place⟩ := exists_remap k
      have present : ∃ value, (channel, value) ∈ channels := by
        rcases Nat.lt_or_ge channel last.1 with below | above
        · exact gapless last lastMember (by omega) channel below
        · have same : channel = last.1 := by
            have cases := remap_cases channel
            omega
          exact ⟨last.2, by rw [same]; exact lastMember⟩
      obtain ⟨value, member⟩ := present
      obtain ⟨kept, found⟩ := stored.complete (channel, value) member
      rw [show remap (channel, value).1 = k from place] at found
      obtain ⟨other, its, otherMember, otherPlace, eq⟩ := stored.sound k kept found
      exact ⟨other, its, otherMember, otherPlace, by rw [found, eq]⟩
    · have cases := remap_cases item.1
      have below := (stored.below item member).2
      omega

/-- With fewer than five values nothing is reported, and no channel counts as missing. -/
theorem Stored.gapless (few : ¬minRcinChannels ≤ decoded.numValues) :
    Gapless channels := by
  intro item member large
  have below := (stored.below item member).2
  have five : ¬5 ≤ decoded.numValues := few
  omega

end

section Handle

variable {format : DsmFormat} {item : ℕ × List ℕ}

theorem handleFrame_unknown (unknown : shiftFor format item.1 = 0) :
    (handleFrame format item).2 = [] := by
  unfold handleFrame dsmDecode
  dsimp only
  rw [shiftFor] at unknown
  rw [if_pos unknown]

/-- The count of 13 values, which the code takes for 12, does not come up with eight channels. -/
theorem handleFrame_known (known : shiftFor format item.1 ≠ 0) :
    ∃ decoded, Stored (shiftFor format item.1)
        (received (shiftFor format item.1) 8 (rawValues item.2)) decoded ∧
      (handleFrame format item).2 =
        if minRcinChannels ≤ decoded.numValues then [decoded] else [] := by
  have stored := (stored_nil (shiftFor format item.1)).loop (rawValues item.2)
  rw [List.nil_append] at stored
  refine ⟨_, stored, ?_⟩
  have notThirteen : ((rawValues item.2).foldl (decodeRaw (shiftFor format item.1) 8)
      ⟨List.replicate 8 none, 0⟩).numValues ≠ 13 := by
    rcases stored.count with none | ⟨last, member, count⟩
    · omega
    · have small := (stored.below last member).1
      omega
  unfold handleFrame dsmDecode
  dsimp only
  rw [shiftFor] at known notThirteen ⊢
  rw [rawValues] at notThirteen ⊢
  rw [if_neg known, if_neg notThirteen]

theorem handleFrame_right_iff :
    (∀ report ∈ (handleFrame format item).2, Right (shiftFor format item.1)
        (received (shiftFor format item.1) 8 (rawValues item.2)) report) ↔
      (shiftFor format item.1 ≠ 0 →
        Gapless (received (shiftFor format item.1) 8 (rawValues item.2))) := by
  by_cases known : shiftFor format item.1 = 0
  · rw [handleFrame_unknown known]
    exact iff_of_true (fun _ member => nomatch member) fun some_format => absurd known some_format
  obtain ⟨decoded, stored, reports⟩ := handleFrame_known known
  rw [reports]
  by_cases enough : minRcinChannels ≤ decoded.numValues
  · rw [if_pos enough, List.forall_mem_singleton, stored.right_iff enough]
    exact ⟨fun gapless _ => gapless, fun gapless => gapless known⟩
  · rw [if_neg enough]
    exact iff_of_true (fun _ member => nomatch member) fun _ => stored.gapless enough

end Handle

/-- Over every row of frames all reports are right exactly if no frame that is decoded has a gap in
its channels. -/
theorem reportsRight_iff (items : List (ℕ × List ℕ)) : ReportsRight items ↔ AllGapless items := by
  constructor
  · intro right first item rest split
    exact handleFrame_right_iff.mp (right first item rest split)
  · intro gapless first item rest split
    exact handleFrame_right_iff.mpr (gapless first item rest split)

/-- A frame in which each value comes with its channel number, 11 bits for the value. -/
def frameOf (channels : List (ℕ × ℕ)) : List ℕ :=
  0 :: 0 :: channels.flatMap fun item =>
    [(item.1 <<< 11 ||| item.2) / 256, (item.1 <<< 11 ||| item.2) % 256]

/-- The first seven channels, all of them at the middle. -/
def sevenChannels : List ℕ := frameOf ((List.range 7).map fun channel => (channel, 1023))

/-- Six frames by which the format is found. -/
def sevenChannelFrames : List (ℕ × List ℕ) :=
  (List.range 6).map fun count => (1000000 + 22000 * count, sevenChannels)

/-- A frame of a transmitter with eight channels, without the seventh one. -/
def eighthChannel : List ℕ :=
  frameOf [(0, 1023), (1, 1023), (2, 1023), (3, 1023), (4, 1023), (5, 1023), (7, 1023)]

/-- Eight values are reported for a frame without the seventh channel, the seventh of them one that
has never been set. -/
theorem report_not_initialised :
    (⟨[some 1500, some 1500, some 1500, some 1500, some 1500, some 1500, none, some 1500], 8⟩ :
        Decoded) ∈ (handleFrame (after sevenChannelFrames) (1132000, eighthChannel)).2 ∧
      ¬ReportsRight (sevenChannelFrames ++ [(1132000, eighthChannel)]) := by
  have reported : (⟨[some 1500, some 1500, some 1500, some 1500, some 1500, some 1500, none,
      some 1500], 8⟩ : Decoded) ∈
        (handleFrame (after sevenChannelFrames) (1132000, eighthChannel)).2 := by
    decide +kernel
  refine ⟨reported, fun right => ?_⟩
  obtain ⟨filled, -⟩ := right sevenChannelFrames _ [] rfl _ reported
  obtain ⟨channel, value, -, -, stored⟩ := filled 6 (show 6 < 8 by omega)
  exact nomatch Option.some.inj stored

end Urus.RcProtocol.DsmDecode
