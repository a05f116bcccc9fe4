/-
This file proves that the two ends of an SBUS link agree. Bit `8k + t` of the data of a frame
is bit `t` of byte `k`. The packing puts bit `j` of channel `c` at bit `11c + j`, and the
table of the decoder takes bit `j` of channel `c` from there. So every vector of values
comes out as it went in, and the bytes behind the data stay zero.
-/

import Urus.Sbus.Model

namespace Urus.Sbus

/-! ### Packing -/

theorem wrapOffset_eq (index offset : ℕ) :
    wrapOffset index offset = (index + offset / 8, offset % 8) := by
  induction index, offset using wrapOffset.induct with
  | case1 index offset large inductionHypothesis =>
    rw [wrapOffset, if_pos large, inductionHypothesis, Prod.mk.injEq]
    omega
  | case2 index offset small =>
    rw [wrapOffset, if_neg small, Prod.mk.injEq]
    omega

theorem testBit_byte (value bit : ℕ) :
    (value &&& 0xff).testBit bit = (value.testBit bit && decide (bit < 8)) := by
  rw [Nat.testBit_and, show (0xff : ℕ) = 2 ^ 8 - 1 from rfl, Nat.testBit_two_pow_sub_one]

theorem orByte_testBit (frame : Frame) (index value other bit : ℕ) :
    ((frame.orByte index value).bytes other).testBit bit =
      ((frame.bytes other).testBit bit ||
        (decide (other = index) && (value.testBit bit && decide (bit < 8)))) := by
  rw [Frame.orByte]
  dsimp only
  by_cases same : other = index
  · rw [same, Function.update_self, Nat.testBit_or, testBit_byte, decide_eq_true rfl,
      Bool.true_and]
  · rw [Function.update_of_ne same, decide_eq_false same, Bool.false_and, Bool.or_false]

theorem orByte_other (frame : Frame) {index other : ℕ} (value : ℕ) (apart : other ≠ index) :
    (frame.orByte index value).bytes other = frame.bytes other :=
  Function.update_of_ne apart _ _

theorem emptyFrame_blank (byte : ℕ) : emptyFrame.bytes (1 + byte) = 0 := by
  have apart : 1 + byte ≠ 0 := by omega
  exact Function.update_of_ne apart 0x0f fun _ => 0

/-- The bit of the values that belongs at a position of the data. -/
def dataBit (values : ℕ → ℕ) (position : ℕ) : Bool :=
  (values (position / 11)).testBit (position % 11)

/-- The packer has packed the first channels: the bits of their values lie one behind the other, and
all other bits are zero. -/
structure Packed (values : ℕ → ℕ) (count : ℕ) (packer : Packer) : Prop where
  start : packer.frame.bytes 0 = 0x0f
  data : ∀ byte bit, bit < 8 → (packer.frame.bytes (1 + byte)).testBit bit =
    (decide (8 * byte + bit < 11 * count) && dataBit values (8 * byte + bit))
  narrow : ∀ byte bit, 8 ≤ bit → (packer.frame.bytes (1 + byte)).testBit bit = false
  position : 8 * packer.index + packer.offset = 8 + 11 * count
  inside : ∀ index ∈ packer.frame.touched, 1 ≤ index ∧ 8 * index ≤ 24 + 11 * (count - 1)

theorem packed_empty (values : ℕ → ℕ) : Packed values 0 ⟨emptyFrame, 1, 0⟩ where
  start := rfl
  data := by
    intro byte bit _
    rw [emptyFrame_blank, Nat.zero_testBit, decide_eq_false (by omega), Bool.false_and]
  narrow := by
    intro byte bit _
    rw [emptyFrame_blank, Nat.zero_testBit]
  position := rfl
  inside := fun _ impossible => nomatch impossible

theorem bit_lt_width {value width bit : ℕ} (small : value < 2 ^ width)
    (set : value.testBit bit = true) : bit < width :=
  (Nat.pow_lt_pow_iff_right Nat.one_lt_two).mp
    (lt_of_le_of_lt (Nat.ge_two_pow_of_testBit set) small)

theorem testBit_high {value bit : ℕ} (small : value < 2 ^ 11) (high : 11 ≤ bit) :
    value.testBit bit = false :=
  Bool.eq_false_iff.mpr fun set => (bit_lt_width small set).not_ge high

/-- The three bytes that a round writes get the bits of its value, where they belong. -/
theorem pack_bit {value offset first byte bit : ℕ} (small : value < 2 ^ 11) (wrapped : offset < 8)
    (narrow : bit < 8) :
    ((decide (1 + byte = first) && ((value <<< offset).testBit bit && decide (bit < 8))) ||
      (decide (1 + byte = first + 1) &&
        ((value >>> (8 - offset)).testBit bit && decide (bit < 8))) ||
      (decide (1 + byte = first + 2) &&
        ((value >>> (16 - offset)).testBit bit && decide (bit < 8)))) =
      (decide (8 * first + offset ≤ 8 * (1 + byte) + bit) &&
        value.testBit (8 * (1 + byte) + bit - (8 * first + offset))) := by
  rw [Nat.testBit_shiftLeft, Nat.testBit_shiftRight, Nat.testBit_shiftRight, decide_eq_true narrow,
    Bool.and_true, Bool.and_true, Bool.and_true]
  by_cases here : 1 + byte = first
  · rw [decide_eq_true here, decide_eq_false (by omega : ¬ 1 + byte = first + 1),
      decide_eq_false (by omega : ¬ 1 + byte = first + 2), Bool.true_and, Bool.false_and,
      Bool.false_and, Bool.or_false, Bool.or_false, here]
    congr 1
    · exact decide_eq_decide.mpr (by omega)
    · congr 1
      omega
  · by_cases next : 1 + byte = first + 1
    · rw [decide_eq_false here, decide_eq_true next,
        decide_eq_false (by omega : ¬ 1 + byte = first + 2), Bool.false_and, Bool.true_and,
        Bool.false_and, Bool.false_or, Bool.or_false, next, decide_eq_true (by omega), Bool.true_and]
      congr 1
      omega
    · by_cases last : 1 + byte = first + 2
      · rw [decide_eq_false here, decide_eq_false next, decide_eq_true last, Bool.false_and,
          Bool.false_and, Bool.true_and, Bool.false_or, Bool.false_or, last,
          decide_eq_true (by omega), Bool.true_and]
        congr 1
        omega
      · rw [decide_eq_false here, decide_eq_false next, decide_eq_false last, Bool.false_and,
          Bool.false_and, Bool.false_and, Bool.false_or, Bool.false_or]
        by_cases before : 8 * first + offset ≤ 8 * (1 + byte) + bit
        · rw [testBit_high small (by omega), Bool.and_false]
        · rw [decide_eq_false before, Bool.false_and]

/-- A round packs one more channel. -/
theorem Packed.pack {values : ℕ → ℕ} {count : ℕ} {packer : Packer}
    (packed : Packed values count packer) (small : values count < 2 ^ 11) :
    Packed values (count + 1) (packer.pack (values count)) := by
  have limited : (if values count > 0x07ff then 0x07ff else values count) = values count :=
    if_neg (by omega)
  have place : packer.index + packer.offset / 8 = 1 + 11 * count / 8 ∧
      packer.offset % 8 = 11 * count % 8 := by
    have position := packed.position
    omega
  have result : packer.pack (values count) =
      ⟨((packer.frame.orByte (1 + 11 * count / 8) (values count <<< (11 * count % 8))).orByte
        (1 + 11 * count / 8 + 1) (values count >>> (8 - 11 * count % 8))).orByte
        (1 + 11 * count / 8 + 2) (values count >>> (16 - 11 * count % 8)),
        1 + 11 * count / 8, 11 * count % 8 + 11⟩ := by
    rw [Packer.pack, limited, wrapOffset_eq, place.1, place.2]
  have bits : ∀ byte bit, bit < 8 →
      ((packer.pack (values count)).frame.bytes (1 + byte)).testBit bit =
      ((packer.frame.bytes (1 + byte)).testBit bit ||
        (decide (11 * count ≤ 8 * byte + bit) &&
          (values count).testBit (8 * byte + bit - 11 * count))) := by
    intro byte bit narrow
    rw [result, orByte_testBit, orByte_testBit, orByte_testBit, Bool.or_assoc, Bool.or_assoc,
      ← Bool.or_assoc (decide (1 + byte = 1 + 11 * count / 8) && _),
      pack_bit small (Nat.mod_lt _ (by decide)) narrow]
    congr 2
    · exact decide_eq_decide.mpr (by omega)
    · congr 1
      omega
  refine ⟨?_, fun byte bit narrow => ?_, fun byte bit high => ?_, ?_, ?_⟩
  · rw [result]
    dsimp only
    rw [orByte_other _ _ (by omega), orByte_other _ _ (by omega), orByte_other _ _ (by omega)]
    exact packed.start
  · rw [bits byte bit narrow, packed.data byte bit narrow, dataBit]
    by_cases before : 8 * byte + bit < 11 * count
    · rw [decide_eq_true before, decide_eq_true (by omega : 8 * byte + bit < 11 * (count + 1)),
        decide_eq_false (by omega : ¬ 11 * count ≤ 8 * byte + bit), Bool.false_and, Bool.or_false]
    · rw [decide_eq_false before, Bool.false_and, Bool.false_or,
        decide_eq_true (by omega : 11 * count ≤ 8 * byte + bit), Bool.true_and]
      by_cases here : 8 * byte + bit < 11 * (count + 1)
      · have channel : (8 * byte + bit) / 11 = count := by omega
        rw [decide_eq_true here, Bool.true_and, channel]
        congr 1
        omega
      · rw [decide_eq_false here, Bool.false_and, testBit_high small (by omega)]
  · rw [result, orByte_testBit, orByte_testBit, orByte_testBit, packed.narrow byte bit high,
      decide_eq_false (by omega : ¬ bit < 8)]
    simp only [Bool.and_false, Bool.or_false]
  · rw [result]
    change 8 * (1 + 11 * count / 8) + (11 * count % 8 + 11) = 8 + 11 * (count + 1)
    omega
  · rw [result]
    change ∀ index ∈ (1 + 11 * count / 8 + 2) :: (1 + 11 * count / 8 + 1) ::
      (1 + 11 * count / 8) :: packer.frame.touched, _
    intro index member
    simp only [List.mem_cons] at member
    rcases member with same | same | same | earlier
    · omega
    · omega
    · omega
    · have bound := packed.inside index earlier
      omega

theorem packChannels_packed (values : ℕ → ℕ) (count : ℕ)
    (small : ∀ channel, channel < count → values channel < 2 ^ 11) :
    Packed values count (packChannels values count) := by
  induction count with
  | zero => exact packed_empty values
  | succ count inductionHypothesis =>
    rw [packChannels, List.range_succ, List.foldl_append]
    exact (inductionHypothesis fun channel before => small channel (by omega)).pack
      (small count (by omega))

/-! ### Decoding -/

/-- A pick takes bits of the channel, each from where it belongs. -/
def BitPick.Right (channel : ℕ) (decode : BitPick) : Prop :=
  decode.mask < 2 ^ 8 ∧ ∀ bit, bit < 8 → decode.mask.testBit bit = true →
    decode.rshift + bit < 8 ∧ bit + decode.lshift < 11 ∧
      8 * decode.byte + (decode.rshift + bit) = 11 * channel + (bit + decode.lshift)

/-- A row of the table takes exactly the bits of its channel. -/
def RightRow (channel : ℕ) (row : List BitPick) : Prop :=
  (∀ decode ∈ row, decode.Right channel) ∧
    ∀ bit, bit < 11 → ∃ decode ∈ row, decode.lshift ≤ bit ∧
      decode.mask.testBit (bit - decode.lshift) = true

instance (channel : ℕ) (decode : BitPick) : Decidable (decode.Right channel) :=
  inferInstanceAs (Decidable (_ ∧ ∀ bit, bit < 8 → _ → _ ∧ _ ∧ _))

instance (channel : ℕ) (row : List BitPick) : Decidable (RightRow channel row) :=
  inferInstanceAs (Decidable ((∀ decode ∈ row, _) ∧ ∀ bit, bit < 11 → ∃ decode ∈ row, _ ∧ _))

/-- The table is right, entry by entry. -/
theorem sbusDecoder_right : ∀ channel, channel < channels →
    RightRow channel (sbusDecoder.getD channel []) := by
  decide +kernel

theorem pickBits_testBit (frame : ℕ → ℕ) (row : List BitPick) (value bit : ℕ) :
    (pickBits frame row value).testBit bit = true ↔
      value.testBit bit = true ∨ ∃ decode ∈ row, decode.lshift ≤ bit ∧
        decode.mask.testBit (bit - decode.lshift) = true ∧
        (frame (1 + decode.byte)).testBit (decode.rshift + (bit - decode.lshift)) = true := by
  induction row generalizing value with
  | nil =>
    refine ⟨Or.inl, fun either => either.resolve_right ?_⟩
    rintro ⟨decode, impossible, -⟩
    exact nomatch impossible
  | cons decode rest inductionHypothesis =>
    have piece : (decode.piece frame).testBit bit = true ↔ decode.lshift ≤ bit ∧
        decode.mask.testBit (bit - decode.lshift) = true ∧
        (frame (1 + decode.byte)).testBit (decode.rshift + (bit - decode.lshift)) = true := by
      rw [BitPick.piece, Nat.testBit_shiftLeft, Nat.testBit_and, Nat.testBit_shiftRight,
        Bool.and_eq_true, Bool.and_eq_true, decide_eq_true_eq]
      tauto
    have first : (if decode.mask ≠ 0 then value ||| decode.piece frame else value).testBit bit =
        true ↔ value.testBit bit = true ∨ (decode.piece frame).testBit bit = true := by
      split
      · rw [Nat.testBit_or, Bool.or_eq_true]
      · rename_i unused
        rw [not_not] at unused
        rw [piece, unused, Nat.zero_testBit]
        tauto
    rw [pickBits, List.foldl_cons]
    refine (inductionHypothesis _).trans ?_
    rw [first, piece, List.exists_mem_cons_iff, or_assoc]

theorem rawValue_eq {values : ℕ → ℕ} {frame : ℕ → ℕ} {channel : ℕ}
    (known : channel < channels) (small : values channel < 2 ^ 11)
    (data : ∀ byte bit, bit < 8 → (frame (1 + byte)).testBit bit =
      (decide (8 * byte + bit < 11 * channels) && dataBit values (8 * byte + bit))) :
    rawValue frame channel = values channel := by
  obtain ⟨right, complete⟩ := sbusDecoder_right channel known
  have belongs : ∀ bit, bit < 11 → dataBit values (11 * channel + bit) =
      (values channel).testBit bit := by
    intro bit low
    rw [dataBit, show (11 * channel + bit) / 11 = channel by omega,
      show (11 * channel + bit) % 11 = bit by omega]
  have inData : ∀ bit, bit < 11 → 11 * channel + bit < 11 * channels := by
    intro bit low
    omega
  refine Nat.eq_of_testBit_eq fun bit => Bool.eq_iff_iff.mpr ?_
  rw [rawValue, pickBits_testBit, Nat.zero_testBit]
  constructor
  · rintro (impossible | ⟨decode, member, low, masked, picked⟩)
    · exact absurd impossible (by decide)
    · obtain ⟨wide, each⟩ := right decode member
      obtain ⟨narrow, eleven, place⟩ := each _ (bit_lt_width wide masked) masked
      rw [data _ _ narrow, place, Nat.sub_add_cancel low, decide_eq_true (inData bit (by omega)),
        Bool.true_and, belongs bit (by omega)] at picked
      exact picked
  · intro set
    have low := bit_lt_width small set
    obtain ⟨decode, member, above, masked⟩ := complete bit low
    obtain ⟨wide, each⟩ := right decode member
    obtain ⟨narrow, eleven, place⟩ := each _ (bit_lt_width wide masked) masked
    refine Or.inr ⟨decode, member, above, masked, ?_⟩
    rw [data _ _ narrow, place, Nat.sub_add_cancel above, decide_eq_true (inData bit low),
      Bool.true_and, belongs bit low]
    exact set

/-! ### The round trip -/

/-- What is sent is what is received. The frame is written only inside its 25 bytes, its flags and end
byte are zero, and the decoder extracts the values and neither failsafe nor a dropped frame. -/
theorem decode_packFrame (values : ℕ → ℕ)
    (small : ∀ channel, channel < channels → values channel ≤ 2047) (convert : ℕ → ℕ)
    (maxValues : ℕ) :
    (∀ index ∈ (packFrame values).touched, index < frameSize) ∧
      (packFrame values).bytes flagsByte = 0 ∧ (packFrame values).bytes 24 = 0 ∧
      (∀ channel, channel < channels →
        rawValue (packFrame values).bytes channel = values channel) ∧
      sbusDecode convert (packFrame values).bytes maxValues =
        some ⟨(List.range (min maxValues channels)).map (fun channel => convert (values channel)) ++
          (if maxValues > 17 then [998, 998] else []), false, false⟩ := by
  have bounded : ∀ channel, channel < channels → values channel < 2 ^ 11 :=
    fun channel known => lt_of_le_of_lt (small channel known) (by decide)
  have packed : Packed values channels (packChannels values channels) :=
    packChannels_packed values channels bounded
  have zero : ∀ byte, 22 ≤ byte → (packFrame values).bytes (1 + byte) = 0 := by
    intro byte behind
    refine Nat.eq_of_testBit_eq fun bit => ?_
    rw [Nat.zero_testBit]
    by_cases narrow : bit < 8
    · refine (packed.data byte bit narrow).trans ?_
      rw [decide_eq_false (by simp only [channels]; omega), Bool.false_and]
    · exact packed.narrow byte bit (by omega)
  have raw : ∀ channel, channel < channels →
      rawValue (packFrame values).bytes channel = values channel :=
    fun channel known => rawValue_eq known (bounded channel known) packed.data
  have flags : (packFrame values).bytes flagsByte = 0 := zero 22 (by decide)
  refine ⟨fun index member => ?_, flags, zero 23 (by decide), raw, ?_⟩
  · have bound := packed.inside index member
    simp only [channels] at bound
    simp only [frameSize]
    omega
  · have start : (packFrame values).bytes 0 = 0x0f := packed.start
    have count : (if maxValues > channels then channels else maxValues) =
        min maxValues channels := by
      split <;> omega
    have converted : (List.range (min maxValues channels)).map
        (fun channel => convert (rawValue (packFrame values).bytes channel)) =
        (List.range (min maxValues channels)).map (fun channel => convert (values channel)) := by
      refine List.map_congr_left fun channel member => ?_
      rw [raw channel (by rw [List.mem_range] at member; omega)]
    have switches : (maxValues > 17 ∧ min maxValues channels > 15) ↔ maxValues > 17 := by
      simp only [channels]
      omega
    rw [sbusDecode, if_neg (not_not.mpr start), count, flags]
    dsimp only
    rw [converted, if_congr switches rfl rfl]
    rfl

/-- Sixteen values from the whole range. -/
theorem decode_packFrame_steps :
    rawValue (packFrame fun channel => 136 * channel + 7).bytes 15 = 2047 :=
  (decode_packFrame (fun channel => 136 * channel + 7) (by decide) id 18).2.2.2.1 15 (by decide)

end Urus.Sbus
