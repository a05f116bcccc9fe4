/-
This file models how `prep_number` packs a number for the FrSky link, and proves for which numbers
the packed value can be read back. A value holds a mantissa, a power of ten and a sign. The number is
compared with the limit of a range before it is rounded, and the limits of the formats with three
digits are set for a mantissa of 1024, for which there is no room. So the numbers that are rounded up
to it set the bit of the sign.

The rounding of a quotient in floating point is taken as exact, with halves away from zero.
-/

import Mathlib.Tactic

namespace Urus.Frsky

/-! ### The code -/

/-- `roundf` of a number without sign that is divided by a power of ten. -/
def roundf (absNumber power : ℕ) : ℕ := (2 * absNumber + 10 ^ power) / (2 * 10 ^ power)

/-- `prep_number`. -/
def prepNumber (number : ℤ) (digits power : ℕ) : ℕ :=
  let absNumber := number.natAbs
  if digits = 2 ∧ power = 1 then
    let res :=
      if absNumber < 100 then absNumber <<< 1
      else if absNumber < 1270 then (roundf absNumber 1 % 2 ^ 8) <<< 1 ||| 0x1
      else 0xFF
    if number < 0 then res ||| 0x1 <<< 8 else res
  else if digits = 2 ∧ power = 2 then
    let res :=
      if absNumber < 100 then absNumber <<< 2
      else if absNumber < 1000 then (roundf absNumber 1 % 2 ^ 8) <<< 2 ||| 0x1
      else if absNumber < 10000 then (roundf absNumber 2 % 2 ^ 8) <<< 2 ||| 0x2
      else if absNumber < 127000 then (roundf absNumber 3 % 2 ^ 8) <<< 2 ||| 0x3
      else 0x1FF
    if number < 0 then res ||| 0x1 <<< 9 else res
  else if digits = 3 ∧ power = 1 then
    let res :=
      if absNumber < 1000 then absNumber <<< 1
      else if absNumber < 10240 then (roundf absNumber 1 % 2 ^ 16) <<< 1 ||| 0x1
      else 0x7FF
    if number < 0 then res ||| 0x1 <<< 11 else res
  else if digits = 3 ∧ power = 2 then
    let res :=
      if absNumber < 1000 then absNumber <<< 2
      else if absNumber < 10000 then (roundf absNumber 1 % 2 ^ 16) <<< 2 ||| 0x1
      else if absNumber < 100000 then (roundf absNumber 2 % 2 ^ 16) <<< 2 ||| 0x2
      else if absNumber < 1024000 then (roundf absNumber 3 % 2 ^ 16) <<< 2 ||| 0x3
      else 0xFFF
    if number < 0 then res ||| 0x1 <<< 12 else res
  else 0

/-! ### The formats -/

/-- The formats that are in use, by their digits and the bits for the power of ten. -/
inductive Format
  | twoOne
  | twoTwo
  | threeOne
  | threeTwo
  deriving DecidableEq

/-- The argument `digits`. -/
def Format.digits : Format → ℕ
  | .twoOne | .twoTwo => 2
  | .threeOne | .threeTwo => 3

/-- The argument `power`, which is the number of bits for the power of ten. -/
def Format.power : Format → ℕ
  | .twoOne | .threeOne => 1
  | .twoTwo | .threeTwo => 2

/-- The number of bits for the mantissa. -/
def Format.mantissaBits : Format → ℕ
  | .twoOne | .twoTwo => 7
  | .threeOne | .threeTwo => 10

/-- The number of bits in front of which the sign stands. -/
def Format.bits (format : Format) : ℕ := format.mantissaBits + format.power

/-- The largest magnitude. -/
def Format.most (format : Format) : ℕ :=
  (2 ^ format.mantissaBits - 1) * 10 ^ (2 ^ format.power - 1)

/-- The power of ten in a value. -/
def exponent (format : Format) (value : ℕ) : ℕ := value % 2 ^ format.power

/-- The mantissa in a value. -/
def mantissa (format : Format) (value : ℕ) : ℕ :=
  value / 2 ^ format.power % 2 ^ format.mantissaBits

/-- The number that a value stands for. -/
def decode (format : Format) (value : ℕ) : ℤ :=
  let magnitude : ℤ := mantissa format value * 10 ^ exponent format value
  if value.testBit format.bits then -magnitude else magnitude

/-- A value can be read back: it has a sign in its place and nothing above it, and stands for the
number up to half a unit of its power of ten, or for the largest magnitude if the number is
larger. -/
structure Faithful (format : Format) (number : ℤ) (value : ℕ) : Prop where
  fits : value < 2 ^ (format.bits + 1)
  negative : value.testBit format.bits = true ↔ number < 0
  sign : (decode format value).sign = number.sign
  near : 2 * (decode format value - number).natAbs ≤ 10 ^ exponent format value ∨
    format.most < number.natAbs ∧ (decode format value).natAbs = format.most

/-- A number is below the limit, and is rounded up to it. -/
def RoundsUp : Format → ℤ → Prop
  | .twoOne, _ | .twoTwo, _ => False
  | .threeOne, number => 10235 ≤ number.natAbs ∧ number.natAbs < 10240
  | .threeTwo, number => 1023500 ≤ number.natAbs ∧ number.natAbs < 1024000

/-! ### Packing -/

/-- A mantissa, a power of ten and a sign in one value. -/
def pack (format : Format) (number : ℤ) (m e : ℕ) : ℕ :=
  m * 2 ^ format.power + e + if number < 0 then 2 ^ format.bits else 0

/-- What a mantissa and a power of ten have to be for a number. -/
structure Stands (format : Format) (number : ℤ) (m e : ℕ) : Prop where
  mantissa : m < 2 ^ format.mantissaBits
  exponent : e < 2 ^ format.power
  zero : m = 0 ↔ number = 0
  near : 2 * ((m * 10 ^ e : ℕ) - (number.natAbs : ℤ)).natAbs ≤ 10 ^ e ∨
    format.most < number.natAbs ∧ m * 10 ^ e = format.most

variable {format : Format} {number : ℤ} {m e : ℕ}

theorem or_eq_add (m : ℕ) {e power : ℕ} (small : e < 2 ^ power) :
    m <<< power ||| e = m * 2 ^ power + e := by
  rw [← Nat.shiftLeft_add_eq_or_of_lt small, Nat.shiftLeft_eq]

theorem or_sign {value bits : ℕ} (small : value < 2 ^ bits) :
    value ||| 0x1 <<< bits = value + 2 ^ bits := by
  rw [Nat.or_comm, or_eq_add 1 small, Nat.one_mul, Nat.add_comm]

/-- The bits below the sign. -/
theorem body_lt (stands : Stands format number m e) :
    m * 2 ^ format.power + e < 2 ^ format.bits := by
  have whole : 2 ^ format.bits = 2 ^ format.mantissaBits * 2 ^ format.power := pow_add _ _ _
  have room : (m + 1) * 2 ^ format.power ≤ 2 ^ format.mantissaBits * 2 ^ format.power :=
    Nat.mul_le_mul_right _ stands.mantissa
  have small := stands.exponent
  rw [whole]
  rw [Nat.add_mul, Nat.one_mul] at room
  omega

theorem pack_body (format : Format) (number : ℤ) (m e : ℕ) : ∃ sign,
    pack format number m e = (m * 2 ^ format.power + e) + 2 ^ format.bits * sign ∧ sign ≤ 1 ∧
      (sign = 1 ↔ number < 0) := by
  rw [pack]
  split_ifs with below
  · exact ⟨1, by rw [Nat.mul_one], Nat.le_refl 1, iff_of_true rfl below⟩
  · exact ⟨0, by rw [Nat.mul_zero], Nat.zero_le 1, iff_of_false Nat.zero_ne_one below⟩

section

variable (stands : Stands format number m e)

include stands

theorem exponent_pack :
    exponent format (pack format number m e) = e := by
  obtain ⟨sign, packed, -⟩ := pack_body format number m e
  have whole : 2 ^ format.bits = 2 ^ format.power * 2 ^ format.mantissaBits := by
    rw [Format.bits, pow_add, Nat.mul_comm]
  rw [exponent, packed, whole, Nat.mul_assoc, Nat.add_mul_mod_self_left, Nat.add_comm,
    Nat.add_mul_mod_self_right, Nat.mod_eq_of_lt stands.exponent]

theorem mantissa_pack :
    mantissa format (pack format number m e) = m := by
  obtain ⟨sign, packed, -⟩ := pack_body format number m e
  have whole : 2 ^ format.bits = 2 ^ format.power * 2 ^ format.mantissaBits := by
    rw [Format.bits, pow_add, Nat.mul_comm]
  have positive : 0 < 2 ^ format.power := Nat.two_pow_pos _
  rw [mantissa, packed, whole, Nat.mul_assoc, Nat.add_mul_div_left _ _ positive, Nat.add_comm _ e,
    Nat.add_mul_div_right _ _ positive, Nat.div_eq_of_lt stands.exponent, Nat.zero_add,
    Nat.add_mul_mod_self_left, Nat.mod_eq_of_lt stands.mantissa]

theorem testBit_pack :
    (pack format number m e).testBit format.bits = true ↔ number < 0 := by
  obtain ⟨sign, packed, small, negative⟩ := pack_body format number m e
  have positive : 0 < 2 ^ format.bits := Nat.two_pow_pos _
  rw [packed, ← negative, Nat.testBit_eq_decide_div_mod_eq, decide_eq_true_eq,
    Nat.add_mul_div_left _ _ positive, Nat.div_eq_of_lt (body_lt stands), Nat.zero_add]
  omega

theorem decode_pack :
    decode format (pack format number m e) =
      if number < 0 then -((m * 10 ^ e : ℕ) : ℤ) else (m * 10 ^ e : ℕ) := by
  rw [decode, exponent_pack stands, mantissa_pack stands]
  simp only [testBit_pack stands, Nat.cast_mul, Nat.cast_pow, Nat.cast_ofNat]

/-- A packed value can be read back. -/
theorem faithful_pack :
    Faithful format number (pack format number m e) := by
  obtain ⟨sign, packed, small, -⟩ := pack_body format number m e
  have body := body_lt stands
  have zero := stands.zero
  have near := stands.near
  have some_power : 0 < 10 ^ e := Nat.pos_of_ne_zero (by positivity)
  have vanishes : m * 10 ^ e = 0 ↔ number = 0 := by
    rw [Nat.mul_eq_zero, ← zero]
    exact or_iff_left some_power.ne'
  refine ⟨?_, testBit_pack stands, ?_, ?_⟩
  · rw [packed, pow_succ]
    have bound : 2 ^ format.bits * sign ≤ 2 ^ format.bits * 1 := Nat.mul_le_mul_left _ small
    omega
  · rw [decode_pack stands]
    generalize m * 10 ^ e = magnitude at vanishes
    split_ifs with below
    · have positive : 0 < magnitude := Nat.pos_of_ne_zero fun none => by
        rw [vanishes.mp none] at below
        exact lt_irrefl _ below
      rw [Int.sign_eq_neg_one_of_neg below, Int.sign_eq_neg_one_of_neg (by omega)]
    · rcases (not_lt.mp below).eq_or_lt with none | above
      · rw [vanishes.mpr none.symm, ← none]
        rfl
      · have positive : 0 < magnitude := Nat.pos_of_ne_zero fun none => by
          rw [vanishes.mp none] at above
          exact lt_irrefl _ above
        rw [Int.sign_eq_one_of_pos above, Int.sign_eq_one_of_pos (by omega)]
  · rw [decode_pack stands, exponent_pack stands]
    generalize m * 10 ^ e = magnitude at near
    refine near.imp (fun close => ?_) fun ⟨large, equal⟩ => ⟨large, ?_⟩
    · split_ifs with below
      · have same : (-(magnitude : ℤ) - number).natAbs =
            ((magnitude : ℤ) - number.natAbs).natAbs := by omega
        rw [same]
        exact close
      · have same : ((magnitude : ℤ) - number).natAbs =
            ((magnitude : ℤ) - number.natAbs).natAbs := by omega
        rw [same]
        exact close
    · split_ifs <;> omega

/-! ### Each format -/

/-- A packed value behind the ors of the code. -/
theorem faithful_or {res : ℕ}
    (packed : res = m <<< format.power ||| e) :
    Faithful format number (if number < 0 then res ||| 0x1 <<< format.bits else res) := by
  have same : (if number < 0 then res ||| 0x1 <<< format.bits else res) =
      pack format number m e := by
    rw [packed, or_eq_add m stands.exponent, pack]
    split_ifs
    · exact or_sign (body_lt stands)
    · rfl
  rw [same]
  exact faithful_pack stands

end

/-- A number below the first limit is its own mantissa. -/
theorem stands_exact (small : number.natAbs < 2 ^ format.mantissaBits) :
    Stands format number number.natAbs 0 where
  mantissa := small
  exponent := Nat.two_pow_pos _
  zero := Int.natAbs_eq_zero
  near := Or.inl (by rw [pow_zero, Nat.mul_one, sub_self]; decide)

theorem roundf_near (absNumber e : ℕ) :
    2 * ((roundf absNumber e * 10 ^ e : ℕ) - (absNumber : ℤ)).natAbs ≤ 10 ^ e := by
  have some_power : 0 < 10 ^ e := Nat.pos_of_ne_zero (by positivity)
  have split := Nat.div_add_mod (2 * absNumber + 10 ^ e) (2 * 10 ^ e)
  have rest := Nat.mod_lt (2 * absNumber + 10 ^ e) (Nat.mul_pos Nat.two_pos some_power)
  have product : roundf absNumber e * 10 ^ e * 2 =
      2 * 10 ^ e * ((2 * absNumber + 10 ^ e) / (2 * 10 ^ e)) := by
    rw [roundf]
    ring
  omega

theorem stands_rounded (small : roundf number.natAbs e < 2 ^ format.mantissaBits)
    (few : e < 2 ^ format.power) (large : 10 ^ e ≤ number.natAbs) :
    Stands format number (roundf number.natAbs e) e where
  mantissa := small
  exponent := few
  zero := by
    have some_power : 0 < 10 ^ e := Nat.pos_of_ne_zero (by positivity)
    have positive : 0 < roundf number.natAbs e :=
      Nat.div_pos (by omega) (Nat.mul_pos Nat.two_pos some_power)
    refine iff_of_false positive.ne' fun none => ?_
    rw [none, Int.natAbs_zero] at large
    exact absurd (some_power.trans_le large) (lt_irrefl 0)
  near := Or.inl (roundf_near _ _)

theorem stands_most (large : format.most ≤ number.natAbs) :
    Stands format number (2 ^ format.mantissaBits - 1) (2 ^ format.power - 1) where
  mantissa := Nat.sub_lt (Nat.two_pow_pos _) Nat.one_pos
  exponent := Nat.sub_lt (Nat.two_pow_pos _) Nat.one_pos
  zero := by
    have some_mantissa : 2 ^ format.mantissaBits - 1 ≠ 0 := by cases format <;> decide
    have some_most : format.most ≠ 0 := by cases format <;> decide
    refine iff_of_false some_mantissa fun none => ?_
    rw [none, Int.natAbs_zero] at large
    omega
  near := by
    rcases large.lt_or_eq with above | equal
    · exact Or.inr ⟨above, rfl⟩
    · refine Or.inl ?_
      change 2 * ((format.most : ℤ) - number.natAbs).natAbs ≤ _
      rw [equal, sub_self]
      exact Nat.zero_le _

theorem roundf_le {absNumber e limit : ℕ} (below : 2 * absNumber < (2 * limit + 1) * 10 ^ e) :
    roundf absNumber e ≤ limit := by
  have some_power : 0 < 10 ^ e := Nat.pos_of_ne_zero (by positivity)
  rw [roundf, ← Nat.lt_succ_iff, Nat.div_lt_iff_lt_mul (Nat.mul_pos Nat.two_pos some_power)]
  calc 2 * absNumber + 10 ^ e < (2 * limit + 1) * 10 ^ e + 10 ^ e := Nat.add_lt_add_right below _
    _ = limit.succ * (2 * 10 ^ e) := by rw [Nat.succ_eq_add_one]; ring

/-- A range of the code in which the rounded number fits. -/
theorem faithful_range (limit : ℕ) {width : ℕ} (few : e < 2 ^ format.power)
    (large : 10 ^ e ≤ number.natAbs) (below : 2 * number.natAbs < (2 * limit + 1) * 10 ^ e)
    (room : limit < 2 ^ format.mantissaBits) (narrow : limit < 2 ^ width) :
    Faithful format number
      (if number < 0 then ((roundf number.natAbs e % 2 ^ width) <<< format.power ||| e) |||
          0x1 <<< format.bits
        else (roundf number.natAbs e % 2 ^ width) <<< format.power ||| e) := by
  have bound : roundf number.natAbs e ≤ limit := roundf_le below
  rw [Nat.mod_eq_of_lt (bound.trans_lt narrow)]
  exact faithful_or (stands_rounded (bound.trans_lt room) few large) rfl

theorem faithful_twoOne (number : ℤ) : Faithful .twoOne number (prepNumber number 2 1) := by
  rw [prepNumber]
  dsimp only
  rw [if_pos ⟨rfl, rfl⟩]
  by_cases units : number.natAbs < 100
  · rw [if_pos units]
    exact faithful_or (stands_exact (units.trans (by decide))) (Nat.or_zero _).symm
  rw [if_neg units]
  by_cases tens : number.natAbs < 1270
  · rw [if_pos tens]
    exact faithful_range 127 (by decide) (by omega) (by omega) (by decide) (by decide)
  · rw [if_neg tens]
    have large : Format.most .twoOne ≤ number.natAbs := not_lt.mp tens
    exact faithful_or (stands_most large) rfl

theorem faithful_twoTwo (number : ℤ) : Faithful .twoTwo number (prepNumber number 2 2) := by
  rw [prepNumber]
  dsimp only
  rw [if_neg (by decide), if_pos ⟨rfl, rfl⟩]
  by_cases units : number.natAbs < 100
  · rw [if_pos units]
    exact faithful_or (stands_exact (units.trans (by decide))) (Nat.or_zero _).symm
  rw [if_neg units]
  by_cases tens : number.natAbs < 1000
  · rw [if_pos tens]
    exact faithful_range 100 (by decide) (by omega) (by omega) (by decide) (by decide)
  rw [if_neg tens]
  by_cases hundreds : number.natAbs < 10000
  · rw [if_pos hundreds]
    exact faithful_range 100 (by decide) (by omega) (by omega) (by decide) (by decide)
  rw [if_neg hundreds]
  by_cases thousands : number.natAbs < 127000
  · rw [if_pos thousands]
    exact faithful_range 127 (by decide) (by omega) (by omega) (by decide) (by decide)
  · rw [if_neg thousands]
    have large : Format.most .twoTwo ≤ number.natAbs := not_lt.mp thousands
    exact faithful_or (stands_most large) rfl

theorem faithful_threeOne {number : ℤ} (below : ¬ RoundsUp .threeOne number) :
    Faithful .threeOne number (prepNumber number 3 1) := by
  rw [RoundsUp] at below
  rw [prepNumber]
  dsimp only
  rw [if_neg (by decide), if_neg (by decide), if_pos ⟨rfl, rfl⟩]
  by_cases units : number.natAbs < 1000
  · rw [if_pos units]
    exact faithful_or (stands_exact (units.trans (by decide))) (Nat.or_zero _).symm
  rw [if_neg units]
  by_cases tens : number.natAbs < 10240
  · rw [if_pos tens]
    exact faithful_range 1023 (by decide) (by omega) (by omega) (by decide) (by decide)
  · rw [if_neg tens]
    have large : Format.most .threeOne ≤ number.natAbs :=
      le_trans (by decide) (not_lt.mp tens)
    exact faithful_or (stands_most large) rfl

theorem faithful_threeTwo {number : ℤ} (below : ¬ RoundsUp .threeTwo number) :
    Faithful .threeTwo number (prepNumber number 3 2) := by
  rw [RoundsUp] at below
  rw [prepNumber]
  dsimp only
  rw [if_neg (by decide), if_neg (by decide), if_neg (by decide), if_pos ⟨rfl, rfl⟩]
  by_cases units : number.natAbs < 1000
  · rw [if_pos units]
    exact faithful_or (stands_exact (units.trans (by decide))) (Nat.or_zero _).symm
  rw [if_neg units]
  by_cases tens : number.natAbs < 10000
  · rw [if_pos tens]
    exact faithful_range 1000 (by decide) (by omega) (by omega) (by decide) (by decide)
  rw [if_neg tens]
  by_cases hundreds : number.natAbs < 100000
  · rw [if_pos hundreds]
    exact faithful_range 1000 (by decide) (by omega) (by omega) (by decide) (by decide)
  rw [if_neg hundreds]
  by_cases thousands : number.natAbs < 1024000
  · rw [if_pos thousands]
    exact faithful_range 1023 (by decide) (by omega) (by omega) (by decide) (by decide)
  · rw [if_neg thousands]
    have large : Format.most .threeTwo ≤ number.natAbs :=
      le_trans (by decide) (not_lt.mp thousands)
    exact faithful_or (stands_most large) rfl

/-! ### Rounding up -/

theorem not_faithful_of_overflow {value : ℕ} (signed : value.testBit format.bits = true)
    (none : mantissa format value = 0) : ¬ Faithful format number value := by
  intro faithful
  have below := faithful.negative.mp signed
  have sign := faithful.sign
  rw [decode, none, Nat.cast_zero, zero_mul, neg_zero, ite_self, Int.sign_zero,
    Int.sign_eq_neg_one_of_neg below] at sign
  exact absurd sign (by decide)

/-- The quotient is 1024. -/
theorem roundf_eq {absNumber e : ℕ} (above : 2047 * 10 ^ e ≤ 2 * absNumber)
    (below : absNumber < 1024 * 10 ^ e) : roundf absNumber e = 1024 := by
  have some_power : 0 < 10 ^ e := Nat.pos_of_ne_zero (by positivity)
  refine le_antisymm (roundf_le ?_) ?_
  · calc 2 * absNumber < 2 * (1024 * 10 ^ e) := Nat.mul_lt_mul_of_pos_left below Nat.two_pos
      _ ≤ (2 * 1024 + 1) * 10 ^ e := by
        rw [← Nat.mul_assoc]
        exact Nat.mul_le_mul_right _ (by decide)
  · rw [roundf, Nat.le_div_iff_mul_le (Nat.mul_pos Nat.two_pos some_power)]
    calc 1024 * (2 * 10 ^ e) = 2047 * 10 ^ e + 10 ^ e := by ring
      _ ≤ 2 * absNumber + 10 ^ e := Nat.add_le_add_right above _

theorem not_faithful_threeOne {number : ℤ} (roundsUp : RoundsUp .threeOne number) :
    ¬ Faithful .threeOne number (prepNumber number 3 1) := by
  obtain ⟨above, below⟩ := roundsUp
  have full : roundf number.natAbs 1 = 1024 := roundf_eq (by omega) (by omega)
  have notUnits : ¬ number.natAbs < 1000 := by omega
  have value : prepNumber number 3 1 = 2049 := by
    rw [prepNumber]
    dsimp only
    rw [if_neg (by decide), if_neg (by decide), if_pos ⟨rfl, rfl⟩, if_neg notUnits, if_pos below,
      full]
    exact ite_self 2049
  rw [value]
  exact not_faithful_of_overflow (by decide) (by decide)

theorem not_faithful_threeTwo {number : ℤ} (roundsUp : RoundsUp .threeTwo number) :
    ¬ Faithful .threeTwo number (prepNumber number 3 2) := by
  obtain ⟨above, below⟩ := roundsUp
  have full : roundf number.natAbs 3 = 1024 := roundf_eq (by omega) (by omega)
  have notUnits : ¬ number.natAbs < 1000 := by omega
  have notTens : ¬ number.natAbs < 10000 := by omega
  have notHundreds : ¬ number.natAbs < 100000 := by omega
  have value : prepNumber number 3 2 = 4099 := by
    rw [prepNumber]
    dsimp only
    rw [if_neg (by decide), if_neg (by decide), if_neg (by decide), if_pos ⟨rfl, rfl⟩,
      if_neg notUnits, if_neg notTens, if_neg notHundreds, if_pos below, full]
    exact ite_self 4099
  rw [value]
  exact not_faithful_of_overflow (by decide) (by decide)

/-- A packed number can be read back if and only if it is not rounded up to a mantissa for which
there is no room. -/
theorem prepNumber_faithful_iff (format : Format) (number : ℤ) :
    Faithful format number (prepNumber number format.digits format.power) ↔
      ¬ RoundsUp format number := by
  cases format with
  | twoOne => exact iff_of_true (faithful_twoOne number) not_false
  | twoTwo => exact iff_of_true (faithful_twoTwo number) not_false
  | threeOne =>
    exact ⟨fun faithful roundsUp => not_faithful_threeOne roundsUp faithful, faithful_threeOne⟩
  | threeTwo =>
    exact ⟨fun faithful roundsUp => not_faithful_threeTwo roundsUp faithful, faithful_threeTwo⟩

/-- The number 10235 is sent with the sign of a negative one. -/
theorem prepNumber_threeOne :
    ¬ ∀ (format : Format) (number : ℤ), -2 ^ 31 < number → number < 2 ^ 31 →
      Faithful format number (prepNumber number format.digits format.power) := by
  intro faithful
  have signed : (prepNumber 10235 3 1).testBit (Format.bits .threeOne) = true := by decide
  have here := faithful .threeOne 10235 (by decide) (by decide)
  have below : (10235 : ℤ) < 0 := here.negative.mp signed
  exact absurd below (by decide)

end Urus.Frsky
